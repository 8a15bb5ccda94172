import Echelon.Proofs.Number.ReadBack

/-!
# The sign of a zero

Numbers are alike when they are the same but for the sign of a zero. Calculating with alike numbers
gives alike numbers, and checks on them have one answer. The sign of a zero only gets through to
another zero: a division by zero, the one place where it would decide between two infinities, does
not happen.
-/

namespace Echelon.Binary64

open Number

/-- The same number, or zeros of any signs. -/
def Alike (x y : Binary64) : Prop := x = y ∨ x.isZero = true ∧ y.isZero = true

instance (x y : Binary64) : Decidable (x.Alike y) := inferInstanceAs (Decidable (_ ∨ _))

variable {x y z a b : Binary64}

theorem Alike.refl (x : Binary64) : x.Alike x := Or.inl rfl

theorem Alike.trans (h : x.Alike y) (h' : y.Alike z) : x.Alike z := by
  rcases h with rfl | ⟨hx, hy⟩
  · exact h'
  · rcases h' with rfl | ⟨_, hz⟩
    · exact Or.inr ⟨hx, hy⟩
    · exact Or.inr ⟨hx, hz⟩

theorem exists_eq_zero (h : x.isZero = true) : ∃ s, x = zero s := by
  cases x with
  | finite s m =>
    have hm : m = default := Magnitude.eq_iff.mpr ((isZero_finite s m).mp h)
    exact ⟨s, by rw [hm, zero]⟩
  | infinite s => cases h
  | nan => cases h

/-- What does not see the sign of a zero sees no difference between alike numbers. -/
theorem Alike.congr {α : Type} {f : Binary64 → α} (h : x.Alike y)
    (hf : ∀ s t, f (zero s) = f (zero t)) : f x = f y := by
  rcases h with rfl | ⟨hx, hy⟩
  · rfl
  · obtain ⟨s, rfl⟩ := exists_eq_zero hx
    obtain ⟨t, rfl⟩ := exists_eq_zero hy
    exact hf s t

theorem Alike.map {f : Binary64 → Binary64} (h : x.Alike y)
    (hf : ∀ s t, (f (zero s)).Alike (f (zero t))) : (f x).Alike (f y) := by
  rcases h with rfl | ⟨hx, hy⟩
  · exact Alike.refl _
  · obtain ⟨s, rfl⟩ := exists_eq_zero hx
    obtain ⟨t, rfl⟩ := exists_eq_zero hy
    exact hf s t

theorem Alike.isZero_eq (h : x.Alike y) : x.isZero = y.isZero := h.congr fun _ _ => rfl

theorem Alike.isFinite_eq (h : x.Alike y) : x.isFinite = y.isFinite := h.congr fun _ _ => rfl

theorem Alike.plain_eq (h : x.Alike y) : x.plain = y.plain := h.congr fun _ _ => rfl

theorem Alike.text_eq (h : x.Alike y) : x.text = y.text := h.congr fun _ _ => rfl

/-- Only zeros have a like other than themselves. -/
theorem Alike.eq (h : x.Alike y) (hx : x.isZero = false) : x = y := by
  rcases h with rfl | ⟨hzero, _⟩
  · rfl
  · rw [hx] at hzero
    cases hzero

/-! ## Calculating with zeros -/

theorem alike_zeros (s t : Bool) : (zero s).Alike (zero t) := Or.inr ⟨rfl, rfl⟩

theorem quanta_default : Magnitude.quanta default = 0 := rfl

theorem mul_finite (s t : Bool) (m n : Magnitude) :
    finite s m * finite t n = rounded (s != t) (m.quanta * n.quanta) quantaPerUnit := by
  show mul (finite s m) (finite t n) = _
  rw [mul]

theorem zero_mul_alike (y : Binary64) (s t : Bool) : (zero s * y).Alike (zero t * y) := by
  cases y with
  | finite u n =>
    have hzero (s : Bool) : zero s * finite u n = zero (s != u) := by
      rw [zero, mul_finite, quanta_default, Nat.zero_mul, rounded_zero _ quantaPerUnit_pos, zero]
    rw [hzero, hzero]
    exact alike_zeros _ _
  | infinite u => exact Alike.refl _
  | nan => exact Alike.refl _

theorem mul_zero_alike (x : Binary64) (s t : Bool) : (x * zero s).Alike (x * zero t) := by
  cases x with
  | finite u n =>
    have hzero (s : Bool) : finite u n * zero s = zero (u != s) := by
      rw [zero, mul_finite, quanta_default, Nat.mul_zero, rounded_zero _ quantaPerUnit_pos, zero]
    rw [hzero, hzero]
    exact alike_zeros _ _
  | infinite u => exact Alike.refl _
  | nan => exact Alike.refl _

theorem zero_div_alike (hd : y.isZero = false) (s t : Bool) :
    (zero s / y).Alike (zero t / y) := by
  cases y with
  | finite u n =>
    have hn : n.quanta ≠ 0 := by simpa [isZero] using hd
    have hzero (s : Bool) : zero s / finite u n = zero (s != u) := by
      have hdiv : zero s / finite u n =
        rounded (s != u) (Magnitude.quanta default * quantaPerUnit) n.quanta := if_neg hn
      rw [hdiv, quanta_default, Nat.zero_mul, rounded_zero _ (Nat.pos_of_ne_zero hn)]
    rw [hzero, hzero]
    exact alike_zeros _ _
  | infinite u => exact alike_zeros _ _
  | nan => exact Alike.refl _

theorem zero_rem_finite (s u : Bool) {n : Magnitude} (hn : n.quanta ≠ 0) :
    zero s % finite u n = zero s := by
  have hrem : zero s % finite u n = rounded s (Magnitude.quanta default % n.quanta) 1 := if_neg hn
  rw [hrem, quanta_default, Nat.zero_mod, rounded_zero _ Nat.one_pos]

theorem zero_rem_alike (y : Binary64) (s t : Bool) : (zero s % y).Alike (zero t % y) := by
  cases y with
  | finite u n =>
    by_cases hn : n.quanta = 0
    · have hnan (s : Bool) : zero s % finite u n = nan := if_pos hn
      rw [hnan, hnan]
      exact Alike.refl _
    · rw [zero_rem_finite s u hn, zero_rem_finite t u hn]
      exact alike_zeros _ _
  | infinite u => exact alike_zeros _ _
  | nan => exact Alike.refl _

/-- A zero has no remainder under a division that gives a finite number. -/
theorem isZero_rem (hx : x.isZero = true) (hy : y.isZero = false)
    (hq : (x / y).isFinite = true) : (x % y).isZero = true := by
  obtain ⟨s, rfl⟩ := exists_eq_zero hx
  cases y with
  | finite u n =>
    rw [zero_rem_finite s u (by simpa [isZero] using hy)]
    rfl
  | infinite u => rfl
  | nan => cases hq

theorem signed_default (s : Bool) : signed s default = 0 := by cases s <;> rfl

/-- A zero only decides the sign of a sum when that is zero as well. -/
theorem zero_add_alike (y : Binary64) (s t : Bool) : (zero s + y).Alike (zero t + y) := by
  cases y with
  | finite u n =>
    have hsum (s : Bool) : zero s + finite u n =
        if signed u n = 0 then zero (s && u) else ofQuanta (signed u n) := by
      show (if signed s default + signed u n = 0 then zero (s && u)
        else ofQuanta (signed s default + signed u n)) = _
      rw [signed_default, Int.zero_add]
    rw [hsum, hsum]
    split
    · exact alike_zeros _ _
    · exact Alike.refl _
  | infinite u => exact Alike.refl _
  | nan => exact Alike.refl _

theorem add_zero_alike (x : Binary64) (s t : Bool) : (x + zero s).Alike (x + zero t) := by
  cases x with
  | finite u n =>
    have hsum (s : Bool) : finite u n + zero s =
        if signed u n = 0 then zero (u && s) else ofQuanta (signed u n) := by
      show (if signed u n + signed s default = 0 then zero (u && s)
        else ofQuanta (signed u n + signed s default)) = _
      rw [signed_default, Int.add_zero]
    rw [hsum, hsum]
    split
    · exact alike_zeros _ _
    · exact Alike.refl _
  | infinite u => exact Alike.refl _
  | nan => exact Alike.refl _

/-! ## Calculating with alike numbers -/

theorem Alike.neg (h : x.Alike y) : (-x).Alike (-y) := h.map fun _ _ => alike_zeros _ _

theorem Alike.mul (h : x.Alike y) (h' : a.Alike b) : (x * a).Alike (y * b) :=
  (h.map (f := (· * a)) (zero_mul_alike a)).trans (h'.map (f := (y * ·)) (mul_zero_alike y))

theorem Alike.add (h : x.Alike y) (h' : a.Alike b) : (x + a).Alike (y + b) :=
  (h.map (f := (· + a)) (zero_add_alike a)).trans (h'.map (f := (y + ·)) (add_zero_alike y))

theorem Alike.sub (h : x.Alike y) (h' : a.Alike b) : (x - a).Alike (y - b) := h.add h'.neg

theorem Alike.div (h : x.Alike y) (hd : a.isZero = false) : (x / a).Alike (y / a) :=
  h.map (f := (· / a)) (zero_div_alike hd)

theorem Alike.rem (h : x.Alike y) (a : Binary64) : (x % a).Alike (y % a) :=
  h.map (f := (· % a)) (zero_rem_alike a)

theorem Alike.join (joiner : Joiner) (h : x.Alike y) (h' : a.Alike b) :
    (joiner.join x a).Alike (joiner.join y b) := by
  cases joiner with
  | plus => exact h.add h'
  | minus => exact h.sub h'

end Echelon.Binary64
