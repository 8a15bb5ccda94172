import Echelon.Cell
import Echelon.Proofs.Number.ReadBack
import Mathlib.Algebra.Field.Rat
import Mathlib.Data.Nat.Factorization.Basic
import Mathlib.Tactic.FieldSimp
import Mathlib.Tactic.Ring

/-!
# The rational value of a number

A finite number is a whole count of quanta, so its value is a rational number. A sum or a product is
rounded and need not have the value that it stands for. A quotient that comes out even does: both
numbers have few significant bits, so their whole quotient has no more, and it is not rounded. The
remainder decides this without an error, as rounding turns no positive count of quanta into none.
-/

namespace Echelon

-- Powers of naturals are those of core.
attribute [local instance (high)] instPowNat

/-! ## Few significant bits -/

namespace Number

variable {k b n : Nat}

theorem Short.exists_two_pow_dvd (h : Short n) : ∃ e, 2 ^ e ∣ n ∧ n < 2 ^ (53 + e) := by
  refine ⟨n.log2 - 52, h, ?_⟩
  have hlt : n < 2 ^ (n.log2 + 1) := Nat.lt_log2_self
  exact Nat.lt_of_lt_of_le hlt (Nat.pow_le_pow_right (by decide) (by omega))

/-- A whole quotient of a short number is short: an odd factor takes no powers of two with it. -/
theorem Short.of_mul (h : Short (k * b)) (hb : b ≠ 0) : Short k := by
  obtain ⟨v, odd, hodd, heq⟩ := Nat.exists_eq_two_pow_mul_odd hb
  have heq : b = 2 ^ v * odd := heq
  subst heq
  obtain ⟨e, hdvd, hlt⟩ := h.exists_two_pow_dvd
  have hodd_pos : 0 < odd := hodd.pos
  have hcoprime : Nat.Coprime (2 ^ e) odd := (Nat.coprime_two_left.mpr hodd).pow_left e
  have hpart : 2 ^ e ∣ k * 2 ^ v := by
    rw [← Nat.mul_assoc] at hdvd
    exact hcoprime.dvd_of_dvd_mul_right hdvd
  have hless : k * 2 ^ v < 2 ^ (53 + e) := by
    have hle : k * 2 ^ v ≤ k * 2 ^ v * odd := Nat.le_mul_of_pos_right _ hodd_pos
    rw [Nat.mul_assoc] at hle
    exact Nat.lt_of_le_of_lt hle hlt
  have hpow : 0 < 2 ^ v := Nat.two_pow_pos v
  rcases Nat.le_total e v with hle | hle
  · refine short_of_dvd (k := 0) ?_ (Nat.one_dvd k)
    have hbound : 2 ^ (53 + e) ≤ 2 ^ (53 + 0) * 2 ^ v := by
      rw [← Nat.pow_add]
      exact Nat.pow_le_pow_right (by decide) (by omega)
    exact Nat.lt_of_mul_lt_mul_right (Nat.lt_of_lt_of_le hless hbound)
  · obtain ⟨d, rfl⟩ := Nat.exists_eq_add_of_le hle
    refine short_of_dvd (k := d) ?_ ?_
    · have hbound : 2 ^ (53 + (v + d)) = 2 ^ (53 + d) * 2 ^ v := by
        rw [← Nat.pow_add]
        congr 1
        omega
      exact Nat.lt_of_mul_lt_mul_right (hbound ▸ hless)
    · rw [Nat.add_comm, Nat.pow_add] at hpart
      exact Nat.dvd_of_mul_dvd_mul_right hpow hpart

theorem Short.mul_two_pow (h : Short n) (j : Nat) : Short (n * 2 ^ j) := by
  obtain ⟨e, hdvd, hlt⟩ := h.exists_two_pow_dvd
  refine short_of_dvd (k := e + j) ?_ ?_
  · rw [← Nat.add_assoc, Nat.pow_add]
    exact Nat.mul_lt_mul_of_pos_right hlt (Nat.two_pow_pos j)
  · rw [Nat.pow_add]
    exact Nat.mul_dvd_mul_right hdvd _

/-- What is at least one is not rounded to zero. -/
theorem roundRatio_pos (hb : 0 < b) (h : b ≤ n) : 0 < roundRatio n b :=
  Nat.lt_of_lt_of_le (Nat.two_pow_pos _) (two_pow_le_roundRatio (Nat.div_pos h hb).ne')

end Number

/-! ## Values -/

namespace Binary64

open Number

/-- The value of a finite number. Infinities and what is not a number have none; they count as
zero here, and no statement is about their value. -/
def toRat : Binary64 → ℚ
  | finite s m => signed s m / (quantaPerUnit : ℚ)
  | infinite _ => 0
  | nan => 0

variable {s t : Bool} {x y : Magnitude} {a d : Binary64}

theorem quantaPerUnit_ne_zero : (quantaPerUnit : ℚ) ≠ 0 := by
  exact_mod_cast quantaPerUnit_pos.ne'

/-- The sign of a number as a factor. -/
def signFactor (s : Bool) : ℚ := if s then -1 else 1

theorem toRat_finite (s : Bool) (m : Magnitude) :
    (finite s m).toRat = signFactor s * m.quanta / quantaPerUnit := by
  have hsigned : ((signed s m : Int) : ℚ) = signFactor s * m.quanta := by
    cases s <;> simp [signed, signFactor]
  rw [toRat, hsigned]

theorem signFactor_bne (s t : Bool) : signFactor (s != t) = signFactor s / signFactor t := by
  cases s <;> cases t <;> simp [signFactor]

theorem signFactor_ne_zero (s : Bool) : signFactor s ≠ 0 := by
  cases s <;> simp [signFactor]

theorem toRat_ne_zero (hd : d.isFinite = true) (hz : d.isZero = false) : d.toRat ≠ 0 := by
  cases d with
  | infinite s => cases hd
  | nan => cases hd
  | finite s m =>
    have hm : m.quanta ≠ 0 := by simpa [isZero] using hz
    have hm : (m.quanta : ℚ) ≠ 0 := by exact_mod_cast hm
    rw [toRat_finite]
    exact div_ne_zero (mul_ne_zero (signFactor_ne_zero s) hm) quantaPerUnit_ne_zero

theorem isZero_rounded_iff (s : Bool) (n : Nat) : (rounded s n 1).isZero = true ↔ n = 0 := by
  constructor
  · intro h
    by_contra hn
    have hpos : 0 < roundRatio n 1 := roundRatio_pos Nat.one_pos (Nat.one_le_iff_ne_zero.mpr hn)
    unfold rounded at h
    split at h
    · have hzero : roundRatio n 1 = 0 := (isZero_finite _ _).mp h
      omega
    · cases h
  · rintro rfl
    rw [rounded_zero s Nat.one_pos]
    rfl

theorem isZero_rem_iff (hy : y.quanta ≠ 0) :
    (finite s x % finite t y).isZero = true ↔ y.quanta ∣ x.quanta := by
  have hrem : finite s x % finite t y = rounded s (x.quanta % y.quanta) 1 := if_neg hy
  rw [hrem, isZero_rounded_iff, Nat.dvd_iff_mod_eq_zero]

/-- A quotient that comes out even is not rounded. -/
theorem toRat_div_of_dvd (hy : y.quanta ≠ 0) (hdvd : y.quanta ∣ x.quanta)
    (hfinite : (finite s x / finite t y).isFinite = true) :
    (finite s x / finite t y).toRat = (finite s x).toRat / (finite t y).toRat := by
  obtain ⟨k, hk⟩ := hdvd
  rw [Nat.mul_comm] at hk
  have hdiv : finite s x / finite t y =
      rounded (s != t) (x.quanta * quantaPerUnit) y.quanta := if_neg hy
  have hshort : Short (k * quantaPerUnit) := by
    obtain ⟨j, _, hunit⟩ := exists_quantaPerUnit
    have hk_short : Short k := Short.of_mul (hk ▸ x.short) hy
    rw [hunit]
    exact hk_short.mul_two_pow j
  have hround : roundRatio (x.quanta * quantaPerUnit) y.quanta = k * quantaPerUnit := by
    rw [hk, Nat.mul_right_comm]
    exact roundRatio_of_short hshort (Nat.pos_of_ne_zero hy)
  have hy : (y.quanta : ℚ) ≠ 0 := by exact_mod_cast hy
  have hx : (x.quanta : ℚ) = k * y.quanta := by exact_mod_cast hk
  rw [hdiv] at hfinite ⊢
  unfold rounded at hfinite ⊢
  split at hfinite
  · rename_i hlt
    rw [dif_pos hlt, toRat_finite, toRat_finite, toRat_finite, signFactor_bne]
    simp only [hround, hx, Nat.cast_mul]
    have hunit := quantaPerUnit_ne_zero
    have hsign := signFactor_ne_zero t
    field_simp
  · cases hfinite

theorem toRat_div_toRat (s t : Bool) (x y : Magnitude) :
    (finite s x).toRat / (finite t y).toRat =
      signFactor (s != t) * ((x.quanta : ℚ) / (y.quanta : ℚ)) := by
  have hunit := quantaPerUnit_ne_zero
  have hsign := signFactor_ne_zero t
  rw [toRat_finite, toRat_finite, signFactor_bne]
  field_simp

/-- The quotient of two values is whole when the one count of quanta divides the other. -/
theorem exists_int_eq_div_iff (hy : y.quanta ≠ 0) :
    (∃ k : ℤ, (finite s x).toRat / (finite t y).toRat = k) ↔ y.quanta ∣ x.quanta := by
  obtain ⟨u, hu, hunit⟩ : ∃ u : ℤ, signFactor (s != t) = u ∧ u * u = 1 := by
    cases s != t
    · exact ⟨1, by simp [signFactor], rfl⟩
    · exact ⟨-1, by simp [signFactor], rfl⟩
  have hyrat : (y.quanta : ℚ) ≠ 0 := by exact_mod_cast hy
  rw [toRat_div_toRat, hu, ← Int.natCast_dvd_natCast]
  constructor
  · rintro ⟨k, hk⟩
    have hproduct : (u * x.quanta : ℚ) = k * y.quanta := by
      rw [← hk]
      field_simp
    have hproduct : u * x.quanta = k * y.quanta := by exact_mod_cast hproduct
    refine ⟨u * k, ?_⟩
    calc (x.quanta : ℤ) = u * (u * x.quanta) := by rw [← mul_assoc, hunit, one_mul]
      _ = y.quanta * (u * k) := by rw [hproduct]; ring
  · rintro ⟨k, hk⟩
    have hk : (x.quanta : ℚ) = y.quanta * k := by exact_mod_cast hk
    refine ⟨u * k, ?_⟩
    rw [hk, mul_div_cancel_left₀ _ hyrat]
    push_cast
    rfl

/-- A finite quotient by a finite number is one of a finite number. -/
theorem isFinite_of_div (hd : d.isFinite = true) (h : (a / d).isFinite = true) :
    a.isFinite = true := by
  cases d with
  | infinite t => cases hd
  | nan => cases hd
  | finite t y =>
    cases a with
    | finite s x => rfl
    | infinite s => cases h
    | nan => cases h

end Binary64

namespace Cell

open Binary64

/-- The value of a cell. -/
def toRat : Cell → ℚ
  | number x => x.toRat
  | fraction n d => n.toRat / d.toRat

/-- Dividing a cell gives the quotient of the values, in either form of the result. -/
theorem toRat_quotient {x d : Binary64} (hx : x.isFinite = true) (hd : d.isFinite = true)
    (hz : d.isZero = false) (hfinite : (x / d).isFinite = true) :
    (quotient x d).toRat = x.toRat / d.toRat := by
  unfold quotient
  split
  · rename_i hrem
    cases x with
    | infinite s => cases hx
    | nan => cases hx
    | finite s m =>
      cases d with
      | infinite t => cases hd
      | nan => cases hd
      | finite t n =>
        have hn : n.quanta ≠ 0 := by simpa [isZero] using hz
        exact toRat_div_of_dvd hn ((isZero_rem_iff hn).mp hrem) hfinite
  · rfl

end Cell

end Echelon
