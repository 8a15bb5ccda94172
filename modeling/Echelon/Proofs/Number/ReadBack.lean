import Echelon.Proofs.Number.Displayed

/-!
# Shown numbers read back

The decimal chosen for a number rounds to it: a short one was tried before it was taken, and the
last resort writes every digit. So a finite number is shown as an operation writes numbers, never
like an infinity, and what is shown reads as that number. Only a zero loses its sign, which no
comparison of numbers sees.
-/

namespace Echelon

-- Powers of naturals are those of core.
attribute [local instance (high)] instPowNat

open Number

/-! ## Decimals that round to a number -/

/-- A short number is the nearest one to itself. -/
theorem Number.roundRatio_of_short {q d : Nat} (hs : Short q) (hd : 0 < d) :
    roundRatio (q * d) d = q := by
  obtain ⟨k, hk⟩ := hs
  have hunit : 0 < d * spacing q := Nat.mul_pos hd (spacing_pos q)
  have hn : q * d = k * (d * spacing q) :=
    calc q * d = spacing q * k * d := by rw [← hk]
      _ = k * (d * spacing q) := by
        rw [Nat.mul_comm (spacing q) k, Nat.mul_assoc, Nat.mul_comm (spacing q) d]
  have hnearest : nearest (k * (d * spacing q)) (d * spacing q) = k := by
    rw [nearest, Nat.mul_mod_left, if_pos (by omega), Nat.mul_div_cancel _ hunit]
  simp only [roundRatio, Nat.mul_div_cancel q hd]
  rw [hn, hnearest, Nat.mul_comm k, ← hk]

theorem Number.roundRatio_one {q : Nat} (hs : Short q) : roundRatio q 1 = q := by
  have hself := roundRatio_of_short hs Nat.one_pos
  rwa [Nat.mul_one] at hself

namespace Decimal

/-- The quanta of the number nearest to a decimal. -/
def quanta (d : Decimal) : Nat :=
  roundRatio (d.digits * 10 ^ d.exponent.toNat * quantaPerUnit) (10 ^ (-d.exponent).toNat)

theorem quanta_of_toBinary64 {d : Decimal} {negative s : Bool} {m : Magnitude}
    (h : d.toBinary64 negative = .finite s m) : d.quanta = m.quanta := by
  rw [toBinary64_eq_value, value, Binary64.rounded] at h
  split at h
  · cases h
    rfl
  · cases h

theorem quanta_exact {q : Nat} (hs : Short q) : (exact q).quanta = q := by
  obtain ⟨k, hk, hunit⟩ := exists_quantaPerUnit
  have hexact : exact q = ⟨q * 5 ^ k, -(k : Int)⟩ := by rw [exact, hk]; rfl
  have hup : (-(k : Int)).toNat = 0 := by omega
  have hdown : (-(-(k : Int))).toNat = k := by omega
  have hvalue : q * 5 ^ k * 10 ^ 0 * 2 ^ k = q * 10 ^ k := by
    rw [Nat.pow_zero, Nat.mul_one, Nat.mul_assoc, ← Nat.mul_pow]
  rw [hexact, quanta, hup, hdown, hunit, hvalue]
  exact roundRatio_of_short hs (Nat.pow_pos (by decide))

/-- The decimal that is looked for reads as the number. -/
theorem quanta_shortest {q : Nat} (hs : Short q) : (shortest q).quanta = q := by
  simp only [shortest]
  cases hfound : List.findSome? _ _ with
  | none => exact quanta_exact hs
  | some d =>
    obtain ⟨e, _, hfind⟩ := List.exists_of_findSome?_eq_some hfound
    have hreads := List.find?_some hfind
    split at hreads
    · rename_i s m hread
      have hm : m.quanta = q := beq_iff_eq.mp hreads
      rw [← hm]
      exact quanta_of_toBinary64 hread
    · cases hreads

end Decimal

/-! ## Numbers up to the sign of a zero -/

theorem Magnitude.eq_iff {m n : Magnitude} : m = n ↔ m.quanta = n.quanta := by
  obtain ⟨q, _, _⟩ := m
  obtain ⟨r, _, _⟩ := n
  simp

namespace Binary64

/-- A number as it is shown: a zero has no sign. -/
def plain (x : Binary64) : Binary64 := if x.isZero then zero false else x

/-- Numbers that compare as equal: zeros do so whatever their signs, and what is not a number does
not, not even to itself. -/
def SameValue : Binary64 → Binary64 → Prop
  | finite s x, finite t y => signed s x = signed t y
  | infinite s, infinite t => s = t
  | _, _ => False

theorem rounded_eq_finite (negative : Bool) {n d : Nat} {m : Magnitude}
    (h : roundRatio n d = m.quanta) : rounded negative n d = finite negative m := by
  obtain ⟨q, hs, hlt⟩ := m
  subst h
  rw [rounded, dif_pos hlt]

theorem isZero_finite (negative : Bool) (m : Magnitude) :
    (finite negative m).isZero = true ↔ m.quanta = 0 := beq_iff_eq

theorem plain_finite (negative : Bool) (m : Magnitude) :
    (finite negative m).plain = if m.quanta = 0 then zero false else finite negative m := by
  simp only [plain, isZero_finite]

theorem signed_eq_iff {s t : Bool} {m n : Magnitude} :
    signed s m = signed t n ↔ m.quanta = n.quanta ∧ (m.quanta = 0 ∨ s = t) := by
  cases s <;> cases t <;> simp [signed] <;> omega

/-- Comparing numbers is comparing what is shown for them. -/
theorem sameValue_iff {x y : Binary64} (hx : x.isFinite = true) (hy : y.isFinite = true) :
    x.SameValue y ↔ x.plain = y.plain := by
  cases x with
  | infinite s => cases hx
  | nan => cases hx
  | finite s m =>
    cases y with
    | infinite t => cases hy
    | nan => cases hy
    | finite t n =>
      have hdefault : (default : Magnitude).quanta = 0 := rfl
      rw [SameValue, signed_eq_iff, plain_finite, plain_finite, zero]
      by_cases hm : m.quanta = 0
      · by_cases hn : n.quanta = 0
        · simp [hm, hn]
        · simp [hm, hn, Magnitude.eq_iff, hdefault, eq_comm]
      · by_cases hn : n.quanta = 0
        · simp [hm, hn, Magnitude.eq_iff, hdefault]
        · simp [hm, hn, Magnitude.eq_iff, and_comm]

theorem isFinite_plain {x : Binary64} (h : x.isFinite = true) : x.plain.isFinite = true := by
  unfold plain
  split
  · rfl
  · exact h

theorem plain_plain (x : Binary64) : x.plain.plain = x.plain := by
  unfold plain
  split
  · rfl
  · rfl

theorem sameValue_plain {x : Binary64} (h : x.isFinite = true) : x.plain.SameValue x :=
  (sameValue_iff (isFinite_plain h) h).mpr x.plain_plain

/-! ## What is shown for a number -/

theorem spells_magnitudeChars (m : Magnitude) :
    ∃ digits places, WrittenNumber.Spells (magnitudeChars m.quanta) digits places ∧
      roundRatio (digits * quantaPerUnit) (10 ^ places) = m.quanta := by
  unfold magnitudeChars
  split
  · rename_i units hunits
    refine ⟨units, 0, spells_toDigits units, ?_⟩
    unfold smallWhole? at hunits
    split at hunits
    · rename_i hwhole
      have hn : units * quantaPerUnit = m.quanta * 1 := by
        rw [← Option.some.inj hunits, Nat.div_mul_cancel (Nat.dvd_of_mod_eq_zero hwhole.1),
          Nat.mul_one]
      rw [hn, Nat.pow_zero]
      exact roundRatio_of_short m.short Nat.one_pos
    · cases hunits
  · exact ⟨_, _, Decimal.spells_positional _, Decimal.quanta_shortest m.short⟩

theorem chars_finite (negative : Bool) (m : Magnitude) :
    (finite negative m).chars = if m.quanta = 0 then ['0'] else
      (if negative then ['-'] else []) ++ magnitudeChars m.quanta := by
  cases negative <;> rfl

/-- **A finite number is shown as a number is written, with its value.** -/
theorem exists_chars_value {x : Binary64} (h : x.isFinite = true) :
    ∃ w : WrittenNumber, x.chars = w.chars ∧ w.value = x.plain := by
  cases x with
  | infinite negative => cases h
  | nan => cases h
  | finite negative m =>
    rw [chars_finite, plain_finite]
    split
    · obtain ⟨w, hchars, hvalue⟩ := (spells_toDigits 0).exists_chars false
      refine ⟨w, hchars, ?_⟩
      rw [hvalue]
      exact rounded_of_lt_half false (by omega)
    · obtain ⟨digits, places, hspells, hround⟩ := spells_magnitudeChars m
      obtain ⟨w, hchars, hvalue⟩ := hspells.exists_chars negative
      refine ⟨w, hchars, ?_⟩
      rw [hvalue]
      exact rounded_eq_finite negative hround

theorem not_mem_chars {x : Binary64} (h : x.isFinite = true) {c : Char} (hd : c.isDigit = false)
    (hm : c ≠ '-') (hp : c ≠ '.') : c ∉ x.chars := by
  obtain ⟨w, hchars, _⟩ := exists_chars_value h
  rw [hchars]
  exact w.not_mem_chars hd hm hp

/-- A literal shown for a finite number names that number. -/
theorem parse?_chars {x : Binary64} (h : x.isFinite = true) :
    Literal.parse? x.chars = some x.plain := by
  obtain ⟨w, hchars, hvalue⟩ := exists_chars_value h
  rw [hchars, w.parse?_chars, hvalue, if_pos (isFinite_plain h)]

theorem chars_plain (x : Binary64) : x.plain.chars = x.chars := by
  unfold plain
  split
  · rename_i hz
    cases x with
    | infinite negative => cases hz
    | nan => cases hz
    | finite negative m =>
      rw [chars_finite, if_pos ((isZero_finite negative m).mp hz)]
      rfl
  · rfl

theorem text_plain (x : Binary64) : x.plain.text = x.text := by
  rw [text, text, chars_plain]

/-- Numbers are shown alike when they compare as equal. -/
theorem text_eq_iff {x y : Binary64} (hx : x.isFinite = true) (hy : y.isFinite = true) :
    x.text = y.text ↔ x.SameValue y := by
  rw [sameValue_iff hx hy]
  constructor
  · intro h
    have hchars : x.chars = y.chars := by
      rwa [text, text, String.ofList_inj] at h
    have hparse := parse?_chars hx
    rw [hchars, parse?_chars hy] at hparse
    exact (Option.some.inj hparse).symm
  · intro h
    rw [← text_plain x, h, text_plain]

end Binary64

end Echelon
