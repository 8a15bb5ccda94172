import Echelon.Number.Word
import Echelon.Proofs.Number.ReadBack

/-!
# Numbers and their words

A finite number has one word, and a word of a finite number is the word of its number. So comparing
finite numbers is comparing their words bit for bit.
-/

namespace Echelon.Binary64

-- Powers of naturals are those of core.
attribute [local instance (high)] instPowNat

open Number

/-! ## The fields of a size -/

theorem magnitudeWord_of_lt {q : Nat} (h : q < exponentUnit) : magnitudeWord q = q := by
  have hstep : q.log2 - 52 = 0 := by
    by_cases hq : q = 0
    · subst hq
      rfl
    · have hlog := (Nat.log2_lt hq).mpr h
      omega
  simp only [magnitudeWord, hstep, Nat.zero_mul, Nat.zero_add, Nat.pow_zero, Nat.div_one]

/-- The size with these fields, the exponent counted from one. -/
theorem magnitudeWord_scaled {fraction : Nat} (h : fraction < exponentUnit) (step : Nat) :
    magnitudeWord ((exponentUnit + fraction) * 2 ^ step) =
      (step + 1) * exponentUnit + fraction := by
  have hpos : 0 < 2 ^ step := Nat.two_pow_pos step
  have hlower : 2 ^ (52 + step) ≤ (exponentUnit + fraction) * 2 ^ step := by
    rw [Nat.pow_add]
    exact Nat.mul_le_mul_right _ (Nat.le_add_right _ _)
  have hupper : (exponentUnit + fraction) * 2 ^ step < 2 ^ (52 + step + 1) := by
    rw [Nat.add_right_comm, Nat.pow_add]
    refine Nat.mul_lt_mul_of_pos_right ?_ hpos
    rw [Nat.pow_succ]
    unfold exponentUnit at h ⊢
    omega
  have hne : (exponentUnit + fraction) * 2 ^ step ≠ 0 :=
    Nat.pos_iff_ne_zero.mp (Nat.lt_of_lt_of_le (Nat.two_pow_pos _) hlower)
  have hlog : ((exponentUnit + fraction) * 2 ^ step).log2 - 52 = step := by
    rw [(Nat.log2_eq_iff hne).mpr ⟨hlower, hupper⟩, Nat.add_sub_cancel_left]
  simp only [magnitudeWord, hlog, Nat.mul_div_cancel _ hpos]
  rw [Nat.add_mul, Nat.one_mul, Nat.add_assoc]

/-! ## The number of a word -/

theorem rounded_of_short (negative : Bool) (m : Magnitude) :
    rounded negative m.quanta 1 = finite negative m :=
  rounded_eq_finite negative (roundRatio_one m.short)

theorem exists_rounded (negative : Bool) {fraction : Nat} (h : fraction < 2 * exponentUnit)
    {step : Nat} (hstep : step < 2046) :
    ∃ m : Magnitude, m.quanta = fraction * 2 ^ step ∧
      rounded negative (fraction * 2 ^ step) 1 = finite negative m := by
  have hlt : fraction * 2 ^ step < 2 ^ (53 + step) := by
    rw [Nat.pow_add]
    refine Nat.mul_lt_mul_of_pos_right ?_ (Nat.two_pow_pos step)
    unfold exponentUnit at h
    omega
  obtain ⟨l, hl, hlimit⟩ := exists_quantaLimit
  let m : Magnitude :=
    { quanta := fraction * 2 ^ step
      short := short_of_dvd hlt (Nat.dvd_mul_left _ _)
      lt_limit := by
        rw [hlimit]
        exact Nat.lt_of_lt_of_le hlt (Nat.pow_le_pow_right (by decide) (by omega)) }
  exact ⟨m, rfl, rounded_of_short negative m⟩

/-- The word of a finite number from its fields. -/
theorem exists_fields {word : Nat} (h : (ofWord word).isFinite = true) :
    ∃ m : Magnitude, ofWord word = finite (word / signUnit % 2 == 1) m ∧
      magnitudeWord m.quanta =
        word / exponentUnit % (greatestExponent + 1) * exponentUnit + word % exponentUnit := by
  have hfraction : word % exponentUnit < exponentUnit := Nat.mod_lt _ (Nat.two_pow_pos 52)
  have hexponent : word / exponentUnit % (greatestExponent + 1) < greatestExponent + 1 :=
    Nat.mod_lt _ (Nat.succ_pos _)
  unfold ofWord at h ⊢
  generalize word % exponentUnit = fraction at *
  generalize word / exponentUnit % (greatestExponent + 1) = exponent at *
  generalize (word / signUnit % 2 == 1) = negative at *
  simp only at h ⊢
  split at h
  · split at h <;> cases h
  · rename_i hgreatest
    rw [if_neg hgreatest]
    split
    · rename_i hzero
      have hsmall : fraction < 2 * exponentUnit := by omega
      have hstep : 0 < 2046 := by decide
      obtain ⟨m, hm, hrounded⟩ := exists_rounded negative hsmall hstep
      rw [Nat.pow_zero, Nat.mul_one] at hm hrounded
      refine ⟨m, hrounded, ?_⟩
      rw [hm, magnitudeWord_of_lt hfraction, hzero, Nat.zero_mul, Nat.zero_add]
    · rename_i hpositive
      have hsmall : exponentUnit + fraction < 2 * exponentUnit := by omega
      have hstep : exponent - 1 < 2046 := by
        unfold greatestExponent at hgreatest hexponent
        omega
      obtain ⟨m, hm, hrounded⟩ := exists_rounded negative hsmall hstep
      refine ⟨m, hrounded, ?_⟩
      rw [hm, magnitudeWord_scaled hfraction, Nat.sub_add_cancel (Nat.pos_of_ne_zero hpositive)]

/-- **The word of the number of a word is that word**, when the number is finite. -/
theorem toWord?_ofWord {word : Nat} (hlt : word < 2 * signUnit)
    (h : (ofWord word).isFinite = true) : (ofWord word).toWord? = some word := by
  obtain ⟨m, hnumber, hfields⟩ := exists_fields h
  rw [hnumber, toWord?, hfields]
  have hsign : (word / signUnit % 2 == 1).toNat = word / signUnit := by
    have hbit : word / signUnit < 2 := (Nat.div_lt_iff_lt_mul (Nat.two_pow_pos 63)).mpr hlt
    rcases hb : word / signUnit with _ | _ | n
    · rfl
    · rfl
    · omega
  rw [hsign]
  refine congrArg some ?_
  unfold signUnit exponentUnit greatestExponent
  omega

end Echelon.Binary64
