import Echelon.Number.Numeral
import Echelon.Proofs.Number.Shortest

/-!
# Small whole numbers

A small whole number is shown by its own digits, without a search. The search would show it with the
same digits: the whole number reads as itself, so what is found is whole too, and a whole decimal
that reads as a number below `2 ^ 53` is that number.
-/

namespace Echelon

-- Powers of naturals are those of core.
attribute [local instance (high)] instPowNat

open Number

theorem toDigits_mul_ten_pow {n : Nat} (hn : n ≠ 0) (zeros : Nat) :
    Nat.toDigits 10 (n * 10 ^ zeros) = Nat.toDigits 10 n ++ List.replicate zeros '0' := by
  induction zeros with
  | zero => rw [Nat.pow_zero, Nat.mul_one, List.replicate_zero, List.append_nil]
  | succ zeros ih =>
    have hpos : 0 < n * 10 ^ zeros := Nat.mul_pos (Nat.pos_of_ne_zero hn) (Nat.pow_pos (by decide))
    have hlast : Nat.toDigits 10 0 = ['0'] := rfl
    have happend := Nat.toDigits_append_toDigits (b := 10) (d := 0) (by decide) hpos (by decide)
    rw [hlast, ih, Nat.add_zero] at happend
    rw [Nat.pow_succ, ← Nat.mul_assoc, Nat.mul_comm, ← happend, List.append_assoc,
      List.replicate_succ']

/-! ## Whole counts of units -/

variable {k units : Nat}

theorem Number.short_whole (h : units < 2 ^ (53 : Nat)) : Short (units * quantaPerUnit) := by
  obtain ⟨k, _, hunit⟩ := exists_quantaPerUnit
  rw [hunit]
  refine short_of_dvd (k := k) ?_ (Nat.dvd_mul_left _ _)
  rw [Nat.pow_add]
  exact Nat.mul_lt_mul_of_pos_right h (Nat.two_pow_pos k)

theorem Number.roundRatio_whole (h : units < 2 ^ (53 : Nat)) :
    roundRatio (units * quantaPerUnit) 1 = units * quantaPerUnit :=
  roundRatio_one (short_whole h)

/-- Whole numbers below `2 ^ 53` are not confused with other whole numbers: that power is rounded to
itself, so nothing above it comes out below it. -/
theorem Number.eq_of_roundRatio_whole (h : units < 2 ^ (53 : Nat))
    (hround : roundRatio (k * quantaPerUnit) 1 = units * quantaPerUnit) : k = units := by
  by_cases hk : k < 2 ^ (53 : Nat)
  · rw [roundRatio_whole hk] at hround
    exact Nat.eq_of_mul_eq_mul_right quantaPerUnit_pos hround
  · obtain ⟨l, _, hunit⟩ := exists_quantaPerUnit
    have hpower : roundRatio (2 ^ (53 : Nat) * quantaPerUnit) 1 =
        2 ^ (53 : Nat) * quantaPerUnit := by
      rw [hunit, ← Nat.pow_add]
      exact roundRatio_one (short_two_pow (53 + l))
    have hle : 2 ^ (53 : Nat) * quantaPerUnit ≤ units * quantaPerUnit := by
      rw [← hpower, ← hround]
      exact roundRatio_mono_left (Nat.mul_le_mul_right _ (Nat.not_lt.mp hk))
    exact absurd (Nat.le_of_mul_le_mul_right hle quantaPerUnit_pos) (Nat.not_le.mpr h)

namespace Binary64

theorem eq_of_smallWhole? {q : Nat} (h : smallWhole? q = some units) :
    q = units * quantaPerUnit ∧ units < 2 ^ (53 : Nat) := by
  unfold smallWhole? at h
  split at h
  · rename_i hwhole
    have hq : units * quantaPerUnit = q := by
      rw [← Option.some.inj h, Nat.div_mul_cancel (Nat.dvd_of_mod_eq_zero hwhole.1)]
    have hlt := hwhole.2
    rw [← hq] at hlt
    exact ⟨hq.symm, Nat.lt_trans (Nat.lt_of_mul_lt_mul_right hlt) (by decide)⟩
  · cases h

end Binary64

namespace Decimal

theorem quanta_whole (k : Nat) : (⟨k, 0⟩ : Decimal).quanta = roundRatio (k * quantaPerUnit) 1 := by
  simp only [quanta, Int.toNat_zero, Int.neg_zero, Nat.pow_zero, Nat.mul_one]

theorem positional_zeros (digits zeros : Nat) :
    (⟨digits, 0 + zeros⟩ : Decimal).positional =
      Nat.toDigits 10 digits ++ List.replicate zeros '0' := by
  have hplaces : (-(0 + zeros : Int)).toNat = 0 := by omega
  have hzeros : (0 + zeros : Int).toNat = zeros := by omega
  simp only [positional, hplaces, hzeros, if_true]

/-- **The search shows a small whole number by its own digits.** -/
theorem positional_shortest_whole {m : Magnitude} (hm : m.quanta ≠ 0)
    (hwhole : m.quanta = units * quantaPerUnit) (h : units < 2 ^ (53 : Nat)) :
    (shortest m.quanta).positional = Nat.toDigits 10 units := by
  have hself : (⟨units, 0⟩ : Decimal).quanta = m.quanta := by
    rw [quanta_whole, roundRatio_whole h, hwhole]
  have hexponent : 0 ≤ (shortest m.quanta).exponent := exponent_le_shortest hm hself
  have hfound : (shortest m.quanta).quanta = m.quanta := quanta_shortest m.short
  generalize shortest m.quanta = s at hexponent hfound ⊢
  obtain ⟨digits, e⟩ := s
  obtain ⟨zeros, rfl⟩ : ∃ zeros : Nat, e = 0 + zeros := ⟨e.toNat, by simp only at hexponent; omega⟩
  rw [quanta_add, quanta_whole, hwhole] at hfound
  have hunits : digits * 10 ^ zeros = units := eq_of_roundRatio_whole h hfound
  have hdigits : digits ≠ 0 := by
    rintro rfl
    rw [hwhole, ← hunits, Nat.zero_mul, Nat.zero_mul] at hm
    exact hm rfl
  rw [positional_zeros, ← toDigits_mul_ten_pow hdigits, hunits]

end Decimal

end Echelon
