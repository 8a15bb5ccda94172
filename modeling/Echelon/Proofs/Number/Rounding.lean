import Echelon.Number.Decimal

/-!
# Decimals rounded once

A decimal stands for a ratio of quanta, and its value is that ratio rounded once. Reading takes an
early exit for very large and very small decimals, to keep the powers of ten small. The exits agree
with the rounding: what is beyond them is above every finite number, or below half a quantum.
-/

namespace Echelon

-- Powers of naturals are those of core.
attribute [local instance (high)] instPowNat

open Number

/-! ## Large and small ratios -/

theorem Number.le_nearest (n d : Nat) : n / d ≤ nearest n d := by
  unfold nearest
  split
  · omega
  · split <;> omega

/-- Rounding stays above the powers of two that the ratio reaches. -/
theorem Number.two_pow_le_roundRatio {n d : Nat} (h : n / d ≠ 0) :
    2 ^ (n / d).log2 ≤ roundRatio n d := by
  have hreach : 2 ^ (n / d).log2 ≤ n / d := Nat.log2_self_le h
  obtain ⟨c, hc⟩ : spacing (n / d) ∣ 2 ^ (n / d).log2 := Nat.pow_dvd_pow 2 (Nat.sub_le _ 52)
  have hcount : c ≤ n / (d * spacing (n / d)) := by
    rw [← Nat.div_div_eq_div_mul, Nat.le_div_iff_mul_le (spacing_pos _), Nat.mul_comm, ← hc]
    exact hreach
  calc 2 ^ (n / d).log2 = c * spacing (n / d) := by rw [hc, Nat.mul_comm]
    _ ≤ nearest n (d * spacing (n / d)) * spacing (n / d) :=
      Nat.mul_le_mul_right _ (Nat.le_trans hcount (le_nearest _ _))

theorem Number.roundRatio_of_lt_half {n d : Nat} (h : 2 * n < d) : roundRatio n d = 0 := by
  have hq : n / d = 0 := Nat.div_eq_of_lt (by omega)
  have hm : n % d = n := Nat.mod_eq_of_lt (by omega)
  have hs : spacing 0 = 1 := rfl
  simp only [roundRatio, hq, hs, Nat.mul_one, nearest, hm, if_pos h]

/-- The size of a unit, with its exponent kept from being evaluated. -/
theorem exists_quantaPerUnit : ∃ k : Nat, k = 1074 ∧ quantaPerUnit = 2 ^ k := by
  refine ⟨1074, rfl, ?_⟩
  rw [quantaPerUnit]

theorem quantaPerUnit_pos : 0 < quantaPerUnit := by
  obtain ⟨k, _, hunit⟩ := exists_quantaPerUnit
  exact hunit ▸ Nat.two_pow_pos k

/-- The limit of the finite numbers, with its exponent kept from being evaluated. -/
theorem exists_quantaLimit : ∃ k : Nat, k = 2098 ∧ quantaLimit = 2 ^ k := by
  refine ⟨2098, rfl, ?_⟩
  rw [quantaLimit]

namespace Binary64

/-- Less than half a quantum rounds to zero. -/
theorem rounded_of_lt_half (negative : Bool) {n d : Nat} (h : 2 * n < d) :
    rounded negative n d = zero negative := by
  have hr := roundRatio_of_lt_half h
  have hlt : roundRatio n d < quantaLimit := by
    rw [hr]
    exact quantaLimit_pos
  rw [rounded, dif_pos hlt, zero]
  congr 1
  simp only [hr]
  rfl

theorem rounded_zero (negative : Bool) {d : Nat} (hd : 0 < d) :
    rounded negative 0 d = zero negative := rounded_of_lt_half negative (by omega)

/-- What reaches the limit is too large for a finite number. -/
theorem rounded_of_limit_le (negative : Bool) {n d : Nat} (h : quantaLimit ≤ n / d) :
    rounded negative n d = infinite negative := by
  obtain ⟨k, _, hlimit⟩ := exists_quantaLimit
  have hne : n / d ≠ 0 := Nat.pos_iff_ne_zero.mp (Nat.lt_of_lt_of_le quantaLimit_pos h)
  have hlog : k ≤ (n / d).log2 := (Nat.le_log2 hne).mpr (hlimit ▸ h)
  have hlarge : quantaLimit ≤ roundRatio n d :=
    calc quantaLimit = 2 ^ k := hlimit
      _ ≤ 2 ^ (n / d).log2 := Nat.pow_le_pow_right (by decide) hlog
      _ ≤ roundRatio n d := two_pow_le_roundRatio hne
  rw [rounded, dif_neg (Nat.not_lt.mpr hlarge)]

end Binary64

/-! ## Decimals -/

namespace Decimal

/-- The number nearest to a decimal with the given sign. -/
def value (negative : Bool) (d : Decimal) : Binary64 :=
  .rounded negative (d.digits * 10 ^ d.exponent.toNat * quantaPerUnit) (10 ^ (-d.exponent).toNat)

/-- A decimal below `10 ^ -400` is less than half a quantum. -/
theorem lt_half_of_places {n places : Nat} (h : n.log2 + 400 < places) :
    2 * (n * quantaPerUnit) < 10 ^ places := by
  obtain ⟨k, hk, hunit⟩ := exists_quantaPerUnit
  have hn : 2 * n < 2 ^ (n.log2 + 2) := by
    have hlt : n < 2 ^ (n.log2 + 1) := Nat.lt_log2_self
    rw [Nat.pow_succ]
    omega
  calc 2 * (n * quantaPerUnit) = 2 ^ k * (2 * n) := by
        rw [hunit, ← Nat.mul_assoc, Nat.mul_comm]
    _ < 2 ^ k * 2 ^ (n.log2 + 2) := Nat.mul_lt_mul_of_pos_left hn (Nat.two_pow_pos k)
    _ = 2 ^ (k + (n.log2 + 2)) := (Nat.pow_add 2 k (n.log2 + 2)).symm
    _ ≤ 2 ^ (3 * places) := Nat.pow_le_pow_right (by decide) (by omega)
    _ = 8 ^ places := Nat.pow_mul 2 3 places
    _ ≤ 10 ^ places := Nat.pow_le_pow_left (by decide) places

/-- A decimal above `10 ^ 400` reaches the limit of the finite numbers. -/
theorem limit_le_of_zeros {n zeros : Nat} (hn : n ≠ 0) (h : 400 < zeros) :
    quantaLimit ≤ n * 10 ^ zeros * quantaPerUnit := by
  obtain ⟨k, hk, hunit⟩ := exists_quantaPerUnit
  obtain ⟨l, hl, hlimit⟩ := exists_quantaLimit
  calc quantaLimit = 2 ^ l := hlimit
    _ ≤ 2 ^ (3 * zeros + k) := Nat.pow_le_pow_right (by decide) (by omega)
    _ = 8 ^ zeros * 2 ^ k := by rw [Nat.pow_add, Nat.pow_mul]
    _ ≤ 10 ^ zeros * 2 ^ k := Nat.mul_le_mul_right _ (Nat.pow_le_pow_left (by decide) zeros)
    _ ≤ n * 10 ^ zeros * quantaPerUnit := by
      rw [hunit, Nat.mul_assoc]
      exact Nat.le_mul_of_pos_left _ (Nat.pos_of_ne_zero hn)

/-- Every decimal is rounded once, in spite of the early exits. -/
theorem toBinary64_eq_value (negative : Bool) (d : Decimal) :
    d.toBinary64 negative = d.value negative := by
  unfold toBinary64 value
  split
  · rename_i hzero
    rw [hzero, Nat.zero_mul, Nat.zero_mul, Binary64.rounded_zero negative (Nat.pow_pos (by decide))]
  · rename_i hdigits
    split
    · rename_i hlarge
      have hdown : (-d.exponent).toNat = 0 := by omega
      have hlimit : quantaLimit ≤ d.digits * 10 ^ d.exponent.toNat * quantaPerUnit :=
        limit_le_of_zeros hdigits (by omega)
      rw [hdown, Nat.pow_zero, Binary64.rounded_of_limit_le negative (by rwa [Nat.div_one])]
    · split
      · rename_i hsmall
        have hup : d.exponent.toNat = 0 := by omega
        rw [hup, Nat.pow_zero, Nat.mul_one,
          Binary64.rounded_of_lt_half negative (lt_half_of_places (by omega))]
      · rfl

end Decimal

end Echelon
