import Echelon.Proofs.Number.Rounding

/-!
# Rounding and the order of ratios

Rounding keeps the order of ratios, so whatever lies between a ratio and a number that it is rounded
to is rounded to that number as well. What exceeds a short number by less than half the gap to the
next one is rounded to it.
-/

namespace Echelon.Number

-- Powers of naturals are those of core.
attribute [local instance (high)] instPowNat

variable {n n' d d' q : Nat}

theorem log2_le_log2 (h : n ≤ n') : n.log2 ≤ n'.log2 := by
  by_cases hn : n = 0
  · subst hn
    exact Nat.zero_le _
  · have hreach : 2 ^ n.log2 ≤ n' := Nat.le_trans (Nat.log2_self_le hn) h
    exact (Nat.le_log2 (by omega)).mpr hreach

/-! ## The whole number nearest to a ratio -/

theorem nearest_cases (n d : Nat) :
    (nearest n d = n / d ∧ 2 * (n % d) ≤ d) ∨ (nearest n d = n / d + 1 ∧ d ≤ 2 * (n % d)) := by
  unfold nearest
  split
  · omega
  · split <;> omega

theorem nearest_mono (h : n ≤ n') : nearest n d ≤ nearest n' d := by
  have hquot : n / d ≤ n' / d := Nat.div_le_div_right h
  rcases Nat.lt_or_ge (n / d) (n' / d) with hlt | hge
  · exact Nat.le_trans (nearest_le n d) (Nat.le_trans hlt (le_nearest n' d))
  · have heq : n / d = n' / d := Nat.le_antisymm hquot hge
    have hn := Nat.div_add_mod n d
    have hn' := Nat.div_add_mod n' d
    rw [heq] at hn
    rcases nearest_cases n d with ⟨hdown, _⟩ | ⟨hup, hrem⟩
    · rw [hdown, heq]
      exact le_nearest n' d
    · rcases nearest_cases n' d with ⟨_, hrem'⟩ | ⟨hup', _⟩
      · have hsame : n = n' := by omega
        exact Nat.le_of_eq (by rw [hsame])
      · exact Nat.le_of_eq (by rw [hup, hup', heq])

theorem nearest_mul_right (n d : Nat) {c : Nat} (hc : 0 < c) :
    nearest (n * c) (d * c) = nearest n d := by
  have hleft : 2 * (n % d * c) < d * c ↔ 2 * (n % d) < d := by
    rw [← Nat.mul_assoc, Nat.mul_lt_mul_right hc]
  have hright : d * c < 2 * (n % d * c) ↔ d < 2 * (n % d) := by
    rw [← Nat.mul_assoc, Nat.mul_lt_mul_right hc]
  simp only [nearest, Nat.mul_mod_mul_right, Nat.mul_div_mul_right _ _ hc, hleft, hright]

/-! ## The short number nearest to a ratio -/

/-- Rounding stays below the next power of two. -/
theorem roundRatio_le_two_pow (n d : Nat) : roundRatio n d ≤ 2 ^ ((n / d).log2 + 1) := by
  obtain ⟨c, hc⟩ : spacing (n / d) ∣ 2 ^ ((n / d).log2 + 1) := Nat.pow_dvd_pow 2 (by omega)
  have hcount : n / (d * spacing (n / d)) < c := by
    have hlt : n / d < 2 ^ ((n / d).log2 + 1) := Nat.lt_log2_self
    rw [hc, Nat.mul_comm] at hlt
    rw [← Nat.div_div_eq_div_mul]
    exact (Nat.div_lt_iff_lt_mul (spacing_pos _)).mpr hlt
  calc roundRatio n d ≤ c * spacing (n / d) :=
        Nat.mul_le_mul_right _ (Nat.le_trans (nearest_le _ _) hcount)
    _ = 2 ^ ((n / d).log2 + 1) := by rw [hc, Nat.mul_comm]

/-- Rounding keeps the order of ratios with one denominator. Where the gaps between short numbers
differ, a power of two lies between the ratios. -/
theorem roundRatio_mono_left (h : n ≤ n') : roundRatio n d ≤ roundRatio n' d := by
  have hquot : n / d ≤ n' / d := Nat.div_le_div_right h
  by_cases hgap : spacing (n / d) = spacing (n' / d)
  · simp only [roundRatio, hgap]
    exact Nat.mul_le_mul_right _ (nearest_mono h)
  · have hlog : (n / d).log2 < (n' / d).log2 := by
      have hle := log2_le_log2 hquot
      have hne : (n / d).log2 ≠ (n' / d).log2 := fun heq => hgap (by rw [spacing, spacing, heq])
      omega
    have hne : n' / d ≠ 0 := by
      intro hzero
      have hlog0 : Nat.log2 0 = 0 := rfl
      rw [hzero, hlog0] at hlog
      exact Nat.not_lt_zero _ hlog
    calc roundRatio n d ≤ 2 ^ ((n / d).log2 + 1) := roundRatio_le_two_pow n d
      _ ≤ 2 ^ (n' / d).log2 := Nat.pow_le_pow_right (by decide) hlog
      _ ≤ roundRatio n' d := two_pow_le_roundRatio hne

theorem roundRatio_mul_right (n d : Nat) {c : Nat} (hc : 0 < c) :
    roundRatio (n * c) (d * c) = roundRatio n d := by
  simp only [roundRatio, Nat.mul_div_mul_right _ _ hc]
  rw [Nat.mul_right_comm d c, nearest_mul_right _ _ hc]

/-- **Rounding keeps the order of ratios.** -/
theorem roundRatio_mono (hd : 0 < d) (hd' : 0 < d') (h : n * d' ≤ n' * d) :
    roundRatio n d ≤ roundRatio n' d' :=
  calc roundRatio n d = roundRatio (n * d') (d * d') := (roundRatio_mul_right n d hd').symm
    _ ≤ roundRatio (n' * d) (d * d') := roundRatio_mono_left h
    _ = roundRatio (n' * d) (d' * d) := by rw [Nat.mul_comm d d']
    _ = roundRatio n' d' := roundRatio_mul_right n' d' hd

/-- Rounding does not halve a ratio. -/
theorem lt_roundRatio (hq : q ≠ 0) (h : 2 * q ≤ n / d) : q < roundRatio n d := by
  have hne : n / d ≠ 0 := by omega
  have hlog : n / d < 2 ^ ((n / d).log2 + 1) := Nat.lt_log2_self
  have hround := two_pow_le_roundRatio hne
  rw [Nat.pow_succ] at hlog
  omega

/-- The next short number is not beyond the next power of two. -/
theorem Short.add_spacing_le (hs : Short q) : q + spacing q ≤ 2 ^ (q.log2 + 1) := by
  have hlt : q < 2 ^ (q.log2 + 1) := Nat.lt_log2_self
  have hdvd : spacing q ∣ 2 ^ (q.log2 + 1) - q := Nat.dvd_sub (Nat.pow_dvd_pow 2 (by omega)) hs
  have hle := Nat.le_of_dvd (by omega) hdvd
  omega

/-- A short number is the nearest one to what exceeds it by less than half the gap above it. -/
theorem roundRatio_of_near (hs : Short q) (hq : q ≠ 0) (hd : 0 < d) {r : Nat}
    (hr : 2 * r < d * spacing q) : roundRatio (q * d + r) d = q := by
  have hquot : (q * d + r) / d = q + r / d := by
    rw [Nat.add_comm, Nat.add_mul_div_right r q hd, Nat.add_comm]
  have hgap : spacing (q + r / d) = spacing q := by
    have hless : r / d < spacing q := by
      rw [Nat.div_lt_iff_lt_mul hd, Nat.mul_comm]
      omega
    have hpos : q + r / d ≠ 0 := fun h => hq (Nat.eq_zero_of_add_eq_zero_right h)
    have hlog : (q + r / d).log2 = q.log2 := (Nat.log2_eq_iff hpos).mpr
      ⟨Nat.le_trans (Nat.log2_self_le hq) (Nat.le_add_right q (r / d)),
        Nat.lt_of_lt_of_le (Nat.add_lt_add_left hless q) hs.add_spacing_le⟩
    rw [spacing, spacing, hlog]
  obtain ⟨c, hc⟩ := hs
  have hunit : 0 < d * spacing q := Nat.mul_pos hd (spacing_pos q)
  have hn : q * d + r = r + c * (d * spacing q) :=
    calc q * d + r = spacing q * c * d + r := by rw [← hc]
      _ = r + c * (d * spacing q) := by
        rw [Nat.add_comm, Nat.mul_comm (spacing q) c, Nat.mul_assoc, Nat.mul_comm (spacing q) d]
  have hrem : r % (d * spacing q) = r := Nat.mod_eq_of_lt (by omega)
  have hnearest : nearest (q * d + r) (d * spacing q) = c := by
    rw [hn, nearest, Nat.add_mul_mod_self_right, hrem, if_pos hr, Nat.add_mul_div_right _ _ hunit,
      Nat.div_eq_of_lt (by omega), Nat.zero_add]
  simp only [roundRatio, hquot, hgap, hnearest]
  rw [Nat.mul_comm, ← hc]

end Echelon.Number
