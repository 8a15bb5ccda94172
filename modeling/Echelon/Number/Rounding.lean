/-!
# Rounding to 53 significant bits

A whole number is *short* when 53 significant bits suffice to write it. `roundRatio n d` is the
short number nearest to `n / d`, a halfway case going to the neighbour whose last bit is zero.
`short_roundRatio` says that the result is short.
-/

namespace Echelon.Number

-- Powers of naturals are those of core.
attribute [local instance (high)] instPowNat

/-- The whole number nearest to `n / d`; of two equally near ones, the even one. -/
def nearest (n d : Nat) : Nat :=
  if 2 * (n % d) < d then n / d
  else if d < 2 * (n % d) then n / d + 1
  else n / d + n / d % 2

/-- The gap between neighbouring short numbers at `q`. -/
def spacing (q : Nat) : Nat := 2 ^ (q.log2 - 52)

/-- Whether `q` is written with at most 53 significant bits. -/
def Short (q : Nat) : Prop := spacing q ∣ q

instance (q : Nat) : Decidable (Short q) := inferInstanceAs (Decidable (_ ∣ _))

/-- The short number nearest to `n / d`. -/
def roundRatio (n d : Nat) : Nat :=
  let unit := spacing (n / d)
  nearest n (d * unit) * unit

theorem nearest_le (n d : Nat) : nearest n d ≤ n / d + 1 := by
  unfold nearest
  split
  · omega
  · split <;> omega

theorem spacing_pos (q : Nat) : 0 < spacing q := Nat.two_pow_pos _

/-- A multiple of `2 ^ k` below `2 ^ (53 + k)` is short. -/
theorem short_of_dvd {q k : Nat} (hlt : q < 2 ^ (53 + k)) (hdvd : 2 ^ k ∣ q) : Short q := by
  by_cases hq : q = 0
  · subst hq; exact Nat.dvd_zero _
  · have hlog : q.log2 < 53 + k := (Nat.log2_lt hq).2 hlt
    exact Nat.dvd_trans (Nat.pow_dvd_pow 2 (by omega)) hdvd

theorem short_two_pow (k : Nat) : Short (2 ^ k) := by
  have hlog : (2 ^ k).log2 = k := Nat.log2_two_pow
  unfold Short spacing
  rw [hlog]
  exact Nat.pow_dvd_pow 2 (by omega)

theorem div_lt_of_spacing (n d : Nat) : n / (d * spacing (n / d)) < 2 ^ (53 : Nat) := by
  rw [← Nat.div_div_eq_div_mul]
  have hlt : n / d < 2 ^ ((n / d).log2 + 1) := Nat.lt_log2_self
  have hle : 2 ^ ((n / d).log2 + 1) ≤ 2 ^ (53 : Nat) * spacing (n / d) := by
    unfold spacing
    rw [← Nat.pow_add]
    exact Nat.pow_le_pow_right (by omega) (by omega)
  exact (Nat.div_lt_iff_lt_mul (spacing_pos _)).2 (Nat.lt_of_lt_of_le hlt hle)

theorem short_roundRatio (n d : Nat) : Short (roundRatio n d) := by
  simp only [roundRatio]
  have hle := nearest_le n (d * spacing (n / d))
  have hlt := div_lt_of_spacing n d
  generalize nearest n (d * spacing (n / d)) = m at *
  unfold spacing at *
  by_cases hm : m < 2 ^ (53 : Nat)
  · refine short_of_dvd (k := (n / d).log2 - 52) ?_ (Nat.dvd_mul_left _ _)
    rw [Nat.pow_add]
    exact Nat.mul_lt_mul_of_pos_right hm (Nat.two_pow_pos _)
  · have hm : m = 2 ^ (53 : Nat) := by omega
    rw [hm, ← Nat.pow_add]
    exact short_two_pow _

end Echelon.Number
