import Echelon.Proofs.Number.Order
import Echelon.Proofs.Number.ReadBack

/-!
# The shortest decimal of a number

The search goes from coarse exponents to fine ones. No decimal above the first exponent reads as the
number, since ten to that power exceeds it, and at the last one the gap between decimals is so small
that one of them does. When any decimal reads as the number, so does one of the two next to it with
the same exponent. So the search succeeds, with the coarsest exponent of all decimals that read as
the number, and therefore with the fewest digits.
-/

namespace Echelon

-- Powers of naturals are those of core.
attribute [local instance (high)] instPowNat

open Number

/-! ## Powers of two and of ten -/

/-- Powers of two bases compare as one pair of them does. -/
theorem pow_le_pow_of_pow_le {x y m n a b : Nat} (hbase : x ^ m ≤ y ^ n) (hm : m ≠ 0) (hy : 0 < y)
    (h : n * a ≤ m * b) : x ^ a ≤ y ^ b := by
  rw [← Nat.pow_le_pow_iff_left hm]
  calc (x ^ a) ^ m = (x ^ m) ^ a := Nat.pow_right_comm x a m
    _ ≤ (y ^ n) ^ a := Nat.pow_le_pow_left hbase a
    _ = y ^ (n * a) := (Nat.pow_mul y n a).symm
    _ ≤ y ^ (m * b) := Nat.pow_le_pow_right hy h
    _ = (y ^ b) ^ m := by rw [Nat.mul_comm, Nat.pow_mul]

theorem two_pow_le_ten_pow {a b : Nat} (h : 28 * a ≤ 93 * b) : 2 ^ a ≤ 10 ^ b :=
  pow_le_pow_of_pow_le (m := 93) (n := 28) (by decide) (by decide) (by decide) h

theorem ten_pow_le_two_pow {a b : Nat} (h : 196 * a ≤ 59 * b) : 10 ^ a ≤ 2 ^ b :=
  pow_le_pow_of_pow_le (m := 59) (n := 196) (by decide) (by decide) (by decide) h

namespace Decimal

/-! ## Decimals with one exponent -/

/-- The worth of a unit in the last digit is this many quanta, over `denominator`. -/
def numerator (exponent : Int) : Nat := quantaPerUnit * 10 ^ exponent.toNat

def denominator (exponent : Int) : Nat := 10 ^ (-exponent).toNat

variable {q : Nat} {m : Magnitude}

/-- A decimal reads as a number when it is rounded to it. -/
theorem toBinary64_eq_finite_iff {d : Decimal} (negative : Bool) :
    d.toBinary64 negative = .finite negative m ↔ d.quanta = m.quanta := by
  refine ⟨quanta_of_toBinary64, fun h => ?_⟩
  rw [toBinary64_eq_value]
  exact Binary64.rounded_eq_finite negative h

theorem numerator_pos (exponent : Int) : 0 < numerator exponent :=
  Nat.mul_pos quantaPerUnit_pos (Nat.pow_pos (by decide))

theorem denominator_pos (exponent : Int) : 0 < denominator exponent := Nat.pow_pos (by decide)

theorem quanta_eq (d : Decimal) :
    d.quanta = roundRatio (d.digits * numerator d.exponent) (denominator d.exponent) := by
  rw [quanta, numerator, denominator, Nat.mul_assoc, Nat.mul_comm (10 ^ d.exponent.toNat)]

theorem numerator_add (exponent : Int) (zeros : Nat) :
    numerator (exponent + zeros) * denominator exponent =
      10 ^ zeros * numerator exponent * denominator (exponent + zeros) := by
  have hpow : 10 ^ (exponent + zeros).toNat * 10 ^ (-exponent).toNat =
      10 ^ zeros * (10 ^ exponent.toNat * 10 ^ (-(exponent + zeros)).toNat) := by
    rw [← Nat.pow_add, ← Nat.pow_add, ← Nat.pow_add]
    congr 1
    omega
  calc numerator (exponent + zeros) * denominator exponent =
        quantaPerUnit * (10 ^ (exponent + zeros).toNat * 10 ^ (-exponent).toNat) :=
        Nat.mul_assoc _ _ _
    _ = 10 ^ zeros * numerator exponent * denominator (exponent + zeros) := by
      rw [hpow, Nat.mul_left_comm, numerator, denominator, Nat.mul_assoc (10 ^ zeros),
        Nat.mul_assoc quantaPerUnit]

theorem le_quanta {n digits : Nat} {e : Int} (h : n ≤ digits * numerator e) :
    roundRatio n (denominator e) ≤ (⟨digits, e⟩ : Decimal).quanta := by
  rw [quanta_eq]
  exact roundRatio_mono_left h

theorem quanta_le {n digits : Nat} {e : Int} (h : digits * numerator e ≤ n) :
    (⟨digits, e⟩ : Decimal).quanta ≤ roundRatio n (denominator e) := by
  rw [quanta_eq]
  exact roundRatio_mono_left h

theorem quanta_mono {k l : Nat} (h : k ≤ l) (e : Int) :
    (⟨k, e⟩ : Decimal).quanta ≤ (⟨l, e⟩ : Decimal).quanta := by
  rw [quanta_eq ⟨l, e⟩]
  exact quanta_le (Nat.mul_le_mul_right _ h)

/-- Zeros at the end of the digits are a coarser exponent. -/
theorem quanta_add (digits : Nat) (exponent : Int) (zeros : Nat) :
    (⟨digits, exponent + zeros⟩ : Decimal).quanta =
      (⟨digits * 10 ^ zeros, exponent⟩ : Decimal).quanta := by
  have hcross : digits * numerator (exponent + zeros) * denominator exponent =
      digits * 10 ^ zeros * numerator exponent * denominator (exponent + zeros) := by
    rw [Nat.mul_assoc, numerator_add, ← Nat.mul_assoc, ← Nat.mul_assoc]
  rw [quanta_eq, quanta_eq]
  exact Nat.le_antisymm
    (roundRatio_mono (denominator_pos _) (denominator_pos _) (Nat.le_of_eq hcross))
    (roundRatio_mono (denominator_pos _) (denominator_pos _) (Nat.le_of_eq hcross.symm))

/-! ## The decimals next to a number -/

theorem neighbours_eq (q : Nat) (e : Int) :
    neighbours q e =
      if 2 * (q * denominator e % numerator e) < numerator e then
        [⟨q * denominator e / numerator e, e⟩, ⟨q * denominator e / numerator e + 1, e⟩]
      else [⟨q * denominator e / numerator e + 1, e⟩, ⟨q * denominator e / numerator e, e⟩] := rfl

theorem mem_neighbours {e : Int} {d : Decimal} :
    d ∈ neighbours q e ↔
      d = ⟨q * denominator e / numerator e, e⟩ ∨ d = ⟨q * denominator e / numerator e + 1, e⟩ := by
  rw [neighbours_eq]
  split
  · simp
  · simp [or_comm]

/-- When a decimal reads as a number, one of those next to the number does, as it lies between. -/
theorem exists_neighbour {digits : Nat} {e : Int}
    (h : (⟨digits, e⟩ : Decimal).quanta = m.quanta) :
    ∃ near ∈ neighbours m.quanta e, near.quanta = m.quanta := by
  have hself : roundRatio (m.quanta * denominator e) (denominator e) = m.quanta :=
    roundRatio_of_short m.short (denominator_pos _)
  rcases Nat.lt_or_ge (m.quanta * denominator e / numerator e) digits with hlt | hge
  · have hupper : m.quanta * denominator e ≤
        (m.quanta * denominator e / numerator e + 1) * numerator e := by
      rw [Nat.mul_comm (_ + 1)]
      exact Nat.le_of_lt (Nat.lt_mul_div_succ _ (numerator_pos _))
    refine ⟨_, mem_neighbours.mpr (Or.inr rfl), Nat.le_antisymm ?_ ?_⟩
    · exact Nat.le_trans (quanta_mono hlt e) (Nat.le_of_eq h)
    · exact Nat.le_trans (Nat.le_of_eq hself.symm) (le_quanta hupper)
  · have hlower : m.quanta * denominator e / numerator e * numerator e ≤
        m.quanta * denominator e := Nat.div_mul_le_self _ _
    refine ⟨_, mem_neighbours.mpr (Or.inl rfl), Nat.le_antisymm ?_ ?_⟩
    · exact Nat.le_trans (quanta_le hlower) (Nat.le_of_eq hself)
    · exact Nat.le_trans (Nat.le_of_eq h.symm) (quanta_mono hge e)

/-! ## The range of the search -/

theorem log2_quanta_lt (hm : m.quanta ≠ 0) : m.quanta.log2 < 2098 := by
  obtain ⟨k, hk, hlimit⟩ := exists_quantaLimit
  rw [← hk, Nat.log2_lt hm, ← hlimit]
  exact m.lt_limit

/-- Ten to the first exponent of the search exceeds the number. -/
theorem lt_ceiling (hm : m.quanta ≠ 0) :
    m.quanta * denominator (ceilingExponent m.quanta) < numerator (ceilingExponent m.quanta) := by
  have hlog := log2_quanta_lt hm
  have hbelow : m.quanta < 2 ^ (m.quanta.log2 + 1) := Nat.lt_log2_self
  obtain ⟨k, hk, hunit⟩ := exists_quantaPerUnit
  rw [numerator, denominator, hunit]
  refine Nat.lt_of_lt_of_le (Nat.mul_lt_mul_of_pos_right hbelow (Nat.pow_pos (by decide))) ?_
  unfold ceilingExponent
  generalize m.quanta.log2 = l at hlog ⊢
  generalize he : ((l : Int) - 1074) * 30103 / 100000 + 2 = e
  rcases Int.le_total 0 e with hup | hdown
  · have hnone : (-e).toNat = 0 := by omega
    have hten : 2 ^ (l + 1 - k) ≤ 10 ^ e.toNat := two_pow_le_ten_pow (by omega)
    calc 2 ^ (l + 1) * 10 ^ (-e).toNat = 2 ^ (l + 1) := by
          rw [hnone, Nat.pow_zero, Nat.mul_one]
      _ ≤ 2 ^ (k + (l + 1 - k)) := Nat.pow_le_pow_right (by decide) (by omega)
      _ = 2 ^ k * 2 ^ (l + 1 - k) := Nat.pow_add 2 _ _
      _ ≤ 2 ^ k * 10 ^ e.toNat := Nat.mul_le_mul_left _ hten
  · have hnone : e.toNat = 0 := by omega
    have htwo : 10 ^ (-e).toNat ≤ 2 ^ (k - (l + 1)) := ten_pow_le_two_pow (by omega)
    calc 2 ^ (l + 1) * 10 ^ (-e).toNat ≤ 2 ^ (l + 1) * 2 ^ (k - (l + 1)) :=
          Nat.mul_le_mul_left _ htwo
      _ = 2 ^ k := by rw [← Nat.pow_add, Nat.add_sub_cancel' (by omega)]
      _ = 2 ^ k * 10 ^ e.toNat := by rw [hnone, Nat.pow_zero, Nat.mul_one]

/-- At the last exponent the gap between decimals is less than half that between numbers. -/
theorem last_lt_spacing (hm : m.quanta ≠ 0) :
    2 * numerator (ceilingExponent m.quanta - 23) <
      denominator (ceilingExponent m.quanta - 23) * spacing m.quanta := by
  have hlog := log2_quanta_lt hm
  obtain ⟨k, hk, hunit⟩ := exists_quantaPerUnit
  rw [numerator, denominator, hunit, spacing, ← Nat.mul_assoc]
  unfold ceilingExponent
  generalize m.quanta.log2 = l at hlog ⊢
  generalize he : ((l : Int) - 1074) * 30103 / 100000 + 2 - 23 = e
  have hstart : 2 * 2 ^ k < 2 ^ (k + 2) := by
    rw [← Nat.pow_succ']
    exact Nat.pow_lt_pow_right (by decide) (by omega)
  rcases Int.le_total 0 e with hup | hdown
  · have hnone : (-e).toNat = 0 := by omega
    have htwo : 10 ^ e.toNat ≤ 2 ^ (l - 52 - (k + 2)) := ten_pow_le_two_pow (by omega)
    calc 2 * 2 ^ k * 10 ^ e.toNat < 2 ^ (k + 2) * 10 ^ e.toNat :=
          Nat.mul_lt_mul_of_pos_right hstart (Nat.pow_pos (by decide))
      _ ≤ 2 ^ (k + 2) * 2 ^ (l - 52 - (k + 2)) := Nat.mul_le_mul_left _ htwo
      _ = 2 ^ (l - 52) := by rw [← Nat.pow_add, Nat.add_sub_cancel' (by omega)]
      _ = 10 ^ (-e).toNat * 2 ^ (l - 52) := by rw [hnone, Nat.pow_zero, Nat.one_mul]
  · have hnone : e.toNat = 0 := by omega
    have hten : 2 ^ (k + 2 - (l - 52)) ≤ 10 ^ (-e).toNat := two_pow_le_ten_pow (by omega)
    calc 2 * 2 ^ k * 10 ^ e.toNat = 2 * 2 ^ k := by rw [hnone, Nat.pow_zero, Nat.mul_one]
      _ < 2 ^ (k + 2) := hstart
      _ ≤ 2 ^ (k + 2 - (l - 52) + (l - 52)) := Nat.pow_le_pow_right (by decide) (by omega)
      _ = 2 ^ (k + 2 - (l - 52)) * 2 ^ (l - 52) := Nat.pow_add 2 _ _
      _ ≤ 10 ^ (-e).toNat * 2 ^ (l - 52) := Nat.mul_le_mul_right _ hten

/-- No decimal above the first exponent reads as the number. -/
theorem quanta_ne_of_ceiling_lt (hm : m.quanta ≠ 0) {digits : Nat} {e : Int}
    (h : ceilingExponent m.quanta < e) : (⟨digits, e⟩ : Decimal).quanta ≠ m.quanta := by
  have hceiling := lt_ceiling hm
  generalize ceilingExponent m.quanta = first at h hceiling
  by_cases hdigits : digits = 0
  · have hzero : (⟨digits, e⟩ : Decimal).quanta = 0 := by
      rw [quanta_eq, hdigits, Nat.zero_mul]
      exact roundRatio_of_lt_half (denominator_pos e)
    omega
  · obtain ⟨zeros, rfl⟩ : ∃ zeros : Nat, e = first + (zeros + 1 : Nat) :=
      ⟨(e - first).toNat - 1, by omega⟩
    have hten : 2 ≤ 10 ^ (zeros + 1) := by
      have hpos : 0 < 10 ^ zeros := Nat.pow_pos (by decide)
      rw [Nat.pow_succ]
      omega
    have hreach : 2 * m.quanta * denominator first ≤ 1 * 10 ^ (zeros + 1) * numerator first := by
      rw [Nat.one_mul, Nat.mul_assoc]
      exact Nat.mul_le_mul hten (Nat.le_of_lt hceiling)
    have hdouble : 2 * m.quanta ≤ 2 * m.quanta * denominator first / denominator first :=
      Nat.le_of_eq (Nat.mul_div_cancel _ (denominator_pos _)).symm
    have habove : m.quanta < (⟨digits, first + (zeros + 1 : Nat)⟩ : Decimal).quanta :=
      calc m.quanta < roundRatio (2 * m.quanta * denominator first) (denominator first) :=
            lt_roundRatio hm hdouble
        _ ≤ (⟨1 * 10 ^ (zeros + 1), first⟩ : Decimal).quanta := le_quanta hreach
        _ = (⟨1, first + (zeros + 1 : Nat)⟩ : Decimal).quanta := (quanta_add 1 _ _).symm
        _ ≤ (⟨digits, first + (zeros + 1 : Nat)⟩ : Decimal).quanta :=
          quanta_mono (Nat.pos_of_ne_zero hdigits) _
    omega

/-- At the last exponent of the search the decimal above the number reads as it. -/
theorem exists_last_neighbour (hm : m.quanta ≠ 0) :
    ∃ near ∈ neighbours m.quanta (ceilingExponent m.quanta - 23), near.quanta = m.quanta := by
  have hgap := last_lt_spacing hm
  generalize ceilingExponent m.quanta - 23 = e at hgap ⊢
  have hdiv := Nat.div_add_mod (m.quanta * denominator e) (numerator e)
  have hmod := Nat.mod_lt (m.quanta * denominator e) (numerator_pos e)
  have habove : (m.quanta * denominator e / numerator e + 1) * numerator e =
      m.quanta * denominator e + (numerator e - m.quanta * denominator e % numerator e) := by
    rw [Nat.add_mul, Nat.one_mul, Nat.mul_comm (_ / _)]
    omega
  refine ⟨_, mem_neighbours.mpr (Or.inr rfl), ?_⟩
  rw [quanta_eq, habove]
  exact roundRatio_of_near m.short hm (denominator_pos e) (by omega)

/-! ## What the search finds -/

/-- A search over a range finds the first index with a result. -/
theorem findSome?_range_eq_some {α : Type} {f : Nat → Option α} {n : Nat} {a : α}
    (h : (List.range n).findSome? f = some a) :
    ∃ i, f i = some a ∧ ∀ j, j < i → f j = none := by
  induction n with
  | zero => cases h
  | succ n ih =>
    rw [List.range_succ, List.findSome?_append] at h
    cases hbefore : (List.range n).findSome? f with
    | some b =>
      rw [hbefore] at h
      cases h
      exact ih hbefore
    | none =>
      rw [hbefore, Option.none_or] at h
      obtain ⟨i, hi, hfound⟩ := List.exists_of_findSome?_eq_some h
      rw [List.mem_singleton.mp hi] at hfound
      rw [List.findSome?_eq_none_iff] at hbefore
      exact ⟨n, hfound, fun j hj => hbefore j (List.mem_range.mpr hj)⟩

/-- The search over the exponents, in terms of what a decimal is rounded to. -/
theorem shortest_eq (m : Magnitude) :
    shortest m.quanta = ((List.range 24).findSome? fun (i : Nat) =>
      (neighbours m.quanta (ceilingExponent m.quanta - i)).find? fun d =>
        decide (d.quanta = m.quanta)).getD (exact m.quanta) := by
  simp only [shortest, List.findSome?_map, Function.comp_def]
  refine congrArg (fun test => Option.getD (List.findSome? (fun (i : Nat) =>
    (neighbours m.quanta (ceilingExponent m.quanta - i)).find? test) (List.range 24))
      (exact m.quanta)) (funext fun d => ?_)
  split
  · rename_i s n hread
    rw [quanta_of_toBinary64 hread]
    rfl
  · rename_i hother
    have hne : d.quanta ≠ m.quanta := fun h =>
      hother false m ((toBinary64_eq_finite_iff false).mpr h)
    rw [decide_eq_false hne]

/-- The search succeeds, and what it finds is the first decimal that reads as the number. -/
theorem exists_search (hm : m.quanta ≠ 0) :
    ∃ i : Nat, shortest m.quanta ∈ neighbours m.quanta (ceilingExponent m.quanta - i) ∧
      ∀ j : Nat, j < i → ∀ near ∈ neighbours m.quanta (ceilingExponent m.quanta - j),
        near.quanta ≠ m.quanta := by
  rw [shortest_eq]
  cases hfound : (List.range 24).findSome? fun (i : Nat) =>
      (neighbours m.quanta (ceilingExponent m.quanta - i)).find? fun d =>
        decide (d.quanta = m.quanta) with
  | none =>
    rw [List.findSome?_eq_none_iff] at hfound
    obtain ⟨near, hnear, hreads⟩ := exists_last_neighbour hm
    have hlast := List.find?_eq_none.mp (hfound 23 (by decide)) near hnear
    exact absurd (decide_eq_true hreads) hlast
  | some d =>
    obtain ⟨i, hi, hbefore⟩ := findSome?_range_eq_some hfound
    refine ⟨i, List.mem_of_find?_eq_some hi, fun j hj near hnear hreads => ?_⟩
    exact List.find?_eq_none.mp (hbefore j hj) near hnear (decide_eq_true hreads)

/-- **What the search finds has the coarsest exponent of all decimals that read as the number.** -/
theorem exponent_le_shortest (hm : m.quanta ≠ 0) {digits : Nat} {e : Int}
    (h : (⟨digits, e⟩ : Decimal).quanta = m.quanta) : e ≤ (shortest m.quanta).exponent := by
  obtain ⟨i, hfound, hbefore⟩ := exists_search hm
  have hexponent : (shortest m.quanta).exponent = ceilingExponent m.quanta - i := by
    rcases mem_neighbours.mp hfound with hd | hd
    · rw [hd]
    · rw [hd]
  have hceiling : e ≤ ceilingExponent m.quanta := by
    by_contra hlarge
    exact quanta_ne_of_ceiling_lt hm (Int.not_le.mp hlarge) h
  by_contra hfiner
  obtain ⟨j, rfl⟩ : ∃ j : Nat, e = ceilingExponent m.quanta - j :=
    ⟨(ceilingExponent m.quanta - e).toNat, by omega⟩
  obtain ⟨near, hnear, hreads⟩ := exists_neighbour h
  exact hbefore j (by omega) near hnear hreads

/-- **What the search finds has the fewest digits of all decimals that read as the number.** Between
it and one with fewer digits is a power of ten, which would read as the number and is coarser. -/
theorem length_shortest_le (hm : m.quanta ≠ 0) {digits : Nat} {e : Int}
    (h : (⟨digits, e⟩ : Decimal).quanta = m.quanta) :
    (Nat.toDigits 10 (shortest m.quanta).digits).length ≤ (Nat.toDigits 10 digits).length := by
  have hself : (shortest m.quanta).quanta = m.quanta := quanta_shortest m.short
  have hcoarse : ∀ {k : Nat} {f : Int}, (⟨k, f⟩ : Decimal).quanta = m.quanta →
      f ≤ (shortest m.quanta).exponent := exponent_le_shortest hm
  generalize shortest m.quanta = s at hself hcoarse ⊢
  obtain ⟨found, f⟩ := s
  have hle : e ≤ f := hcoarse h
  obtain ⟨zeros, rfl⟩ : ∃ zeros : Nat, f = e + zeros := ⟨(f - e).toNat, by omega⟩
  have hlength : 0 < (Nat.toDigits 10 digits).length := Nat.length_toDigits_pos
  generalize hn : (Nat.toDigits 10 digits).length = n at hlength ⊢
  by_contra hlong
  have hbelow : digits < 10 ^ n :=
    (Nat.length_toDigits_le_iff (by decide) hlength).mp (Nat.le_of_eq hn)
  have habove : 10 ^ n ≤ found := by
    by_contra hless
    exact hlong ((Nat.length_toDigits_le_iff (by decide) hlength).mpr (Nat.not_le.mp hless))
  have hpower : (⟨1, e + zeros + n⟩ : Decimal).quanta = m.quanta := by
    rw [quanta_add, Nat.one_mul]
    apply Nat.le_antisymm
    · exact Nat.le_trans (quanta_mono habove _) (Nat.le_of_eq hself)
    · rw [quanta_add]
      have hdigits : digits ≤ 10 ^ n * 10 ^ zeros := Nat.le_trans (Nat.le_of_lt hbelow)
        (Nat.le_mul_of_pos_right _ (Nat.pow_pos (by decide)))
      exact Nat.le_trans (Nat.le_of_eq h.symm) (quanta_mono hdigits e)
  have hcoarser : e + zeros + n ≤ e + zeros := hcoarse hpower
  omega

end Decimal

end Echelon
