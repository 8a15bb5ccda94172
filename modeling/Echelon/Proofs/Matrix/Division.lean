import Echelon.Proofs.Matrix.Effect
import Echelon.Proofs.Number.Rational

/-!
# Division is exact

A division asks for a remainder and computes the quotient apart from it, rounded. Where the
remainder is zero nothing is rounded, so a row division changes each value by exactly the divisor:
a multiple of the divisor stays a number, and what is no multiple is kept as a fraction.
-/

namespace Echelon

open Binary64

namespace Cell

variable {x d : Binary64} (hx : x.isFinite = true) (hd : d.isFinite = true)
  (hz : d.isZero = false)

include hx hd hz

theorem isZero_rem_iff_exists_int :
    (x % d).isZero = true ↔ ∃ k : ℤ, x.toRat / d.toRat = k := by
  cases x with
  | infinite s => cases hx
  | nan => cases hx
  | finite s m =>
    cases d with
    | infinite t => cases hd
    | nan => cases hd
    | finite t n =>
      have hn : n.quanta ≠ 0 := by simpa [isZero] using hz
      rw [isZero_rem_iff hn, exists_int_eq_div_iff hn]

theorem isFraction_quotient_iff :
    (quotient x d).isFraction = true ↔ ¬ ∃ k : ℤ, x.toRat / d.toRat = k := by
  rw [← isZero_rem_iff_exists_int hx hd hz, quotient]
  split
  · rename_i hrem
    simp [isFraction, hrem]
  · rename_i hrem
    simp [isFraction, hrem]

end Cell

/-- **Division is exact.** A quotient that is a whole number is that number, not rounded, and any
other is kept as a fraction of the two numbers. So each cell of a divided row has exactly the value
of the old one over the divisor, and the fractions are the cells that are no multiples of it. -/
theorem division_exact :
    (∀ x d : Binary64, x.isFinite = true → d.isFinite = true → d.isZero = false →
      (x / d).isFinite = true →
      (∀ k : ℤ, x.toRat / d.toRat = k →
        ∃ y, Cell.quotient x d = .number y ∧ y.isFinite = true ∧ y.toRat = k) ∧
      ((¬ ∃ k : ℤ, x.toRat / d.toRat = k) → Cell.quotient x d = .fraction x d)) ∧
    ∀ (m n : Matrix) (row : RowName) (divisor : Binary64), divisor.isFinite = true →
      m.apply (.divide row divisor) = .ok n →
      (n.cells row).length = (m.cells row).length ∧
      ∀ column old, m.at? row column = some old → ∃ new, n.at? row column = some new ∧
        old.isFraction = false ∧ new.toRat = old.toRat / divisor.toRat ∧
        (new.isFraction = true ↔ ¬ ∃ k : ℤ, old.toRat / divisor.toRat = k) := by
  refine ⟨fun x d hx hd hz hq => ⟨fun k hk => ?_, fun hk => ?_⟩, fun m n row divisor hd h => ?_⟩
  · have hvalue := Cell.toRat_quotient hx hd hz hq
    have hrem := (Cell.isZero_rem_iff_exists_int hx hd hz).mpr ⟨k, hk⟩
    have hnumber : Cell.quotient x d = .number (x / d) := if_pos hrem
    rw [hnumber, hk] at hvalue
    exact ⟨x / d, hnumber, hq, hvalue⟩
  · exact if_neg fun hrem => hk ((Cell.isZero_rem_iff_exists_int hx hd hz).mp hrem)
  · cases Matrix.apply_eq_ok.mp h with
    | divide hz hxs hfinite =>
      refine ⟨by rw [Matrix.cells_replace hxs.1, hxs.2]; simp, fun column old hold => ?_⟩
      rw [Matrix.at?_eq, hxs.2, List.getElem?_map] at hold
      obtain ⟨x, hx, rfl⟩ := Option.map_eq_some_iff.mp hold
      have hq := hfinite (x / divisor) (List.mem_map_of_mem (List.mem_of_getElem? hx))
      have hxfinite := isFinite_of_div hd hq
      refine ⟨Cell.quotient x divisor, ?_, rfl, Cell.toRat_quotient hxfinite hd hz hq,
        Cell.isFraction_quotient_iff hxfinite hd hz⟩
      rw [Matrix.at?_replace hxs.1, List.getElem?_map, hx]
      rfl

/-- A quotient of more than 53 bits beside one that does not come out even. -/
theorem division_exact_huge : ∃ (x d y : Binary64) (m n : Matrix) (new : Cell),
    x.text = "54043195528445976" ∧ Cell.quotient x d = .number y ∧ y.toRat = 18014398509481992 ∧
    Cell.quotient (.ofNat 7) d = .fraction (.ofNat 7) d ∧
    m.apply (.divide ⟨1⟩ d) = .ok n ∧ n.texts = [["18014398509481990", "7/3"]] ∧
    n.at? ⟨1⟩ 1 = some new ∧ new.toRat = 7 / 3 ∧ new.isFraction = true := by
  let x : Binary64 := .ofNat 54043195528445976
  let d : Binary64 := .ofNat 3
  let m : Matrix := ⟨[[.number x, .number (.ofNat 7)]], 2⟩
  have hseven : (Binary64.ofNat 7).toRat / d.toRat = 7 / 3 := by decide +kernel
  have hnot : ¬ ∃ k : ℤ, (Binary64.ofNat 7).toRat / d.toRat = k := by
    rintro ⟨k, hk⟩
    have hwhole : (7 : ℚ) = k * 3 := by
      rw [← hk, hseven]
      norm_num
    have hwhole : (7 : ℤ) = k * 3 := by exact_mod_cast hwhole
    omega
  have hx : x.toRat / d.toRat = (18014398509481992 : ℤ) := by decide +kernel
  obtain ⟨y, hy, _, hvalue⟩ := (division_exact.1 x d (by decide +kernel) (by decide +kernel)
    (by decide +kernel) (by decide +kernel)).1 _ hx
  have hfraction := (division_exact.1 (.ofNat 7) d (by decide +kernel) (by decide +kernel)
    (by decide +kernel) (by decide +kernel)).2 hnot
  have htexts : (m.apply (.divide ⟨1⟩ d)).map Matrix.texts =
      .ok [["18014398509481990", "7/3"]] := by decide +kernel
  obtain ⟨n, hn, htexts⟩ := Result.map_eq_ok.mp htexts
  obtain ⟨new, hnew, _, hquotient, hkind⟩ :=
    (division_exact.2 m n ⟨1⟩ d (by decide +kernel) hn).2 1 (.number (.ofNat 7)) rfl
  exact ⟨x, d, y, m, n, new, by decide +kernel, hy, by rw [hvalue]; norm_num, hfraction, hn, htexts,
    hnew, hquotient.trans hseven, hkind.mpr hnot⟩

end Echelon
