import Echelon.Proofs.Matrix.Applies
import Echelon.Proofs.Number.ZeroSign
import Echelon.Proofs.Operation.RoundTrip

/-!
# The sign of a zero cannot be observed

Two matrices that are the same but for the signs of zeros, and operations that are the same but for
the signs of zeros: one step goes on in both or is refused in both with the same fault, and leaves
matrices that are the same but for the signs of zeros. What is shown never tells them apart, so
nothing is hidden by showing every zero without a sign.
-/

namespace Echelon

open Binary64

/-! ## Cells -/

namespace Cell

/-- Cells that are the same but for the sign of a zero; the parts of a fraction are the same. -/
inductive Alike : Cell → Cell → Prop where
  | number {x y : Binary64} : x.Alike y → Alike (.number x) (.number y)
  | fraction (n d : Binary64) : Alike (.fraction n d) (.fraction n d)

variable {a b : Cell} {x y d : Binary64}

theorem Alike.text_eq (h : a.Alike b) : a.text = b.text := by
  cases h with
  | number hxy => exact hxy.text_eq
  | fraction n d => rfl

theorem Alike.isFraction_eq (h : a.Alike b) : a.isFraction = b.isFraction := by
  cases h with
  | number _ => rfl
  | fraction n d => rfl

/-- A zero is a multiple of what it is divided by, so no fraction has it as its numerator. -/
theorem alike_quotient (h : x.Alike y) (hd : d.isZero = false)
    (hq : (x / d).isFinite = true) : (quotient x d).Alike (quotient y d) := by
  unfold quotient
  rw [← (h.rem d).isZero_eq]
  split
  · exact .number (h.div hd)
  · rename_i hrem
    have hx : x.isZero = false := by
      cases hzero : x.isZero with
      | false => rfl
      | true => exact absurd (isZero_rem hzero hd hq) hrem
    rw [h.eq hx]
    exact .fraction y d

end Cell

/-! ## Operations -/

namespace Operation

/-- Operations that are the same but for the sign of a zero. -/
inductive Alike : Operation → Operation → Prop where
  | swap (i j : RowName) : Alike (.swap i j) (.swap i j)
  | scale (i : RowName) {x y : Binary64} : x.Alike y → Alike (.scale i x) (.scale i y)
  | divide (i : RowName) {x y : Binary64} : x.Alike y → Alike (.divide i x) (.divide i y)
  | combine (i j : RowName) (joiner : Joiner) (k : RowName) {x y : Binary64} : x.Alike y →
      Alike (.combine i j joiner x k) (.combine i j joiner y k)

variable {a b : Operation}

theorem Alike.text_eq (h : a.Alike b) : a.text = b.text := by
  have hplain : a.plain = b.plain := by
    cases h with
    | swap i j => rfl
    | scale i hxy => simp only [plain, hxy.plain_eq]
    | divide i hxy => simp only [plain, hxy.plain_eq]
    | combine i j joiner k hxy => simp only [plain, hxy.plain_eq]
  rw [← text_plain a, hplain, text_plain]

end Operation

/-! ## Matrices -/

namespace Matrix

open Result

/-- Matrices that are the same but for the signs of zeros. -/
structure Alike (m n : Matrix) : Prop where
  width_eq : m.width = n.width
  rows : List.Forall₂ (List.Forall₂ Cell.Alike) m.rows n.rows

/-- Where the fractions of a matrix stand. -/
def fractions (m : Matrix) : List (List Bool) := m.rows.map fun row => row.map Cell.isFraction

section

variable {α β γ : Type} {R : α → β → Prop} {as : List α} {bs : List β}

theorem forall₂_set (h : List.Forall₂ R as bs) (i : Nat) {a : α} {b : β} (hab : R a b) :
    List.Forall₂ R (as.set i a) (bs.set i b) := by
  induction h generalizing i with
  | nil => exact .nil
  | cons hfirst hrest ih =>
    cases i with
    | zero => exact .cons hab hrest
    | succ i => exact .cons hfirst (ih i)

theorem forall₂_getD (h : List.Forall₂ R as bs) (i : Nat) {a : α} {b : β} (hab : R a b) :
    R (as.getD i a) (bs.getD i b) := by
  induction h generalizing i with
  | nil => exact hab
  | cons hfirst _ ih =>
    cases i with
    | zero => exact hfirst
    | succ i => exact ih i

theorem forall₂_zipWith {δ ε ζ : Type} {S : γ → δ → Prop} {T : ε → ζ → Prop} {cs : List γ}
    {ds : List δ} {f : α → γ → ε} {g : β → δ → ζ} (h : List.Forall₂ R as bs)
    (h' : List.Forall₂ S cs ds) (hf : ∀ a b c d, R a b → S c d → T (f a c) (g b d)) :
    List.Forall₂ T (List.zipWith f as cs) (List.zipWith g bs ds) := by
  induction h generalizing cs ds with
  | nil => exact .nil
  | cons hab _ ih =>
    cases h' with
    | nil => exact .nil
    | cons hcd hrest => exact .cons (hf _ _ _ _ hab hcd) (ih hrest)

theorem forall₂_zipIdx (h : List.Forall₂ R as bs) (k : Nat) :
    List.Forall₂ (fun p q => R p.1 q.1 ∧ p.2 = q.2) (as.zipIdx k) (bs.zipIdx k) := by
  induction h generalizing k with
  | nil => exact .nil
  | cons hfirst _ ih => exact .cons ⟨hfirst, rfl⟩ (ih (k + 1))

end

section

variable {m n : Matrix} (hm : m.Alike n)

include hm

theorem Alike.height_eq : m.height = n.height := hm.rows.length_eq

theorem Alike.texts_eq : m.texts = n.texts :=
  map_eq_of_forall₂ hm.rows fun _ _ hrow => map_eq_of_forall₂ hrow fun _ _ => Cell.Alike.text_eq

theorem Alike.fractions_eq : m.fractions = n.fractions :=
  map_eq_of_forall₂ hm.rows fun _ _ hrow =>
    map_eq_of_forall₂ hrow fun _ _ => Cell.Alike.isFraction_eq

theorem Alike.cells (row : RowName) : List.Forall₂ Cell.Alike (m.cells row) (n.cells row) :=
  forall₂_getD hm.rows _ .nil

theorem Alike.replace (row : RowName) {as bs : List Cell} (h : List.Forall₂ Cell.Alike as bs) :
    (m.replace row as).Alike (n.replace row bs) := ⟨hm.width_eq, forall₂_set hm.rows _ h⟩

theorem Alike.exchange (i j : RowName) : (m.exchange i j).Alike (n.exchange i j) :=
  (hm.replace i (hm.cells j)).replace j (hm.cells i)

theorem Alike.numbers (row : RowName) :
    Related (List.Forall₂ Binary64.Alike) (m.numbers row) (n.numbers row) := by
  rw [numbers_eq, numbers_eq, hm.height_eq]
  refine (Related.of_eq rfl).bind fun i _ _ heq => ?_
  subst heq
  refine Related.mapM (forall₂_zipIdx (forall₂_getD hm.rows i .nil) 1) ?_
  rintro ⟨cell, column⟩ ⟨other, _⟩ ⟨hcell, rfl⟩
  cases hcell with
  | number hxy => exact .ok hxy
  | fraction k d => exact .error _

end

variable {a b op : Operation} {xs ys : List Binary64}

theorem guardFinite_eq (hop : a.Alike b) (h : List.Forall₂ Binary64.Alike xs ys) :
    guardFinite a xs = guardFinite b ys := by
  have hall : xs.map Binary64.isFinite = ys.map Binary64.isFinite :=
    map_eq_of_forall₂ h fun _ _ => Binary64.Alike.isFinite_eq
  have hall : xs.all Binary64.isFinite = ys.all Binary64.isFinite := by
    simpa only [List.all_map, Function.id_comp] using congrArg (List.all · id) hall
  rw [guardFinite, guardFinite, hall, hop.text_eq]

/-- **One step on matrices that are alike.** It leads to matrices that are alike, or is refused in
both with one fault. -/
theorem Alike.apply {m n : Matrix} (hm : m.Alike n) (hop : a.Alike b) :
    Related Alike (m.apply a) (n.apply b) := by
  have hchecks (rows : List RowName) :
      Related Eq (rows.forM fun row => do discard (row.index m.height))
        (rows.forM fun row => do discard (row.index n.height)) :=
    Related.of_eq (by rw [hm.height_eq])
  cases hop with
  | swap i j => exact (hchecks _).bind fun _ _ _ _ => .ok (hm.exchange i j)
  | @scale i x y hxy =>
    refine (hchecks _).bind fun _ _ _ _ => (hm.numbers i).bind fun xs ys _ hxs => ?_
    have hscaled : List.Forall₂ Binary64.Alike (xs.map (· * x)) (ys.map (· * y)) :=
      List.rel_map (fun _ _ h => h.mul hxy) hxs
    refine (Related.of_eq (guardFinite_eq (.scale i hxy) hscaled)).bind fun _ _ _ _ => ?_
    exact .ok (hm.replace i (List.rel_map (fun _ _ => .number) hscaled))
  | @divide i x y hxy =>
    have hop : (Operation.divide i x).Alike (.divide i y) := .divide i hxy
    refine (hchecks _).bind fun _ _ _ _ => ?_
    cases hz : x.isZero with
    | true =>
      have hz' : y.isZero = true := hxy.isZero_eq ▸ hz
      simp only [hz, hz', if_true, error_bind, hop.text_eq]
      exact .error _
    | false =>
      obtain rfl := hxy.eq hz
      simp only [hz, Bool.false_eq_true, if_false]
      refine (hm.numbers i).bind fun xs ys _ hxs => ?_
      have hquotients : List.Forall₂ Binary64.Alike (xs.map (· / x)) (ys.map (· / x)) :=
        List.rel_map (fun _ _ h => h.div hz) hxs
      refine (Related.of_eq (guardFinite_eq hop hquotients)).bind fun _ _ hguard _ => ?_
      have hfinite : ∀ a ∈ xs, (a / x).isFinite = true :=
        List.forall_mem_map.mp (guardFinite_eq_ok.mp hguard)
      refine .ok (hm.replace i (List.rel_map (R := fun a b => (a / x).isFinite = true ∧ a.Alike b)
        (fun _ _ h => Cell.alike_quotient h.2 hz h.1) ?_))
      exact (List.forall₂_and_left xs ys).mpr ⟨hfinite, hxs⟩
  | @combine i j joiner k x y hxy =>
    refine (hchecks _).bind fun _ _ _ _ => (hm.numbers j).bind fun xs ys _ hxs =>
      (hm.numbers k).bind fun us vs _ hus => ?_
    have hcombined : List.Forall₂ Binary64.Alike (combined joiner x xs us)
        (combined joiner y ys vs) :=
      forall₂_zipWith hxs hus fun _ _ _ _ h h' => h.join joiner (hxy.mul h')
    refine (Related.of_eq (guardFinite_eq (.combine i j joiner k hxy) hcombined)).bind
      fun _ _ _ _ => ?_
    exact .ok (hm.replace i (List.rel_map (fun _ _ => .number) hcombined))

/-! ## Runs -/

/-- What comes of an operation: the fault it is refused with, if it is, and the matrix then. One
that is refused leaves the matrix as it is. -/
def attempt (m : Matrix) (op : Operation) : Option Fault × Matrix :=
  match m.apply op with
  | .ok n => (none, n)
  | .error fault => (some fault, m)

/-- What comes of each operation of a run. -/
def trace (m : Matrix) : List Operation → List (Option Fault × Matrix)
  | [] => []
  | op :: ops => m.attempt op :: (m.attempt op).2.trace ops

variable {m n : Matrix}

theorem Alike.attempt (hm : m.Alike n) (hop : a.Alike b) :
    (m.attempt a).1 = (n.attempt b).1 ∧ (m.attempt a).2.Alike (n.attempt b).2 := by
  have hstep := hm.apply hop
  unfold Matrix.attempt
  generalize m.apply a = x at hstep ⊢
  generalize n.apply b = y at hstep ⊢
  cases hstep with
  | ok hnext => exact ⟨rfl, hnext⟩
  | error fault => exact ⟨rfl, hm⟩

/-- **The sign of a zero cannot be observed.** Two matrices are the same but for the signs of zeros,
and so are the numbers in two runs of operations. Then the runs are refused at the same steps with
the same faults, and after each step the matrices are still the same but for the signs of zeros,
have their fractions in the same places and are shown alike. -/
theorem zero_sign_unobservable {as bs : List Operation} (hm : m.Alike n)
    (hops : List.Forall₂ Operation.Alike as bs) :
    List.Forall₂ (fun p q => p.1 = q.1 ∧ p.2.Alike q.2 ∧ p.2.fractions = q.2.fractions ∧
      p.2.texts = q.2.texts) (m.trace as) (n.trace bs) := by
  induction hops generalizing m n with
  | nil => exact .nil
  | cons hop _ ih =>
    obtain ⟨hfault, hnext⟩ := hm.attempt hop
    exact .cons ⟨hfault, hnext, hnext.fractions_eq, hnext.texts_eq⟩ (ih hnext)

/-- Runs whose zeros have different signs to the end, one refused for a zero it would divide by. -/
theorem zero_sign_unobservable_refused : ∃ (m n : Matrix) (as bs : List Operation),
    m.Alike n ∧ List.Forall₂ Operation.Alike as bs ∧ m.texts = [["0", "6", "4"], ["3", "0", "1"]] ∧
    as.map Operation.text =
      ["R1 = R1 + 0R2", "R1 = R1 / 4", "R1 = R1 / 0", "R2 = R2 - R1", "R2 = R2 * 0"] ∧
    (∀ p ∈ List.zip (m.trace as) (n.trace bs), p.1.2 ≠ p.2.2) ∧
    (n.trace bs).map Prod.fst = [none, none, some (.divisionByZero "R1 = R1 / 0"),
      some (.fractionOperand 1 2 "6/4"), none] ∧
    (m.trace as).map Prod.fst = (n.trace bs).map Prod.fst ∧
    (n.trace bs).getLast?.map (fun p => p.2.texts) = some [["0", "6/4", "1"], ["0", "0", "0"]] ∧
    (m.trace as).map (fun p => p.2.texts) = (n.trace bs).map (fun p => p.2.texts) := by
  let row (a b c : Binary64) : List Cell := [.number a, .number b, .number c]
  let start (s : Bool) : Matrix :=
    ⟨[row (.zero s) (.ofNat 6) (.ofNat 4), row (.ofNat 3) (.zero (!s)) .one], 3⟩
  let run (s : Bool) : List Operation := [.combine ⟨1⟩ ⟨1⟩ .plus (.zero s) ⟨2⟩,
    .divide ⟨1⟩ (.ofNat 4), .divide ⟨1⟩ (.zero s), .combine ⟨2⟩ ⟨2⟩ .minus .one ⟨1⟩,
    .scale ⟨2⟩ (.zero s)]
  have hzeros : (zero true).Alike (zero false) := alike_zeros _ _
  have hzeros' : (zero false).Alike (zero true) := alike_zeros _ _
  have hm : (start true).Alike (start false) :=
    ⟨rfl, .cons
        (.cons (.number hzeros) (.cons (.number (.refl _)) (.cons (.number (.refl _)) .nil)))
      (.cons (.cons (.number (.refl _)) (.cons (.number hzeros') (.cons (.number (.refl _)) .nil)))
        .nil)⟩
  have hops : List.Forall₂ Operation.Alike (run true) (run false) :=
    .cons (.combine _ _ _ _ hzeros) (.cons (.divide _ (.refl _)) (.cons (.divide _ hzeros)
      (.cons (.combine _ _ _ _ (.refl _)) (.cons (.scale _ hzeros) .nil))))
  have hrun := zero_sign_unobservable hm hops
  refine ⟨start true, start false, run true, run false, hm, hops, by decide +kernel,
    by decide +kernel, by decide +kernel, by decide +kernel, ?_, by decide +kernel, ?_⟩
  · exact map_eq_of_forall₂ hrun fun _ _ h => h.1
  · exact map_eq_of_forall₂ hrun fun _ _ h => h.2.2.2

end Matrix

end Echelon
