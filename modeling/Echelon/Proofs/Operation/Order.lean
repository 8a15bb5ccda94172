import Echelon.Proofs.Operation.Classification
import Mathlib.Data.List.Perm.Basic

/-!
# The order of the readers

A reader answers exactly on the texts of its form, and no text is of two forms: the sign of a swap
occurs in no assignment, and the sign after the two rows of an assignment tells the others apart.
So at most one reader answers, and it makes no difference in which order they are asked.
-/

namespace Echelon

open Text Operation

/-! ## The forms exclude each other -/

namespace Grammar

/-- The text scales or divides a row, as the sign says. -/
def Scales (c : Char) (text : List Char) : Prop := ∃ i j n, Scaling c text i j n

/-- The text combines two rows. -/
def Combines (text : List Char) : Prop := ∃ i j joiner n k, Combination text i j joiner n k

variable {c d : Char} {text : List Char}

theorem Scales.not_marked (hc : c ≠ '<') (h : Scales c text) : ¬ MarkedAsSwap text := by
  obtain ⟨i, j, n, hf⟩ := h
  exact not_marked_of_scaling hc hf

theorem Combines.not_marked (h : Combines text) : ¬ MarkedAsSwap text := by
  obtain ⟨i, j, joiner, n, k, hf⟩ := h
  exact not_marked_of_combination hf

theorem Scales.sign_eq (hc : isBlank c = false) (hd : isBlank d = false) (h : Scales c text)
    (h' : Scales d text) : c = d := by
  obtain ⟨i, j, n, hf⟩ := h
  obtain ⟨k, l, m, hg⟩ := h'
  obtain ⟨rest, hr⟩ := hf.assignment? hc
  obtain ⟨tail, ht⟩ := hg.assignment? hd
  exact sign_unique hr ht

theorem Scales.not_combines (hc : isBlank c = false) (hsign : ∀ joiner, c ≠ sign joiner)
    (h : Scales c text) : ¬ Combines text := by
  rintro ⟨k, l, joiner, m, r, hg⟩
  obtain ⟨i, j, n, hf⟩ := h
  obtain ⟨rest, hr⟩ := hf.assignment? hc
  obtain ⟨tail, ht⟩ := hg.assignment?
  exact hsign joiner (sign_unique hr ht)

end Grammar

/-! ## When a reader answers -/

namespace Operation

open Grammar

theorem isSome_readSwap_iff (text : String) :
    (readSwap text).isSome ↔ MarkedAsSwap text.toList := by
  rw [← hasSwapSign_iff, readSwap]
  split
  · split <;> simp_all
  · simp_all

theorem isSome_scaleForm?_iff {c : Char} (hc : isBlank c = false) (text : List Char) :
    (scaleForm? c text).isSome ↔ Scales c text := by
  rw [Option.isSome_iff_exists]
  constructor
  · rintro ⟨⟨i, j, number⟩, hform⟩
    obtain ⟨n, _, hf⟩ := (scaleForm?_eq_some_iff hc).mp hform
    exact ⟨i, j, n, hf⟩
  · rintro ⟨i, j, n, hf⟩
    exact ⟨_, (scaleForm?_eq_some_iff hc).mpr ⟨n, rfl, hf⟩⟩

theorem isSome_readScale_iff (text : String) :
    (readScale text).isSome ↔ Scales '*' text.toList := by
  rw [readScale, Option.isSome_map, isSome_scaleForm?_iff (by decide)]

theorem isSome_readDivide_iff (text : String) :
    (readDivide text).isSome ↔ Scales '/' text.toList := by
  rw [readDivide, Option.isSome_map, isSome_scaleForm?_iff (by decide)]

theorem isSome_readCombine_iff (text : String) :
    (readCombine text).isSome ↔ Combines text.toList := by
  rw [readCombine, Option.isSome_map, Option.isSome_iff_exists]
  constructor
  · rintro ⟨⟨i, j, joiner, number, k⟩, hform⟩
    obtain ⟨n, _, hf⟩ := combineForm?_eq_some_iff.mp hform
    exact ⟨i, j, joiner, n, k, hf⟩
  · rintro ⟨i, j, joiner, n, k, hf⟩
    exact ⟨_, combineForm?_eq_some_iff.mpr ⟨n, rfl, hf⟩⟩

/-! ## No text has two answers -/

namespace Reader

/-- The reader decides the outcome for the text. -/
def answers (reader : Reader) (text : String) : Bool := (reader.read text).isSome

/-- No text is answered by both readers. -/
def Apart (a b : Reader) : Prop := ∀ text, a.answers text = true → b.answers text = false

theorem Apart.symm {a b : Reader} (h : a.Apart b) : b.Apart a := by
  intro text hb
  cases ha : a.answers text with
  | false => rfl
  | true =>
    rw [h text ha] at hb
    cases hb

/-- Readers of forms that exclude each other are apart. -/
theorem apart_of_forms {a b : Reader} {P Q : List Char → Prop}
    (ha : ∀ text, (a.read text).isSome ↔ P text.toList)
    (hb : ∀ text, (b.read text).isSome ↔ Q text.toList) (h : ∀ text, P text → ¬ Q text) :
    a.Apart b := by
  intro text hanswer
  rw [answers, ← Bool.not_eq_true, hb]
  exact h _ ((ha text).mp hanswer)

end Reader

/-- **The readers are apart from each other.** -/
theorem pairwise_apart_readers : readers.Pairwise Reader.Apart := by
  have hswap_scale : Reader.Apart ⟨"swap", readSwap⟩ ⟨"scale", readScale⟩ :=
    (Reader.apart_of_forms isSome_readScale_iff isSome_readSwap_iff
      fun _ hform => hform.not_marked (by decide)).symm
  have hswap_divide : Reader.Apart ⟨"swap", readSwap⟩ ⟨"divide", readDivide⟩ :=
    (Reader.apart_of_forms isSome_readDivide_iff isSome_readSwap_iff
      fun _ hform => hform.not_marked (by decide)).symm
  have hswap_combine : Reader.Apart ⟨"swap", readSwap⟩ ⟨"combine", readCombine⟩ :=
    (Reader.apart_of_forms isSome_readCombine_iff isSome_readSwap_iff
      fun _ hform => hform.not_marked).symm
  have hscale_divide : Reader.Apart ⟨"scale", readScale⟩ ⟨"divide", readDivide⟩ :=
    Reader.apart_of_forms isSome_readScale_iff isSome_readDivide_iff fun _ hscale hdivide =>
      absurd (hscale.sign_eq (by decide) (by decide) hdivide) (by decide)
  have hscale_combine : Reader.Apart ⟨"scale", readScale⟩ ⟨"combine", readCombine⟩ :=
    Reader.apart_of_forms isSome_readScale_iff isSome_readCombine_iff
      fun _ hform => hform.not_combines (by decide) (by rintro ⟨⟩ <;> decide)
  have hdivide_combine : Reader.Apart ⟨"divide", readDivide⟩ ⟨"combine", readCombine⟩ :=
    Reader.apart_of_forms isSome_readDivide_iff isSome_readCombine_iff
      fun _ hform => hform.not_combines (by decide) (by rintro ⟨⟩ <;> decide)
  simp [readers, hswap_scale, hswap_divide, hswap_combine, hscale_divide, hscale_combine,
    hdivide_combine]

/-! ## Asking in another order -/

variable {order other : List Reader}

theorem countP_answers_le_one (h : order.Pairwise Reader.Apart) (text : String) :
    order.countP (·.answers text) ≤ 1 := by
  induction h with
  | nil => exact Nat.zero_le 1
  | @cons reader rest hfirst _ ih =>
    by_cases hanswer : reader.answers text = true
    · have hrest : rest.countP (·.answers text) = 0 := by
        rw [List.countP_eq_zero]
        intro later hlater
        rw [hfirst later hlater text hanswer]
        exact Bool.false_ne_true
      rw [List.countP_cons, hrest, if_pos hanswer]
    · rw [List.countP_cons, if_neg hanswer]
      exact ih

/-- Readers that are apart may change places: of two neighbours at most one answers. -/
theorem findSome?_perm (hperm : order.Perm other) (h : order.Pairwise Reader.Apart)
    (text : String) :
    (order.findSome? fun reader => reader.read text) =
      other.findSome? fun reader => reader.read text := by
  induction hperm with
  | nil => rfl
  | cons reader _ ih => rw [List.findSome?_cons, List.findSome?_cons, ih h.of_cons]
  | swap first second rest =>
    have hapart : second.Apart first := List.rel_of_pairwise_cons h List.mem_cons_self
    simp only [List.findSome?_cons]
    cases hsecond : second.read text with
    | none => rfl
    | some outcome =>
      have hfirst : first.read text = none := by
        have hsilent := hapart text (by rw [Reader.answers, hsecond]; rfl)
        rwa [Reader.answers, Option.isSome_eq_false_iff, Option.isNone_iff_eq_none] at hsilent
      rw [hfirst]
  | trans hperm _ ih ih' => rw [ih h, ih' (hperm.pairwise h Reader.Apart.symm)]

theorem firstReading_perm (hperm : order.Perm other) (h : order.Pairwise Reader.Apart)
    (text : String) : firstReading order text = firstReading other text := by
  rw [firstReading, firstReading, findSome?_perm hperm h]

/-- **At most one reader answers, so their order is of no consequence.** The first part is about
every text, with or without blanks at its ends, and the second about every order of the readers. -/
theorem readers_order_free :
    (∀ text, readers.countP (·.answers text) ≤ 1) ∧
    ∀ order, order.Perm readers → ∀ s, firstReading order (trimmed s) = parse s := by
  refine ⟨countP_answers_le_one pairwise_apart_readers, fun order hperm s => ?_⟩
  exact (firstReading_perm hperm.symm pairwise_apart_readers (trimmed s)).symm

/-- The reader of combinations is asked first, and leaves what shows the sign of a swap. -/
theorem readers_order_free_reversed :
    readers.reverse.map Reader.name = ["combine", "divide", "scale", "swap"] ∧
    readers.reverse.Perm readers ∧
    firstReading readers.reverse (trimmed " R1 = R1 + R2 <> R3\n") =
      .error (.malformedSwap "R1 = R1 + R2 <> R3") := by
  have hperm : readers.reverse.Perm readers := List.reverse_perm readers
  refine ⟨rfl, hperm, ?_⟩
  rw [readers_order_free.2 _ hperm]
  decide +kernel

end Operation

end Echelon
