import Echelon.Proofs.Operation.Grammar
import Echelon.Proofs.Results

/-!
# The reading of a text, decided by the grammar

A text stands for an operation when the grammar derives it with numbers of finite value and a
divisor other than zero. Every other text is refused, and the first of four questions that has the
answer yes decides how: whether it shows the sign of a swap, scales one row into another, writes a
number that is too large, or divides by zero.
-/

namespace Echelon.Grammar

open Text Literal Operation Result

/-- The operation that a text stands for. -/
inductive Derives (text : List Char) : Operation → Prop where
  | swap {i j : RowName} : Swap text i j → Derives text (.swap i j)
  | scale {i : RowName} {n : WrittenNumber} :
      Scaling '*' text i i n → n.value.isFinite = true → Derives text (.scale i n.value)
  | divide {i : RowName} {n : WrittenNumber} :
      Scaling '/' text i i n → n.value.isFinite = true → n.value.isZero = false →
      Derives text (.divide i n.value)
  | combine {i j k : RowName} {joiner : Joiner} {n : WrittenNumber} :
      Combination text i j joiner (some n) k → n.value.isFinite = true →
      Derives text (.combine i j joiner n.value k)
  | combineOne {i j k : RowName} {joiner : Joiner} :
      Combination text i j joiner none k → Derives text (.combine i j joiner .one k)

/-- The text shows the sign of a swap somewhere. -/
def MarkedAsSwap (text : List Char) : Prop := ['<', '>'] <:+: text

/-- The text scales or divides a row into another one. -/
def Mismatched (text : List Char) (i j : RowName) : Prop :=
  i ≠ j ∧ ∃ n, Scaling '*' text i j n ∨ Scaling '/' text i j n

/-- The text writes a number in one of the three forms that have one. -/
def Writes (text : List Char) (n : WrittenNumber) : Prop :=
  (∃ i j, Scaling '*' text i j n ∨ Scaling '/' text i j n) ∨
    ∃ i j joiner k, Combination text i j joiner (some n) k

/-- The text writes a number that is too large. -/
def Overflows (text : List Char) : Prop := ∃ n, Writes text n ∧ n.value.isFinite = false

/-- The text divides by a number that rounds to zero. -/
def DividesByZero (text : List Char) : Prop :=
  ∃ i j n, Scaling '/' text i j n ∧ n.value.isZero = true

/-- How a text that stands for no operation is refused. -/
inductive Refused (text : String) : Fault → Prop where
  | malformedSwap : MarkedAsSwap text.toList → Refused text (.malformedSwap text)
  | scaleRowMismatch {i j : RowName} :
      ¬ MarkedAsSwap text.toList → Mismatched text.toList i j →
      Refused text (.scaleRowMismatch i.number j.number)
  | overflow :
      ¬ MarkedAsSwap text.toList → (∀ i j, ¬ Mismatched text.toList i j) →
      Overflows text.toList → Refused text (.unrecognized text)
  | divisionByZero :
      ¬ MarkedAsSwap text.toList → (∀ i j, ¬ Mismatched text.toList i j) →
      ¬ Overflows text.toList → DividesByZero text.toList → Refused text (.divisionByZero text)
  | unrecognized :
      ¬ MarkedAsSwap text.toList → (∀ i j, ¬ Mismatched text.toList i j) →
      ¬ Overflows text.toList → ¬ DividesByZero text.toList → Refused text (.unrecognized text)

/-! ## The forms exclude each other -/

theorem hasSwapSign_iff (text : List Char) : hasSwapSign text = true ↔ MarkedAsSwap text := by
  unfold MarkedAsSwap
  fun_induction hasSwapSign text with
  | case1 rest => exact ⟨fun _ => ⟨[], rest, rfl⟩, fun _ => rfl⟩
  | case2 c rest hne ih =>
    rw [ih]
    constructor
    · exact fun h => h.trans (List.suffix_cons c rest).isInfix
    · intro h
      rcases List.infix_cons_iff.mp h with hp | hi
      · obtain ⟨tail, ht⟩ := hp
        obtain ⟨hc, hrest⟩ := List.cons.inj ht
        exact absurd hrest.symm (hne tail hc.symm)
      · exact hi
  | case3 => simp

theorem not_marked_of_not_mem {text : List Char} (h : '<' ∉ text) : ¬ MarkedAsSwap text :=
  fun hm => h (hm.subset (by simp))

theorem marked_of_swap {text : List Char} {i j : RowName} (h : Swap text i j) :
    MarkedAsSwap text := by
  obtain @⟨a, u, v, b, _, _, ha, hu, hv, hb⟩ := h
  exact ⟨a ++ u, v ++ b, by simp only [List.append_assoc, List.cons_append, List.nil_append]⟩

theorem foreign_lt : Foreign '<' := ⟨by decide, by decide, by decide⟩

theorem not_marked_of_scaling {c : Char} (hc : c ≠ '<') {text : List Char} {i j : RowName}
    {n : WrittenNumber} (h : Scaling c text i j n) : ¬ MarkedAsSwap text :=
  not_marked_of_not_mem (h.not_mem foreign_lt hc.symm)

theorem not_marked_of_combination {text : List Char} {i j k : RowName} {joiner : Joiner}
    {n : Option WrittenNumber} (h : Combination text i j joiner n k) : ¬ MarkedAsSwap text :=
  not_marked_of_not_mem (h.not_mem foreign_lt)

/-- What stands for an operation has no other characters than those of the grammar. -/
theorem Derives.not_mem {text : List Char} {op : Operation} (h : Derives text op) {c : Char}
    (hc : Foreign c) (hs : c ∉ ['<', '>', '*', '/']) : c ∉ text := by
  simp only [List.mem_cons, List.not_mem_nil, or_false, not_or] at hs
  obtain ⟨hlt, hgt, htimes, hover⟩ := hs
  cases h with
  | swap hf => exact hf.not_mem hc (by simp [hlt, hgt])
  | scale hf _ => exact hf.not_mem hc htimes
  | divide hf _ _ => exact hf.not_mem hc hover
  | combine hf _ => exact hf.not_mem hc
  | combineOne hf => exact hf.not_mem hc

theorem Scaling.assignment? {c : Char} (hc : isBlank c = false) {text : List Char} {i j : RowName}
    {n : WrittenNumber} (h : Scaling c text i j n) :
    ∃ rest, Operation.assignment? text = some (i, j, c :: rest) := by
  obtain ⟨_, hhead, hu⟩ := h
  exact ⟨_, assignment?_append hhead (skipBlanks_cons hc _)⟩

theorem Combination.assignment? {text : List Char} {i j k : RowName} {joiner : Joiner}
    {n : Option WrittenNumber} (h : Combination text i j joiner n k) :
    ∃ rest, Operation.assignment? text = some (i, j, sign joiner :: rest) := by
  obtain ⟨_, _, hhead, hu, hb⟩ := h
  exact ⟨_, assignment?_append hhead (skipBlanks_cons (isBlank_sign joiner) _)⟩

/-- The sign after an assignment is determined, so no text has two forms that differ in it. -/
theorem sign_unique {text rest tail : List Char} {c d : Char} {i j k l : RowName}
    (h : Operation.assignment? text = some (i, j, c :: rest))
    (h' : Operation.assignment? text = some (k, l, d :: tail)) : c = d := by
  rw [h] at h'
  cases h'
  rfl

/-! ## What each reader makes of a text -/

theorem numberValue_chars (text : String) (n : WrittenNumber) :
    numberValue text n.chars =
      if n.value.isFinite then .ok n.value else .error (.unrecognized text) := by
  rw [numberValue, n.parse?_chars]
  cases n.value.isFinite <;> rfl

theorem sameRow_self (i : RowName) : sameRow i i = .ok i := by simp [sameRow]

theorem sameRow_of_ne {i j : RowName} (h : i ≠ j) :
    sameRow i j = .error (.scaleRowMismatch i.number j.number) := by simp [sameRow, h]

theorem readSwap_of_swap {text : String} {i j : RowName} (h : Swap text.toList i j) :
    readSwap text = some (.ok (.swap i j)) := by
  rw [readSwap, if_pos ((hasSwapSign_iff _).mpr (marked_of_swap h)),
    swapForm?_eq_some_iff.mpr h]

theorem readSwap_of_no_swap {text : String} (hm : MarkedAsSwap text.toList)
    (h : ∀ i j, ¬ Swap text.toList i j) : readSwap text = some (.error (.malformedSwap text)) := by
  have hform : swapForm? text.toList = none := by
    cases hf : swapForm? text.toList with
    | none => rfl
    | some rows => exact absurd (swapForm?_eq_some_iff.mp hf) (h rows.1 rows.2)
  rw [readSwap, if_pos ((hasSwapSign_iff _).mpr hm), hform]

theorem readSwap_of_not_marked {text : String} (h : ¬ MarkedAsSwap text.toList) :
    readSwap text = none := by
  rw [readSwap, if_neg (fun hm => h ((hasSwapSign_iff _).mp hm))]

theorem readScale_of_scaling {text : String} {i j : RowName} {n : WrittenNumber}
    (h : Scaling '*' text.toList i j n) :
    readScale text = some (do
      let row ← sameRow i j
      let factor ← numberValue text n.chars
      return .scale row factor) := by
  rw [readScale, (scaleForm?_eq_some_iff (by decide)).mpr ⟨n, rfl, h⟩]
  rfl

theorem readDivide_of_scaling {text : String} {i j : RowName} {n : WrittenNumber}
    (h : Scaling '/' text.toList i j n) :
    readDivide text = some (do
      let row ← sameRow i j
      let divisor ← numberValue text n.chars
      if divisor.isZero then .error (.divisionByZero text) else return .divide row divisor) := by
  rw [readDivide, (scaleForm?_eq_some_iff (by decide)).mpr ⟨n, rfl, h⟩]
  rfl

theorem readCombine_of_combination {text : String} {i j k : RowName} {joiner : Joiner}
    {n : Option WrittenNumber} (h : Combination text.toList i j joiner n k) :
    readCombine text = some (do
      let factor ← match n with
        | some written => numberValue text written.chars
        | none => pure .one
      return .combine i j joiner factor k) := by
  rw [readCombine, combineForm?_eq_some_iff.mpr ⟨n, rfl, h⟩]
  cases n <;> rfl

theorem scaleForm?_eq_none {c : Char} (hc : isBlank c = false) {text : List Char}
    (h : ∀ i j n, ¬ Scaling c text i j n) : scaleForm? c text = none := by
  cases hf : scaleForm? c text with
  | none => rfl
  | some parts =>
    obtain ⟨i, j, number⟩ := parts
    obtain ⟨n, _, hs⟩ := (scaleForm?_eq_some_iff hc).mp hf
    exact absurd hs (h i j n)

theorem readScale_eq_none {text : String} (h : ∀ i j n, ¬ Scaling '*' text.toList i j n) :
    readScale text = none := by
  rw [readScale, scaleForm?_eq_none (by decide) h]
  rfl

theorem readDivide_eq_none {text : String} (h : ∀ i j n, ¬ Scaling '/' text.toList i j n) :
    readDivide text = none := by
  rw [readDivide, scaleForm?_eq_none (by decide) h]
  rfl

theorem readCombine_eq_none {text : String}
    (h : ∀ i j joiner n k, ¬ Combination text.toList i j joiner n k) : readCombine text = none := by
  rw [readCombine]
  cases hf : combineForm? text.toList with
  | none => rfl
  | some form =>
    obtain ⟨i, j, joiner, number, k⟩ := form
    obtain ⟨n, _, hc⟩ := combineForm?_eq_some_iff.mp hf
    exact absurd hc (h i j joiner n k)

/-! ## What the readers make of a text together -/

section
variable {s : String}

theorem parse_of_readSwap {r : Except Fault Operation} (h : readSwap (trimmed s) = some r) :
    parse s = r := by
  simp [parse, firstReading, readers, h]

theorem parse_of_scaling {i j : RowName} {n : WrittenNumber}
    (h : Scaling '*' (trimmed s).toList i j n) :
    parse s = do
      let row ← sameRow i j
      let factor ← numberValue (trimmed s) n.chars
      return .scale row factor := by
  simp [parse, firstReading, readers, readSwap_of_not_marked (not_marked_of_scaling (by decide) h),
    readScale_of_scaling h]

theorem parse_of_dividing {i j : RowName} {n : WrittenNumber}
    (h : Scaling '/' (trimmed s).toList i j n) :
    parse s = do
      let row ← sameRow i j
      let divisor ← numberValue (trimmed s) n.chars
      if divisor.isZero then .error (.divisionByZero (trimmed s))
      else return .divide row divisor := by
  have hscale : readScale (trimmed s) = none := readScale_eq_none fun k l m hm => by
    obtain ⟨rest, hr⟩ := hm.assignment? (by decide)
    obtain ⟨tail, ht⟩ := h.assignment? (by decide)
    exact absurd (sign_unique hr ht) (by decide)
  simp [parse, firstReading, readers, readSwap_of_not_marked (not_marked_of_scaling (by decide) h),
    hscale, readDivide_of_scaling h]

theorem parse_of_combination {i j k : RowName} {joiner : Joiner} {n : Option WrittenNumber}
    (h : Combination (trimmed s).toList i j joiner n k) :
    parse s = do
      let factor ← match n with
        | some written => numberValue (trimmed s) written.chars
        | none => pure .one
      return .combine i j joiner factor k := by
  obtain ⟨tail, ht⟩ := h.assignment?
  have hscale : readScale (trimmed s) = none := readScale_eq_none fun _ _ _ hm => by
    obtain ⟨rest, hr⟩ := hm.assignment? (by decide)
    exact absurd (sign_unique hr ht) (by cases joiner <;> decide)
  have hdivide : readDivide (trimmed s) = none := readDivide_eq_none fun _ _ _ hm => by
    obtain ⟨rest, hr⟩ := hm.assignment? (by decide)
    exact absurd (sign_unique hr ht) (by cases joiner <;> decide)
  simp [parse, firstReading, readers, readSwap_of_not_marked (not_marked_of_combination h), hscale,
    hdivide, readCombine_of_combination h]

theorem parse_of_no_form (hm : ¬ MarkedAsSwap (trimmed s).toList)
    (hscale : ∀ i j n, ¬ Scaling '*' (trimmed s).toList i j n)
    (hdivide : ∀ i j n, ¬ Scaling '/' (trimmed s).toList i j n)
    (hcombine : ∀ i j joiner n k, ¬ Combination (trimmed s).toList i j joiner n k) :
    parse s = .error (.unrecognized (trimmed s)) := by
  simp [parse, firstReading, readers, readSwap_of_not_marked hm, readScale_eq_none hscale,
    readDivide_eq_none hdivide, readCombine_eq_none hcombine]

/-- A derived operation is what the text is read as. -/
theorem parse_of_derives {op : Operation} (h : Derives (trimmed s).toList op) :
    parse s = .ok op := by
  cases h with
  | swap hf => exact parse_of_readSwap (readSwap_of_swap hf)
  | scale hf hfin =>
    rw [parse_of_scaling hf, sameRow_self, numberValue_chars, if_pos hfin, ok_bind, ok_bind]
    rfl
  | divide hf hfin hz =>
    rw [parse_of_dividing hf, sameRow_self, numberValue_chars, if_pos hfin, ok_bind, ok_bind,
      if_neg (by simp [hz])]
    rfl
  | combine hf hfin =>
    rw [parse_of_combination hf]
    simp only [numberValue_chars, if_pos hfin, ok_bind]
    rfl
  | combineOne hf =>
    rw [parse_of_combination hf]
    simp only [pure_bind]
    rfl

theorem parse_of_mismatched {i j : RowName} (h : Mismatched (trimmed s).toList i j) :
    parse s = .error (.scaleRowMismatch i.number j.number) := by
  obtain ⟨hne, n, hf | hf⟩ := h
  · rw [parse_of_scaling hf, sameRow_of_ne hne]
    rfl
  · rw [parse_of_dividing hf, sameRow_of_ne hne]
    rfl

theorem eq_of_not_mismatched {text : List Char} {i j : RowName} {n : WrittenNumber}
    (h : ∀ i j, ¬ Mismatched text i j) (hf : Scaling '*' text i j n ∨ Scaling '/' text i j n) :
    i = j := by
  by_contra hne
  exact h i j ⟨hne, n, hf⟩

theorem parse_of_overflows (hm : ∀ i j, ¬ Mismatched (trimmed s).toList i j)
    (h : Overflows (trimmed s).toList) : parse s = .error (.unrecognized (trimmed s)) := by
  obtain ⟨n, hw, hinf⟩ := h
  have hvalue : numberValue (trimmed s) n.chars = .error (.unrecognized (trimmed s)) := by
    rw [numberValue_chars, hinf]
    rfl
  rcases hw with ⟨i, j, hf⟩ | ⟨i, j, joiner, k, hf⟩
  · obtain rfl := eq_of_not_mismatched hm hf
    rcases hf with hf | hf
    · rw [parse_of_scaling hf, sameRow_self, hvalue]
      rfl
    · rw [parse_of_dividing hf, sameRow_self, hvalue]
      rfl
  · rw [parse_of_combination hf]
    simp only [hvalue]
    rfl

theorem isFinite_of_not_overflows {text : List Char} {n : WrittenNumber} (h : ¬ Overflows text)
    (hw : Writes text n) : n.value.isFinite = true := by
  cases hv : n.value.isFinite with
  | true => rfl
  | false => exact absurd ⟨n, hw, hv⟩ h

/-- A text without an operation is refused as the questions say. -/
theorem parse_of_refused {fault : Fault} (hd : ∀ op, ¬ Derives (trimmed s).toList op)
    (h : Refused (trimmed s) fault) : parse s = .error fault := by
  cases h with
  | malformedSwap hmark =>
    exact parse_of_readSwap (readSwap_of_no_swap hmark fun i j hf => hd _ (.swap hf))
  | scaleRowMismatch _ hmis => exact parse_of_mismatched hmis
  | overflow _ hmis hover => exact parse_of_overflows hmis hover
  | divisionByZero _ hmis hover hzero =>
    obtain ⟨i, j, n, hf, hz⟩ := hzero
    obtain rfl := eq_of_not_mismatched hmis (Or.inr hf)
    have hfin := isFinite_of_not_overflows hover (Or.inl ⟨_, _, Or.inr hf⟩)
    rw [parse_of_dividing hf, sameRow_self, numberValue_chars, if_pos hfin, ok_bind, ok_bind,
      if_pos hz]
  | unrecognized hmark hmis hover hzero =>
    apply parse_of_no_form hmark
    · intro i j n hf
      obtain rfl := eq_of_not_mismatched hmis (Or.inl hf)
      exact hd _ (.scale hf (isFinite_of_not_overflows hover (Or.inl ⟨_, _, Or.inl hf⟩)))
    · intro i j n hf
      obtain rfl := eq_of_not_mismatched hmis (Or.inr hf)
      have hz : n.value.isZero = false := by
        cases hv : n.value.isZero with
        | false => rfl
        | true => exact absurd ⟨_, _, n, hf, hv⟩ hzero
      exact hd _ (.divide hf (isFinite_of_not_overflows hover (Or.inl ⟨_, _, Or.inr hf⟩)) hz)
    · intro i j joiner n k hf
      cases n with
      | none => exact hd _ (.combineOne hf)
      | some written =>
        have hfin := isFinite_of_not_overflows hover (Or.inr ⟨i, j, joiner, k, hf⟩)
        exact hd _ (.combine hf hfin)

theorem exists_refused (text : String) : ∃ fault, Refused text fault := by
  by_cases hmark : MarkedAsSwap text.toList
  · exact ⟨_, .malformedSwap hmark⟩
  by_cases hmis : ∃ i j, Mismatched text.toList i j
  · obtain ⟨i, j, h⟩ := hmis
    exact ⟨_, .scaleRowMismatch hmark h⟩
  have hmis' : ∀ i j, ¬ Mismatched text.toList i j := fun i j h => hmis ⟨i, j, h⟩
  by_cases hover : Overflows text.toList
  · exact ⟨_, .overflow hmark hmis' hover⟩
  by_cases hzero : DividesByZero text.toList
  · exact ⟨_, .divisionByZero hmark hmis' hover hzero⟩
  · exact ⟨_, .unrecognized hmark hmis' hover hzero⟩

theorem derives_of_parse {op : Operation} (h : parse s = .ok op) :
    Derives (trimmed s).toList op := by
  by_cases hd : ∃ other, Derives (trimmed s).toList other
  · obtain ⟨other, ho⟩ := hd
    rw [parse_of_derives ho] at h
    cases h
    exact ho
  · obtain ⟨fault, hf⟩ := exists_refused (trimmed s)
    rw [parse_of_refused (fun other ho => hd ⟨other, ho⟩) hf] at h
    cases h

theorem refused_of_parse {fault : Fault} (h : parse s = .error fault) :
    Refused (trimmed s) fault := by
  obtain ⟨other, hr⟩ := exists_refused (trimmed s)
  have hd : ∀ op, ¬ Derives (trimmed s).toList op := by
    intro op ho
    rw [parse_of_derives ho] at h
    cases h
  rw [parse_of_refused hd hr] at h
  cases h
  exact hr

/-- **Reading accepts exactly the grammar and classifies every other text.** -/
theorem parse_classifies (s : String) :
    (∀ op, parse s = .ok op ↔ Derives (trimmed s).toList op) ∧
    ∀ fault, parse s = .error fault ↔
      (∀ op, ¬ Derives (trimmed s).toList op) ∧ Refused (trimmed s) fault := by
  refine ⟨fun op => ⟨derives_of_parse, parse_of_derives⟩, fun fault => ⟨?_, ?_⟩⟩
  · intro h
    have hd : ∀ op, ¬ Derives (trimmed s).toList op := by
      intro op ho
      rw [parse_of_derives ho] at h
      cases h
    obtain ⟨other, hr⟩ := exists_refused (trimmed s)
    have he := parse_of_refused hd hr
    rw [h] at he
    cases he
    exact ⟨hd, hr⟩
  · rintro ⟨hd, hr⟩
    exact parse_of_refused hd hr

end

end Echelon.Grammar
