import Echelon.Proofs.Number.ReadBack
import Echelon.Proofs.Operation.Readable

/-!
# The text of an operation reads back

The text of a readable operation is derived by the grammar: its parts are the rows, the sign and
what is shown for its number. So it is read as the operation itself, up to the sign of a zero, and
the text is a canonical form: operations with one text compare as equal.
-/

namespace Echelon

open Text

namespace Operation

/-- An operation as its text tells it: a zero has no sign. -/
def plain : Operation → Operation
  | swap first second => swap first second
  | scale row factor => scale row factor.plain
  | divide row divisor => divide row divisor.plain
  | combine target left joiner factor right => combine target left joiner factor.plain right

/-- Operations that compare as equal, their numbers as numbers do. -/
def SameValue : Operation → Operation → Prop
  | swap i j, swap k l => i = k ∧ j = l
  | scale i x, scale k y => i = k ∧ x.SameValue y
  | divide i x, divide k y => i = k ∧ x.SameValue y
  | combine i j joiner x k, combine i' j' joiner' y k' =>
    i = i' ∧ j = j' ∧ joiner = joiner' ∧ x.SameValue y ∧ k = k'
  | _, _ => False

/-- Comparing readable operations is comparing what their texts tell. -/
theorem sameValue_iff {a b : Operation} (ha : a.Readable) (hb : b.Readable) :
    a.SameValue b ↔ a.plain = b.plain := by
  cases a with
  | swap i j => cases b <;> simp [SameValue, plain]
  | scale i x =>
    cases b with
    | scale k y =>
      have hxy := Binary64.sameValue_iff (ha.scalar_finite x rfl) (hb.scalar_finite y rfl)
      simp [SameValue, plain, hxy]
    | _ => simp [SameValue, plain]
  | divide i x =>
    cases b with
    | divide k y =>
      have hxy := Binary64.sameValue_iff (ha.scalar_finite x rfl) (hb.scalar_finite y rfl)
      simp [SameValue, plain, hxy]
    | _ => simp [SameValue, plain]
  | combine i j joiner x k =>
    cases b with
    | combine i' j' joiner' y k' =>
      have hxy := Binary64.sameValue_iff (ha.scalar_finite x rfl) (hb.scalar_finite y rfl)
      simp [SameValue, plain, hxy]
    | _ => simp [SameValue, plain]

theorem plain_plain (op : Operation) : op.plain.plain = op.plain := by
  cases op <;> simp [plain, Binary64.plain_plain]

end Operation

/-! ## What is shown has no sign of a zero -/

namespace Binary64

theorem plain_one : Binary64.one.plain = Binary64.one := by decide +kernel

theorem plain_eq_one_iff (x : Binary64) : x.plain = .one ↔ x = .one := by
  have hzero : zero false ≠ .one := by decide +kernel
  have hone : Binary64.one.isZero = false := by decide +kernel
  unfold plain
  split
  · rename_i hz
    refine ⟨fun h => absurd h hzero, fun h => ?_⟩
    rw [h, hone] at hz
    cases hz
  · rfl

end Binary64

namespace Operation

theorem coefficientText_plain (factor : Binary64) :
    coefficientText factor.plain = coefficientText factor := by
  simp only [coefficientText, Binary64.plain_eq_one_iff, Binary64.text_plain]

theorem text_plain (op : Operation) : op.plain.text = op.text := by
  cases op with
  | swap i j => rfl
  | scale i x => simp only [plain, text, Binary64.text_plain]
  | divide i x => simp only [plain, text, Binary64.text_plain]
  | combine i j joiner x k => simp only [plain, text, coefficientText_plain]

end Operation

/-! ## The parts of a text -/

namespace Grammar

open Operation

theorem row_text {row : RowName} (h : row.number ≤ 9) : Row row.text.toList row := by
  have hlt : row.number < 10 := by omega
  have htext : row.text.toList = ['R', row.number.digitChar] := by
    rw [RowName.text, Nat.repr_eq_ofList_toDigits, Nat.toDigits_of_lt_base hlt]
    simp
  have hdigit : row.number.digitChar.isDigit = true := by simp [Nat.isDigit_digitChar, hlt]
  have hnumber : row.number.digitChar.toNat - '0'.toNat = row.number :=
    Nat.toNat_digitChar_sub_48_of_lt_ten hlt
  have hrow := Row.digit hdigit
  rw [hnumber] at hrow
  rwa [htext]

theorem blanks_space : Blanks [' '] := by
  intro c hc
  rw [List.mem_singleton.mp hc]
  decide

theorem assignment_text {i j : RowName} (hi : i.number ≤ 9) (hj : j.number ≤ 9) :
    Assignment (i.text ++ " = " ++ j.text ++ " ").toList i j := by
  have h := Assignment.mk (row_text hi) blanks_space blanks_space (row_text hj) blanks_space
  simpa using h

/-- A factor is written in front of a row with its value, and left out when it is one. -/
theorem exists_coefficient {factor : Binary64} (h : factor.isFinite = true) :
    (factor = .one ∧ (coefficientText factor).toList = coefficient none) ∨
      ∃ n, (coefficientText factor).toList = coefficient (some n) ∧ n.value = factor.plain := by
  unfold coefficientText
  split
  · rename_i hone
    exact Or.inl ⟨hone, rfl⟩
  · obtain ⟨n, hchars, hvalue⟩ := Binary64.exists_chars_value h
    refine Or.inr ⟨n, ?_, hvalue⟩
    rw [Binary64.text, String.toList_ofList, hchars]
    rfl

/-! ## Whole texts -/

theorem scaling_text (c : Char) {i : RowName} (hi : i.number ≤ 9) (n : WrittenNumber) :
    Scaling c (i.text.toList ++ (" = ".toList ++ (i.text.toList ++ (' ' :: c :: ' ' :: n.chars))))
      i i n := by
  have h : Scaling c _ i i n := .mk n (assignment_text hi hi) blanks_space
  simpa using h

theorem combination_text (joiner : Joiner) {i j k : RowName} (hi : i.number ≤ 9)
    (hj : j.number ≤ 9) (n : Option WrittenNumber) (hk : k.number ≤ 9) :
    Combination (i.text.toList ++ (" = ".toList ++ (j.text.toList ++ (' ' :: sign joiner :: ' ' ::
      (coefficient n ++ k.text.toList))))) i j joiner n k := by
  have h := Combination.mk joiner n (assignment_text hi hj) blanks_space (row_text hk)
  simpa using h

theorem joiner_text (joiner : Joiner) : joiner.text.toList = [sign joiner] := by
  cases joiner <;> rfl

/-- **The text of a readable operation is derived by the grammar.** -/
theorem derives_text {op : Operation} (h : op.Readable) : Derives op.text.toList op.plain := by
  cases op with
  | swap i j =>
    have hi : i.number ≤ 9 := h.rows_le i (by simp [rows])
    have hj : j.number ≤ 9 := h.rows_le j (by simp [rows])
    have hswap := Swap.mk (row_text hi) blanks_space blanks_space (row_text hj)
    simpa [Operation.text, Operation.plain] using Derives.swap hswap
  | scale i x =>
    have hi : i.number ≤ 9 := h.rows_le i (by simp [rows])
    have hx : x.isFinite = true := h.scalar_finite x rfl
    obtain ⟨n, hchars, hvalue⟩ := Binary64.exists_chars_value hx
    have hfinite : n.value.isFinite = true := by rw [hvalue, Binary64.isFinite_plain hx]
    have hderives := Derives.scale (scaling_text '*' hi n) hfinite
    simpa [Operation.text, Binary64.text, Operation.plain, hchars, hvalue] using hderives
  | divide i x =>
    have hi : i.number ≤ 9 := h.rows_le i (by simp [rows])
    have hx : x.isFinite = true := h.scalar_finite x rfl
    have hz : x.isZero = false := h.divisor_ne_zero i x rfl
    obtain ⟨n, hchars, hvalue⟩ := Binary64.exists_chars_value hx
    have hplain : x.plain = x := if_neg (by simp [hz])
    rw [hplain] at hvalue
    have hfinite : n.value.isFinite = true := by rw [hvalue, hx]
    have hdivisor : n.value.isZero = false := by rw [hvalue, hz]
    have hderives := Derives.divide (scaling_text '/' hi n) hfinite hdivisor
    simpa [Operation.text, Binary64.text, Operation.plain, hplain, hchars, hvalue] using hderives
  | combine i j joiner x k =>
    have hi : i.number ≤ 9 := h.rows_le i (by simp [rows])
    have hj : j.number ≤ 9 := h.rows_le j (by simp [rows])
    have hk : k.number ≤ 9 := h.rows_le k (by simp [rows])
    have hx : x.isFinite = true := h.scalar_finite x rfl
    rcases exists_coefficient hx with ⟨hone, hcoefficient⟩ | ⟨n, hcoefficient, hvalue⟩
    · have hplain : x.plain = x := by rw [hone, Binary64.plain_one]
      have hderives := Derives.combineOne (combination_text joiner hi hj none hk)
      rw [← hone] at hderives
      simpa [Operation.text, Operation.plain, joiner_text, hcoefficient, hplain] using hderives
    · have hfinite : n.value.isFinite = true := by rw [hvalue, Binary64.isFinite_plain hx]
      have hderives := Derives.combine (combination_text joiner hi hj (some n) hk) hfinite
      simpa [Operation.text, Operation.plain, joiner_text, hcoefficient, hvalue] using hderives

/-! ## No blanks at the ends -/

theorem Swap.trim {text : List Char} {i j : RowName} (h : Swap text i j) : trim text = text := by
  obtain @⟨a, u, v, b, _, _, ha, _, _, hb⟩ := h
  have htrim := trim_between ha.word (u ++ '<' :: '>' :: v) hb.word
  simpa using htrim

theorem Assignment.trim_append {head : List Char} {i j : RowName} (h : Assignment head i j)
    (between : List Char) {last : List Char} (hl : Word last) :
    Text.trim (head ++ (between ++ last)) = head ++ (between ++ last) := by
  obtain @⟨a, u, v, b, w, _, _, ha, _, _, _, _⟩ := h
  have htrim := trim_between ha.word (u ++ '=' :: (v ++ (b ++ (w ++ between)))) hl
  simpa using htrim

theorem Scaling.trim {c : Char} {text : List Char} {i j : RowName} {n : WrittenNumber}
    (h : Scaling c text i j n) : Text.trim text = text := by
  obtain @⟨_, u, _, _, _, hhead, _⟩ := h
  exact hhead.trim_append (c :: u) (word_number n)

theorem Combination.trim {text : List Char} {i j k : RowName} {joiner : Joiner}
    {n : Option WrittenNumber} (h : Combination text i j joiner n k) : Text.trim text = text := by
  obtain @⟨_, u, _, _, _, _, _, _, hhead, _, hb⟩ := h
  have htrim := hhead.trim_append (sign joiner :: (u ++ coefficient n)) hb.word
  simpa using htrim

theorem Derives.trim {text : List Char} {op : Operation} (h : Derives text op) :
    Text.trim text = text := by
  cases h with
  | swap hf => exact hf.trim
  | scale hf _ => exact hf.trim
  | divide hf _ _ => exact hf.trim
  | combine hf _ => exact hf.trim
  | combineOne hf => exact hf.trim

end Grammar

namespace Operation

theorem parse_text {op : Operation} (h : op.Readable) : parse op.text = .ok op.plain := by
  have hderives := Grammar.derives_text h
  refine Grammar.parse_of_derives ?_
  rwa [toList_trimmed, hderives.trim]

theorem Readable.plain {op : Operation} (h : op.Readable) : op.plain.Readable :=
  (Grammar.derives_text h).readable

theorem sameValue_plain {op : Operation} (h : op.Readable) : op.plain.SameValue op :=
  (sameValue_iff h.plain h).mpr op.plain_plain

/-- **Reading undoes writing.** The text of a readable operation stands for an operation that
compares as equal, the same one but for the sign of a zero, and is its text as well. So operations
with one text compare as equal. What a text stands for is readable. -/
theorem text_reads_back :
    (∀ op : Operation, op.Readable →
      parse op.text = .ok op.plain ∧ op.plain.SameValue op ∧ op.plain.text = op.text) ∧
    (∀ a b : Operation, a.Readable → b.Readable → a.text = b.text → a.SameValue b) ∧
    ∀ s op, parse s = .ok op → op.Readable := by
  refine ⟨fun op h => ⟨parse_text h, sameValue_plain h, op.text_plain⟩, fun a b ha hb h => ?_,
    fun s op => readable_of_parse⟩
  have hparse := parse_text ha
  rw [h, parse_text hb] at hparse
  exact (sameValue_iff ha hb).mpr (Except.ok.inj hparse).symm

/-- A negative coefficient after a minus, and a zero that loses its sign. -/
theorem text_reads_back_minus : ∃ a b : Operation, a.text = "R1 = R2 - -0.1R3" ∧
    b.text = "R4 = R4 * 0" ∧ parse a.text = .ok a ∧ parse b.text = .ok (.scale ⟨4⟩ (.zero false)) ∧
    Operation.SameValue (.scale ⟨4⟩ (.zero false)) b ∧ b = .scale ⟨4⟩ (.zero true) := by
  let tenth : Binary64 := .rounded true quantaPerUnit 10
  let a : Operation := .combine ⟨1⟩ ⟨2⟩ .minus tenth ⟨3⟩
  let b : Operation := .scale ⟨4⟩ (.zero true)
  have ha : a.Readable := ⟨by decide, by simp [a, scalar?]; decide +kernel, by simp [a]⟩
  have hb : b.Readable := ⟨by decide, by simp [b, scalar?]; rfl, by simp [b]⟩
  have hplain : a.plain = a := by decide +kernel
  obtain ⟨hreada, _⟩ := text_reads_back.1 a ha
  obtain ⟨hreadb, hsame, _⟩ := text_reads_back.1 b hb
  rw [hplain] at hreada
  exact ⟨a, b, by decide +kernel, by decide +kernel, hreada, hreadb, hsame, rfl⟩

end Operation

end Echelon
