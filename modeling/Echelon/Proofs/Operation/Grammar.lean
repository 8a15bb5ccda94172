import Echelon.Proofs.Number.Written
import Echelon.Proofs.Text.Words

/-!
# The grammar of row operations

The four written forms as relations between a text and its parts, said without the readers. Each
reader of a form accepts exactly the texts of that form and finds its parts.
-/

namespace Echelon.Grammar

open Text Literal Operation

/-- The name of a row, `R` and one digit. -/
inductive Row : List Char → RowName → Prop where
  | digit {d : Char} : d.isDigit = true → Row ['R', d] ⟨d.toNat - '0'.toNat⟩

/-- Two rows with `<>` between them. -/
inductive Swap : List Char → RowName → RowName → Prop where
  | mk {a u v b : List Char} {i j : RowName} :
      Row a i → Blanks u → Blanks v → Row b j → Swap (a ++ (u ++ '<' :: '>' :: (v ++ b))) i j

/-- The row assigned to, the row read first, and the blanks after it. -/
inductive Assignment : List Char → RowName → RowName → Prop where
  | mk {a u v b w : List Char} {i j : RowName} :
      Row a i → Blanks u → Blanks v → Row b j → Blanks w →
      Assignment (a ++ (u ++ '=' :: (v ++ (b ++ w)))) i j

/-- An assignment of a row, a sign and a number. -/
inductive Scaling (sign : Char) : List Char → RowName → RowName → WrittenNumber → Prop where
  | mk {head u : List Char} {i j : RowName} (n : WrittenNumber) :
      Assignment head i j → Blanks u → Scaling sign (head ++ sign :: (u ++ n.chars)) i j n

/-- The sign of a joiner. -/
def sign : Joiner → Char
  | .plus => '+'
  | .minus => '-'

/-- The number in front of the last row, which may be missing. -/
def coefficient : Option WrittenNumber → List Char
  | some n => n.chars
  | none => []

/-- An assignment of two rows with a sign between them, the second with an optional number. -/
inductive Combination :
    List Char → RowName → RowName → Joiner → Option WrittenNumber → RowName → Prop where
  | mk {head u b : List Char} {i j k : RowName} (joiner : Joiner) (n : Option WrittenNumber) :
      Assignment head i j → Blanks u → Row b k →
      Combination (head ++ sign joiner :: (u ++ (coefficient n ++ b))) i j joiner n k

/-! ## Single parts -/

theorem row?_append {a : List Char} {i : RowName} (h : Row a i) (rest : List Char) :
    row? (a ++ rest) = some (i, rest) := by
  obtain ⟨hd⟩ := h
  simp [row?, hd, Nat.ofDigitChars_cons]

theorem exists_of_row? {text rest : List Char} {i : RowName} (h : row? text = some (i, rest)) :
    ∃ a, Row a i ∧ text = a ++ rest := by
  unfold row? at h
  split at h
  · rename_i d tail
    split at h
    · rename_i hd
      cases h
      refine ⟨['R', d], ?_, rfl⟩
      rw [Nat.ofDigitChars_cons, Nat.ofDigitChars_nil, Nat.mul_zero, Nat.zero_add]
      exact Row.digit hd
    · cases h
  · cases h

theorem symbol?_cons (c : Char) (rest : List Char) : symbol? c (c :: rest) = some rest := by
  simp [symbol?]

theorem symbol?_of_ne {c d : Char} (h : d ≠ c) (rest : List Char) :
    symbol? c (d :: rest) = none := by
  simp [symbol?, h]

theorem eq_cons_of_symbol? {c : Char} {text rest : List Char} (h : symbol? c text = some rest) :
    text = c :: rest := by
  cases text with
  | nil => cases h
  | cons d tail =>
    by_cases hd : d = c
    · subst hd
      rw [symbol?_cons] at h
      rw [Option.some.inj h]
    · rw [symbol?_of_ne hd] at h
      cases h

theorem eq_nil_of_done? {text : List Char} (h : done? text = some ()) : text = [] := by
  cases text with
  | nil => rfl
  | cons c rest => cases h

theorem isBlank_sign (joiner : Joiner) : isBlank (sign joiner) = false := by
  cases joiner <;> rfl

theorem joiner?_sign (joiner : Joiner) (rest : List Char) :
    joiner? (sign joiner :: rest) = some (joiner, rest) := by
  cases joiner <;> rfl

theorem eq_cons_of_joiner? {text rest : List Char} {joiner : Joiner}
    (h : joiner? text = some (joiner, rest)) : text = sign joiner :: rest := by
  unfold joiner? at h
  split at h
  · cases h
    rfl
  · cases h
    rfl
  · cases h

theorem skipBlanks_row {b : List Char} {j : RowName} (h : Row b j) (rest : List Char) :
    skipBlanks (b ++ rest) = b ++ rest := by
  obtain ⟨hd⟩ := h
  exact skipBlanks_cons (by decide) _

theorem isBlank_of_isDigit {c : Char} (h : c.isDigit = true) : isBlank c = false := by
  simp only [Char.isDigit, Bool.and_eq_true, decide_eq_true_eq, ge_iff_le,
    UInt32.le_iff_toNat_le] at h
  obtain ⟨hlow, hhigh⟩ := h
  change 48 ≤ c.toNat at hlow
  change c.toNat ≤ 57 at hhigh
  simp only [isBlank, covers, blankRanges, List.any_cons, List.any_nil, Bool.or_false,
    Bool.or_eq_false_iff, Bool.and_eq_false_iff, decide_eq_false_iff_not]
  omega

theorem skipBlanks_number (n : WrittenNumber) (rest : List Char) :
    skipBlanks (n.chars ++ rest) = n.chars ++ rest := by
  obtain ⟨c, tail, hn, hc⟩ := n.chars_eq_cons
  have hb : isBlank c = false := by
    rcases hc with rfl | hd
    · decide
    · exact isBlank_of_isDigit hd
  rw [hn, List.cons_append]
  exact skipBlanks_cons hb _

theorem Row.word {a : List Char} {i : RowName} (h : Row a i) : Word a := by
  obtain ⟨hd⟩ := h
  exact ⟨List.cons_ne_nil _ _, by simp [isBlank_of_isDigit hd]; decide⟩

theorem word_number (n : WrittenNumber) : Word n.chars := by
  obtain ⟨c, tail, hn, _⟩ := n.chars_eq_cons
  refine ⟨by simp [hn], fun d hd => ?_⟩
  rcases WrittenNumber.mem_chars hd with rfl | rfl | hdigit
  · decide
  · decide
  · exact isBlank_of_isDigit hdigit

/-! ## Whole forms -/

theorem swapForm?_eq_some_iff {text : List Char} {i j : RowName} :
    swapForm? text = some (i, j) ↔ Swap text i j := by
  constructor
  · intro h
    simp only [swapForm?, Option.bind_eq_bind, Option.bind_eq_some_iff] at h
    obtain ⟨⟨first, r⟩, hi, s, hlt, t, hgt, ⟨second, last⟩, hj, _, hdone, he⟩ := h
    cases he
    obtain ⟨a, ha, rfl⟩ := exists_of_row? hi
    obtain ⟨u, hu, hr⟩ := exists_blanks_append_skipBlanks r
    obtain ⟨v, hv, ht⟩ := exists_blanks_append_skipBlanks t
    obtain ⟨b, hb, hlast⟩ := exists_of_row? hj
    have hend : last = [] := eq_nil_of_done? hdone
    rw [hend, List.append_nil] at hlast
    rw [hr, eq_cons_of_symbol? hlt, eq_cons_of_symbol? hgt, ht, hlast]
    exact .mk ha hu hv hb
  · rintro ⟨ha, hu, hv, hb⟩
    have hlast := row?_append hb []
    have hskip := skipBlanks_row hb []
    rw [List.append_nil] at hlast hskip
    simp only [swapForm?, Option.bind_eq_bind, row?_append ha, Option.bind_some,
      skipBlanks_append hu, skipBlanks_cons (c := '<') (by decide), symbol?_cons,
      skipBlanks_append hv, hskip, hlast]
    rfl

theorem assignment?_append {head rest : List Char} {i j : RowName} (h : Assignment head i j)
    (hr : skipBlanks rest = rest) : assignment? (head ++ rest) = some (i, j, rest) := by
  obtain ⟨ha, hu, hv, hb, hw⟩ := h
  simp only [List.append_assoc, List.cons_append, assignment?, Option.bind_eq_bind,
    row?_append ha, Option.bind_some, skipBlanks_append hu, skipBlanks_cons (c := '=') (by decide),
    symbol?_cons, skipBlanks_append hv, skipBlanks_row hb, row?_append hb, skipBlanks_append hw, hr]
  rfl

theorem exists_of_assignment? {text rest : List Char} {i j : RowName}
    (h : assignment? text = some (i, j, rest)) :
    ∃ head, Assignment head i j ∧ text = head ++ rest := by
  simp only [assignment?, Option.bind_eq_bind, Option.bind_eq_some_iff] at h
  obtain ⟨⟨target, r⟩, hi, s, heq, ⟨source, last⟩, hj, he⟩ := h
  cases he
  obtain ⟨a, ha, rfl⟩ := exists_of_row? hi
  obtain ⟨u, hu, hr⟩ := exists_blanks_append_skipBlanks r
  obtain ⟨v, hv, hs⟩ := exists_blanks_append_skipBlanks s
  obtain ⟨b, hb, hlast⟩ := exists_of_row? hj
  obtain ⟨w, hw, hrest⟩ := exists_blanks_append_skipBlanks last
  refine ⟨a ++ (u ++ '=' :: (v ++ (b ++ w))), .mk ha hu hv hb hw, ?_⟩
  rw [hr, eq_cons_of_symbol? heq, hs, hlast]
  conv_lhs => rw [hrest]
  simp only [List.append_assoc, List.cons_append]

theorem scaleForm?_eq_some_iff {c : Char} (hc : isBlank c = false) {text number : List Char}
    {i j : RowName} :
    scaleForm? c text = some (i, j, number) ↔ ∃ n, number = n.chars ∧ Scaling c text i j n := by
  constructor
  · intro h
    simp only [scaleForm?, Option.bind_eq_bind, Option.bind_eq_some_iff] at h
    obtain ⟨⟨target, source, r⟩, hij, s, hsign, ⟨read, last⟩, hn, _, hdone, he⟩ := h
    cases he
    obtain ⟨head, hhead, rfl⟩ := exists_of_assignment? hij
    obtain ⟨u, hu, hs⟩ := exists_blanks_append_skipBlanks s
    obtain ⟨n, rfl, hlast⟩ := WrittenNumber.exists_of_number? hn
    have hend : last = [] := eq_nil_of_done? hdone
    have hr : r = c :: s := eq_cons_of_symbol? hsign
    rw [hend, List.append_nil] at hlast
    rw [hr, hs, hlast]
    exact ⟨n, rfl, .mk n hhead hu⟩
  · rintro ⟨n, rfl, ⟨_, hhead, hu⟩⟩
    have hlast := n.number?_chars WrittenNumber.ends_nil
    have hskip := skipBlanks_number n []
    rw [List.append_nil] at hlast hskip
    simp only [scaleForm?, Option.bind_eq_bind, assignment?_append hhead (skipBlanks_cons hc _),
      Option.bind_some, symbol?_cons, skipBlanks_append hu, hskip, hlast]
    rfl

theorem number?_coefficient {b : List Char} {k : RowName} (n : Option WrittenNumber)
    (hb : Row b k) :
    number? (coefficient n ++ b) = n.map fun written => (written.chars, b) := by
  obtain ⟨hd⟩ := hb
  cases n with
  | none => rfl
  | some written =>
    exact written.number?_chars (WrittenNumber.ends_cons (by decide) (by decide) _)

theorem skipBlanks_coefficient {b : List Char} {k : RowName} (n : Option WrittenNumber)
    (hb : Row b k) : skipBlanks (coefficient n ++ b) = coefficient n ++ b := by
  cases n with
  | none => simpa [coefficient] using skipBlanks_row hb []
  | some written => exact skipBlanks_number written b

theorem combineForm?_eq_some_iff {text : List Char} {i j k : RowName} {joiner : Joiner}
    {number : Option (List Char)} :
    combineForm? text = some ⟨i, j, joiner, number, k⟩ ↔
      ∃ n : Option WrittenNumber, number = n.map WrittenNumber.chars ∧
        Combination text i j joiner n k := by
  constructor
  · intro h
    simp only [combineForm?, Option.bind_eq_bind, Option.bind_eq_some_iff] at h
    obtain ⟨⟨target, left, r⟩, hij, ⟨found, s⟩, hsign, ⟨right, last⟩, hk, _, hdone, he⟩ := h
    obtain ⟨head, hhead, rfl⟩ := exists_of_assignment? hij
    obtain ⟨u, hu, hs⟩ := exists_blanks_append_skipBlanks s
    have hr : r = sign found :: s := eq_cons_of_joiner? hsign
    have hend : last = [] := eq_nil_of_done? hdone
    subst hr hend
    cases hn : number? (skipBlanks s) with
    | none =>
      simp only [hn] at hk he
      cases he
      obtain ⟨b, hb, hlast⟩ := exists_of_row? hk
      refine ⟨none, rfl, ?_⟩
      rw [hs, hlast, List.append_nil]
      exact .mk joiner none hhead hu hb
    | some read =>
      obtain ⟨chars, after⟩ := read
      simp only [hn] at hk he
      cases he
      obtain ⟨n, rfl, hread⟩ := WrittenNumber.exists_of_number? hn
      obtain ⟨b, hb, hlast⟩ := exists_of_row? hk
      refine ⟨some n, rfl, ?_⟩
      rw [hs, hread, hlast, List.append_nil]
      exact .mk joiner (some n) hhead hu hb
  · rintro ⟨n, rfl, ⟨_, _, hhead, hu, hb⟩⟩
    have hlast := row?_append hb []
    rw [List.append_nil] at hlast
    simp only [combineForm?, Option.bind_eq_bind,
      assignment?_append hhead (skipBlanks_cons (isBlank_sign joiner) _), Option.bind_some,
      joiner?_sign, skipBlanks_append hu, skipBlanks_coefficient n hb, number?_coefficient n hb]
    cases n with
    | none =>
      simp only [coefficient, List.nil_append, Option.map_none, hlast]
      rfl
    | some written =>
      simp only [Option.map_some, hlast]
      rfl

/-! ## Characters of a form -/

/-- A character that is in no part of a form but, maybe, in its sign. -/
structure Foreign (c : Char) : Prop where
  not_blank : isBlank c = false
  not_digit : c.isDigit = false
  not_mark : c ∉ ['R', '=', '+', '-', '.']

section

variable {c : Char}

theorem Row.not_mem {a : List Char} {i : RowName} (h : Row a i) (hc : Foreign c) : c ∉ a := by
  obtain ⟨hd⟩ := h
  intro hm
  simp only [List.mem_cons, List.not_mem_nil, or_false] at hm
  rcases hm with rfl | rfl
  · exact hc.not_mark (by decide)
  · rw [hc.not_digit] at hd
    cases hd

theorem Foreign.not_mem_number (hc : Foreign c) (n : WrittenNumber) : c ∉ n.chars := by
  have hmark := hc.not_mark
  simp only [List.mem_cons, List.not_mem_nil, or_false, not_or] at hmark
  obtain ⟨_, _, _, hminus, hpoint⟩ := hmark
  exact n.not_mem_chars hc.not_digit hminus hpoint

theorem Assignment.not_mem {head : List Char} {i j : RowName} (h : Assignment head i j)
    (hc : Foreign c) : c ∉ head := by
  obtain ⟨ha, hu, hv, hb, hw⟩ := h
  have hequals : c ≠ '=' := by
    rintro rfl
    exact hc.not_mark (by decide)
  simp [ha.not_mem hc, hu.not_mem hc.not_blank, hv.not_mem hc.not_blank, hb.not_mem hc,
    hw.not_mem hc.not_blank, hequals]

theorem Swap.not_mem {text : List Char} {i j : RowName} (h : Swap text i j) (hc : Foreign c)
    (hs : c ∉ ['<', '>']) : c ∉ text := by
  obtain ⟨ha, hu, hv, hb⟩ := h
  simp only [List.mem_cons, List.not_mem_nil, or_false, not_or] at hs
  simp [ha.not_mem hc, hu.not_mem hc.not_blank, hv.not_mem hc.not_blank, hb.not_mem hc, hs]

theorem Scaling.not_mem {s : Char} {text : List Char} {i j : RowName} {n : WrittenNumber}
    (h : Scaling s text i j n) (hc : Foreign c) (hs : c ≠ s) : c ∉ text := by
  obtain ⟨_, hhead, hu⟩ := h
  simp [hhead.not_mem hc, hu.not_mem hc.not_blank, hc.not_mem_number, hs]

theorem Combination.not_mem {text : List Char} {i j k : RowName} {joiner : Joiner}
    {n : Option WrittenNumber} (h : Combination text i j joiner n k) (hc : Foreign c) :
    c ∉ text := by
  obtain ⟨_, _, hhead, hu, hb⟩ := h
  have hsign : c ≠ sign joiner := by
    rintro rfl
    exact hc.not_mark (by cases joiner <;> decide)
  have hn : c ∉ coefficient n := by
    cases n with
    | none => simp [coefficient]
    | some written => exact hc.not_mem_number written
  simp [hhead.not_mem hc, hu.not_mem hc.not_blank, hb.not_mem hc, hsign, hn]

end

end Echelon.Grammar
