import Echelon.Operation.Reader
import Echelon.Proofs.Number.Rounding
import Mathlib.Data.List.TakeWhile

/-!
# Written numbers

A number in an operation is an optional minus, digits, and optionally a point and more digits. Its
value is the decimal that the digits write, rounded once. Reading takes exactly the characters of
such a number and finds that value, however many digits there are.
-/

namespace Echelon

-- Powers of naturals are those of core.
attribute [local instance (high)] instPowNat

open Number

/-- The parts of a written number; without digits after the point there is no point. -/
structure WrittenNumber where
  negative : Bool
  whole : List Char
  fraction : List Char
  whole_ne : whole ≠ []
  whole_digits : ∀ c ∈ whole, c.isDigit = true
  fraction_digits : ∀ c ∈ fraction, c.isDigit = true

namespace WrittenNumber

/-- The sign of a written number. -/
def sign (w : WrittenNumber) : List Char := if w.negative then ['-'] else []

/-- The point and the digits after it, if there are any. -/
def decimals (w : WrittenNumber) : List Char :=
  if w.fraction.isEmpty then [] else '.' :: w.fraction

/-- The characters of a written number. -/
def chars (w : WrittenNumber) : List Char := w.sign ++ w.whole ++ w.decimals

/-- All digits of a written number, read as one whole number. -/
def digits (w : WrittenNumber) : Nat := Nat.ofDigitChars 10 (w.whole ++ w.fraction) 0

/-- The number nearest to what is written. -/
def value (w : WrittenNumber) : Binary64 :=
  .rounded w.negative (w.digits * quantaPerUnit) (10 ^ w.fraction.length)

end WrittenNumber

/-! ## Runs of digits -/

namespace Literal

/-- The text does not go on with a digit. -/
def NoDigit (text : List Char) : Prop := ∀ c rest, text = c :: rest → c.isDigit = false

theorem noDigit_nil : NoDigit [] := by
  intro c rest h
  cases h

theorem noDigit_cons {c : Char} (hc : c.isDigit = false) (rest : List Char) :
    NoDigit (c :: rest) := by
  intro d tail h
  obtain ⟨rfl, rfl⟩ := List.cons.inj h
  exact hc

theorem splitDigits_append {run rest : List Char} (hrun : ∀ c ∈ run, c.isDigit = true)
    (hrest : NoDigit rest) : splitDigits (run ++ rest) = (run, rest) := by
  have htail : rest.takeWhile Char.isDigit = [] ∧ rest.dropWhile Char.isDigit = rest := by
    cases rest with
    | nil => exact ⟨rfl, rfl⟩
    | cons c tail => simp [hrest c tail rfl]
  simp only [splitDigits, List.takeWhile_append_of_pos hrun, List.dropWhile_append_of_pos hrun,
    htail, List.append_nil]

theorem splitDigits_of_digits {run : List Char} (h : ∀ c ∈ run, c.isDigit = true) :
    splitDigits run = (run, []) := by
  simpa using splitDigits_append h noDigit_nil

/-- Splitting cuts a text in two, the first part being digits only. -/
theorem splitDigits_eq {text run rest : List Char} (h : splitDigits text = (run, rest)) :
    text = run ++ rest ∧ ∀ c ∈ run, c.isDigit = true := by
  obtain ⟨rfl, rfl⟩ := Prod.mk.inj h
  exact ⟨List.takeWhile_append_dropWhile.symm, fun c hc => List.mem_takeWhile_imp hc⟩

end Literal

/-! ## Reading the characters of a number -/

namespace WrittenNumber

open Literal Operation

/-- The text does not go on with more of a number. -/
def Ends (text : List Char) : Prop :=
  ∀ c rest, text = c :: rest → c.isDigit = false ∧ c ≠ '.'

theorem ends_nil : Ends [] := by
  intro c rest h
  cases h

theorem ends_cons {c : Char} (hd : c.isDigit = false) (hp : c ≠ '.') (rest : List Char) :
    Ends (c :: rest) := by
  intro d tail h
  obtain ⟨rfl, rfl⟩ := List.cons.inj h
  exact ⟨hd, hp⟩

theorem Ends.noDigit {text : List Char} (h : Ends text) : NoDigit text :=
  fun c rest he => (h c rest he).1

theorem splitFraction_of_ends {rest : List Char} (h : Ends rest) :
    splitFraction rest = ([], rest) := by
  unfold splitFraction
  split
  · exact absurd rfl (h _ _ rfl).2
  · rfl

theorem splitFraction_decimals (w : WrittenNumber) {rest : List Char} (h : Ends rest) :
    splitFraction (w.decimals ++ rest) = (w.decimals, rest) := by
  by_cases hf : w.fraction = []
  · have hd : w.decimals = [] := by simp [decimals, hf]
    rw [hd, List.nil_append, splitFraction_of_ends h]
  · have hd : w.decimals = '.' :: w.fraction := by simp [decimals, hf]
    rw [hd, List.cons_append, splitFraction, splitDigits_append w.fraction_digits h.noDigit]
    simp [hf]

theorem noDigit_decimals (w : WrittenNumber) {rest : List Char} (h : Ends rest) :
    NoDigit (w.decimals ++ rest) := by
  by_cases hf : w.fraction = []
  · simpa [decimals, hf] using h.noDigit
  · simpa [decimals, hf] using noDigit_cons (by decide) (w.fraction ++ rest)

/-- A number begins with a minus or with a digit. -/
theorem chars_eq_cons (w : WrittenNumber) :
    ∃ c rest, w.chars = c :: rest ∧ (c = '-' ∨ c.isDigit = true) := by
  obtain ⟨d, tail, hw⟩ := List.exists_cons_of_ne_nil w.whole_ne
  cases hn : w.negative with
  | true => exact ⟨'-', w.whole ++ w.decimals, by simp [chars, sign, hn], Or.inl rfl⟩
  | false =>
    refine ⟨d, tail ++ w.decimals, by simp [chars, sign, hn, hw], Or.inr ?_⟩
    exact w.whole_digits d (by simp [hw])

theorem mem_chars {w : WrittenNumber} {c : Char} (h : c ∈ w.chars) :
    c = '-' ∨ c = '.' ∨ c.isDigit = true := by
  rw [chars, List.mem_append, List.mem_append] at h
  rcases h with (hsign | hwhole) | hdecimals
  · unfold sign at hsign
    split at hsign
    · exact Or.inl (List.mem_singleton.mp hsign)
    · cases hsign
  · exact Or.inr (Or.inr (w.whole_digits c hwhole))
  · unfold decimals at hdecimals
    split at hdecimals
    · cases hdecimals
    · rcases List.mem_cons.mp hdecimals with rfl | hfraction
      · exact Or.inr (Or.inl rfl)
      · exact Or.inr (Or.inr (w.fraction_digits c hfraction))

theorem not_mem_chars (w : WrittenNumber) {c : Char} (hd : c.isDigit = false) (hm : c ≠ '-')
    (hp : c ≠ '.') : c ∉ w.chars := by
  intro h
  rcases mem_chars h with he | he | he
  · exact hm he
  · exact hp he
  · rw [hd] at he
    cases he

/-- A number without a sign at the start of a text, and the text after it. -/
def unsigned? (text : List Char) : Option (List Char × List Char) :=
  if (splitDigits text).1.isEmpty then none
  else
    some ((splitDigits text).1 ++ (splitFraction (splitDigits text).2).1,
      (splitFraction (splitDigits text).2).2)

theorem number?_minus (text : List Char) :
    number? ('-' :: text) = (unsigned? text).map fun read => ('-' :: read.1, read.2) := by
  simp only [number?, unsigned?]
  split
  · rfl
  · rfl

theorem number?_of_ne_minus {text : List Char} (h : ∀ rest, text ≠ '-' :: rest) :
    number? text = unsigned? text := by
  unfold number?
  split
  rename_i sign rest heq
  split at heq
  · exact absurd rfl (h _)
  · cases heq
    rfl

theorem unsigned?_append (w : WrittenNumber) {rest : List Char} (h : Ends rest) :
    unsigned? (w.whole ++ (w.decimals ++ rest)) = some (w.whole ++ w.decimals, rest) := by
  have hsplit := splitDigits_append w.whole_digits (w.noDigit_decimals h)
  simp only [unsigned?, hsplit, splitFraction_decimals w h]
  simp [w.whole_ne]

/-- Reading takes all of a number that nothing continues. -/
theorem number?_chars (w : WrittenNumber) {rest : List Char} (h : Ends rest) :
    number? (w.chars ++ rest) = some (w.chars, rest) := by
  cases hn : w.negative with
  | true =>
    have hs : w.chars = '-' :: (w.whole ++ w.decimals) := by simp [chars, sign, hn]
    rw [hs, List.cons_append, List.append_assoc, number?_minus, unsigned?_append w h]
    rfl
  | false =>
    have hs : w.chars = w.whole ++ w.decimals := by simp [chars, sign, hn]
    have hm : ∀ tail, w.whole ++ (w.decimals ++ rest) ≠ '-' :: tail := by
      intro tail he
      obtain ⟨d, more, hw⟩ := List.exists_cons_of_ne_nil w.whole_ne
      rw [hw, List.cons_append] at he
      have hd := w.whole_digits d (by simp [hw])
      rw [(List.cons.inj he).1] at hd
      cases hd
    rw [hs, List.append_assoc, number?_of_ne_minus hm, unsigned?_append w h]

theorem splitFraction_eq {text read rest : List Char} (h : splitFraction text = (read, rest)) :
    text = read ++ rest ∧ (read = [] ∨ ∃ run, run ≠ [] ∧ read = '.' :: run ∧
      ∀ c ∈ run, c.isDigit = true) := by
  unfold splitFraction at h
  split at h
  · rename_i tail
    rcases hs : splitDigits tail with ⟨run, after⟩
    obtain ⟨rfl, hdigits⟩ := splitDigits_eq hs
    rw [hs] at h
    by_cases hr : run = []
    · subst hr
      cases h
      exact ⟨rfl, Or.inl rfl⟩
    · simp only [List.isEmpty_iff, hr, if_false] at h
      cases h
      exact ⟨rfl, Or.inr ⟨run, hr, rfl, hdigits⟩⟩
  · cases h
    exact ⟨rfl, Or.inl rfl⟩

/-- What is read as a number without sign is one, for either sign in front of it. -/
theorem exists_of_unsigned? (negative : Bool) {text read rest : List Char}
    (h : unsigned? text = some (read, rest)) :
    ∃ w : WrittenNumber, w.negative = negative ∧ read = w.whole ++ w.decimals ∧
      text = read ++ rest := by
  rcases hs : splitDigits text with ⟨whole, after⟩
  rcases hf : splitFraction after with ⟨fraction, last⟩
  obtain ⟨rfl, hwhole⟩ := splitDigits_eq hs
  obtain ⟨rfl, hfraction⟩ := splitFraction_eq hf
  simp only [unsigned?, hs, hf] at h
  by_cases hne : whole = []
  · simp [hne] at h
  · simp only [List.isEmpty_iff, hne, if_false] at h
    cases h
    rcases hfraction with rfl | ⟨run, hr, rfl, hrun⟩
    · exact ⟨⟨negative, whole, [], hne, hwhole, by simp⟩, rfl, by simp [decimals], by simp⟩
    · exact ⟨⟨negative, whole, run, hne, hwhole, hrun⟩, rfl, by simp [decimals, hr], by simp⟩

/-- What is read as a number is one, and it stands at the start of the text. -/
theorem exists_of_number? {text read rest : List Char} (h : number? text = some (read, rest)) :
    ∃ w : WrittenNumber, read = w.chars ∧ text = w.chars ++ rest := by
  by_cases hm : ∃ tail, text = '-' :: tail
  · obtain ⟨tail, rfl⟩ := hm
    rw [number?_minus] at h
    obtain ⟨⟨body, after⟩, hu, he⟩ := Option.map_eq_some_iff.mp h
    obtain ⟨w, hn, rfl, rfl⟩ := exists_of_unsigned? true hu
    cases he
    refine ⟨w, ?_, ?_⟩ <;> simp [chars, sign, hn]
  · rw [number?_of_ne_minus (fun tail he => hm ⟨tail, he⟩)] at h
    obtain ⟨w, hn, rfl, rfl⟩ := exists_of_unsigned? false h
    refine ⟨w, ?_, ?_⟩ <;> simp [chars, sign, hn]

end WrittenNumber

/-! ## The value of a number -/

/-- A decimal without an exponent is rounded once, in spite of the early exits. -/
theorem Decimal.toBinary64_places (negative : Bool) (n places : Nat) :
    toBinary64 negative ⟨n, 0 - places⟩ =
      .rounded negative (n * quantaPerUnit) (10 ^ places) := by
  have hup : (0 - places : Int).toNat = 0 := by omega
  have hdown : (-(0 - places : Int)).toNat = places := by omega
  simp only [toBinary64_eq_value, value, hup, hdown, Nat.pow_zero, Nat.mul_one]

namespace WrittenNumber

open Literal

theorem splitSign_chars (w : WrittenNumber) :
    splitSign w.chars = (w.negative, w.whole ++ w.decimals) := by
  cases hn : w.negative with
  | true => simp [chars, sign, hn, splitSign]
  | false =>
    obtain ⟨d, tail, hw⟩ := List.exists_cons_of_ne_nil w.whole_ne
    have hd : d.isDigit = true := w.whole_digits d (by simp [hw])
    have hs : w.chars = d :: (tail ++ w.decimals) := by simp [chars, sign, hn, hw]
    rw [hs, hw, List.cons_append]
    unfold splitSign
    split
    · rename_i heq
      rw [(List.cons.inj heq).1] at hd
      cases hd
    · rename_i heq
      rw [(List.cons.inj heq).1] at hd
      cases hd
    · rfl

theorem parts?_chars (w : WrittenNumber) :
    parts? (w.whole ++ w.decimals) = some ⟨w.whole, w.fraction, 0⟩ := by
  have hsplit : splitDigits (w.whole ++ w.decimals) = (w.whole, w.decimals) := by
    have hn := w.noDigit_decimals ends_nil
    rw [List.append_nil] at hn
    exact splitDigits_append w.whole_digits hn
  by_cases hf : w.fraction = []
  · have hd : w.decimals = [] := by simp [decimals, hf]
    rw [hd, List.append_nil] at hsplit ⊢
    simp [parts?, hsplit, w.whole_ne, hf, exponent?]
  · have hd : w.decimals = '.' :: w.fraction := by simp [decimals, hf]
    rw [hd] at hsplit ⊢
    simp [parts?, hsplit, w.whole_ne, splitDigits_of_digits w.fraction_digits, exponent?]

/-- A written number names its value, and none if that is too large. -/
theorem parse?_chars (w : WrittenNumber) :
    parse? w.chars = if w.value.isFinite then some w.value else none := by
  have hread : read? w.chars = some w.value := by
    have hd : Parts.decimal ⟨w.whole, w.fraction, 0⟩ = ⟨w.digits, 0 - w.fraction.length⟩ := rfl
    simp only [read?, splitSign_chars, parts?_chars]
    rw [hd, Decimal.toBinary64_places, value]
  rw [parse?, hread]
  cases hv : w.value.isFinite <;> simp [Option.filter, hv]

end WrittenNumber

end Echelon
