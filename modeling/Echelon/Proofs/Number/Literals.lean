import Echelon.Proofs.Number.Written

/-!
# The grammar of literals

A literal is a sign, digits with a point before, among or after them, and an exponent, or else a
sign and a word. Only digits, or the word, have to be there. `Names` says which texts are literals
and which numbers they name, without the readers. Reading accepts exactly these texts, and finds
the number nearest to the decimal that is written.
-/

namespace Echelon.Literal

/-- A sign, which may be missing, and whether it is a minus. -/
inductive Sign : List Char → Bool → Prop where
  | none : Sign [] false
  | plus : Sign ['+'] false
  | minus : Sign ['-'] true

/-- A run of digits, possibly empty. -/
def Digits (run : List Char) : Prop := ∀ c ∈ run, c.isDigit = true

/-- A point with the digits after it; the digits may be missing, and so may all of it. -/
inductive Point : List Char → List Char → Prop where
  | none : Point [] []
  | some {fraction : List Char} : Digits fraction → Point ('.' :: fraction) fraction

/-- The whole number that is written by a sign and digits. -/
def power (negative : Bool) (digits : List Char) : Int :=
  let size : Int := Nat.ofDigitChars 10 digits 0
  if negative then -size else size

/-- An exponent, which may be missing, and its value. -/
inductive Exponent : List Char → Int → Prop where
  | none : Exponent [] 0
  | some {mark : Char} {sign digits : List Char} {negative : Bool} :
      mark = 'e' ∨ mark = 'E' → Sign sign negative → Digits digits → digits ≠ [] →
      Exponent (mark :: (sign ++ digits)) (power negative digits)

/-- A literal without a sign, and its parts. A point may not stand alone. -/
inductive Body : List Char → Parts → Prop where
  | mk {whole point fraction exponent : List Char} {e : Int} :
      Digits whole → Point point fraction → whole ++ fraction ≠ [] → Exponent exponent e →
      Body (whole ++ (point ++ exponent)) ⟨whole, fraction, e⟩

/-- A word in any mixture of cases, and the number that it names after a sign. -/
inductive Special (negative : Bool) : List Char → Binary64 → Prop where
  | infinity {word : List Char} :
      word.map Char.toLower = "inf".toList ∨ word.map Char.toLower = "infinity".toList →
      Special negative word (.infinite negative)
  | nan {word : List Char} : word.map Char.toLower = "nan".toList → Special negative word .nan

/-- The text is a literal and names the number. -/
inductive Names : List Char → Binary64 → Prop where
  | decimal {sign body : List Char} {negative : Bool} {parts : Parts} :
      Sign sign negative → Body body parts → Names (sign ++ body) (parts.decimal.value negative)
  | special {sign word : List Char} {negative : Bool} {x : Binary64} :
      Sign sign negative → Special negative word x → Names (sign ++ word) x

variable {text rest sign run : List Char} {negative : Bool} {x : Binary64}

/-! ## Signs -/

/-- The text does not begin with a sign. -/
def Unsigned (text : List Char) : Prop := ∀ c rest, text = c :: rest → c ≠ '-' ∧ c ≠ '+'

theorem unsigned_of_head {P : Char → Prop} (hminus : ¬ P '-') (hplus : ¬ P '+')
    (h : ∃ c rest, text = c :: rest ∧ P c) : Unsigned text := by
  obtain ⟨d, tail, rfl, hd⟩ := h
  intro c rest heq
  obtain ⟨rfl, rfl⟩ := List.cons.inj heq
  constructor
  · rintro rfl
    exact hminus hd
  · rintro rfl
    exact hplus hd

theorem Digits.unsigned (h : Digits run) (hne : run ≠ []) : Unsigned run := by
  obtain ⟨c, rest, rfl⟩ := List.exists_cons_of_ne_nil hne
  have hc : c.isDigit = true := h c List.mem_cons_self
  exact unsigned_of_head (P := (Char.isDigit · = true)) (by decide) (by decide) ⟨c, rest, rfl, hc⟩

theorem exists_of_splitSign (h : splitSign text = (negative, rest)) :
    ∃ sign, Sign sign negative ∧ text = sign ++ rest := by
  unfold splitSign at h
  split at h
  · cases h
    exact ⟨_, .minus, rfl⟩
  · cases h
    exact ⟨_, .plus, rfl⟩
  · cases h
    exact ⟨_, .none, rfl⟩

theorem splitSign_append (h : Sign sign negative) (hrest : Unsigned rest) :
    splitSign (sign ++ rest) = (negative, rest) := by
  cases h with
  | plus => rfl
  | minus => rfl
  | none =>
    rw [List.nil_append]
    unfold splitSign
    split
    · exact absurd rfl (hrest _ _ rfl).1
    · exact absurd rfl (hrest _ _ rfl).2
    · rfl

/-! ## Exponents -/

theorem exponent?_eq_some {e : Int} : exponent? text = some e ↔ Exponent text e := by
  constructor
  · intro h
    cases text with
    | nil =>
      cases h
      exact .none
    | cons mark rest =>
      rcases hs : splitSign rest with ⟨negative, digits⟩
      obtain ⟨sign, hsign, rfl⟩ := exists_of_splitSign hs
      simp only [exponent?, hs] at h
      split at h
      · rename_i hmark
        split at h
        · cases h
        · rename_i hdigits
          simp only [not_or, Decidable.not_not, List.all_eq_true, List.isEmpty_iff] at hdigits
          cases h
          exact .some hmark hsign hdigits.2 hdigits.1
      · cases h
  · intro h
    cases h with
    | none => rfl
    | @some mark sign digits negative hmark hsign hdigits hne =>
      have hall : digits.all Char.isDigit = true := List.all_eq_true.mpr hdigits
      simp [exponent?, hmark, splitSign_append hsign (hdigits.unsigned hne), hne, hall, power]

/-- An exponent begins with neither a digit nor a point. -/
theorem Exponent.ends {e : Int} (h : Exponent text e) : WrittenNumber.Ends text := by
  cases h with
  | none => exact WrittenNumber.ends_nil
  | some hmark =>
    rcases hmark with rfl | rfl
    · exact WrittenNumber.ends_cons (by decide) (by decide) _
    · exact WrittenNumber.ends_cons (by decide) (by decide) _

/-! ## Literals without a sign -/

theorem body_of_parts? {parts : Parts} (h : parts? text = some parts) : Body text parts := by
  rcases hs : splitDigits text with ⟨whole, rest⟩
  obtain ⟨rfl, hwhole⟩ := splitDigits_eq hs
  simp only [parts?, hs] at h
  split at h
  · rename_i tail
    rcases hf : splitDigits tail with ⟨fraction, after⟩
    obtain ⟨rfl, hfraction⟩ := splitDigits_eq hf
    simp only [hf] at h
    split at h
    · cases h
    · rename_i hne
      obtain ⟨e, he, h⟩ := Option.bind_eq_some_iff.mp h
      cases h
      exact .mk hwhole (.some hfraction) (by simpa using hne) (exponent?_eq_some.mp he)
  · split at h
    · cases h
    · rename_i hne
      obtain ⟨e, he, h⟩ := Option.bind_eq_some_iff.mp h
      cases h
      exact .mk hwhole .none (by simpa using hne) (exponent?_eq_some.mp he)

theorem parts?_of_body {parts : Parts} (h : Body text parts) : parts? text = some parts := by
  obtain @⟨whole, point, fraction, exponent, e, hwhole, hpoint, hne, hexponent⟩ := h
  have hends := hexponent.ends
  have he : exponent? exponent = some e := exponent?_eq_some.mpr hexponent
  cases hpoint with
  | none =>
    rw [List.append_nil] at hne
    have hsplit : splitDigits (whole ++ exponent) = (whole, exponent) :=
      splitDigits_append hwhole hends.noDigit
    simp only [parts?, List.nil_append, hsplit]
    split
    · exact absurd rfl (hends _ _ rfl).2
    · simp [hne, he]
  | some hfraction =>
    have hsplit : splitDigits (whole ++ '.' :: (fraction ++ exponent)) =
        (whole, '.' :: (fraction ++ exponent)) :=
      splitDigits_append hwhole (noDigit_cons (by decide) _)
    have hpoint : splitDigits (fraction ++ exponent) = (fraction, exponent) :=
      splitDigits_append hfraction hends.noDigit
    have hsome : ¬ (whole = [] ∧ fraction = []) := by simpa using hne
    simp [parts?, hsplit, hpoint, hsome, he]

theorem parts?_eq_some {parts : Parts} : parts? text = some parts ↔ Body text parts :=
  ⟨body_of_parts?, parts?_of_body⟩

/-- What is written with digits begins with a digit or a point. -/
theorem Body.exists_cons {parts : Parts} (h : Body text parts) :
    ∃ c rest, text = c :: rest ∧ (c.isDigit = true ∨ c = '.') := by
  obtain @⟨whole, point, fraction, exponent, e, hwhole, hpoint, hne, _⟩ := h
  cases whole with
  | cons c whole => exact ⟨c, _, rfl, Or.inl (hwhole c List.mem_cons_self)⟩
  | nil =>
    cases hpoint with
    | none => exact absurd rfl hne
    | some _ => exact ⟨'.', _, rfl, Or.inr rfl⟩

theorem Body.unsigned {parts : Parts} (h : Body text parts) : Unsigned text :=
  unsigned_of_head (by decide) (by decide) h.exists_cons

/-! ## Words -/

theorem word?_eq_some : word? negative text = some x ↔ Special negative text x := by
  constructor
  · intro h
    simp only [word?] at h
    split at h
    · rename_i hword
      cases h
      exact .infinity hword
    · split at h
      · rename_i hword
        cases h
        exact .nan hword
      · cases h
  · intro h
    cases h with
    | infinity hword => rw [word?, if_pos hword]
    | nan hword =>
      have hother : ¬ ("nan".toList = "inf".toList ∨ "nan".toList = "infinity".toList) := by decide
      rw [word?, hword, if_neg hother, if_pos rfl]

theorem toLower_of_isDigit {c : Char} (h : c.isDigit = true) : c.toLower = c := by
  simp only [Char.isDigit, Bool.and_eq_true, decide_eq_true_eq, ge_iff_le] at h
  refine dif_neg ?_
  rintro ⟨hupper, _⟩
  have hle : 'A'.val ≤ '9'.val := UInt32.le_trans hupper h.2
  revert hle
  decide

/-- A word begins with a letter. -/
theorem Special.exists_cons (h : Special negative text x) :
    ∃ c rest, text = c :: rest ∧ (c.toLower = 'i' ∨ c.toLower = 'n') := by
  cases h with
  | infinity hword =>
    rcases hword with hword | hword
    · obtain ⟨c, rest, rfl, hc, _⟩ := List.map_eq_cons_iff.mp hword
      exact ⟨c, rest, rfl, Or.inl hc⟩
    · obtain ⟨c, rest, rfl, hc, _⟩ := List.map_eq_cons_iff.mp hword
      exact ⟨c, rest, rfl, Or.inl hc⟩
  | nan hword =>
    obtain ⟨c, rest, rfl, hc, _⟩ := List.map_eq_cons_iff.mp hword
    exact ⟨c, rest, rfl, Or.inr hc⟩

theorem Special.unsigned (h : Special negative text x) : Unsigned text :=
  unsigned_of_head (by decide) (by decide) h.exists_cons

theorem Special.parts?_eq_none (h : Special negative text x) : parts? text = none := by
  cases hp : parts? text with
  | none => rfl
  | some parts =>
    obtain ⟨c, rest, rfl, hletter⟩ := h.exists_cons
    obtain ⟨d, tail, heq, hc⟩ := (parts?_eq_some.mp hp).exists_cons
    obtain ⟨rfl, rfl⟩ := List.cons.inj heq
    rcases hc with hdigit | rfl
    · rw [toLower_of_isDigit hdigit] at hletter
      rcases hletter with rfl | rfl
      · cases hdigit
      · cases hdigit
    · exact absurd hletter (by decide)

/-! ## Literals -/

/-- **Reading accepts exactly the literals and finds the numbers that they name.** -/
theorem read?_eq_some : read? text = some x ↔ Names text x := by
  constructor
  · intro h
    rcases hs : splitSign text with ⟨negative, body⟩
    obtain ⟨sign, hsign, rfl⟩ := exists_of_splitSign hs
    simp only [read?, hs] at h
    split at h
    · rename_i parts hparts
      cases h
      rw [Decimal.toBinary64_eq_value]
      exact .decimal hsign (parts?_eq_some.mp hparts)
    · exact .special hsign (word?_eq_some.mp h)
  · intro h
    cases h with
    | decimal hsign hbody =>
      simp only [read?, splitSign_append hsign hbody.unsigned, parts?_eq_some.mpr hbody,
        Decimal.toBinary64_eq_value]
    | special hsign hword =>
      simp only [read?, splitSign_append hsign hword.unsigned, hword.parts?_eq_none,
        word?_eq_some.mpr hword]

theorem parse?_eq_some : parse? text = some x ↔ Names text x ∧ x.isFinite = true := by
  rw [parse?, Option.filter_eq_some_iff, read?_eq_some]

end Echelon.Literal
