import Echelon.Number.Decimal

/-!
# Number literals

The texts that name a number: an optional sign, then decimal digits with an optional point and an
optional exponent, or one of the words for infinity and for what is not a number. A point may
stand before or after all digits, but not alone. `parse?` accepts only the finite ones.
-/

namespace Echelon.Literal

/-- A literal without its sign, split into its parts. -/
structure Parts where
  whole : List Char
  fraction : List Char
  exponent : Int
  deriving DecidableEq, Repr

/-- The value written by the digits and the exponent. -/
def Parts.decimal (p : Parts) : Decimal :=
  ⟨Nat.ofDigitChars 10 (p.whole ++ p.fraction) 0, p.exponent - p.fraction.length⟩

/-- A sign, if there is one: whether it is a minus, and the text after it. -/
def splitSign : List Char → Bool × List Char
  | '-' :: rest => (true, rest)
  | '+' :: rest => (false, rest)
  | text => (false, text)

/-- The longest run of digits and the text after it. -/
def splitDigits (text : List Char) : List Char × List Char :=
  (text.takeWhile Char.isDigit, text.dropWhile Char.isDigit)

/-- The exponent at the end of a literal; no text means no exponent. -/
def exponent? : List Char → Option Int
  | [] => some 0
  | c :: rest =>
    if c = 'e' ∨ c = 'E' then
      let (negative, digits) := splitSign rest
      if digits.isEmpty ∨ ¬ digits.all Char.isDigit then none
      else
        let size : Int := Nat.ofDigitChars 10 digits 0
        some (if negative then -size else size)
    else none

/-- The parts of a literal made of digits. -/
def parts? (text : List Char) : Option Parts := do
  let (whole, rest) := splitDigits text
  let (fraction, rest) :=
    match rest with
    | '.' :: rest => splitDigits rest
    | rest => ([], rest)
  if whole.isEmpty && fraction.isEmpty then none
  else return ⟨whole, fraction, ← exponent? rest⟩

/-- The number named by a word, in any mixture of cases. -/
def word? (negative : Bool) (text : List Char) : Option Binary64 :=
  let word := text.map Char.toLower
  if word = "inf".toList ∨ word = "infinity".toList then some (.infinite negative)
  else if word = "nan".toList then some .nan
  else none

/-- The number that a literal names, infinities and not-a-number included. -/
def read? (text : List Char) : Option Binary64 :=
  let (negative, body) := splitSign text
  match parts? body with
  | some parts => some (parts.decimal.toBinary64 negative)
  | none => word? negative body

/-- The finite number that a literal names. -/
def parse? (text : List Char) : Option Binary64 := (read? text).filter Binary64.isFinite

end Echelon.Literal
