import Echelon.Number.Decimal

/-!
# The written form of a number

A finite number is written positionally with the fewest digits that read back as it, never with an
exponent. Whole numbers below `10 ^ 15` need no search for digits. Zero has no sign.
-/

namespace Echelon

-- Powers of naturals are those of core.
attribute [local instance (high)] instPowNat

/-- A decimal written positionally, with zeros where it has no digits. -/
def Decimal.positional (d : Decimal) : List Char :=
  let digits := Nat.toDigits 10 d.digits
  let places := (-d.exponent).toNat
  if places = 0 then digits ++ List.replicate d.exponent.toNat '0'
  else if places < digits.length then
    digits.take (digits.length - places) ++ '.' :: digits.drop (digits.length - places)
  else '0' :: '.' :: (List.replicate (places - digits.length) '0' ++ digits)

namespace Binary64

/-- The number of units, when it is whole and below `10 ^ 15`. -/
def smallWhole? (quanta : Nat) : Option Nat :=
  if quanta % quantaPerUnit = 0 ∧ quanta < 10 ^ (15 : Nat) * quantaPerUnit then
    some (quanta / quantaPerUnit)
  else none

/-- The written form of a positive size. -/
def magnitudeChars (quanta : Nat) : List Char :=
  match smallWhole? quanta with
  | some units => Nat.toDigits 10 units
  | none => (Decimal.shortest quanta).positional

/-- The written form of a number, by characters. -/
def chars : Binary64 → List Char
  | finite negative m =>
    if m.quanta = 0 then ['0']
    else if negative then '-' :: magnitudeChars m.quanta
    else magnitudeChars m.quanta
  | infinite _ => "#INF!".toList
  | nan => "#NAN!".toList

/-- The written form of a number. -/
def text (x : Binary64) : String := String.ofList x.chars

end Binary64

end Echelon
