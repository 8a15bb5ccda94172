import Echelon.Number.Binary64

/-!
# Numbers as 64-bit words

The interchange form of a number: one sign bit, eleven bits of exponent, fifty-two of fraction.
A finite word with exponent field `e` counts `fraction` quanta when `e` is zero, and otherwise
`(2 ^ 52 + fraction) * 2 ^ (e - 1)` quanta.
-/

namespace Echelon.Binary64

-- Powers of naturals are those of core.
attribute [local instance (high)] instPowNat

/-- What the lowest bit of the exponent field is worth. -/
def exponentUnit : Nat := 2 ^ (52 : Nat)

/-- The exponent field of what is not finite. -/
def greatestExponent : Nat := 2047

/-- What the sign bit is worth. -/
def signUnit : Nat := 2 ^ (63 : Nat)

/-- The number that a word stands for. Bits above the sixty-fourth are ignored. -/
def ofWord (word : Nat) : Binary64 :=
  let negative := word / signUnit % 2 == 1
  let exponent := word / exponentUnit % (greatestExponent + 1)
  let fraction := word % exponentUnit
  if exponent = greatestExponent then
    if fraction = 0 then infinite negative else nan
  else if exponent = 0 then rounded negative fraction 1
  else rounded negative ((exponentUnit + fraction) * 2 ^ (exponent - 1)) 1

/-- The exponent and fraction fields of a count of quanta, as one number. -/
def magnitudeWord (quanta : Nat) : Nat :=
  let step := quanta.log2 - 52
  step * exponentUnit + quanta / 2 ^ step

/-- The word of a number; `none` for what is not a number, which has many words. -/
def toWord? : Binary64 → Option Nat
  | finite negative m => some (negative.toNat * signUnit + magnitudeWord m.quanta)
  | infinite negative => some (negative.toNat * signUnit + greatestExponent * exponentUnit)
  | nan => none

end Echelon.Binary64
