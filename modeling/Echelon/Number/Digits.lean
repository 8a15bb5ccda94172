/-!
# Digits

The values of digits, and of runs of digits, in a base up to sixteen.
-/

namespace Echelon.Digits

/-- The value of a digit, hexadecimal ones included. -/
def digit? (c : Char) : Option Nat :=
  if c.isDigit then some (c.toNat - '0'.toNat)
  else if 'a' ≤ c ∧ c ≤ 'f' then some (c.toNat - 'a'.toNat + 10)
  else if 'A' ≤ c ∧ c ≤ 'F' then some (c.toNat - 'A'.toNat + 10)
  else none

/-- The value of some digits in a base. -/
def value? (base : Nat) (digits : List Char) : Option Nat :=
  digits.foldlM (fun value c => do
    let digit ← digit? c
    if digit < base then some (base * value + digit) else none) 0

/-- The character whose code point some hexadecimal digits write. -/
def char? (digits : List Char) : Option Char := do
  let code ← value? 16 digits
  if code.isValidChar then some (Char.ofNat code) else none

end Echelon.Digits
