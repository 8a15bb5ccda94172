import Echelon.Number.Binary64

/-!
# Decimals and the numbers nearest to them

A decimal is `digits * 10 ^ exponent`. `toBinary64` reads it as the nearest number, and `shortest`
goes back: among the decimals that read as a given number it picks one with the fewest digits, and
of those the nearest one, the larger in a halfway case.
-/

namespace Echelon

-- Powers of naturals are those of core.
attribute [local instance (high)] instPowNat

/-- The value `digits * 10 ^ exponent`. -/
structure Decimal where
  digits : Nat
  exponent : Int
  deriving DecidableEq, Repr

namespace Decimal

/-- The number nearest to a decimal with the given sign. The first two cases keep powers of ten
small: beyond them the decimal is larger, or smaller, than every number can express. -/
def toBinary64 (negative : Bool) (d : Decimal) : Binary64 :=
  if d.digits = 0 then .zero negative
  else if 400 < d.exponent then .infinite negative
  else if d.exponent + d.digits.log2 < -400 then .zero negative
  else
    .rounded negative (d.digits * 10 ^ d.exponent.toNat * quantaPerUnit)
      (10 ^ (-d.exponent).toNat)

/-- The decimals with the given exponent next to `quanta`, the nearer one first. -/
def neighbours (quanta : Nat) (exponent : Int) : List Decimal :=
  let n := quanta * 10 ^ (-exponent).toNat
  let d := quantaPerUnit * 10 ^ exponent.toNat
  let below : Decimal := ⟨n / d, exponent⟩
  let above : Decimal := ⟨n / d + 1, exponent⟩
  if 2 * (n % d) < d then [below, above] else [above, below]

/-- An exponent at which `quanta` has no digit: ten to this power exceeds it. -/
def ceilingExponent (quanta : Nat) : Int :=
  ((quanta.log2 : Int) - 1074) * 30103 / 100000 + 2

/-- Every digit of the value of `quanta`, which is a multiple of `10 ^ -1074`. -/
def exact (quanta : Nat) : Decimal := ⟨quanta * 5 ^ (1074 : Nat), -1074⟩

/-- The shortest decimal that reads as `quanta`, looked for from coarse to fine. Seventeen digits
always suffice; the last resort keeps the function total without that fact. -/
def shortest (quanta : Nat) : Decimal :=
  let reads (d : Decimal) : Bool :=
    match d.toBinary64 false with
    | .finite _ m => m.quanta == quanta
    | _ => false
  let exponents := (List.range 24).map fun (i : Nat) => ceilingExponent quanta - i
  (exponents.findSome? fun e => (neighbours quanta e).find? reads).getD (exact quanta)

end Decimal

end Echelon
