import Echelon.Number.Rounding

/-!
# Binary64 numbers

Every finite number is a whole count of *quanta*, the least positive number `2 ^ -1074`, together
with a sign; the counts that occur are the short ones below `quantaLimit`. Each operation is the
exact result on counts, rounded once by `rounded`, so a law about numbers is a law about naturals.
-/

namespace Echelon

open Number

-- Powers of naturals are those of core.
attribute [local instance (high)] instPowNat

/-- The quanta in the number one. -/
def quantaPerUnit : Nat := 2 ^ (1074 : Nat)

/-- The least count of quanta that is too large for a finite number. -/
def quantaLimit : Nat := 2 ^ (2098 : Nat)

theorem quantaLimit_pos : 0 < quantaLimit := by
  unfold quantaLimit
  apply Nat.two_pow_pos

/-- The size of a finite number, counted in quanta. -/
structure Magnitude where
  quanta : Nat
  short : Short quanta
  lt_limit : quanta < quantaLimit
  deriving DecidableEq

instance : Inhabited Magnitude := ⟨⟨0, Nat.dvd_zero _, quantaLimit_pos⟩⟩

/-- A binary64 number; zero has two signs, and all that is not a number is one value. -/
inductive Binary64 where
  | finite (negative : Bool) (magnitude : Magnitude)
  | infinite (negative : Bool)
  | nan
  deriving DecidableEq, Inhabited

namespace Binary64

/-- The number nearest to `n / d` quanta, with the given sign; infinite when too large. -/
def rounded (negative : Bool) (n d : Nat) : Binary64 :=
  if h : roundRatio n d < quantaLimit then
    finite negative ⟨roundRatio n d, short_roundRatio n d, h⟩
  else
    infinite negative

/-- The number nearest to a count of quanta of either sign; nothing is positive zero. -/
def ofQuanta (quanta : Int) : Binary64 := rounded (decide (quanta < 0)) quanta.natAbs 1

def ofNat (n : Nat) : Binary64 := rounded false (n * quantaPerUnit) 1

def zero (negative : Bool) : Binary64 := finite negative default

def one : Binary64 := ofNat 1

/-- The signed count of quanta of a finite number. -/
def signed (negative : Bool) (m : Magnitude) : Int :=
  if negative then -(m.quanta : Int) else m.quanta

def isFinite : Binary64 → Bool
  | finite _ _ => true
  | _ => false

/-- Whether the number is zero, of either sign. -/
def isZero : Binary64 → Bool
  | finite _ m => m.quanta == 0
  | _ => false

def neg : Binary64 → Binary64
  | finite s m => finite (!s) m
  | infinite s => infinite (!s)
  | nan => nan

/-- The sum rounded once; an exact zero is negative only when both parts are negative zeros. -/
def add : Binary64 → Binary64 → Binary64
  | finite s x, finite t y =>
    let total := signed s x + signed t y
    if total = 0 then zero (s && t) else ofQuanta total
  | infinite s, infinite t => if s = t then infinite s else nan
  | infinite s, finite _ _ => infinite s
  | finite _ _, infinite t => infinite t
  | nan, _ => nan
  | _, nan => nan

def sub (x y : Binary64) : Binary64 := add x y.neg

def mul : Binary64 → Binary64 → Binary64
  | finite s x, finite t y => rounded (s != t) (x.quanta * y.quanta) quantaPerUnit
  | infinite s, infinite t => infinite (s != t)
  | infinite s, finite t y => if y.quanta = 0 then nan else infinite (s != t)
  | finite s x, infinite t => if x.quanta = 0 then nan else infinite (s != t)
  | nan, _ => nan
  | _, nan => nan

def div : Binary64 → Binary64 → Binary64
  | finite s x, finite t y =>
    if y.quanta = 0 then
      if x.quanta = 0 then nan else infinite (s != t)
    else rounded (s != t) (x.quanta * quantaPerUnit) y.quanta
  | infinite _, infinite _ => nan
  | infinite s, finite t _ => infinite (s != t)
  | finite s _, infinite t => zero (s != t)
  | nan, _ => nan
  | _, nan => nan

/-- What is left of `x` after taking away whole multiples of `y`; it has the sign of `x`. -/
def rem : Binary64 → Binary64 → Binary64
  | finite s x, finite _ y => if y.quanta = 0 then nan else rounded s (x.quanta % y.quanta) 1
  | finite s x, infinite _ => finite s x
  | infinite _, _ => nan
  | nan, _ => nan
  | _, nan => nan

instance : Neg Binary64 := ⟨neg⟩
instance : Add Binary64 := ⟨add⟩
instance : Sub Binary64 := ⟨sub⟩
instance : Mul Binary64 := ⟨mul⟩
instance : Div Binary64 := ⟨div⟩
instance : Mod Binary64 := ⟨rem⟩

end Binary64

end Echelon
