import Echelon.Operation
import Echelon.Number.Literal
import Echelon.Text.Blank

/-!
# Reading row operations

An operation is written in one of four forms, with blanks allowed between its parts:

* swap: `R1 <> R2`
* scale: `R1 = R1 * -2`
* divide: `R1 = R1 / 3`
* combine: `R1 = R1 - 2R3`, `R2 = R2 + R1`

A row is `R` and one digit; a number is an optional minus, digits, and optionally a point and more
digits. There is one reader for each form. It answers `none` when the text is not of its form, and
otherwise decides the outcome, so `parse` asks the readers in order. Any text with `<>` in it is
taken for a swap.
-/

namespace Echelon.Operation

open Text

/-- A row name at the start of a text, and the text after it. -/
def row? : List Char → Option (RowName × List Char)
  | 'R' :: d :: rest => if d.isDigit then some (⟨Nat.ofDigitChars 10 [d] 0⟩, rest) else none
  | _ => none

/-- The text after the given character, if it starts with that one. -/
def symbol? (symbol : Char) : List Char → Option (List Char)
  | c :: rest => if c = symbol then some rest else none
  | [] => none

/-- The fraction digits at the start of a text, with their point; nothing if there are none. -/
def splitFraction : List Char → List Char × List Char
  | '.' :: rest =>
    let (digits, after) := Literal.splitDigits rest
    if digits.isEmpty then ([], '.' :: rest) else ('.' :: digits, after)
  | rest => ([], rest)

/-- A number at the start of a text, and the text after it. -/
def number? (text : List Char) : Option (List Char × List Char) :=
  let (sign, rest) := match text with
    | '-' :: rest => (['-'], rest)
    | rest => ([], rest)
  let (whole, rest) := Literal.splitDigits rest
  if whole.isEmpty then none
  else
    let (fraction, rest) := splitFraction rest
    some (sign ++ whole ++ fraction, rest)

/-- The end of a text. -/
def done? (text : List Char) : Option Unit := if text.isEmpty then some () else none

/-- The rows of a swap. -/
def swapForm? (text : List Char) : Option (RowName × RowName) := do
  let (first, rest) ← row? text
  let rest ← symbol? '<' (skipBlanks rest)
  let rest ← symbol? '>' rest
  let (second, rest) ← row? (skipBlanks rest)
  done? rest
  return (first, second)

/-- The two rows at the start of an assignment, and the text after them. -/
def assignment? (text : List Char) : Option (RowName × RowName × List Char) := do
  let (target, rest) ← row? text
  let rest ← symbol? '=' (skipBlanks rest)
  let (source, rest) ← row? (skipBlanks rest)
  return (target, source, skipBlanks rest)

/-- The rows and the number of an assignment with the given sign between them. -/
def scaleForm? (sign : Char) (text : List Char) : Option (RowName × RowName × List Char) := do
  let (target, source, rest) ← assignment? text
  let rest ← symbol? sign rest
  let (number, rest) ← number? (skipBlanks rest)
  done? rest
  return (target, source, number)

/-- The sign between the rows of a combination, and the text after it. -/
def joiner? : List Char → Option (Joiner × List Char)
  | '+' :: rest => some (.plus, rest)
  | '-' :: rest => some (.minus, rest)
  | _ => none

/-- The parts of a written combination. -/
structure CombineForm where
  target : RowName
  left : RowName
  joiner : Joiner
  number : Option (List Char)
  right : RowName
  deriving DecidableEq

/-- The parts of a combination. -/
def combineForm? (text : List Char) : Option CombineForm := do
  let (target, left, rest) ← assignment? text
  let (joiner, rest) ← joiner? rest
  let rest := skipBlanks rest
  let (number, rest) := match number? rest with
    | some (number, rest) => (some number, rest)
    | none => (none, rest)
  let (right, rest) ← row? rest
  done? rest
  return ⟨target, left, joiner, number, right⟩

/-- The value of a written number, refused when it is too large. -/
def numberValue (text : String) (number : List Char) : Except Fault Binary64 :=
  match Literal.parse? number with
  | some value => .ok value
  | none => .error (.unrecognized text)

/-- The one row of a scaling or division, which has to read the row that it assigns to. -/
def sameRow (target source : RowName) : Except Fault RowName :=
  if target = source then .ok target
  else .error (.scaleRowMismatch target.number source.number)

/-- Whether a text holds the sign of a swap. -/
def hasSwapSign : List Char → Bool
  | '<' :: '>' :: _ => true
  | _ :: rest => hasSwapSign rest
  | [] => false

def readSwap (text : String) : Option (Except Fault Operation) :=
  if hasSwapSign text.toList then
    match swapForm? text.toList with
    | some (first, second) => some (.ok (.swap first second))
    | none => some (.error (.malformedSwap text))
  else none

def readScale (text : String) : Option (Except Fault Operation) :=
  (scaleForm? '*' text.toList).map fun (target, source, number) => do
    let row ← sameRow target source
    let factor ← numberValue text number
    return .scale row factor

def readDivide (text : String) : Option (Except Fault Operation) :=
  (scaleForm? '/' text.toList).map fun (target, source, number) => do
    let row ← sameRow target source
    let divisor ← numberValue text number
    if divisor.isZero then .error (.divisionByZero text) else return .divide row divisor

def readCombine (text : String) : Option (Except Fault Operation) :=
  (combineForm? text.toList).map fun form => do
    let factor ← match form.number with
      | some number => numberValue text number
      | none => pure .one
    return .combine form.target form.left form.joiner factor form.right

/-- A reader for one written form. -/
structure Reader where
  name : String
  read : String → Option (Except Fault Operation)

/-- The readers in the order in which they are asked. -/
def readers : List Reader :=
  [⟨"swap", readSwap⟩, ⟨"scale", readScale⟩, ⟨"divide", readDivide⟩, ⟨"combine", readCombine⟩]

/-- The outcome of the first of some readers that knows the form of a text. -/
def firstReading (readers : List Reader) (text : String) : Except Fault Operation :=
  (readers.findSome? fun reader => reader.read text).getD (.error (.unrecognized text))

/-- The operation that a text stands for. -/
def parse (text : String) : Except Fault Operation := firstReading readers (trimmed text)

end Echelon.Operation
