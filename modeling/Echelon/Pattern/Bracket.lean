import Echelon.Pattern.Escape

/-!
# Sets of characters

Sets are written in brackets: characters, ranges, classes and further sets next to each other, and
operations between them, which group to the left. A set of bytes must not leave ASCII, or it would
match what is no text. A complement always leaves ASCII, so among bytes neither sets nor named
classes can be negated, not even where an operation would take away what is too much.
-/

namespace Echelon.Pattern

/-- What was read of a set in brackets. -/
structure Bracket where
  /-- The nesting of the set before the latest operation. -/
  left : Option Nat
  /-- The nesting of the items read since. -/
  items : List Nat
  /-- Whether nothing was read yet but hyphens, which stand for themselves there. -/
  fresh : Bool

namespace Bracket

/-- A set of which nothing was read. -/
def empty : Bracket := ⟨none, [], true⟩

/-- A set after its opening bracket and the `^` that negates it, and the text after these. -/
def opened? (m : Mode) (text : List Char) : Option (Bracket × List Char) :=
  match m.skip text with
  | '^' :: rest => if m.unicode then some (empty, rest) else none
  | rest => some (empty, rest)

/-- The set with one more item. -/
def add (b : Bracket) (depth : Nat) : Bracket :=
  { b with items := depth :: b.items, fresh := false }

/-- The set with one more hyphen at its start. -/
def addHyphen (b : Bracket) : Bracket := { b with items := 0 :: b.items }

/-- The nesting of what was read so far. -/
def inside (b : Bracket) : Nat :=
  match b.left with
  | none => depthOfAll b.items
  | some left => 1 + max left (depthOfAll b.items)

/-- The set with an operation after it. -/
def operate (b : Bracket) : Bracket := ⟨some b.inside, [], false⟩

/-- The nesting of the whole set. -/
def depth (b : Bracket) : Nat := 1 + b.inside

end Bracket

/-- The names of classes. -/
def classNames : List String :=
  ["alnum", "alpha", "ascii", "blank", "cntrl", "digit", "graph", "lower", "print", "punct",
    "space", "upper", "word", "xdigit"]

/-- A named class such as `[:alpha:]` or `[:^alpha:]`, after its bracket: whether it is negated,
and the text after it. -/
def namedClass? : List Char → Option (Bool × List Char)
  | ':' :: text =>
    let negated := text.head? == some '^'
    let text := if negated then text.drop 1 else text
    let name := text.takeWhile (· != ':')
    match text.drop name.length with
    | ':' :: ']' :: rest =>
      if classNames.contains (String.ofList name) then some (negated, rest) else none
    | _ => none
  | _ => none

/-- A character or an escape in brackets. -/
def setAtom? (m : Mode) : List Char → Option (Atom × List Char)
  | '\\' :: rest => escape? m rest
  | c :: rest => some (.literal c, rest)
  | [] => none

/-- Whether an atom may be an item of a set. Sets of bytes have no characters beyond ASCII. -/
def Atom.inSet (m : Mode) : Atom → Bool
  | literal c => m.unicode || c.toNat < 0x80
  | choice => true
  | assertion => false

/-- The text after an item: an atom, or a range of two characters in order. -/
def setItem? (m : Mode) (text : List Char) : Option (List Char) := do
  let (first, rest) ← setAtom? m text
  let single := if first.inSet m then some (m.skip rest) else none
  match m.skip rest with
  | '-' :: rest =>
    let next := m.glance? rest
    if next == some ']' || next == some '-' then single
    else
      match first, ← setAtom? m (m.skip rest) with
      | .literal a, (.literal b, rest) =>
        if a ≤ b ∧ first.inSet m ∧ (Atom.literal b).inSet m then some rest else none
      | _, _ => none
  | _ => single

/-- Whether a character starts an operation between sets, given the text after it. -/
def isOperation (c : Char) (rest : List Char) : Bool :=
  ['&', '-', '~'].contains c && rest.head? == some c

/-- Reads on inside a set; `outer` holds the sets around it, the nearest first. -/
def readSet? (m : Mode) (fuel : Nat) (b : Bracket) (outer : List Bracket) (text : List Char) :
    Option (Nat × List Char) :=
  match fuel, m.skip text with
  | 0, _ => none
  | _, [] => none
  | fuel + 1, '[' :: rest =>
    match namedClass? rest with
    | some (negated, rest) =>
      if negated && !m.unicode then none else readSet? m fuel (b.add 0) outer rest
    | none =>
      match Bracket.opened? m rest with
      | some (inner, rest) => readSet? m fuel inner (b :: outer) rest
      | none => none
  | fuel + 1, c :: rest =>
    if b.fresh && c == '-' then readSet? m fuel b.addHyphen outer rest
    else if c == ']' && !(b.fresh && b.items.isEmpty) then
      match outer with
      | [] => some (b.depth, rest)
      | around :: outer => readSet? m fuel (around.add b.depth) outer rest
    else if b.fresh && c == ']' then readSet? m fuel (b.add 0) outer rest
    else if isOperation c rest then readSet? m fuel b.operate outer (rest.drop 1)
    else
      match setItem? m (c :: rest) with
      | some rest => readSet? m fuel (b.add 0) outer rest
      | none => none

/-- The nesting of the set in brackets after whose opening bracket a text starts, and the text after
the set. -/
def set? (m : Mode) (text : List Char) : Option (Nat × List Char) := do
  let (b, rest) ← Bracket.opened? m text
  readSet? m (rest.length + 1) b [] rest

end Echelon.Pattern
