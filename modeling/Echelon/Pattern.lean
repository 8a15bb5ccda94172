import Echelon.Pattern.Bracket
import Echelon.Pattern.Opening

/-!
# Search patterns

A search pattern is a regular expression. It is made of items next to each other, alternatives
between `|`, and groups in parentheses; `?`, `*` and `+` repeat the item before them. Counts in
braces are not supported. The program searches for nothing; it only needs to know whether a pattern
is well formed.
-/

namespace Echelon.Pattern

/-- What was read of a group, or of what is outside of all groups. -/
structure Group where
  /-- The nesting of the finished alternatives. -/
  branches : List Nat
  /-- The items of the current alternative, the latest first: their nesting, or none where flags
  were set. -/
  items : List (Option Nat)

namespace Group

/-- The group at its start. -/
def empty : Group := ⟨[], []⟩

/-- The group with one more item. -/
def add (g : Group) (item : Option Nat) : Group := { g with items := item :: g.items }

/-- The group with its latest item repeated, if it has one that can be. -/
def repeat? (g : Group) : Option Group :=
  match g.items with
  | some depth :: earlier => some { g with items := some (1 + depth) :: earlier }
  | _ => none

/-- The nesting of the current alternative. -/
def branch (g : Group) : Nat := depthOfAll (g.items.map fun item => item.getD 0)

/-- The group at the start of its next alternative. -/
def next (g : Group) : Group := ⟨g.branch :: g.branches, []⟩

/-- The nesting of the whole group. -/
def depth (g : Group) : Nat := depthOfAll (g.branch :: g.branches)

end Group

/-- A pattern read up to a place. -/
structure Progress where
  mode : Mode
  /-- The innermost group that is open. -/
  group : Group
  /-- The groups around it, the nearest first, with the modes to return to. -/
  outer : List (Mode × Group)
  /-- The names of groups so far. -/
  names : List (List Char)

namespace Progress

/-- Nothing was read yet. -/
def start : Progress := ⟨.initial, .empty, [], []⟩

/-- One more item was read. -/
def add (p : Progress) (depth : Nat) : Progress := { p with group := p.group.add (some depth) }

/-- A parenthesis opened something. No two groups have one name. -/
def enter? (p : Progress) : Opening → Option Progress
  | .setting mode => some { p with mode := mode, group := p.group.add none }
  | .group mode =>
    some { p with mode := mode, group := .empty, outer := (p.mode, p.group) :: p.outer }
  | .named name =>
    if p.names.contains name then none
    else some ⟨p.mode, .empty, (p.mode, p.group) :: p.outer, name :: p.names⟩

/-- A parenthesis closed the innermost group. -/
def leave? (p : Progress) : Option Progress :=
  match p.outer with
  | [] => none
  | (mode, group) :: outer =>
    some { p with mode := mode, group := group.add (some (1 + p.group.depth)), outer := outer }

/-- Reads what starts with a character. A question mark after a repetition belongs to it. -/
def step? (p : Progress) : Char → List Char → Option (Progress × List Char)
  | '(', rest => do
    let (opening, rest) ← opening? p.mode rest
    return (← p.enter? opening, rest)
  | ')', rest => do return (← p.leave?, rest)
  | '|', rest => some ({ p with group := p.group.next }, rest)
  | '[', rest => do
    let (depth, rest) ← set? p.mode rest
    return (p.add depth, rest)
  | '\\', rest => do
    let (_, rest) ← escape? p.mode rest
    return (p.add 0, rest)
  | '\x7b', _ => none
  | '.', rest => if p.mode.unicode then some (p.add 0, rest) else none
  | c, rest =>
    if c == '?' || c == '*' || c == '+' then do
      let group ← p.group.repeat?
      return ({ p with group := group }, if rest.head? == some '?' then rest.drop 1 else rest)
    else some (p.add 0, rest)

/-- The nesting of the pattern, read on to its end. -/
def finish? (fuel : Nat) (p : Progress) (text : List Char) : Option Nat :=
  match fuel, p.mode.skip text with
  | _, [] => if p.outer.isEmpty then some p.group.depth else none
  | 0, _ => none
  | fuel + 1, c :: rest =>
    match p.step? c rest with
    | some (p, rest) => finish? fuel p rest
    | none => none

end Progress

/-- Whether a text is a well-formed pattern. -/
def isValid (pattern : List Char) : Bool :=
  (Progress.start.finish? (pattern.length + 1) pattern).any (· ≤ depthLimit)

end Echelon.Pattern
