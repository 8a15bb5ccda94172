import Echelon.Text.Blank

/-!
# Modes and nesting

What a stretch of a search pattern means depends on the flags in force there; the two that decide
whether a pattern is well formed make up its mode. A pattern may nest only so deep.
-/

namespace Echelon.Pattern

/-- How a stretch of a pattern is read. -/
structure Mode where
  /-- Whether the pattern matches characters; otherwise it matches bytes. -/
  unicode : Bool
  /-- Whether blanks and comments in the pattern are passed over. -/
  verbose : Bool
  deriving DecidableEq, Repr

/-- The mode in which a pattern starts. -/
def Mode.initial : Mode := ⟨true, false⟩

/-- A text without the blanks and comments at its start. A comment goes from `#` to the end of the
line; `comment` says whether the text starts inside of one. -/
def skipComments (comment : Bool) : List Char → List Char
  | [] => []
  | c :: rest =>
    if comment then skipComments (c != '\n') rest
    else if c == '#' then skipComments true rest
    else if Text.isBlank c then skipComments false rest
    else c :: rest

/-- A text without what the mode passes over. -/
def Mode.skip (m : Mode) (text : List Char) : List Char :=
  if m.verbose then skipComments false text else text

/-- The character after a hyphen in brackets that decides whether the hyphen makes a range. A
comment is not passed over here, only the `#` that it starts with. -/
def Mode.glance? (m : Mode) (text : List Char) : Option Char :=
  if m.verbose then
    match Text.skipBlanks text with
    | '#' :: rest => (Text.skipBlanks rest).head?
    | rest => rest.head?
  else text.head?

/-- The deepest nesting that a pattern may have. -/
def depthLimit : Nat := 250

/-- The nesting of several parts in a row: a level of its own, unless there is at most one. -/
def depthOfAll : List Nat → Nat
  | [] => 0
  | [depth] => depth
  | depths => 1 + depths.foldr max 0

end Echelon.Pattern
