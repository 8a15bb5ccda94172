/-!
# Byte offsets in a text

Positions in a text are counted in bytes of its UTF-8 form. Splitting at a position gives the
characters before it, nearest first, and the characters after it, so that both neighbours of the
position are at hand.
-/

namespace Echelon.Text

/-- The length of a text in bytes. -/
def byteLength (text : List Char) : Nat := text.foldr (fun c length => c.utf8Size + length) 0

/-- A text around a position. -/
structure Around where
  /-- What comes before the position, nearest first. -/
  before : List Char
  after : List Char
  deriving DecidableEq

/-- Moves forward over the characters that end within `offset` bytes. -/
def Around.advance (offset : Nat) (before : List Char) : List Char → Around
  | [] => ⟨before, []⟩
  | c :: rest =>
    if c.utf8Size ≤ offset then advance (offset - c.utf8Size) (c :: before) rest
    else ⟨before, c :: rest⟩

/-- The text around the position `offset` bytes after its start. -/
def splitAtByte (offset : Nat) (text : List Char) : Around := Around.advance offset [] text

/-- The part of a text between two positions. -/
def slice (first last : Nat) (text : List Char) : List Char :=
  (splitAtByte (last - first) (splitAtByte first text).after).before.reverse

/-- The whole text. -/
def Around.whole (a : Around) : List Char := a.before.reverse ++ a.after

end Echelon.Text
