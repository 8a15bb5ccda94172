/-!
# Pictures

A picture is a list of rows of coloured glyphs. Pictures are put together side by side, one
above the other, or one on top of the other. `fit` brings a picture to a size by cutting it at the
right and below, or by filling it up with spaces.
-/

namespace Echelon

/-- The colour of a glyph. -/
inductive Color where
  | plain
  | cyan
  | darkGray
  | red
  | yellow
  | green
  | white
  deriving DecidableEq, Repr

/-- What stands in one place of the screen, with its colour. -/
structure Glyph where
  symbol : String
  color : Color
  deriving DecidableEq, Repr

/-- A row of glyphs. -/
abbrev Strip := List Glyph

/-- Rows of glyphs, from the top. -/
abbrev Picture := List Strip

/-- What the places hold that a text takes on one row: a place for each character, however wide it
is shown. A line feed takes no place of its own; after a carriage return it shares that one's. -/
def symbols : List Char → List String
  | '\r' :: '\n' :: rest => "\r\n" :: symbols rest
  | '\n' :: rest => symbols rest
  | c :: rest => c.toString :: symbols rest
  | [] => []

namespace Strip

/-- A text in one colour on one row. -/
def paint (color : Color) (text : List Char) : Strip := (symbols text).map (⟨·, color⟩)

/-- A glyph again and again. -/
def fill (glyph : Glyph) (width : Nat) : Strip := List.replicate width glyph

/-- A row cut or filled up to a width. -/
def fitWith (glyph : Glyph) (width : Nat) (strip : Strip) : Strip :=
  strip.take width ++ fill glyph (width - strip.length)

/-- A row cut or filled up with spaces to a width, which counts places: characters that a terminal
shows over two columns count as one place, as all others do. -/
def fit (width : Nat) (strip : Strip) : Strip := strip.fitWith ⟨" ", .plain⟩ width

end Strip

namespace Picture

/-- A picture cut or filled up to a size. -/
def fit (width height : Nat) (picture : Picture) : Picture :=
  (picture.take height ++ List.replicate (height - picture.length) []).map (Strip.fit width)

/-- Two pictures of one height side by side. -/
def beside (left right : Picture) : Picture := List.zipWith (· ++ ·) left right

/-- A box of the given size around a picture, with a title in its upper edge. -/
def framed (color : Color) (title : String) (width height : Nat) (inside : Picture) : Picture :=
  let glyph (symbol : String) : Glyph := ⟨symbol, color⟩
  let edge := Strip.fitWith (glyph "─") (width - 2)
  let top := glyph "┌" :: edge (Strip.paint color title.toList) ++ [glyph "┐"]
  let bottom := glyph "└" :: edge [] ++ [glyph "┘"]
  let middle := (fit (width - 2) (height - 2) inside).map fun strip =>
    glyph "│" :: strip ++ [glyph "│"]
  top :: middle ++ [bottom]

/-- A picture with another one on top of it, `x` columns from the left and `y` rows down. -/
def cover (base top : Picture) (x y : Nat) : Picture :=
  base.zipIdx.map fun (strip, row) =>
    if row < y then strip
    else
      match top[row - y]? with
      | some patch => strip.take x ++ patch ++ strip.drop (x + patch.length)
      | none => strip

end Picture

end Echelon
