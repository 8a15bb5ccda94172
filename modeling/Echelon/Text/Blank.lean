import Echelon.Text.CodePoints

/-!
# Blanks and words

A blank is a character with the White_Space property. A text is trimmed of the blanks at its ends
and cut into words, its maximal runs of other characters.
-/

namespace Echelon.Text

/-- The code points with the White_Space property, as closed ascending ranges. -/
def blankRanges : List (Nat × Nat) :=
  [(0x09, 0x0D), (0x20, 0x20), (0x85, 0x85), (0xA0, 0xA0), (0x1680, 0x1680), (0x2000, 0x200A),
    (0x2028, 0x2029), (0x202F, 0x202F), (0x205F, 0x205F), (0x3000, 0x3000)]

/-- Whether a character is a blank. -/
def isBlank (c : Char) : Bool := covers blankRanges c

/-- A text without the blanks at its start. -/
def skipBlanks (text : List Char) : List Char := text.dropWhile isBlank

/-- A text without the blanks at both ends. -/
def trim (text : List Char) : List Char := (skipBlanks (skipBlanks text).reverse).reverse

/-- The maximal runs of characters that are not blank, in order. -/
def words (text : List Char) : List (List Char) :=
  (text.splitOnP isBlank).filter fun word => !word.isEmpty

/-- A string without the blanks at both ends. -/
def trimmed (text : String) : String := String.ofList (trim text.toList)

end Echelon.Text
