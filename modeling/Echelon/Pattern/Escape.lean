import Echelon.Number.Digits
import Echelon.Pattern.Mode

/-!
# Escapes

What a backslash and the characters after it stand for in a search pattern.
-/

namespace Echelon.Pattern

/-- What a unit of a pattern stands for: a character, one of several characters, or a condition on
the place of the match. -/
inductive Atom where
  | literal (c : Char)
  | choice
  | assertion
  deriving DecidableEq, Repr

/-- The next `count` characters, which have to be hexadecimal digits, and the text after them. -/
def hexDigits? (m : Mode) : Nat → List Char → Option (List Char × List Char)
  | 0, text => some ([], text)
  | count + 1, text =>
    match m.skip text with
    | [] => none
    | c :: rest => do
      let (digits, rest) ← hexDigits? m count rest
      if (Digits.digit? c).isSome then some (c :: digits, rest) else none

/-- The character written by a code point of `count` digits. One of two digits is a byte, and bytes
beyond ASCII are no text. -/
def codePoint? (m : Mode) (count : Nat) (text : List Char) : Option (Atom × List Char) := do
  let (digits, rest) ← hexDigits? m count text
  let c ← Digits.char? digits
  if count == 2 && !m.unicode && 0x80 ≤ c.toNat then none else some (.literal c, rest)

/-- The letters of the general categories of characters. -/
def categories : List Char := ['C', 'L', 'M', 'N', 'P', 'S', 'Z']

/-- The characters of a general category, whose letter starts the text. -/
def category? (m : Mode) (text : List Char) : Option (Atom × List Char) :=
  match m.skip text with
  | c :: rest =>
    if m.unicode && categories.contains c.toUpper then some (.choice, rest) else none
  | [] => none

/-- The control character that a letter stands for. -/
def control? : Char → Option Char
  | 'a' => some '\x07'
  | 't' => some '\t'
  | 'n' => some '\n'
  | 'v' => some '\x0b'
  | 'f' => some '\x0c'
  | 'r' => some '\r'
  | _ => none

/-- What a backslash stands for with a character that needs no more after it. The ends of words are
found among bytes only. The complement of a class has bytes beyond ASCII, which are no text. -/
def simpleEscape? (m : Mode) (c : Char) : Option Atom :=
  if ['d', 's', 'w'].contains c then some .choice
  else if ['D', 'S', 'W'].contains c then if m.unicode then some .choice else none
  else if ['b', 'B', '<', '>'].contains c then if m.unicode then none else some .assertion
  else if ['A', 'z'].contains c then some .assertion
  else if c.isAlphanum || 0x80 ≤ c.toNat then (control? c).map .literal
  else some (.literal c)

/-- What a backslash stands for with the text after it. -/
def escape? (m : Mode) : List Char → Option (Atom × List Char)
  | [] => none
  | 'x' :: rest => codePoint? m 2 rest
  | 'u' :: rest => codePoint? m 4 rest
  | 'U' :: rest => codePoint? m 8 rest
  | 'p' :: rest => category? m rest
  | 'P' :: rest => category? m rest
  | c :: rest => (simpleEscape? m c).map (·, rest)

end Echelon.Pattern
