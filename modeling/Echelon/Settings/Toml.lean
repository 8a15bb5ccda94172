import Echelon.Number.Digits

/-!
# Flat TOML

The part of TOML 1.0 that settings are written in: lines `key = value` with a bare or quoted key and
a string, an integer or a truth value, blank lines, and comments. A text that uses more of TOML, or
that is not TOML, is not read: `assignments?` answers `none`.

Readers take the text from a position on and answer what they read with the text after it.
-/

namespace Echelon.Toml

/-- A value that a setting can have. -/
inductive Value where
  | text (value : String)
  | integer (value : Int)
  | boolean (value : Bool)
  deriving DecidableEq, Repr

def isSpace (c : Char) : Bool := c == ' ' || c == '\t'

/-- Whether a character may stand for itself in a comment or a string. -/
def isPlain (c : Char) : Bool := c == '\t' || (0x20 ≤ c.toNat && c.toNat != 0x7F)

def skipSpaces (text : List Char) : List Char := text.dropWhile isSpace

/-- The text after a line end. -/
def newline? : List Char → Option (List Char)
  | '\n' :: rest => some rest
  | '\r' :: '\n' :: rest => some rest
  | _ => none

/-- The text after the rest of a line that holds nothing but spaces and a comment. -/
def lineRest? (text : List Char) : Option (List Char) :=
  let rest := match skipSpaces text with
    | '#' :: comment => comment.dropWhile isPlain
    | rest => rest
  if rest.isEmpty then some [] else newline? rest

/-- The character with the code point written by the given count of hexadecimal digits. -/
def codePoint? (count : Nat) (text : List Char) : Option (Char × List Char) := do
  let digits := text.take count
  if digits.length < count then none
  else return (← Digits.char? digits, text.drop count)

/-- The character that is written by what follows a backslash. -/
def escape? : List Char → Option (Char × List Char)
  | 'b' :: rest => some ('\x08', rest)
  | 't' :: rest => some ('\t', rest)
  | 'n' :: rest => some ('\n', rest)
  | 'f' :: rest => some ('\x0c', rest)
  | 'r' :: rest => some ('\r', rest)
  | '\x22' :: rest => some ('\x22', rest)
  | '\\' :: rest => some ('\\', rest)
  | 'u' :: rest => codePoint? 4 rest
  | 'U' :: rest => codePoint? 8 rest
  | _ => none

/-- The text after the spaces and line ends that a backslash at the end of a line joins over. -/
def joinLines? (text : List Char) : Option (List Char) := do
  let rest ← newline? (skipSpaces text)
  let isGap (c : Char) := isSpace c || c == '\n' || c == '\r'
  let gap := rest.takeWhile isGap
  -- A carriage return belongs to a gap only before a line feed.
  let stray := (gap.zip (rest.drop 1 ++ ['\x00'])).any fun (c, next) => c == '\r' && next != '\n'
  if stray then none else some (rest.dropWhile isGap)

/-- A string in double quotes on one line, after its opening quote. -/
def basicString? (fuel : Nat) (read : List Char) : List Char → Option (List Char × List Char)
  | [] => none
  | '\x22' :: rest => some (read.reverse, rest)
  | '\\' :: rest =>
    match fuel, escape? rest with
    | fuel + 1, some (c, rest) => basicString? fuel (c :: read) rest
    | _, _ => none
  | c :: rest =>
    match fuel with
    | fuel + 1 => if isPlain c then basicString? fuel (c :: read) rest else none
    | 0 => none

/-- A string in single quotes on one line, after its opening quote. -/
def literalString? (text : List Char) : Option (List Char × List Char) :=
  let content := text.takeWhile fun c => isPlain c && c != '\x27'
  match text.drop content.length with
  | '\x27' :: rest => some (content, rest)
  | _ => none

/-- The end of a string between threefold quotes: up to two quotes that belong to the string, and
the text after the closing ones. -/
def closing? (quote : Char) (text : List Char) : Option (List Char × List Char) :=
  let count := (text.takeWhile (· == quote)).length
  if count < 3 then none
  else
    let inside := min 2 (count - 3)
    some (List.replicate inside quote, text.drop (inside + 3))

/-- A string over several lines, after its opening quotes. Backslashes are special in one between
double quotes. -/
def longString? (quote : Char) (fuel : Nat) (read text : List Char) :
    Option (List Char × List Char) :=
  match fuel, closing? quote text, text with
  | _, some (inside, rest), _ => some (read.reverse ++ inside, rest)
  | 0, none, _ => none
  | _ + 1, none, [] => none
  | fuel + 1, none, c :: rest =>
    if c == '\\' && quote == '\x22' then
      match joinLines? rest, escape? rest with
      | some rest, _ => longString? quote fuel read rest
      | none, some (c, rest) => longString? quote fuel (c :: read) rest
      | none, none => none
    else if isPlain c then longString? quote fuel (c :: read) rest
    else
      match newline? text with
      | some rest => longString? quote fuel ('\n' :: read) rest
      | none => none

/-- A string of any of the four kinds. -/
def string? (text : List Char) : Option (List Char × List Char) :=
  let long (quote : Char) (rest : List Char) :=
    let rest := (newline? rest).getD rest
    longString? quote (rest.length + 1) [] rest
  match text with
  | '\x22' :: '\x22' :: '\x22' :: rest => long '\x22' rest
  | '\x22' :: rest => basicString? (rest.length + 1) [] rest
  | '\x27' :: '\x27' :: '\x27' :: rest => long '\x27' rest
  | '\x27' :: rest => literalString? rest
  | _ => none

/-- The value of the digits of a number in a base, between which single underscores may stand. -/
def naturalValue? (base : Nat) (text : List Char) : Option Nat :=
  let groups := text.splitOn '_'
  if groups.any List.isEmpty then none else Digits.value? base groups.flatten

/-- An integer: decimal with an optional sign and no needless zero, or with a base. -/
def integerValue? : List Char → Option Int
  | '0' :: 'x' :: digits => (naturalValue? 16 digits).map Int.ofNat
  | '0' :: 'o' :: digits => (naturalValue? 8 digits).map Int.ofNat
  | '0' :: 'b' :: digits => (naturalValue? 2 digits).map Int.ofNat
  | '-' :: digits => (decimal? digits).map fun n => -(n : Int)
  | '+' :: digits => (decimal? digits).map Int.ofNat
  | digits => (decimal? digits).map Int.ofNat
where
  decimal? (digits : List Char) : Option Nat :=
    if digits.head? = some '0' ∧ digits ≠ ['0'] then none else naturalValue? 10 digits

/-- Whether a character belongs to a bare word. -/
def isWordChar (c : Char) : Bool := c.isAlphanum || c == '_' || c == '-' || c == '+' || c == '.'

/-- The value at the start of a text. -/
def value? (text : List Char) : Option (Value × List Char) :=
  match string? text with
  | some (content, rest) => some (.text (String.ofList content), rest)
  | none =>
    let word := text.takeWhile isWordChar
    let rest := text.drop word.length
    if word = "true".toList then some (.boolean true, rest)
    else if word = "false".toList then some (.boolean false, rest)
    else (integerValue? word).map fun n => (.integer n, rest)

/-- The key at the start of a text: a bare word, or a string on one line. -/
def key? (text : List Char) : Option (String × List Char) :=
  let isBare (c : Char) := c.isAlphanum || c == '_' || c == '-'
  let quoted := match text with
    | '\x22' :: rest => basicString? (rest.length + 1) [] rest
    | '\x27' :: rest => literalString? rest
    | _ =>
      let word := text.takeWhile isBare
      if word.isEmpty then none else some (word, text.drop word.length)
  quoted.map fun (word, rest) => (String.ofList word, rest)

/-- The assignment on a line, and the text after the line. -/
def assignment? (text : List Char) : Option ((String × Value) × List Char) := do
  let (key, rest) ← key? text
  match skipSpaces rest with
  | '=' :: rest =>
    let (value, rest) ← value? (skipSpaces rest)
    return ((key, value), ← lineRest? rest)
  | _ => none

/-- The assignments of the lines from a position on, after those already read. -/
def assignmentsFrom? (fuel : Nat) (read : List (String × Value)) (text : List Char) :
    Option (List (String × Value)) :=
  match fuel, skipSpaces text with
  | _, [] => some read.reverse
  | 0, _ => none
  | fuel + 1, c :: rest =>
    if c == '#' || c == '\n' || c == '\r' then
      match lineRest? (c :: rest) with
      | some rest => assignmentsFrom? fuel read rest
      | none => none
    else
      match assignment? (c :: rest) with
      | some (entry, rest) => assignmentsFrom? fuel (entry :: read) rest
      | none => none

/-- The assignments of a text in order; a byte order mark at its start does not count. -/
def assignments? (text : String) : Option (List (String × Value)) :=
  let chars := match text.toList with
    | '\uFEFF' :: rest => rest
    | chars => chars
  assignmentsFrom? (chars.length + 1) [] chars

end Echelon.Toml
