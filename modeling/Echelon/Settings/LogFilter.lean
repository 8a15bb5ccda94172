import Echelon.Number.Literal
import Echelon.Pattern
import Echelon.Text.Letter
import Echelon.Text.Offset

/-!
# Log filters

A log filter is a list of directives separated by commas. A directive names a level, or what is
logged, or both: `info`, `parser`, `parser=debug`, `[span]=trace`, `[span{field=1}]`. Which entries
pass a filter is for the platform to say; here it is only whether a filter is well formed.

Blanks around a directive do not matter for where its parts are. The positions of the parts count
from its first character that is not blank, but the parts are cut out of the directive with its
blanks, so that blanks before it move them.
-/

namespace Echelon.LogFilter

/-- Where the parts of a directive are that can make it wrong, in bytes. -/
structure Outline where
  /-- The start and the end of the field. -/
  field : Option (Nat × Nat)
  /-- The start of the level, which goes to the end of the directive. -/
  level : Option Nat
  deriving DecidableEq, Repr

/-- The outline of a directive after `]`: an optional level follows. -/
def afterSpan? (field : Option (Nat × Nat)) (offset : Nat) : List Char → Option Outline
  | [] => some ⟨field, none⟩
  | '=' :: _ => some ⟨field, some (offset + 1)⟩
  | _ => none

/-- The outline inside braces, where the field started at `start`. -/
def inField? (start offset : Nat) : List Char → Option Outline
  | '\x7d' :: ']' :: rest => afterSpan? (some (start, offset)) (offset + 2) rest
  | '\x7d' :: _ => none
  | c :: rest => inField? start (offset + c.utf8Size) rest
  | [] => none

/-- The outline inside brackets: the name of a span, and perhaps a field in braces. -/
def inSpan? (offset : Nat) : List Char → Option Outline
  | ']' :: rest => afterSpan? none (offset + 1) rest
  | '\x7b' :: rest => inField? (offset + 1) (offset + 1) rest
  | c :: rest => inSpan? (offset + c.utf8Size) rest
  | [] => none

/-- The outline after the first character of a name. -/
def inName? (offset : Nat) : List Char → Option Outline
  | '=' :: _ => some ⟨none, some (offset + 1)⟩
  | '[' :: rest => inSpan? (offset + 1) rest
  | c :: rest => inName? (offset + c.utf8Size) rest
  | [] => some ⟨none, none⟩

/-- The outline of a directive without blanks around it. -/
def outline? : List Char → Option Outline
  | '[' :: rest => inSpan? 1 rest
  | c :: rest =>
    if ['-', ':', '_'].contains c || Text.isAlphanumeric c then inName? c.utf8Size rest else none
  | [] => none

/-- The names of the levels. -/
def levelNames : List String := ["error", "warn", "info", "debug", "trace", "off"]

/-- Whether a text is a level: nothing, a name in any mixture of cases, or a number up to five. -/
def isLevel (text : List Char) : Bool :=
  let digits := if text.head? == some '+' then text.drop 1 else text
  text.isEmpty || (levelNames.map String.toList).contains (text.map Char.toLower) ||
    (!digits.isEmpty && digits.all Char.isDigit && Nat.ofDigitChars 10 digits 0 ≤ 5)

/-- Whether a text is a field: a name, and perhaps a number or a pattern that its value has. -/
def isField (text : List Char) : Bool :=
  !text.isEmpty &&
    match text.splitOn '=' with
    | _ :: value :: _ => (Literal.read? value).isSome || Pattern.isValid value
    | _ => true

/-- Whether a text is a directive. -/
def isDirective (text : List Char) : Bool :=
  match outline? (Text.trim text) with
  | none => false
  | some outline =>
    outline.field.all (fun (first, last) => isField (Text.slice first last text)) &&
      outline.level.all fun start => isLevel (Text.splitAtByte start text).after

/-- Whether a filter is well formed. Empty pieces between commas are passed over. -/
def isValid (filter : String) : Bool :=
  ((filter.toList.splitOn ',').filter fun text => !text.isEmpty).all isDirective

end Echelon.LogFilter
