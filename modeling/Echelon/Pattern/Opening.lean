import Echelon.Pattern.Mode
import Echelon.Text.Letter

/-!
# What follows an opening parenthesis

A parenthesis opens a group, which may have a name or flags, or it sets flags for the rest of the
group around it. Groups that look ahead or behind are not supported.
-/

namespace Echelon.Pattern

/-- What a parenthesis opens. -/
inductive Opening where
  | group (mode : Mode)
  | named (name : List Char)
  | setting (mode : Mode)
  deriving DecidableEq, Repr

/-- The letters of the flags. -/
def flagLetters : List Char := ['i', 'm', 's', 'U', 'u', 'R', 'x']

/-- Whether flags are well formed: each once at most, those after a hyphen turned off. -/
def flagsOk (flags : List Char) : Bool :=
  flags.all (fun c => c == '-' || flagLetters.contains c) && decide flags.Nodup &&
    flags.getLast? != some '-'

/-- A mode changed by flags. -/
def Mode.change (m : Mode) (flags : List Char) : Mode :=
  let on := flags.takeWhile (· != '-')
  let off := flags.drop on.length
  let set (flag : Char) (old : Bool) := (old || on.contains flag) && !off.contains flag
  ⟨set 'u' m.unicode, set 'x' m.verbose⟩

/-- The flags after a question mark, up to a colon or the closing parenthesis. -/
def flags? (m : Mode) (text : List Char) : Option (Opening × List Char) :=
  let flags := text.takeWhile fun c => c != ':' && c != ')'
  if !flagsOk flags then none
  else
    match text.drop flags.length with
    | ':' :: rest => some (.group (m.change flags), rest)
    | _ :: rest => if flags.isEmpty then none else some (.setting (m.change flags), rest)
    | [] => none

/-- Whether a text may be the name of a group. -/
def isGroupName : List Char → Bool
  | [] => false
  | first :: rest =>
    (first == '_' || Text.isAlphabetic first) &&
      rest.all fun c => ['_', '.', '[', ']'].contains c || Text.isAlphanumeric c

/-- The name after an angle bracket. -/
def name? (text : List Char) : Option (Opening × List Char) :=
  let name := text.takeWhile (· != '>')
  match text.drop name.length with
  | _ :: rest => if isGroupName name then some (.named name, rest) else none
  | [] => none

/-- What a parenthesis opens, and the text after that. -/
def opening? (m : Mode) (text : List Char) : Option (Opening × List Char) :=
  match m.skip text with
  | '?' :: 'P' :: '<' :: rest => name? rest
  | '?' :: '<' :: rest =>
    if rest.head? == some '=' || rest.head? == some '!' then none else name? rest
  | '?' :: rest => flags? m rest
  | rest => some (.group m, rest)

end Echelon.Pattern
