/-!
# Files

A store holds the files and directories that a run can see. Paths are texts with `/` between names;
relative ones start at the working directory. Every failure is a `StoreFault`, whose message is the
one that the system gives for it.
-/

namespace Echelon

-- Contents are compared as in core.
attribute [local instance (high)] ByteArray.instDecidableEq

/-- What stands at a path. -/
inductive Node where
  | file (content : ByteArray)
  | directory
  deriving DecidableEq

/-- A reason why a path could not be read or written. -/
inductive StoreFault where
  | notFound
  | alreadyExists
  | notDirectory
  | isDirectory
  | nameTooLong
  | nulInPath
  | notText
  | tooLarge (path subject : String) (size limit : Nat)
  deriving DecidableEq, Repr

/-- The text shown for a failure. -/
def StoreFault.message : StoreFault → String
  | notFound => "No such file or directory (os error 2)"
  | alreadyExists => "File exists (os error 17)"
  | notDirectory => "Not a directory (os error 20)"
  | isDirectory => "Is a directory (os error 21)"
  | nameTooLong => "File name too long (os error 36)"
  | nulInPath => "file name contained an unexpected NUL byte"
  | notText => "stream did not contain valid UTF-8"
  | tooLarge path subject size limit =>
    "Refusing to read " ++ path ++ ": " ++ subject ++ " too large (" ++ size.repr ++
      " bytes, max " ++ limit.repr ++ ")"

/-- The largest file that is read, in bytes. -/
def fileLimit : Nat := 1048576

/-- The text of what was found at a path; `subject` says what a file that is too large is. -/
def readText (path subject : String) (found : Except StoreFault Node) :
    Except StoreFault String := do
  match ← found with
  | .directory => .error .isDirectory
  | .file content =>
    if fileLimit < content.size then .error (.tooLarge path subject content.size fileLimit)
    else
      match String.fromUTF8? content with
      | some text => .ok text
      | none => .error .notText

/-- The files and directories at absolute locations, and the working directory. The root is a
directory without being listed. -/
structure Store where
  entries : List (List String × Node)
  here : List String
  deriving DecidableEq

namespace Store

/-- What stands at a location, if anything does. -/
def at? (s : Store) (location : List String) : Option Node :=
  if location.isEmpty then some .directory
  else (s.entries.find? fun entry => entry.1 == location).map (·.2)

/-- Puts a node at a location, in place of what stood there. -/
def put (s : Store) (location : List String) (node : Node) : Store :=
  { s with entries := (location, node) :: s.entries.filter fun entry => entry.1 != location }

theorem at?_put (s : Store) {location : List String} (node : Node) (h : location ≠ []) :
    (s.put location node).at? location = some node := by
  simp [at?, put, h]

theorem at?_put_of_ne (s : Store) {location other : List String} (node : Node)
    (h : other ≠ location) : (s.put location node).at? other = s.at? other := by
  have hne : (location == other) = false := by simpa using fun e => h e.symm
  have hfind : (s.entries.filter fun entry => entry.1 != location).find?
      (fun entry => entry.1 == other) = s.entries.find? fun entry => entry.1 == other := by
    rw [List.find?_filter]
    congr 1
    funext entry
    by_cases he : entry.1 = other
    · simp [he, h]
    · simp [he]
  simp only [at?, put, List.find?_cons, hne, hfind]

/-- The names in a path, in order. -/
def names (path : String) : List String := (path.toList.splitOn '/').map String.ofList

/-- The longest path that is followed, in bytes. -/
def pathLimit : Nat := 4095

/-- Where a path starts: at the root, or at the working directory. -/
def start (s : Store) (path : String) : List String :=
  if path.toList.head? = some '/' then [] else s.here

/-- Goes from a directory to the location of one of its names. -/
def enter (s : Store) (location : List String) (name : String) :
    Except StoreFault (List String) :=
  match s.at? location with
  | none => .error .notFound
  | some (.file _) => .error .notDirectory
  | some .directory =>
    if name = "" ∨ name = "." then .ok location
    else if name = ".." then .ok location.dropLast
    else if 255 < name.utf8ByteSize then .error .nameTooLong
    else .ok (location ++ [name])

/-- Why a path is not followed at all, if it is not. -/
def pathFault? (path : String) : Option StoreFault :=
  if path.toList.contains '\x00' then some .nulInPath
  else if pathLimit < path.utf8ByteSize then some .nameTooLong
  else none

/-- The location that the names of a path lead to, unless the path is not followed at all. -/
def walk (s : Store) (path : String) (parts : List String) : Except StoreFault (List String) :=
  match pathFault? path with
  | some fault => .error fault
  | none => parts.foldlM s.enter (s.start path)

/-- The location that a path names. Its last name need not exist yet. -/
def locate (s : Store) (path : String) : Except StoreFault (List String) :=
  if path.isEmpty then .error .notFound else s.walk path (names path)

/-- The locations that a path passes, and the directories above them. -/
def waypoints (s : Store) (path : String) : List (List String) :=
  let go (location : List String) (name : String) :=
    if name = "" ∨ name = "." then location
    else if name = ".." then location.dropLast
    else location ++ [name]
  let passed := (names path).foldl (fun passed name =>
    go (passed.head?.getD (s.start path)) name :: passed) [s.start path]
  (passed.flatMap fun location =>
    (List.range (location.length + 1)).map location.take).eraseDups

/-- What stands at a path. -/
def look (s : Store) (path : String) : Except StoreFault Node := do
  match s.at? (← s.locate path) with
  | some node => .ok node
  | none => .error .notFound

/-- Where a file is to be created. A path that ends with a slash asks for a directory instead: it is
refused as soon as the directory that its last name stands in was found. -/
def locateFile (s : Store) (path : String) : Except StoreFault (List String) := do
  let bare := String.ofList (path.toList.reverse.dropWhile (· == '/')).reverse
  if bare.isEmpty ∨ bare = path then s.locate path
  else
    discard (s.walk path ((names bare).dropLast ++ ["."]))
    .error .isDirectory

/-- Writes a file, creating it or replacing its content. -/
def write (s : Store) (path content : String) : Except StoreFault Store := do
  let location ← s.locateFile path
  match s.at? location with
  | some .directory => .error .isDirectory
  | _ => .ok (s.put location (.file content.toUTF8))

/-- Makes sure that a file exists, keeping what it holds. -/
def touch (s : Store) (path : String) : Except StoreFault Store := do
  let location ← s.locateFile path
  match s.at? location with
  | some .directory => .error .isDirectory
  | some (.file _) => .ok s
  | none => .ok (s.put location (.file ByteArray.empty))

/-- Adds a text to the end of a file, if it is there. -/
def append (s : Store) (path text : String) : Store :=
  match s.locateFile path with
  | .error _ => s
  | .ok location =>
    match s.at? location with
    | some (.file content) => s.put location (.file (content ++ text.toUTF8))
    | _ => s

/-- Makes sure that the directory exists to which some names lead from a location; the last name
comes first. Only that directory is created. -/
def makeDirectory (s : Store) (start : List String) : List String → Store × Option StoreFault
  | [] => (s, none)
  | name :: above =>
    match above.reverse.foldlM s.enter start >>= fun location => s.enter location name with
    | .error fault => (s, some fault)
    | .ok location =>
      match s.at? location with
      | none => (s.put location .directory, none)
      | some .directory => (s, none)
      | some (.file _) => (s, some .alreadyExists)

/-- Makes sure that a directory and the directories above it exist. Those above are looked at only
if the first attempt shows that one is missing. -/
def makeDirectoriesUp (s : Store) (start : List String) :
    List String → Store × Option StoreFault
  | [] => (s, none)
  | name :: above =>
    match s.makeDirectory start (name :: above) with
    | (_, some .notFound) =>
      match s.makeDirectoriesUp start above with
      | (s, none) => s.makeDirectory start (name :: above)
      | failed => failed
    | done => done

/-- Creates a directory and the directories that lead to it: the files as far as that goes, and
what stopped it. -/
def makeDirectories (s : Store) (path : String) : Store × Option StoreFault :=
  if path.isEmpty then (s, none)
  else
    match pathFault? path with
    | some fault => (s, some fault)
    | none => s.makeDirectoriesUp (s.start path) (names path).reverse

/-- Whether a name in a path leads no further. -/
def isIdle (name : String) : Bool := name == "" || name == "."

/-- The path of the directory that a path stands in, if the path has a name: its text up to the last
name. Idle names there do not count, except for one that the path starts with; those between other
names stay. -/
def parent? (path : String) : Option String :=
  let all := names path
  let lead := (all.take 1).filter isIdle
  match (all.drop lead.length).reverse.dropWhile isIdle with
  | [] => if lead = ["."] then some "" else none
  | _ :: above =>
    let kept := lead ++ (above.dropWhile isIdle).reverse
    some (if kept = [""] then "/" else "/".intercalate kept)

end Store

end Echelon
