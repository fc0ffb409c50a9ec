/-
The files below the working directory. A path text is walked name by name, so that `.` and `..`
lead through directories that exist. The directories above the working directory and the root are
there too, but only what was put there can be seen in them.
-/
import PassCheck.Failure
import PassCheck.Text.Lines
import PassCheck.World.Path

namespace PassCheck

/-- A place: the names that lead to it from the working directory. The root is a name of its own. -/
abbrev Place := List String

namespace Place

/-- The root directory. -/
def root : Place := ["/"]

/-- Whether a place is the working directory or one of the directories above it. -/
def isAbove (p : Place) : Bool := p.all (· == "..")

/-- Whether a place is neither the working directory nor below it. -/
def isOutside (p : Place) : Bool := p.head? == some "/" || p.head? == some ".."

/-- The directory that holds a place; the root holds itself. -/
def parent (p : Place) : Place :=
  if p == root then root else if isAbove p then p ++ [".."] else p.dropLast

end Place

/-- What stands at a place. -/
inductive Node where
  | file (content : ByteArray)
  | dir
deriving Inhabited

/-- Files are the same when they hold the same bytes. -/
instance : DecidableEq Node
  | .dir, .dir => isTrue rfl
  | .dir, .file _ => isFalse nofun
  | .file _, .dir => isFalse nofun
  | .file ⟨a⟩, .file ⟨b⟩ =>
    if h : a = b then isTrue (by rw [h]) else isFalse fun e => h (by cases e; rfl)

/-- The files and directories below the working directory. -/
structure Files where
  entries : List (Place × Node)
deriving DecidableEq, Inhabited

namespace Files

/-- An empty working directory. -/
def empty : Files := ⟨[]⟩

/-- Directories below the root that every system has. -/
def systemDirs : List String :=
  ["bin", "boot", "dev", "etc", "home", "lib", "media", "mnt", "opt", "proc", "root", "run", "sbin",
    "srv", "sys", "tmp", "usr", "var"]

/-- What always stands at a place: the working directory and those above it, the root with the
directories of the system, and a file that keeps nothing. -/
def standing? (p : Place) : Option Node :=
  if p.isAbove || p == Place.root then some .dir
  else
    match p with
    | ["/", name] => if systemDirs.contains name then some .dir else none
    | ["/", "dev", "null"] => some (.file ByteArray.empty)
    | _ => none

/-- What stands at a place. -/
def node? (fs : Files) (p : Place) : Option Node :=
  (standing? p).or ((fs.entries.find? fun e => e.1 == p).map (·.2))

/-- Puts a node at a place, over one that may be there. -/
def put (fs : Files) (p : Place) (n : Node) : Files :=
  if fs.entries.any fun e => e.1 == p then
    ⟨fs.entries.map fun e => if e.1 == p then (p, n) else e⟩
  else ⟨fs.entries ++ [(p, n)]⟩

/-- Removes what stands at a place. -/
def erase (fs : Files) (p : Place) : Files := ⟨fs.entries.filter fun e => e.1 != p⟩

/-- The most bytes a name may have. -/
def nameLimit : Nat := 255

/-- The least number of bytes that a path may not have. -/
def pathLimit : Nat := 4096

/-- Walks from a place along names. Every place passed must be a directory, and a name that is too
long leads nowhere. -/
def walk (fs : Files) : Place → List String → Except Failure Place
  | here, [] => .ok here
  | here, name :: names =>
    match fs.node? here with
    | none => .error .noFile
    | some (.file _) => .error .notDirectory
    | some .dir =>
      if name == "" || name == "." then walk fs here names
      else if name == ".." then walk fs here.parent names
      else if nameLimit < name.utf8ByteSize then .error .system
      else walk fs (here ++ [name]) names

/-- Whether a path can be asked for at all: it may not hold the character zero. -/
def askable (path : List Char) : Bool := !path.contains (Char.ofNat 0)

/-- The place a path text leads to. A path that starts with a slash starts at the root. -/
def locate (fs : Files) (path : String) : Except Failure Place :=
  let cs := path.toList
  if !askable cs then .error (.badValue none)
  else if cs.isEmpty then .error .noFile
  else if pathLimit ≤ path.utf8ByteSize then .error .system
  else fs.walk (if cs.head? = some '/' then Place.root else []) ((Path.names cs).map String.ofList)

/-- Whether something stands where a path leads. -/
def present (fs : Files) (path : String) : Bool :=
  match fs.locate path with
  | .ok p => (fs.node? p).isSome
  | .error _ => false

/-- Whether a directory stands where a path leads. -/
def isDir (fs : Files) (path : String) : Bool :=
  match fs.locate path with
  | .ok p => fs.node? p == some .dir
  | .error _ => false

/-- The content of the file at a path. -/
def read (fs : Files) (path : String) : Except Failure ByteArray := do
  let p ← fs.locate path
  match fs.node? p with
  | none => .error .noFile
  | some .dir => .error .isDirectory
  | some (.file content) => return content

/-- Writes the file at a path; its directory must be there. -/
def write (fs : Files) (path : String) (content : ByteArray) : Except Failure Files := do
  let p ← fs.locate path
  match fs.node? p with
  | some .dir => .error .isDirectory
  | _ => return fs.put p (.file content)

/-- Removes the file at a path. -/
def remove (fs : Files) (path : String) : Except Failure Files := do
  let p ← fs.locate path
  match fs.node? p with
  | none => .error .noFile
  | some .dir => .error .isDirectory
  | some (.file _) => return fs.erase p

/-- Makes a directory, unless something stands there. Slashes at the end do not count. -/
def makeDir (fs : Files) (path : List Char) : Except Failure Files := do
  let p ← fs.locate (String.ofList (Path.trimmed path))
  if (fs.node? p).isSome then .error .fileExists else return fs.put p .dir

/-- Makes a directory, unless one stands there. -/
def ensureDir (fs : Files) (path : List Char) : Except Failure Files :=
  match fs.makeDir path with
  | .ok fs => .ok fs
  | .error e => if fs.isDir (String.ofList path) then .ok fs else .error e

/-- Makes a directory and those above it, where they are missing. The fuel is the number of
characters. -/
def ensureDirs : (fuel : Nat) → List Char → Files → Except Failure Files
  | 0, _, fs => .ok fs
  | fuel + 1, path, fs => do
    let whole := Path.trimmed path
    let above := Path.dirChars whole
    if above.isEmpty || whole.isEmpty || fs.present (String.ofList above) then fs.ensureDir path
    else
      let fs ← match ensureDirs fuel above fs with
        | .error .fileExists => pure fs
        | r => r
      if Path.baseChars whole = ['.'] then return fs
      fs.ensureDir path

/-- Makes a directory at a path, with all directories that lead to it. -/
def installDir (fs : Files) (path : String) : Except Failure Files :=
  ensureDirs path.length path.toList fs

/-- Writes the file at a path and makes the directories that lead to it. -/
def install (fs : Files) (path : String) (content : ByteArray) : Except Failure Files := do
  let dir := Path.dir path
  let fs ← if dir = "" then pure fs else fs.installDir dir
  fs.write path content

/-- The names in the directory at a path, with what they name; empty when there is none. -/
def list (fs : Files) (path : String) : List (String × Node) :=
  match fs.locate path with
  | .error _ => []
  | .ok p =>
    if fs.node? p == some .dir then
      fs.entries.filterMap fun e =>
        match e.1.getLast? with
        | some name => if e.1.dropLast == p then some (name, e.2) else none
        | none => none
    else []

/-- The files below the working directory that differ from what stood at their places before. -/
def changes (after before : Files) : List (Place × ByteArray) :=
  after.entries.filterMap fun e =>
    match e.2 with
    | .dir => none
    | .file content =>
      if e.1.isOutside || before.node? e.1 == some e.2 then none else some (e.1, content)

end Files

/-- The text of bytes in UTF-8, every line end turned into LF. -/
def decodeText? (content : ByteArray) : Option (List Char) :=
  (String.fromUTF8? content).map fun s => Text.unifyNewlines s.toList

end PassCheck
