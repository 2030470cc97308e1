import ByteMachine.Storage

/-!
# Folders

A folder with everything below it, as a storage. It is the place where relative paths start.

A path is walked name by name. An empty name, as between two slashes or behind the last one, and
the name `.` stay where they are, but they too need a folder to stand in: `p/` is not another way
to write the file `p`. The name `..` goes up. Nothing is known about what lies outside, above the
folder the walk started in, except that it is made of folders: from there, `.` and `..` lead to
folders again, and no name is found.
-/

namespace ByteMachine

/-- A place below the starting folder: the names on the way to it, the last one first. -/
abbrev Place := List String

/-- A folder, by the places of the files and of the further folders in it. A folder is also wherever
the way to one of these leads through. -/
structure Folder where
  files : List (Place × ByteArray)
  folders : List Place

namespace Folder

/-- The longest name, in bytes. -/
def nameLimit : Nat := 255

/-- The longest path, in bytes. -/
def pathLimit : Nat := 4095

/-- What is found at a place. -/
inductive Node where
  | file (content : ByteArray)
  | folder (place : Place)
  /-- A folder above the starting one. -/
  | outside

/-- There is a folder at that place: something is listed below it, or it is listed itself. -/
def hasFolder (f : Folder) (place : Place) : Bool :=
  place.isEmpty || f.folders.any (place.isSuffixOf ·) || f.files.any (place.isSuffixOf ·.1)

/-- What is found at a place below the starting folder. -/
def node? (f : Folder) (place : Place) : Option Node :=
  match f.files.lookup place with
  | some content => some (.file content)
  | none => if f.hasFolder place then some (.folder place) else none

/-- Follows one name of a path. -/
def follow (f : Folder) : Node → (name : String) → Except ReadError Node
  -- behind a file nothing goes on, not even by an empty name
  | .file _, _ => .error .notDirectory
  | node, "" => .ok node
  | node, "." => .ok node
  | .outside, ".." => .ok .outside
  | .folder place, ".." => .ok (if place.isEmpty then .outside else .folder place.tail)
  | node, name =>
    if name.utf8ByteSize > nameLimit then
      .error .nameTooLong
    else
      match node with
      | .folder place => (f.node? (name :: place)).elim (.error .notFound) .ok
      | _ => .error .notFound

/-- The names in a path. -/
def names (path : String) : List String :=
  (path.toList.splitOn '/').map String.ofList

/-- The content of the file at a path. A path that begins with a slash starts outside. -/
def read (f : Folder) (path : String) : Except ReadError ByteArray := do
  -- these are refused before anything is looked up
  if path.any (· == '\x00') then
    throw .invalidName
  if path.isEmpty then
    throw .notFound
  if path.utf8ByteSize > pathLimit then
    throw .nameTooLong
  let start := if path.startsWith "/" then Node.outside else .folder []
  match ← (names path).foldlM f.follow start with
  | .file content => return content
  | _ => throw .isDirectory

/-- A folder as a storage. -/
def storage (f : Folder) : Storage := ⟨f.read⟩

/-- The place that a path from the starting folder leads to. -/
def place (path : String) : Place :=
  (names path).foldl
    (fun place name =>
      if name = "" ∨ name = "." then place else if name = ".." then place.tail else name :: place)
    []

/-- The folder with the given entries. An entry whose path ends in a slash is a folder itself, every
other one is a file. -/
def ofEntries (entries : List (String × ByteArray)) : Folder where
  files := entries.filterMap fun (path, content) =>
    if path.endsWith "/" then none else some (place path, content)
  folders := entries.filterMap fun (path, _) =>
    if path.endsWith "/" then some (place path) else none

end Folder

end ByteMachine
