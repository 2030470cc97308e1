/-!
# Storage

Programs are read from storage, which gives the content of the file at a path or says why it
cannot. Where the files are kept is left open: a storage is any function from paths to contents.
`Storage.readText` adds the condition that the content is text.
-/

namespace ByteMachine

/-- Why a file cannot be read. -/
inductive ReadError where
  /-- Nothing has that path. -/
  | notFound
  /-- The path leads to a directory. -/
  | isDirectory
  /-- The path goes on behind a file. -/
  | notDirectory
  /-- The path or a name in it is too long. -/
  | nameTooLong
  /-- The path holds a character that cannot stand in one. -/
  | invalidName
  /-- The content of the file is not UTF-8. -/
  | invalidText
  /-- Something else, in the words of the system. -/
  | other (text : String)
deriving DecidableEq, Repr

/-- The text of a read error. -/
def ReadError.message : ReadError → String
  | notFound => "No such file or directory (os error 2)"
  | isDirectory => "Is a directory (os error 21)"
  | notDirectory => "Not a directory (os error 20)"
  | nameTooLong => "File name too long (os error 36)"
  | invalidName => "file name contained an unexpected NUL byte"
  | invalidText => "stream did not contain valid UTF-8"
  | other text => text

/-- A place from which files are read. -/
structure Storage where
  /-- The content of the file at a path. -/
  read : (path : String) → Except ReadError ByteArray

namespace Storage

/-- The text that a content is. -/
def decode (content : ByteArray) : Except ReadError String :=
  match String.fromUTF8? content with
  | some text => .ok text
  | none => .error .invalidText

/-- The text of the file at a path. -/
def readText (s : Storage) (path : String) : Except ReadError String :=
  s.read path >>= decode

end Storage

end ByteMachine
