/-!
# Files

A `FileStore` is what a directory holds: texts and other byte sequences under paths.  `read?` finds
the file at a path, taken from that directory, and reads it as text.

* A path is cut at its slashes; empty parts and single points mean the place where they stand, and
  two points lead to a directory about which nothing else is known.
* A path has fewer than 4096 bytes.  What else is wrong with it is decided from left to right
  (`ReadError`).  A name has at most 255 bytes.
-/

namespace BehaviorTree

/-- Why a file cannot be read as text. -/
inductive ReadError
  | missing
  | isDirectory
  /-- The path leads through a file as if it were a directory. -/
  | notDirectory
  /-- The path is longer than a path may be, or a part of it longer than a name. -/
  | nameTooLong
  | nulInPath
  | notText
  deriving DecidableEq

namespace ReadError

def message : ReadError → String
  | missing => "No such file or directory (os error 2)"
  | isDirectory => "Is a directory (os error 21)"
  | notDirectory => "Not a directory (os error 20)"
  | nameTooLong => "File name too long (os error 36)"
  | nulInPath => "file name contained an unexpected NUL byte"
  | notText => "stream did not contain valid UTF-8"

end ReadError

/-- The files of a directory. -/
structure FileStore where
  /-- The files, each under the parts of its path. -/
  files : List (List String × ByteArray)

namespace FileStore

/-- What a path leads to. -/
inductive Place
  | file (content : ByteArray)
  /-- The directory of the store, or one in it. -/
  | directory (path : List String)
  /-- A directory outside of the store. -/
  | elsewhere

/-- One step from a place along a part of a path. -/
def step (s : FileStore) (place : Place) (part : String) : Except ReadError Place :=
  match place with
  | .file _ => .error .notDirectory
  | .elsewhere =>
    if part == "" || part == "." || part == ".." then .ok .elsewhere
    else if 255 < part.utf8ByteSize then .error .nameTooLong
    else .error .missing
  | .directory path =>
    if part == "" || part == "." then .ok (.directory path)
    else if part == ".." then .ok (if path.isEmpty then .elsewhere else .directory path.dropLast)
    else if 255 < part.utf8ByteSize then .error .nameTooLong
    else
      let path := path ++ [part]
      match s.files.lookup path with
      | some content => .ok (.file content)
      | none =>
        if s.files.any fun (p, _) => path.isPrefixOf p then .ok (.directory path)
        else .error .missing

def parts (path : String) : List String := path.splitOn "/"

/-- The text of the file at a path.  An empty path leads nowhere, and one that begins with a slash
leads out of the store. -/
def read (s : FileStore) (path : String) : Except ReadError String :=
  let start : Place := if path.startsWith "/" then .elsewhere else .directory []
  if path.isEmpty then .error .missing
  else if path.contains '\x00' then .error .nulInPath
  else if 4096 ≤ path.utf8ByteSize then .error .nameTooLong
  else
    match (parts path).foldlM s.step start with
    | .error e => .error e
    | .ok (.file content) =>
      match String.fromUTF8? content with
      | some text => .ok text
      | none => .error .notText
    | .ok _ => .error .isDirectory

end FileStore

end BehaviorTree
