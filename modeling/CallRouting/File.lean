import CallRouting.Text.Quoted

/-!
# Files

What the program needs of a file system: what reading a path comes to, and what opening one for
writing at its end does. A path is written with
slashes; for messages and for reading it is brought into a plain form without doubled slashes and
without points that stand for the place itself.

A `FileTree` is a file system in memory, for use without a disk.
-/

namespace CallRouting

/-! ## Paths -/

namespace Path

/-- The names that a path is made of. -/
def names (path : String) : List String :=
  (path.splitOn "/").filter fun name => name ≠ "" ∧ name ≠ "."

/-- The slashes that a path from the root starts with: two are kept, any other count is one. -/
def root (path : String) : String :=
  match (path.toList.takeWhile (· = '/')).length with
  | 0 => ""
  | 2 => "//"
  | _ => "/"

/-- Whether a path holds the character that no path of a file can hold. -/
def isImpossible (path : String) : Bool := path.toList.contains '\x00'

/-- The plain form of a path. -/
def plain (path : String) : String :=
  let text := root path ++ "/".intercalate (names path)
  if text.isEmpty then "." else text

end Path

/-! ## Reading -/

/-- Why a path cannot be read. -/
inductive FileFault where
  | missing
  | notDirectory
  | isDirectory
  | nameTooLong
  | noPermission
  | other (number : Nat) (text : String)
  deriving DecidableEq, Repr

/-- The sentence that reports why a path cannot be read. -/
def FileFault.message (f : FileFault) (path : String) : String :=
  let (number, text) :=
    match f with
    | .missing => (2, "No such file or directory")
    | .noPermission => (13, "Permission denied")
    | .notDirectory => (20, "Not a directory")
    | .isDirectory => (21, "Is a directory")
    | .nameTooLong => (36, "File name too long")
    | .other number text => (number, text)
  s!"[Errno {number}] {text}: {Text.quoted path}"

/-- What reading a path comes to. -/
abbrev Files := String → Except FileFault (List UInt8)

/-- Whether there is something at a path, be it a file or a directory; or why that cannot be
told. -/
def Files.look (files : Files) (path : String) : Except FileFault Bool :=
  if Path.isImpossible path then .ok false
  else
    match files (Path.plain path) with
    | .ok _ | .error .isDirectory => .ok true
    | .error .missing | .error .notDirectory => .ok false
    | .error fault => .error fault

/-! ## Opening -/

/-- Why a file cannot be opened for writing, with its path as the system reports it. -/
structure OpenFault where
  path : String
  fault : FileFault
  deriving DecidableEq, Repr

/-- The sentence that reports why a file cannot be opened. -/
def OpenFault.message (f : OpenFault) : String := f.fault.message f.path

/-- What opening a path comes to, to write at the end of the file: the files as they are from then
on, for one that was missing is there now. -/
abbrev Opening := String → Except OpenFault Files

/-! ## Files in memory -/

/-- A place in a file tree, by the names that lead to it; or a place outside of the tree, about
which nothing is known. -/
inductive TreePlace where
  | inside (names : List String)
  | outside
  deriving DecidableEq, Repr

/-- Files and directories by their paths; nothing stands for a directory. -/
structure FileTree where
  entries : List (List String × Option (List UInt8))

namespace FileTree

/-- The tree with the given files and directories. -/
def ofList (entries : List (String × Option (List UInt8))) : FileTree :=
  ⟨entries.map fun (path, content) => (Path.names path, content)⟩

/-- What is at a place: nothing, a directory, or a file. -/
def at? (tree : FileTree) (names : List String) : Option (Option (List UInt8)) :=
  match tree.entries.find? (·.1 = names) with
  | some (_, content) => some content
  | none =>
    if names.isEmpty || tree.entries.any (names.isPrefixOf ·.1) then some none else none

/-- The most bytes that a name may have. -/
def maxName : Nat := 255

/-- The most bytes that a path may have. -/
def maxPath : Nat := 4095

/-- Goes on from a place along names. -/
def walk (tree : FileTree) : TreePlace → List String → Except FileFault (List UInt8)
  | .outside, [] => .error .isDirectory
  | .outside, name :: rest =>
    if maxName < name.utf8ByteSize then .error .nameTooLong
    else if name = ".." then tree.walk .outside rest
    else .error .missing
  | .inside here, [] =>
    match tree.at? here with
    | some (some content) => .ok content
    | some none => .error .isDirectory
    | none => .error .missing
  | .inside here, name :: rest =>
    match tree.at? here with
    | none => .error .missing
    | some (some _) => .error .notDirectory
    | some none =>
      if maxName < name.utf8ByteSize then .error .nameTooLong
      else if name = ".." then
        tree.walk (if here.isEmpty then .outside else .inside here.dropLast) rest
      else tree.walk (.inside (here ++ [name])) rest

/-- The files of a tree. -/
def files (tree : FileTree) : Files := fun path =>
  if maxPath < path.utf8ByteSize then .error .nameTooLong
  else tree.walk (if (Path.root path).isEmpty then .inside [] else .outside) (Path.names path)

end FileTree

end CallRouting
