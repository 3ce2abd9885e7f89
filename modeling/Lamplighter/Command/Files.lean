/-! Reading files by name, and a tree of files held in memory. -/

namespace Lamplighter.Command

inductive ReadError where
  | notFound
  | denied
  | notDirectory
  | isDirectory
  | nameTooLong
  | device
  deriving Repr, DecidableEq

namespace ReadError

def code : ReadError → Nat
  | notFound => 2
  | device => 5
  | denied => 13
  | notDirectory => 20
  | isDirectory => 21
  | nameTooLong => 36

def reason : ReadError → String
  | notFound => "No such file or directory"
  | device => "Input/output error"
  | denied => "Permission denied"
  | notDirectory => "Not a directory"
  | isDirectory => "Is a directory"
  | nameTooLong => "File name too long"

end ReadError

/-- What reading a file of some name gives. -/
abbrev Files := String → Except ReadError ByteArray

/-- Files and directories by their names on the way down from the working
directory. Whatever leads to a listed path is a directory too. -/
structure Tree where
  files : List (List String × ByteArray)
  directories : List (List String)

namespace Tree

/-- Where a walk has got to. Outside the tree nothing has a name. -/
inductive Place where
  | directory (path : List String)
  | outside
  | file (content : ByteArray)

/-- The parts of a name between slashes. -/
def parts (name : String) : List String := (name.toList.splitOn '/').map String.ofList

/-- Parts that lead nowhere are dropped. -/
def path (name : String) : List String := (parts name).filter fun part => part ≠ "" && part ≠ "."

def ofNames (files : List (String × ByteArray)) (directories : List String) : Tree :=
  ⟨files.map fun (name, content) => (path name, content), directories.map path⟩

def isDirectory (tree : Tree) (path : List String) : Bool :=
  (tree.directories ++ tree.files.map fun file => file.1.dropLast).any path.isPrefixOf

def maxPart : Nat := 255

def maxName : Nat := 4095

/-- What a name stands for within a place. -/
def enter (tree : Tree) (place : Place) (part : String) : Except ReadError Place :=
  match place with
  | .file _ => .error .notDirectory
  | .outside =>
    if part = "" || part = "." || part = ".." then .ok .outside
    else if maxPart < part.utf8ByteSize then .error .nameTooLong
    else .error .notFound
  | .directory path =>
    if part = "" || part = "." then .ok (.directory path)
    else if part = ".." then .ok (if path.isEmpty then .outside else .directory path.dropLast)
    else if maxPart < part.utf8ByteSize then .error .nameTooLong
    else
      let path := path ++ [part]
      match tree.files.lookup path with
      | some content => .ok (.file content)
      | none => if tree.isDirectory path then .ok (.directory path) else .error .notFound

/-- A name that starts with a slash leads outside. -/
def read (tree : Tree) : Files := fun name =>
  if name = "" then .error .notFound
  else if maxName < name.utf8ByteSize then .error .nameTooLong
  else do
    let start := if name.toList.head? = some '/' then Place.outside else .directory []
    match ← (parts name).foldlM tree.enter start with
    | .file content => return content
    | _ => throw .isDirectory

end Tree
end Lamplighter.Command
