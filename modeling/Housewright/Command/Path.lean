/-!
# Paths and what stands at them

A path is the list of names on it.  Empty names and `.` say nothing and are dropped, so that
every way to write a path has one text; `..` stays, because what it leads to depends on the
files.

`Entry` is what stands at a path.  `FileTree` is a set of files below one directory, and
`FileTree.look` tells what stands at a path from there.  `writeFault?` is what keeps a file
from being written where the missing directories on its path are made first.
-/

namespace Housewright.Command

/-- A path.  The root is empty for a path from where the program runs. -/
structure Path where
  root : String
  names : List String
  deriving DecidableEq, Repr

/-- The text cut at every slash. -/
def splitNames : List Char → List (List Char)
  | [] => [[]]
  | c :: rest =>
    if c = '/' then [] :: splitNames rest
    else
      match splitNames rest with
      | [] => [[c]]
      | name :: names => (c :: name) :: names

namespace Path

/-- The path that a text writes.  Two slashes in front are another root than one, or than
three and more. -/
def ofText (s : String) : Path :=
  let slashes := (s.toList.takeWhile (· = '/')).length
  { root := if slashes = 0 then "" else if slashes = 2 then "//" else "/"
    names := ((splitNames s.toList).map String.ofList).filter fun n => n ≠ "" ∧ n ≠ "." }

/-- The text of a path. -/
def text (p : Path) : String :=
  if p.names.isEmpty ∧ p.root = "" then "." else p.root ++ String.intercalate "/" p.names

/-- The path without its last name. -/
def parent (p : Path) : Path := { p with names := p.names.dropLast }

/-- The paths that a path leads through, without itself. -/
def ancestors (p : Path) : List Path :=
  (List.range p.names.length).map fun n => { p with names := p.names.take n }

end Path

/-- What stands at a path. -/
inductive Entry where
  | absent
  | directory
  | file (text : String)
  deriving DecidableEq, Repr

/-- Whether it is a file. -/
def Entry.isFile : Entry → Bool
  | .file _ => true
  | _ => false

/-! ## Files below a directory -/

/-- Files below one directory, by the names that lead to them. -/
structure FileTree where
  files : List (List String × String)

namespace FileTree

/-- What stands at a place below the directory. -/
def entry (t : FileTree) (place : List String) : Entry :=
  match t.files.find? (·.1 == place) with
  | some (_, text) => .file text
  | none =>
    if place.isEmpty || t.files.any fun f => place.isPrefixOf f.1 then .directory else .absent

/-- What names lead to from the directory at a place.  Nothing lies below a file, and
nothing is known of what lies above the tree. -/
def follow (t : FileTree) (place : List String) : List String → Entry
  | [] => t.entry place
  | name :: rest =>
    match t.entry place with
    | .directory =>
      if name ≠ ".." then t.follow (place ++ [name]) rest
      else if place.isEmpty then .absent
      else t.follow place.dropLast rest
    | _ => .absent

/-- What stands at a path. -/
def look (t : FileTree) (p : Path) : Entry :=
  if p.root = "" then t.follow [] p.names else .absent

/-- Where a file is put if all directories on its path exist. -/
def destination (names : List String) : List String :=
  names.foldl (fun place n => if n = ".." then place.dropLast else place ++ [n]) []

/-- The tree with a file written. -/
def write (t : FileTree) (p : Path) (text : String) : FileTree :=
  let place := destination p.names
  ⟨t.files.filter (·.1 ≠ place) ++ [(place, text)]⟩

/-- The tree that holds the given files. -/
def ofFiles (files : List (String × String)) : FileTree :=
  files.foldl (fun t f => t.write (.ofText f.1) f.2) ⟨[]⟩

end FileTree

/-! ## Writing -/

/-- What keeps a file from being read or written. -/
inductive FileFault where
  | isDirectory (p : Path)
  /-- A file stands where a directory is needed. -/
  | directoryIsFile (p : Path)
  /-- The directory that is needed would lie below a file. -/
  | directoryBelowFile (p : Path)
  deriving DecidableEq, Repr

/-- What keeps a file from being written. -/
def writeFault? (look : Path → Entry) (p : Path) : Option FileFault :=
  if (look p.parent).isFile then some (.directoryIsFile p.parent)
  else if p.parent.ancestors.any fun q => (look q).isFile then some (.directoryBelowFile p.parent)
  else if p.names.getLast?.all (· = "..") ∨ look p = .directory then some (.isDirectory p)
  else none

end Housewright.Command
