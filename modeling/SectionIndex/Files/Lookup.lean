import SectionIndex.Files.Tree
import SectionIndex.Fault

/-!
# Looking up paths

What stands at the end of a path: each name is looked up in the directory reached so far, and a
link is followed from where it stands. Names and paths have a greatest length, and so has the
number of links on one way.

## Main definitions

* `Host` — a file tree, and where relative paths and home directories are.
* `Host.lookupText`, `Host.lookup`, `Host.find` — what stands at the end of a path.
* `Host.isFile`, `Host.findFile` — the file there.
-/

namespace SectionIndex

/-- **A host:** its file tree, the directory that relative paths start from, the home directory,
and the home directories of other people. -/
structure Host where
  tree : FileTree
  workingDirectory : Location
  home : Text
  accounts : List (Text × Text) := []
  deriving DecidableEq, Repr

/-- **What a lookup comes to.** -/
inductive Lookup
  | found (place : Location) (entry : Entry)
  | missing
  | nameTooLong
  | linkLoop
  deriving DecidableEq, Repr

namespace FileTree

/-- The greatest number of bytes of a name. -/
def maxNameBytes : Nat := 255

/-- The number of bytes that no path reaches. -/
def pathByteLimit : Nat := 4096

/-- The greatest number of links on one way. -/
def maxLinks : Nat := 40

/-- The names of a path that is written in a link. A slash at its end says that a directory must
stand there, which a dot says too. -/
def stepsOf (t : Text) : List Text :=
  let names := (t.splitOn '/').filter fun name => !name.isEmpty
  if t.getLast? = some '/' then names ++ [['.']] else names

/-- The directory from which a path in a link starts. -/
def startOf (directory : Location) (t : Text) : Location :=
  if t.head? = some '/' then [] else directory

/-- Walks from a directory by the names; `onLink` goes on at a link, given the directory it stands
in, what is written in it, and the names that are left. The last name is not followed if it is a
link and `followLast` does not say so. -/
def walkNames (tree : FileTree) (followLast : Bool)
    (onLink : Location → Text → List Text → Lookup) : Location → List Text → Lookup
  | place, [] =>
    match tree.get? place with
    | some entry => .found place entry
    | none => .missing
  | place, name :: names =>
    if tree.get? place = some .directory then
      if name = ['.'] then walkNames tree followLast onLink place names
      else if name = ['.', '.'] then walkNames tree followLast onLink place.dropLast names
      else if maxNameBytes < (encodeUtf8 name).length then .nameTooLong
      else
        match tree.get? (place ++ [name]) with
        | none => .missing
        | some (.link target) =>
          -- a slash after the last name counts as one more name, so the link is followed then
          if names = [] ∧ followLast = false then .found (place ++ [name]) (.link target)
          else onLink place target names
        | some _ => walkNames tree followLast onLink (place ++ [name]) names
    else .missing

/-- **Walks from a directory by the names**, over at most `links` links. -/
def walk (tree : FileTree) (followLast : Bool) : (links : Nat) → Location → List Text → Lookup
  | 0 => walkNames tree followLast fun _ _ _ => .linkLoop
  | links + 1 => walkNames tree followLast fun directory target names =>
      walk tree followLast links (startOf directory target) (stepsOf target ++ names)

end FileTree

namespace Host

/-- The directory that a path starts from. -/
def startOf (host : Host) (path : Path) : Location :=
  if path.isAbsolute then [] else host.workingDirectory

/-- The lookup of a path that is written down. No path with a null character leads anywhere, and
one that is too long is not looked up. -/
def lookupText (host : Host) (path : Text) (followLast : Bool) : Lookup :=
  if '\x00' ∈ path then .missing
  else if FileTree.pathByteLimit ≤ (encodeUtf8 path).length then .nameTooLong
  else
    host.tree.walk followLast FileTree.maxLinks
      (FileTree.startOf host.workingDirectory path) (FileTree.stepsOf path)

/-- The lookup of a path. -/
def lookup (host : Host) (path : Path) : Lookup :=
  host.lookupText path.toText true

/-- **What stands at the end of a path**, and where that is. A name that is too long is a fault;
anything else that leads nowhere is just missing. -/
def find (host : Host) (path : Path) : Except Fault (Option (Location × Entry)) :=
  match host.lookup path with
  | .found place entry => .ok (some (place, entry))
  | .missing | .linkLoop => .ok none
  | .nameTooLong => .error (.nameTooLong path.toText)

/-- The bytes of the file at the end of a path, if there is a file. -/
def findFile (host : Host) (path : Path) : Except Fault (Option Bytes) :=
  (host.find path).map fun
    | some (_, .file bytes) => some bytes
    | _ => none

/-- There is a file at the end of the path. -/
def isFile (host : Host) (path : Path) : Except Fault Bool :=
  (host.findFile path).map Option.isSome

end Host

end SectionIndex
