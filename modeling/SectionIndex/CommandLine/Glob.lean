import SectionIndex.CommandLine.Wildcard
import SectionIndex.Files.Resolve

/-!
# Finding files by patterns

The paths that a pattern stands for, name by name from the left. Hidden names, which start with a
dot, are found only by patterns that start with a dot. Two stars as a whole name stand for any
number of directories.

## Main definitions

* `Host.glob` — the paths of a pattern.
* `Host.expandPatterns` — the files of several patterns, each once.
-/

namespace SectionIndex

namespace Glob

/-- A path before its last name, and its last name. Slashes between them belong to neither, unless
the path has no name before them. -/
def splitLast (t : Text) : Text × Text :=
  let name := (t.reverse.takeWhile (· != '/')).reverse
  let head := t.take (t.length - name.length)
  let directory := Text.trimEnd (· == '/') head
  (if directory = [] then head else directory, name)

/-- Two paths, one after the other, with a slash between them if there is none. -/
def joinPath (directory name : Text) : Text :=
  if directory = [] ∨ name.head? = some '/' then name
  else if directory.getLast? = some '/' then directory ++ name
  else directory ++ '/' :: name

/-- The path of a name in a directory. If one of them is empty it is the other. -/
def childPath (directory name : Text) : Text :=
  if name = [] then directory else joinPath directory name

/-- The name is hidden. -/
def isHidden (name : Text) : Bool :=
  name.head? == some '.'

/-- The name that stands for any number of directories. -/
def anyDepth : Text := "**"

end Glob

namespace Host

/-- There is a directory at the end of the path. -/
def isDirectoryText (host : Host) (path : Text) : Bool :=
  match host.lookupText path true with
  | .found _ .directory => true
  | _ => false

/-- There is something at the end of the path, even if only a link that leads nowhere. -/
def standsText (host : Host) (path : Text) : Bool :=
  match host.lookupText path false with
  | .found _ _ => true
  | _ => false

/-- The names in a directory, or only those of directories. The empty path is the working
directory; a path that leads to no directory has no names. -/
def namesIn (host : Host) (directory : Text) (directoriesOnly : Bool) :
    Except Fault (List Text) :=
  if '\x00' ∈ directory then .error .nullInPath
  else
    match host.lookupText (if directory = [] then ['.'] else directory) true with
    | .found place .directory =>
      .ok ((host.tree.children place).map Prod.fst |>.filter fun name =>
        !directoriesOnly || host.isDirectoryText (Glob.joinPath directory name))
    | _ => .ok []

/-- The paths below a directory that are not hidden, seen from it. A path is shorter than any limit
of the file system, so as much fuel is enough. -/
def pathsBelow (host : Host) (directoriesOnly : Bool) :
    (fuel : Nat) → (directory : Text) → Except Fault (List Text)
  | 0, _ => .ok []
  | fuel + 1, directory => do
    let names ← host.namesIn directory directoriesOnly
    let below ← (names.filter fun name => !Glob.isHidden name).mapM fun name => do
      let paths ← host.pathsBelow directoriesOnly fuel (Glob.joinPath directory name)
      return name :: paths.map (Glob.joinPath name)
    return below.flatten

/-- The last names in a directory that a last name stands for. -/
def lastNames (host : Host) (directory name : Text) (directoriesOnly : Bool) :
    Except Fault (List Text) :=
  if name = Glob.anyDepth then do
    let below ← host.pathsBelow directoriesOnly FileTree.pathByteLimit directory
    return (if directory = [] ∨ host.isDirectoryText directory then [[]] else []) ++ below
  else if Wildcard.isMagic name then do
    let names ← host.namesIn directory directoriesOnly
    return names.filter fun found =>
      (Glob.isHidden name || !Glob.isHidden found) && (Wildcard.ofText name).accepts found
  else if name = [] then return if host.isDirectoryText directory then [[]] else []
  else return if host.standsText (Glob.childPath directory name) then [name] else []

/-- The paths of a pattern, or only those of directories. -/
def globPaths (host : Host) (pattern : Text) (directoriesOnly : Bool) :
    Except Fault (List Text) := do
  let (directory, name) := Glob.splitLast pattern
  if !Wildcard.isMagic pattern then
    -- a slash at the end asks for a directory
    let stands :=
      if name = [] then host.isDirectoryText directory else host.standsText pattern
    return if stands then [pattern] else []
  else if directory = [] then host.lastNames [] name directoriesOnly
  else
    -- the directories come first: the pattern before the last name, if it is one, is shorter
    let directories ←
      if _h : directory.length < pattern.length ∧ Wildcard.isMagic directory then
        host.globPaths directory true
      else pure [directory]
    let paths ← directories.mapM fun directory => do
      let names ← host.lastNames directory name directoriesOnly
      return names.map fun name =>
        if name = [] ∧ directory ≠ [] ∧ directory.getLast? ≠ some '/' then directory ++ ['/']
        else Glob.joinPath directory name
    return paths.flatten
termination_by pattern.length
decreasing_by exact _h.1

/-- **The paths of a pattern.** The directory that a pattern starts from is not one of them. -/
def glob (host : Host) (pattern : Text) : Except Fault (List Text) := do
  let paths ← host.globPaths pattern false
  return if Glob.anyDepth.isPrefixOf pattern ∧ paths.head? = some [] then paths.tail else paths

/-- The paths that a file argument stands for, in order: those of a pattern, or the path itself if
something is there. -/
def matchesOf (host : Host) (argument : Text) : Except Fault (List Text) := do
  if Wildcard.isMagic argument then
    let paths ← host.glob argument
    return paths.mergeSort Text.isAtMost
  else
    let found ← host.find (Path.ofText argument)
    return if found.isSome then [argument] else []

/-- The files among the paths, given where those lead that are known already. -/
def newFiles (host : Host) (known : List Path) :
    List Text → Except Fault (List Path × List Path)
  | [] => .ok ([], known)
  | t :: paths => do
    let path := Path.ofText t
    if ← host.isFile path then
      let place ← host.resolve path
      -- two paths that lead to one place are one file
      if known.contains place then host.newFiles known paths
      else
        let (files, known) ← host.newFiles (place :: known) paths
        return (path :: files, known)
    else host.newFiles known paths

/-- The files of the arguments, and the arguments that stand for nothing. -/
def expandFrom (host : Host) (known : List Path) :
    List Text → Except Fault (List Path × List Text)
  | [] => .ok ([], [])
  | argument :: arguments => do
    match ← host.matchesOf argument with
    | [] =>
      let (files, missing) ← host.expandFrom known arguments
      return (files, argument :: missing)
    | paths =>
      let (found, known) ← host.newFiles known paths
      let (files, missing) ← host.expandFrom known arguments
      return (found ++ files, missing)

/-- **The files of the arguments**, each once and in the order of the arguments, and the arguments
that stand for nothing. -/
def expandPatterns (host : Host) (arguments : List Text) :
    Except Fault (List Path × List Text) :=
  host.expandFrom [] arguments

end Host

end SectionIndex
