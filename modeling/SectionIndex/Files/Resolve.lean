import SectionIndex.Files.Lookup

/-!
# Resolving paths

The location a path leads to, without dots and links. Unlike a lookup, resolving goes on where
nothing stands: the names that are left are taken as they are.

## Main definitions

* `FileTree.expand` — the location of names, seen from a directory.
* `Path.collapsed` — a path with double dots as steps back.
* `Host.expandHome` — a path that starts at somebody's home directory.
* `Host.resolve` — the path to where a path leads.
-/

namespace SectionIndex

/-- **Where names lead:** to a location, or into a loop of links, with the way to it and what is
written after it. -/
inductive Expansion
  | reached (place : Location)
  | stuck (way : Text)
  deriving DecidableEq, Repr

/-- A way with another one after it, which starts anew if it starts with a slash. -/
def joinWays (first second : Text) : Text :=
  if second.head? = some '/' then second
  else if first.getLast? = some '/' then first ++ second
  else first ++ '/' :: second

/-- The expansion with more names to go. -/
def Expansion.andThen (next : Location → Expansion) (names : List Text) : Expansion → Expansion
  | .reached place => next place
  | .stuck way => .stuck (joinWays way (Text.join ['/'] names))

namespace FileTree

/-- The names that are written in a link, empty ones among them. The slash at the start of an
absolute path is not one of their separators. -/
def namesInLink (target : Text) : List Text :=
  (if target.head? = some '/' then target.drop 1 else target).splitOn '/'

/-- Expands the names from a location; `onLink` expands the link at a location. -/
def expandNames (tree : FileTree) (onLink : Location → Text → Expansion) :
    Location → List Text → Expansion
  | place, [] => .reached place
  | place, name :: names =>
    if name = [] ∨ name = ['.'] then expandNames tree onLink place names
    -- the location holds no links, so a step back is its parent
    else if name = ['.', '.'] then expandNames tree onLink place.dropLast names
    else
      match tree.get? (place ++ [name]) with
      | some (.link target) =>
        (onLink (place ++ [name]) target).andThen (expandNames tree onLink · names) names
      | _ => expandNames tree onLink (place ++ [name]) names

/-- **The location of names**, seen from one. `active` holds the links that are being expanded,
of which there are at most `links` more; a link that leads back to one of them is a loop. -/
def expand (tree : FileTree) : (links : Nat) → (active : List Location) →
    Location → List Text → Expansion
  | 0, _ => expandNames tree fun place _ => .stuck (Path.ofLocation place).toText
  | links + 1, active => expandNames tree fun place target =>
      if active.contains place then .stuck (Path.ofLocation place).toText
      else
        expand tree links (place :: active) (startOf place.dropLast target) (namesInLink target)

end FileTree

/-- The path with double dots as steps back, whatever links are on the way. -/
def Path.collapsed (path : Path) : Path :=
  { path with
    names := path.names.foldl (fun names name =>
      if name = ['.', '.'] then names.dropLast else names ++ [name]) [] }

namespace Host

/-- The home directory named by the first name of a path, which starts with a tilde. -/
def homeOf (host : Host) (name : Text) : Except Fault Text :=
  let user := name.drop 1
  if user = [] then .ok host.home
  else if '\x00' ∈ user then .error .nullInPath
  else (host.accounts.lookup user).elim (.error .homeless) .ok

/-- **The path with the home directory it starts from**, if it starts from one. -/
def expandHome (host : Host) (path : Path) : Except Fault Path :=
  match path.anchor, path.names with
  | .here, name :: names =>
    if name.head? = some '~' then
      (host.homeOf name).map fun home => (Path.ofText home).under ⟨.here, names⟩
    else .ok path
  | _, _ => .ok path

/-- **The path to where a path leads**, from the root and without dots and links. Links that go in
circles are a fault, unless the names after them lead out again. -/
def resolve (host : Host) (path : Path) : Except Fault Path :=
  if path.names.any (·.contains '\x00') then .error .nullInPath
  else
    match host.tree.expand (host.tree.linkCount + 1) [] (host.startOf path) path.names with
    | .reached place => .ok (.ofLocation place)
    | .stuck way =>
      -- the way out of the circle may lie behind double dots that are still written in it
      let path := (Path.ofText way).collapsed
      if host.lookup path = .linkLoop then .error (.linkLoop path.toText) else .ok path

end Host

end SectionIndex
