import SectionIndex.Files.Path
import SectionIndex.Text.Utf8

/-!
# File trees

A file tree says what stands at a location: the names from the root down, none of which is a dot,
a double dot or a link. A file is changed by putting another entry at its location.

A name is a text. On a disk it is a row of bytes, and where those are not UTF-8 the name has, for
each byte that belongs to no character, a character of its own that no other text has; `Web.Strays`
says which characters these are, for they matter where a name is sent. Whose file it is, who may
read it and when it was changed is not kept.

## Main definitions

* `Entry`, `Location`, `FileTree`.
* `FileTree.get?`, `FileTree.put`, `FileTree.delete`, `FileTree.children`.

## Main statements

* `FileTree.get?_put_self`, `FileTree.get?_put_of_ne` — putting an entry changes one location.
-/

namespace SectionIndex

/-- **What stands at a location.** -/
inductive Entry
  | file (bytes : Bytes)
  | directory
  | link (target : Text)
  deriving DecidableEq, Repr

/-- **A location:** the names on the way from the root. -/
abbrev Location := List Text

/-- **A file tree:** its locations and what stands there. The root is always a directory. -/
structure FileTree where
  entries : List (Location × Entry) := []
  deriving DecidableEq, Repr

namespace FileTree

/-- What stands at a location. -/
def get? (tree : FileTree) (place : Location) : Option Entry :=
  if place = [] then some .directory else tree.entries.lookup place

/-- The entries with one of them put in place of the one at its location. -/
def putEntry (place : Location) (entry : Entry) :
    List (Location × Entry) → List (Location × Entry)
  | [] => [(place, entry)]
  | (p, e) :: entries =>
    if p = place then (place, entry) :: entries else (p, e) :: putEntry place entry entries

/-- **The tree with an entry put at a location.** -/
def put (tree : FileTree) (place : Location) (entry : Entry) : FileTree :=
  ⟨putEntry place entry tree.entries⟩

/-- The tree without a location and all that is below it. -/
def delete (tree : FileTree) (place : Location) : FileTree :=
  ⟨tree.entries.filter fun (p, _) => !place.isPrefixOf p⟩

/-- The tree with directories at all locations on the way to one where nothing stands yet, and
there as well. -/
def putDirectories (tree : FileTree) (place : Location) : FileTree :=
  (List.range place.length).foldl (fun tree n =>
    let ancestor := place.take (n + 1)
    if (tree.get? ancestor).isSome then tree else tree.put ancestor .directory) tree

/-- The names in a directory and what stands there. -/
def children (tree : FileTree) (directory : Location) : List (Text × Entry) :=
  tree.entries.filterMap fun (place, entry) =>
    match place.getLast? with
    | some name => if place.dropLast = directory then some (name, entry) else none
    | none => none

/-- The number of links in the tree. -/
def linkCount (tree : FileTree) : Nat :=
  tree.entries.countP fun (_, entry) => match entry with | .link _ => true | _ => false

@[simp] theorem get?_root (tree : FileTree) : tree.get? [] = some .directory := rfl

theorem lookup_putEntry_self (place : Location) (entry : Entry)
    (entries : List (Location × Entry)) :
    (putEntry place entry entries).lookup place = some entry := by
  induction entries with
  | nil => simp [putEntry]
  | cons first entries ih =>
    obtain ⟨p, e⟩ := first
    unfold putEntry
    split
    · simp
    · rename_i h
      have : (place == p) = false := by simpa using Ne.symm h
      simp [List.lookup_cons, this, ih]

theorem lookup_putEntry_of_ne {place other : Location} (entry : Entry)
    (entries : List (Location × Entry)) (h : other ≠ place) :
    (putEntry place entry entries).lookup other = entries.lookup other := by
  have hne : (other == place) = false := by simpa using h
  induction entries with
  | nil => simp [putEntry, List.lookup_cons, hne]
  | cons first entries ih =>
    obtain ⟨p, e⟩ := first
    unfold putEntry
    split
    · rename_i hp
      subst hp
      simp [List.lookup_cons, hne]
    · simp only [List.lookup_cons]
      split <;> simp_all

/-- What was put at a location stands there. -/
@[simp] theorem get?_put_self (tree : FileTree) (place : Location) (entry : Entry)
    (h : place ≠ []) : (tree.put place entry).get? place = some entry := by
  simp [get?, put, h, lookup_putEntry_self]

/-- **Putting an entry at a location changes no other.** -/
theorem get?_put_of_ne (tree : FileTree) {place other : Location} (entry : Entry)
    (h : other ≠ place) : (tree.put place entry).get? other = tree.get? other := by
  simp [get?, put, lookup_putEntry_of_ne entry _ h]

end FileTree

end SectionIndex
