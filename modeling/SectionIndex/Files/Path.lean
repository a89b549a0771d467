import SectionIndex.Text.Basic

/-!
# Paths

A path is where it starts from and the names on the way. Empty names and single dots are dropped
when a path is read, so paths that differ in those alone are the same path; a double dot is kept,
since what it means depends on the files.

## Main definitions

* `Path`, `Path.ofText`, `Path.toText`.
* `Path.name`, `Path.stem`, `Path.suffix`, `Path.parent`, `Path.child`.
-/

namespace SectionIndex

/-- Where a path starts from. Exactly two slashes at the start are kept apart from one. -/
inductive Path.Anchor
  | here
  | root
  | doubleRoot
  deriving DecidableEq, Repr

/-- **A path:** its start and its names, none of which is empty or a single dot. -/
structure Path where
  anchor : Path.Anchor
  names : List Text
  deriving DecidableEq, Repr

namespace Path

/-- The start of a path that is written like `t`. -/
def anchorOf (t : Text) : Anchor :=
  match (t.takeWhile (· == '/')).length with
  | 0 => .here
  | 2 => .doubleRoot
  | _ => .root

/-- The names between the slashes of a text, without the empty ones and the single dots. -/
def namesOf (t : Text) : List Text :=
  (t.splitOn '/').filter fun name => !(name.isEmpty || name == ['.'])

/-- **Reads a path.** -/
def ofText (t : Text) : Path :=
  ⟨anchorOf t, namesOf t⟩

/-- How a path's start is written. -/
def Anchor.toText : Anchor → Text
  | .here => []
  | .root => ['/']
  | .doubleRoot => ['/', '/']

/-- **Writes a path.** The path with no names is a dot, or its slashes. -/
def toText (p : Path) : Text :=
  if p.anchor = .here ∧ p.names = [] then ['.']
  else p.anchor.toText ++ Text.join ['/'] p.names

/-- The path starts at the root. -/
def isAbsolute (p : Path) : Bool :=
  p.anchor != .here

/-- The last name, or nothing. -/
def name (p : Path) : Text :=
  p.names.getLast?.getD []

/-- The path without its last name. -/
def parent (p : Path) : Path :=
  { p with names := p.names.dropLast }

/-- The path with one more name. -/
def child (p : Path) (name : Text) : Path :=
  { p with names := p.names ++ [name] }

/-- The path as seen from a directory. -/
def under (directory p : Path) : Path :=
  if p.isAbsolute then p else { directory with names := directory.names ++ p.names }

/-- The name up to its last dot, and from there on. A dot at either end of the name separates
nothing. -/
def splitSuffix (name : Text) : Text × Text :=
  let extension := (name.reverse.takeWhile (· != '.')).reverse
  let before := name.length - extension.length
  if 1 < before ∧ extension ≠ [] then (name.take (before - 1), '.' :: extension) else (name, [])

/-- The last name without its suffix. -/
def stem (p : Path) : Text :=
  (splitSuffix p.name).1

/-- The suffix of the last name: its last dot and what follows. -/
def suffix (p : Path) : Text :=
  (splitSuffix p.name).2

/-- The path is `directory` or lies below it, name by name. -/
def isWithin (directory p : Path) : Bool :=
  p.anchor == directory.anchor && directory.names.isPrefixOf p.names

/-- The absolute path with these names. -/
def ofLocation (names : List Text) : Path :=
  ⟨.root, names⟩

@[simp] theorem parent_child (p : Path) (name : Text) : (p.child name).parent = p := by
  simp [child, parent]

@[simp] theorem name_child (p : Path) (name : Text) : (p.child name).name = name := by
  simp [child, Path.name]

@[simp] theorem isWithin_self (p : Path) : isWithin p p = true := by
  simp [isWithin]

/-- Stem and suffix together are the name. -/
theorem splitSuffix_append (name : Text) :
    (splitSuffix name).1 ++ (splitSuffix name).2 = name := by
  unfold splitSuffix
  simp only
  split
  · rename_i h
    have hrev := List.takeWhile_append_dropWhile (p := (· != '.')) (l := name.reverse)
    obtain ⟨c, r, hr⟩ : ∃ c r, name.reverse.dropWhile (· != '.') = c :: r := by
      cases hd : name.reverse.dropWhile (· != '.') with
      | nil =>
        rw [hd, List.append_nil] at hrev
        have := congrArg List.length hrev
        simp at this h
        omega
      | cons c r => exact ⟨c, r, rfl⟩
    have hc : c = '.' := by
      have := List.head?_dropWhile_not (· != '.') name.reverse
      rw [hr] at this
      simpa using this
    subst hc
    rw [hr] at hrev
    have hname : name = r.reverse ++ '.' :: (name.reverse.takeWhile (· != '.')).reverse := by
      have := congrArg List.reverse hrev
      simpa using this.symm
    have hlen : name.length - (name.reverse.takeWhile (· != '.')).reverse.length - 1
        = r.reverse.length := by
      have := congrArg List.length hname
      simp at this ⊢
      omega
    rw [hlen]
    conv => lhs; arg 1; rw [hname]
    rw [List.take_left]
    exact hname.symm
  · simp

end Path

end SectionIndex
