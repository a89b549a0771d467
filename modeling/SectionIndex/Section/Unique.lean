import SectionIndex.Section.Basic

/-!
# Unique section names

Authors and detectors both use a name again further down a file. Within one index a name must
address one section, so each repetition gets a number: `classes`, `classes-2`, `classes-3`.

## Main definitions

* `Section.numbered` — a name with a number.
* `uniqueNames` — the sections with all names different.
-/

namespace SectionIndex

namespace Section

/-- The name with a number. -/
def numbered (name : Text) (number : Nat) : Text :=
  name ++ '-' :: Text.ofNat number

/-- The least number from `number` on that makes `name` a name that is not taken. Different
numbers make different names, so one of the first `taken.length + 1` of them is free. -/
def freeNumber (taken : List Text) (name : Text) (number : Nat) : Nat :=
  ((List.range' number (taken.length + 1)).find? fun k => !taken.contains (numbered name k)).getD
    number

/-- The sections renamed, given the names that are taken and, for each name seen before, the last
number it was given. -/
def renameRepeated (taken : List Text) (seen : List (Text × Nat)) : List Section → List Section
  | [] => []
  | s :: rest =>
    match seen.lookup s.name with
    | none => s :: renameRepeated taken ((s.name, 1) :: seen) rest
    | some count =>
      -- a name with a number can itself be a name in the file, and is passed over then
      let number := freeNumber taken s.name (count + 1)
      let name := numbered s.name number
      { s with name := name } :: renameRepeated (name :: taken) ((s.name, number) :: seen) rest

/-- **The sections with all names different.** The first section of a name keeps it; each later
one gets the least number, from 2 on, with which its name is not in use. -/
def uniqueNames (sections : List Section) : List Section :=
  renameRepeated (sections.map Section.name) [] sections

@[simp] theorem uniqueNames_nil : uniqueNames [] = [] := rfl

theorem length_renameRepeated (taken : List Text) (seen : List (Text × Nat))
    (sections : List Section) :
    (renameRepeated taken seen sections).length = sections.length := by
  induction sections generalizing taken seen with
  | nil => rfl
  | cons s rest ih => unfold renameRepeated; split <;> simp [ih]

/-- Renaming keeps the number of sections. -/
@[simp] theorem length_uniqueNames (sections : List Section) :
    (uniqueNames sections).length = sections.length :=
  length_renameRepeated _ _ _

end Section

end SectionIndex
