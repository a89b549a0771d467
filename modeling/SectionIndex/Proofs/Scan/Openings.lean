import SectionIndex.Proofs.Scan.Shift
import SectionIndex.Section.Unique

/-!
# Where sections are opened

Each mark that opens a section opens one, and nothing else does. So the names of the sections that
an author has marked, and the lines where they start, are those of the opening marks; where the
sections end is of no account for them.

## Main definitions

* `openings` — the names and lines of the opening marks.
* `Section.start` — the name of a section and the line where it starts.

## Main statements

* `map_start_sectionsOfMarks` — the sections start where marks open them.
* `openings_append`, `openings_add` — the openings of marks after other marks.
* `Section.map_start_uniqueNames` — renamed sections start where they did.
-/

namespace SectionIndex

/-- **The names and lines of the opening marks** among marks of which the first one stands in line
`number`. -/
def openings : (number : Nat) → List Mark → List (Text × Int)
  | _, [] => []
  | number, .opening name _ :: marks => (name, number) :: openings (number + 1) marks
  | number, .ending :: marks => openings (number + 1) marks
  | number, .plain :: marks => openings (number + 1) marks

/-- **The name of a section and the line where it starts.** -/
def Section.start (s : Section) : Text × Int :=
  (s.name, s.first)

/-! ### The openings of marks -/

theorem map_start_closeAt (current : Option OpenSection) (last : Nat) :
    (closeAt current last).map Section.start =
      (current.map fun o => (o.name, (o.first : Int))).toList := by
  cases current <;> rfl

/-- **The sections of marks start where they are opened**, the open one before all others. -/
theorem map_start_sectionsOfMarks (current : Option OpenSection) (number : Nat)
    (marks : List Mark) :
    (sectionsOfMarks current number marks).map Section.start =
      (current.map fun o => (o.name, (o.first : Int))).toList ++ openings number marks := by
  induction marks generalizing current number with
  | nil => rw [sectionsOfMarks, map_start_closeAt, openings, List.append_nil]
  | cons mark marks ih =>
    cases mark with
    | opening name description =>
      rw [sectionsOfMarks, List.map_append, map_start_closeAt, ih, openings]
      rfl
    | ending => rw [sectionsOfMarks, List.map_append, map_start_closeAt, ih, openings]; rfl
    | plain => rw [sectionsOfMarks, ih, openings]

theorem openings_append (number : Nat) (marks others : List Mark) :
    openings number (marks ++ others) =
      openings number marks ++ openings (number + marks.length) others := by
  induction marks generalizing number with
  | nil => rfl
  | cons mark marks ih =>
    have hnumber : number + (marks.length + 1) = number + 1 + marks.length := by omega
    cases mark <;> simp only [List.cons_append, openings, ih, List.length_cons, hnumber]

/-- Marks that stand further down open their sections there. -/
theorem openings_add (number d : Nat) (marks : List Mark) :
    openings (number + d) marks = (openings number marks).map fun o => (o.1, o.2 + (d : Int)) := by
  induction marks generalizing number with
  | nil => rfl
  | cons mark marks ih =>
    have hrest := ih (number + 1)
    rw [Nat.succ_add] at hrest
    cases mark with
    | opening name description =>
      rw [openings, openings, hrest, List.map_cons]
      push_cast
      rfl
    | ending => exact hrest
    | plain => exact hrest

theorem openings_eq_nil_iff (number : Nat) (marks : List Mark) :
    openings number marks = [] ↔ ∀ mark ∈ marks, ¬ mark.Opens := by
  induction marks generalizing number with
  | nil => exact iff_of_true rfl (List.forall_mem_nil _)
  | cons mark marks ih =>
    rw [List.forall_mem_cons]
    cases mark with
    | opening name description => exact iff_of_false (List.cons_ne_nil _ _) fun h => h.1 trivial
    | ending => rw [openings, ih]; exact ⟨fun h => ⟨id, h⟩, And.right⟩
    | plain => rw [openings, ih]; exact ⟨fun h => ⟨id, h⟩, And.right⟩

/-- A mark opens a section in the line where it stands. -/
theorem bounds_of_mem_openings {number : Nat} {marks : List Mark} {o : Text × Int}
    (h : o ∈ openings number marks) : number ≤ o.2 ∧ o.2 < number + marks.length := by
  -- by induction on the marks: the first one has this number, and the others have later ones
  induction marks generalizing number with
  | nil => cases h
  | cons mark marks ih =>
    have hrest : o ∈ openings (number + 1) marks →
        number ≤ o.2 ∧ o.2 < number + (mark :: marks).length := by
      intro h
      obtain ⟨hlow, hhigh⟩ := ih h
      rw [List.length_cons]
      push_cast at *
      omega
    cases mark with
    | opening name description =>
      rcases List.mem_cons.mp h with rfl | h
      · simp only [List.length_cons]
        push_cast
        omega
      · exact hrest h
    | ending => exact hrest h
    | plain => exact hrest h

/-- **The sections that an author has marked** start where marks open them. -/
theorem map_start_scanExplicit {language : Language} (h : language.hasMarkers = true)
    (lines : List Text) :
    (scanExplicit (some language) lines).map Section.start =
      openings 1 (lines.map language.markOf) := by
  rw [scanExplicit, if_pos h, map_start_sectionsOfMarks]
  rfl

/-! ### Renamed sections -/

namespace Section

/-- Sections that start where others do have the names of the others. -/
theorem map_name_of_map_start (f : Section → Int) {sections others : List Section}
    (h : others.map start = sections.map fun s => (s.name, f s)) :
    others.map name = sections.map name := by
  have hfst := congrArg (List.map Prod.fst) h
  rw [List.map_map, List.map_map] at hfst
  exact hfst

theorem map_start_renameRepeated (f : Int → Int) (taken : List Text) (seen : List (Text × Nat))
    {sections others : List Section}
    (h : others.map start = sections.map fun s => (s.name, f s.first)) :
    (renameRepeated taken seen others).map start =
      (renameRepeated taken seen sections).map fun s => (s.name, f s.first) := by
  induction sections generalizing taken seen others with
  | nil =>
    rw [List.map_eq_nil_iff.mp h]
    rfl
  | cons s sections ih =>
    obtain ⟨t, others, rfl, ht, hothers⟩ := List.map_eq_cons_iff.mp h
    obtain ⟨hname, hfirst⟩ := Prod.mk.inj ht
    -- both sections get the same name, as their names and all that are taken are the same
    rw [renameRepeated, renameRepeated, hname]
    split
    · rw [List.map_cons, List.map_cons, ih _ _ hothers, start, hname, hfirst]
    · rw [List.map_cons, List.map_cons, ih _ _ hothers, start, hfirst]

/-- **Renamed sections start where they did**, and what they are called depends on their names
alone. -/
theorem map_start_uniqueNames (f : Int → Int) {sections others : List Section}
    (h : others.map start = sections.map fun s => (s.name, f s.first)) :
    (uniqueNames others).map start =
      (uniqueNames sections).map fun s => (s.name, f s.first) := by
  rw [uniqueNames, uniqueNames, map_name_of_map_start (fun s => f s.first) h]
  exact map_start_renameRepeated f _ _ h

end Section

end SectionIndex
