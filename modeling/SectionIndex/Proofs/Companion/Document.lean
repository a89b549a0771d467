import SectionIndex.Companion.Document
import SectionIndex.Proofs.Text.Lines
import SectionIndex.Proofs.Text.Trim

/-!
# Sections of a companion document

The sections of a companion document are rows of its table, each of which is one line. So no name
and no description from it has a line end in it.

## Main statements

* `Companion.exists_of_mem_sections` — a section of a document is a row of one of its lines.
* `Companion.isUnbroken_of_mem_sections` — its name and its description stay in one line.
-/

namespace SectionIndex

namespace Companion

variable {s : Section} {line : Text}

theorem mem_of_mem_firstRows {seen : List Text} {rows : List Section}
    (h : s ∈ firstRows seen rows) : s ∈ rows := by
  induction rows generalizing seen with
  | nil => exact h
  | cons r rows ih =>
    rw [firstRows] at h
    split at h
    · exact List.mem_cons_of_mem _ (ih h)
    · rcases List.mem_cons.mp h with rfl | h
      · exact List.mem_cons_self
      · exact List.mem_cons_of_mem _ (ih h)

theorem mem_of_mem_orderedRows {rows : List Section} (h : s ∈ orderedRows rows) : s ∈ rows :=
  mem_of_mem_firstRows (List.mem_mergeSort.mp h)

/-- A row that is read comes from a line of the table. -/
theorem exists_of_mem_rows {current : Part} {lines : List Text} {draft : Draft}
    (h : readLines current lines = .ok draft) (hs : s ∈ draft.rows) :
    ∃ line ∈ lines, parseRow (tableCells line) = .ok (some s) := by
  induction lines generalizing current draft with
  | nil =>
    cases h
    exact absurd hs (by simp)
  | cons line lines ih =>
    have hrest : ∀ {part : Part} {draft : Draft}, readLines part lines = .ok draft →
        s ∈ draft.rows →
        ∃ line' ∈ line :: lines, parseRow (tableCells line') = .ok (some s) := fun h hs =>
      (ih h hs).imp fun _ ⟨hmem, hrow⟩ => ⟨List.mem_cons_of_mem _ hmem, hrow⟩
    -- only a line in the part of sections adds a row of its own
    unfold readLines at h
    split at h
    · exact hrest h hs
    · split at h
      · obtain ⟨rest, hread, h⟩ := Fault.bind_eq_ok_iff.mp h
        cases h
        exact hrest hread hs
      · obtain ⟨rest, hread, h⟩ := Fault.bind_eq_ok_iff.mp h
        cases h
        exact hrest hread hs
      · obtain ⟨row, hrow, h⟩ := Fault.bind_eq_ok_iff.mp h
        obtain ⟨rest, hread, h⟩ := Fault.bind_eq_ok_iff.mp h
        cases h
        rcases List.mem_append.mp hs with hs | hs
        · obtain rfl : row = some s := by simpa using hs
          exact ⟨line, List.mem_cons_self, hrow⟩
        · exact hrest hread hs
      · exact hrest h hs

/-- **A section of a document** is a row of one of its lines. -/
theorem exists_of_mem_sections {text path : Text} {document : Companion}
    (h : parse text path = .ok (some document)) (hs : s ∈ document.sections) :
    ∃ line ∈ Text.breakLines text, parseRow (tableCells line) = .ok (some s) := by
  obtain ⟨draft, hdraft, h⟩ := Fault.bind_eq_ok_iff.mp h
  simp only at h
  split at h
  · cases h
  · cases h
    exact exists_of_mem_rows hdraft (mem_of_mem_orderedRows hs)

theorem subset_of_mem_tableCells {cell : Text} (h : cell ∈ tableCells line) : cell ⊆ line := by
  unfold tableCells at h
  simp only at h
  split at h
  · obtain ⟨piece, hpiece, rfl⟩ := List.mem_map.mp h
    intro c hc
    exact Text.mem_of_mem_trim (Text.mem_of_mem_trim
      ((Text.of_mem_splitOn hpiece).2 (Text.mem_of_mem_trim hc)))
  · exact absurd h (by simp)

/-- The name of a row is one of its cells, and so is its description if it has one. -/
theorem of_parseRow {cells : List Text} (h : parseRow cells = .ok (some s)) :
    s.source = .companion ∧ s.name ∈ cells ∧ (s.description ∈ cells ∨ s.description = []) := by
  -- a row comes out of one branch: two cells or more, a range, and lines in order
  unfold parseRow at h
  split at h
  · next name lines more =>
    split at h
    · cases h
    · obtain ⟨range, -, h⟩ := Fault.bind_eq_ok_iff.mp h
      split at h
      · split at h
        · cases h
          refine ⟨rfl, List.mem_cons_self, ?_⟩
          cases more with
          | nil => exact Or.inr rfl
          | cons description more => exact Or.inl (by simp)
        · cases h
      · cases h
  · cases h

/-- **No name and no description of a document** has a line end in it. -/
theorem isUnbroken_of_mem_sections {text path : Text} {document : Companion}
    (h : parse text path = .ok (some document)) (hs : s ∈ document.sections) :
    s.name.IsUnbroken ∧ s.description.IsUnbroken := by
  obtain ⟨line, hline, hrow⟩ := exists_of_mem_sections h hs
  obtain ⟨-, hname, hdescription⟩ := of_parseRow hrow
  have hunbroken : line.IsUnbroken := Text.isUnbroken_of_mem_breakLines hline
  refine ⟨hunbroken.subset (subset_of_mem_tableCells hname), ?_⟩
  rcases hdescription with hmem | hnil
  · exact hunbroken.subset (subset_of_mem_tableCells hmem)
  · exact hnil ▸ Text.isUnbroken_nil

end Companion

end SectionIndex
