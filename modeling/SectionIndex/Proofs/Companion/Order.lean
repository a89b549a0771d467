import SectionIndex.Proofs.Companion.Document

/-!
# Order of the sections of a companion document

A person who writes a table puts its rows in any order, and may name lines that do not exist. A row
counts only if its lines are in order, and the rows that count are sorted by their first lines.

## Main statements

* `Companion.bounds_of_parseRow` — the lines of a row are in order.
* `Companion.bounds_of_mem_sections`, `Companion.sorted_sections` — so are those of the sections of
  a document, and the sections themselves.
* `Companion.filter_orderedRows` — rows with the same first line keep their order.
-/

namespace SectionIndex

namespace Companion

variable {s : Section} {text path : Text} {document : Companion}

/-- **The lines of a row** are in order, and start at line 1 at least. -/
theorem bounds_of_parseRow {cells : List Text} (h : parseRow cells = .ok (some s)) :
    1 ≤ s.first ∧ s.first ≤ s.last := by
  unfold parseRow at h
  split at h
  · next name lines more =>
    split at h
    · cases h
    · obtain ⟨range, -, h⟩ := Fault.bind_eq_ok_iff.mp h
      split at h
      · next first last =>
        split at h
        · next hlines =>
          cases h
          exact hlines
        · cases h
      · cases h
  · cases h

/-- **The lines of a section of a document** are in order. -/
theorem bounds_of_mem_sections (h : parse text path = .ok (some document))
    (hs : s ∈ document.sections) : 1 ≤ s.first ∧ s.first ≤ s.last := by
  obtain ⟨line, -, hrow⟩ := exists_of_mem_sections h hs
  exact bounds_of_parseRow hrow

/-- A section of a document comes from a companion document. -/
theorem source_of_mem_sections (h : parse text path = .ok (some document))
    (hs : s ∈ document.sections) : s.source = .companion := by
  obtain ⟨line, -, hrow⟩ := exists_of_mem_sections h hs
  exact (of_parseRow hrow).1

/-! ### The order by first lines -/

private theorem firstLine_trans (a b c : Section) (hab : decide (a.first ≤ b.first) = true)
    (hbc : decide (b.first ≤ c.first) = true) : decide (a.first ≤ c.first) = true :=
  decide_eq_true (Int.le_trans (of_decide_eq_true hab) (of_decide_eq_true hbc))

private theorem firstLine_total (a b : Section) :
    (decide (a.first ≤ b.first) || decide (b.first ≤ a.first)) = true := by
  rw [Bool.or_eq_true, decide_eq_true_iff, decide_eq_true_iff]
  exact Int.le_total a.first b.first

/-- Rows are sorted by their first lines. -/
theorem sorted_orderedRows (rows : List Section) :
    (orderedRows rows).Pairwise fun s t => s.first ≤ t.first :=
  (List.pairwise_mergeSort firstLine_trans firstLine_total (firstRows [] rows)).imp
    of_decide_eq_true

/-- **Rows with the same first line keep their order.** -/
theorem filter_orderedRows (rows : List Section) (n : Int) :
    (orderedRows rows).filter (fun s => s.first == n) =
      (firstRows [] rows).filter fun s => s.first == n := by
  have hsame : ((firstRows [] rows).filter fun s => s.first == n).Pairwise
      fun s t => decide (s.first ≤ t.first) = true := by
    refine List.pairwise_of_forall_mem_list fun s hs t ht => decide_eq_true (Int.le_of_eq ?_)
    rw [eq_of_beq (List.mem_filter.mp hs).2, eq_of_beq (List.mem_filter.mp ht).2]
  -- they are sorted as they stand, so sorting keeps them as they are
  have hsublist := (List.sublist_mergeSort firstLine_trans firstLine_total hsame
    List.filter_sublist).filter fun s => s.first == n
  rw [List.filter_filter, List.filter_congr fun _ _ => Bool.and_self _] at hsublist
  have hperm := (List.mergeSort_perm (firstRows [] rows) fun a b =>
    decide (a.first ≤ b.first)).filter fun s => s.first == n
  exact (hsublist.eq_of_length hperm.length_eq.symm).symm

/-- **The sections of a document** are sorted by their first lines. -/
theorem sorted_sections (h : parse text path = .ok (some document)) :
    document.sections.Pairwise fun s t => s.first ≤ t.first := by
  obtain ⟨draft, -, h⟩ := Fault.bind_eq_ok_iff.mp h
  simp only at h
  split at h
  · cases h
  · cases h
    exact sorted_orderedRows draft.rows

end Companion

end SectionIndex
