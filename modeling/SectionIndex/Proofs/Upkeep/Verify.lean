import SectionIndex.Proofs.Scan.Layout
import SectionIndex.Proofs.Scan.Openings
import SectionIndex.Upkeep.Verify
import Mathlib.Data.List.Perm.Subperm

/-!
# What a check finds

A check finds nothing wrong if and only if the rows name lines of the file, and each section that is
found again has a row and starts near it.

## Main definitions

* `VerifyResult.IsClean` — a check that found nothing wrong.

## Main statements

* `rangeIssues_eq_nil_iff`, `driftIssues_eq_nil_iff` — when there are no issues.
* `exists_row_of_driftIssues` — sections of which none is missing are no more than the rows.
* `Context.verify_of_parse` — what a check finds in a file with a block.
* `Context.exists_isClean_iff` — when a check finds nothing wrong.
-/

namespace SectionIndex

/-- **A check that found nothing wrong.** -/
def VerifyResult.IsClean (result : VerifyResult) : Prop :=
  result.valid = true ∧ result.issues = []

variable {rows : List Block.Row} {sections : List Section} {tolerance : Int}

/-- The row of a name is any row with the name, if no two rows have one name. -/
theorem Block.findRow?_of_mem {row : Block.Row} (hnames : (rows.map Row.name).Nodup)
    (h : row ∈ rows) : findRow? rows row.name = some row := by
  induction rows with
  | nil => cases h
  | cons r rows ih =>
    rw [List.map_cons, List.nodup_cons] at hnames
    rcases List.mem_cons.mp h with rfl | hmem
    · exact List.find?_cons_of_pos (by simp)
    · have hne : r.name ≠ row.name := fun heq => hnames.1 (heq ▸ List.mem_map_of_mem hmem)
      rw [findRow?, List.find?_cons_of_neg (by simpa using hne)]
      exact ih hnames.2 hmem

theorem rangeIssues_eq_nil_iff {totalLines : Nat} : rangeIssues rows totalLines = [] ↔
    ∀ row ∈ rows, row.first ≤ totalLines ∧ row.last ≤ totalLines := by
  rw [rangeIssues, List.filterMap_eq_nil_iff]
  refine forall₂_congr fun row _ => ?_
  split
  · next h => exact iff_of_false (Option.some_ne_none _) (by omega)
  · next h => exact iff_of_true rfl (by omega)

/-- **Nothing is missing and nothing has drifted** if each section has a row that starts near it. -/
theorem driftIssues_eq_nil_iff : driftIssues rows sections tolerance = [] ↔
    ∀ s ∈ sections, ∃ row, Block.findRow? rows s.name = some row ∧
      ((row.first - s.first).natAbs : Int) ≤ tolerance := by
  rw [driftIssues, List.filterMap_eq_nil_iff]
  refine forall₂_congr fun s _ => ?_
  split
  · next hnone => exact iff_of_false (Option.some_ne_none _) (by simp [hnone])
  · next row hrow =>
    rw [hrow]
    simp only [Option.some.injEq, exists_eq_left', ite_eq_right_iff, reduceCtorEq, imp_false,
      Int.not_lt]

/-- Sections that are where the rows say have not drifted. -/
theorem driftIssues_eq_nil_of_map_start (hnames : (rows.map Block.Row.name).Nodup)
    (hrows : sections.map Section.start = rows.map fun row => (row.name, row.first))
    (htolerance : 0 ≤ tolerance) : driftIssues rows sections tolerance = [] := by
  refine driftIssues_eq_nil_iff.mpr fun s hs => ?_
  have hmem : s.start ∈ rows.map fun row => (row.name, row.first) :=
    hrows ▸ List.mem_map_of_mem hs
  obtain ⟨row, hrow, heq⟩ := List.mem_map.mp hmem
  obtain ⟨hname, hfirst⟩ := Prod.mk.inj heq
  refine ⟨row, hname ▸ Block.findRow?_of_mem hnames hrow, ?_⟩
  rw [hfirst, Int.sub_self]
  exact htolerance

/-- Rows with the lines of sections that are laid out in a file are in range. -/
theorem rangeIssues_eq_nil_of_map {low : Int} {totalLines : Nat}
    (h : IsLayout low totalLines sections)
    (hrows : rows.map (fun row => (row.first, row.last)) =
      sections.map fun s => (s.first, s.last)) :
    rangeIssues rows totalLines = [] := by
  refine rangeIssues_eq_nil_iff.mpr fun row hrow => ?_
  have hmem : (row.first, row.last) ∈ sections.map fun s => (s.first, s.last) :=
    hrows ▸ List.mem_map_of_mem hrow
  obtain ⟨s, hs, heq⟩ := List.mem_map.mp hmem
  obtain ⟨hfirst, hlast⟩ := Prod.mk.inj heq
  obtain ⟨-, hlines, hfile⟩ := h.bounds s hs
  rw [← hfirst, ← hlast]
  exact ⟨Int.le_trans hlines hfile, hfile⟩

/-- **Sections of which none is missing** have rows of their names, and are no more than the rows if
their names are different. -/
theorem exists_row_of_driftIssues (h : driftIssues rows sections tolerance = []) :
    (∀ s ∈ sections, ∃ row ∈ rows, row.name = s.name) ∧
      ((sections.map Section.name).Nodup → sections.length ≤ rows.length) := by
  have hrow : ∀ s ∈ sections, ∃ row ∈ rows, row.name = s.name := by
    intro s hs
    obtain ⟨row, hfind, -⟩ := driftIssues_eq_nil_iff.mp h s hs
    exact ⟨row, List.mem_of_find?_eq_some hfind, by simpa using List.find?_some hfind⟩
  refine ⟨hrow, fun hnames => ?_⟩
  -- different names are those of different rows
  have hsubset : sections.map Section.name ⊆ rows.map Block.Row.name := by
    refine List.forall_mem_map.mpr fun s hs => ?_
    obtain ⟨row, hmem, hname⟩ := hrow s hs
    exact hname ▸ List.mem_map_of_mem hmem
  have hlength := (hnames.subperm hsubset).length_le
  rwa [List.length_map, List.length_map] at hlength

/-- The outcome of a check that found nothing wrong says so, and no other does. -/
theorem VerifyResult.valid_ofIssues_iff {file : Text} {issues : List Issue} :
    (VerifyResult.ofIssues file issues).valid = true ↔ issues = [] :=
  List.isEmpty_iff

/-- **What a check finds** in a file with a block. -/
theorem Context.verify_of_parse {context : Context} {file content : Text} {b : Block}
    (hload : context.host.loadFile file = .ok content)
    (hparse : Block.parse content = .ok (some b)) (tolerance : Option Int) :
    context.verify file tolerance = .ok (.ofIssues file
      (contentIssues b.rows (Language.ofPath? (Path.ofText file)) content
        (tolerance.getD context.settings.driftTolerance))) := by
  rw [verify, hload]
  simp only [hparse]
  rfl

/-- **When a check finds nothing wrong** with a file that can be read. -/
theorem Context.exists_isClean_iff {host : Host} {file content : Text}
    (hload : host.loadFile file = .ok content) (settings : Settings) (now : Moment)
    (tolerance : Option Int) :
    (∃ check, (⟨host, settings, now⟩ : Context).verify file tolerance = .ok check ∧
        check.IsClean) ↔
      ∃ b, Block.parse content = .ok (some b) ∧
        contentIssues b.rows (Language.ofPath? (Path.ofText file)) content
          (tolerance.getD settings.driftTolerance) = [] := by
  constructor
  · rintro ⟨check, hverify, -, hissues⟩
    rw [verify, hload] at hverify
    obtain ⟨stored?, hparse, hverify⟩ := Fault.bind_eq_ok_iff.mp hverify
    cases stored? with
    | none =>
      cases hverify
      cases hissues
    | some b =>
      cases hverify
      exact ⟨b, hparse, hissues⟩
  · rintro ⟨b, hparse, hissues⟩
    exact ⟨_, Context.verify_of_parse hload hparse tolerance,
      VerifyResult.valid_ofIssues_iff.mpr hissues, hissues⟩

end SectionIndex
