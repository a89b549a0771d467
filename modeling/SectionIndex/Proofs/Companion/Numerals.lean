import SectionIndex.Proofs.Companion.Comments
import SectionIndex.Proofs.Text.Numeral

/-!
# The numbers of a companion document

A row of the table that names no lines is passed over, and so is a cell that is no range of lines.
But the digits of a range are always read, and a number of too many digits is a fault of the whole
document. So a document can be read if and only if no number in its table is too long.

## Main definitions

* `rangeTexts` — the digits of a range of lines.
* `Companion.tableLines` — the lines of a document that are read as rows.
* `Companion.digitTexts` — the digits that are read in a document.
* `Companion.IsLegible` — a document that can be read.

## Main statements

* `Companion.exists_parse_ok_iff` — when a document can be read.
-/

namespace SectionIndex

/-- **The digits of the lines a cell names**, if it names any. -/
def rangeTexts (value : Text) : List Text :=
  let value := value.strip
  let first := value.takeWhile isDecimal
  if first = [] then []
  else
    match (value.dropWhile isDecimal).dropWhile isBlank with
    | [] => [first]
    | dash :: rest =>
      let last := rest.dropWhile isBlank
      if (dash = '-' ∨ dash = '–') ∧ last ≠ [] ∧ last.all isDecimal then [first, last] else []

theorem exists_readNumber_decimals_iff {t : Text} (ht : ∀ c ∈ t, isDecimal c = true)
    (hne : t ≠ []) : (∃ n, readNumber t = .ok n) ↔ t.length ≤ maxDigits := by
  have hdigits : ∀ c ∈ t, isDigitForm c = true := fun c hc => by
    rw [isDigitForm, ht c hc, Bool.true_or]
  rw [exists_readNumber_iff hdigits hne]
  exact ⟨IsNumeral.length_le, fun hlength => ⟨ht, hlength⟩⟩

/-- **The lines a cell names are read** if no number of them is too long. -/
theorem exists_lineRange?_iff (value : Text) :
    (∃ range?, lineRange? value = .ok range?) ↔ ∀ t ∈ rangeTexts value, t.length ≤ maxDigits := by
  unfold lineRange? rangeTexts
  simp only
  have hfirst : ∀ c ∈ value.strip.takeWhile isDecimal, isDecimal c = true :=
    List.all_eq_true.mp List.all_takeWhile
  generalize value.strip.takeWhile isDecimal = first at hfirst
  generalize (value.strip.dropWhile isDecimal).dropWhile isBlank = rest
  -- the numbers are the digits at the start, and those after a dash
  by_cases hnil : first = []
  · rw [if_pos hnil, if_pos hnil]
    exact iff_of_true ⟨_, rfl⟩ (List.forall_mem_nil _)
  · rw [if_neg hnil, if_neg hnil]
    have hread := exists_readNumber_decimals_iff hfirst hnil
    cases rest with
    | nil =>
      simp only [Fault.exists_bind_eq_ok_iff, List.forall_mem_singleton]
      rw [← hread]
      constructor
      · rintro ⟨n, hn, -⟩
        exact ⟨n, hn⟩
      · rintro ⟨n, hn⟩
        exact ⟨n, hn, _, rfl⟩
    | cons dash rest =>
      simp only
      generalize rest.dropWhile isBlank = last
      by_cases hrange : (dash = '-' ∨ dash = '–') ∧ last ≠ [] ∧ last.all isDecimal = true
      · rw [if_pos hrange, if_pos hrange]
        obtain ⟨-, hne, hlast⟩ := hrange
        have hread' := exists_readNumber_decimals_iff (List.all_eq_true.mp hlast) hne
        simp only [Fault.exists_bind_eq_ok_iff, List.forall_mem_cons]
        rw [← hread, ← hread']
        constructor
        · rintro ⟨m, hm, n, hn, -⟩
          exact ⟨⟨m, hm⟩, ⟨n, hn⟩, List.forall_mem_nil _⟩
        · rintro ⟨⟨m, hm⟩, ⟨n, hn⟩, -⟩
          exact ⟨m, hm, n, hn, _, rfl⟩
      · rw [if_neg hrange, if_neg hrange]
        exact iff_of_true ⟨_, rfl⟩ (List.forall_mem_nil _)

theorem isOfNumber_of_lineRange? {value : Text} {fault : Fault}
    (h : lineRange? value = .error fault) : fault.IsOfNumber := by
  unfold lineRange? at h
  simp only at h
  split at h
  · cases h
  · split at h
    · exact Fault.isOfNumber_of_bind h (fun _ => isOfNumber_of_readNumber) fun _ _ h => nomatch h
    · split at h
      · refine Fault.isOfNumber_of_bind h (fun _ => isOfNumber_of_readNumber) fun _ _ h => ?_
        exact Fault.isOfNumber_of_bind h (fun _ => isOfNumber_of_readNumber)
          fun _ _ h => nomatch h
      · cases h

namespace Companion

/-- **The digits that are read in a row.** -/
def digitCells : List Text → List Text
  | name :: lines :: _ => if isHeadingName name then [] else rangeTexts lines
  | _ => []

/-- **The lines that are read as rows**, of those that follow in a part of a document. -/
def tableLines (current : Part) : List Text → List Text
  | [] => []
  | line :: lines =>
    match partOf? current line with
    | some part => tableLines part lines
    | none =>
      if current = .sections then line :: tableLines current lines else tableLines current lines

/-- **The digits that are read in a document.** -/
def digitTexts (text : Text) : List Text :=
  (tableLines .preamble (Text.breakLines text)).flatMap fun line => digitCells (tableCells line)

/-- **The document can be read:** no number in its table is too long. -/
def IsLegible (text : Text) : Prop :=
  ∀ t ∈ digitTexts text, t.length ≤ maxDigits

theorem exists_parseRow_iff (cells : List Text) :
    (∃ row?, parseRow cells = .ok row?) ↔ ∀ t ∈ digitCells cells, t.length ≤ maxDigits := by
  unfold parseRow
  split
  · next name lines more =>
    by_cases hname : isHeadingName name = true
    · rw [if_pos hname, digitCells, if_pos hname]
      exact iff_of_true ⟨_, rfl⟩ (List.forall_mem_nil _)
    · rw [if_neg hname, digitCells, if_neg hname, Fault.exists_bind_eq_ok_iff,
        ← exists_lineRange?_iff]
      constructor
      · rintro ⟨range?, h, -⟩
        exact ⟨range?, h⟩
      · rintro ⟨range?, h⟩
        refine ⟨range?, h, ?_⟩
        -- lines that are out of order are passed over
        cases range? with
        | none => exact ⟨_, rfl⟩
        | some range =>
          simp only
          split <;> exact ⟨_, rfl⟩
  · next hnot =>
    rw [digitCells.eq_2 cells hnot]
    exact iff_of_true ⟨_, rfl⟩ (List.forall_mem_nil _)

theorem isOfNumber_of_parseRow {cells : List Text} {fault : Fault}
    (h : parseRow cells = .error fault) : fault.IsOfNumber := by
  unfold parseRow at h
  split at h
  · split at h
    · cases h
    · refine Fault.isOfNumber_of_bind h (fun _ => isOfNumber_of_lineRange?) fun range? _ h => ?_
      split at h
      · split at h <;> cases h
      · cases h
  · cases h

/-- **The rows of a document are read** if those of each line of its table are. -/
theorem exists_readRows_iff (current : Part) (lines : List Text) :
    (∃ rows, readRows current lines = .ok rows) ↔
      ∀ t ∈ (tableLines current lines).flatMap (fun line => digitCells (tableCells line)),
        t.length ≤ maxDigits := by
  -- by induction on the lines, with the part they stand in as a parameter
  induction lines generalizing current with
  | nil => exact iff_of_true ⟨_, rfl⟩ (List.forall_mem_nil _)
  | cons line lines ih =>
    rw [readRows_cons, tableLines]
    cases partOf? current line with
    | some part => exact ih part
    | none =>
      simp only
      by_cases htable : current = .sections
      · rw [if_pos htable, if_pos htable, List.flatMap_cons, List.forall_mem_append,
          Fault.exists_bind_eq_ok_iff, ← exists_parseRow_iff, ← ih current]
        constructor
        · rintro ⟨row?, hrow, h⟩
          obtain ⟨rows, hrows, -⟩ := Fault.exists_bind_eq_ok_iff.mp h
          exact ⟨⟨row?, hrow⟩, rows, hrows⟩
        · rintro ⟨⟨row?, hrow⟩, rows, hrows⟩
          exact ⟨row?, hrow, Fault.exists_bind_eq_ok_iff.mpr ⟨rows, hrows, _, rfl⟩⟩
      · rw [if_neg htable, if_neg htable]
        exact ih current

theorem isOfNumber_of_readRows {current : Part} {lines : List Text} {fault : Fault}
    (h : readRows current lines = .error fault) : fault.IsOfNumber := by
  induction lines generalizing current fault with
  | nil => cases h
  | cons line lines ih =>
    rw [readRows_cons] at h
    split at h
    · exact ih h
    · split at h
      · refine Fault.isOfNumber_of_bind h (fun _ => isOfNumber_of_parseRow) fun _ _ h => ?_
        exact Fault.isOfNumber_of_bind h (fun _ => ih) fun _ _ h => nomatch h
      · exact ih h

/-- **A document can be read** if and only if no number in its table is too long. -/
theorem exists_parse_ok_iff (text path : Text) :
    (∃ document?, parse text path = .ok document?) ↔ IsLegible text := by
  have hrows := map_sectionsOf_parse text path
  rw [IsLegible, digitTexts, ← exists_readRows_iff]
  cases hparse : parse text path with
  | ok document? =>
    refine iff_of_true ⟨_, rfl⟩ ?_
    cases hread : readRows .preamble (Text.breakLines text) with
    | ok rows => exact ⟨rows, rfl⟩
    | error fault => rw [hparse, hread] at hrows; cases hrows
  | error fault =>
    refine iff_of_false nofun ?_
    rintro ⟨rows, hread⟩
    rw [hparse, hread] at hrows
    cases hrows

theorem isOfNumber_of_parse {text path : Text} {fault : Fault}
    (h : parse text path = .error fault) : fault.IsOfNumber := by
  have hrows := map_sectionsOf_parse text path
  rw [h] at hrows
  cases hread : readRows .preamble (Text.breakLines text) with
  | ok rows => rw [hread] at hrows; cases hrows
  | error fault' =>
    rw [hread] at hrows
    cases hrows
    exact isOfNumber_of_readRows hread

/-- How the lines of a document end is of no account. -/
theorem isLegible_normalizeNewlines_iff (text : Text) :
    IsLegible (Text.normalizeNewlines text) ↔ IsLegible text := by
  rw [IsLegible, IsLegible, digitTexts, digitTexts, Text.breakLines_normalizeNewlines]

end Companion

end SectionIndex
