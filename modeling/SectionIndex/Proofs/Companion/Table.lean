import SectionIndex.Proofs.Block.Row
import SectionIndex.Proofs.Companion.Document
import Mathlib.Data.List.Forall2

/-!
# Tables of companion documents, written and read

A person lays out a table as they like: any number of spaces around a cell, a hyphen or a dash
between two line numbers, one number where they are the same. Whatever the layout, the line of an
entry is read as that entry, and the two lines at the top of the table are read as none.

## Main definitions

* `Companion.IsCell`, `Companion.IsTableLine` — what a cell can hold, and a line with cells.
* `Companion.IsRangeText` — the ways to write a range of lines.
* `Companion.Entry` — an entry of a table, with `Entry.IsWritable` for those that can be written.

## Main statements

* `Companion.tableCells_of_isTableLine` — the cells of a line of a table.
* `Companion.lineRange?_of_isRangeText` — the lines that a range names.
* `Companion.Entry.parseRow_of_isWrittenAs` — the line of an entry is read as that entry.
-/

namespace SectionIndex

namespace Companion

/-- **What a cell can hold:** a trimmed text of one line without a bar. -/
@[mk_iff]
structure IsCell (t : Text) : Prop where
  strip_eq : t.strip = t
  bar_not_mem : '|' ∉ t
  unbroken : t.IsUnbroken

instance (t : Text) : Decidable (IsCell t) :=
  decidable_of_iff _ (isCell_iff t).symm

/-- Whatever ends a line is a blank. -/
theorem isBlank_of_isLineBreak {c : Char} (h : Text.isLineBreak c = true) : isBlank c = true := by
  simp only [Text.isLineBreak, Bool.or_eq_true, beq_iff_eq] at h
  rcases h with ((((((((rfl | rfl) | rfl) | rfl) | rfl) | rfl) | rfl) | rfl) | rfl) | rfl
  all_goals decide

/-- A text without blanks is trimmed and stays in its line. -/
theorem isCell_of_forall {t : Text} (h : ∀ c ∈ t, isBlank c = false ∧ c ≠ '|') : IsCell t where
  strip_eq := Text.strip_of_forall fun c hc => (h c hc).1
  bar_not_mem hc := (h _ hc).2 rfl
  unbroken c hc := by
    rw [← Bool.not_eq_true]
    exact fun hbreak => absurd ((h c hc).1.symm.trans (isBlank_of_isLineBreak hbreak)) (by decide)

/-! ### Ranges of lines -/

/-- **The ways to write a range of lines**, with a hyphen or a dash, or as the only line of it. -/
inductive IsRangeText (first : Nat) : Nat → Text → Prop
  | pair {dash : Char} (hdash : dash = '-' ∨ dash = '–') (last : Nat) :
      IsRangeText first last (Text.ofNat first ++ dash :: Text.ofNat last)
  | single : IsRangeText first first (Text.ofNat first)

section Range

variable {first last : Nat} {t : Text}

theorem IsRangeText.ne_nil (h : IsRangeText first last t) : t ≠ [] := by
  cases h with
  | pair hdash => simp
  | single => exact ofNat_ne_nil first

theorem IsRangeText.isCell (h : IsRangeText first last t) : IsCell t := by
  have hdigit : ∀ c : Char, c.isDigit = true → isBlank c = false ∧ c ≠ '|' := fun c hc =>
    ⟨isBlank_of_isDigit hc, by rintro rfl; exact absurd hc (by decide)⟩
  refine isCell_of_forall fun c hc => ?_
  cases h with
  | pair hdash =>
    rcases List.mem_append.mp hc with hc | hc
    · exact hdigit c (isDigit_of_mem_ofNat hc)
    · rcases List.mem_cons.mp hc with rfl | hc
      · rcases hdash with rfl | rfl <;> decide
      · exact hdigit c (isDigit_of_mem_ofNat hc)
  | single => exact hdigit c (isDigit_of_mem_ofNat hc)

/-- **The lines that a range names**, if none of its numbers is too long. -/
theorem lineRange?_of_isRangeText (h : IsRangeText first last t) (hfirst : isWritable first = true)
    (hlast : isWritable last = true) : lineRange? t = .ok (some (first, last)) := by
  have hstrip := h.isCell.strip_eq
  have hdigits : ∀ n : Nat, ∀ c ∈ Text.ofNat n, isDecimal c = true := fun n c hc =>
    isDecimal_of_isDigit c (isDigit_of_mem_ofNat hc)
  cases h with
  | @pair dash hdash =>
    -- between the numbers stands one character that is neither a digit nor a blank
    have hdecimal : isDecimal dash = false := by rcases hdash with rfl | rfl <;> decide
    have hblank : isBlank dash = false := by rcases hdash with rfl | rfl <;> decide
    have htake : (Text.ofNat first ++ dash :: Text.ofNat last).takeWhile isDecimal =
        Text.ofNat first := by
      rw [List.takeWhile_append_of_pos (hdigits first),
        List.takeWhile_cons_of_neg (by simp [hdecimal]), List.append_nil]
    have hdrop : (Text.ofNat first ++ dash :: Text.ofNat last).dropWhile isDecimal =
        dash :: Text.ofNat last := by
      rw [List.dropWhile_append_of_pos (hdigits first),
        List.dropWhile_cons_of_neg (by simp [hdecimal])]
    have hrest : (dash :: Text.ofNat last).dropWhile isBlank = dash :: Text.ofNat last :=
      List.dropWhile_cons_of_neg (by simp [hblank])
    have hlastDrop : (Text.ofNat last).dropWhile isBlank = Text.ofNat last :=
      List.dropWhile_eq_self_iff.mpr fun hpos => by
        rw [isBlank_of_isDigit (isDigit_of_mem_ofNat (List.getElem_mem hpos))]
        exact Bool.false_ne_true
    simp only [lineRange?, hstrip, htake, hdrop, hrest, hlastDrop]
    rw [if_neg (ofNat_ne_nil first),
      if_pos ⟨hdash, ofNat_ne_nil last, List.all_eq_true.mpr (hdigits last)⟩,
      readNumber_ofNat hfirst, readNumber_ofNat hlast]
    rfl
  | single =>
    -- a single line has nothing after its digits
    have hdrop : (Text.ofNat first).dropWhile isDecimal = [] :=
      List.dropWhile_eq_nil_iff.mpr (hdigits first)
    have htake : (Text.ofNat first).takeWhile isDecimal = Text.ofNat first :=
      List.takeWhile_eq_self_iff.mpr (hdigits first)
    simp only [lineRange?, hstrip, htake, hdrop, List.dropWhile_nil]
    rw [if_neg (ofNat_ne_nil first), readNumber_ofNat hfirst]
    rfl

end Range

/-! ### Lines of a table -/

/-- A cell with spaces around it. -/
def IsPadded (cell t : Text) : Prop :=
  ∃ n m, t = List.replicate n ' ' ++ cell ++ List.replicate m ' '

/-- **A line of a table:** its cells between bars, with spaces around them. -/
def IsTableLine (cells : List Text) (line : Text) : Prop :=
  ∃ padded, List.Forall₂ IsPadded cells padded ∧ line = '|' :: (Text.join ['|'] padded ++ ['|'])

section Padded

variable {cell p : Text}

theorem IsPadded.strip_eq (h : IsPadded cell p) (hcell : IsCell cell) : p.strip = cell := by
  obtain ⟨n, m, rfl⟩ := h
  exact (Text.trim_append_append (fun _ => Text.isBlank_of_mem_replicate)
    fun _ => Text.isBlank_of_mem_replicate).trans hcell.strip_eq

theorem IsPadded.subset (h : IsPadded cell p) {c : Char} (hc : c ∈ p) : c = ' ' ∨ c ∈ cell := by
  obtain ⟨n, m, rfl⟩ := h
  simp only [List.mem_append, List.mem_replicate] at hc
  tauto

theorem IsPadded.bar_not_mem (h : IsPadded cell p) (hcell : IsCell cell) : '|' ∉ p := fun hmem =>
  (h.subset hmem).elim (by decide) hcell.bar_not_mem

theorem IsPadded.unbroken (h : IsPadded cell p) (hcell : IsCell cell) : p.IsUnbroken := by
  intro c hc
  rcases h.subset hc with rfl | hc
  · rfl
  · exact hcell.unbroken c hc

theorem IsPadded.ne_nil (h : IsPadded cell p) (hcell : cell ≠ []) : p ≠ [] := by
  obtain ⟨n, m, rfl⟩ := h
  simp [hcell]

end Padded

/-- The outer bars are taken off a line with no other if the cells next to them are not empty. -/
theorem trim_bars {p r : Text} (between : Text) (hp : p ≠ []) (hr : r ≠ []) (hpbar : '|' ∉ p)
    (hrbar : '|' ∉ r) :
    Text.trim (· == '|') (p ++ between ++ r) = p ++ between ++ r := by
  refine Text.trim_of_ends (fun c hc => ?_) (fun c hc => ?_)
  · rw [List.append_assoc, List.head?_append_of_ne_nil _ hp] at hc
    exact beq_eq_false_iff_ne.mpr fun h => hpbar (h ▸ List.mem_of_mem_head? hc)
  · rw [List.getLast?_append_of_ne_nil _ hr] at hc
    exact beq_eq_false_iff_ne.mpr fun h => hrbar (h ▸ List.mem_of_getLast? hc)

/-- A line between two bars is trimmed. -/
theorem strip_between_bars (t : Text) :
    Text.strip ('|' :: (t ++ ['|'])) = '|' :: (t ++ ['|']) := by
  refine Text.trim_of_ends (fun c hc => ?_) (fun c hc => ?_)
  · cases hc
    rfl
  · rw [← List.cons_append, List.getLast?_concat] at hc
    cases hc
    rfl

/-- **The cells of a line of a table.** An empty last cell without a space in it is taken off with
the bars around it, but a cell that is not there counts as an empty one. -/
theorem tableCells_of_isTableLine {name lines description line : Text}
    (h : IsTableLine [name, lines, description] line)
    (hcells : ∀ cell ∈ [name, lines, description], IsCell cell) (hnameNil : name ≠ [])
    (hlinesNil : lines ≠ []) :
    ∃ more, tableCells line = name :: lines :: more ∧ more.head?.getD [] = description := by
  simp only [List.forall_mem_cons] at hcells
  obtain ⟨hname, hlines, hdescription, -⟩ := hcells
  obtain ⟨padded, hpadded, rfl⟩ := h
  simp only [List.forall₂_cons_left_iff, List.forall₂_nil_left_iff] at hpadded
  obtain ⟨p, _, hp, ⟨q, _, hq, ⟨r, _, hr, rfl, rfl⟩, rfl⟩, rfl⟩ := hpadded
  have hpbar := hp.bar_not_mem hname
  have hqbar := hq.bar_not_mem hlines
  have hrbar := hr.bar_not_mem hdescription
  -- each cell is free of bars, so splitting at them gives the cells back
  have hsplit : ∀ inner : List Text, inner ≠ [] → (∀ t ∈ inner, '|' ∉ t) →
      (Text.join ['|'] inner).splitOn '|' = inner := fun inner hne hbars =>
    List.splitOn_intercalate '|' hbars hne
  unfold tableCells
  simp only [strip_between_bars, List.head?_cons, if_true]
  by_cases hnil : r = []
  · -- both bars around the empty cell are taken off
    have htrim : Text.trim (· == '|') ('|' :: (Text.join ['|'] [p, q, r] ++ ['|'])) =
        Text.join ['|'] [p, q] := by
      have h := Text.trim_append_append_of_trim (p := (· == '|')) (a := ['|']) (b := ['|', '|'])
        (by decide) (by decide)
        (trim_bars ['|'] (hp.ne_nil hnameNil) (hq.ne_nil hlinesNil) hpbar hqbar)
      simpa [Text.join, List.intercalate, hnil] using h
    refine ⟨[], ?_, ?_⟩
    · rw [htrim, hsplit [p, q] (by simp) (by simp [hpbar, hqbar])]
      simp [hp.strip_eq hname, hq.strip_eq hlines]
    · rw [← hr.strip_eq hdescription, hnil]
      rfl
  · -- the cell is not empty, so only the outer bars are taken off
    have htrim : Text.trim (· == '|') ('|' :: (Text.join ['|'] [p, q, r] ++ ['|'])) =
        Text.join ['|'] [p, q, r] := by
      have h := Text.trim_append_append_of_trim (p := (· == '|')) (a := ['|']) (b := ['|'])
        (by decide) (by decide)
        (trim_bars ('|' :: (q ++ ['|'])) (hp.ne_nil hnameNil) hnil hpbar hrbar)
      simpa [Text.join, List.intercalate] using h
    refine ⟨[description], ?_, rfl⟩
    rw [htrim, hsplit [p, q, r] (by simp) (by simp [hpbar, hqbar, hrbar])]
    simp [hp.strip_eq hname, hq.strip_eq hlines, hr.strip_eq hdescription]

/-- What each text is written as has a property that comes from the text. -/
theorem forall_mem_of_forall₂ {α β : Type} {R : α → β → Prop} {P : α → Prop} {Q : β → Prop}
    {sources : List α} {written : List β} (h : List.Forall₂ R sources written)
    (hsources : ∀ a ∈ sources, P a) (hstep : ∀ {a b}, P a → R a b → Q b) : ∀ b ∈ written, Q b := by
  induction h with
  | nil => exact List.forall_mem_nil _
  | cons hab _ ih =>
    obtain ⟨ha, hsources⟩ := List.forall_mem_cons.mp hsources
    exact List.forall_mem_cons.mpr ⟨hstep ha hab, ih hsources⟩

/-- A line of a table stays in one line if its cells do. -/
theorem unbroken_of_isTableLine {cells : List Text} {line : Text} (h : IsTableLine cells line)
    (hcells : ∀ cell ∈ cells, IsCell cell) : line.IsUnbroken := by
  obtain ⟨padded, hpadded, rfl⟩ := h
  have hunbroken : ∀ p ∈ padded, p.IsUnbroken :=
    forall_mem_of_forall₂ hpadded hcells fun hcell hpad => hpad.unbroken hcell
  refine Text.isUnbroken_cons.mpr ⟨rfl, Text.isUnbroken_append.mpr ⟨fun c hc => ?_, by decide⟩⟩
  rcases Text.mem_join hc with hc | ⟨p, hp, hc⟩
  · obtain rfl := List.mem_singleton.mp hc
    rfl
  · exact hunbroken p hp c hc

/-- No part of a document starts at a line of a table. -/
theorem partOf?_of_isTableLine {cells : List Text} {line : Text} (h : IsTableLine cells line)
    (current : Part) : partOf? current line = none := by
  obtain ⟨padded, -, rfl⟩ := h
  rw [partOf?, if_neg (by simp), if_neg (by simp)]

/-! ### The lines at the top of a table -/

/-- **The line with the names of the columns.** -/
def IsHeadingLine (line : Text) : Prop :=
  ∃ label, IsCell label ∧ foldCase label ∈ headingLabels ∧
    IsTableLine [label, "Lines", "Description"] line

/-- **The line of dashes** under the names of the columns. -/
def IsDashLine (line : Text) : Prop :=
  ∃ left middle right, IsDashes left ∧ IsDashes middle ∧ IsDashes right ∧
    IsTableLine [left, middle, right] line

theorem isCell_of_isDashes {t : Text} (h : IsDashes t) : IsCell t := by
  have hmem : ∀ c ∈ t, c = ':' ∨ c = '-' := by
    obtain ⟨left, right, n, rfl⟩ := h
    intro c hc
    cases left <;> cases right <;> simp at hc <;> tauto
  refine isCell_of_forall fun c hc => ?_
  rcases hmem c hc with rfl | rfl <;> decide

theorem ne_nil_of_isDashes {t : Text} (h : IsDashes t) : t ≠ [] := by
  obtain ⟨left, right, n, rfl⟩ := h
  simp

theorem isHeadingName_iff {name : Text} :
    isHeadingName name = true ↔ name = [] ∨ foldCase name ∈ headingLabels ∨ IsDashes name := by
  rw [isHeadingName, Bool.or_eq_true, Bool.or_eq_true, List.isEmpty_iff, List.contains_iff_mem,
    isSeparatorCell_iff, or_assoc]

/-- A line of a table whose first cell is the name of no entry. -/
def IsTopLine (line : Text) : Prop :=
  ∃ name lines description, (∀ cell ∈ [name, lines, description], IsCell cell) ∧ name ≠ [] ∧
    lines ≠ [] ∧ isHeadingName name = true ∧ IsTableLine [name, lines, description] line

theorem IsHeadingLine.isTopLine {line : Text} (h : IsHeadingLine line) : IsTopLine line := by
  obtain ⟨label, hlabel, hmem, hline⟩ := h
  have hne : label ≠ [] := by
    rintro rfl
    exact absurd hmem (by decide)
  refine ⟨label, _, _, ?_, hne, by decide, isHeadingName_iff.mpr (Or.inr (Or.inl hmem)), hline⟩
  simp only [List.forall_mem_cons]
  exact ⟨hlabel, ⟨by decide, by decide, by decide⟩, ⟨by decide, by decide, by decide⟩,
    List.forall_mem_nil _⟩

theorem IsDashLine.isTopLine {line : Text} (h : IsDashLine line) : IsTopLine line := by
  obtain ⟨left, middle, right, hleft, hmiddle, hright, hline⟩ := h
  refine ⟨left, middle, right, ?_, ne_nil_of_isDashes hleft, ne_nil_of_isDashes hmiddle,
    isHeadingName_iff.mpr (Or.inr (Or.inr hleft)), hline⟩
  simp only [List.forall_mem_cons]
  exact ⟨isCell_of_isDashes hleft, isCell_of_isDashes hmiddle, isCell_of_isDashes hright,
    List.forall_mem_nil _⟩

namespace IsTopLine

variable {line : Text} (h : IsTopLine line)

include h

theorem partOf?_eq (current : Part) : partOf? current line = none := by
  obtain ⟨name, lines, description, -, -, -, -, hline⟩ := h
  exact partOf?_of_isTableLine hline current

theorem unbroken : line.IsUnbroken := by
  obtain ⟨name, lines, description, hcells, -, -, -, hline⟩ := h
  exact unbroken_of_isTableLine hline hcells

/-- **The lines at the top of a table** are no entries. -/
theorem parseRow_eq : parseRow (tableCells line) = .ok none := by
  obtain ⟨name, lines, description, hcells, hname, hlines, hheading, hline⟩ := h
  obtain ⟨more, hmore, -⟩ := tableCells_of_isTableLine hline hcells hname hlines
  rw [hmore, parseRow, if_pos hheading]

end IsTopLine

/-! ### Entries -/

/-- **An entry of a table.** -/
structure Entry where
  name : Text
  first : Nat
  last : Nat
  description : Text
  deriving DecidableEq, Repr

/-- The section that an entry stands for. -/
def Entry.section (entry : Entry) : Section :=
  ⟨entry.name, entry.first, entry.last, entry.description, .companion⟩

/-- **An entry that can be written:** its name is none of those that stand at the top of a table,
its lines are in order, and their numbers are not too long. -/
@[mk_iff]
structure Entry.IsWritable (entry : Entry) : Prop where
  name : IsCell entry.name
  description : IsCell entry.description
  name_ne_nil : entry.name ≠ []
  foldCase_name_not_mem : foldCase entry.name ∉ headingLabels
  name_not_dashes : ¬ IsDashes entry.name
  one_le_first : 1 ≤ entry.first
  first_le_last : entry.first ≤ entry.last
  last_lt : entry.last < 10 ^ maxDigits

/-- Whether an entry can be written is told from how long its last number is. -/
instance (entry : Entry) : Decidable entry.IsWritable :=
  decidable_of_iff (IsCell entry.name ∧ IsCell entry.description ∧ entry.name ≠ [] ∧
      foldCase entry.name ∉ headingLabels ∧ isSeparatorCell entry.name = false ∧
      1 ≤ entry.first ∧ entry.first ≤ entry.last ∧ SectionIndex.isWritable entry.last = true) <| by
    rw [← Bool.not_eq_true, isSeparatorCell_iff, isWritable_iff, Int.natAbs_natCast,
      Entry.isWritable_iff]

/-- **The ways to write an entry**, whatever its layout. -/
def Entry.IsWrittenAs (entry : Entry) (line : Text) : Prop :=
  ∃ range, IsRangeText entry.first entry.last range ∧
    IsTableLine [entry.name, range, entry.description] line

namespace Entry

variable {entry : Entry} {line : Text}

theorem IsWritable.isCell_of_isRangeText (h : entry.IsWritable) {range : Text}
    (hrange : IsRangeText entry.first entry.last range) :
    ∀ cell ∈ [entry.name, range, entry.description], IsCell cell := by
  simp only [List.forall_mem_cons]
  exact ⟨h.name, hrange.isCell, h.description, List.forall_mem_nil _⟩

theorem unbroken_of_isWrittenAs (h : entry.IsWritable) (hline : entry.IsWrittenAs line) :
    line.IsUnbroken := by
  obtain ⟨range, hrange, hline⟩ := hline
  exact unbroken_of_isTableLine hline (h.isCell_of_isRangeText hrange)

theorem partOf?_of_isWrittenAs (hline : entry.IsWrittenAs line) (current : Part) :
    partOf? current line = none := by
  obtain ⟨range, -, hline⟩ := hline
  exact partOf?_of_isTableLine hline current

/-- **The line of an entry is read as that entry.** -/
theorem parseRow_of_isWrittenAs (h : entry.IsWritable) (hline : entry.IsWrittenAs line) :
    parseRow (tableCells line) = .ok (some entry.section) := by
  obtain ⟨range, hrange, hline⟩ := hline
  obtain ⟨more, hcells, hmore⟩ := tableCells_of_isTableLine hline (h.isCell_of_isRangeText hrange)
    h.name_ne_nil hrange.ne_nil
  -- the name is no heading, and the lines are in order
  have hname : isHeadingName entry.name = false := by
    rw [Bool.eq_false_iff, ne_eq, isHeadingName_iff, not_or, not_or]
    exact ⟨h.name_ne_nil, h.foldCase_name_not_mem, h.name_not_dashes⟩
  have hlast : SectionIndex.isWritable entry.last = true :=
    SectionIndex.isWritable_iff.mpr h.last_lt
  have hfirst : SectionIndex.isWritable entry.first = true :=
    isWritable_of_le (Int.natCast_nonneg _) (Int.ofNat_le.mpr h.first_le_last) hlast
  have hlines : (1 : Int) ≤ entry.first ∧ (entry.first : Int) ≤ entry.last :=
    ⟨Int.ofNat_le.mpr h.one_le_first, Int.ofNat_le.mpr h.first_le_last⟩
  rw [hcells, parseRow, hname, if_neg Bool.false_ne_true,
    lineRange?_of_isRangeText hrange hfirst hlast, hmore]
  exact if_pos hlines

end Entry

end Companion

end SectionIndex
