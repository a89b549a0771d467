import SectionIndex.Proofs.Block.Cell
import SectionIndex.Proofs.Text.Numeral

/-!
# Rows of a block, written and read

A row is *storable* if it can stand in a block as it is. The line that is written for a storable
row is read as that row, and every row that is read from a line is storable, whoever wrote the
line. So the storable rows are exactly those that a block can hold.

## Main definitions

* `IsDashes` — the dashes under a heading.
* `Block.Style.sign` — the comment sign of a line of a block.
* `Block.IsCellText`, `Block.Row.IsStorable` — a text that a cell can hold, and a row that a
  block can hold.

## Main statements

* `Block.parseRow_sectionLine` — the line of a section with a storable row is read as that row.
* `Block.isStorable_of_parseRow` — every row that is read is storable.
-/

namespace SectionIndex

/-- **The dashes under a heading:** one or more, with or without a colon at either end. -/
def IsDashes (t : Text) : Prop :=
  ∃ (left right : Bool) (n : Nat),
    t = (if left then [':'] else []) ++ List.replicate (n + 1) '-' ++ if right then [':'] else []

/-- What is left of the dashes after a colon at their start: dashes, with or without a colon at
their end. -/
theorem isDashRun_iff {t : Text} : (t.head? == some '-' &&
      ((t.dropWhile (· == '-')).isEmpty || t.dropWhile (· == '-') == [':'])) = true ↔
    ∃ (right : Bool) (n : Nat), t = List.replicate (n + 1) '-' ++ if right then [':'] else [] := by
  constructor
  · intro h
    simp only [Bool.and_eq_true, Bool.or_eq_true, beq_iff_eq, List.isEmpty_iff] at h
    obtain ⟨hhead, hrest⟩ := h
    obtain ⟨v, rfl⟩ := List.head?_eq_some_iff.mp hhead
    -- the run of dashes has a first one, so its length is a successor
    have htake : ('-' :: v).takeWhile (· == '-') =
        List.replicate (v.takeWhile (· == '-')).length.succ '-' := by
      rw [List.takeWhile_cons_of_pos rfl, List.replicate_succ]
      congr 1
      refine List.eq_replicate_iff.mpr ⟨rfl, fun c hc => ?_⟩
      have h := List.all_eq_true.mp List.all_takeWhile c hc
      simpa using h
    have happend := List.takeWhile_append_dropWhile (p := (· == '-')) (l := '-' :: v)
    rw [htake] at happend
    rcases hrest with hrest | hrest
    · exact ⟨false, _, by rw [← happend, hrest]; rfl⟩
    · exact ⟨true, _, by rw [← happend, hrest]; rfl⟩
  · rintro ⟨right, n, rfl⟩
    have hdrop :
        (List.replicate (n + 1) '-' ++ if right then [':'] else []).dropWhile (· == '-') =
        if right then [':'] else [] := by
      rw [List.dropWhile_append_of_pos (by simp)]
      cases right <;> rfl
    rw [hdrop]
    cases right <;> simp [List.replicate_succ]

theorem isSeparatorCell_iff {t : Text} : isSeparatorCell t = true ↔ IsDashes t := by
  unfold isSeparatorCell
  -- a colon at the start is taken off, and a run of dashes has to follow
  split
  · next hcolon =>
    obtain ⟨v, rfl⟩ := List.head?_eq_some_iff.mp hcolon
    rw [List.tail_cons, isDashRun_iff]
    constructor
    · rintro ⟨right, n, rfl⟩
      exact ⟨true, right, n, rfl⟩
    · rintro ⟨left, right, n, h⟩
      cases left with
      -- a text that starts with a colon does not start with a dash
      | true => exact ⟨right, n, by simpa using h⟩
      | false => simp [List.replicate_succ] at h
  · next hcolon =>
    rw [isDashRun_iff]
    constructor
    · rintro ⟨right, n, rfl⟩
      exact ⟨false, right, n, rfl⟩
    · rintro ⟨left, right, n, rfl⟩
      cases left with
      | true => exact absurd rfl hcolon
      | false => exact ⟨right, n, rfl⟩

namespace Block

theorem isHeadingName_iff {name : Text} :
    isHeadingName name = true ↔ name = [] ∨ name = nameHeading ∨ IsDashes name := by
  rw [isHeadingName, Bool.or_eq_true, Bool.or_eq_true, List.isEmpty_iff, beq_iff_eq,
    isSeparatorCell_iff, or_assoc]

/-- **A text that a cell can hold:** it is trimmed, it stays in its line, and it is not mistaken
for the escape of another. -/
structure IsCellText (style : Style) (t : Text) : Prop where
  strip_eq : t.strip = t
  unbroken : t.IsUnbroken
  escapable : IsEscapable style t

/-- **A row that a block can hold.** -/
structure Row.IsStorable (style : Style) (row : Row) : Prop where
  name_ne_nil : row.name ≠ []
  name_ne_heading : row.name ≠ nameHeading
  name_not_dashes : ¬ IsDashes row.name
  name : IsCellText style row.name
  description : IsCellText style row.description
  first_nonneg : 0 ≤ row.first
  last_nonneg : 0 ≤ row.last

theorem Row.IsStorable.isHeadingName_eq {style : Style} {row : Row} (h : row.IsStorable style) :
    isHeadingName row.name = false := by
  rw [Bool.eq_false_iff, ne_eq, isHeadingName_iff, not_or, not_or]
  exact ⟨h.name_ne_nil, h.name_ne_heading, h.name_not_dashes⟩

/-- Hash lines hold whatever a documentation comment holds. -/
theorem Row.IsStorable.hash {style : Style} {row : Row} (h : row.IsStorable style) :
    row.IsStorable .hash :=
  { h with
    name := ⟨h.name.strip_eq, h.name.unbroken, fun hstyle => absurd hstyle (by decide)⟩
    description :=
      ⟨h.description.strip_eq, h.description.unbroken, fun hstyle => absurd hstyle (by decide)⟩ }

/-! ### Lines with their comment signs -/

/-- The sign before a line of a block. -/
def Style.sign : Style → Text
  | .jsdoc => " *"
  | .hash => "#"

variable {style : Style}

theorem strip_space_cons (t : Text) : Text.strip (' ' :: t) = t.strip :=
  Text.trim_append_left (a := [' ']) t (by decide)

/-- The spaces that frame a cell are taken off. -/
theorem strip_framed (t : Text) : Text.strip (' ' :: t ++ [' ']) = t.strip :=
  Text.trim_append_append (a := [' ']) (by decide) (by decide)

/-- **The comment sign is taken off a trimmed line**, and the line is left. -/
theorem uncommented_commentLine {line : Text} (h : line.strip = line) :
    uncommented (commentLine style.sign line) = line := by
  unfold commentLine
  split
  · next hnil =>
    subst hnil
    cases style <;> rfl
  · next hne =>
    -- of the sign only its last character is left, with the space after it
    have hmarked : ∀ c : Char, isBlank c = false → Text.strip (c :: ' ' :: line) =
        c :: ' ' :: line := by
      intro c hc
      refine Text.trim_of_ends (fun d hd => ?_) (fun d hd => ?_)
      · obtain rfl : c = d := by simpa using hd
        exact hc
      · rw [List.getLast?_cons_cons, List.getLast?_cons, Option.mem_some_iff] at hd
        obtain ⟨e, he⟩ := Option.ne_none_iff_exists'.mp (mt List.getLast?_eq_none_iff.mp hne)
        rw [he] at hd
        exact (Text.trim_eq_self_iff.mp h).2 d (hd ▸ he)
    -- the sign is gone, and stripping takes the space off the trimmed line
    have hspace : Text.strip (' ' :: line) = line := (strip_space_cons line).trans h
    cases style with
    | jsdoc =>
      have hstrip : Text.strip (' ' :: '*' :: ' ' :: line) = '*' :: ' ' :: line :=
        (strip_space_cons _).trans (hmarked '*' (by decide))
      show uncommented (' ' :: '*' :: ' ' :: line) = line
      rw [uncommented, hstrip]
      exact hspace
    | hash =>
      show uncommented ('#' :: ' ' :: line) = line
      rw [uncommented, hmarked '#' (by decide)]
      exact hspace

theorem rowCells_of_head?_ne {line : Text} (h : line.strip = line) (hbar : line.head? ≠ some '|') :
    rowCells style (commentLine style.sign line) = [] := by
  rw [rowCells, uncommented_commentLine h]
  exact if_neg hbar

theorem tableLine_eq (cells : List Text) :
    tableLine cells = ['|'] ++ (' ' :: Text.join " | " cells ++ [' ']) ++ ['|'] := by
  simp [tableLine]

/-- A line of a table is trimmed, as it has a bar at either end. -/
theorem strip_tableLine (cells : List Text) : (tableLine cells).strip = tableLine cells := by
  rw [tableLine_eq]
  refine Text.trim_of_ends (fun c hc => ?_) (fun c hc => ?_)
  · obtain rfl : '|' = c := by simpa using hc
    rfl
  · rw [List.getLast?_concat, Option.mem_some_iff] at hc
    rw [← hc]
    rfl

/-- **The cells of a line of a table.** -/
theorem rowCells_tableLine {cells : List Text} (hne : cells ≠ [])
    (hcells : ∀ cell ∈ cells, IsWhole false cell) :
    rowCells style (commentLine style.sign (tableLine cells)) =
      cells.map fun cell => unescapeCell style cell.strip := by
  -- the outer bars are taken off with no other, as a space stands next to each
  have hinner : Text.trim (· == '|') (' ' :: Text.join " | " cells ++ [' ']) =
      ' ' :: Text.join " | " cells ++ [' '] := by
    refine Text.trim_of_ends (fun c hc => ?_) (fun c hc => ?_)
    · obtain rfl : ' ' = c := by simpa using hc
      rfl
    · rw [List.getLast?_concat, Option.mem_some_iff] at hc
      rw [← hc]
      rfl
  have hhead : (tableLine cells).head? = some '|' := rfl
  rw [rowCells, uncommented_commentLine (strip_tableLine cells)]
  simp only [hhead, if_true]
  rw [tableLine_eq, Text.trim_append_append_of_trim (by simp) (by simp) hinner,
    splitCells_framed hne hcells, List.map_map]
  -- the spaces that frame a cell are stripped with its own padding
  refine List.map_congr_left fun (cell : Text) _ => ?_
  rw [Function.comp_apply, strip_framed]

/-! ### Cells of written lines -/

theorem unescapeCell_of_not_mem {t : Text} (h : '\\' ∉ t) : unescapeCell style t = t := by
  -- both escapes start with a backslash, so neither occurs
  have hbars : unescapeBars t = t := by
    induction t using unescapeBars.induct with
    | case1 => rfl
    | case2 t _ => exact absurd List.mem_cons_self h
    | case3 c t hnot ih =>
      rw [unescapeBars.eq_3 _ _ hnot, ih fun hmem => h (List.mem_cons_of_mem _ hmem)]
  have hclosings : unescapeClosings t = t := by
    clear hbars
    induction t using unescapeClosings.induct with
    | case1 => rfl
    | case2 t _ => exact absurd (List.mem_cons_of_mem _ List.mem_cons_self) h
    | case3 c t hnot ih =>
      rw [unescapeClosings.eq_3 _ _ hnot, ih fun hmem => h (List.mem_cons_of_mem _ hmem)]
  cases style with
  | hash => exact hbars
  | jsdoc => rw [unescapeCell, hclosings, hbars]

theorem bar_not_mem_spaces (n : Nat) : '|' ∉ List.replicate n ' ' := by
  intro h
  exact absurd (List.eq_of_mem_replicate h) (by decide)

theorem isWhole_padRight {n : Nat} {t : Text} (h : IsWhole false t) :
    IsWhole false (Text.padRight n t) :=
  h.append (bar_not_mem_spaces _)

/-- The cell of a number holds its numeral. -/
theorem unescapeCell_strip_padLeft_ofInt (n : Nat) (m : Int) :
    unescapeCell style (Text.padLeft n (Text.ofInt m)).strip = Text.ofInt m := by
  rw [Text.strip_padLeft, strip_ofInt,
    unescapeCell_of_not_mem (not_mem_ofInt (by decide) (by decide))]

theorem isWhole_padLeft_ofInt (n : Nat) (m : Int) : IsWhole false (Text.padLeft n (Text.ofInt m)) :=
  isWhole_of_not_mem fun h => (List.mem_append.mp h).elim (bar_not_mem_spaces _)
    (not_mem_ofInt (by decide) (by decide))

/-- **The cell of a text holds the text.** -/
theorem unescapeCell_strip_padRight_escapeCell (n : Nat) {t : Text} (h : IsCellText style t) :
    unescapeCell style (Text.padRight n (escapeCell style t)).strip = t := by
  rw [Text.strip_padRight, strip_escapeCell h.strip_eq, unescapeCell_escapeCell h.escapable]

/-! ### Lines of a table -/

/-- The line of headings is no row. -/
theorem parseRow_headingLine (n m : Nat) :
    parseRow (rowCells style (commentLine style.sign (headingLine n m))) = .ok none := by
  rw [headingLine, rowCells_tableLine (by simp)]
  · have hname : unescapeCell style (Text.padRight n nameHeading).strip = nameHeading := by
      rw [Text.strip_padRight]
      cases style <;> decide
    rw [List.map_cons, hname]
    rfl
  · simp only [List.forall_mem_cons]
    exact ⟨isWhole_padRight rfl, rfl, rfl, rfl, isWhole_padRight rfl, List.forall_mem_nil _⟩

/-- Nor is the line of dashes under it. -/
theorem parseRow_dashLine {n : Nat} (m : Nat) (hn : n ≠ 0) :
    parseRow (rowCells style (commentLine style.sign (dashLine n m))) = .ok none := by
  have hwhole : ∀ k, IsWhole false (List.replicate k '-') := fun k =>
    isWhole_of_not_mem fun h => absurd (List.eq_of_mem_replicate h) (by decide)
  rw [dashLine, rowCells_tableLine (by simp)]
  · have hname : unescapeCell style (Text.strip (List.replicate n '-')) = List.replicate n '-' := by
      have hblank : ∀ c ∈ List.replicate n '-', isBlank c = false := fun c hc => by
        rw [List.eq_of_mem_replicate hc]
        rfl
      rw [Text.strip_of_forall hblank, unescapeCell_of_not_mem fun h =>
        absurd (List.eq_of_mem_replicate h) (by decide)]
    -- a column is never so narrow that no dash is left
    obtain ⟨k, rfl⟩ := Nat.exists_eq_succ_of_ne_zero hn
    have hdashes : isHeadingName (List.replicate k.succ '-') = true :=
      isHeadingName_iff.mpr (Or.inr (Or.inr ⟨false, false, k, by simp⟩))
    rw [List.map_cons, hname]
    simp [parseRow, hdashes]
  · simp only [List.forall_mem_cons]
    exact ⟨hwhole _, hwhole _, hwhole _, hwhole _, hwhole _, List.forall_mem_nil _⟩

/-- **The line of a section with a storable row is read as that row.** A size below zero has a
sign and is no numeral of a cell, but it is computed then. -/
theorem parseRow_sectionLine {s : Section} (n m : Nat) (h : (rowOf s).IsStorable style)
    (hfirst : isWritable s.first = true) (hlast : isWritable s.last = true)
    (hsize : isWritable s.size = true) :
    parseRow (rowCells style (commentLine style.sign (sectionLine style n m s))) =
      .ok (some (rowOf s)) := by
  -- the cells of the line are the texts of the row
  have hcells : rowCells style (commentLine style.sign (sectionLine style n m s)) =
      [s.name, Text.ofInt s.first, Text.ofInt s.last, Text.ofInt s.size, s.description] := by
    rw [sectionLine, rowCells_tableLine (by simp)]
    · have hname := unescapeCell_strip_padRight_escapeCell n h.name
      have hdescription := unescapeCell_strip_padRight_escapeCell m h.description
      simp only [rowOf] at hname hdescription
      simp only [List.map_cons, List.map_nil, unescapeCell_strip_padLeft_ofInt, hname, hdescription]
    · simp only [List.forall_mem_cons]
      exact ⟨isWhole_padRight (isWhole_escapeCell _ _), isWhole_padLeft_ofInt _ _,
        isWhole_padLeft_ofInt _ _, isWhole_padLeft_ofInt _ _,
        isWhole_padRight (isWhole_escapeCell _ _), List.forall_mem_nil _⟩
  have hcell : ∀ k : Int, 0 ≤ k → isDigitCell (Text.ofInt k) = true := fun k hk => by
    rw [isDigitCell_ofInt, decide_eq_true hk]
  have hsizeCell : rowSize s.first s.last (some (Text.ofInt s.size)) = .ok s.size := by
    rw [rowSize, isDigitCell_ofInt]
    -- a size with a sign is no cell of digits, and is computed from the lines to the same number
    by_cases hneg : 0 ≤ s.size
    · rw [decide_eq_true hneg, if_pos rfl, readNumber_ofInt hneg hsize]
    · rw [decide_eq_false hneg]
      rfl
  have hname : isHeadingName s.name = false := h.isHeadingName_eq
  have hfirstCell := hcell s.first h.first_nonneg
  have hlastCell := hcell s.last h.last_nonneg
  have hreadFirst : readNumber (Text.ofInt s.first) = .ok s.first :=
    readNumber_ofInt h.first_nonneg hfirst
  have hreadLast : readNumber (Text.ofInt s.last) = .ok s.last :=
    readNumber_ofInt h.last_nonneg hlast
  rw [hcells, parseRow, hname, hfirstCell, hlastCell, if_neg (by decide), hreadFirst, hreadLast,
    List.head?_cons]
  show (rowSize s.first s.last (some (Text.ofInt s.size)) >>= _) = _
  rw [hsizeCell]
  rfl

/-! ### Rows that are read -/

theorem mem_of_mem_splitCellsFrom {escaped : Bool} {t cell : Text} {c : Char}
    (hcell : cell ∈ splitCellsFrom escaped t) (hc : c ∈ cell) : c ∈ t := by
  -- by induction on the text, with what stood before it as a parameter
  induction t generalizing escaped cell with
  | nil =>
    obtain rfl : cell = [] := by simpa [splitCellsFrom] using hcell
    exact hc
  | cons d t ih =>
    rw [splitCellsFrom] at hcell
    split at hcell
    -- a bar ends the cell before it and is in none of them
    · rcases List.mem_cons.mp hcell with rfl | hcell
      · exact absurd hc (by simp)
      · exact List.mem_cons_of_mem _ (ih hcell hc)
    · cases hsplit : splitCellsFrom (d == '\\') t with
      | nil => exact absurd hsplit (splitCellsFrom_ne_nil _ _)
      | cons first rest =>
        rw [hsplit, List.modifyHead_cons] at hcell
        rcases List.mem_cons.mp hcell with rfl | hcell
        · refine (List.mem_cons.mp hc).elim (fun h => h ▸ List.mem_cons_self) fun h => ?_
          exact List.mem_cons_of_mem _ (ih (hsplit ▸ List.mem_cons_self) h)
        · exact List.mem_cons_of_mem _ (ih (hsplit ▸ List.mem_cons_of_mem _ hcell) hc)

theorem mem_of_mem_uncommented {line : Text} {c : Char} (h : c ∈ uncommented line) : c ∈ line :=
  Text.mem_of_mem_trim ((List.dropWhile_suffix _).subset (Text.mem_of_mem_trim h))

/-- Every cell of an unbroken line is a text that a cell can hold. -/
theorem isCellText_of_mem_rowCells {line cell : Text} (hline : line.IsUnbroken)
    (h : cell ∈ rowCells style line) : IsCellText style cell := by
  unfold rowCells at h
  simp only at h
  split at h
  · obtain ⟨t, ht, rfl⟩ := List.mem_map.mp h
    refine ⟨strip_unescapeCell (Text.trim_trim _ _), ?_, isEscapable_unescapeCell _ _⟩
    refine hline.subset fun c hc => ?_
    have hmem : c ∈ t := Text.mem_of_mem_trim ((unescapeCell_sublist _ _).subset hc)
    exact mem_of_mem_uncommented (Text.mem_of_mem_trim (mem_of_mem_splitCellsFrom ht hmem))
  · exact absurd h (by simp)

theorem isCellText_nil : IsCellText style [] :=
  ⟨rfl, Text.isUnbroken_nil, fun _ h => absurd h (by decide)⟩

/-- **Every row that is read from a line is storable.** -/
theorem isStorable_of_parseRow {line : Text} {row : Row} (hline : line.IsUnbroken)
    (h : parseRow (rowCells style line) = .ok (some row)) : row.IsStorable style := by
  have hcells : ∀ cell ∈ rowCells style line, IsCellText style cell :=
    fun cell => isCellText_of_mem_rowCells hline
  -- what the cells are does not matter any more, only that each of them can be held
  revert h hcells
  generalize rowCells style line = cells
  intro h hcells
  unfold parseRow at h
  split at h
  · next name first last more =>
    split at h
    · cases h
    · next hrow =>
      -- the row was not refused, so its name is no heading and its lines are cells of digits
      rw [Bool.or_eq_true, not_or, Bool.not_eq_true, Bool.not_eq_true, Bool.not_eq_false',
        Bool.and_eq_true, ← Bool.not_eq_true, isHeadingName_iff, not_or, not_or] at hrow
      obtain ⟨⟨hnil, hheading, hdashes⟩, hfirst, hlast⟩ := hrow
      obtain ⟨n, hreadFirst, h⟩ := Fault.bind_eq_ok_iff.mp h
      obtain ⟨m, hreadLast, h⟩ := Fault.bind_eq_ok_iff.mp h
      obtain ⟨size, -, h⟩ := Fault.bind_eq_ok_iff.mp h
      cases h
      refine
        { name_ne_nil := hnil
          name_ne_heading := hheading
          name_not_dashes := hdashes
          name := hcells name (by simp)
          description := ?_
          first_nonneg := nonneg_of_readNumber hfirst hreadFirst
          last_nonneg := nonneg_of_readNumber hlast hreadLast }
      show IsCellText style (more[1]?.getD [])
      -- a row without a cell for the description has an empty one
      cases hdescription : more[1]? with
      | none => exact isCellText_nil
      | some description =>
        exact hcells description (by simp [List.mem_of_getElem? hdescription])
  · cases h

end Block

end SectionIndex
