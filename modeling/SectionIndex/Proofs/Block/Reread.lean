import SectionIndex.Proofs.Block.BrokenRow

/-!
# What is read from a block

A block is written with any texts in its rows, and what is read from it may be less than what was
written: a name can be broken, or it can look like the heading of the table. There are never more
rows than sections, and all names and lines are kept if the names are names that a block keeps.

## Main definitions

* `Block.IsPassedOver` — a line in which no row is read.
* `Block.openingLines`, `Block.rowLines` — the lines above the rows, and the lines of the rows.
* `Block.numberPieces` — the pieces of the rows with the numbers in them.
* `Block.KeepsName` — a name that a block keeps.

## Main statements

* `Block.parseRows_render` — what is read from a block, whatever is written in it.
* `Block.length_le_of_parseRows_render` — a block has no more rows than sections.
* `Block.exists_parseRows_of_isUnbroken` — a block can be read if no name is broken.
* `Block.exists_parseRows_of_keepsName` — names and lines that are kept.
-/

namespace SectionIndex

namespace Block

variable {style : Style} {newline stamp : Text} {s : Section} {sections : List Section}
  {totalLines : Int}

/-! ### What is read from a block -/

theorem isUnbroken_tableLine {cells : List Text} (h : ∀ cell ∈ cells, cell.IsUnbroken) :
    (tableLine cells).IsUnbroken := by
  have hbar : Text.IsUnbroken [' ', '|', ' '] := by decide
  have hjoin : Text.IsUnbroken (Text.join " | " cells) := by
    intro c hc
    rcases Text.mem_join hc with hc | ⟨cell, hcell, hc⟩
    · exact hbar c hc
    · exact h cell hcell c hc
  have hopen : Text.IsUnbroken ("| " : Text) := by decide
  have hclose : Text.IsUnbroken (" |" : Text) := by decide
  rw [tableLine, Text.isUnbroken_append, Text.isUnbroken_append]
  exact ⟨⟨hopen, hjoin⟩, hclose⟩

theorem isUnbroken_commentLine {sign line : Text} (hsign : sign.IsUnbroken)
    (hline : line.IsUnbroken) : (commentLine sign line).IsUnbroken := by
  unfold commentLine
  split
  · exact hsign
  · exact Text.isUnbroken_append.mpr ⟨hsign, Text.isUnbroken_cons.mpr ⟨rfl, hline⟩⟩

theorem isUnbroken_of_isBlockChar {t : Text} (h : ∀ c ∈ t, isBlockChar c = true) : t.IsUnbroken :=
  fun c hc => isLineBreak_of_isBlockChar (h c hc)

theorem isUnbroken_headingLine (n m : Nat) : (headingLine n m).IsUnbroken := by
  have hpadded : ∀ (k : Nat) (t : Text), (∀ c ∈ t, isBlockChar c = true) →
      Text.IsUnbroken (Text.padRight k t) :=
    fun k t ht => isUnbroken_of_isBlockChar (isBlockChar_of_mem_padRight ht)
  apply isUnbroken_tableLine
  simp only [List.forall_mem_cons]
  exact ⟨hpadded _ _ (by decide), by decide, by decide, by decide, hpadded _ _ (by decide),
    List.forall_mem_nil _⟩

theorem isUnbroken_dashLine (n m : Nat) : (dashLine n m).IsUnbroken := by
  have hdashes : ∀ k : Nat, Text.IsUnbroken (List.replicate k '-') :=
    fun k => Text.isUnbroken_replicate rfl
  apply isUnbroken_tableLine
  simp only [List.forall_mem_cons]
  exact ⟨hdashes _, hdashes _, hdashes _, hdashes _, hdashes _, List.forall_mem_nil _⟩

/-- A label and its value are one line. -/
theorem isUnbroken_labelled {label value : Text} (hlabel : label.IsUnbroken)
    (hvalue : ∀ c ∈ value, isBlockChar c = true) : Text.IsUnbroken (label ++ ' ' :: value) :=
  Text.isUnbroken_append.mpr
    ⟨hlabel, Text.isUnbroken_cons.mpr ⟨rfl, isUnbroken_of_isBlockChar hvalue⟩⟩

/-- **A line of a block that is no section's**: it is one line, and it is no row. -/
def IsPassedOver (style : Style) (line : Text) : Prop :=
  line.IsUnbroken ∧ parseRow (rowCells style line) = .ok none

/-- The lines of a block above its rows. -/
def openingLines (totalLines : Int) (stamp : Text) (n m : Nat) : List Text :=
  [marker, generatedLabel ++ ' ' :: stamp, totalLinesLabel ++ ' ' :: Text.ofInt totalLines, [],
    headingLine n m, dashLine n m]

/-- The lines above the rows are passed over. -/
theorem isPassedOver_of_mem_openingLines (style : Style) (totalLines : Int) (hstamp : IsStamp stamp)
    {n : Nat} (m : Nat) (hn : n ≠ 0) :
    ∀ line ∈ (openingLines totalLines stamp n m).map (commentLine style.sign),
      IsPassedOver style line := by
  have hsign : style.sign.IsUnbroken := by cases style <;> decide
  have hstrip : ∀ line ∈ tailLines style [] totalLines stamp, line.strip = line :=
    fun _ => strip_of_mem_tailLines hstamp
  simp only [tailLines, List.forall_mem_cons] at hstrip
  obtain ⟨hgenerated, htotal, hempty, -⟩ := hstrip
  have hlabel : ∀ t : Text, ('@' :: t).head? ≠ some '|' := fun t => by simp
  -- the lines above the rows start with a label, or are the heading and the dashes: none is a row
  have hlines : ∀ line ∈ openingLines totalLines stamp n m, line.IsUnbroken ∧
      parseRow (rowCells style (commentLine style.sign line)) = .ok none := by
    simp only [openingLines, List.forall_mem_cons]
    exact ⟨⟨by decide, parseRow_of_head?_ne (by decide) (by decide)⟩,
      ⟨isUnbroken_labelled (by decide) hstamp.isBlockChar_eq,
        parseRow_of_head?_ne hgenerated (hlabel _)⟩,
      ⟨isUnbroken_labelled (by decide) fun c hc => isBlockChar_of_mem_ofInt hc,
        parseRow_of_head?_ne htotal (hlabel _)⟩,
      ⟨Text.isUnbroken_nil, parseRow_of_head?_ne hempty (by decide)⟩,
      ⟨isUnbroken_headingLine n m, parseRow_headingLine n m⟩,
      ⟨isUnbroken_dashLine n m, parseRow_dashLine m hn⟩, List.forall_mem_nil _⟩
  refine List.forall_mem_map.mpr fun line hline => ?_
  obtain ⟨hunbroken, hrow⟩ := hlines line hline
  exact ⟨isUnbroken_commentLine hsign hunbroken, hrow⟩

/-- The lines of the sections in a block, which depend on nothing else in it. -/
def rowLines (style : Style) (sections : List Section) : List Text :=
  sections.map fun s => commentLine style.sign (sectionLine style
    (columnWidth (sections.map fun s => escapeCell style s.name))
    (columnWidth (sections.map fun s => escapeCell style s.description)) s)

/-- **The lines of a block:** those of the sections, with lines before and after them that are
passed over. -/
theorem exists_blockLines_eq (style : Style) (sections : List Section) (totalLines : Int)
    (hstamp : IsStamp stamp) :
    ∃ opening ending, ending ≠ [] ∧ (∀ line ∈ opening, IsPassedOver style line) ∧
      (∀ line ∈ ending, IsPassedOver style line) ∧
      blockLines style (bodyLines style sections totalLines stamp) =
        opening ++ (rowLines style sections ++ ending) := by
  let n := columnWidth (sections.map fun s => escapeCell style s.name)
  let m := columnWidth (sections.map fun s => escapeCell style s.description)
  have hbody : bodyLines style sections totalLines stamp =
      openingLines totalLines stamp n m ++ sections.map (sectionLine style n m) := rfl
  have hopening := isPassedOver_of_mem_openingLines style totalLines hstamp m
    (columnWidth_ne_zero (sections.map fun s => escapeCell style s.name))
  -- a comment has a line before the body and one after it, the other style only its end mark
  cases style with
  | jsdoc =>
    refine ⟨"/**" :: (openingLines totalLines stamp n m).map (commentLine " *"), [(" */" : Text)],
      List.cons_ne_nil _ _, List.forall_mem_cons.mpr ⟨⟨by decide, by rfl⟩, hopening⟩,
      List.forall_mem_singleton.mpr ⟨by decide, by rfl⟩, ?_⟩
    rw [hbody, blockLines, List.map_append, List.map_map]
    simp only [List.cons_append, List.append_assoc]
    rfl
  | hash =>
    refine ⟨(openingLines totalLines stamp n m).map (commentLine "#"), [commentLine "#" endMarker],
      List.cons_ne_nil _ _, hopening, List.forall_mem_singleton.mpr ⟨by decide, by rfl⟩, ?_⟩
    rw [hbody, blockLines, List.map_append, List.map_map, List.append_assoc]
    rfl

/-- Lines that are passed over add no row, with other lines after them or without. -/
theorem parseRows_join_of_passedOver {lines : List Text} (table : List Row) (h : newline.IsLineEnd)
    (hlines : ∀ line ∈ lines, IsPassedOver style line) :
    parseRows style table (Text.breakLines (Text.join newline lines)) = .ok table ∧
      ∀ rest, rest ≠ [] →
        parseRows style table (Text.breakLines (Text.join newline (lines ++ rest))) =
          parseRows style table (Text.breakLines (Text.join newline rest)) := by
  -- by induction on the lines: each is read by itself and leaves the table as it was
  induction lines with
  | nil => exact ⟨rfl, fun _ _ => rfl⟩
  | cons line lines ih =>
    obtain ⟨⟨hunbroken, hnone⟩, hlines⟩ := List.forall_mem_cons.mp hlines
    obtain ⟨hlast, hrest⟩ := ih hlines
    have hstep : ∀ others, others ≠ [] →
        parseRows style table (Text.breakLines (Text.join newline (line :: others))) =
          parseRows style table (Text.breakLines (Text.join newline others)) := by
      intro others hne
      rw [Text.join_cons_of_ne_nil _ _ hne, Text.breakLines_append_newline _ hunbroken h,
        parseRows_cons_of_none _ _ hnone]
    constructor
    · cases lines with
      | nil =>
        rw [Text.join_singleton]
        by_cases hnil : line = []
        · rw [hnil]
          rfl
        · rw [Text.breakLines_of_isUnbroken hunbroken hnil, parseRows_cons_of_none _ _ hnone]
          rfl
      | cons next lines => rw [hstep _ (List.cons_ne_nil _ _), hlast]
    · intro rest hne
      rw [List.cons_append, hstep _ (by simp [hne]), hrest rest hne]

/-- **The pieces with the numbers** of the sections in a block, which depend on nothing else
in it. -/
def numberPieces (style : Style) (sections : List Section) : List Text :=
  sections.map <| numberPiece style
    (columnWidth (sections.map fun s => escapeCell style s.name))
    (columnWidth (sections.map fun s => escapeCell style s.description))

/-- **What is read from a block**, whatever is written in it: at most one row for each section, from
the piece with its numbers. The time in the block, its number of lines and its line ends do not
matter. -/
theorem parseRows_render (style : Style) (sections : List Section) (totalLines : Int)
    (h : newline.IsLineEnd) (hstamp : IsStamp stamp) :
    parseRows style [] (Text.breakLines (render sections totalLines style stamp newline)) =
      parseRows style [] (numberPieces style sections) := by
  obtain ⟨opening, ending, hne, hopening, hending, hblock⟩ :=
    exists_blockLines_eq style sections totalLines hstamp
  rw [render, hblock, (parseRows_join_of_passedOver [] h hopening).2 _ (by simp [hne]), rowLines,
    numberPieces]
  generalize columnWidth (sections.map fun s => escapeCell style s.name) = n
  generalize columnWidth (sections.map fun s => escapeCell style s.description) = m
  clear hblock
  generalize ([] : List Row) = table
  induction sections generalizing table with
  | nil => exact (parseRows_join_of_passedOver table h hending).1
  | cons s sections ih =>
    rw [List.map_cons, List.cons_append, Text.join_cons_of_ne_nil _ _ (by simp [hne]),
      parseRows_line style n m s h, List.map_cons]
    simp only [parseRows, ih]

/-! ### The rows of a block -/

theorem length_putRow_le (row : Row) (table : List Row) :
    (putRow row table).length ≤ table.length + 1 := by
  induction table with
  | nil => exact Nat.le_refl 1
  | cons r table ih =>
    unfold putRow
    split
    · exact Nat.le_succ _
    · rw [List.length_cons, List.length_cons]
      exact Nat.succ_le_succ ih

/-- No line gives more than one row. -/
theorem length_le_of_parseRows {lines : List Text} {table rows : List Row}
    (h : parseRows style table lines = .ok rows) : rows.length ≤ table.length + lines.length := by
  -- a row that is read is one more in the table, or takes the place of another
  induction lines generalizing table with
  | nil =>
    cases h
    exact Nat.le_refl _
  | cons line lines ih =>
    rw [parseRows] at h
    obtain ⟨row?, -, h⟩ := Fault.bind_eq_ok_iff.mp h
    rw [List.length_cons]
    cases row? with
    | none =>
      have hlength := ih h
      omega
    | some row =>
      have hlength := ih h
      have hput := length_putRow_le row table
      omega

/-- **A block has no more rows than sections.** -/
theorem length_le_of_parseRows_render {rows : List Row} (h : newline.IsLineEnd)
    (hstamp : IsStamp stamp)
    (hrows : parseRows style [] (Text.breakLines (render sections totalLines style stamp newline)) =
      .ok rows) : rows.length ≤ sections.length := by
  rw [parseRows_render style sections totalLines h hstamp] at hrows
  have hlength := length_le_of_parseRows hrows
  rw [List.length_nil, numberPieces, List.length_map, Nat.zero_add] at hlength
  exact hlength

/-- **The row that is read from the piece with the numbers**, if the name is not broken. -/
theorem exists_parseRow_numberPiece (style : Style) (n m : Nat) (hname : s.name.IsUnbroken)
    (hs : IsWritableSection s) :
    ∃ description, parseRow (rowCells style (numberPiece style n m s)) =
      .ok (if isHeadingName (readName style s.name) = false ∧ 0 ≤ s.first ∧ 0 ≤ s.last then
        some ⟨readName style s.name, s.first, s.last, s.size, description⟩ else none) :=
  ⟨_, by rw [rowCells_numberPiece style n m hname, parseRow_ofInt _ _ hs]⟩

/-- **A block can be read** if no name in it is broken. -/
theorem exists_parseRows_of_isUnbroken (totalLines : Int) (h : newline.IsLineEnd)
    (hstamp : IsStamp stamp) (hsections : ∀ s ∈ sections, s.name.IsUnbroken ∧ IsWritableSection s) :
    ∃ rows, parseRows style []
      (Text.breakLines (render sections totalLines style stamp newline)) = .ok rows := by
  rw [parseRows_render style sections totalLines h hstamp, numberPieces]
  generalize columnWidth (sections.map fun s => escapeCell style s.name) = n
  generalize columnWidth (sections.map fun s => escapeCell style s.description) = m
  generalize ([] : List Row) = table
  induction sections generalizing table with
  | nil => exact ⟨table, rfl⟩
  | cons s sections ih =>
    obtain ⟨⟨hunbroken, hwritable⟩, hsections⟩ := List.forall_mem_cons.mp hsections
    obtain ⟨description, hrow⟩ := exists_parseRow_numberPiece style n m hunbroken hwritable
    rw [List.map_cons, parseRows, hrow]
    split
    · exact ih hsections _
    · exact ih hsections _

/-- **A name that a block keeps.** -/
structure KeepsName (style : Style) (name : Text) : Prop where
  ne_nil : name ≠ []
  ne_heading : name ≠ nameHeading
  not_dashes : ¬ IsDashes name
  cell : IsCellText style name

/-- The name of a row that a block can hold is a name that a block keeps. -/
theorem Row.IsStorable.keepsName {row : Row} (h : row.IsStorable style) :
    KeepsName style row.name where
  ne_nil := h.name_ne_nil
  ne_heading := h.name_ne_heading
  not_dashes := h.name_not_dashes
  cell := h.name

theorem KeepsName.isHeadingName_eq {name : Text} (h : KeepsName style name) :
    isHeadingName name = false := by
  rw [Bool.eq_false_iff, ne_eq, isHeadingName_iff, not_or, not_or]
  exact ⟨h.ne_nil, h.ne_heading, h.not_dashes⟩

/-- **The names and lines of sections are kept** if all names are names that a block keeps, whatever
the descriptions are. -/
theorem exists_parseRows_of_keepsName (totalLines : Int) (h : newline.IsLineEnd)
    (hstamp : IsStamp stamp) (hnames : (sections.map Section.name).Nodup)
    (hsections : ∀ s ∈ sections, KeepsName style s.name ∧ IsWritableSection s ∧
      0 ≤ s.first ∧ 0 ≤ s.last) :
    ∃ rows, parseRows style []
        (Text.breakLines (render sections totalLines style stamp newline)) = .ok rows ∧
      rows.map (fun row => (row.name, row.first, row.last)) =
        sections.map fun s => (s.name, s.first, s.last) := by
  rw [parseRows_render style sections totalLines h hstamp, numberPieces]
  generalize columnWidth (sections.map fun s => escapeCell style s.name) = n
  generalize columnWidth (sections.map fun s => escapeCell style s.description) = m
  -- the rows go to the end of the table, as no name is used twice
  have hrows : ∀ table : List Row, (table.map Row.name ++ sections.map Section.name).Nodup →
      ∃ rows, parseRows style table (sections.map (numberPiece style n m)) = .ok (table ++ rows) ∧
        rows.map (fun row => (row.name, row.first, row.last)) =
          sections.map fun s => (s.name, s.first, s.last) := by
    clear hnames
    -- by induction on the sections, with the table as far as it has grown
    induction sections with
    | nil => exact fun table _ => ⟨[], by rw [List.append_nil]; rfl, rfl⟩
    | cons s sections ih =>
      intro table hnodup
      obtain ⟨⟨hname, hwritable, hfirst, hlast⟩, hsections⟩ := List.forall_mem_cons.mp hsections
      obtain ⟨description, hrow⟩ :=
        exists_parseRow_numberPiece style n m hname.cell.unbroken hwritable
      rw [readName_of_isCellText hname.cell,
        if_pos ⟨hname.isHeadingName_eq, hfirst, hlast⟩] at hrow
      let row : Row := ⟨s.name, s.first, s.last, s.size, description⟩
      have hnew : row.name ∉ table.map Row.name := by
        rw [List.map_cons, List.nodup_append] at hnodup
        exact fun hmem => hnodup.2.2 _ hmem _ List.mem_cons_self rfl
      have hrest : ((table ++ [row]).map Row.name ++ sections.map Section.name).Nodup := by
        rw [List.map_append, List.append_assoc]
        exact hnodup
      obtain ⟨rows, hread, hmap⟩ := ih hsections (table ++ [row]) hrest
      refine ⟨row :: rows, ?_, ?_⟩
      · rw [List.map_cons, parseRows_cons_of_some _ _ hrow, putRow_of_not_mem row table hnew,
          hread, List.append_assoc]
        rfl
      · rw [List.map_cons, List.map_cons, hmap]
  exact hrows [] hnames

end Block

end SectionIndex
