import SectionIndex.Proofs.Companion.Order
import SectionIndex.Proofs.Companion.Table

/-!
# Companion documents, written and read

A companion document is written by a person: a title, a description, a table of sections and notes,
each part under its own heading. What is read from it is what was written: the description and the
notes without the blanks around them, and the entries in the order of their first lines, where of
entries with one name the first counts.

## Main definitions

* `Companion.IsTableOf` — the sections that a list of rows stands for.
* `Companion.Page` — what a document is written from, with `Page.IsWritable` and `Page.IsWrittenAs`
  for the documents that can be written and the ways to write them.

## Main statements

* `Companion.isTableOf_orderedRows`, `Companion.IsTableOf.unique` — the rows of a document stand for
  its sections and for no others.
* `Companion.Page.exists_parse_of_isWrittenAs` — a written document is read as what it was written
  from.
-/

namespace SectionIndex

namespace Companion

/-! ### The sections of rows -/

/-- **The sections that rows stand for:** those of them whose names are new, in the order of their
first lines. Sections with the same first line stand as their rows do. -/
structure IsTableOf (rows sections : List Section) : Prop where
  sorted : sections.Pairwise fun s t => s.first ≤ t.first
  filter_eq : ∀ n : Int, sections.filter (fun s => s.first == n) =
    (rows.eraseDupsBy fun s t => s.name == t.name).filter fun s => s.first == n

theorem firstRows_eq (seen : List Text) (rows : List Section) :
    firstRows seen rows =
      (rows.filter fun s => !seen.contains s.name).eraseDupsBy fun s t => s.name == t.name := by
  induction rows generalizing seen with
  | nil => rfl
  | cons s rows ih =>
    rw [firstRows]
    split
    · next hseen => rw [List.filter_cons_of_neg (by simpa using hseen), ih]
    · next hseen =>
      -- from here on the name of this row is one of those that are not new
      rw [List.filter_cons_of_pos (by simpa using hseen), List.eraseDupsBy_cons, ih,
        List.filter_filter]
      congr 2
      refine List.filter_congr fun t _ => ?_
      rw [List.contains_cons, Bool.not_or]
      congr 1
      cases h : t.name == s.name <;> rfl

/-- The first of the rows always counts. -/
theorem orderedRows_eq_nil_iff {rows : List Section} : orderedRows rows = [] ↔ rows = [] := by
  rw [orderedRows, ← List.length_eq_zero_iff, List.length_mergeSort, List.length_eq_zero_iff]
  cases rows with
  | nil => exact iff_of_true rfl rfl
  | cons s rows => exact iff_of_false (List.cons_ne_nil _ _) (List.cons_ne_nil _ _)

theorem isTableOf_orderedRows (rows : List Section) : IsTableOf rows (orderedRows rows) where
  sorted := sorted_orderedRows rows
  filter_eq n := by
    have hall : (rows.filter fun s => !([] : List Text).contains s.name) = rows :=
      List.filter_eq_self.mpr fun _ _ => rfl
    rw [filter_orderedRows, firstRows_eq, hall]

section Unique

variable {sections sections' : List Section}

theorem mem_iff_of_filter_eq (h : ∀ n : Int, sections.filter (fun s => s.first == n) =
    sections'.filter fun s => s.first == n) (s : Section) : s ∈ sections ↔ s ∈ sections' := by
  have hiff : s ∈ sections.filter (fun t => t.first == s.first) ↔
      s ∈ sections'.filter fun t => t.first == s.first := by rw [h]
  simpa using hiff

/-- Sorted sections are told by those of each first line. -/
theorem eq_of_filter_eq (hsorted : sections.Pairwise fun s t => s.first ≤ t.first)
    (hsorted' : sections'.Pairwise fun s t => s.first ≤ t.first)
    (h : ∀ n : Int, sections.filter (fun s => s.first == n) =
      sections'.filter fun s => s.first == n) : sections = sections' := by
  induction sections generalizing sections' with
  | nil =>
    exact (List.eq_nil_iff_forall_not_mem.mpr fun s hs =>
      List.not_mem_nil ((mem_iff_of_filter_eq h s).mpr hs)).symm
  | cons s sections ih =>
    have hs' := (mem_iff_of_filter_eq h s).mp List.mem_cons_self
    cases sections' with
    | nil => exact absurd hs' List.not_mem_nil
    | cons t sections' =>
      have ht' := (mem_iff_of_filter_eq h t).mpr List.mem_cons_self
      obtain ⟨hs, hrest⟩ := List.pairwise_cons.mp hsorted
      obtain ⟨ht, hrest'⟩ := List.pairwise_cons.mp hsorted'
      -- the least first lines are the same, so the two lists start with the same section
      have hle : t.first ≤ s.first := by
        rcases List.mem_cons.mp hs' with rfl | hs'
        · exact Int.le_refl _
        · exact ht s hs'
      have hge : s.first ≤ t.first := by
        rcases List.mem_cons.mp ht' with rfl | ht'
        · exact Int.le_refl _
        · exact hs t ht'
      have hstart := h s.first
      simp only [List.filter_cons, Int.le_antisymm hle hge, beq_self_eq_true, if_true] at hstart
      obtain ⟨rfl, -⟩ := List.cons.inj hstart
      refine congrArg (s :: ·) (ih hrest hrest' fun n => ?_)
      have hn := h n
      rw [List.filter_cons, List.filter_cons] at hn
      split at hn
      · exact (List.cons.inj hn).2
      · exact hn

end Unique

/-- **Rows stand for one list of sections.** -/
theorem IsTableOf.unique {rows sections sections' : List Section} (h : IsTableOf rows sections)
    (h' : IsTableOf rows sections') : sections = sections' :=
  eq_of_filter_eq h.sorted h'.sorted fun n => (h.filter_eq n).trans (h'.filter_eq n).symm

/-! ### What a document is written from -/

/-- **What a document is written from:** the title, the lines of the description, the entries of
the table, and the lines of the notes. -/
structure Page where
  title : Text
  description : List Text
  entries : List Entry
  notes : List Text
  deriving DecidableEq, Repr

/-- **A line of free text.** It is no heading below the title, but may be one of any other level. -/
@[mk_iff]
structure IsFreeLine (line : Text) : Prop where
  unbroken : line.IsUnbroken
  not_heading : ¬ ['#', '#', ' '] <+: line

instance (line : Text) : Decidable (IsFreeLine line) :=
  decidable_of_iff _ (isFreeLine_iff line).symm

/-- The line of the title. -/
def titleLine (title : Text) : Text :=
  '#' :: ' ' :: title

/-- The heading of the table as it is written. -/
def sectionsLine : Text := "## Sections"

/-- The heading of the notes as it is written. -/
def notesLine : Text := "## Notes"

namespace Page

/-- **A page that can be written.** -/
@[mk_iff]
structure IsWritable (page : Page) : Prop where
  title : page.title.IsUnbroken
  description : ∀ line ∈ page.description, IsFreeLine line
  entries : ∀ entry ∈ page.entries, entry.IsWritable
  notes : ∀ line ∈ page.notes, IsFreeLine line

instance (page : Page) : Decidable page.IsWritable :=
  decidable_of_iff _ (isWritable_iff page).symm

/-- **The ways to write a page** down to the heading of the notes, whatever the layout of its
table. -/
def IsWrittenAs (page : Page) (lines : List Text) : Prop :=
  ∃ heading dashes rows, IsHeadingLine heading ∧ IsDashLine dashes ∧
    List.Forall₂ Entry.IsWrittenAs page.entries rows ∧
    lines = titleLine page.title :: page.description ++
      sectionsLine :: heading :: dashes :: rows ++ notesLine :: page.notes

/-- A page says nothing if all its parts but the title are blank. -/
def IsBlank (page : Page) : Prop :=
  paragraph page.description = [] ∧ page.entries = [] ∧ paragraph page.notes = []

instance (page : Page) : Decidable page.IsBlank :=
  inferInstanceAs (Decidable (_ ∧ _))

end Page

/-! ### The parts of a document -/

theorem IsFreeLine.partOf?_eq {line : Text} (h : IsFreeLine line) {current : Part}
    (hcurrent : current ≠ .preamble) : partOf? current line = none := by
  rw [partOf?, if_neg fun hprefix => h.not_heading (List.isPrefixOf_iff_prefix.mp hprefix),
    if_neg fun htitle => hcurrent htitle.2]

theorem partOf?_titleLine (title : Text) :
    partOf? .preamble (titleLine title) = some .description := by
  rw [partOf?, if_neg (by simp [titleLine]), if_pos (by simp [titleLine])]

theorem partOf?_sectionsLine (current : Part) : partOf? current sectionsLine = some .sections := by
  have haccepts : sectionsHeading.accepts sectionsLine = true := by decide +kernel
  have hheading : ['#', '#', ' '].isPrefixOf sectionsLine = true := by decide
  rw [partOf?, if_pos hheading, if_pos haccepts]

theorem partOf?_notesLine (current : Part) : partOf? current notesLine = some .notes := by
  have hrefuses : sectionsHeading.accepts notesLine = false := by decide +kernel
  have haccepts : notesHeading.accepts notesLine = true := by decide +kernel
  have hheading : ['#', '#', ' '].isPrefixOf notesLine = true := by decide
  rw [partOf?, if_pos hheading, hrefuses, if_neg Bool.false_ne_true, if_pos haccepts]

/-- A line at which a part starts is a line of no part. -/
theorem readLines_of_partOf? {current part : Part} {line : Text}
    (h : partOf? current line = some part) (lines : List Text) :
    readLines current (line :: lines) = readLines part lines := by
  conv => lhs; unfold readLines
  rw [h]

/-- **The lines of the description** are read as they stand. -/
theorem readLines_description {lines rest : List Text} {draft : Draft}
    (hlines : ∀ line ∈ lines, IsFreeLine line) (h : readLines .description rest = .ok draft) :
    readLines .description (lines ++ rest) =
      .ok { draft with description := lines ++ draft.description } := by
  induction lines with
  | nil => exact h
  | cons line lines ih =>
    obtain ⟨hline, hlines⟩ := List.forall_mem_cons.mp hlines
    rw [List.cons_append, readLines, hline.partOf?_eq (by decide), ih hlines]
    rfl

/-- **The lines of the notes** are read as they stand, to the end of the document. -/
theorem readLines_notes {lines : List Text} (hlines : ∀ line ∈ lines, IsFreeLine line) :
    readLines .notes lines = .ok { notes := lines } := by
  induction lines with
  | nil => rfl
  | cons line lines ih =>
    obtain ⟨hline, hlines⟩ := List.forall_mem_cons.mp hlines
    rw [readLines, hline.partOf?_eq (by decide), ih hlines]
    rfl

/-- A line of the table adds the row that it is read as, if it is one. -/
theorem readLines_sections_cons {line : Text} {row? : Option Section} {rest : List Text}
    {draft : Draft} (hpart : partOf? .sections line = none)
    (hrow : parseRow (tableCells line) = .ok row?) (h : readLines .sections rest = .ok draft) :
    readLines .sections (line :: rest) = .ok { draft with rows := row?.toList ++ draft.rows } := by
  rw [readLines, hpart]
  simp only [hrow, h]
  rfl

/-- **The entries of the table** are read in their order. -/
theorem readLines_entries {entries : List Entry} {lines rest : List Text} {draft : Draft}
    (hlines : List.Forall₂ Entry.IsWrittenAs entries lines)
    (hentries : ∀ entry ∈ entries, entry.IsWritable) (h : readLines .sections rest = .ok draft) :
    readLines .sections (lines ++ rest) =
      .ok { draft with rows := entries.map Entry.section ++ draft.rows } := by
  induction hlines with
  | nil => exact h
  | cons hline _ ih =>
    obtain ⟨hentry, hentries⟩ := List.forall_mem_cons.mp hentries
    rw [List.cons_append, readLines_sections_cons (Entry.partOf?_of_isWrittenAs hline .sections)
      (Entry.parseRow_of_isWrittenAs hentry hline) (ih hentries)]
    rfl

namespace Page

variable {page : Page} {lines : List Text}

/-- **The lines of a page** hold what it was written from. -/
theorem readLines_of_isWrittenAs (h : page.IsWritable) (hlines : page.IsWrittenAs lines) :
    readLines .preamble lines =
      .ok ⟨page.description, page.entries.map Entry.section, page.notes⟩ := by
  obtain ⟨heading, dashes, rows, hheading, hdashes, hrows, rfl⟩ := hlines
  -- from the last part up, as the reading of a part goes on with that of the next
  have hnotes : readLines .sections (notesLine :: page.notes) = .ok { notes := page.notes } := by
    rw [readLines_of_partOf? (partOf?_notesLine _), readLines_notes h.notes]
  have hentries := readLines_entries hrows h.entries hnotes
  -- the two lines at the top of the table add no row
  have hunder := readLines_sections_cons (hdashes.isTopLine.partOf?_eq _)
    hdashes.isTopLine.parseRow_eq hentries
  have htable := readLines_sections_cons (hheading.isTopLine.partOf?_eq _)
    hheading.isTopLine.parseRow_eq hunder
  have hsections : readLines .description
      (sectionsLine :: heading :: dashes :: (rows ++ notesLine :: page.notes)) =
        .ok { rows := page.entries.map Entry.section, notes := page.notes } := by
    rw [readLines_of_partOf? (partOf?_sectionsLine _), htable]
    simp
  have hdescription := readLines_description h.description hsections
  rw [List.append_assoc, List.cons_append, readLines_of_partOf? (partOf?_titleLine _)]
  simpa using hdescription

theorem unbroken_of_isWrittenAs (h : page.IsWritable) (hlines : page.IsWrittenAs lines) :
    ∀ line ∈ lines, line.IsUnbroken := by
  obtain ⟨heading, dashes, rows, hheading, hdashes, hrows, rfl⟩ := hlines
  have hrowsUnbroken : ∀ line ∈ rows, line.IsUnbroken :=
    forall_mem_of_forall₂ hrows h.entries Entry.unbroken_of_isWrittenAs
  have htitle : (titleLine page.title).IsUnbroken :=
    Text.isUnbroken_cons.mpr ⟨rfl, Text.isUnbroken_cons.mpr ⟨rfl, h.title⟩⟩
  simp only [List.cons_append, List.forall_mem_append, List.forall_mem_cons]
  exact ⟨htitle, ⟨fun line hline => (h.description line hline).unbroken, by decide,
    hheading.isTopLine.unbroken, hdashes.isTopLine.unbroken, hrowsUnbroken⟩, by decide,
    fun line hline => (h.notes line hline).unbroken⟩

/-- An empty line at the end of free text is no part of it. -/
theorem paragraph_concat_nil (lines : List Text) : paragraph (lines ++ [[]]) = paragraph lines := by
  by_cases hnil : lines = []
  · rw [hnil]
    rfl
  · have h := Text.trim_append_append (p := isBlank) (a := []) (b := ['\n'])
      (t := Text.join ['\n'] lines) (by decide) (by decide)
    rw [paragraph, Text.join_append _ hnil (by simp), Text.join_singleton, List.append_nil]
    exact h

/-- **The lines of a written page** are those it was written with, but for an empty line at the end
of the notes that no line end follows. -/
theorem exists_breakLines_of_isWrittenAs {newline ending : Text} (h : page.IsWritable)
    (hlines : page.IsWrittenAs lines) (hnewline : newline.IsLineEnd)
    (hending : ending = [] ∨ ending = newline) :
    ∃ notes, paragraph notes = paragraph page.notes ∧ { page with notes := notes }.IsWritable ∧
      { page with notes := notes }.IsWrittenAs
        (Text.breakLines (Text.join newline lines ++ ending)) := by
  have hunbroken := unbroken_of_isWrittenAs h hlines
  have hne : lines ≠ [] := by
    obtain ⟨heading, dashes, rows, -, -, -, rfl⟩ := hlines
    exact List.cons_ne_nil _ _
  -- cut into lines, the text gives them back, but for an empty one at its end
  rcases Text.breakLines_join_ending hunbroken hnewline
      (hending.imp_right (And.intro hne)) with hbreak | ⟨front, hfront, hbreak⟩
  · rw [hbreak]
    exact ⟨page.notes, rfl, h, hlines⟩
  · obtain ⟨heading, dashes, rows, hheading, hdashes, hrows, rfl⟩ := hlines
    rcases List.eq_nil_or_concat page.notes with hnil | ⟨notes, last, hnotes⟩
    · -- the heading of the notes is the last line, and not empty
      rw [hnil] at hfront
      exact absurd (List.append_inj' hfront rfl).2 (by decide)
    · -- an empty line at the end is one of the notes, and they are the same without it
      rw [List.concat_eq_append] at hnotes
      rw [hnotes, ← List.cons_append, ← List.append_assoc] at hfront
      obtain ⟨rfl, hlast⟩ := List.append_inj' hfront rfl
      obtain rfl := List.singleton_inj.mp hlast
      refine ⟨notes, by rw [hnotes, paragraph_concat_nil], ⟨h.title, h.description, h.entries, ?_⟩,
        heading, dashes, rows, hheading, hdashes, hrows, hbreak⟩
      exact fun line hline => h.notes line (hnotes ▸ List.mem_append_left _ hline)

/-- **A written page is read as what it was written from.** -/
theorem exists_parse_of_isWrittenAs {newline ending : Text} (path : Text) (h : page.IsWritable)
    (hlines : page.IsWrittenAs lines) (hnewline : newline.IsLineEnd)
    (hending : ending = [] ∨ ending = newline) :
    ∃ sections, IsTableOf (page.entries.map Entry.section) sections ∧
      parse (Text.join newline lines ++ ending) path =
        .ok (if page.IsBlank then none
          else some ⟨path, (Text.join ['\n'] page.description).strip, sections,
            (Text.join ['\n'] page.notes).strip⟩) := by
  obtain ⟨notes, hparagraph, hwritable, hbreak⟩ :=
    exists_breakLines_of_isWrittenAs h hlines hnewline hending
  have hread := readLines_of_isWrittenAs hwritable hbreak
  refine ⟨_, isTableOf_orderedRows _, ?_⟩
  have hblank : (paragraph page.description = [] ∧
      orderedRows (page.entries.map Entry.section) = [] ∧ paragraph notes = []) ↔ page.IsBlank := by
    rw [orderedRows_eq_nil_iff, List.map_eq_nil_iff, hparagraph]
    rfl
  rw [parse, hread]
  simp only [bind, Except.bind]
  rw [if_congr hblank rfl rfl, hparagraph]
  split <;> rfl

/-- A page whose entries are out of order, and two of which have one name. -/
def storePage : Page where
  title := "store.ts"
  description := ["Zustand store for projects.", ""]
  entries :=
    [⟨"store", 13, 140, "The store itself"⟩, ⟨"imports", 1, 12, "Dependencies"⟩,
     ⟨"imports", 50, 60, "Duplicate name"⟩, ⟨"header", 5, 5, ""⟩]
  notes := ["Selectors are memoized."]

/-- A layout of it. -/
def storeLines : List Text :=
  ["# store.ts",
   "Zustand store for projects.",
   "",
   "## Sections",
   "| Section | Lines  | Description      |",
   "|---------|-------:|------------------|",
   "| store   | 13–140 | The store itself |",
   "| imports | 1-12   | Dependencies     |",
   "| imports | 50-60  | Duplicate name   |",
   "| header  | 5      ||",
   "## Notes",
   "Selectors are memoized."]

theorem isWrittenAs_storeLines : storePage.IsWrittenAs storeLines := by
  refine ⟨"| Section | Lines  | Description      |", "|---------|-------:|------------------|",
    ["| store   | 13–140 | The store itself |", "| imports | 1-12   | Dependencies     |",
     "| imports | 50-60  | Duplicate name   |", "| header  | 5      ||"], ?_, ?_, ?_, rfl⟩
  · exact ⟨"Section", by decide, by decide, _,
      .cons ⟨1, 1, rfl⟩ (.cons ⟨1, 2, rfl⟩ (.cons ⟨1, 6, rfl⟩ .nil)), rfl⟩
  · exact ⟨_, _, _, ⟨false, false, 8, rfl⟩, ⟨false, true, 6, rfl⟩, ⟨false, false, 17, rfl⟩, _,
      .cons ⟨0, 0, rfl⟩ (.cons ⟨0, 0, rfl⟩ (.cons ⟨0, 0, rfl⟩ .nil)), rfl⟩
  · -- the four entries: a range with a long dash, two with a short one, and a single line
    refine .cons ?_ (.cons ?_ (.cons ?_ (.cons ?_ .nil)))
    · exact ⟨_, .pair (Or.inr rfl) 140, _,
        .cons ⟨1, 3, rfl⟩ (.cons ⟨1, 1, rfl⟩ (.cons ⟨1, 1, rfl⟩ .nil)), rfl⟩
    · exact ⟨_, .pair (Or.inl rfl) 12, _,
        .cons ⟨1, 1, rfl⟩ (.cons ⟨1, 3, rfl⟩ (.cons ⟨1, 5, rfl⟩ .nil)), rfl⟩
    · exact ⟨_, .pair (Or.inl rfl) 60, _,
        .cons ⟨1, 1, rfl⟩ (.cons ⟨1, 2, rfl⟩ (.cons ⟨1, 3, rfl⟩ .nil)), rfl⟩
    · exact ⟨_, .single, _,
        .cons ⟨1, 2, rfl⟩ (.cons ⟨1, 6, rfl⟩ (.cons ⟨0, 0, rfl⟩ .nil)), rfl⟩

/-- The sections of that page: the first of two entries with one name, in the order of their first
lines. -/
def storeSections : List Section :=
  [⟨"imports", 1, 12, "Dependencies", .companion⟩, ⟨"header", 5, 5, [], .companion⟩,
   ⟨"store", 13, 140, "The store itself", .companion⟩]

theorem isTableOf_storeSections :
    IsTableOf (storePage.entries.map Entry.section) storeSections where
  sorted := by decide
  filter_eq n := by
    have hfirst : ((storePage.entries.map Entry.section).eraseDupsBy fun s t => s.name == t.name) =
        [⟨"store", 13, 140, "The store itself", .companion⟩,
         ⟨"imports", 1, 12, "Dependencies", .companion⟩, ⟨"header", 5, 5, [], .companion⟩] := by
      decide
    rw [hfirst]
    simp only [storeSections, List.filter_cons, List.filter_nil, beq_iff_eq]
    split_ifs <;> first | rfl | omega

/-- The lines of that page are read back: the second entry named `store` is left out, and the rest
are put in order. -/
theorem parse_storeLines :
    storePage.IsWritable ∧ storePage.IsWrittenAs storeLines ∧
    parse (Text.join ['\n'] storeLines ++ ['\n']) "store.ts.ai.md" =
      .ok (some ⟨"store.ts.ai.md", "Zustand store for projects.", storeSections,
        "Selectors are memoized."⟩) := by
  have hwritable : storePage.IsWritable := by decide
  obtain ⟨sections, htable, hparse⟩ := exists_parse_of_isWrittenAs "store.ts.ai.md" hwritable
    isWrittenAs_storeLines (Or.inl rfl) (Or.inr rfl)
  refine ⟨hwritable, isWrittenAs_storeLines, ?_⟩
  rw [hparse, htable.unique isTableOf_storeSections, if_neg (by decide)]
  decide

end Page

end Companion

end SectionIndex
