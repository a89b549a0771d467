import SectionIndex.Proofs.Block.LostName
import SectionIndex.Proofs.Upkeep.Restoration

/-!
# Rows that no section has

Bars are escaped in the cells of a block, so no text that is written in a cell makes a row of its
own. But a name with a line end in it, and with nothing but comment signs and blanks after that, is
lost, and the row of its section is read with the number of its first line for a name. Such a row is
one of the table unless a later row has the same name. All other rows have the name and the lines of
their sections.

## Main definitions

* `Block.IsLastRow` — a row that is read from some lines, and the last one of its name.
* `Block.Row.IsOf` — the row has the name and the lines of a section.
* `Block.IsHarmless` — the row behind a lost name is one of a section, or it is replaced.

## Main statements

* `Block.mem_parseRows_iff` — the rows of a table are the last ones of their names.
* `Block.exists_row_iff` — the names and lines in a block, whatever is written in it.
* `Block.exists_parse_serialize_isOf_iff` — when each row of a block is one of its sections.
-/

namespace SectionIndex

namespace Block

variable {style : Style} {sections : List Section} {stamp newline : Text} {row : Row}
  {lines : List Text}

/-! ### The last rows of their names -/

/-- **A row replaces the row of its name** and no other, if no name is used twice. -/
theorem mem_putRow_iff {r : Row} {table : List Row} (hnames : (table.map Row.name).Nodup) :
    r ∈ putRow row table ↔ r = row ∨ r ∈ table ∧ r.name ≠ row.name := by
  induction table with
  | nil => simp [putRow]
  | cons first table ih =>
    obtain ⟨hfirst, htable⟩ := List.nodup_cons.mp hnames
    unfold putRow
    split
    · next hname =>
      -- the other rows have other names than the one that is replaced
      have hother : ∀ r ∈ table, r.name ≠ row.name := fun r hr heq =>
        hfirst (List.mem_map.mpr ⟨r, hr, heq.trans hname.symm⟩)
      rw [List.mem_cons, List.mem_cons]
      constructor
      · rintro (rfl | hr)
        · exact Or.inl rfl
        · exact Or.inr ⟨Or.inr hr, hother r hr⟩
      · rintro (rfl | ⟨rfl | hr, hne⟩)
        · exact Or.inl rfl
        · exact absurd hname hne
        · exact Or.inr hr
    · next hname =>
      rw [List.mem_cons, List.mem_cons, ih htable]
      constructor
      · rintro (rfl | rfl | ⟨hr, hne⟩)
        · exact Or.inr ⟨Or.inl rfl, hname⟩
        · exact Or.inl rfl
        · exact Or.inr ⟨Or.inr hr, hne⟩
      · rintro (rfl | ⟨rfl | hr, hne⟩)
        · exact Or.inr (Or.inl rfl)
        · exact Or.inl rfl
        · exact Or.inr (Or.inr ⟨hr, hne⟩)

theorem nodup_putRow {table : List Row} (row : Row) (hnames : (table.map Row.name).Nodup) :
    ((putRow row table).map Row.name).Nodup := by
  induction table with
  | nil => simp [putRow]
  | cons first table ih =>
    obtain ⟨hfirst, htable⟩ := List.nodup_cons.mp hnames
    unfold putRow
    split
    · next hname =>
      rw [List.map_cons, ← hname]
      exact hnames
    · next hname =>
      refine List.nodup_cons.mpr ⟨fun hmem => ?_, ih htable⟩
      obtain ⟨r, hr, heq⟩ := List.mem_map.mp hmem
      rcases mem_putRow hr with rfl | hr
      · exact hname heq.symm
      · exact hfirst (List.mem_map.mpr ⟨r, hr, heq⟩)

/-- **No row of this name** is read from the lines. -/
def IsUnnamed (style : Style) (name : Text) (lines : List Text) : Prop :=
  ∀ line ∈ lines, ∀ row, parseRow (rowCells style line) = .ok (some row) → row.name ≠ name

/-- **The row is read from the lines**, and none of its name is read after it. -/
def IsLastRow (style : Style) (row : Row) (lines : List Text) : Prop :=
  ∃ before line after, lines = before ++ line :: after ∧
    parseRow (rowCells style line) = .ok (some row) ∧ IsUnnamed style row.name after

theorem isLastRow_cons_iff {line : Text} : IsLastRow style row (line :: lines) ↔
    parseRow (rowCells style line) = .ok (some row) ∧ IsUnnamed style row.name lines ∨
      IsLastRow style row lines := by
  constructor
  · rintro ⟨before, other, after, hsplit, hrow, hafter⟩
    cases before with
    | nil =>
      obtain ⟨rfl, rfl⟩ := List.cons.inj hsplit
      exact Or.inl ⟨hrow, hafter⟩
    | cons first before =>
      obtain ⟨-, hlines⟩ := List.cons.inj hsplit
      exact Or.inr ⟨before, other, after, hlines, hrow, hafter⟩
  · rintro (⟨hrow, hafter⟩ | ⟨before, other, after, rfl, hrow, hafter⟩)
    · exact ⟨[], line, lines, rfl, hrow, hafter⟩
    · exact ⟨line :: before, other, after, rfl, hrow, hafter⟩

/-- **The rows of a table** are the last ones of their names, those that were in it before
included. -/
theorem mem_parseRows_iff {table rows : List Row} (hread : parseRows style table lines = .ok rows)
    (hnames : (table.map Row.name).Nodup) :
    row ∈ rows ↔ IsLastRow style row lines ∨ row ∈ table ∧ IsUnnamed style row.name lines := by
  -- by induction on the lines: the row of the first one is in the table that the others find
  induction lines generalizing table with
  | nil =>
    obtain rfl := Except.ok.inj hread
    constructor
    · exact fun hrow => Or.inr ⟨hrow, List.forall_mem_nil _⟩
    · rintro (⟨before, line, after, hsplit, -⟩ | ⟨hrow, -⟩)
      · exact absurd hsplit (by simp)
      · exact hrow
  | cons line lines ih =>
    rw [parseRows] at hread
    obtain ⟨row?, hline, hread⟩ := Fault.bind_eq_ok_iff.mp hread
    have hunnamed : IsUnnamed style row.name (line :: lines) ↔
        (∀ r ∈ row?, r.name ≠ row.name) ∧ IsUnnamed style row.name lines := by
      simp only [IsUnnamed, List.forall_mem_cons, hline, Except.ok.injEq, Option.mem_def]
    rw [isLastRow_cons_iff, hline, hunnamed]
    cases row? with
    | none =>
      rw [ih hread hnames]
      simp
    | some r =>
      -- the row of the line stays unless a later one replaces it, and replaces those before it
      rw [ih hread (nodup_putRow r hnames), mem_putRow_iff hnames]
      simp only [Except.ok.injEq, Option.some.injEq, Option.mem_def]
      constructor
      · rintro (hlast | ⟨rfl | ⟨hrow, hne⟩, hlines⟩)
        · exact Or.inl (Or.inr hlast)
        · exact Or.inl (Or.inl ⟨rfl, hlines⟩)
        · exact Or.inr ⟨hrow, fun r' hr' => hr' ▸ hne.symm, hlines⟩
      · rintro ((⟨rfl, hlines⟩ | hlast) | ⟨hrow, hne, hlines⟩)
        · exact Or.inr ⟨Or.inl rfl, hlines⟩
        · exact Or.inl hlast
        · exact Or.inr ⟨Or.inr ⟨hrow, (hne r rfl).symm⟩, hlines⟩

/-! ### The names and lines in a block -/

/-- The rows of lines are read if the row of each line is. -/
theorem exists_parseRows_iff_forall (style : Style) (table : List Row) (lines : List Text) :
    (∃ rows, parseRows style table lines = .ok rows) ↔
      ∀ line ∈ lines, ∃ row?, parseRow (rowCells style line) = .ok row? := by
  rw [exists_parseRows_iff]
  simp only [exists_parseRow_iff, List.mem_flatMap]
  constructor
  · exact fun h line hline t ht => h t ⟨line, hline, ht⟩
  · rintro h t ⟨line, hline, ht⟩
    exact h line hline t ht

/-- The numbers of the section are those that a block can hold: they are not too long, and no line
is negative. -/
def IsNumbered (s : Section) : Prop :=
  IsWritableSection s ∧ 0 ≤ s.first ∧ 0 ≤ s.last

/-- **A block can be read** if no description behind a lost name is taken for a size that it is
not. -/
theorem exists_parseRows_numberPieces_iff (style : Style)
    (hsections : ∀ s ∈ sections, IsNumbered s) :
    (∃ rows, parseRows style [] (numberPieces style sections) = .ok rows) ↔
      ∀ s ∈ sections, IsLost s.name → 0 ≤ s.size → HasReadableSize s := by
  rw [exists_parseRows_iff_forall, numberPieces, List.forall_mem_map]
  refine forall₂_congr fun s hs => ?_
  obtain ⟨hwritable, hfirst, hlast⟩ := hsections s hs
  exact exists_parseRow_numberPiece_iff style _ _ hwritable hfirst hlast

/-- **The names and lines in a block:** those that are read from the lines of its sections, each
name with what is read last. -/
theorem exists_row_iff {rows : List Row}
    (hread : parseRows style [] (numberPieces style sections) = .ok rows)
    (hsections : ∀ s ∈ sections, IsNumbered s) (key : Text × Int × Int) :
    (∃ row ∈ rows, row.key = key) ↔
      ∃ before s after, sections = before ++ s :: after ∧ readKey? style s = some key ∧
        ∀ t ∈ after, ∀ other, readKey? style t = some other → other.1 ≠ key.1 := by
  have hlines := (exists_parseRows_iff_forall style [] _).mp ⟨rows, hread⟩
  have hmem : ∀ row, row ∈ rows ↔ IsLastRow style row (numberPieces style sections) := by
    intro row
    rw [mem_parseRows_iff hread List.nodup_nil]
    simp
  clear hread
  -- how wide the columns are does not matter
  unfold numberPieces at hlines hmem
  generalize columnWidth (sections.map fun s => escapeCell style s.name) = n at hlines hmem
  generalize columnWidth (sections.map fun s => escapeCell style s.description) = m at hlines hmem
  -- what is read from the line of a section
  have hkey : ∀ s ∈ sections, ∃ row?, parseRow (rowCells style (numberPiece style n m s)) =
      .ok row? ∧ row?.map Row.key = readKey? style s := by
    intro s hs
    obtain ⟨row?, hrow⟩ := hlines _ (List.mem_map_of_mem hs)
    obtain ⟨hwritable, hfirst, hlast⟩ := hsections s hs
    exact ⟨row?, hrow, map_key_of_parseRow_numberPiece hwritable hfirst hlast hrow⟩
  have hunnamed : ∀ name after, after ⊆ sections →
      (IsUnnamed style name (after.map (numberPiece style n m)) ↔
        ∀ t ∈ after, ∀ other, readKey? style t = some other → other.1 ≠ name) := by
    intro name after hafter
    unfold IsUnnamed
    rw [List.forall_mem_map]
    refine forall₂_congr fun t ht => ?_
    obtain ⟨row?, hrow, hmap⟩ := hkey t (hafter ht)
    rw [hrow, ← hmap]
    cases row? with
    | none => simp
    | some row => simp [Row.key]
  -- a row is one of the table if no later piece is read as a row of its name
  constructor
  · rintro ⟨row, hrow, rfl⟩
    obtain ⟨_, _, _, hsplit, hparse, hafter⟩ := (hmem row).mp hrow
    obtain ⟨before, rest, rfl, -, hrest⟩ := List.map_eq_append_iff.mp hsplit
    obtain ⟨s, after, rfl, rfl, rfl⟩ := List.map_eq_cons_iff.mp hrest
    obtain ⟨row?, hrow?, hmap⟩ := hkey s (by simp)
    rw [hparse] at hrow?
    obtain rfl := Except.ok.inj hrow?
    have hsub : after ⊆ before ++ s :: after := by simp
    exact ⟨before, s, after, rfl, hmap.symm, (hunnamed row.name after hsub).mp hafter⟩
  · rintro ⟨before, s, after, rfl, hs, hafter⟩
    obtain ⟨row?, hrow, hmap⟩ := hkey s (by simp)
    obtain ⟨row, rfl, rfl⟩ := Option.map_eq_some_iff.mp (hmap.trans hs)
    have hsub : after ⊆ before ++ s :: after := by simp
    refine ⟨row, (hmem row).mpr ⟨before.map (numberPiece style n m), _,
      after.map (numberPiece style n m), ?_, hrow, (hunnamed row.name after hsub).mpr hafter⟩, rfl⟩
    rw [List.map_append, List.map_cons]

/-! ### Rows of sections -/

/-- **The row is the section's:** it has its name, as it is read, and its lines. -/
def Row.IsOf (style : Style) (s : Section) (row : Row) : Prop :=
  row.name = readName style s.name ∧ row.first = s.first ∧ row.last = s.last

theorem Row.isOf_iff {s : Section} :
    row.IsOf style s ↔ row.key = (readName style s.name, s.first, s.last) := by
  rw [Row.IsOf, Row.key, Prod.mk.injEq, Prod.mk.injEq]

/-- **The row that is read behind a lost name** happens to be the one of a section, or the row of a
later section takes its place. -/
def IsHarmless (style : Style) (sections after : List Section) (s : Section) : Prop :=
  (∃ t ∈ sections, readName style t.name = Text.ofInt s.first ∧ t.first = s.last ∧
      t.last = s.size) ∨
    ∃ t ∈ after, ∃ key, readKey? style t = some key ∧ key.1 = Text.ofInt s.first

/-- **Each row is one of a section** if and only if the rows behind lost names are harmless. -/
theorem forall_isOf_iff {rows : List Row}
    (hread : parseRows style [] (numberPieces style sections) = .ok rows)
    (hsections : ∀ s ∈ sections, IsNumbered s) :
    (∀ row ∈ rows, ∃ s ∈ sections, row.IsOf style s) ↔
      ∀ before s after, sections = before ++ s :: after → IsLost s.name → 0 ≤ s.size →
        IsHarmless style sections after s := by
  have hrows := exists_row_iff hread hsections
  constructor
  · intro hall before s after hsplit hlost hsize
    by_cases hreplaced : ∃ t ∈ after, ∃ key, readKey? style t = some key ∧
        key.1 = Text.ofInt s.first
    · exact Or.inr hreplaced
    -- no later row has its name, so it is one of the table, and some section has it
    have hlater : ∀ t ∈ after, ∀ key, readKey? style t = some key → key.1 ≠ Text.ofInt s.first := by
      intro t ht key hkey heq
      exact hreplaced ⟨t, ht, key, hkey, heq⟩
    obtain ⟨row, hrow, hkey⟩ := (hrows (Text.ofInt s.first, s.last, s.size)).mpr
      ⟨before, s, after, hsplit, readKey?_of_isLost hlost hsize, hlater⟩
    obtain ⟨t, ht, hof⟩ := hall row hrow
    rw [Row.isOf_iff, hkey, Prod.mk.injEq, Prod.mk.injEq] at hof
    obtain ⟨hname, hfirst, hlast⟩ := hof
    exact Or.inl ⟨t, ht, hname.symm, hfirst.symm, hlast.symm⟩
  · -- each row was read from a section, and is its row unless the name was lost
    intro hall row hrow
    obtain ⟨before, s, after, hsplit, hread, hafter⟩ := (hrows row.key).mp ⟨row, hrow, rfl⟩
    have hs : s ∈ sections := by
      rw [hsplit]
      simp
    rcases of_readKey? hread with hkey | ⟨hlost, hsize, hkey⟩
    · exact ⟨s, hs, Row.isOf_iff.mpr hkey⟩
    · rcases hall before s after hsplit hlost hsize with
        ⟨t, ht, hname, hfirst, hlast⟩ | ⟨t, ht, key, hread, heq⟩
      · refine ⟨t, ht, Row.isOf_iff.mpr ?_⟩
        rw [hkey, hname, hfirst, hlast]
      · -- a later row of this name would have taken its place
        rw [hkey] at hafter
        exact absurd heq (hafter t ht key hread)

/-- **A block that is written is read**, with the rows that are read from the lines of its
sections, if its number of lines can be read too. -/
theorem exists_parse_render_iff (style : Style) (sections : List Section) (totalLines : Int)
    (h : newline.IsLineEnd) (hstamp : IsStamp stamp)
    (hsections : ∀ s ∈ sections, s.HasTexts ('\n' ∉ ·)) (p : List Row → Prop) :
    let block := render sections totalLines style stamp newline
    (∃ b, parse block = .ok (some b) ∧ p b.rows) ↔
      HasReadableTotal block ∧ ∃ rows, parseRows style [] (numberPieces style sections) = .ok rows ∧
        p rows := by
  intro block
  have hlocate := locate?_render style totalLines (Or.inl rfl) h hstamp hsections
    fun _ => (Or.inl rfl : Text.EndsLine [])
  rw [List.nil_append, List.append_nil] at hlocate
  rw [← exists_readTotal_iff_hasReadableTotal, parse, hlocate]
  simp only [parseRows_render style sections totalLines h hstamp]
  constructor
  · rintro ⟨b, hparse, hb⟩
    obtain ⟨rows, hrows, hparse⟩ := Fault.bind_eq_ok_iff.mp hparse
    obtain ⟨total, htotal, hparse⟩ := Fault.bind_eq_ok_iff.mp hparse
    obtain rfl := Option.some.inj (Except.ok.inj hparse)
    exact ⟨⟨total, htotal⟩, rows, hrows, hb⟩
  · rintro ⟨⟨total, htotal⟩, rows, hrows, hp⟩
    exact ⟨_, Fault.bind_eq_ok_iff.mpr ⟨rows, hrows,
      Fault.bind_eq_ok_iff.mpr ⟨total, htotal, rfl⟩⟩, hp⟩

/-- **Each row of a block is one of its sections**, with the name of the section as it is read and
with its lines, if and only if the block can be written, its number of lines can be read, and
behind each name that is lost the description is no size that cannot be read and the row is
harmless. The number of lines can be read if it is not negative. -/
theorem exists_parse_serialize_isOf_iff (style : Style) (totalLines : Int) (now : Moment)
    (h : newline.IsLineEnd)
    (hsections : ∀ s ∈ sections, s.HasTexts ('\n' ∉ ·) ∧ 0 ≤ s.first ∧ 0 ≤ s.last) :
    ((∃ b, (serialize sections totalLines style now newline >>= parse) = .ok (some b) ∧
        ∀ row ∈ b.rows, ∃ s ∈ sections, row.IsOf style s) ↔
      ∃ text, serialize sections totalLines style now newline = .ok text ∧
        HasReadableTotal text ∧
        ∀ before s after, sections = before ++ s :: after → IsLost s.name → 0 ≤ s.size →
          HasReadableSize s ∧ IsHarmless style sections after s) ∧
      (0 ≤ totalLines → ∀ text, serialize sections totalLines style now newline = .ok text →
        HasReadableTotal text) := by
  -- a text that was written has numbers that can be read again
  have hread : ∀ text, serialize sections totalLines style now newline = .ok text →
      ((∃ b, parse text = .ok (some b) ∧ ∀ row ∈ b.rows, ∃ s ∈ sections, row.IsOf style s) ↔
        HasReadableTotal text ∧
        ∀ before s after, sections = before ++ s :: after → IsLost s.name → 0 ≤ s.size →
          HasReadableSize s ∧ IsHarmless style sections after s) := by
    intro text hserialize
    obtain ⟨stamp, hclock, hnumbers, rfl⟩ := serialize_eq_ok_iff.mp hserialize
    obtain ⟨-, hwritable⟩ := isWritable_of_numbers hnumbers
    have hnumbered : ∀ s ∈ sections, IsNumbered s := fun s hs =>
      ⟨hwritable s hs, (hsections s hs).2⟩
    refine (exists_parse_render_iff style sections totalLines h (isStamp_of_blockStamp hclock)
      (fun s hs => (hsections s hs).1) fun rows =>
        ∀ row ∈ rows, ∃ s ∈ sections, row.IsOf style s).trans (and_congr_right fun _ => ?_)
    -- of a section whose name is lost two things are asked: its size can be read, and the row that
    -- it leaves does no harm
    constructor
    · rintro ⟨rows, hrows, hall⟩ before s after hsplit hlost hsize
      have hs : s ∈ sections := by rw [hsplit]; simp
      exact ⟨(exists_parseRows_numberPieces_iff style hnumbered).mp ⟨rows, hrows⟩ s hs hlost hsize,
        (forall_isOf_iff hrows hnumbered).mp hall before s after hsplit hlost hsize⟩
    · intro hall
      obtain ⟨rows, hrows⟩ := (exists_parseRows_numberPieces_iff style hnumbered).mpr
        fun s hs hlost hsize => by
          obtain ⟨before, after, hsplit⟩ := List.append_of_mem hs
          exact (hall before s after hsplit hlost hsize).1
      refine ⟨rows, hrows, (forall_isOf_iff hrows hnumbered).mpr ?_⟩
      exact fun before s after hsplit hlost hsize => (hall before s after hsplit hlost hsize).2
  constructor
  · constructor
    · rintro ⟨b, hbind, hall⟩
      obtain ⟨text, hserialize, hparse⟩ := Fault.bind_eq_ok_iff.mp hbind
      exact ⟨text, hserialize, (hread text hserialize).mp ⟨b, hparse, hall⟩⟩
    · rintro ⟨text, hserialize, hright⟩
      obtain ⟨b, hparse, hall⟩ := (hread text hserialize).mpr hright
      exact ⟨b, Fault.bind_eq_ok_iff.mpr ⟨text, hserialize, hparse⟩, hall⟩
  · intro htotal text hserialize
    obtain ⟨stamp, hclock, hnumbers, rfl⟩ := serialize_eq_ok_iff.mp hserialize
    obtain ⟨hwritable, -⟩ := isWritable_of_numbers hnumbers
    exact hasReadableTotal_render style sections h (isStamp_of_blockStamp hclock) htotal hwritable

/-- A vertical tab at the end of a name ends the line of the section, and the row that is read has
the number of its first line for a name. -/
theorem not_isOf_of_vertical_tab :
    let s : Section := ⟨"a\x0b", 3, 9, [], .auto⟩
    let block := serialize [s] 12 .hash ⟨2024, 2, 29, 1, 2, 3, 4, 0⟩ ['\n']
    Text.IsLineEnd ['\n'] ∧ (∀ t ∈ [s], t.HasTexts ('\n' ∉ ·) ∧ 0 ≤ t.first ∧ 0 ≤ t.last) ∧
      (block >>= parse).toOption.map (Option.map rows) = some (some [⟨"3", 9, 7, -1, []⟩]) ∧
      ¬ ∃ b, (block >>= parse) = .ok (some b) ∧ ∀ row ∈ b.rows, ∃ t ∈ [s], row.IsOf .hash t := by
  intro s block
  have hnewline : Text.IsLineEnd ['\n'] := Or.inl rfl
  have hsections : ∀ t ∈ [s], t.HasTexts ('\n' ∉ ·) ∧ 0 ≤ t.first ∧ 0 ≤ t.last :=
    List.forall_mem_singleton.mpr ⟨⟨by decide, by decide⟩, by decide, by decide⟩
  refine ⟨hnewline, hsections, by decide +kernel, fun hall => ?_⟩
  obtain ⟨hiff, -⟩ := exists_parse_serialize_isOf_iff .hash 12 ⟨2024, 2, 29, 1, 2, 3, 4, 0⟩
    hnewline hsections
  obtain ⟨text, -, -, hlost⟩ := hiff.mp hall
  obtain ⟨-, hharmless⟩ := hlost [] s [] rfl (by decide) (by decide)
  rcases hharmless with ⟨t, ht, hname, -⟩ | ⟨t, ht, -⟩
  · obtain rfl := List.mem_singleton.mp ht
    exact absurd hname (by decide)
  · exact absurd ht List.not_mem_nil

end Block

end SectionIndex
