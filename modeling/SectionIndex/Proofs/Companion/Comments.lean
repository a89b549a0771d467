import SectionIndex.Proofs.Companion.Document
import SectionIndex.Proofs.Scan.BlockLines

/-!
# Comments in companion documents

A file can be its own companion document, by a link. Then the block that is written into it is read
as a part of the document. No line of a block is a line of the table or a heading below the title,
so the rows of the document stay the same.

## Main definitions

* `Companion.readRows` — the rows of the lines of a document.
* `Companion.IsComment` — a line that holds no row and starts no part below the title.
* `Companion.sectionsOf` — the sections of a document, if there is one.

## Main statements

* `Companion.readRows_append` — comments in a document change no row.
* `Companion.map_sectionsOf_parse` — the sections of a document are its rows.
-/

namespace SectionIndex

namespace Companion

/-- **The rows of the lines** that follow in a part of a document. -/
def readRows (current : Part) (lines : List Text) : Except Fault (List Section) :=
  (readLines current lines).map Draft.rows

@[simp] theorem readRows_nil (current : Part) : readRows current [] = .ok [] := rfl

/-- Lines of other parts than the table give no rows. -/
theorem readRows_cons (current : Part) (line : Text) (lines : List Text) :
    readRows current (line :: lines) =
      match partOf? current line with
      | some part => readRows part lines
      | none =>
        if current = .sections then do
          let row ← parseRow (tableCells line)
          let rows ← readRows current lines
          return row.toList ++ rows
        else readRows current lines := by
  unfold readRows
  conv => lhs; unfold readLines
  -- only in the table does a line add a row, and nowhere else can reading fail
  cases partOf? current line with
  | some part => rfl
  | none =>
    cases current with
    | preamble => rfl
    | description => cases readLines .description lines <;> rfl
    | sections =>
      cases parseRow (tableCells line) with
      | error fault => rfl
      | ok row => cases readLines .sections lines <;> rfl
    | notes => cases readLines .notes lines <;> rfl
    | other => rfl

/-- **A line that holds no row** and starts no part below the title. -/
structure IsComment (line : Text) : Prop where
  isPrefixOf_eq : ['#', '#', ' '].isPrefixOf line = false
  tableCells_eq : tableCells line = []

variable {line : Text}

/-- Such a line starts a part only if it can be a title. -/
theorem IsComment.partOf?_eq (h : IsComment line) (current : Part) :
    partOf? current line = none ∨
      current = .preamble ∧ partOf? current line = some .description := by
  unfold partOf?
  rw [h.isPrefixOf_eq, if_neg Bool.false_ne_true]
  split
  · next htitle => exact Or.inr ⟨htitle.2, rfl⟩
  · exact Or.inl rfl

/-- The rows are the same before the title and after it. -/
theorem readRows_preamble (lines : List Text) :
    readRows .preamble lines = readRows .description lines := by
  induction lines with
  | nil => rfl
  | cons line lines ih =>
    rw [readRows_cons, readRows_cons]
    -- a heading starts a part from both, a title only from the preamble; after any other line the
    -- rest is read
    by_cases hheading : ['#', '#', ' '].isPrefixOf line = true
    · have hpart : ∀ current, partOf? current line = partOf? .description line := fun current => by
        rw [partOf?, partOf?, if_pos hheading, if_pos hheading]
      rw [hpart]
      unfold partOf?
      rw [if_pos hheading]
    · have hdescription : partOf? .description line = none := by
        rw [partOf?, if_neg hheading, if_neg fun h => absurd h.2 (by decide)]
      rw [hdescription, partOf?, if_neg hheading]
      by_cases htitle : ['#', ' '].isPrefixOf line = true
      · rw [if_pos ⟨htitle, rfl⟩]
        rfl
      · rw [if_neg fun h => htitle h.1]
        exact ih

theorem readRows_cons_of_isComment (h : IsComment line) (current : Part) (lines : List Text) :
    readRows current (line :: lines) = readRows current lines := by
  rw [readRows_cons]
  rcases h.partOf?_eq current with hpart | ⟨rfl, hpart⟩
  · rw [hpart, h.tableCells_eq]
    cases current with
    | sections => cases readRows .sections lines <;> rfl
    | _ => rfl
  · rw [hpart, readRows_preamble]

/-- **Comments in a document change no row.** -/
theorem readRows_append (current : Part) (before : List Text) {comments : List Text}
    (after : List Text) (h : ∀ line ∈ comments, IsComment line) :
    readRows current (before ++ (comments ++ after)) = readRows current (before ++ after) := by
  induction before generalizing current with
  | nil =>
    rw [List.nil_append, List.nil_append]
    induction comments with
    | nil => rfl
    | cons line comments ih =>
      obtain ⟨hline, hcomments⟩ := List.forall_mem_cons.mp h
      rw [List.cons_append, readRows_cons_of_isComment hline, ih hcomments]
  | cons line before ih =>
    rw [List.cons_append, List.cons_append, readRows_cons, readRows_cons]
    simp only [ih]

/-! ### Sections of a document -/

/-- **The sections of a document**, if there is one. -/
def sectionsOf (document? : Option Companion) : List Section :=
  document?.elim [] sections

theorem sectionsOf_eq_nil_iff {document? : Option Companion} :
    sectionsOf document? = [] ↔ ∀ document ∈ document?, document.sections = [] := by
  cases document? <;> simp [sectionsOf]

/-- **The sections of a document** are its rows in order; a document that says nothing has none. -/
theorem map_sectionsOf_parse (text path : Text) :
    (parse text path).map sectionsOf =
      (readRows .preamble (Text.breakLines text)).map orderedRows := by
  unfold parse readRows
  cases readLines .preamble (Text.breakLines text) with
  | error fault => rfl
  | ok draft =>
    simp only [bind, Except.bind]
    by_cases hnothing : paragraph draft.description = [] ∧ orderedRows draft.rows = [] ∧
        paragraph draft.notes = []
    · rw [if_pos hnothing]
      exact congrArg Except.ok hnothing.2.1.symm
    · rw [if_neg hnothing]
      rfl

/-! ### Blocks in documents -/

/-- A line whose first sign is no bar is no line of a table. -/
theorem tableCells_of_head? {c : Char} (h : (line.dropWhile isBlank).head? = some c)
    (hc : c ≠ '|') : tableCells line = [] := by
  have hhead : line.strip.head? ≠ some '|' := by
    intro hbar
    obtain ⟨t, ht⟩ := List.head?_eq_some_iff.mp hbar
    obtain ⟨u, hu⟩ := Text.trimEnd_isPrefix isBlank (line.dropWhile isBlank)
    have hstrip : line.strip ++ u = line.dropWhile isBlank := hu
    rw [← hstrip, ht] at h
    exact hc (Option.some.inj h).symm
  exact if_neg hhead

/-- **The lines of a block are comments** in a companion document. -/
theorem isComment_of_isFrameLine {style : Block.Style} (h : Block.IsFrameLine style line) :
    IsComment line := by
  -- the first character that is no blank is a sign of the comment, and no bar
  cases h with
  | empty => exact ⟨rfl, rfl⟩
  | sign =>
    cases style with
    | jsdoc => exact ⟨rfl, tableCells_of_head? (c := '*') rfl (by decide)⟩
    | hash => exact ⟨rfl, tableCells_of_head? (c := '#') rfl (by decide)⟩
  | label _ rest =>
    cases style with
    | jsdoc => exact ⟨rfl, tableCells_of_head? (c := '*') rfl (by decide)⟩
    | hash => exact ⟨rfl, tableCells_of_head? (c := '#') rfl (by decide)⟩
  | row _ rest =>
    cases style with
    | jsdoc => exact ⟨rfl, tableCells_of_head? (c := '*') rfl (by decide)⟩
    | hash => exact ⟨rfl, tableCells_of_head? (c := '#') rfl (by decide)⟩
  | opening => exact ⟨rfl, tableCells_of_head? (c := '/') rfl (by decide)⟩
  | closing => exact ⟨rfl, tableCells_of_head? (c := '*') rfl (by decide)⟩

end Companion

end SectionIndex
