import SectionIndex.Block.Cell
import SectionIndex.Proofs.Text.Lines
import SectionIndex.Proofs.Text.Trim

/-!
# Laws of table cells

What the escapes of a cell keep and what they keep away. An escaped text ends no comment and
bounds no cell, and reading it back gives the text, but for one: in a documentation comment the
escape of a star and a slash is itself no text that can be written.

## Main definitions

* `Block.closing`, `Block.escapedClosing` — the end of a comment, and its escape.
* `Block.IsEscapeOf` — a text with backslashes put into it.
* `Block.IsEscapable` — a text that can be told from the escape of another.
* `Block.IsWhole` — a text in which no cell ends.

## Main statements

* `Block.infix_of_escapeCell` — a word in a cell stands in its text.
* `Block.closing_not_infix_escapeCell` — no cell ends the comment.
* `Block.unescapeCell_escapeCell` — a cell is read back.
* `Block.isEscapable_unescapeCell` — what is read back can be written again.
* `Block.splitCells_framed` — the cells of a row.
-/

namespace SectionIndex

namespace Block

/-- The characters that end a documentation comment. -/
def closing : Text := ['*', '/']

/-- How they are written in a cell. -/
def escapedClosing : Text := ['*', '\\', '/']

variable {style : Style} {t : Text} {c : Char}

/-! ### Characters and words of an escaped text -/

/-- **A text with backslashes put into it.** -/
inductive IsEscapeOf : Text → Text → Prop
  | nil : IsEscapeOf [] []
  | keep {e t : Text} (c : Char) (h : IsEscapeOf e t) : IsEscapeOf (c :: e) (c :: t)
  | escape {e t : Text} (h : IsEscapeOf e t) : IsEscapeOf ('\\' :: e) t

theorem isEscapeOf_escapeBars (t : Text) : IsEscapeOf (escapeBars t) t := by
  induction t with
  | nil => exact .nil
  | cons c t ih =>
    rw [escapeBars]
    split
    · next hc =>
      rw [hc]
      exact .escape (.keep '|' ih)
    · exact .keep c ih

theorem isEscapeOf_escapeClosings (t : Text) : IsEscapeOf (escapeClosings t) t := by
  induction t using escapeClosings.induct with
  | case1 => exact .nil
  | case2 t ih => exact .keep '*' (.escape (.keep '/' ih))
  | case3 c t hnot ih =>
    rw [escapeClosings.eq_3 _ _ hnot]
    exact .keep c ih

variable {e word : Text}

theorem IsEscapeOf.mem (h : IsEscapeOf e t) (hc : c ∈ e) : c ∈ t ∨ c = '\\' := by
  induction h with
  | nil => exact absurd hc List.not_mem_nil
  | keep d h ih =>
    rcases List.mem_cons.mp hc with rfl | hc
    · exact Or.inl List.mem_cons_self
    · exact (ih hc).imp (List.mem_cons_of_mem d) id
  | escape h ih => exact (List.mem_cons.mp hc).elim Or.inr ih

theorem IsEscapeOf.prefix_of (h : IsEscapeOf e t) (hword : '\\' ∉ word) (hstarts : word <+: e) :
    word <+: t := by
  -- by induction on the escape: what was kept is matched, and what was put in is a backslash
  induction h generalizing word with
  | nil => exact hstarts
  | keep c h ih =>
    cases word with
    | nil => exact List.nil_prefix
    | cons d word =>
      obtain ⟨rfl, hrest⟩ := List.cons_prefix_cons.mp hstarts
      have hword' : '\\' ∉ word := mt (List.mem_cons_of_mem d) hword
      exact List.cons_prefix_cons.mpr ⟨rfl, ih hword' hrest⟩
  | escape h ih =>
    cases word with
    | nil => exact List.nil_prefix
    | cons d word =>
      -- the word would start with the backslash that was put in
      obtain ⟨rfl, -⟩ := List.cons_prefix_cons.mp hstarts
      exact absurd List.mem_cons_self hword

/-- A word without backslashes that stands in the escape of a text stands in the text. -/
theorem IsEscapeOf.infix_of (h : IsEscapeOf e t) (hword : '\\' ∉ word) (hstands : word <:+: e) :
    word <:+: t := by
  induction h with
  | nil => exact hstands
  | keep c h ih =>
    rcases List.infix_cons_iff.mp hstands with hstarts | hstands
    · exact ((IsEscapeOf.keep c h).prefix_of hword hstarts).isInfix
    · exact (ih hstands).trans (List.suffix_cons _ _).isInfix
  | escape h ih =>
    rcases List.infix_cons_iff.mp hstands with hstarts | hstands
    · exact ((IsEscapeOf.escape h).prefix_of hword hstarts).isInfix
    · exact ih hstands

/-- **An escape adds only backslashes.** -/
theorem mem_escapeCell (h : c ∈ escapeCell style t) : c ∈ t ∨ c = '\\' := by
  cases style with
  | hash => exact (isEscapeOf_escapeBars t).mem h
  | jsdoc =>
    rcases (isEscapeOf_escapeClosings _).mem h with h | h
    · exact (isEscapeOf_escapeBars t).mem h
    · exact Or.inr h

/-- **A word in a cell** that has no backslash in it stands in the text of the cell. -/
theorem infix_of_escapeCell (hword : '\\' ∉ word) (h : word <:+: escapeCell style t) :
    word <:+: t := by
  cases style with
  | hash => exact (isEscapeOf_escapeBars t).infix_of hword h
  | jsdoc =>
    have hbars := (isEscapeOf_escapeClosings _).infix_of hword h
    exact (isEscapeOf_escapeBars t).infix_of hword hbars

theorem unescapeBars_sublist (t : Text) : (unescapeBars t).Sublist t := by
  induction t using unescapeBars.induct with
  | case1 => simp [unescapeBars]
  | case2 t ih =>
    rw [unescapeBars]
    exact (ih.cons_cons '|').cons '\\'
  | case3 c t hnot ih =>
    rw [unescapeBars.eq_3 _ _ hnot]
    exact ih.cons_cons c

theorem unescapeClosings_sublist (t : Text) : (unescapeClosings t).Sublist t := by
  induction t using unescapeClosings.induct with
  | case1 => simp [unescapeClosings]
  | case2 t ih =>
    rw [unescapeClosings]
    exact ((ih.cons_cons '/').cons '\\').cons_cons '*'
  | case3 c t hnot ih =>
    rw [unescapeClosings.eq_3 _ _ hnot]
    exact ih.cons_cons c

/-- Reading a cell adds nothing. -/
theorem unescapeCell_sublist (style : Style) (t : Text) : (unescapeCell style t).Sublist t := by
  cases style with
  | hash => exact unescapeBars_sublist t
  | jsdoc => exact (unescapeBars_sublist _).trans (unescapeClosings_sublist t)

/-! ### The ends of an escaped text -/

theorem head?_escapeBars (t : Text) :
    (escapeBars t).head? = if t.head? = some '|' then some '\\' else t.head? := by
  cases t with
  | nil => rfl
  | cons c t =>
    rw [escapeBars]
    split <;> simp_all

theorem head?_escapeClosings (t : Text) : (escapeClosings t).head? = t.head? := by
  induction t using escapeClosings.induct with
  | case1 => rfl
  | case2 t _ => rfl
  | case3 c t hnot _ => rw [escapeClosings.eq_3 _ _ hnot]; rfl

theorem getLast?_escapeBars (t : Text) : (escapeBars t).getLast? = t.getLast? := by
  induction t with
  | nil => rfl
  | cons c t ih =>
    rw [escapeBars]
    split
    · next h => simp [List.getLast?_cons, ih, h]
    · simp [List.getLast?_cons, ih]

theorem getLast?_escapeClosings (t : Text) : (escapeClosings t).getLast? = t.getLast? := by
  induction t using escapeClosings.induct with
  | case1 => rfl
  | case2 t ih =>
    rw [escapeClosings]
    simp [List.getLast?_cons, ih]
  | case3 c t hnot ih =>
    rw [escapeClosings.eq_3 _ _ hnot]
    simp [List.getLast?_cons, ih]

theorem getLast?_escapeCell (style : Style) (t : Text) :
    (escapeCell style t).getLast? = t.getLast? := by
  cases style with
  | hash => exact getLast?_escapeBars t
  | jsdoc => exact (getLast?_escapeClosings _).trans (getLast?_escapeBars t)

theorem head?_escapeCell (style : Style) (t : Text) :
    (escapeCell style t).head? = if t.head? = some '|' then some '\\' else t.head? := by
  cases style with
  | hash => exact head?_escapeBars t
  | jsdoc => exact (head?_escapeClosings _).trans (head?_escapeBars t)

/-- **An escape keeps a text trimmed**, as a backslash is no blank. -/
theorem strip_escapeCell (ht : t.strip = t) : (escapeCell style t).strip = escapeCell style t := by
  obtain ⟨hhead, hlast⟩ := Text.trim_eq_self_iff.mp ht
  refine Text.trim_of_ends (fun c hc => ?_) (fun c hc => ?_)
  · rw [head?_escapeCell] at hc
    split at hc
    -- a bar at the start is the only character whose place a backslash takes
    · obtain rfl : '\\' = c := by simpa using hc
      rfl
    · exact hhead c hc
  · rw [getLast?_escapeCell] at hc
    exact hlast c hc

/-! ### Escapes and comment ends -/

theorem head?_of_cons_isPrefix {d : Char} {s : Text} (h : d :: s <+: t) : t.head? = some d := by
  obtain ⟨rest, rfl⟩ := h
  rfl

theorem closing_not_infix_escapeClosings (t : Text) : ¬ closing <:+: escapeClosings t := by
  induction t using escapeClosings.induct with
  | case1 => decide
  | case2 t ih =>
    rw [escapeClosings]
    simp only [closing, List.infix_cons_iff, List.cons_prefix_cons, not_or]
    exact ⟨by simp, by simp, by simp, ih⟩
  | case3 c t hnot ih =>
    rw [escapeClosings.eq_3 _ _ hnot, List.infix_cons_iff, not_or]
    refine ⟨fun h => ?_, ih⟩
    -- a star with a slash behind it would have been escaped
    obtain rfl : '*' = c := (List.cons_prefix_cons.mp h).1
    have hhead := head?_of_cons_isPrefix (List.cons_prefix_cons.mp h).2
    rw [head?_escapeClosings] at hhead
    obtain ⟨rest, rfl⟩ := List.head?_eq_some_iff.mp hhead
    exact hnot rest rfl rfl

/-- **No cell of a documentation comment ends the comment.** -/
theorem closing_not_infix_escapeCell (t : Text) : ¬ closing <:+: escapeCell .jsdoc t :=
  closing_not_infix_escapeClosings _

/-- An escape that stands at the start of an escaped text was there before. -/
theorem exists_cons_of_escapeClosings {rest : Text} (h : escapeClosings t = '\\' :: '/' :: rest) :
    ∃ before, t = '\\' :: '/' :: before := by
  have hhead : t.head? = some '\\' := by rw [← head?_escapeClosings, h]; rfl
  obtain ⟨u, rfl⟩ := List.head?_eq_some_iff.mp hhead
  rw [escapeClosings.eq_3 _ _ (by simp), List.cons.injEq] at h
  have hhead : u.head? = some '/' := by rw [← head?_escapeClosings, h.2]; rfl
  obtain ⟨v, rfl⟩ := List.head?_eq_some_iff.mp hhead
  exact ⟨v, rfl⟩

theorem unescapeClosings_escapeClosings (h : ¬ escapedClosing <:+: t) :
    unescapeClosings (escapeClosings t) = t := by
  induction t using escapeClosings.induct with
  | case1 => rfl
  | case2 t ih =>
    have ht : ¬ escapedClosing <:+: t :=
      fun hmem => h (hmem.trans ((List.suffix_cons _ _).trans (List.suffix_cons _ _)).isInfix)
    rw [escapeClosings, unescapeClosings, ih ht]
  | case3 c t hnot ih =>
    have ht : ¬ escapedClosing <:+: t := fun hmem => h (hmem.trans (List.suffix_cons _ _).isInfix)
    rw [escapeClosings.eq_3 _ _ hnot, unescapeClosings.eq_3, ih ht]
    -- a star with an escape behind it was followed by a backslash and a slash before
    rintro rest rfl hrest
    obtain ⟨v, rfl⟩ := exists_cons_of_escapeClosings hrest
    exact h ⟨[], v, rfl⟩

/-- The escape of bars makes no escaped comment end. -/
theorem escapedClosing_infix_of_escapeBars (h : escapedClosing <:+: escapeBars t) :
    escapedClosing <:+: t := by
  induction t with
  | nil => exact h
  | cons c t ih =>
    rw [escapeBars] at h
    split at h
    · -- neither character of an escaped bar starts the word
      simp only [escapedClosing, List.infix_cons_iff, List.cons_prefix_cons] at h
      rcases h with ⟨h, -⟩ | ⟨h, -⟩ | h
      · exact absurd h (by decide)
      · exact absurd h (by decide)
      · exact (ih h).trans (List.suffix_cons _ _).isInfix
    · rw [List.infix_cons_iff] at h
      rcases h with h | h
      · obtain ⟨rfl, hbackslash⟩ := List.cons_prefix_cons.mp h
        -- the backslash is no escape of a bar, as a slash follows it
        cases t with
        | nil => exact absurd hbackslash (by simp [escapeBars])
        | cons d t =>
          rw [escapeBars] at hbackslash
          split at hbackslash
          · simp [List.cons_prefix_cons] at hbackslash
          · obtain ⟨rfl, hslash⟩ := List.cons_prefix_cons.mp hbackslash
            have hhead := head?_of_cons_isPrefix hslash
            rw [head?_escapeBars] at hhead
            split at hhead
            · exact absurd hhead (by decide)
            · obtain ⟨rest, rfl⟩ := List.head?_eq_some_iff.mp hhead
              exact ⟨[], rest, rfl⟩
      · exact (ih h).trans (List.suffix_cons _ _).isInfix

/-- The text can be told from the escape of another one. -/
def IsEscapable (style : Style) (t : Text) : Prop :=
  style = .jsdoc → ¬ escapedClosing <:+: t

/-- **A cell is read back.** -/
theorem unescapeCell_escapeCell (ht : IsEscapable style t) :
    unescapeCell style (escapeCell style t) = t := by
  cases style with
  | hash => exact unescapeBars_escapeBars t
  | jsdoc =>
    -- the two escapes are undone in the opposite order
    have hbars : ¬ escapedClosing <:+: escapeBars t :=
      fun h => ht rfl (escapedClosing_infix_of_escapeBars h)
    rw [escapeCell, unescapeCell, unescapeClosings_escapeClosings hbars, unescapeBars_escapeBars]

/-! ### What is read from a cell -/

theorem head?_unescapeClosings (t : Text) : (unescapeClosings t).head? = t.head? := by
  induction t using unescapeClosings.induct with
  | case1 => rfl
  | case2 t _ => rfl
  | case3 c t hnot _ => rw [unescapeClosings.eq_3 _ _ hnot]; rfl

theorem getLast?_unescapeClosings (t : Text) : (unescapeClosings t).getLast? = t.getLast? := by
  induction t using unescapeClosings.induct with
  | case1 => rfl
  | case2 t ih =>
    rw [unescapeClosings]
    simp [List.getLast?_cons, ih]
  | case3 c t hnot ih =>
    rw [unescapeClosings.eq_3 _ _ hnot]
    simp [List.getLast?_cons, ih]

theorem getLast?_unescapeBars (t : Text) : (unescapeBars t).getLast? = t.getLast? := by
  induction t using unescapeBars.induct with
  | case1 => rfl
  | case2 t ih =>
    rw [unescapeBars]
    simp [List.getLast?_cons, ih]
  | case3 c t hnot ih =>
    rw [unescapeBars.eq_3 _ _ hnot]
    simp [List.getLast?_cons, ih]

theorem head?_unescapeBars (t : Text) :
    (unescapeBars t).head? = some '|' ∨ (unescapeBars t).head? = t.head? := by
  induction t using unescapeBars.induct with
  | case1 => exact Or.inr rfl
  | case2 t _ => exact Or.inl rfl
  | case3 c t hnot _ =>
    rw [unescapeBars.eq_3 _ _ hnot]
    exact Or.inr rfl

/-- **What is read from a trimmed cell is trimmed.** -/
theorem strip_unescapeCell (ht : t.strip = t) :
    (unescapeCell style t).strip = unescapeCell style t := by
  have hbars : ∀ u : Text, u.strip = u → (unescapeBars u).strip = unescapeBars u := by
    intro u hu
    obtain ⟨hhead, hlast⟩ := Text.trim_eq_self_iff.mp hu
    refine Text.trim_of_ends (fun c hc => ?_) (fun c hc => hlast c (getLast?_unescapeBars u ▸ hc))
    rcases head?_unescapeBars u with h | h
    -- a bar that lost its backslash is no blank either
    · obtain rfl : '|' = c := by simpa [h] using hc
      rfl
    · exact hhead c (h ▸ hc)
  cases style with
  | hash => exact hbars t ht
  | jsdoc =>
    obtain ⟨hhead, hlast⟩ := Text.trim_eq_self_iff.mp ht
    exact hbars _ (Text.trim_of_ends (fun c hc => hhead c (head?_unescapeClosings t ▸ hc))
      (fun c hc => hlast c (getLast?_unescapeClosings t ▸ hc)))

theorem escapedClosing_not_infix_unescapeClosings (t : Text) :
    ¬ escapedClosing <:+: unescapeClosings t := by
  induction t using unescapeClosings.induct with
  | case1 => decide
  | case2 t ih =>
    rw [unescapeClosings]
    simp only [escapedClosing, List.infix_cons_iff, List.cons_prefix_cons, not_or]
    exact ⟨by simp, by simp, ih⟩
  | case3 c t hnot ih =>
    rw [unescapeClosings.eq_3 _ _ hnot, List.infix_cons_iff, not_or]
    refine ⟨fun h => ?_, ih⟩
    -- star, backslash and slash would have been read as star and slash
    obtain ⟨rfl, hbackslash⟩ := List.cons_prefix_cons.mp h
    have hhead := head?_of_cons_isPrefix hbackslash
    rw [head?_unescapeClosings] at hhead
    obtain ⟨u, rfl⟩ := List.head?_eq_some_iff.mp hhead
    rw [unescapeClosings.eq_3 _ _ (by simp)] at hbackslash
    have hhead := head?_of_cons_isPrefix (List.cons_prefix_cons.mp hbackslash).2
    rw [head?_unescapeClosings] at hhead
    obtain ⟨v, rfl⟩ := List.head?_eq_some_iff.mp hhead
    exact hnot v rfl rfl

theorem escapedClosing_infix_of_unescapeBars (h : escapedClosing <:+: unescapeBars t) :
    escapedClosing <:+: t := by
  induction t using unescapeBars.induct with
  | case1 => exact h
  | case2 t ih =>
    rw [unescapeBars, List.infix_cons_iff] at h
    rcases h with h | h
    · exact absurd (List.cons_prefix_cons.mp h).1 (by decide)
    · exact (ih h).trans ((List.suffix_cons _ _).trans (List.suffix_cons _ _)).isInfix
  | case3 c t hnot ih =>
    rw [unescapeBars.eq_3 _ _ hnot, List.infix_cons_iff] at h
    rcases h with h | h
    · obtain ⟨rfl, hbackslash⟩ := List.cons_prefix_cons.mp h
      -- neither the backslash nor the slash is a bar that lost its backslash
      cases t with
      | nil => exact absurd hbackslash (by simp [unescapeBars])
      | cons d t =>
        by_cases hbar : ∃ u, d = '\\' ∧ t = '|' :: u
        · obtain ⟨u, rfl, rfl⟩ := hbar
          simp [unescapeBars] at hbackslash
        · rw [unescapeBars.eq_3 _ _ (fun u hd ht => hbar ⟨u, hd, ht⟩)] at hbackslash
          obtain ⟨rfl, hslash⟩ := List.cons_prefix_cons.mp hbackslash
          have hhead := head?_of_cons_isPrefix hslash
          rcases head?_unescapeBars t with h' | h'
          · rw [h'] at hhead
            exact absurd hhead (by decide)
          · rw [h'] at hhead
            obtain ⟨rest, rfl⟩ := List.head?_eq_some_iff.mp hhead
            exact ⟨[], rest, rfl⟩
    · exact (ih h).trans (List.suffix_cons _ _).isInfix

/-- **What is read from a cell can be written again.** -/
theorem isEscapable_unescapeCell (style : Style) (t : Text) :
    IsEscapable style (unescapeCell style t) := by
  rintro rfl h
  exact escapedClosing_not_infix_unescapeClosings t (escapedClosing_infix_of_unescapeBars h)

/-! ### The cells of a row -/

/-- **No cell ends in the text**, which stands after a backslash if `escaped` says so. -/
def IsWhole (escaped : Bool) (t : Text) : Prop :=
  splitCellsFrom escaped t = [t]

variable {escaped : Bool} {s : Text}

theorem isWhole_cons :
    IsWhole escaped (c :: t) ↔ ¬ (c = '|' ∧ escaped = false) ∧ IsWhole (c == '\\') t := by
  rw [IsWhole, IsWhole, splitCellsFrom]
  split
  · next h => simp [h]
  -- any other character goes into the first of the cells that follow
  · next h =>
    cases hsplit : splitCellsFrom (c == '\\') t with
    | nil => exact absurd hsplit (splitCellsFrom_ne_nil _ _)
    | cons cell cells => simp [h]

theorem isWhole_of_not_mem (h : '|' ∉ t) : IsWhole escaped t := by
  induction t generalizing escaped with
  | nil => rfl
  | cons c t ih =>
    rw [List.mem_cons, not_or] at h
    exact isWhole_cons.mpr ⟨fun hc => h.1 hc.1.symm, ih h.2⟩

theorem IsWhole.append (hs : IsWhole escaped s) (ht : '|' ∉ t) : IsWhole escaped (s ++ t) := by
  induction s generalizing escaped with
  | nil => exact isWhole_of_not_mem ht
  | cons c s ih =>
    obtain ⟨hc, hs⟩ := isWhole_cons.mp hs
    exact isWhole_cons.mpr ⟨hc, ih hs⟩

theorem isWhole_escapeBars (t : Text) : IsWhole escaped (escapeBars t) := by
  induction t generalizing escaped with
  | nil => rfl
  | cons c t ih =>
    rw [escapeBars]
    split
    -- the bar stands after its backslash, and no other character ends a cell
    · exact isWhole_cons.mpr ⟨by simp, isWhole_cons.mpr ⟨by simp, ih⟩⟩
    · next hc => exact isWhole_cons.mpr ⟨fun h => hc h.1, ih⟩

theorem IsWhole.escapeClosings (h : IsWhole escaped t) : IsWhole escaped (escapeClosings t) := by
  induction t using Block.escapeClosings.induct generalizing escaped with
  | case1 => rfl
  | case2 t ih =>
    obtain ⟨-, h⟩ := isWhole_cons.mp h
    obtain ⟨-, h⟩ := isWhole_cons.mp h
    rw [Block.escapeClosings]
    exact isWhole_cons.mpr ⟨by simp, isWhole_cons.mpr ⟨by simp, isWhole_cons.mpr ⟨by simp, ih h⟩⟩⟩
  | case3 c t hnot ih =>
    obtain ⟨hc, h⟩ := isWhole_cons.mp h
    rw [Block.escapeClosings.eq_3 _ _ hnot]
    exact isWhole_cons.mpr ⟨hc, ih h⟩

/-- **No cell ends in an escaped text.** -/
theorem isWhole_escapeCell (style : Style) (t : Text) : IsWhole escaped (escapeCell style t) := by
  cases style with
  | hash => exact isWhole_escapeBars t
  | jsdoc => exact (isWhole_escapeBars t).escapeClosings

/-- A bar after a space ends a cell. -/
theorem splitCellsFrom_append_bar (rest : Text) (hs : IsWhole escaped s)
    (hlast : s.getLast? = some ' ') :
    splitCellsFrom escaped (s ++ '|' :: rest) = s :: splitCellsFrom false rest := by
  induction s generalizing escaped with
  | nil => exact absurd hlast (by simp)
  | cons c s ih =>
    obtain ⟨hc, hs⟩ := isWhole_cons.mp hs
    rw [List.cons_append, splitCellsFrom, if_neg hc]
    cases s with
    | nil =>
      -- the space before the bar is no backslash
      obtain rfl : c = ' ' := by simpa using hlast
      rfl
    | cons d s =>
      rw [ih hs (by simpa using hlast)]
      rfl

/-- **The cells of a row** whose outer bars are taken off are its cells, each between spaces. -/
theorem splitCells_framed {cells : List Text} (hne : cells ≠ [])
    (hcells : ∀ cell ∈ cells, IsWhole false cell) :
    splitCells (' ' :: Text.join " | " cells ++ [' ']) =
      cells.map fun cell => ' ' :: cell ++ [' '] := by
  have hframe : ∀ cell ∈ cells, IsWhole false (' ' :: cell ++ [' ']) := fun cell hcell =>
    isWhole_cons.mpr ⟨by simp, (hcells cell hcell).append (by simp)⟩
  unfold splitCells
  induction cells with
  | nil => exact absurd rfl hne
  | cons cell cells ih =>
    cases cells with
    | nil =>
      rw [Text.join_singleton]
      exact hframe cell (by simp)
    | cons next cells =>
      -- each bar between two cells has a space on either side
      have hsplit : ' ' :: Text.join " | " (cell :: next :: cells) ++ [' '] =
          (' ' :: cell ++ [' ']) ++ '|' :: (' ' :: Text.join " | " (next :: cells) ++ [' ']) := by
        rw [Text.join_cons_of_ne_nil _ _ (by simp)]
        simp
      rw [hsplit, splitCellsFrom_append_bar _ (hframe cell (by simp)) List.getLast?_concat,
        ih (by simp) (fun c hc => hcells c (List.mem_cons_of_mem _ hc))
          (fun c hc => hframe c (List.mem_cons_of_mem _ hc))]
      rfl

end Block

end SectionIndex
