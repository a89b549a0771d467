import SectionIndex.Proofs.Block.Finder
import Mathlib.Data.List.Infix

/-!
# The lines of a written block

What stands in the lines of a block that is written: letters, digits and a few signs, and the
names and descriptions of the sections. So every line can stand in a block, whatever the sections
are called, as long as no line feed is in their names and descriptions, and what is written is
found as a block.

## Main definitions

* `Block.isBlockChar` — the characters of the frame of a block.
* `Block.tailLines` — the lines of a block after the marker.
* `Block.IsStamp` — the stamp of a clock.
* `Block.rowLine` — the line of a section.
* `Block.IsForeign` — a word that no line of the frame has in it.

## Main statements

* `Block.mem_tailLines` — the lines of a block.
* `Block.IsForeign.exists_of_isInfix` — a foreign word in a line of a block stands in its row.
* `Block.isBodyLine_of_mem` — every line can stand in a block.
* `Block.locate?_render` — a block that was written is found.
-/

namespace SectionIndex

namespace Block

open Text (IsLineEnd EndsLine)

variable {style : Style} {newline stamp : Text} {sections : List Section} {totalLines : Int}

/-! ### The frame of a block -/

/-- **The characters that a block is made of**, its names and descriptions apart. -/
def isBlockChar (c : Char) : Bool :=
  c.isDigit || [' ', '|', '-', '@', ':', '.', 'T', 'Z'].contains c ||
    (generatedLabel ++ totalLinesLabel ++ nameHeading ++ "LineEndSize" ++
      descriptionHeading).contains c

theorem isBlockChar_of_mem_ofInt {n : Int} {c : Char} (h : c ∈ Text.ofInt n) :
    isBlockChar c = true := by
  rcases mem_ofInt h with rfl | h
  · rfl
  · rw [isBlockChar, h, Bool.true_or, Bool.true_or]

theorem isBlockChar_of_mem_replicate {n : Nat} {c d : Char} (hd : isBlockChar d = true)
    (h : c ∈ List.replicate n d) : isBlockChar c = true := by
  rw [List.eq_of_mem_replicate h, hd]

theorem isBlockChar_of_mem_padRight {n : Nat} {t : Text} (ht : ∀ c ∈ t, isBlockChar c = true) :
    ∀ c ∈ Text.padRight n t, isBlockChar c = true := fun c hc =>
  (List.mem_append.mp hc).elim (ht c) (isBlockChar_of_mem_replicate rfl)

theorem isBlockChar_of_mem_padLeft_ofInt {n : Nat} {m : Int} :
    ∀ c ∈ Text.padLeft n (Text.ofInt m), isBlockChar c = true := fun _ hc =>
  (List.mem_append.mp hc).elim (isBlockChar_of_mem_replicate rfl) isBlockChar_of_mem_ofInt

/-! ### Time stamps -/

/-- **The stamp of a clock.** -/
def IsStamp (stamp : Text) : Prop :=
  ∃ m : Moment, stamp = m.stamp

theorem isStamp_of_blockStamp {now : Moment} (h : now.blockStamp = some stamp) : IsStamp stamp := by
  obtain ⟨m, -, rfl⟩ := Option.map_eq_some_iff.mp h
  exact ⟨m, rfl⟩

theorem mem_ofNatPadded {width n : Nat} {c : Char} (h : c ∈ Text.ofNatPadded width n) :
    c.isDigit = true := by
  rcases List.mem_append.mp h with h | h
  · rw [List.eq_of_mem_replicate h]
    rfl
  · exact isDigit_of_mem_ofNat h

/-- The characters of a stamp are digits, and signs and letters that separate them. -/
theorem IsStamp.mem (h : IsStamp stamp) {c : Char} (hc : c ∈ stamp) :
    c.isDigit = true ∨ c ∈ ['-', 'T', ':', '.', 'Z'] := by
  obtain ⟨m, rfl⟩ := h
  simp only [Moment.stamp, Moment.toSeconds, List.mem_append, List.mem_cons, List.cons_append,
    List.append_assoc, List.not_mem_nil, or_false] at hc ⊢
  -- seven numbers, with a sign before or after each of them
  rcases hc with hc | hc | hc | hc | hc | hc | hc | hc | hc | hc | hc | hc | hc | hc
  all_goals first
    | exact Or.inl (mem_ofNatPadded hc)
    | simp [hc]

theorem IsStamp.isBlockChar_eq (h : IsStamp stamp) : ∀ c ∈ stamp, isBlockChar c = true := by
  intro c hc
  rcases h.mem hc with hc | hc
  · rw [isBlockChar, hc, Bool.true_or, Bool.true_or]
  · have hsigns : ∀ c ∈ ['-', 'T', ':', '.', 'Z'], isBlockChar c = true := by decide
    exact hsigns c hc

theorem IsStamp.isBlank_eq (h : IsStamp stamp) : ∀ c ∈ stamp, isBlank c = false := by
  intro c hc
  rcases h.mem hc with hc | hc
  · exact isBlank_of_isDigit hc
  · have hsigns : ∀ c ∈ ['-', 'T', ':', '.', 'Z'], isBlank c = false := by decide
    exact hsigns c hc

theorem IsStamp.ne_nil (h : IsStamp stamp) : stamp ≠ [] := by
  obtain ⟨m, rfl⟩ := h
  simp [Moment.stamp]

/-! ### The lines of a block -/

/-- A cell of the table of these sections: one of the frame, or a name or a description. -/
def IsCellOf (style : Style) (sections : List Section) (cell : Text) : Prop :=
  (∀ c ∈ cell, isBlockChar c = true) ∨
    ∃ s ∈ sections, ∃ n t, (t = s.name ∨ t = s.description) ∧
      cell = Text.padRight n (escapeCell style t)

/-- The line of a section in the table of these sections. -/
def rowLine (style : Style) (sections : List Section) (s : Section) : Text :=
  sectionLine style (columnWidth (sections.map fun s => escapeCell style s.name))
    (columnWidth (sections.map fun s => escapeCell style s.description)) s

/-- **A line of a table** is one of its frame or the row of one of its sections. -/
theorem mem_tableRows {line : Text} (h : line ∈ tableRows style sections) :
    ∃ cells, line = tableLine cells ∧ ((∀ cell ∈ cells, IsCellOf style [] cell) ∨
      ∃ s ∈ sections, line = rowLine style sections s ∧
        ∀ cell ∈ cells, IsCellOf style [s] cell) := by
  simp only [tableRows, List.mem_cons, List.mem_map] at h
  rcases h with rfl | rfl | ⟨s, hs, rfl⟩
  -- the heading
  · refine ⟨_, rfl, Or.inl ?_⟩
    simp only [List.forall_mem_cons]
    exact ⟨.inl (isBlockChar_of_mem_padRight (by decide)), .inl (by decide), .inl (by decide),
      .inl (by decide), .inl (isBlockChar_of_mem_padRight (by decide)), List.forall_mem_nil _⟩
  · refine ⟨_, rfl, Or.inl ?_⟩
    simp only [List.forall_mem_cons]
    -- the dashes below it
    have hdashes : ∀ n, IsCellOf style [] (List.replicate n '-') :=
      fun n => .inl fun _ => isBlockChar_of_mem_replicate rfl
    exact ⟨hdashes _, hdashes _, hdashes _, hdashes _, hdashes _, List.forall_mem_nil _⟩
  · refine ⟨_, rfl, Or.inr ⟨s, hs, rfl, ?_⟩⟩
    simp only [List.forall_mem_cons]
    have hself : s ∈ [s] := List.mem_singleton_self s
    -- the name and the description of a section, with three numbers between them
    exact ⟨.inr ⟨s, hself, _, _, .inl rfl, rfl⟩, .inl isBlockChar_of_mem_padLeft_ofInt,
      .inl isBlockChar_of_mem_padLeft_ofInt, .inl isBlockChar_of_mem_padLeft_ofInt,
      .inr ⟨s, hself, _, _, .inr rfl, rfl⟩, List.forall_mem_nil _⟩

/-- The lines of a block after the marker. -/
def tailLines (style : Style) (sections : List Section) (totalLines : Int) (stamp : Text) :
    List Text :=
  (generatedLabel ++ ' ' :: stamp) :: (totalLinesLabel ++ ' ' :: Text.ofInt totalLines) :: [] ::
    tableRows style sections

theorem render_eq_ofLines (style : Style) (sections : List Section) (totalLines : Int)
    (stamp newline : Text) :
    render sections totalLines style stamp newline =
      ofLines style newline (tailLines style sections totalLines stamp) := rfl

/-- **A line of a block** is a line of a table, or it has only characters of the frame. -/
theorem mem_tailLines {line : Text} (hstamp : IsStamp stamp)
    (h : line ∈ tailLines style sections totalLines stamp) :
    (∀ c ∈ line, isBlockChar c = true) ∨ line ∈ tableRows style sections := by
  have hlabelled : ∀ label value : Text, (∀ c ∈ label, isBlockChar c = true) →
      (∀ c ∈ value, isBlockChar c = true) → ∀ c ∈ label ++ ' ' :: value, isBlockChar c = true := by
    intro label value hlabel hvalue
    exact List.forall_mem_append.mpr ⟨hlabel, List.forall_mem_cons.mpr ⟨rfl, hvalue⟩⟩
  simp only [tailLines, List.mem_cons] at h
  rcases h with rfl | rfl | rfl | h
  · exact Or.inl (hlabelled _ _ (by decide) hstamp.isBlockChar_eq)
  · exact Or.inl (hlabelled _ _ (by decide) fun _ => isBlockChar_of_mem_ofInt)
  · exact Or.inl (List.forall_mem_nil _)
  · exact Or.inr h

/-! ### Words in the lines of a block -/

/-- **A word that is foreign to the frame of a table:** not all of its characters can stand in the
frame, and none of them stands between two cells. -/
structure IsForeign (word : Text) : Prop where
  not_forall : ¬ ∀ c ∈ word, isBlockChar c = true
  not_mem : ∀ c ∈ word, c ∉ (" | " : Text)

instance (word : Text) : Decidable (IsForeign word) :=
  decidable_of_iff ((¬ ∀ c ∈ word, isBlockChar c = true) ∧ ∀ c ∈ word, c ∉ (" | " : Text))
    ⟨fun h => ⟨h.1, h.2⟩, fun h => ⟨h.not_forall, h.not_mem⟩⟩

theorem isForeign_singleton {c : Char} (h : isBlockChar c = false) : IsForeign [c] where
  not_forall := fun hall => by
    rw [hall c List.mem_cons_self] at h
    exact absurd h (by decide)
  not_mem := by
    have hbetween : ∀ d ∈ (" | " : Text), isBlockChar d = true := by decide
    intro d hd hmem
    obtain rfl := List.mem_singleton.mp hd
    rw [hbetween d hmem] at h
    exact absurd h (by decide)

variable {word : Text}

theorem IsForeign.ne_nil (h : IsForeign word) : word ≠ [] := by
  rintro rfl
  exact h.not_forall (List.forall_mem_nil _)

theorem IsForeign.not_isInfix {t : Text} (h : IsForeign word)
    (ht : ∀ c ∈ t, isBlockChar c = true) : ¬ word <:+: t :=
  fun hstands => h.not_forall fun c hc => ht c (hstands.subset hc)

/-- A foreign word in a line of a table stands in an escaped text, as it stands in one cell. -/
theorem IsForeign.exists_of_infix_tableLine {cells : List Text} (h : IsForeign word)
    (hcells : ∀ cell ∈ cells, IsCellOf style sections cell) (hstands : word <:+: tableLine cells) :
    ∃ s ∈ sections,
      word <:+: escapeCell style s.name ∨ word <:+: escapeCell style s.description := by
  -- the bars and spaces between cells have no part in it
  have hnot : ∀ {t : Text}, t ⊆ (" | " : Text) → ∀ c ∈ word, c ∉ t :=
    fun ht c hc hmem => h.not_mem c hc (ht hmem)
  -- the bars and spaces between the cells have no part in the word, so it stands in one of them
  obtain ⟨cell, hcell, hstands⟩ : ∃ cell ∈ cells, word <:+: cell := by
    rw [tableLine, List.append_assoc] at hstands
    have hstands := Text.infix_of_append_right h.ne_nil (hnot (by decide)) hstands
    have hstands := Text.infix_of_append_left h.ne_nil (hnot (by decide)) hstands
    exact Text.exists_infix_of_join (by decide) h.ne_nil h.not_mem hstands
  rcases hcells cell hcell with hcell | ⟨s, hs, n, t, ht, rfl⟩
  · exact absurd hstands (h.not_isInfix hcell)
  · -- the padding of the cell is made of spaces
    have hspaces : List.replicate (n - (escapeCell style t).length) ' ' ⊆ (" | " : Text) := by
      intro c hc
      rw [List.eq_of_mem_replicate hc]
      decide
    have hstands := Text.infix_of_append_left h.ne_nil (hnot hspaces) hstands
    refine ⟨s, hs, ?_⟩
    rcases ht with rfl | rfl
    · exact Or.inl hstands
    · exact Or.inr hstands

/-- **A foreign word in a line of a block** stands in the name or the description of a section, and
the line is the row of that section. -/
theorem IsForeign.exists_of_isInfix {line : Text} (h : IsForeign word) (hstamp : IsStamp stamp)
    (hline : line ∈ tailLines style sections totalLines stamp) (hstands : word <:+: line) :
    ∃ s ∈ sections, line = rowLine style sections s ∧
      (word <:+: escapeCell style s.name ∨ word <:+: escapeCell style s.description) := by
  rcases mem_tailLines hstamp hline with hframe | hrow
  · exact absurd hstands (h.not_isInfix hframe)
  · obtain ⟨cells, rfl, hcells | ⟨s, hs, hrow, hcells⟩⟩ := mem_tableRows hrow
    · obtain ⟨s, hs, -⟩ := h.exists_of_infix_tableLine hcells hstands
      exact absurd hs List.not_mem_nil
    · obtain ⟨s', hs', hstands⟩ := h.exists_of_infix_tableLine hcells hstands
      obtain rfl := List.mem_singleton.mp hs'
      exact ⟨s', hs, hrow, hstands⟩

/-- **The characters of a block:** those of its frame, those of its names and descriptions, and the
backslashes of its escapes. -/
theorem mem_of_mem_tailLines {line : Text} {c : Char} (hstamp : IsStamp stamp)
    (h : line ∈ tailLines style sections totalLines stamp) (hc : c ∈ line) :
    isBlockChar c = true ∨ c = '\\' ∨ ∃ s ∈ sections, c ∈ s.name ∨ c ∈ s.description := by
  cases hchar : isBlockChar c with
  | true => exact Or.inl rfl
  | false =>
    have hstands : [c] <:+: line := (List.singleton_infix_iff c line).mpr hc
    obtain ⟨s, hs, -, htext⟩ := (isForeign_singleton hchar).exists_of_isInfix hstamp h hstands
    simp only [List.singleton_infix_iff] at htext
    rcases htext with hname | hdescription
    · rcases mem_escapeCell hname with hname | rfl
      · exact Or.inr (Or.inr ⟨s, hs, Or.inl hname⟩)
      · exact Or.inr (Or.inl rfl)
    · rcases mem_escapeCell hdescription with hdescription | rfl
      · exact Or.inr (Or.inr ⟨s, hs, Or.inr hdescription⟩)
      · exact Or.inr (Or.inl rfl)

theorem strip_labelled {label value : Text} (hlabel : ∀ c ∈ label.head?, isBlank c = false)
    (hne : label ≠ []) (hvalue : ∀ c ∈ value, isBlank c = false) (hvalue' : value ≠ []) :
    Text.strip (label ++ ' ' :: value) = label ++ ' ' :: value := by
  refine Text.trim_of_ends (fun c hc => ?_) (fun c hc => ?_)
  · obtain ⟨d, rest, rfl⟩ := List.exists_cons_of_ne_nil hne
    exact hlabel c hc
  -- the last character is the last of the value
  · rw [List.getLast?_append, List.getLast?_cons] at hc
    obtain ⟨d, hd⟩ := Option.ne_none_iff_exists'.mp (mt List.getLast?_eq_none_iff.mp hvalue')
    rw [hd] at hc
    obtain rfl : d = c := by simpa using hc
    exact hvalue d (List.mem_of_getLast? hd)

theorem strip_of_mem_tailLines {line : Text} (hstamp : IsStamp stamp)
    (h : line ∈ tailLines style sections totalLines stamp) : line.strip = line := by
  have hsign : ∀ label : Text, label.head? = some '@' → ∀ c ∈ label.head?, isBlank c = false := by
    intro label hhead c hc
    rw [hhead] at hc
    cases hc
    rfl
  simp only [tailLines, List.mem_cons] at h
  rcases h with rfl | rfl | rfl | h
  · exact strip_labelled (hsign _ rfl) (by decide) hstamp.isBlank_eq hstamp.ne_nil
  · refine strip_labelled (hsign _ rfl) (by decide) (fun c hc => ?_) (ofInt_ne_nil _)
    rcases mem_ofInt hc with rfl | hc
    · rfl
    · exact isBlank_of_isDigit hc
  · rfl
  · obtain ⟨cells, rfl, -⟩ := mem_tableRows h
    exact strip_tableLine cells

theorem endMarker_not_prefix_of_mem_tailLines {line : Text}
    (h : line ∈ tailLines style sections totalLines stamp) : ¬ endMarker <+: line := by
  -- the labels differ from the mark in their second character
  have hlabelled : ∀ (c : Char) (t : Text), c ≠ 'e' → ¬ endMarker <+: '@' :: c :: t := by
    intro c t hc hp
    exact hc (List.cons_prefix_cons.mp (List.cons_prefix_cons.mp hp).2).1.symm
  simp only [tailLines, List.mem_cons] at h
  rcases h with rfl | rfl | rfl | h
  · exact hlabelled 'g' _ (by decide)
  · exact hlabelled 't' _ (by decide)
  · decide
  · obtain ⟨cells, rfl, -⟩ := mem_tableRows h
    exact fun hp => absurd (List.cons_prefix_cons.mp hp).1 (by decide)

/-- No line of a written documentation comment closes it. -/
theorem closing_not_infix_of_mem_tailLines {line : Text} (hstamp : IsStamp stamp)
    (h : line ∈ tailLines .jsdoc sections totalLines stamp) : ¬ closing <:+: line := by
  intro hclosing
  have hforeign : IsForeign closing := by decide +kernel
  obtain ⟨s, -, -, h⟩ := hforeign.exists_of_isInfix hstamp h hclosing
  exact h.elim (closing_not_infix_escapeCell _) (closing_not_infix_escapeCell _)

/-- **Every line of a written block can stand in a block.** -/
theorem isBodyLine_of_mem (hstamp : IsStamp stamp)
    (hsections : ∀ s ∈ sections, '\n' ∉ s.name ∧ '\n' ∉ s.description) :
    ∀ line ∈ tailLines style sections totalLines stamp, IsBodyLine style line := by
  intro line hline
  refine
    { strip_eq := strip_of_mem_tailLines hstamp hline
      lineFeed_not_mem := fun hmem => ?_
      not_closing := ?_
      endMarker_not_prefix := endMarker_not_prefix_of_mem_tailLines hline }
  · rcases mem_of_mem_tailLines hstamp hline hmem with h | h | ⟨s, hs, h⟩
    · exact absurd h (by decide)
    · exact absurd h (by decide)
    · exact h.elim (hsections s hs).1 (hsections s hs).2
  · rintro rfl
    exact closing_not_infix_of_mem_tailLines hstamp hline

/-- **A block that was written is found**, at the top of the file or after the line of an
interpreter. -/
theorem locate?_render (style : Style) (totalLines : Int) {head post : Text} (hhead : IsHead head)
    (h : newline.IsLineEnd) (hstamp : IsStamp stamp)
    (hsections : ∀ s ∈ sections, '\n' ∉ s.name ∧ '\n' ∉ s.description)
    (hpost : style = .hash → EndsLine post) :
    locate? (head ++ render sections totalLines style stamp newline ++ post) =
      some (head.length, style, render sections totalLines style stamp newline) := by
  rw [render_eq_ofLines]
  exact locate?_append hhead h (isBodyLine_of_mem hstamp hsections) hpost

end Block

end SectionIndex
