import SectionIndex.Text.Lines

/-!
# Lines of joined texts

What becomes of the lines of a text that is put together from lines. A text is *unbroken* if no
character in it ends a line of a document.

## Main definitions

* `Text.IsUnbroken`, `Text.IsLineEnd`.
* `Text.EndsLine` — what stands after a whole line.

## Main statements

* `Text.exists_infix_of_join` — a word in joined texts stands in one of them.
* `Text.splitOn_append_newline` — the pieces between line feeds.
* `Text.breakLines_join` — the lines of joined lines are these lines.
* `Text.isUnbroken_of_mem_breakLines` — no line of a document has a line end in it.
-/

namespace SectionIndex

namespace Text

/-- **The text stays in one line** of a document. -/
def IsUnbroken (t : Text) : Prop :=
  ∀ c ∈ t, isLineBreak c = false

/-- **The two line ends** that files are written with. -/
def IsLineEnd (newline : Text) : Prop :=
  newline = ['\n'] ∨ newline = ['\r', '\n']

instance (t : Text) : Decidable t.IsUnbroken :=
  inferInstanceAs (Decidable (∀ c ∈ t, isLineBreak c = false))

instance (newline : Text) : Decidable newline.IsLineEnd :=
  inferInstanceAs (Decidable (_ ∨ _))

variable {newline : Text}

@[simp] theorem isUnbroken_nil : IsUnbroken [] := List.forall_mem_nil _

@[simp] theorem isUnbroken_cons {c : Char} {t : Text} :
    IsUnbroken (c :: t) ↔ isLineBreak c = false ∧ t.IsUnbroken :=
  List.forall_mem_cons

@[simp] theorem isUnbroken_append {s t : Text} :
    IsUnbroken (s ++ t) ↔ s.IsUnbroken ∧ t.IsUnbroken :=
  List.forall_mem_append

@[simp] theorem isUnbroken_reverse {t : Text} : IsUnbroken t.reverse ↔ t.IsUnbroken := by
  simp [IsUnbroken]

theorem IsUnbroken.subset {s t : Text} (ht : t.IsUnbroken) (h : s ⊆ t) : s.IsUnbroken :=
  fun c hc => ht c (h hc)

theorem IsUnbroken.not_mem {t : Text} {c : Char} (ht : t.IsUnbroken) (hc : isLineBreak c = true) :
    c ∉ t := by
  intro hmem
  rw [ht c hmem] at hc
  exact absurd hc (by decide)

theorem IsUnbroken.lineFeed_not_mem {t : Text} (ht : t.IsUnbroken) : '\n' ∉ t :=
  ht.not_mem rfl

@[simp] theorem isUnbroken_replicate {n : Nat} {c : Char} (hc : isLineBreak c = false) :
    IsUnbroken (List.replicate n c) := by
  intro d hd
  rw [List.eq_of_mem_replicate hd, hc]

theorem detectNewline_isLineEnd (content : Text) : (detectNewline content).IsLineEnd := by
  unfold detectNewline
  split
  · exact Or.inr rfl
  · exact Or.inl rfl

theorem IsLineEnd.ne_nil (h : newline.IsLineEnd) : newline ≠ [] := by
  rcases h with rfl | rfl <;> simp

/-! ### Joining -/

/-- A line in front of a line feed is all that stands before the first one. -/
theorem takeWhile_append_lineFeed {line : Text} (h : '\n' ∉ line) (rest : Text) :
    (line ++ '\n' :: rest).takeWhile (· != '\n') = line := by
  have hline : ∀ c ∈ line, (c != '\n') = true :=
    fun c hc => bne_iff_ne.mpr fun heq => h (heq ▸ hc)
  rw [List.takeWhile_append_of_pos hline, List.takeWhile_cons_of_neg (by decide), List.append_nil]

@[simp] theorem join_nil (separator : Text) : join separator [] = [] := rfl

@[simp] theorem join_singleton (separator t : Text) : join separator [t] = t :=
  List.intercalate_singleton

theorem join_cons_of_ne_nil (separator t : Text) {rest : List Text} (h : rest ≠ []) :
    join separator (t :: rest) = t ++ separator ++ join separator rest :=
  List.intercalate_cons_of_ne_nil h

theorem join_append (separator : Text) {parts rest : List Text} (hparts : parts ≠ [])
    (hrest : rest ≠ []) :
    join separator (parts ++ rest) = join separator parts ++ separator ++ join separator rest := by
  induction parts with
  | nil => exact absurd rfl hparts
  | cons t parts ih =>
    cases parts with
    -- the separator between the two lists is the first one that is written
    | nil => rw [join_singleton, List.singleton_append, join_cons_of_ne_nil _ _ hrest]
    | cons u parts =>
      rw [List.cons_append, join_cons_of_ne_nil separator t (by simp), ih (by simp),
        join_cons_of_ne_nil separator t (List.cons_ne_nil u parts)]
      simp only [List.append_assoc]

/-- What is put after the last of joined texts is put after them all. -/
theorem join_concat_append (separator t u : Text) (parts : List Text) :
    join separator (parts ++ [t ++ u]) = join separator (parts ++ [t]) ++ u := by
  by_cases hparts : parts = []
  · subst hparts
    rw [List.nil_append, List.nil_append, join_singleton, join_singleton]
  · rw [join_append _ hparts (by simp), join_append _ hparts (by simp), join_singleton,
      join_singleton]
    simp only [List.append_assoc]

/-- Every character of joined texts is one of a part or of the separator. -/
theorem mem_join {separator : Text} {parts : List Text} {c : Char} (h : c ∈ join separator parts) :
    c ∈ separator ∨ ∃ t ∈ parts, c ∈ t := by
  induction parts with
  | nil => exact absurd h (by simp)
  | cons t parts ih =>
    by_cases hparts : parts = []
    · subst hparts
      rw [join_singleton] at h
      exact Or.inr ⟨t, by simp, h⟩
    · rw [join_cons_of_ne_nil _ _ hparts, List.append_assoc, List.mem_append,
        List.mem_append] at h
      rcases h with h | h | h
      · exact Or.inr ⟨t, by simp, h⟩
      · exact Or.inl h
      · refine (ih h).imp id ?_
        rintro ⟨u, hu, hc⟩
        exact ⟨u, List.mem_cons_of_mem _ hu, hc⟩

/-- Each part stands in the joined texts. -/
theorem infix_join_of_mem {separator t : Text} {parts : List Text} (h : t ∈ parts) :
    t <:+: join separator parts := by
  induction parts with
  | nil => exact absurd h List.not_mem_nil
  | cons u parts ih =>
    by_cases hparts : parts = []
    · rw [hparts, List.mem_singleton] at h
      rw [h, hparts]
      exact ⟨[], [], by simp⟩
    · rw [join_cons_of_ne_nil _ _ hparts]
      rcases List.mem_cons.mp h with rfl | h
      · rw [List.append_assoc]
        exact (List.prefix_append t _).isInfix
      · exact (ih h).trans (List.suffix_append _ _).isInfix

/-! ### Words in joined texts -/

section Word

variable {word s t u : Text}

theorem not_isInfix_of_not_mem {c : Char} (hc : c ∈ word) (h : c ∉ t) : ¬ word <:+: t :=
  fun hstands => h (hstands.subset hc)

theorem infix_of_append_right (hne : word ≠ []) (hu : ∀ c ∈ word, c ∉ u) (h : word <:+: u ++ t) :
    word <:+: t := by
  induction u with
  | nil => exact h
  | cons d u ih =>
    rcases List.infix_cons_iff.mp h with h | h
    -- the word does not start at a character that is none of its own
    · obtain ⟨c, rest, rfl⟩ := List.exists_cons_of_ne_nil hne
      obtain ⟨rfl, -⟩ := List.cons_prefix_cons.mp h
      exact absurd List.mem_cons_self (hu c List.mem_cons_self)
    · exact ih (fun c hc hmem => hu c hc (List.mem_cons_of_mem _ hmem)) h

theorem prefix_of_append (hne : u ≠ []) (hu : ∀ c ∈ word, c ∉ u) (h : word <+: s ++ u ++ t) :
    word <+: s := by
  induction s generalizing word with
  | nil =>
    cases word with
    | nil => exact List.nil_prefix
    | cons c word =>
      -- its first character would be the first one of the text between
      obtain ⟨d, u, rfl⟩ := List.exists_cons_of_ne_nil hne
      obtain ⟨rfl, -⟩ := List.cons_prefix_cons.mp h
      exact absurd List.mem_cons_self (hu c List.mem_cons_self)
  | cons d s ih =>
    cases word with
    | nil => exact List.nil_prefix
    | cons c word =>
      obtain ⟨rfl, hrest⟩ := List.cons_prefix_cons.mp h
      have hu' : ∀ e ∈ word, e ∉ u := fun e he => hu e (List.mem_cons_of_mem _ he)
      exact List.cons_prefix_cons.mpr ⟨rfl, ih hu' hrest⟩

/-- **A word does not reach over a text** in which none of its characters stands. -/
theorem infix_or_of_append (hne : u ≠ []) (hword : word ≠ []) (hu : ∀ c ∈ word, c ∉ u)
    (h : word <:+: s ++ u ++ t) : word <:+: s ∨ word <:+: t := by
  induction s with
  | nil => exact Or.inr (infix_of_append_right hword hu h)
  | cons c s ih =>
    rcases List.infix_cons_iff.mp h with h | h
    -- the word starts here, or it stands in what follows
    · exact Or.inl (prefix_of_append (s := c :: s) hne hu h).isInfix
    · exact (ih h).imp (fun h => h.trans (List.suffix_cons _ _).isInfix) id

theorem infix_of_append_left (hword : word ≠ []) (hu : ∀ c ∈ word, c ∉ u) (h : word <:+: s ++ u) :
    word <:+: s := by
  by_cases hne : u = []
  · rwa [hne, List.append_nil] at h
  · rw [← List.append_nil (s ++ u)] at h
    refine (infix_or_of_append hne hword hu h).resolve_right fun hnil => ?_
    exact hword (List.infix_nil.mp hnil)

/-- **A word in joined texts stands in one of them**, if none of its characters stands in the
separator. -/
theorem exists_infix_of_join {separator : Text} {parts : List Text} (hne : separator ≠ [])
    (hword : word ≠ []) (hseparator : ∀ c ∈ word, c ∉ separator)
    (h : word <:+: join separator parts) : ∃ t ∈ parts, word <:+: t := by
  induction parts with
  | nil => exact absurd (List.infix_nil.mp h) hword
  | cons t parts ih =>
    by_cases hparts : parts = []
    · subst hparts
      rw [join_singleton] at h
      exact ⟨t, List.mem_cons_self, h⟩
    · rw [join_cons_of_ne_nil _ _ hparts] at h
      -- the separator keeps the word from reaching over it
      rcases infix_or_of_append hne hword hseparator h with h | h
      · exact ⟨t, List.mem_cons_self, h⟩
      · obtain ⟨u, hu, h⟩ := ih h
        exact ⟨u, List.mem_cons_of_mem _ hu, h⟩

end Word

/-! ### Pieces between line feeds -/

/-- **A piece between separators** has no separator in it, and only characters of the text. -/
theorem of_mem_splitOn {a : Char} {t piece : Text} (h : piece ∈ t.splitOn a) :
    a ∉ piece ∧ piece ⊆ t := by
  induction t generalizing piece with
  | nil =>
    obtain rfl : piece = [] := by simpa using h
    exact ⟨by simp, List.nil_subset _⟩
  | cons c t ih =>
    rw [List.splitOn_cons_eq_if_modifyHead] at h
    split at h
    -- a separator starts a new piece, any other character goes into the first one
    · rcases List.mem_cons.mp h with rfl | h
      · exact ⟨by simp, List.nil_subset _⟩
      · exact ⟨(ih h).1, fun d hd => List.mem_cons_of_mem _ ((ih h).2 hd)⟩
    · next hc =>
      obtain ⟨first, rest, hsplit⟩ := List.exists_cons_of_ne_nil (List.splitOn_ne_nil a t)
      rw [hsplit, List.modifyHead_cons] at h
      rcases List.mem_cons.mp h with rfl | h
      · obtain ⟨ha, hfirst⟩ := ih (hsplit ▸ List.mem_cons_self)
        refine ⟨fun hmem => ?_, List.cons_subset_cons c hfirst⟩
        rcases List.mem_cons.mp hmem with rfl | hmem
        · exact hc (beq_self_eq_true _)
        · exact ha hmem
      · obtain ⟨ha, hpiece⟩ := ih (hsplit ▸ List.mem_cons_of_mem _ h)
        exact ⟨ha, fun d hd => List.mem_cons_of_mem _ (hpiece hd)⟩

/-- **What may stand after a whole line:** nothing, or a line end and whatever follows. -/
def EndsLine (post : Text) : Prop :=
  post = [] ∨ ∃ newline rest, IsLineEnd newline ∧ post = newline ++ rest

theorem IsLineEnd.endsLine_append (h : newline.IsLineEnd) (rest : Text) :
    EndsLine (newline ++ rest) :=
  Or.inr ⟨newline, rest, h, rfl⟩

/-- A line end is a line feed with or without a carriage return before it. -/
theorem IsLineEnd.dropLast_append (h : newline.IsLineEnd) :
    newline.dropLast ++ ['\n'] = newline := by
  rcases h with rfl | rfl <;> rfl

theorem IsLineEnd.lineFeed_not_mem_dropLast (h : newline.IsLineEnd) : '\n' ∉ newline.dropLast := by
  rcases h with rfl | rfl <;> decide

/-- A line with the carriage return of its end has no line feed in it. -/
theorem IsLineEnd.lineFeed_not_mem_append (h : newline.IsLineEnd) {line : Text}
    (hline : '\n' ∉ line) : '\n' ∉ line ++ newline.dropLast := by
  rw [List.mem_append, not_or]
  exact ⟨hline, h.lineFeed_not_mem_dropLast⟩

/-- Only the line feed of a line end is a separator. -/
theorem IsLineEnd.append_append (h : newline.IsLineEnd) (line rest : Text) :
    line ++ newline ++ rest = (line ++ newline.dropLast) ++ '\n' :: rest := by
  conv => lhs; rw [← h.dropLast_append]
  simp only [List.append_assoc, List.singleton_append]

/-- **A line end ends a piece.** The piece keeps the carriage return. -/
theorem splitOn_append_newline {t : Text} (rest : Text) (ht : '\n' ∉ t) (h : newline.IsLineEnd) :
    (t ++ newline ++ rest).splitOn '\n' = (t ++ newline.dropLast) :: rest.splitOn '\n' := by
  rw [h.append_append,
    List.splitOn_append_cons_self_of_not_mem (h.lineFeed_not_mem_append ht)]

theorem dropReturn_subset (line : Text) : dropReturn line ⊆ line := by
  unfold dropReturn
  split
  · exact (List.dropLast_prefix line).subset
  · exact List.Subset.refl line

/-- **No numbered line of a file has a line feed in it.** -/
theorem lineFeed_not_mem_of_mem_splitLines {content line : Text} (h : line ∈ splitLines content) :
    '\n' ∉ line := by
  obtain ⟨piece, hpiece, rfl⟩ : ∃ piece ∈ content.splitOn '\n', dropReturn piece = line := by
    unfold splitLines at h
    simp only at h
    split at h
    · exact List.mem_map.mp ((List.dropLast_prefix _).subset h)
    · exact List.mem_map.mp h
  exact fun hmem => (of_mem_splitOn hpiece).1 (dropReturn_subset piece hmem)

/-! ### The lines of a document -/

/-- Characters that end no line are taken into the line that is read. -/
theorem breakLinesFrom_append {t : Text} (line rest : Text) (ht : t.IsUnbroken) :
    breakLinesFrom line (t ++ rest) = breakLinesFrom (t.reverse ++ line) rest := by
  induction t generalizing line with
  | nil => rfl
  | cons c t ih =>
    obtain ⟨hc, ht⟩ := isUnbroken_cons.mp ht
    -- no carriage return is passed over here, since it would end a line
    have hreturn : c ≠ '\r' := by
      rintro rfl
      exact absurd hc (by decide)
    rw [List.cons_append, breakLinesFrom, if_neg (fun h => hreturn h.1), if_neg (by simp [hc]),
      ih _ ht, List.reverse_cons, List.append_assoc, List.singleton_append]

theorem breakLinesFrom_newline (line rest : Text) (h : newline.IsLineEnd) :
    breakLinesFrom line (newline ++ rest) = line.reverse :: breakLinesFrom [] rest := by
  rcases h with rfl | rfl <;> rfl

/-- A line end ends a line that has none in it. -/
theorem breakLines_append_newline {t : Text} (rest : Text) (ht : t.IsUnbroken)
    (h : newline.IsLineEnd) : breakLines (t ++ newline ++ rest) = t :: breakLines rest := by
  rw [breakLines, List.append_assoc, breakLinesFrom_append _ _ ht, breakLinesFrom_newline _ _ h]
  simp [breakLines]

theorem breakLines_of_isUnbroken {t : Text} (ht : t.IsUnbroken) (hne : t ≠ []) :
    breakLines t = [t] := by
  have h := breakLinesFrom_append [] [] ht
  rw [List.append_nil, List.append_nil, breakLinesFrom, if_neg (by simpa using hne)] at h
  rw [breakLines, h, List.reverse_reverse]

/-- **The lines of joined lines are these lines**, if the last one is not empty. -/
theorem breakLines_join {lines : List Text} (hlines : ∀ t ∈ lines, t.IsUnbroken)
    (hlast : lines.getLast? ≠ some []) (h : newline.IsLineEnd) :
    breakLines (join newline lines) = lines := by
  induction lines with
  | nil => rfl
  | cons t lines ih =>
    obtain ⟨ht, hlines⟩ := List.forall_mem_cons.mp hlines
    cases lines with
    | nil =>
      rw [join_singleton]
      exact breakLines_of_isUnbroken ht (by simpa using hlast)
    | cons u lines =>
      rw [join_cons_of_ne_nil _ _ (by simp), breakLines_append_newline _ ht h, ih hlines]
      simpa using hlast

/-- **Joined lines are taken off** by whatever takes one line after another off. -/
theorem divide_join_append {divide : Text → List Text} {lines : List Text} (rest : Text)
    (hne : lines ≠ [])
    (h : ∀ line ∈ lines, ∀ rest, divide (line ++ newline ++ rest) = line :: divide rest) :
    divide (join newline lines ++ newline ++ rest) = lines ++ divide rest := by
  induction lines with
  | nil => exact absurd rfl hne
  | cons line lines ih =>
    obtain ⟨hline, hlines⟩ := List.forall_mem_cons.mp h
    cases lines with
    | nil =>
      rw [join_singleton, hline]
      rfl
    | cons next lines =>
      have hrest := ih (by simp) hlines
      rw [join_cons_of_ne_nil _ _ (by simp), List.append_assoc, List.append_assoc, hline,
        ← List.append_assoc, hrest]
      rfl

/-- **The lines of joined lines** and of what follows them. -/
theorem breakLines_join_append {lines : List Text} (rest : Text) (h : newline.IsLineEnd)
    (hne : lines ≠ []) (hlines : ∀ line ∈ lines, line.IsUnbroken) :
    breakLines (join newline lines ++ newline ++ rest) = lines ++ breakLines rest :=
  divide_join_append rest hne fun line hline rest =>
    breakLines_append_newline rest (hlines line hline) h

/-- **The lines of joined lines**, whether or not a line end follows the last of them. If none does,
an empty one is no line. -/
theorem breakLines_join_ending {lines : List Text} {ending : Text}
    (hlines : ∀ line ∈ lines, line.IsUnbroken) (h : newline.IsLineEnd)
    (hending : ending = [] ∨ lines ≠ [] ∧ ending = newline) :
    breakLines (join newline lines ++ ending) = lines ∨
      ∃ front, lines = front ++ [[]] ∧ breakLines (join newline lines ++ ending) = front := by
  have hclosed : ∀ front : List Text, front ≠ [] → (∀ line ∈ front, line.IsUnbroken) →
      breakLines (join newline front ++ newline) = front := fun front hne hfront => by
    have hbreak := breakLines_join_append [] h hne hfront
    rwa [List.append_nil, breakLines_nil, List.append_nil] at hbreak
  rcases hending with rfl | ⟨hne, rfl⟩
  · -- without a line end after it, a last line that is empty is not seen
    rw [List.append_nil]
    by_cases hlast : lines.getLast? = some []
    · obtain ⟨front, rfl⟩ := List.getLast?_eq_some_iff.mp hlast
      refine Or.inr ⟨front, rfl, ?_⟩
      by_cases hnil : front = []
      · rw [hnil]
        rfl
      · rw [join_append _ hnil (by simp), join_singleton, List.append_nil]
        exact hclosed front hnil (List.forall_mem_append.mp hlines).1
    · exact Or.inl (breakLines_join hlines hlast h)
  · -- each line is ended, so all of them are seen
    exact Or.inl (hclosed lines hne hlines)

/-- A line feed ends a line, whatever stands before it. -/
theorem breakLinesFrom_append_lineFeed (line t rest : Text) :
    breakLinesFrom line (t ++ '\n' :: rest) =
      breakLinesFrom line (t ++ ['\n']) ++ breakLines rest := by
  induction t generalizing line with
  | nil => rfl
  | cons c t ih =>
    -- what is read next decides whether a carriage return is passed over
    have hhead : (t ++ '\n' :: rest).head? = (t ++ ['\n']).head? := by cases t <;> rfl
    rw [List.cons_append, List.cons_append, breakLinesFrom, breakLinesFrom, hhead]
    split
    · exact ih line
    · split
      · rw [ih, List.cons_append]
      · exact ih _

theorem breakLinesFrom_normalizeNewlines (line t : Text) :
    breakLinesFrom line (normalizeNewlines t) = breakLinesFrom line t := by
  induction t using normalizeNewlines.induct generalizing line with
  | case1 => rfl
  | case2 t ih =>
    -- the carriage return is passed over, so both line ends end the line here
    show line.reverse :: breakLinesFrom [] (normalizeNewlines t) =
        line.reverse :: breakLinesFrom [] t
    rw [ih]
  | case3 t hnot ih =>
    -- a carriage return alone ends the line like a line feed
    have hhead : ¬ ('\r' = '\r' ∧ t.head? = some '\n') := fun h => by
      obtain ⟨u, rfl⟩ := List.head?_eq_some_iff.mp h.2
      exact hnot u rfl
    rw [normalizeNewlines.eq_3 t hnot, breakLinesFrom, breakLinesFrom, if_neg hhead]
    show line.reverse :: breakLinesFrom [] (normalizeNewlines t) =
        line.reverse :: breakLinesFrom [] t
    rw [ih]
  | case4 c t hnot hnot' ih =>
    -- any other character is read alike, whatever follows it
    have hstep : ∀ u, breakLinesFrom line (c :: u) =
        if isLineBreak c then line.reverse :: breakLinesFrom [] u
        else breakLinesFrom (c :: line) u := fun u => by
      rw [breakLinesFrom, if_neg fun h => hnot' h.1]
    rw [normalizeNewlines.eq_4 c t hnot hnot', hstep, hstep, ih, ih]

/-- **The lines of a document** are the same with all line ends written alike. -/
@[simp] theorem breakLines_normalizeNewlines (t : Text) :
    breakLines (normalizeNewlines t) = breakLines t :=
  breakLinesFrom_normalizeNewlines [] t

theorem isUnbroken_of_mem_breakLinesFrom {line t l : Text} (hline : line.IsUnbroken)
    (h : l ∈ breakLinesFrom line t) : l.IsUnbroken := by
  -- by the cases of the reader: only characters that end no line go into a line
  induction line, t using breakLinesFrom.induct with
  | case1 => exact absurd h (by simp [breakLinesFrom])
  | case2 line hne =>
    rw [breakLinesFrom, if_neg hne, List.mem_singleton] at h
    exact h ▸ isUnbroken_reverse.mpr hline
  | case3 line c t hreturn ih =>
    rw [breakLinesFrom, if_pos hreturn] at h
    exact ih hline h
  | case4 line c t hreturn hc ih =>
    rw [breakLinesFrom, if_neg hreturn, if_pos hc, List.mem_cons] at h
    rcases h with rfl | h
    · exact isUnbroken_reverse.mpr hline
    · exact ih isUnbroken_nil h
  | case5 line c t hreturn hc ih =>
    rw [breakLinesFrom, if_neg hreturn, if_neg hc] at h
    exact ih (isUnbroken_cons.mpr ⟨by simpa using hc, hline⟩) h

/-- **No line of a document has a line end in it.** -/
theorem isUnbroken_of_mem_breakLines {t l : Text} (h : l ∈ breakLines t) : l.IsUnbroken :=
  isUnbroken_of_mem_breakLinesFrom isUnbroken_nil h

end Text

end SectionIndex
