import SectionIndex.Block.Parser
import SectionIndex.Proofs.Block.Row
import SectionIndex.Proofs.Text.Pieces

/-!
# Cells of any text

A cell can be written with any text in it. Blanks around the text are lost when it is read, and in a
documentation comment the escape of a star and a slash is read as the two characters, whoever wrote
it. All other texts are read as they were written. A text of blanks and comment signs needs no
escape at all.

## Main definitions

* `Block.readName` — what is read of a name that was written in a cell.

## Main statements

* `Block.unescapeCell_strip_escapeCell` — what is read of a cell.
* `Block.filter_isDigitCell_readName` — it shows digits only if the text does.
* `Block.uncommented_escapeCell_eq_nil_iff` — it is a comment sign only if the text is.
-/

namespace SectionIndex

namespace Block

variable {style : Style} {s t : Text} {c : Char}

/-! ### Escapes of texts in parts -/

theorem escapeBars_append (s t : Text) : escapeBars (s ++ t) = escapeBars s ++ escapeBars t := by
  induction s with
  | nil => rfl
  | cons c s ih =>
    rw [List.cons_append, escapeBars, escapeBars]
    split
    · rw [ih, List.cons_append, List.cons_append]
    · rw [ih, List.cons_append]

/-- No comment end is written across a character that is neither a star nor a slash. -/
theorem escapeClosings_append_cons (s t : Text) (hstar : c ≠ '*') (hslash : c ≠ '/') :
    escapeClosings (s ++ c :: t) = escapeClosings s ++ c :: escapeClosings t := by
  induction s using escapeClosings.induct with
  | case1 =>
    have hnot : ∀ rest, c = '*' → t = '/' :: rest → False := fun _ h _ => hstar h
    rw [List.nil_append, escapeClosings.eq_3 _ _ hnot]
    rfl
  | case2 s ih =>
    simp only [List.cons_append, escapeClosings, ih]
  | case3 d s hnot ih =>
    have hnot' : ∀ rest, d = '*' → s ++ c :: t = '/' :: rest → False := by
      intro rest hd hrest
      cases s with
      | nil => exact hslash (List.cons.inj hrest).1
      | cons e s => exact hnot s hd (by rw [(List.cons.inj hrest).1])
    rw [List.cons_append, escapeClosings.eq_3 _ _ hnot', escapeClosings.eq_3 _ _ hnot, ih,
      List.cons_append]

/-- The character is written as it is, and so is what stands around it. -/
def IsNeutral (c : Char) : Prop :=
  c ≠ '|' ∧ c ≠ '*' ∧ c ≠ '/'

theorem isNeutral_of_isBlank (h : isBlank c = true) : IsNeutral c := by
  refine ⟨?_, ?_, ?_⟩ <;>
  · rintro rfl
    exact absurd h (by decide)

theorem isNeutral_of_isLineBreak (h : Text.isLineBreak c = true) : IsNeutral c := by
  refine ⟨?_, ?_, ?_⟩ <;>
  · rintro rfl
    exact absurd h (by decide)

/-- **A neutral character parts the escape of a text.** -/
theorem escapeCell_append_cons (style : Style) (s t : Text) (hc : IsNeutral c) :
    escapeCell style (s ++ c :: t) = escapeCell style s ++ c :: escapeCell style t := by
  obtain ⟨hbar, hstar, hslash⟩ := hc
  have hbars : escapeBars (s ++ c :: t) = escapeBars s ++ c :: escapeBars t := by
    rw [escapeBars_append, escapeBars, if_neg hbar]
  cases style with
  | hash => exact hbars
  | jsdoc => rw [escapeCell, hbars, escapeClosings_append_cons _ _ hstar hslash]; rfl

/-- A text of neutral characters needs no escape, in front of another text or behind it. -/
theorem escapeCell_append_of_isNeutral (style : Style) {a b : Text} (ha : ∀ c ∈ a, IsNeutral c)
    (hb : ∀ c ∈ b, IsNeutral c) (t : Text) :
    escapeCell style (a ++ t ++ b) = a ++ escapeCell style t ++ b := by
  have hnil : escapeCell style [] = [] := by cases style <;> rfl
  -- a neutral character splits the text, so those before it come off one by one
  have hbefore : ∀ t : Text, escapeCell style (a ++ t) = a ++ escapeCell style t := by
    induction a with
    | nil => exact fun _ => rfl
    | cons c a ih =>
      obtain ⟨hc, ha⟩ := List.forall_mem_cons.mp ha
      intro t
      have hcons := escapeCell_append_cons style [] (a ++ t) hc
      rw [hnil, List.nil_append, List.nil_append, ih ha] at hcons
      exact hcons
  -- and so do those after it
  have hafter : ∀ t : Text, escapeCell style (t ++ b) = escapeCell style t ++ b := by
    induction b with
    | nil => simp
    | cons c b ih =>
      obtain ⟨hc, hb⟩ := List.forall_mem_cons.mp hb
      intro t
      have hrest := ih hb []
      rw [List.nil_append, hnil, List.nil_append] at hrest
      rw [escapeCell_append_cons style t b hc, hrest]
  rw [hafter, hbefore]

theorem escapeCell_of_isNeutral (h : ∀ c ∈ t, IsNeutral c) : escapeCell style t = t := by
  have hall := escapeCell_append_of_isNeutral style h (List.forall_mem_nil _) []
  have hnil : escapeCell style [] = [] := by cases style <;> rfl
  rwa [hnil, List.append_nil, List.append_nil] at hall

/-- **Blanks around a text stand around its escape.** -/
theorem strip_escapeCell_eq (style : Style) (t : Text) :
    (escapeCell style t).strip = escapeCell style t.strip := by
  obtain ⟨a, b, ha, hb, ht⟩ := Text.exists_eq_append_trim isBlank t
  have hescape := escapeCell_append_of_isNeutral style
    (fun c hc => isNeutral_of_isBlank (ha c hc)) (fun c hc => isNeutral_of_isBlank (hb c hc))
    t.strip
  have htrim : Text.strip (a ++ escapeCell style t.strip ++ b) =
      Text.strip (escapeCell style t.strip) :=
    Text.trim_append_append ha hb
  have hstripped : Text.strip (escapeCell style t.strip) = escapeCell style t.strip :=
    strip_escapeCell (Text.trim_trim isBlank t)
  conv => lhs; rw [ht]
  show Text.strip (escapeCell style (a ++ t.strip ++ b)) = _
  rw [hescape, htrim, hstripped]

/-! ### What is read of a cell -/

theorem unescapeClosings_escapeClosings_eq (t : Text) :
    unescapeClosings (escapeClosings t) = unescapeClosings t := by
  -- by the cases of the escape: the end of a comment, or any other first character
  induction t using escapeClosings.induct with
  | case1 => rfl
  | case2 t ih =>
    rw [escapeClosings, unescapeClosings, ih, unescapeClosings.eq_3 _ _ (by simp),
      unescapeClosings.eq_3 _ _ (by simp)]
  | case3 c t hnot ih =>
    rw [escapeClosings.eq_3 _ _ hnot]
    by_cases hclosing : c = '*' ∧ ∃ rest, t = '\\' :: '/' :: rest
    · -- the escape that stands there already is read like one that was added
      obtain ⟨rfl, rest, rfl⟩ := hclosing
      have hescape : escapeClosings ('\\' :: '/' :: rest) = '\\' :: '/' :: escapeClosings rest := by
        rw [escapeClosings.eq_3 _ _ (by simp), escapeClosings.eq_3 _ _ (by simp)]
      rw [hescape, unescapeClosings.eq_3 _ _ (by simp), unescapeClosings.eq_3 _ _ (by simp),
        unescapeClosings.eq_3 _ _ (by simp), unescapeClosings.eq_3 _ _ (by simp)] at ih
      rw [hescape, unescapeClosings, unescapeClosings,
        (List.cons.inj (List.cons.inj ih).2).2]
    · -- any other character stays, and the escape of the rest starts as the rest does
      have hplain : ∀ rest, c = '*' → t = '\\' :: '/' :: rest → False :=
        fun rest hc ht => hclosing ⟨hc, rest, ht⟩
      rw [unescapeClosings.eq_3 _ _ hplain, unescapeClosings.eq_3, ih]
      intro rest hc hrest
      obtain ⟨v, rfl⟩ := exists_cons_of_escapeClosings hrest
      exact hplain v hc rfl

theorem unescapeBars_cons (hc : ¬ (c = '\\' ∧ t.head? = some '|')) :
    unescapeBars (c :: t) = c :: unescapeBars t := by
  refine unescapeBars.eq_3 c t fun rest hbackslash hrest => hc ⟨hbackslash, ?_⟩
  rw [hrest]
  rfl

/-- The bars of a text are read back whatever becomes of its comment ends. -/
theorem unescapeBars_unescapeClosings_escapeBars (t : Text) :
    unescapeBars (unescapeClosings (escapeBars t)) = unescapeClosings t := by
  induction t using unescapeClosings.induct with
  | case1 => rfl
  | case2 t ih =>
    have hbars : escapeBars ('*' :: '\\' :: '/' :: t) = '*' :: '\\' :: '/' :: escapeBars t := rfl
    rw [hbars, unescapeClosings, unescapeClosings, unescapeBars_cons (by simp),
      unescapeBars_cons (by simp), ih]
  | case3 c t hnot ih =>
    -- an escaped text does not start with a bare bar, so no backslash is joined with one
    have hhead : (unescapeClosings (escapeBars t)).head? ≠ some '|' := by
      rw [head?_unescapeClosings, head?_escapeBars]
      split
      · simp
      · assumption
    rw [unescapeClosings.eq_3 _ _ hnot, escapeBars]
    split
    · -- a bar is written as two characters, and they are read as one
      next hbar =>
      subst hbar
      rw [unescapeClosings.eq_3 _ _ (by simp), unescapeClosings.eq_3 _ _ (by simp), unescapeBars,
        ih]
    · have hplain : ∀ rest, c = '*' → escapeBars t = '\\' :: '/' :: rest → False := by
        intro rest hstar hrest
        -- the backslash is no escape of a bar, as a slash follows it
        cases t with
        | nil => cases hrest
        | cons d t =>
          rw [escapeBars] at hrest
          split at hrest
          · exact absurd (List.cons.inj (List.cons.inj hrest).2).1 (by decide)
          · obtain ⟨rfl, hslash⟩ := List.cons.inj hrest
            have hfirst : (escapeBars t).head? = some '/' := by rw [hslash]; rfl
            rw [head?_escapeBars] at hfirst
            split at hfirst
            · exact absurd hfirst (by decide)
            · obtain ⟨u, rfl⟩ := List.head?_eq_some_iff.mp hfirst
              exact hnot u hstar rfl
      rw [unescapeClosings.eq_3 _ _ hplain, unescapeBars_cons fun h => hhead h.2, ih]

/-- What is read of the text of a cell: the text, but that no escape is left in a documentation
comment. -/
def readText : Style → Text → Text
  | .jsdoc, t => unescapeClosings t
  | .hash, t => t

/-- **What is read of a name:** the name without the blanks around it. -/
def readName (style : Style) (name : Text) : Text :=
  readText style name.strip

theorem unescapeCell_escapeCell_eq (style : Style) (t : Text) :
    unescapeCell style (escapeCell style t) = readText style t := by
  cases style with
  | hash => exact unescapeBars_escapeBars t
  | jsdoc =>
    rw [unescapeCell, escapeCell, unescapeClosings_escapeClosings_eq,
      unescapeBars_unescapeClosings_escapeBars]
    rfl

/-- **What is read of a cell**, whatever was written in it. -/
theorem unescapeCell_strip_escapeCell (style : Style) (t : Text) :
    unescapeCell style (escapeCell style t).strip = readName style t := by
  rw [strip_escapeCell_eq, unescapeCell_escapeCell_eq, readName]

/-- A text that a cell can hold is read as it was written. -/
theorem readName_of_isCellText (h : IsCellText style t) : readName style t = t := by
  rw [← unescapeCell_strip_escapeCell, strip_escapeCell h.strip_eq,
    unescapeCell_escapeCell h.escapable]

/-! ### Cells of digits -/

theorem unescapeClosings_of_star_not_mem (h : '*' ∉ unescapeClosings t) :
    unescapeClosings t = t := by
  induction t using unescapeClosings.induct with
  | case1 => rfl
  | case2 t ih =>
    rw [unescapeClosings] at h
    exact absurd List.mem_cons_self h
  | case3 c t hnot ih =>
    rw [unescapeClosings.eq_3 _ _ hnot] at h ⊢
    rw [ih fun hmem => h (List.mem_cons_of_mem _ hmem)]

theorem isDigitForm_of_isDigitCell (h : isDigitCell t = true) : ∀ c ∈ t, isDigitForm c = true := by
  rw [isDigitCell, Bool.and_eq_true] at h
  exact List.all_eq_true.mp h.2

theorem isNeutral_of_isDigitForm (h : isDigitForm c = true) : IsNeutral c := by
  refine ⟨?_, ?_, ?_⟩ <;>
  · rintro rfl
    exact absurd h (by decide)

/-- A cell that shows digits is read as it is. -/
theorem readText_of_isDigitCell (h : isDigitCell (readText style t) = true) :
    readText style t = t := by
  cases style with
  | hash => rfl
  | jsdoc =>
    refine unescapeClosings_of_star_not_mem fun hstar => ?_
    exact absurd (isDigitForm_of_isDigitCell h _ hstar) (by decide)

theorem readText_of_isDigitForm (h : ∀ c ∈ t, isDigitForm c = true) : readText style t = t := by
  have hescape : escapeCell style t = t :=
    escapeCell_of_isNeutral fun c hc => isNeutral_of_isDigitForm (h c hc)
  have hbackslash : '\\' ∉ t := fun hmem => absurd (h _ hmem) (by decide)
  rw [← unescapeCell_escapeCell_eq, hescape, unescapeCell_of_not_mem hbackslash]

/-- **What is read shows digits** only if the text does, and then it is the text. -/
theorem filter_isDigitCell_readName (style : Style) (t : Text) :
    [readName style t].filter isDigitCell = [t.strip].filter isDigitCell := by
  by_cases hread : isDigitCell (readName style t) = true
  · have heq : readName style t = t.strip := readText_of_isDigitCell hread
    rw [heq]
  · have hstrip : ¬ isDigitCell t.strip = true := fun h => by
      rw [readName, readText_of_isDigitForm (isDigitForm_of_isDigitCell h)] at hread
      exact hread h
    rw [List.filter_cons_of_neg hread, List.filter_cons_of_neg hstrip, List.filter_nil]

/-! ### Lines and their comment signs -/

/-- The characters that are taken off the start of a line: blanks and comment signs. -/
def IsSignChar (c : Char) : Prop :=
  isBlank c = true ∨ (c == '*' || c == '#') = true

instance (c : Char) : Decidable (IsSignChar c) :=
  inferInstanceAs (Decidable (_ ∨ _))

theorem not_isSignChar_iff :
    ¬ IsSignChar c ↔ isBlank c = false ∧ (c == '*' || c == '#') = false := by
  rw [IsSignChar, not_or, Bool.not_eq_true, Bool.not_eq_true]

/-- What follows the comment signs of a line, with the blanks that stand around it. -/
def withoutSigns (line : Text) : Text :=
  (line.dropWhile isBlank).dropWhile fun c => c == '*' || c == '#'

theorem exists_eq_append_withoutSigns (line : Text) :
    ∃ signs, (∀ c ∈ signs, IsSignChar c) ∧ line = signs ++ withoutSigns line := by
  refine ⟨line.takeWhile isBlank ++
    (line.dropWhile isBlank).takeWhile fun c => c == '*' || c == '#', ?_, ?_⟩
  · refine List.forall_mem_append.mpr ⟨fun c hc => Or.inl ?_, fun c hc => Or.inr ?_⟩
    · exact List.all_eq_true.mp List.all_takeWhile c hc
    · exact List.all_eq_true.mp List.all_takeWhile c hc
  · rw [withoutSigns, List.append_assoc, List.takeWhile_append_dropWhile,
      List.takeWhile_append_dropWhile]

/-- The blanks at the end of a line do not matter when its comment signs are taken off. -/
theorem uncommented_eq (line : Text) : uncommented line = Text.strip (withoutSigns line) := by
  -- the blanks at the end of the line hold no sign, so they may be cut off before the signs or
  -- after
  obtain ⟨b, hb, hline⟩ := Text.exists_eq_trimEnd_append isBlank (line.dropWhile isBlank)
  have hstop : ∀ c ∈ b.head?, (c == '*' || c == '#') = false := by
    intro c hc
    obtain ⟨-, hstar, -⟩ := isNeutral_of_isBlank (hb c (List.mem_of_mem_head? hc))
    have hhash : c ≠ '#' := by
      rintro rfl
      exact absurd (hb '#' (List.mem_of_mem_head? hc)) (by decide)
    rw [beq_false_of_ne hstar, beq_false_of_ne hhash]
    rfl
  have hsigns : withoutSigns line =
      ((Text.strip line).dropWhile fun c => c == '*' || c == '#') ++ b := by
    unfold withoutSigns
    conv => lhs; rw [hline]
    exact Text.dropWhile_append_of_stop (Or.inr hstop)
  rw [hsigns, uncommented]
  exact (Text.trim_append_right _ hb).symm

/-- What is taken off completely holds nothing else. -/
theorem isBlank_of_uncommented_eq_nil (h : uncommented t = []) :
    ∀ c ∈ withoutSigns t, isBlank c = true := by
  obtain ⟨a, b, ha, hb, ht⟩ := Text.exists_eq_append_trim isBlank (withoutSigns t)
  have hnil : Text.trim isBlank (withoutSigns t) = [] := (uncommented_eq t).symm.trans h
  rw [hnil, List.append_nil] at ht
  rw [ht]
  exact List.forall_mem_append.mpr ⟨ha, hb⟩

theorem isSignChar_of_uncommented_eq_nil (h : uncommented t = []) : ∀ c ∈ t, IsSignChar c := by
  obtain ⟨signs, hsigns, ht⟩ := exists_eq_append_withoutSigns t
  rw [ht]
  refine List.forall_mem_append.mpr ⟨hsigns, fun c hc => Or.inl ?_⟩
  exact isBlank_of_uncommented_eq_nil h c hc

/-- The signs that are taken off a line are those of its start, if anything is left of the start or
no sign follows it. -/
theorem withoutSigns_append {rest : Text}
    (h : withoutSigns t ≠ [] ∨ ∀ c ∈ rest.head?, ¬ IsSignChar c) :
    withoutSigns (t ++ rest) = withoutSigns t ++ rest := by
  -- dropping stops in `t`, or `rest` starts with what is kept
  have hblanks : (t ++ rest).dropWhile isBlank = t.dropWhile isBlank ++ rest := by
    apply Text.dropWhile_append_of_stop
    rcases h with hne | hrest
    · left
      intro hnil
      apply hne
      unfold withoutSigns
      rw [hnil]
      rfl
    · right
      exact fun c hc => (not_isSignChar_iff.mp (hrest c hc)).1
  unfold withoutSigns at h ⊢
  rw [hblanks]
  apply Text.dropWhile_append_of_stop
  rcases h with hne | hrest
  · exact Or.inl hne
  · exact Or.inr fun c hc => (not_isSignChar_iff.mp (hrest c hc)).2

/-- **What is left of a line** stays in front when the line goes on. -/
theorem exists_uncommented_append (h : uncommented t ≠ []) (rest : Text) :
    ∃ more, uncommented (t ++ rest) = uncommented t ++ more := by
  have hne : withoutSigns t ≠ [] := by
    intro hnil
    rw [uncommented_eq, hnil] at h
    exact h rfl
  -- what is left of `t` stands between blanks, and only those after it meet `rest`
  obtain ⟨a, b, ha, -, ht⟩ := Text.exists_eq_append_trim isBlank (withoutSigns t)
  have hkept : Text.strip (uncommented t) = uncommented t := Text.trim_trim isBlank _
  refine ⟨Text.trimEnd isBlank (b ++ rest), ?_⟩
  have hafter : Text.strip (uncommented t ++ (b ++ rest)) =
      uncommented t ++ Text.trimEnd isBlank (b ++ rest) :=
    Text.trim_append (b ++ rest) h hkept
  have hline : withoutSigns (t ++ rest) = a ++ (uncommented t ++ (b ++ rest)) := by
    rw [withoutSigns_append (Or.inl hne), uncommented_eq t]
    conv => lhs; rw [ht]
    simp only [Text.strip, List.append_assoc]
  calc uncommented (t ++ rest) = Text.strip (a ++ (uncommented t ++ (b ++ rest))) := by
        rw [uncommented_eq, hline]
    _ = Text.strip (uncommented t ++ (b ++ rest)) := Text.trim_append_left _ ha
    _ = uncommented t ++ Text.trimEnd isBlank (b ++ rest) := hafter

/-- **A bar after comment signs** is the first character that is left. -/
theorem uncommented_append_bar (h : uncommented t = []) (rest : Text) :
    uncommented (t ++ '|' :: rest) = Text.strip ('|' :: rest) := by
  have hbar : ∀ c ∈ ('|' :: rest).head?, ¬ IsSignChar c := by
    intro c hc
    obtain rfl : '|' = c := Option.some.inj hc
    decide
  rw [uncommented_eq, withoutSigns_append (Or.inr hbar)]
  exact Text.trim_append_left _ (isBlank_of_uncommented_eq_nil h)

/-! ### Cells of comment signs -/

theorem escapeBars_of_backslash_not_mem (h : '\\' ∉ escapeBars t) : escapeBars t = t := by
  induction t with
  | nil => rfl
  | cons c t ih =>
    rw [escapeBars] at h ⊢
    split at h
    · exact absurd List.mem_cons_self h
    · next hc => rw [if_neg hc, ih fun hmem => h (List.mem_cons_of_mem _ hmem)]

theorem escapeClosings_of_backslash_not_mem (h : '\\' ∉ escapeClosings t) :
    escapeClosings t = t := by
  induction t using escapeClosings.induct with
  | case1 => rfl
  | case2 t ih =>
    rw [escapeClosings] at h
    exact absurd (List.mem_cons_of_mem _ List.mem_cons_self) h
  | case3 c t hnot ih =>
    rw [escapeClosings.eq_3 _ _ hnot] at h ⊢
    rw [ih fun hmem => h (List.mem_cons_of_mem _ hmem)]

/-- An escape without a backslash in it changes nothing. -/
theorem escapeCell_of_backslash_not_mem (h : '\\' ∉ escapeCell style t) :
    escapeCell style t = t := by
  cases style with
  | hash => exact escapeBars_of_backslash_not_mem h
  | jsdoc =>
    have hclosings : escapeClosings (escapeBars t) = escapeBars t :=
      escapeClosings_of_backslash_not_mem h
    rw [escapeCell, hclosings] at h ⊢
    exact escapeBars_of_backslash_not_mem h

/-- A text without bars has nothing to escape in a hash block. -/
theorem escapeBars_of_not_mem (h : '|' ∉ t) : escapeBars t = t := by
  induction t with
  | nil => rfl
  | cons c t ih =>
    rw [List.mem_cons, not_or] at h
    rw [escapeBars, if_neg (Ne.symm h.1), ih h.2]

/-- A text without slashes ends no comment. -/
theorem escapeClosings_of_not_mem (h : '/' ∉ t) : escapeClosings t = t := by
  induction t with
  | nil => rfl
  | cons c t ih =>
    rw [List.mem_cons, not_or] at h
    rw [escapeClosings.eq_3, ih h.2]
    rintro rest - rfl
    exact h.2 List.mem_cons_self

theorem escapeCell_of_isSignChar (h : ∀ c ∈ t, IsSignChar c) : escapeCell style t = t := by
  have hbar : '|' ∉ t := fun hmem => absurd (h _ hmem) (by decide)
  have hslash : '/' ∉ t := fun hmem => absurd (h _ hmem) (by decide)
  cases style with
  | hash => exact escapeBars_of_not_mem hbar
  | jsdoc => rw [escapeCell, escapeBars_of_not_mem hbar, escapeClosings_of_not_mem hslash]

/-- **A cell is taken off as comment signs** if and only if its text is. -/
theorem uncommented_escapeCell_eq_nil_iff (style : Style) (t : Text) :
    uncommented (escapeCell style t) = [] ↔ uncommented t = [] := by
  constructor
  · intro h
    have hbackslash : '\\' ∉ escapeCell style t := fun hmem =>
      absurd (isSignChar_of_uncommented_eq_nil h _ hmem) (by decide)
    rwa [escapeCell_of_backslash_not_mem hbackslash] at h
  · intro h
    rwa [escapeCell_of_isSignChar (isSignChar_of_uncommented_eq_nil h)]

end Block

end SectionIndex
