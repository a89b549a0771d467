import SectionIndex.Proofs.Block.Search

/-!
# A block in the place of another

A block that is put where another one stood is not always found again. The search tries every place
before it once more, with another text behind that place now, and the block itself may be of the
other style. A comment that could not be closed before may be closed by the new block, hash lines
without an end mark may run into the one of the new block, and hash lines count only if they are
whole lines of the file.

## Main definitions

* `Block.OpensComment` — a comment block starts in a text.
* `Block.OpensLines` — a text ends with hash lines that start a block.
* `Block.IsClear` — what stands around a block does not keep it from being found.

## Main statements

* `Block.locate?_replace_iff` — a block in the place of another is found if and only if what stands
  around it is clear.
-/

namespace SectionIndex

namespace Block

open Text (wholeLines)

variable {style : Style} {t opening before raw after newline : Text} {c : Char} {lines : List Text}

/-! ### Comments that start before a block -/

/-- **A comment block starts in the text.** -/
def OpensComment (before : Text) : Prop :=
  ∃ opening, IsOpening opening ∧ opening <:+: before

/-- The first sign of a block stands in the start of a comment block only as its first one. -/
theorem exists_cons_of_isOpening (h : IsOpening opening) :
    ∃ tail, opening = '/' :: tail ∧ '/' ∉ tail ∧ '#' ∉ tail := by
  obtain ⟨gap, indent, hgap, -, hindent, rfl⟩ := h
  have hblank : ∀ c, isBlank c = false → c ∉ gap ∧ c ∉ indent := by
    intro c hc
    constructor
    · exact fun hmem => Bool.false_ne_true (hc.symm.trans (hgap c hmem))
    · exact fun hmem => Bool.false_ne_true (hc.symm.trans (hindent c hmem))
  have hnot : ∀ c, isBlank c = false → c ≠ '*' → c ∉ marker →
      c ∉ '*' :: '*' :: gap ++ '*' :: indent ++ marker := by
    intro c hc hstar hmarker
    simp only [List.mem_append, List.mem_cons, not_or]
    exact ⟨⟨⟨hstar, hstar, (hblank c hc).1⟩, hstar, (hblank c hc).2⟩, hmarker⟩
  exact ⟨_, rfl, hnot '/' (by decide) (by decide) (by decide),
    hnot '#' (by decide) (by decide) (by decide)⟩

/-- No comment block starts in a text without a slash. -/
theorem not_opensComment_of_not_mem (h : '/' ∉ before) : ¬ OpensComment before := by
  rintro ⟨opening, hopening, hinside⟩
  obtain ⟨tail, rfl, -⟩ := exists_cons_of_isOpening hopening
  exact h (hinside.subset List.mem_cons_self)

/-- The start of a comment block that starts before a block stands before it as a whole. -/
theorem exists_of_isOpening_append (h : IsOpening opening) (hc : c = '/' ∨ c = '#') {b rest : Text}
    (hb : b ≠ []) (heq : b ++ c :: t = opening ++ rest) :
    ∃ r, b = opening ++ r ∧ rest = r ++ c :: t := by
  obtain ⟨tail, rfl, hslash, hhash⟩ := exists_cons_of_isOpening h
  rcases List.append_eq_append_iff.mp heq with ⟨u, hopening, hrest⟩ | ⟨r, hr, hrest⟩
  · cases u with
    | nil =>
      rw [List.append_nil] at hopening
      exact ⟨[], by rw [List.append_nil, hopening], hrest.symm⟩
    | cons d u =>
      -- the first sign of the block would stand in the start of the comment
      obtain ⟨rfl, -⟩ := List.cons.inj hrest
      obtain ⟨e, b, rfl⟩ := List.exists_cons_of_ne_nil hb
      obtain ⟨-, rfl⟩ := List.cons.inj hopening
      rcases hc with rfl | rfl
      · exact absurd (by simp) hslash
      · exact absurd (by simp) hhash
  · exact ⟨r, hr, hrest⟩

/-- **No comment block is read before a block** if none that starts there is closed. -/
theorem jsdocAt?_before_iff (hc : c = '/' ∨ c = '#') :
    (∀ b₁ b₂, before = b₁ ++ b₂ → b₂ ≠ [] → jsdocAt? (b₂ ++ c :: t) = none) ↔
      ∀ b opening r, IsOpening opening → before = b ++ (opening ++ r) →
        ¬ closing <:+: r ++ c :: t := by
  constructor
  · intro h b opening r hopening hbefore
    have hne : opening ++ r ≠ [] := by
      obtain ⟨tail, rfl, -⟩ := exists_cons_of_isOpening hopening
      exact List.cons_ne_nil _ _
    exact jsdocAt?_eq_none_iff.mp (h b _ hbefore hne) opening _ hopening (List.append_assoc _ _ _)
  · intro h b₁ b₂ hbefore hne
    refine jsdocAt?_eq_none_iff.mpr fun opening rest hopening heq => ?_
    obtain ⟨r, rfl, rfl⟩ := exists_of_isOpening_append hopening hc hne heq
    exact h b₁ opening r hopening hbefore

/-- A comment block closes every comment that starts before it. -/
theorem jsdocAt?_before_of_closing (hc : c = '/' ∨ c = '#') (hclosing : closing <:+: c :: t) :
    (∀ b₁ b₂, before = b₁ ++ b₂ → b₂ ≠ [] → jsdocAt? (b₂ ++ c :: t) = none) ↔
      ¬ OpensComment before := by
  rw [jsdocAt?_before_iff hc]
  constructor
  · rintro h ⟨opening, hopening, b, r, hbefore⟩
    rw [List.append_assoc] at hbefore
    exact h b opening r hopening hbefore.symm (hclosing.trans (List.suffix_append r _).isInfix)
  · rintro h b opening r hopening rfl
    exact absurd ⟨opening, hopening, b, r, List.append_assoc _ _ _⟩ h

/-- A text between a hash sign and the end of a word keeps the end of a comment to itself. -/
theorem closing_infix_framed_iff {r mid : Text} :
    closing <:+: r ++ ('#' :: mid ++ 'x' :: after) ↔
      closing <:+: r ∨ closing <:+: mid ∨ closing <:+: after := by
  have hhash : r ++ ('#' :: mid ++ 'x' :: after) = r ++ ['#'] ++ (mid ++ ['x'] ++ after) := by simp
  have hinfix : ∀ {u v : Text}, closing <:+: u → u <:+: v → closing <:+: v := fun h => h.trans
  rw [hhash]
  constructor
  · intro h
    rcases Text.infix_or_of_append (by simp) (by decide) (by decide) h with h | h
    · exact Or.inl h
    · exact Or.inr (Text.infix_or_of_append (by simp) (by decide) (by decide) h)
  · rintro (h | h | h)
    · exact hinfix h ⟨[], ['#'] ++ (mid ++ ['x'] ++ after), by simp⟩
    · exact hinfix h ⟨r ++ ['#'], ['x'] ++ after, by simp⟩
    · exact hinfix h ⟨r ++ ['#'] ++ (mid ++ ['x']), [], by simp⟩

/-- **A hash block closes a comment** that was not closed before only if the end of a comment stands
in it. -/
theorem jsdocAt?_before_of_framed {old : Text} (mid : Text) (hc : c = '/' ∨ c = '#')
    (hold : ∀ b₁ b₂, before = b₁ ++ b₂ → b₂ ≠ [] → jsdocAt? (b₂ ++ c :: (old ++ after)) = none) :
    (∀ b₁ b₂, before = b₁ ++ b₂ → b₂ ≠ [] →
        jsdocAt? (b₂ ++ '#' :: (mid ++ 'x' :: after)) = none) ↔
      (OpensComment before → ¬ closing <:+: '#' :: mid ++ ['x']) := by
  -- an end of the comment would stand between the first and the last character of the block
  have hblock : closing <:+: '#' :: mid ++ ['x'] ↔ closing <:+: mid := by
    have hframed : closing <:+: [] ++ ('#' :: mid ++ ['x']) ↔ _ := closing_infix_framed_iff
    have hnil : ¬ closing <:+: [] := by decide
    simpa only [List.nil_append, hnil, false_or, or_false] using hframed
  rw [jsdocAt?_before_iff hc] at hold
  rw [jsdocAt?_before_iff (Or.inr rfl), hblock]
  constructor
  · rintro h ⟨opening, hopening, b, r, hbefore⟩ hmid
    rw [List.append_assoc] at hbefore
    exact h b opening r hopening hbefore.symm (closing_infix_framed_iff.mpr (Or.inr (Or.inl hmid)))
  · intro h b opening r hopening hbefore hclosing
    have hopens : OpensComment before := ⟨opening, hopening, b, r, by rw [hbefore]; simp⟩
    -- the texts on both sides of the block stood there before, and closed no comment
    have hnot := hold b opening r hopening hbefore
    rcases closing_infix_framed_iff.mp hclosing with hr | hmid | hafter
    · exact hnot (hr.trans (List.prefix_append r _).isInfix)
    · exact h hopens hmid
    · exact hnot (hafter.trans ⟨r ++ c :: old, [], by simp⟩)

/-! ### Hash lines that start before a block -/

/-- **The text ends with hash lines that start a block:** a line that holds the marker, and lines
with a hash sign. -/
def OpensLines (before : Text) : Prop :=
  ∃ b first lines, startsLine b = true ∧ isHashLine marker first = true ∧ '\n' ∉ first ∧
    (∀ line ∈ lines, '\n' ∉ line ∧ line.head? = some '#') ∧
    before = b ++ wholeLines (first :: lines)

/-- No hash lines start a block in a text without a hash sign. -/
theorem not_opensLines_of_not_mem (h : '#' ∉ before) : ¬ OpensLines before := by
  rintro ⟨b, first, lines, -, hfirst, -, -, rfl⟩
  obtain ⟨indent, spaces, tail, -, -, rfl⟩ := exists_of_isHashLine hfirst
  exact h (by simp)

/-- Lines without an end mark at their start add nothing to the lines before them. -/
theorem throughEndMarker_append {rest : List Text} (lines : List Text)
    (h : throughEndMarker rest = none) :
    throughEndMarker (lines ++ rest) = throughEndMarker lines := by
  induction lines with
  | nil => exact h
  | cons line lines ih => rw [List.cons_append, throughEndMarker, throughEndMarker, ih]

/-- Lines without an end mark reach the one after them if they are all hash lines. -/
theorem throughEndMarker_append_eq_none_iff {rest : List Text} (h : throughEndMarker lines = none) :
    throughEndMarker (lines ++ rest) = none ↔
      (∀ line ∈ lines, line.head? = some '#') → throughEndMarker rest = none := by
  induction lines with
  | nil => simp
  | cons line lines ih =>
    rw [throughEndMarker] at h
    split at h
    · cases h
    · next hend =>
      rw [List.cons_append, throughEndMarker, if_neg hend, List.forall_mem_cons]
      split
      · next hsign =>
        rw [if_pos hsign, Option.map_eq_none_iff] at h
        rw [Option.map_eq_none_iff, ih h]
        simp [hsign]
      · next hsign => simp [hsign]

theorem hashLinesAt?_eq_none_iff {line : Text} : hashLinesAt? (line :: lines) = none ↔
    (isHashLine marker line = true → throughEndMarker lines = none) := by
  rw [hashLinesAt?]
  split
  · next h => simp [h]
  · next h => simp [h]

theorem hashAt?_eq_none_iff : hashAt? t = none ↔ hashLinesAt? (t.splitOn '\n') = none := by
  rw [hashAt?_eq, Option.map_eq_none_iff]

/-- The lines of a hash block have an end mark after them, and the first of them is a hash line. -/
theorem throughEndMarker_ne_none_of_hashLinesAt? (h : hashLinesAt? lines ≠ none) :
    throughEndMarker lines ≠ none := by
  cases lines with
  | nil => exact absurd rfl h
  | cons line lines =>
    rw [ne_eq, hashLinesAt?_eq_none_iff, not_forall] at h
    obtain ⟨hmarker, hend⟩ := h
    have hsign : line.head? = some '#' := by
      obtain ⟨b, a, tail, -, -, rfl⟩ := exists_of_isHashLine hmarker
      rfl
    rw [throughEndMarker]
    split
    · exact Option.some_ne_none _
    · rw [ne_eq, Option.map_eq_none_iff]
      exact hend

/-- No slash stands in the line of a mark. -/
theorem isHashLine_of_mem {word line : Text} (hword : '/' ∉ word) (hline : '/' ∈ line) :
    isHashLine word line = false := by
  rw [Bool.eq_false_iff]
  intro h
  obtain ⟨indent, spaces, tail, hspaces, htail, rfl⟩ := exists_of_isHashLine h
  have hblank : '/' ∉ indent ++ spaces := fun hmem => absurd (hspaces '/' hmem) (by decide)
  have hend : '/' ∉ tail := by rcases htail with rfl | rfl <;> decide
  rw [List.mem_append, not_or] at hblank
  simp only [List.mem_append, List.mem_cons] at hline
  rcases hline with (((h | h) | h) | h) | h
  · exact absurd h (by decide)
  · exact hblank.1 h
  · exact hword h
  · exact hblank.2 h
  · exact hend h

theorem exists_splitOn_cons (t : Text) (hc : c ≠ '\n') :
    ∃ line lines, (c :: t).splitOn '\n' = (c :: line) :: lines := by
  obtain ⟨line, lines, hsplit⟩ := List.exists_cons_of_ne_nil (List.splitOnP_ne_nil (· == '\n') t)
  refine ⟨line, lines, ?_⟩
  rw [List.splitOn, List.splitOnP_cons_eq_if_modifyHead, hsplit, if_neg (by simpa using hc)]
  rfl

theorem startsLine_append (s : Text) (h : t ≠ []) : startsLine (s ++ t) = startsLine t := by
  obtain ⟨d, hd⟩ := Option.ne_none_iff_exists'.mp (mt List.getLast?_eq_none_iff.mp h)
  rw [startsLine, startsLine, startsLineAfter, startsLineAfter, List.getLast?_append, hd]
  rfl

/-- **No hash block is read before a comment block** if none was read before the old block, as the
second line of the comment starts with a space. -/
theorem hashAt?_before_comment {b old : Text} (rest : Text) (h : newline.IsLineEnd)
    (hold : hashAt? (b ++ old) = none) :
    hashAt? (b ++ ("/**" ++ newline ++ ' ' :: rest)) = none := by
  obtain ⟨lines, last, hlines, hlast, rfl⟩ := Text.exists_wholeLines b
  rw [hashAt?_eq_none_iff, List.append_assoc, Text.splitOn_wholeLines_append _ hlines] at hold ⊢
  -- the opening of the comment stands in the line that was begun before it, and puts a slash into
  -- it
  have hopening : '\n' ∉ last ++ "/**" := by
    rw [List.mem_append, not_or]
    exact ⟨hlast, by decide⟩
  have hsplit : (last ++ ("/**" ++ newline ++ ' ' :: rest)).splitOn '\n' =
      (last ++ "/**" ++ newline.dropLast) :: (' ' :: rest).splitOn '\n' := by
    rw [← Text.splitOn_append_newline (' ' :: rest) hopening h]
    simp only [List.append_assoc]
  have hslash : '/' ∈ last ++ "/**" ++ newline.dropLast := by
    simp only [List.mem_append]
    exact Or.inl (Or.inr (by decide))
  rw [hsplit]
  generalize last ++ "/**" ++ newline.dropLast = line at hslash
  -- what is found from the comment on is no end mark
  have hspace : throughEndMarker ((' ' :: rest).splitOn '\n') = none := by
    obtain ⟨line, lines, hsplit⟩ := exists_splitOn_cons (c := ' ') rest (by decide)
    rw [hsplit]
    rfl
  have hnone : throughEndMarker (line :: (' ' :: rest).splitOn '\n') = none := by
    rw [throughEndMarker, isHashLine_of_mem (by decide) hslash, if_neg (by decide), hspace]
    split <;> rfl
  -- the first line is the one with the slash, or one of the lines before it
  cases lines with
  | nil =>
    rw [List.nil_append, hashLinesAt?_eq_none_iff, isHashLine_of_mem (by decide) hslash]
    exact fun hmarker => absurd hmarker (by decide)
  | cons first lines =>
    rw [List.cons_append, hashLinesAt?_eq_none_iff] at hold ⊢
    intro hmarker
    rw [throughEndMarker_append lines hnone]
    -- an end mark in the lines before the block would have been found before
    by_contra hend
    obtain ⟨found, hfound⟩ := Option.ne_none_iff_exists'.mp hend
    have hthere := hold hmarker
    rw [throughEndMarker_append_of_some _ hfound] at hthere
    cases hthere

/-- **No hash block is read before a hash block** if none starts there. -/
theorem hashAt?_before_iff {block old : Text} (hbefore : startsLine before = true)
    (hblock : hashAt? block ≠ none)
    (hold : ∀ b₁ b₂, before = b₁ ++ b₂ → b₂ ≠ [] → startsLine b₁ = true →
      hashAt? (b₂ ++ old) = none) :
    (∀ b₁ b₂, before = b₁ ++ b₂ → b₂ ≠ [] → startsLine b₁ = true →
      hashAt? (b₂ ++ block) = none) ↔ ¬ OpensLines before := by
  rw [ne_eq, hashAt?_eq_none_iff] at hblock
  have hreached := throughEndMarker_ne_none_of_hashLinesAt? hblock
  -- what whole lines before the block are, and what is read from them with the block
  have hlines : ∀ b first lines, before = b ++ wholeLines (first :: lines) →
      startsLine b = true → (∀ line ∈ first :: lines, '\n' ∉ line) →
      isHashLine marker first = true →
      (hashAt? (wholeLines (first :: lines) ++ block) = none ↔
        ¬ ∀ line ∈ lines, line.head? = some '#') := by
    intro b first lines hb hstart hfeed hmarker
    have hthere := hold b _ hb (by simp) hstart
    rw [hashAt?_eq_none_iff, Text.splitOn_wholeLines_append _ hfeed, List.cons_append,
      hashLinesAt?_eq_none_iff] at hthere ⊢
    have hend : throughEndMarker lines = none := by
      by_contra hend
      obtain ⟨found, hfound⟩ := Option.ne_none_iff_exists'.mp hend
      have hthere := hthere hmarker
      rw [throughEndMarker_append_of_some _ hfound] at hthere
      cases hthere
    rw [throughEndMarker_append_eq_none_iff hend]
    simp only [hmarker, forall_const, hreached, imp_false]
  constructor
  · rintro h ⟨b, first, lines, hstart, hmarker, hfirst, hsigns, hb⟩
    have hfeed : ∀ line ∈ first :: lines, '\n' ∉ line :=
      List.forall_mem_cons.mpr ⟨hfirst, fun line hline => (hsigns line hline).1⟩
    exact (hlines b first lines hb hstart hfeed hmarker).mp (h b _ hb (by simp) hstart)
      fun line hline => (hsigns line hline).2
  · intro h b₁ b₂ hb hne hstart
    -- lines start at both ends of the text between, so it is whole lines
    have hwhole : startsLine b₂ = true := by
      rw [hb, startsLine_append b₁ hne] at hbefore
      exact hbefore
    obtain ⟨lines, hfeed, rfl⟩ := startsLine_iff.mp hwhole
    cases lines with
    | nil => exact absurd rfl hne
    | cons first lines =>
      obtain ⟨hfirst, hrest⟩ := List.forall_mem_cons.mp hfeed
      by_cases hmarker : isHashLine marker first = true
      · refine (hlines b₁ first lines hb hstart hfeed hmarker).mpr fun hsigns => h ?_
        exact ⟨b₁, first, lines, hstart, hmarker, hfirst,
          fun line hline => ⟨hrest line hline, hsigns line hline⟩, hb⟩
      · rw [hashAt?_eq_none_iff, Text.splitOn_wholeLines_append _ hfeed, List.cons_append,
          hashLinesAt?_eq_none_iff]
        exact fun h => absurd h hmarker

/-! ### A block in the place of another -/

/-- **What stands around a block does not keep it from being found:** no comment that is opened
before it is closed by it, and if it is made of hash lines, they are whole lines of the file and no
hash lines before them start a block. -/
def IsClear (style : Style) (before block after : Text) : Prop :=
  match style with
  | .jsdoc => ¬ OpensComment before
  | .hash => startsLine before = true ∧ ClosesLine after ∧ ¬ OpensLines before ∧
      (OpensComment before → ¬ closing <:+: block)

/-- How the text of a comment block starts and ends. -/
theorem exists_ofLines_jsdoc (newline : Text) (lines : List Text) : ∃ rest, closing <:+: rest ∧
    ofLines .jsdoc newline lines = "/**" ++ newline ++ ' ' :: rest := by
  let body := lines.map (commentLine " *")
  have hlast : Text.join newline (body ++ [(" */" : Text)]) =
      Text.join newline (body ++ [[' ']]) ++ closing :=
    Text.join_concat_append newline [' '] closing body
  have hbody : Text.join newline (commentLine " *" marker :: (body ++ [(" */" : Text)])) =
      ' ' :: ("* " ++ marker ++ newline ++ Text.join newline (body ++ [(" */" : Text)])) :=
    Text.join_cons_of_ne_nil _ _ (by simp)
  refine ⟨"* " ++ marker ++ newline ++ Text.join newline (body ++ [(" */" : Text)]), ?_, ?_⟩
  · rw [hlast, ← List.append_assoc]
    exact (List.suffix_append _ closing).isInfix
  · rw [← hbody]
    exact Text.join_cons_of_ne_nil newline "/**" (List.cons_ne_nil _ _)

/-- How the text of a hash block starts and ends. -/
theorem exists_ofLines_hash (newline : Text) (lines : List Text) :
    ∃ mid, ofLines .hash newline lines = '#' :: mid ++ ['x'] := by
  let body := lines.map (commentLine "#")
  have hlast : Text.join newline (body ++ [("# @end-ai-inde" : Text) ++ ['x']]) =
      Text.join newline (body ++ [("# @end-ai-inde" : Text)]) ++ ['x'] :=
    Text.join_concat_append newline _ ['x'] body
  refine ⟨" " ++ marker ++ newline ++ Text.join newline (body ++ [("# @end-ai-inde" : Text)]), ?_⟩
  have hopen : ofLines .hash newline lines = "# " ++ marker ++ newline ++
      Text.join newline (body ++ [("# @end-ai-inde" : Text) ++ ['x']]) :=
    Text.join_cons_of_ne_nil newline (commentLine "#" marker) (by simp)
  rw [hopen, hlast, ← List.append_assoc]
  rfl

/-- A line feed at the end of a text opens a line with nothing in it, which ends no block. -/
theorem hashAt?_append_lineFeed (t : Text) : hashAt? (t ++ ['\n']) = hashAt? t := by
  have hsplit : (t ++ ['\n']).splitOn '\n' = t.splitOn '\n' ++ [[]] :=
    List.splitOn_append_cons_self t []
  obtain ⟨line, lines, hlines⟩ := List.exists_cons_of_ne_nil (List.splitOnP_ne_nil (· == '\n') t)
  have hlines : t.splitOn '\n' = line :: lines := hlines
  rw [hashAt?_eq, hashAt?_eq, hsplit, hlines, List.cons_append, hashLinesAt?, hashLinesAt?,
    throughEndMarker_append lines rfl]

/-- The hash lines of a block are found where they start a line, up to the end of their last
line. -/
theorem hashAt?_ofLines_iff (h : newline.IsLineEnd)
    (hlines : ∀ line ∈ lines, IsBodyLine .hash line) :
    hashAt? (ofLines .hash newline lines ++ after) = some (ofLines .hash newline lines) ↔
      ClosesLine after := by
  constructor
  · intro hat
    obtain ⟨post, hpost, hcloses, -⟩ := exists_of_hashAt? hat
    rw [List.append_cancel_left hpost]
    exact hcloses
  · rintro (hends | rfl)
    · exact hashAt?_ofLines h hlines hends
    · -- a line feed after the carriage return opens one more line with nothing in it
      have hends : Text.EndsLine ['\r', '\n'] := Or.inr ⟨['\r', '\n'], [], Or.inr rfl, rfl⟩
      have htext : ofLines .hash newline lines ++ ['\r', '\n'] =
          ofLines .hash newline lines ++ ['\r'] ++ ['\n'] := by
        rw [List.append_assoc]
        rfl
      rw [← hashAt?_append_lineFeed, ← htext]
      exact hashAt?_ofLines h hlines hends

/-- **The first sign of a block** that is read. -/
theorem exists_cons_of_blockAt? {lineStart : Bool} (h : blockAt? lineStart t = some (style, raw)) :
    ∃ c rest, raw = c :: rest ∧ (c = '/' ∨ c = '#') := by
  -- a comment starts with a slash, and a block of lines with their sign
  rcases cases_of_blockAt? h with ⟨rfl, hat⟩ | ⟨rfl, -, hat⟩
  · obtain ⟨opening, rest, found, hopening, -, -, rfl⟩ := exists_of_jsdocAt? hat
    obtain ⟨tail, rfl, -⟩ := exists_cons_of_isOpening hopening
    exact ⟨'/', tail ++ found, rfl, Or.inl rfl⟩
  · rw [hashAt?_eq] at hat
    obtain ⟨lines, hlines, rfl⟩ := Option.map_eq_some_iff.mp hat
    cases hsplit : t.splitOn '\n' with
    | nil =>
      rw [hsplit] at hlines
      cases hlines
    | cons first others =>
      rw [hsplit, hashLinesAt?] at hlines
      split at hlines
      · next hmarker =>
        obtain ⟨kept, -, rfl⟩ := Option.map_eq_some_iff.mp hlines
        obtain ⟨indent, spaces, tail, -, -, rfl⟩ := exists_of_isHashLine hmarker
        -- the first line of the block starts with the sign, whatever lines follow
        cases kept with
        | nil =>
          rw [Text.join_singleton]
          exact ⟨'#', _, rfl, Or.inr rfl⟩
        | cons next kept =>
          rw [Text.join_cons_of_ne_nil _ _ (List.cons_ne_nil _ _)]
          exact ⟨'#', _, rfl, Or.inr rfl⟩
      · cases hlines

/-- **A block is found after a text** if it can be read there and none can be read before. -/
theorem locate?_append_iff : locate? (before ++ t) = some (before.length, style, raw) ↔
    blockAt? (startsLine before) t = some (style, raw) ∧
      (∀ b₁ b₂, before = b₁ ++ b₂ → b₂ ≠ [] → jsdocAt? (b₂ ++ t) = none) ∧
      (∀ b₁ b₂, before = b₁ ++ b₂ → b₂ ≠ [] → startsLine b₁ = true → hashAt? (b₂ ++ t) = none) := by
  rw [locate?_eq_some_iff]
  simp only [blockAt?_eq_none_iff]
  constructor
  · rintro ⟨before', t', heq, hlength, hat, hnone⟩
    obtain ⟨rfl, rfl⟩ := List.append_inj heq hlength
    exact ⟨hat, fun b₁ b₂ hb hne => (hnone b₁ b₂ hb hne).1,
      fun b₁ b₂ hb hne => (hnone b₁ b₂ hb hne).2⟩
  · rintro ⟨hat, hjsdoc, hhash⟩
    exact ⟨before, t, rfl, rfl, hat, fun b₁ b₂ hb hne => ⟨hjsdoc b₁ b₂ hb hne, hhash b₁ b₂ hb hne⟩⟩

/-- **A comment block in the place of another block is found** unless a comment is open before
it. -/
theorem locate?_replace_jsdoc_iff {style' : Style} (h : newline.IsLineEnd)
    (hlocate : locate? (before ++ (raw ++ after)) = some (before.length, style', raw))
    (hlines : ∀ line ∈ lines, IsBodyLine .jsdoc line) :
    let block := ofLines .jsdoc newline lines
    locate? (before ++ (block ++ after)) = some (before.length, .jsdoc, block) ↔
      ¬ OpensComment before := by
  intro block
  obtain ⟨-, -, hhashes⟩ := locate?_append_iff.mp hlocate
  rw [locate?_append_iff]
  obtain ⟨rest, hclosing, hblock⟩ := exists_ofLines_jsdoc newline lines
  have hlater : block ++ after = '/' :: ("**" ++ newline ++ ' ' :: rest ++ after) :=
    congrArg (· ++ after) hblock
  -- the comment can be read wherever it stands
  have hread : blockAt? (startsLine before) (block ++ after) = some (.jsdoc, block) := by
    rw [blockAt?, jsdocAt?_ofLines after h fun line hline => (hlines line hline).not_closing rfl]
  -- and no hash lines before it reach it
  have hnone : ∀ b₁ b₂, before = b₁ ++ b₂ → b₂ ≠ [] → startsLine b₁ = true →
      hashAt? (b₂ ++ (block ++ after)) = none := by
    intro b₁ b₂ hb hne hstart
    have hold := hashAt?_before_comment (rest ++ after) h (hhashes b₁ b₂ hb hne hstart)
    rw [← hold]
    congr 2
    exact (congrArg (· ++ after) hblock).trans (by simp)
  have hends : closing <:+: '/' :: ("**" ++ newline ++ ' ' :: rest ++ after) := by
    refine hclosing.trans ⟨"/**" ++ newline ++ [' '], after, ?_⟩
    simp
  rw [← jsdocAt?_before_of_closing (Or.inl rfl) hends, ← hlater]
  exact ⟨fun h => h.2.1, fun h => ⟨hread, h, hnone⟩⟩

/-- **A hash block in the place of another block is found** if it is whole lines of the file, no
hash lines before it start a block, and it does not close a comment that is open before it. -/
theorem locate?_replace_hash_iff {style' : Style} (h : newline.IsLineEnd)
    (hlocate : locate? (before ++ (raw ++ after)) = some (before.length, style', raw))
    (hlines : ∀ line ∈ lines, IsBodyLine .hash line) :
    let block := ofLines .hash newline lines
    locate? (before ++ (block ++ after)) = some (before.length, .hash, block) ↔
      startsLine before = true ∧ ClosesLine after ∧ ¬ OpensLines before ∧
        (OpensComment before → ¬ closing <:+: block) := by
  intro block
  obtain ⟨hat, hcomments, hhashes⟩ := locate?_append_iff.mp hlocate
  obtain ⟨c, old, rfl, hc⟩ := exists_cons_of_blockAt? hat
  rw [locate?_append_iff]
  obtain ⟨mid, hblock⟩ := exists_ofLines_hash newline lines
  have hlater : block ++ after = '#' :: (mid ++ 'x' :: after) :=
    (congrArg (· ++ after) hblock).trans (by simp)
  have hcomment := jsdocAt?_before_of_framed mid hc hcomments
  -- the block starts with no slash, so it is read as hash lines or not at all
  have hread : blockAt? (startsLine before) (block ++ after) = some (.hash, block) ↔
      startsLine before = true ∧ ClosesLine after := by
    have hslash : jsdocAt? (block ++ after) = none := by
      rw [hlater]
      rfl
    rw [blockAt?, hslash, ← hashAt?_ofLines_iff h hlines]
    cases startsLine before with
    | false => simp
    | true => simp [block]
  -- given that it is read, only hash lines before it can be in the way
  have hhash : startsLine before = true → ClosesLine after →
      ((∀ b₁ b₂, before = b₁ ++ b₂ → b₂ ≠ [] → startsLine b₁ = true →
        hashAt? (b₂ ++ (block ++ after)) = none) ↔ ¬ OpensLines before) := by
    intro hstart hends
    refine hashAt?_before_iff hstart ?_ hhashes
    rw [(hashAt?_ofLines_iff h hlines).mpr hends]
    exact Option.some_ne_none _
  rw [hlater] at hread hhash
  rw [hlater, hread, hcomment, ← hblock]
  constructor
  · rintro ⟨⟨hstart, hends⟩, hclosing, hnone⟩
    exact ⟨hstart, hends, (hhash hstart hends).mp hnone, hclosing⟩
  · rintro ⟨hstart, hends, hopens, hclosing⟩
    exact ⟨⟨hstart, hends⟩, hclosing, (hhash hstart hends).mpr hopens⟩

/-- **A block in the place of another is found** if and only if what stands around it is clear. -/
theorem locate?_replace_iff {style' : Style} (h : newline.IsLineEnd)
    (hlocate : locate? (before ++ (raw ++ after)) = some (before.length, style', raw))
    (hlines : ∀ line ∈ lines, IsBodyLine style line) :
    let block := ofLines style newline lines
    locate? (before ++ (block ++ after)) = some (before.length, style, block) ↔
      IsClear style before block after := by
  cases style with
  | jsdoc => exact locate?_replace_jsdoc_iff h hlocate hlines
  | hash => exact locate?_replace_hash_iff h hlocate hlines

end Block

end SectionIndex
