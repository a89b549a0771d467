import SectionIndex.Block.Finder
import SectionIndex.Block.Splice
import SectionIndex.Proofs.Block.Cell
import SectionIndex.Proofs.Block.Row

/-!
# Finding a block that was written

A block that is written at the top of a file, or after the line that names an interpreter, is the
first one that is found, with its style, and the whole of it is found and nothing more. It does
not matter what the sections are called, as long as their names stay in their lines, nor what
stands in the rest of the file.

## Main definitions

* `Block.IsBodyLine` — a line that can stand in a block.
* `Block.IsHead` — the line of an interpreter, or nothing.

## Main statements

* `Block.locate?_append` — the block that is found.
-/

namespace SectionIndex

namespace Block

open Text (IsLineEnd EndsLine)

variable {style : Style} {newline : Text}

/-! ### Documentation comments -/

/-- **A comment ends where it is first closed.** -/
theorem throughClosing_append {t : Text} (post : Text) (h : ¬ closing <:+: t ++ ['*']) :
    throughClosing (t ++ closing ++ post) = some (t ++ closing) := by
  induction t with
  | nil => rfl
  | cons c t ih =>
    rw [List.cons_append, List.infix_cons_iff, not_or] at h
    -- a star that starts the end would make the end stand earlier
    have hnot : ∀ rest, c = '*' → (t ++ closing ++ post) = '/' :: rest → False := by
      rintro rest rfl hslash
      cases t with
      | nil => exact absurd (List.cons.inj hslash).1 (by decide)
      | cons d t =>
        obtain rfl : d = '/' := (List.cons.inj hslash).1
        exact h.1 ⟨t ++ ['*'], rfl⟩
    rw [List.cons_append, List.cons_append, throughClosing.eq_3 _ _ hnot, ih h.2]
    rfl

/-- **The comment at the start of a text** is found up to where it is closed. -/
theorem jsdocAt?_append {body : Text} (post : Text) (h : newline.IsLineEnd)
    (hbody : ¬ closing <:+: body ++ ['*']) :
    jsdocAt? ("/**" ++ newline ++ " * " ++ marker ++ body ++ closing ++ post) =
      some ("/**" ++ newline ++ " * " ++ marker ++ body ++ closing) := by
  have hrest := throughClosing_append post hbody
  -- the line end and the space before the star are blanks, whichever line end it is
  have hstep : ∀ gap : Text, (∀ c ∈ gap, isBlank c = true) → '\n' ∈ gap →
      jsdocAt? ('/' :: '*' :: '*' :: gap ++ "* " ++ marker ++ body ++ closing ++ post) =
        some ('/' :: '*' :: '*' :: gap ++ "* " ++ marker ++ body ++ closing) := by
    intro gap hgap hfeed
    have htake : (gap ++ ('*' :: ' ' :: marker ++ body ++ closing ++ post)).takeWhile isBlank =
        gap := by
      rw [List.takeWhile_append_of_pos hgap]
      exact List.append_nil gap
    have hdrop : (gap ++ ('*' :: ' ' :: marker ++ body ++ closing ++ post)).dropWhile isBlank =
        '*' :: ' ' :: (marker ++ (body ++ closing ++ post)) := by
      rw [List.dropWhile_append_of_pos hgap]
      simp only [List.append_assoc]
      rfl
    have hopen : '/' :: '*' :: '*' :: gap ++ "* " ++ marker ++ body ++ closing ++ post =
        '/' :: '*' :: '*' :: (gap ++ ('*' :: ' ' :: marker ++ body ++ closing ++ post)) := by
      simp
    rw [hopen, jsdocAt?]
    simp only [htake, hdrop]
    -- the marker starts with no blank, so the indent is one space
    have hindent : (' ' :: (marker ++ (body ++ closing ++ post))).takeWhile isBlank = [' '] := rfl
    have hmarker : (' ' :: (marker ++ (body ++ closing ++ post))).dropWhile isBlank =
        marker ++ (body ++ closing ++ post) := rfl
    rw [hindent, hmarker, List.drop_left, hrest]
    simp [hfeed]
  rcases h with rfl | rfl
  · exact hstep ['\n', ' '] (by decide) (by decide)
  · exact hstep ['\r', '\n', ' '] (by decide) (by decide)

/-- No comment block starts in a line if what comes after its end is neither a blank nor a star. -/
theorem jsdocAt?_of_line {t : Text} {c : Char} (rest : Text) (ht : '\n' ∉ t)
    (hblank : isBlank c = false)
    (hstar : c ≠ '*') : jsdocAt? (t ++ '\n' :: c :: rest) = none := by
  unfold jsdocAt?
  split
  · next u heq =>
    -- the opening stands in the line itself
    obtain ⟨v, rfl, rfl⟩ : ∃ v, t = '/' :: '*' :: '*' :: v ∧ u = v ++ '\n' :: c :: rest := by
      rcases t with _ | ⟨a, _ | ⟨b, _ | ⟨d, v⟩⟩⟩ <;> simp_all
    have hv : '\n' ∉ v := by simp_all
    -- the blanks after the opening end in the line, or the character after the line ends them
    by_cases hall : ∀ d ∈ v, isBlank d = true
    · have hdrop : (v ++ '\n' :: c :: rest).dropWhile isBlank = c :: rest := by
        rw [List.dropWhile_append_of_pos hall, List.dropWhile_cons_of_pos rfl,
          List.dropWhile_cons_of_neg (by simp [hblank])]
      simp only [hdrop]
      split
      · next heq => exact absurd (List.cons.inj heq).1 hstar
      · rfl
    · -- the blanks after the opening end before the line does
      have hgap : '\n' ∉ (v ++ '\n' :: c :: rest).takeWhile isBlank := by
        rw [List.takeWhile_append, if_neg]
        · exact fun hmem => hv ((List.takeWhile_prefix _).subset hmem)
        · intro hlength
          refine hall fun d hd => ?_
          rw [← (List.takeWhile_prefix isBlank).eq_of_length hlength] at hd
          exact List.all_eq_true.mp List.all_takeWhile d hd
      simp only [hgap, false_and, if_false]
      split <;> rfl
  · rfl

/-! ### Hash lines -/

/-- A line of a block, before which no end mark stands. -/
theorem isHashLine_commentLine {line : Text} (hstrip : line.strip = line)
    (hmark : ¬ endMarker <+: line) (h : newline.IsLineEnd) :
    isHashLine endMarker (commentLine "#" line ++ newline.dropLast) = false := by
  unfold commentLine
  split
  · rcases h with rfl | rfl <;> rfl
  · next hne =>
    obtain ⟨c, t, rfl⟩ := List.exists_cons_of_ne_nil hne
    -- a trimmed line does not start with a space or a tab
    have hc : isInlineBlank c = false := by
      have hblank : isBlank c = false := (Text.trim_eq_self_iff.mp hstrip).1 c rfl
      rw [isInlineBlank, Bool.or_eq_false_iff, beq_eq_false_iff_ne, beq_eq_false_iff_ne]
      constructor <;> rintro rfl <;> exact absurd hblank (by decide)
    have hdrop : (' ' :: c :: t ++ newline.dropLast).dropWhile isInlineBlank =
        c :: t ++ newline.dropLast := by
      rw [List.cons_append, List.dropWhile_cons_of_pos rfl, List.cons_append,
        List.dropWhile_cons_of_neg (by simp [hc])]
    -- the end mark has no carriage return in it
    have hprefix : endMarker.isPrefixOf (c :: t ++ newline.dropLast) = false := by
      rw [Bool.eq_false_iff, ne_eq, List.isPrefixOf_iff_prefix]
      intro hp
      refine hmark ?_
      rcases h with rfl | rfl
      · exact (List.append_nil (c :: t)) ▸ hp
      · rcases List.prefix_concat_iff.mp hp with heq | hp
        · exact absurd (heq ▸ List.mem_concat_self : '\r' ∈ endMarker) (by decide)
        · exact hp
    show isHashLine endMarker ('#' :: (' ' :: c :: t ++ newline.dropLast)) = false
    rw [isHashLine]
    simp only [hdrop, hprefix, Bool.false_and]

/-- **A line that can stand in a block:** it is trimmed, it is one line, and it does not end the
block. -/
structure IsBodyLine (style : Style) (line : Text) : Prop where
  strip_eq : line.strip = line
  lineFeed_not_mem : '\n' ∉ line
  not_closing : style = .jsdoc → ¬ closing <:+: line
  endMarker_not_prefix : ¬ endMarker <+: line

theorem lineFeed_not_mem_commentLine {sign line : Text} (hsign : '\n' ∉ sign)
    (hline : '\n' ∉ line) :
    '\n' ∉ commentLine sign line := by
  unfold commentLine
  split
  · exact hsign
  · simp [hsign, hline]

/-- **The lines of a hash block** are found up to the end mark. -/
theorem throughEndMarker_splitOn {lines : List Text} {post : Text} (h : newline.IsLineEnd)
    (hlines : ∀ line ∈ lines, IsBodyLine .hash line) (hpost : EndsLine post) :
    ∃ found, throughEndMarker ((Text.join newline (lines.map (commentLine "#") ++
        [commentLine "#" endMarker]) ++ post).splitOn '\n') = some found ∧ found ≠ [] ∧
      Text.join ['\n'] found =
        Text.join newline (lines.map (commentLine "#") ++ [commentLine "#" endMarker]) := by
  -- the end mark is the first line that ends the block, and no line before it does
  induction lines with
  | nil =>
    refine ⟨[commentLine "#" endMarker], ?_, by simp, by simp⟩
    rcases hpost with rfl | ⟨after, rest, hafter, rfl⟩
    · rfl
    · rw [List.map_nil, List.nil_append, Text.join_singleton, ← List.append_assoc,
        Text.splitOn_append_newline _ (by decide) hafter]
      rcases hafter with rfl | rfl <;> rfl
  | cons line lines ih =>
    obtain ⟨hline, hlines⟩ := List.forall_mem_cons.mp hlines
    obtain ⟨found, hfound, hne, hjoin⟩ := ih hlines
    -- the pieces keep their carriage returns, so joining them gives the lines with their ends
    refine ⟨(commentLine "#" line ++ newline.dropLast) :: found, ?_, by simp, ?_⟩
    · have hhead : (commentLine "#" line ++ newline.dropLast).head? = some '#' := by
        unfold commentLine
        split <;> rfl
      rw [List.map_cons, List.cons_append, Text.join_cons_of_ne_nil _ _ (by simp),
        List.append_assoc,
        Text.splitOn_append_newline _
          (lineFeed_not_mem_commentLine (by decide) hline.lineFeed_not_mem) h,
        throughEndMarker, isHashLine_commentLine hline.strip_eq hline.endMarker_not_prefix h,
        if_neg (by decide), if_pos hhead, hfound]
      rfl
    · rw [Text.join_cons_of_ne_nil _ _ hne, hjoin, List.map_cons, List.cons_append,
        Text.join_cons_of_ne_nil _ _ (by simp), List.append_assoc (commentLine "#" line),
        h.dropLast_append]

theorem isHashLine_marker (h : newline.IsLineEnd) (rest : Text) :
    isHashLine marker ((commentLine "#" marker ++ newline ++ rest).takeWhile (· != '\n')) =
      true := by
  rcases h with rfl | rfl <;> rfl

/-! ### Blocks in files -/

/-- The text of a block with these lines after the marker. -/
def ofLines (style : Style) (newline : Text) (lines : List Text) : Text :=
  Text.join newline (blockLines style (marker :: lines))

theorem hashAt?_ofLines {lines : List Text} {post : Text} (h : newline.IsLineEnd)
    (hlines : ∀ line ∈ lines, IsBodyLine .hash line) (hpost : EndsLine post) :
    hashAt? (ofLines .hash newline lines ++ post) = some (ofLines .hash newline lines) := by
  obtain ⟨found, hfound, hne, hjoin⟩ := throughEndMarker_splitOn h hlines hpost
  have htext : ofLines .hash newline lines = commentLine "#" marker ++ newline ++
      Text.join newline (lines.map (commentLine "#") ++ [commentLine "#" endMarker]) := by
    rw [ofLines, blockLines, List.map_cons, List.cons_append,
      Text.join_cons_of_ne_nil _ _ (by simp)]
  have hmark := isHashLine_marker h
    (Text.join newline (lines.map (commentLine "#") ++ [commentLine "#" endMarker]) ++ post)
  rw [htext, hashAt?, List.append_assoc _ _ post, if_pos hmark,
    Text.splitOn_append_newline _ (by decide) h]
  simp only [hfound, Option.map_some]
  rw [Text.join_cons_of_ne_nil _ _ hne, hjoin, List.append_assoc (commentLine "#" marker),
    h.dropLast_append]

theorem jsdocAt?_ofLines {lines : List Text} (post : Text) (h : newline.IsLineEnd)
    (hlines : ∀ line ∈ lines, ¬ closing <:+: line) :
    jsdocAt? (ofLines .jsdoc newline lines ++ post) = some (ofLines .jsdoc newline lines) := by
  have hnewline : ∀ c ∈ closing, c ∉ newline := by rcases h with rfl | rfl <;> decide
  have htext : ofLines .jsdoc newline lines = "/**" ++ newline ++ " * " ++ marker ++
      (newline ++ Text.join newline (lines.map (commentLine " *") ++ [[' ']])) ++ closing := by
    have hlast := Text.join_concat_append newline [' '] closing (lines.map (commentLine " *"))
    rw [ofLines, blockLines, List.map_cons, List.cons_append, List.cons_append,
      Text.join_cons_of_ne_nil _ _ (by simp), Text.join_cons_of_ne_nil _ _ (by simp)]
    show _ ++ newline ++ (_ ++ newline ++ Text.join newline (_ ++ [[' '] ++ closing])) = _
    rw [hlast]
    simp only [List.append_assoc]
    rfl
  rw [htext]
  -- an end of the comment would stand in one of the lines, as its two characters are kept apart
  -- by a line end
  refine jsdocAt?_append post h fun hclosing => ?_
  rw [List.append_assoc] at hclosing
  have hclosing := Text.infix_of_append_right (by decide) hnewline hclosing
  rw [← Text.join_concat_append] at hclosing
  obtain ⟨line, hline, hclosing⟩ :=
    Text.exists_infix_of_join h.ne_nil (by decide) hnewline hclosing
  rw [List.mem_append, List.mem_map, List.mem_singleton] at hline
  rcases hline with ⟨line, hline, rfl⟩ | rfl
  · unfold commentLine at hclosing
    split at hclosing
    · exact absurd hclosing (by decide)
    -- the space after the sign keeps its star from ending the comment with a slash of the line
    · have hsign : " *" ++ ' ' :: line = [' ', '*'] ++ [' '] ++ line := rfl
      rw [hsign] at hclosing
      rcases Text.infix_or_of_append (by simp) (by decide) (by decide) hclosing
        with hclosing | hclosing
      · exact absurd hclosing (by decide)
      · exact hlines line hline hclosing
  · exact absurd hclosing (by decide)

/-- A comment is found where it starts, whatever the lines of its block are, if none closes it. -/
theorem locateFrom?_jsdoc {lines : List Text} (offset : Nat) (post : Text) (h : newline.IsLineEnd)
    (hlines : ∀ line ∈ lines, ¬ closing <:+: line) :
    locateFrom? offset true (ofLines .jsdoc newline lines ++ post) =
      some (offset, .jsdoc, ofLines .jsdoc newline lines) := by
  -- the comment is tried first, so nothing else can be found here
  have hat := jsdocAt?_ofLines post h hlines
  obtain ⟨t, ht⟩ : ∃ t, ofLines .jsdoc newline lines = '/' :: t :=
    ⟨_, Text.join_cons_of_ne_nil _ _ (by simp)⟩
  rw [ht, List.cons_append] at hat ⊢
  rw [locateFrom?, hat]

/-- **A block at the start of a line is found there.** After hash lines the line has to end. -/
theorem locateFrom?_ofLines {lines : List Text} {post : Text} (offset : Nat) (h : newline.IsLineEnd)
    (hlines : ∀ line ∈ lines, IsBodyLine style line) (hpost : style = .hash → EndsLine post) :
    locateFrom? offset true (ofLines style newline lines ++ post) =
      some (offset, style, ofLines style newline lines) := by
  cases style with
  | jsdoc =>
    exact locateFrom?_jsdoc offset post h fun line hline => (hlines line hline).not_closing rfl
  | hash =>
    have hat := hashAt?_ofLines h hlines (hpost rfl)
    obtain ⟨t, ht⟩ : ∃ t, ofLines .hash newline lines = '#' :: t :=
      ⟨_, Text.join_cons_of_ne_nil _ _ (by simp)⟩
    rw [ht, List.cons_append] at hat ⊢
    have hnot : jsdocAt? ('#' :: (t ++ post)) = none := rfl
    rw [locateFrom?, hnot]
    simp only [if_true, hat]

/-- No hash block starts with the line of an interpreter. -/
theorem hashAt?_of_interpreter (t : Text) : hashAt? ('#' :: '!' :: t) = none := by
  have hline : isHashLine marker ('#' :: '!' :: t.takeWhile (· != '\n')) = false := rfl
  rw [hashAt?, List.takeWhile_cons_of_pos (by decide), List.takeWhile_cons_of_pos (by decide),
    hline]
  rfl

/-- The line of an interpreter with its end, or nothing. -/
def IsHead (head : Text) : Prop :=
  head = [] ∨ ∃ line, '\n' ∉ line ∧ head = '#' :: '!' :: line ++ ['\n']

theorem isHead_interpreterLine (content : Text) : IsHead (interpreterLine content) := by
  unfold interpreterLine
  split
  · next h =>
    obtain ⟨t, rfl⟩ := List.isPrefixOf_iff_prefix.mp h.1
    refine Or.inr ⟨t.takeWhile (· != '\n'), fun hmem => ?_, rfl⟩
    have hnot := List.all_eq_true.mp List.all_takeWhile '\n' hmem
    exact absurd hnot (by decide)
  · exact Or.inl rfl

theorem locateFrom?_of_line {t rest : Text} {c : Char} (offset : Nat) (ht : '\n' ∉ t)
    (hblank : isBlank c = false) (hstar : c ≠ '*') :
    locateFrom? offset false (t ++ '\n' :: c :: rest) =
      locateFrom? (offset + t.length + 1) true (c :: rest) := by
  induction t generalizing offset with
  | nil =>
    have hnot := jsdocAt?_of_line rest ht hblank hstar
    rw [List.nil_append] at hnot ⊢
    rw [locateFrom?, hnot]
    rfl
  -- a comment that opened in the line would have to reach over its end
  | cons d t ih =>
    have hnot := jsdocAt?_of_line rest ht hblank hstar
    rw [List.mem_cons, not_or] at ht
    rw [List.cons_append] at hnot ⊢
    rw [locateFrom?, hnot]
    have hstart : (d == '\n') = false := beq_false_of_ne (Ne.symm ht.1)
    simp only [Bool.false_eq_true, if_false, hstart, ih _ ht.2, List.length_cons]
    congr 1
    omega

/-- **The block that is found** in a file is the one that was written at its top. -/
theorem locate?_append {head post : Text} {lines : List Text} (hhead : IsHead head)
    (h : newline.IsLineEnd) (hlines : ∀ line ∈ lines, IsBodyLine style line)
    (hpost : style = .hash → EndsLine post) :
    locate? (head ++ ofLines style newline lines ++ post) =
      some (head.length, style, ofLines style newline lines) := by
  rcases hhead with rfl | ⟨line, hline, rfl⟩
  · exact locateFrom?_ofLines 0 h hlines hpost
  · -- after an interpreter line the search goes on, one character at a time, up to the end of the
    -- line
    have hblock := locateFrom?_ofLines (line.length + 3) h hlines hpost
    obtain ⟨c, t, ht, hblank, hstar⟩ : ∃ c t, ofLines style newline lines = c :: t ∧
        isBlank c = false ∧ c ≠ '*' := by
      cases style with
      | jsdoc => exact ⟨'/', _, Text.join_cons_of_ne_nil _ _ (by simp), rfl, by decide⟩
      | hash => exact ⟨'#', _, Text.join_cons_of_ne_nil _ _ (by simp), rfl, by decide⟩
    have htext : '#' :: '!' :: line ++ ['\n'] ++ ofLines style newline lines ++ post =
        '#' :: ('!' :: line ++ '\n' :: c :: (t ++ post)) := by
      simp [ht]
    -- neither kind of block starts with the two signs, nor in the rest of the line
    have hbang : '\n' ∉ '!' :: line := by simp [hline]
    have hjsdoc := jsdocAt?_of_line (t ++ post)
      (by simp [hline] : '\n' ∉ '#' :: '!' :: line) hblank hstar
    have hhash : hashAt? ('#' :: '!' :: (line ++ '\n' :: c :: (t ++ post))) = none :=
      hashAt?_of_interpreter _
    have hstep : locateFrom? 0 true ('#' :: ('!' :: line ++ '\n' :: c :: (t ++ post))) =
        locateFrom? 1 false ('!' :: line ++ '\n' :: c :: (t ++ post)) := by
      rw [locateFrom?]
      rw [List.cons_append] at hjsdoc
      rw [hjsdoc]
      simp only [if_true, List.cons_append, hhash]
      rfl
    rw [locate?, htext, hstep, locateFrom?_of_line 1 hbang hblank hstar]
    rw [ht, List.cons_append] at hblock
    have hlength : 1 + ('!' :: line).length + 1 = line.length + 3 := by
      rw [List.length_cons]
      omega
    rw [hlength, hblock, ht]
    simp

end Block

end SectionIndex
