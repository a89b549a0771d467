import SectionIndex.Proofs.Text.Inserted
import SectionIndex.Proofs.Upkeep.Replacement

/-!
# What stands below a block

A block at the top of a file is read up to its last line, and what follows does not matter: a
comment ends where it is first closed, and hash lines end at the first end mark, as long as that
line ends where it did. So lines that are put into the file below the block leave it as it is.

## Main statements

* `Block.blockAt?_append_of_some` — a block is read whatever stands below it.
* `Block.locate?_of_isHead` — a block that can be read at the top of a file is found there.
* `Block.parse_insertLines` — new lines below a block leave it as it is.
-/

namespace SectionIndex

namespace Block

open Text (wholeLines EndsInside EndsLine)

variable {style : Style} {t raw found post post' head content newline core : Text}
  {lines new : List Text} {number : Nat}

/-! ### Comment blocks -/

/-- What is found up to the end of a comment is found whatever follows. -/
theorem throughClosing_append_of_some (post : Text) (h : throughClosing t = some found) :
    throughClosing (found ++ post) = some found := by
  -- by the cases of the search, with what is found so far put before the closing
  induction t using throughClosing.induct generalizing found with
  | case1 => cases h
  | case2 t =>
    cases h
    rfl
  | case3 c t hnot ih =>
    rw [throughClosing.eq_3 c t hnot] at h
    obtain ⟨rest, hrest, rfl⟩ := Option.map_eq_some_iff.mp h
    obtain ⟨body, after, rfl, rfl⟩ := exists_of_throughClosing hrest
    -- the signs that would end the comment earlier stand in what was found
    have hnot' : ∀ u, c = '*' → body ++ closing ++ post = '/' :: u → False := by
      intro u hc hslash
      refine hnot ((body ++ closing ++ after).tail) hc ?_
      cases body with
      | nil => exact absurd (List.cons.inj hslash).1 (by decide)
      | cons d body =>
        obtain rfl : d = '/' := (List.cons.inj hslash).1
        rfl
    rw [List.cons_append, throughClosing.eq_3 c _ hnot', ih hrest]
    rfl

/-- **A comment block is read** whatever stands below it. -/
theorem jsdocAt?_append_of_some (post : Text) (h : jsdocAt? t = some raw) :
    jsdocAt? (raw ++ post) = some raw := by
  obtain ⟨opening, rest, found, hopening, -, hfound, rfl⟩ := exists_of_jsdocAt? h
  rw [List.append_assoc, jsdocAt?_of_isOpening hopening, throughClosing_append_of_some post hfound]
  rfl

/-! ### Hash blocks -/

/-- **The line that such a text closes** has a carriage return at its end, or none. -/
theorem ClosesLine.exists_splitOn (h : ClosesLine post) (hcore : '\n' ∉ core) :
    ∃ tail after, (tail = [] ∨ tail = ['\r']) ∧
      (core ++ post).splitOn '\n' = (core ++ tail) :: after := by
  rcases h with (rfl | ⟨newline, rest, hnewline, rfl⟩) | rfl
  · refine ⟨[], [], Or.inl rfl, ?_⟩
    rw [List.append_nil, List.splitOn_eq_singleton hcore]
  · refine ⟨newline.dropLast, rest.splitOn '\n', ?_, ?_⟩
    · exact hnewline.imp (fun h => by rw [h]; rfl) (fun h => by rw [h]; rfl)
    · rw [← List.append_assoc, Text.splitOn_append_newline _ hcore hnewline]
  · refine ⟨['\r'], [], Or.inr rfl, ?_⟩
    rw [List.splitOn_eq_singleton]
    rw [List.mem_append, not_or]
    exact ⟨hcore, by decide⟩

/-- **A hash block is read** whatever stands below it, if its last line ends there. -/
theorem hashAt?_append_of_some (h : hashAt? t = some raw) (hpost : ClosesLine post) :
    hashAt? (raw ++ post) = some raw := by
  have hfeeds : ∀ line ∈ t.splitOn '\n', '\n' ∉ line := fun _ hline =>
    (Text.of_mem_splitOn hline).1
  rw [hashAt?_eq] at h ⊢
  obtain ⟨found, hfound, rfl⟩ := Option.map_eq_some_iff.mp h
  generalize t.splitOn '\n' = lines at hfound hfeeds
  cases lines with
  | nil => cases hfound
  | cons first lines =>
    rw [hashLinesAt?] at hfound
    split at hfound
    · next hmarker =>
      obtain ⟨kept, hkept, rfl⟩ := Option.map_eq_some_iff.mp hfound
      -- the lines that were kept end with one that holds the marker, whatever its end looks like
      obtain ⟨before, line, after, rfl, hsigns, hend, rfl⟩ := throughEndMarker_eq_some_iff.mp hkept
      obtain ⟨core, tail, rfl, htail, hcore, hline⟩ := exists_of_isHashLine_endMarker hend
      rw [← List.cons_append] at hfeeds
      obtain ⟨hbefore, hlast⟩ := List.forall_mem_append.mp hfeeds
      have hcoreFeed : '\n' ∉ core := fun hmem =>
        (List.forall_mem_cons.mp hlast).1 (List.mem_append_left _ hmem)
      -- the last line has the same text before its end
      obtain ⟨tail', after', htail', hsplit⟩ := hpost.exists_splitOn hcoreFeed
      have htext :
          Text.join ['\n'] (first :: (before ++ [Text.dropReturn (core ++ tail)])) ++ post =
            wholeLines (first :: before) ++ (core ++ post) := by
        rw [hcore.dropReturn_append htail, ← List.cons_append,
          Text.join_concat_eq_wholeLines hbefore hcoreFeed, List.append_assoc]
      rw [htext, Text.splitOn_wholeLines_append _ hbefore, hsplit, List.cons_append, hashLinesAt?,
        if_pos hmarker, throughEndMarker_eq_some_iff.mpr
          ⟨before, core ++ tail', after', rfl, hsigns, hline tail' htail', rfl⟩,
        hcore.dropReturn_append htail, hcore.dropReturn_append htail']
      rfl
    · cases hfound

/-- Where a hash block is read no comment starts. -/
theorem jsdocAt?_of_hashAt? (h : hashAt? t = some raw) : jsdocAt? t = none := by
  rw [hashAt?] at h
  split at h
  · next hmarker =>
    obtain ⟨indent, spaces, tail, -, -, htake⟩ := exists_of_isHashLine hmarker
    obtain ⟨rest, hrest⟩ := htake ▸ List.takeWhile_prefix (l := t) (· != '\n')
    rw [← hrest]
    rfl
  · cases h

/-! ### Blocks at the top of a file -/

/-- **A block is read whatever stands below it**, if its last line ends there. -/
theorem blockAt?_append_of_some {lineStart : Bool} (h : blockAt? lineStart t = some (style, raw))
    (hpost : style = .hash → ClosesLine post) :
    blockAt? lineStart (raw ++ post) = some (style, raw) := by
  rcases cases_of_blockAt? h with ⟨rfl, hat⟩ | ⟨rfl, rfl, hat⟩
  · rw [blockAt?, jsdocAt?_append_of_some post hat]
  · have hread := hashAt?_append_of_some hat (hpost rfl)
    rw [blockAt?, jsdocAt?_of_hashAt? hread, if_pos rfl, hread]
    rfl

theorem IsHead.startsLine_eq (h : IsHead head) : startsLine head = true := by
  rcases h with rfl | ⟨line, -, rfl⟩
  · rfl
  · rw [startsLine_append _ (List.cons_ne_nil _ _)]
    rfl

/-- **A block that can be read at the top of a file**, or below the line of an interpreter, is the
first one of the file. -/
theorem locate?_of_isHead (hhead : IsHead head) (hat : blockAt? true t = some (style, raw)) :
    locate? (head ++ t) = some (head.length, style, raw) := by
  obtain ⟨c, rest, hraw, hc⟩ := exists_cons_of_blockAt? hat
  obtain ⟨post, rfl, -⟩ := exists_of_blockAt? hat
  rw [hraw, List.cons_append] at hat ⊢
  have hstart := hhead.startsLine_eq
  rcases hhead with rfl | ⟨line, hline, rfl⟩
  · -- at the top of a file there is nothing before the block in which another could start
    refine locate?_append_iff.mpr ⟨hat, ?_, ?_⟩
    · exact fun b₁ b₂ hb hne => absurd (List.append_eq_nil_iff.mp hb.symm).2 hne
    · exact fun b₁ b₂ hb hne => absurd (List.append_eq_nil_iff.mp hb.symm).2 hne
  · have hfeed : '\n' ∉ '#' :: '!' :: line := by simp [hline]
    -- what is left of the line ends with its line feed
    have hrest : ∀ b₁ b₂ : Text, '#' :: '!' :: line ++ ['\n'] = b₁ ++ b₂ → b₂ ≠ [] →
        ∃ u, b₂ = u ++ ['\n'] ∧ '#' :: '!' :: line = b₁ ++ u := by
      intro b₁ b₂ hb hne
      rcases List.eq_nil_or_concat b₂ with rfl | ⟨u, d, rfl⟩
      · exact absurd rfl hne
      · rw [List.concat_eq_append, ← List.append_assoc] at hb
        obtain ⟨heq, hd⟩ := List.append_inj' hb rfl
        exact ⟨u, by rw [List.concat_eq_append, ← hd], heq⟩
    refine locate?_append_iff.mpr ⟨hstart ▸ hat, ?_, ?_⟩
    · intro b₁ b₂ hb hne
      obtain ⟨u, rfl, heq⟩ := hrest b₁ b₂ hb hne
      rw [List.append_assoc, List.singleton_append]
      refine jsdocAt?_of_line _ (fun hmem => hfeed (heq ▸ List.mem_append_right _ hmem)) ?_ ?_
      · rcases hc with rfl | rfl <;> rfl
      · rcases hc with rfl | rfl <;> decide
    · -- only the line of the interpreter itself starts a line
      intro b₁ b₂ hb hne hlineStart
      obtain ⟨u, rfl, heq⟩ := hrest b₁ b₂ hb hne
      obtain ⟨lines, -, rfl⟩ := startsLine_iff.mp hlineStart
      cases lines with
      | nil =>
        rw [Text.wholeLines_nil, List.nil_append] at heq
        rw [← heq]
        exact hashAt?_of_interpreter _
      | cons l lines =>
        refine absurd ?_ hfeed
        rw [heq, Text.wholeLines_cons]
        simp

/-- What is read of a block does not depend on what stands below it. -/
theorem parse_append (h : locate? (head ++ (raw ++ post)) = some (head.length, style, raw))
    (h' : locate? (head ++ (raw ++ post')) = some (head.length, style, raw)) :
    parse (head ++ (raw ++ post')) = parse (head ++ (raw ++ post)) := by
  simp only [parse, h, h', List.take_left]

/-! ### New lines below a block -/

/-- A line that ends in a text ends there whatever follows the text. -/
theorem ClosesLine.of_lineFeed_mem {u rest : Text} (rest' : Text) (h : ClosesLine (u ++ rest))
    (hu : '\n' ∈ u) : ClosesLine (u ++ rest') := by
  rcases h with (hnil | ⟨newline, r, hnewline, heq⟩) | heq
  · rw [(List.append_eq_nil_iff.mp hnil).1] at hu
    cases hu
  · refine Or.inl (Or.inr ?_)
    -- the line end stands in the text, as the carriage return alone is no line feed
    rcases hnewline with rfl | rfl
    · cases u with
      | nil => cases hu
      | cons c u =>
        obtain rfl := (List.cons.inj heq).1
        exact ⟨['\n'], u ++ rest', Or.inl rfl, rfl⟩
    · rcases u with _ | ⟨c, _ | ⟨d, u⟩⟩
      · cases hu
      · obtain rfl := (List.cons.inj heq).1
        exact absurd hu (by decide)
      · obtain ⟨rfl, htail⟩ := List.cons.inj heq
        obtain rfl := (List.cons.inj htail).1
        exact ⟨['\r', '\n'], u ++ rest', Or.inr rfl, rfl⟩
  · refine absurd (heq ▸ List.mem_append_left rest hu) (by decide)

/-- A line that ends at the end of a text ends there with the line end that is missing. -/
theorem ClosesLine.append_missingEnd (rest : Text) (h : newline.IsLineEnd)
    (hpost : ClosesLine post) :
    ClosesLine (post ++ (Text.missingEnd newline (head ++ (raw ++ post)) ++ rest)) := by
  rcases hpost with (rfl | ⟨ending, r, hending, rfl⟩) | rfl
  · rw [List.nil_append]
    exact Or.inl ((Text.isLineEnd_missingEnd h _).endsLine_append rest)
  · rw [List.append_assoc]
    exact Or.inl (hending.endsLine_append _)
  · -- the carriage return at the end is half of a line end already
    have hlast : (head ++ (raw ++ ['\r'])).getLast? = some '\r' := by
      rw [← List.append_assoc, List.getLast?_concat]
    rw [Text.missingEnd, if_pos hlast]
    exact Or.inl (Or.inr ⟨['\r', '\n'], rest, Or.inr rfl, rfl⟩)

/-- **New lines below a block leave it as it is**, if the block stands at the top of the file or
below the line of an interpreter. -/
theorem parse_insertLines {b : Block} (hparse : parse content = .ok (some b))
    (hstart : b.start = 0 ∨ b.start = (interpreterLine content).length)
    (hnewline : newline.IsLineEnd) (hnew : ∀ line ∈ new, '\n' ∉ line)
    (hbelow : b.lastLine < number) :
    parse (Text.insertLines newline new number content) = .ok (some b) := by
  obtain ⟨hcontent, hlength, hlocate⟩ := exists_eq_of_parse hparse
  obtain ⟨-, -, hfirst, hlast⟩ := exists_of_parse hparse
  have hhead : IsHead (content.take b.start) := by
    rcases hstart with hzero | hline
    · rw [hzero]
      exact Or.inl rfl
    · have hprefix : interpreterLine content <+: content :=
        ⟨_, interpreterLine_append_bodyOf content⟩
      rw [hline, ← List.prefix_iff_eq_take.mp hprefix]
      exact isHead_interpreterLine content
  -- the block with what stands around it, and the lines that it takes
  generalize content.take b.start = head at hcontent hlength hfirst hhead
  generalize content.drop b.stop = post at hcontent
  subst hcontent
  rw [← hlength] at hlocate
  have hat : blockAt? true (b.raw ++ post) = some (b.style, b.raw) := by
    have hat := (locate?_append_iff.mp hlocate).1
    rwa [hhead.startsLine_eq] at hat
  obtain ⟨post₀, hpost₀, -, hcloses⟩ := exists_of_blockAt? hat
  obtain rfl := List.append_cancel_left hpost₀
  -- it is enough that the last line of the block still ends
  have hbelowAny : ∀ post', (b.style = .hash → ClosesLine post') →
      parse (head ++ (b.raw ++ post')) = .ok (some b) := by
    intro post' hpost'
    rw [parse_append hlocate (locate?_of_isHead hhead (blockAt?_append_of_some hat hpost')), hparse]
  have hpieces : ∀ line ∈ new, '\n' ∉ line ++ newline.dropLast :=
    fun line hline => hnewline.lineFeed_not_mem_append (hnew line hline)
  rcases Text.insertLines_cases newline hpieces number (head ++ (b.raw ++ post)) with
    ⟨before, rest, hbefore, hcount, htext, hinsert⟩ | ⟨-, -, -, -, -, -, hinsert⟩
  · -- whole lines before the new ones reach over the end of the block
    have hfeeds := Text.count_wholeLines hbefore
    obtain ⟨u, hu, hrest⟩ : ∃ u, wholeLines before = (head ++ b.raw) ++ u ∧ post = u ++ rest := by
      rw [← List.append_assoc] at htext
      rcases List.append_eq_append_iff.mp htext with ⟨u, hu, hrest⟩ | ⟨u, hu, hrest⟩
      · exact ⟨u, hu, hrest⟩
      · have hle : (wholeLines before).count '\n' ≤ (head ++ b.raw).count '\n' := by
          rw [hu, List.count_append]
          exact Nat.le_add_right _ _
        rw [List.count_append] at hle
        omega
    have hfeed : '\n' ∈ u := by
      rw [← List.count_pos_iff]
      rw [hu, List.count_append, List.count_append] at hfeeds
      omega
    rw [hinsert, hu, List.append_assoc, List.append_assoc]
    exact hbelowAny _ fun hstyle => ClosesLine.of_lineFeed_mem _ (hrest ▸ hcloses hstyle) hfeed
  · rw [hinsert]
    simp only [List.append_assoc]
    exact hbelowAny _ fun hstyle =>
      ClosesLine.append_missingEnd _ hnewline (hcloses hstyle)

end Block

end SectionIndex
