import SectionIndex.Proofs.Block.RoundTrip
import SectionIndex.Proofs.Block.Search
import SectionIndex.Proofs.Text.Pieces
import SectionIndex.Proofs.Text.Returns

/-!
# Blocks in texts with carriage returns

A text that ends its lines with a carriage return and a line feed has the block of the text that
ends them with a line feed alone: it stands between the same characters, and the same is read of
it.

## Main definitions

* `Block.withReturns` — a block of a text, as it stands in the text with carriage returns.

## Main statements

* `Block.locate?_withReturns` — the block that is found.
* `Block.parse_withReturns` — what is read of it.
-/

namespace SectionIndex

namespace Block

open Text (withReturns returnsBetween)

variable {content t : Text}

/-! ### Comment blocks -/

theorem throughClosing_withReturns (t : Text) :
    throughClosing (withReturns t) = (throughClosing t).map withReturns := by
  induction t using throughClosing.induct with
  | case1 => rfl
  | case2 t => rfl
  | case3 c t hnot ih =>
    by_cases hc : c = '\n'
    · -- a line end becomes two characters, and neither of them is a star
      subst hc
      rw [Text.withReturns_lineFeed, throughClosing.eq_3 '\r' _ (fun _ h => by cases h),
        throughClosing.eq_3 '\n' _ (fun _ h => by cases h), throughClosing.eq_3 _ t hnot, ih,
        Option.map_map, Option.map_map, Option.map_map]
      rfl
    · -- a star with a slash after it would stand in the text without carriage returns
      have hnot' : ∀ rest, c = '*' → withReturns t = '/' :: rest → False := by
        intro rest hstar hslash
        obtain ⟨s, rfl, -⟩ := Text.exists_of_withReturns_eq_cons hslash (by decide)
        exact hnot s hstar rfl
      rw [Text.withReturns_cons _ hc, throughClosing.eq_3 c _ hnot', throughClosing.eq_3 c t hnot,
        ih, Option.map_map, Option.map_map]
      exact Option.map_congr fun found _ => (Text.withReturns_cons found hc).symm

/-- What is read after the sign of a documentation comment. -/
theorem jsdocAt?_sign_withReturns (t : Text) :
    jsdocAt? (withReturns ('/' :: '*' :: '*' :: t)) =
      (jsdocAt? ('/' :: '*' :: '*' :: t)).map withReturns := by
  have hblank : isBlank '\r' = true ∧ isBlank '\n' = true := ⟨rfl, rfl⟩
  have hmarker : withReturns marker = marker := Text.withReturns_of_not_mem (by decide)
  have hsign : withReturns ('/' :: '*' :: '*' :: t) = '/' :: '*' :: '*' :: withReturns t := rfl
  rw [hsign, jsdocAt?, jsdocAt?]
  -- a carriage return is as blank as a line feed, so the gaps are alike but for it
  simp only [Text.takeWhile_withReturns_of_pos _ hblank.1 hblank.2,
    Text.dropWhile_withReturns_of_pos _ hblank.1 hblank.2, Text.lineFeed_mem_withReturns_iff]
  generalize t.takeWhile isBlank = gap
  cases t.dropWhile isBlank with
  | nil => rfl
  | cons c body =>
    by_cases hstar : c = '*'
    · subst hstar
      have hbody : withReturns ('*' :: body) = '*' :: withReturns body := rfl
      simp only [hbody, Text.takeWhile_withReturns_of_pos _ hblank.1 hblank.2,
        Text.dropWhile_withReturns_of_pos _ hblank.1 hblank.2, List.isPrefixOf_iff_prefix,
        Text.isPrefix_withReturns_iff (by decide : '\r' ∉ marker) (by decide : '\n' ∉ marker)]
      split
      · next hopen =>
        rw [Text.drop_withReturns (by decide) hopen.2, throughClosing_withReturns, Option.map_map,
          Option.map_map]
        refine Option.map_congr fun found _ => ?_
        have hindent : withReturns ('*' :: body.takeWhile isBlank) =
            '*' :: withReturns (body.takeWhile isBlank) := rfl
        have hgap : withReturns ('/' :: '*' :: '*' :: gap) =
            '/' :: '*' :: '*' :: withReturns gap := rfl
        simp only [Function.comp_apply, Text.withReturns_append, hgap, hindent, hmarker]
      · rfl
    · -- a line end is no star either
      have hhead : ∀ rest, withReturns (c :: body) = '*' :: rest → False := fun rest hrest =>
        hstar (List.cons.inj (Text.exists_of_withReturns_eq_cons hrest (by decide)).choose_spec.1).1
      split
      · next hrest => exact (hhead _ hrest).elim
      · split
        · next hrest => exact absurd (List.cons.inj hrest).1 hstar
        · rfl

/-- **The comment block at the start of a text** with carriage returns. -/
theorem jsdocAt?_withReturns (t : Text) :
    jsdocAt? (withReturns t) = (jsdocAt? t).map withReturns := by
  by_cases hsign : ∃ u, t = '/' :: '*' :: '*' :: u
  · obtain ⟨u, rfl⟩ := hsign
    exact jsdocAt?_sign_withReturns u
  · -- without the sign at its start neither text has a block there
    have hnone : ∀ u, (¬ ∃ v, u = '/' :: '*' :: '*' :: v) → jsdocAt? u = none := by
      intro u hu
      unfold jsdocAt?
      split
      · next v => exact absurd ⟨v, rfl⟩ hu
      · rfl
    rw [hnone t hsign, hnone (withReturns t)]
    · rfl
    · rintro ⟨v, hv⟩
      obtain ⟨t, rfl, hsecond⟩ := Text.exists_of_withReturns_eq_cons hv (by decide)
      obtain ⟨t, rfl, hthird⟩ := Text.exists_of_withReturns_eq_cons hsecond.symm (by decide)
      obtain ⟨t, rfl, -⟩ := Text.exists_of_withReturns_eq_cons hthird.symm (by decide)
      exact hsign ⟨t, rfl⟩

/-! ### Hash blocks -/

variable {word line : Text} {lines : List Text}

/-- A carriage return at the end of a line changes nothing about the mark in it. -/
theorem isHashLine_concat_return (hword : '\r' ∉ word) (hline : '\r' ∉ line) :
    isHashLine word (line ++ ['\r']) = isHashLine word line := by
  cases line with
  | nil => rfl
  | cons c t =>
    by_cases hc : c = '#'
    · subst hc
      have ht : '\r' ∉ t := fun h => hline (List.mem_cons_of_mem _ h)
      have hreturn : isInlineBlank '\r' = false := rfl
      -- the blanks of the line are passed over, and the carriage return is no blank of it
      have hdrop : ∀ u : Text, (u ++ ['\r']).dropWhile isInlineBlank =
          u.dropWhile isInlineBlank ++ ['\r'] := fun u =>
        Text.dropWhile_append_of_stop (Or.inr (by rintro _ ⟨⟩; exact hreturn))
      rw [List.cons_append, isHashLine, isHashLine]
      simp only [hdrop]
      generalize hbody : t.dropWhile isInlineBlank = body
      have hnot : '\r' ∉ body := fun h =>
        ht ((List.dropWhile_sublist isInlineBlank).subset (hbody ▸ h))
      have hsame : word.isPrefixOf (body ++ ['\r']) = word.isPrefixOf body := by
        rw [Bool.eq_iff_iff, List.isPrefixOf_iff_prefix, List.isPrefixOf_iff_prefix,
          List.prefix_concat_iff]
        exact ⟨fun h => h.resolve_left fun heq => hword (heq ▸ List.mem_concat_self), Or.inr⟩
      rw [hsame]
      cases hstart : word.isPrefixOf body with
      | false => rfl
      | true =>
        -- after the word the line has no carriage return of its own, so only the new one is left to
        -- pass over
        have hlength : word.length ≤ body.length :=
          (List.isPrefixOf_iff_prefix.mp hstart).length_le
        rw [List.drop_append_of_le_length hlength, hdrop]
        generalize hrest : (body.drop word.length).dropWhile isInlineBlank = rest
        have hlast : '\r' ∉ rest := fun h => hnot (List.mem_of_mem_drop
          ((List.dropWhile_sublist isInlineBlank).subset (hrest ▸ h)))
        cases rest with
        | nil => rfl
        | cons d rest =>
          have hd : (d == '\r') = false :=
            beq_false_of_ne fun h => hlast (h ▸ List.mem_cons_self)
          simp [hd]
    · unfold isHashLine
      split
      · next heq => exact absurd (List.cons.inj heq).1 hc
      · split
        · next heq => exact absurd (List.cons.inj heq).1 hc
        · rfl

theorem throughEndMarker_returnsBetween (h : ∀ line ∈ lines, '\r' ∉ line) :
    throughEndMarker (returnsBetween lines) = (throughEndMarker lines).map returnsBetween := by
  induction lines with
  | nil => rfl
  | cons line lines ih =>
    obtain ⟨hline, hlines⟩ := List.forall_mem_cons.mp h
    by_cases hne : lines = []
    · subst hne
      -- one line alone ends the text, so it gets no carriage return
      have hone : returnsBetween [line] = [line] := rfl
      rw [hone, throughEndMarker]
      split
      · rfl
      · split <;> rfl
    · -- none of the three tests of a line sees its carriage return
      have hmark : isHashLine endMarker (line ++ ['\r']) = isHashLine endMarker line :=
        isHashLine_concat_return (by decide) hline
      have hsign : (line ++ ['\r']).head? = some '#' ↔ line.head? = some '#' := by
        cases line <;> simp
      have hdrop : Text.dropReturn (line ++ ['\r']) = Text.dropReturn line := by
        rw [Text.dropReturn_of_not_mem hline, Text.dropReturn, if_pos List.getLast?_concat,
          List.dropLast_concat]
      rw [Text.returnsBetween_cons line hne, throughEndMarker, throughEndMarker, hmark, hdrop]
      simp only [hsign]
      split
      · rfl
      · split
        · rw [ih hlines, Option.map_map, Option.map_map]
          refine Option.map_congr fun found hfound => ?_
          -- what is found is not empty, so the line before it keeps its carriage return
          have hfound : found ≠ [] := by
            obtain ⟨before, last, after, -, -, -, rfl⟩ := throughEndMarker_eq_some_iff.mp hfound
            exact List.append_ne_nil_of_right_ne_nil _ (List.cons_ne_nil _ _)
          exact (Text.returnsBetween_cons line hfound).symm
        · rfl

/-- **The hash block at the start of a text** with carriage returns. -/
theorem hashAt?_withReturns (h : '\r' ∉ t) :
    hashAt? (withReturns t) = (hashAt? t).map withReturns := by
  have hreturn : ∀ line ∈ t.splitOn '\n', '\r' ∉ line :=
    fun line => Text.return_not_mem_of_mem_splitOn h
  have hfeed : ∀ line ∈ t.splitOn '\n', '\n' ∉ line :=
    fun line hline => (Text.of_mem_splitOn hline).1
  rw [hashAt?_eq, hashAt?_eq, Text.splitOn_withReturns]
  generalize t.splitOn '\n' = lines at hreturn hfeed
  -- the lines that are found have no line feed in them, so they can be joined with one
  have hkept : ∀ {lines found : List Text}, throughEndMarker lines = some found →
      (∀ line ∈ lines, '\n' ∉ line) → ∀ line ∈ found, '\n' ∉ line := by
    intro lines found hfound hlines line hline
    obtain ⟨before, last, after, rfl, -, -, rfl⟩ := throughEndMarker_eq_some_iff.mp hfound
    rcases List.mem_append.mp hline with hline | hline
    · exact hlines line (List.mem_append_left _ hline)
    · rw [List.mem_singleton.mp hline]
      refine fun hmem => hlines last (by simp) ?_
      unfold Text.dropReturn at hmem
      split at hmem
      · exact List.dropLast_subset _ hmem
      · exact hmem
  -- the first line has to hold the marker, and the others are searched for the end mark
  cases lines with
  | nil => rfl
  | cons line lines =>
    obtain ⟨hline, hlines⟩ := List.forall_mem_cons.mp hreturn
    by_cases hne : lines = []
    · -- a single line holds no end mark after its marker
      subst hne
      have hone : returnsBetween [line] = [line] := rfl
      rw [hone, hashLinesAt?]
      split <;> rfl
    · -- other lines follow the first one, so it gets a carriage return, which hides no marker
      rw [Text.returnsBetween_cons line hne, hashLinesAt?, hashLinesAt?,
        isHashLine_concat_return (by decide) hline]
      split
      · rw [throughEndMarker_returnsBetween hlines, Option.map_map, Option.map_map, Option.map_map,
          Option.map_map]
        refine Option.map_congr fun found hfound => ?_
        have hfeeds := hkept hfound (List.forall_mem_cons.mp hfeed).2
        have hfound : found ≠ [] := by
          obtain ⟨before, last, after, -, -, -, rfl⟩ := throughEndMarker_eq_some_iff.mp hfound
          exact List.append_ne_nil_of_right_ne_nil _ (List.cons_ne_nil _ _)
        simp only [Function.comp_apply]
        rw [← Text.returnsBetween_cons line hfound, Text.withReturns_join_lineFeed
          (List.forall_mem_cons.mpr ⟨(List.forall_mem_cons.mp hfeed).1, hfeeds⟩)]
      · rfl

/-! ### The first block -/

theorem blockAt?_withReturns (lineStart : Bool) (h : '\r' ∉ t) :
    blockAt? lineStart (withReturns t) =
      (blockAt? lineStart t).map fun found => (found.1, withReturns found.2) := by
  unfold blockAt?
  rw [jsdocAt?_withReturns]
  cases jsdocAt? t with
  | some raw => rfl
  | none =>
    cases lineStart with
    | false => rfl
    | true =>
      simp only [if_true, Option.map_none, hashAt?_withReturns h, Option.map_map]
      rfl

/-- **The first block** is found at the same place: between it and the start of the text there are
as many carriage returns more as there are lines. -/
theorem locateFrom?_withReturns (offset offset' : Nat) (lineStart : Bool) (h : '\r' ∉ t) :
    locateFrom? offset' lineStart (withReturns t) =
      (locateFrom? offset lineStart t).map fun found =>
        (offset' + (withReturns (t.take (found.1 - offset))).length, found.2.1,
          withReturns found.2.2) := by
  -- by induction on the text, with both offsets and the place in the line as parameters
  induction t generalizing offset offset' lineStart with
  | nil => rfl
  | cons c t ih =>
    have ht : '\r' ∉ t := fun hmem => h (List.mem_cons_of_mem _ hmem)
    have hat := blockAt?_withReturns lineStart h
    -- a block that starts later starts after this character
    have hlater : ∀ {found : Nat × Style × Text} {lineStart : Bool},
        locateFrom? (offset + 1) lineStart t = some found →
          (c :: t).take (found.1 - offset) = c :: t.take (found.1 - (offset + 1)) := by
      intro found lineStart hfound
      obtain ⟨before, after, -, hstart, -⟩ := locateFrom?_eq_some_iff.mp hfound
      have hnext : found.1 - offset = found.1 - (offset + 1) + 1 := by omega
      rw [hnext, List.take_succ_cons]
    by_cases hc : c = '\n'
    · -- no block starts at a line end, nor at either of the two characters that it becomes
      subst hc
      have hnone : ∀ lineStart, blockAt? lineStart ('\n' :: t) = none := fun lineStart => by
        cases lineStart <;> rfl
      have hfeed : ∀ lineStart u, blockAt? lineStart ('\n' :: u) = none := fun lineStart u => by
        cases lineStart <;> rfl
      have hreturn : ∀ lineStart u, blockAt? lineStart ('\r' :: u) = none := fun lineStart u => by
        cases lineStart <;> rfl
      rw [Text.withReturns_lineFeed, locateFrom?_cons, hreturn, locateFrom?_cons]
      simp only
      rw [locateFrom?_cons, hfeed, hfeed]
      simp only
      rw [ih (offset + 1) (offset' + 1 + 1) _ ht]
      refine Option.map_congr fun found hfound => ?_
      rw [hlater hfound, Text.withReturns_lineFeed, List.length_cons, List.length_cons]
      congr 1
      omega
    · -- any other character stays as it is, and a block starts there in both texts or in neither
      rw [Text.withReturns_cons _ hc] at hat ⊢
      rw [locateFrom?_cons, locateFrom?_cons, hat]
      cases blockAt? lineStart (c :: t) with
      | some found =>
        simp only [Option.map_some, Nat.sub_self, List.take_zero, Text.withReturns_nil,
          List.length_nil, Nat.add_zero]
      | none =>
        simp only [Option.map_none]
        rw [ih (offset + 1) (offset' + 1) _ ht]
        refine Option.map_congr fun found hfound => ?_
        rw [hlater hfound, Text.withReturns_cons _ hc, List.length_cons]
        congr 1
        omega

theorem locate?_withReturns (h : '\r' ∉ content) :
    locate? (withReturns content) = (locate? content).map fun found =>
      ((withReturns (content.take found.1)).length, found.2.1, withReturns found.2.2) := by
  rw [locate?, locateFrom?_withReturns 0 0 true h]
  simp only [Nat.zero_add, Nat.sub_zero]
  rfl

/-! ### What a block says -/

section Values

variable {label : Text} {members : Char → Bool}

theorem valueAt?_withReturns (t : Text) (hlabel : '\r' ∉ label ∧ '\n' ∉ label)
    (hmembers : members '\r' = false ∧ members '\n' = false) :
    valueAt? label members (withReturns t) = valueAt? label members t := by
  have hsame : label.isPrefixOf (withReturns t) = label.isPrefixOf t := by
    rw [Bool.eq_iff_iff, List.isPrefixOf_iff_prefix, List.isPrefixOf_iff_prefix]
    exact Text.isPrefix_withReturns_iff hlabel.1 hlabel.2
  unfold valueAt?
  rw [hsame]
  split
  · next hstart =>
    rw [Text.drop_withReturns hlabel.2 (List.isPrefixOf_iff_prefix.mp hstart)]
    simp only [Text.takeWhile_withReturns_of_pos _ (p := isBlank) rfl rfl,
      Text.dropWhile_withReturns_of_pos _ (p := isBlank) rfl rfl,
      Text.takeWhile_withReturns_of_neg _ hmembers.1 hmembers.2, ne_eq,
      Text.withReturns_eq_nil_iff]
  · rfl

/-- **The value after a label** has no line end in it, so it is the same. -/
theorem valueAfter?_withReturns (t : Text) (hne : label ≠ [])
    (hlabel : '\r' ∉ label ∧ '\n' ∉ label)
    (hmembers : members '\r' = false ∧ members '\n' = false) :
    valueAfter? label members (withReturns t) = valueAfter? label members t := by
  obtain ⟨d, label, rfl⟩ := List.exists_cons_of_ne_nil hne
  -- no label starts at a line end
  have hnone : ∀ c, c = '\r' ∨ c = '\n' → ∀ u, valueAt? (d :: label) members (c :: u) = none := by
    intro c hc u
    have hnot : (d :: label).isPrefixOf (c :: u) = false := by
      rw [List.isPrefixOf, beq_false_of_ne, Bool.false_and]
      rintro rfl
      rcases hc with rfl | rfl
      · exact hlabel.1 List.mem_cons_self
      · exact hlabel.2 List.mem_cons_self
    rw [valueAt?, hnot]
    rfl
  -- by induction on the text: no label starts at a line end, and elsewhere both are read alike
  induction t with
  | nil => rfl
  | cons c t ih =>
    by_cases hc : c = '\n'
    · subst hc
      rw [Text.withReturns_lineFeed, valueAfter?, hnone _ (Or.inl rfl), valueAfter?,
        hnone _ (Or.inr rfl), valueAfter?, hnone _ (Or.inr rfl)]
      exact ih
    · have hat := valueAt?_withReturns (c :: t) hlabel hmembers
      rw [Text.withReturns_cons _ hc] at hat ⊢
      rw [valueAfter?, valueAfter?, hat, ih]

end Values

/-- **A block of a text, as it stands in the text with carriage returns.** It says the same on the
same lines, only its characters are further on. -/
def withReturns (content : Text) (b : Block) : Block :=
  { b with
    raw := Text.withReturns b.raw
    start := (Text.withReturns (content.take b.start)).length
    stop := (Text.withReturns (content.take b.start)).length + (Text.withReturns b.raw).length }

/-- **What is read of the first block** is the same, whatever is wrong with it. -/
theorem parse_withReturns (h : '\r' ∉ content) :
    parse (Text.withReturns content) =
      (parse content).map (Option.map (Block.withReturns content)) := by
  unfold parse
  rw [locate?_withReturns h]
  cases hlocate : locate? content with
  | none => rfl
  | some found =>
    obtain ⟨start, style, raw⟩ := found
    obtain ⟨before, post, hcontent, rfl, -⟩ := exists_of_locate? hlocate
    have hraw : '\r' ∉ raw := fun hmem => h (by simp [hcontent, hmem])
    have hbefore : content.take before.length = before := by
      rw [hcontent, List.append_assoc, List.take_left]
    have htake : (Text.withReturns content).take (Text.withReturns before).length =
        Text.withReturns before := by
      rw [hcontent, List.append_assoc, Text.withReturns_append, List.take_left]
    -- both values end before a line end, so no carriage return comes into them
    have htotal : valueAfter? totalLinesLabel isDecimal (Text.withReturns raw) =
        valueAfter? totalLinesLabel isDecimal raw :=
      valueAfter?_withReturns raw (by decide) (by decide) (by decide +kernel)
    have hgenerated : valueAfter? generatedLabel (fun c => !isBlank c) (Text.withReturns raw) =
        valueAfter? generatedLabel (fun c => !isBlank c) raw :=
      valueAfter?_withReturns raw (by decide) (by decide) (by decide +kernel)
    simp only [Option.map_some, hbefore, htake, Text.count_withReturns,
      Text.breakLines_withReturns hraw, htotal, hgenerated]
    cases parseRows style [] (Text.breakLines raw) with
    | error fault => rfl
    | ok rows =>
      cases (valueAfter? totalLinesLabel isDecimal raw).mapM readNumber with
      | error fault => rfl
      | ok total =>
        simp only [bind, Except.bind, pure, Except.pure, Except.map, Option.map_some,
          Block.withReturns, hbefore]

end Block

end SectionIndex
