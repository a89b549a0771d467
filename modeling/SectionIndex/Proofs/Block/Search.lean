import SectionIndex.Proofs.Block.Printer
import SectionIndex.Proofs.Text.LineCount

/-!
# Where the first block of a text is found

The search tries every place of a text, from its start on. A comment block can start anywhere, a
hash block only where a line starts. So a block is found at a place if it can be read there and no
block can be read at any place before.

## Main definitions

* `Block.IsOpening` — how a comment block starts.
* `Block.blockAt?` — the block at the start of a text.
* `Block.startsLine` — a text after which a line starts.

## Main statements

* `Block.jsdocAt?_eq_none_iff` — where no comment block starts.
* `Block.throughEndMarker_eq_some_iff` — what is found up to an end mark.
* `Block.locate?_eq_some_iff` — the first block of a text.
* `Block.exists_of_locate?` — it stands in the text, and its last character ends no line.
-/

namespace SectionIndex

namespace Block

open Text (wholeLines EndsInside)

variable {style : Style} {t raw found opening : Text}

/-! ### Comment blocks -/

theorem throughClosing_eq_none_iff : throughClosing t = none ↔ ¬ closing <:+: t := by
  induction t using throughClosing.induct with
  | case1 => exact iff_of_true rfl (by decide)
  | case2 t => exact iff_of_false (by simp [throughClosing]) fun h => h ⟨[], t, rfl⟩
  | case3 c t hnot ih =>
    rw [throughClosing.eq_3 c t hnot, Option.map_eq_none_iff, ih, List.infix_cons_iff, not_or]
    refine ⟨fun h => ⟨fun hprefix => ?_, h⟩, And.right⟩
    -- a star with a slash after it would have ended the comment here
    obtain ⟨rest, hrest⟩ := hprefix
    obtain ⟨rfl, rfl⟩ := List.cons.inj hrest
    exact hnot rest rfl rfl

/-- **What is found up to the end of a comment** starts the text, and ends with the two signs. -/
theorem exists_of_throughClosing (h : throughClosing t = some found) :
    ∃ body post, found = body ++ closing ∧ t = found ++ post := by
  induction t using throughClosing.induct generalizing found with
  | case1 => cases h
  | case2 t =>
    cases h
    exact ⟨[], t, rfl, rfl⟩
  | case3 c t hnot ih =>
    rw [throughClosing.eq_3 c t hnot] at h
    obtain ⟨rest, hrest, rfl⟩ := Option.map_eq_some_iff.mp h
    obtain ⟨body, post, rfl, rfl⟩ := ih hrest
    exact ⟨c :: body, post, rfl, rfl⟩

/-- **How a comment block starts:** the sign of a documentation comment, blanks with a line feed
among them, a star, blanks and the marker. -/
def IsOpening (opening : Text) : Prop :=
  ∃ gap indent : Text, (∀ c ∈ gap, isBlank c = true) ∧ '\n' ∈ gap ∧
    (∀ c ∈ indent, isBlank c = true) ∧
    opening = '/' :: '*' :: '*' :: gap ++ '*' :: indent ++ marker

/-- **After such a start** the comment is read up to its end. -/
theorem jsdocAt?_of_isOpening (h : IsOpening opening) (rest : Text) :
    jsdocAt? (opening ++ rest) = (throughClosing rest).map (opening ++ ·) := by
  obtain ⟨gap, indent, hgap, hfeed, hindent, rfl⟩ := h
  have htext : '/' :: '*' :: '*' :: gap ++ '*' :: indent ++ marker ++ rest =
      '/' :: '*' :: '*' :: (gap ++ '*' :: (indent ++ (marker ++ rest))) := by
    simp only [List.cons_append, List.append_assoc]
  -- neither the star nor the marker starts with a blank
  have hgapTake : (gap ++ '*' :: (indent ++ (marker ++ rest))).takeWhile isBlank = gap := by
    rw [List.takeWhile_append_of_pos hgap]
    exact List.append_nil gap
  have hgapDrop : (gap ++ '*' :: (indent ++ (marker ++ rest))).dropWhile isBlank =
      '*' :: (indent ++ (marker ++ rest)) := by
    rw [List.dropWhile_append_of_pos hgap]
    rfl
  have hindentTake : (indent ++ (marker ++ rest)).takeWhile isBlank = indent := by
    rw [List.takeWhile_append_of_pos hindent]
    exact List.append_nil indent
  have hindentDrop : (indent ++ (marker ++ rest)).dropWhile isBlank = marker ++ rest := by
    rw [List.dropWhile_append_of_pos hindent]
    rfl
  have hmarker : marker.isPrefixOf (marker ++ rest) = true :=
    List.isPrefixOf_iff_prefix.mpr (List.prefix_append marker rest)
  rw [htext, jsdocAt?]
  simp only [hgapTake, hgapDrop, hindentTake, hindentDrop, List.drop_left]
  rw [if_pos ⟨hfeed, hmarker⟩]

/-- **A comment block that is read** starts like this. -/
theorem exists_of_jsdocAt? (h : jsdocAt? t = some raw) :
    ∃ opening rest found, IsOpening opening ∧ t = opening ++ rest ∧
      throughClosing rest = some found ∧ raw = opening ++ found := by
  unfold jsdocAt? at h
  split at h
  · next u =>
    simp only at h
    split at h
    · next v hdrop =>
      split at h
      · next hopen =>
        obtain ⟨found, hfound, rfl⟩ := Option.map_eq_some_iff.mp h
        obtain ⟨hfeed, hmarker⟩ := hopen
        obtain ⟨rest, hrest⟩ := List.isPrefixOf_iff_prefix.mp hmarker
        rw [← hrest, List.drop_left] at hfound
        refine ⟨_, rest, found, ⟨u.takeWhile isBlank, v.takeWhile isBlank,
          List.all_eq_true.mp List.all_takeWhile, hfeed, List.all_eq_true.mp List.all_takeWhile,
          rfl⟩, ?_, hfound, rfl⟩
        -- the text is the blanks that were taken and what was left of it
        have hv : v = v.takeWhile isBlank ++ (marker ++ rest) := by
          rw [hrest, List.takeWhile_append_dropWhile]
        have hu : u = u.takeWhile isBlank ++ '*' :: v := by
          rw [← hdrop, List.takeWhile_append_dropWhile]
        conv => lhs; rw [hu, hv]
        simp only [List.cons_append, List.append_assoc]
      · cases h
    · cases h
  · cases h

/-- **Where no comment block starts:** nothing ends a comment after the start of a block. -/
theorem jsdocAt?_eq_none_iff : jsdocAt? t = none ↔
    ∀ opening rest, IsOpening opening → t = opening ++ rest → ¬ closing <:+: rest := by
  constructor
  · rintro h opening rest hopening rfl
    rw [jsdocAt?_of_isOpening hopening, Option.map_eq_none_iff] at h
    exact throughClosing_eq_none_iff.mp h
  · intro h
    rw [Option.eq_none_iff_forall_ne_some]
    intro raw hraw
    obtain ⟨opening, rest, found, hopening, rfl, hfound, -⟩ := exists_of_jsdocAt? hraw
    rw [throughClosing_eq_none_iff.mpr (h opening rest hopening rfl)] at hfound
    cases hfound

/-! ### Hash blocks -/

/-- The lines of the hash block at the start of these lines. -/
def hashLinesAt? : List Text → Option (List Text)
  | line :: lines =>
    if isHashLine marker line then (throughEndMarker lines).map (line :: ·) else none
  | [] => none

theorem hashAt?_eq (t : Text) :
    hashAt? t = (hashLinesAt? (t.splitOn '\n')).map (Text.join ['\n']) := by
  obtain ⟨lines, last, hlines, hlast, rfl⟩ := Text.exists_wholeLines t
  have hsplit : (wholeLines lines ++ last).splitOn '\n' = lines ++ [last] := by
    rw [Text.splitOn_wholeLines_append last hlines, List.splitOn_eq_singleton hlast]
  rw [hashAt?, hsplit]
  -- the first line is looked at by itself, as it may be the last one too
  cases lines with
  | nil =>
    have hall : last.takeWhile (· != '\n') = last := by
      rw [List.takeWhile_eq_self_iff]
      intro c hc
      rw [bne_iff_ne]
      exact fun heq => hlast (heq ▸ hc)
    rw [Text.wholeLines_nil, List.nil_append, hall, List.nil_append, hashLinesAt?]
    split
    · rw [Option.map_map]
      rfl
    · rfl
  | cons line lines =>
    obtain ⟨hline, -⟩ := List.forall_mem_cons.mp hlines
    rw [Text.wholeLines_cons, List.append_assoc, List.cons_append,
      Text.takeWhile_append_lineFeed hline, List.cons_append, hashLinesAt?]
    split
    · rw [Option.map_map]
      rfl
    · rfl

/-- Lines with an end mark among them are found up to it, whatever follows. -/
theorem throughEndMarker_append_of_some {lines found : List Text} (rest : List Text)
    (h : throughEndMarker lines = some found) : throughEndMarker (lines ++ rest) = some found := by
  induction lines generalizing found with
  | nil => cases h
  | cons line lines ih =>
    rw [List.cons_append, throughEndMarker] at *
    split at h
    · next hend => rw [if_pos hend, h]
    · next hend =>
      split at h
      · next hsign =>
        obtain ⟨found, hfound, rfl⟩ := Option.map_eq_some_iff.mp h
        rw [if_neg hend, if_pos hsign, ih hfound]
        rfl
      · cases h

/-- **What is found up to an end mark:** hash lines that are none, and the line of the mark. -/
theorem throughEndMarker_eq_some_iff {lines found : List Text} :
    throughEndMarker lines = some found ↔ ∃ before line after, lines = before ++ line :: after ∧
      (∀ l ∈ before, isHashLine endMarker l = false ∧ l.head? = some '#') ∧
      isHashLine endMarker line = true ∧ found = before ++ [Text.dropReturn line] := by
  -- by induction on the lines: the first one ends the block, is kept, or stops the search
  induction lines generalizing found with
  | nil => simp [throughEndMarker]
  | cons line lines ih =>
    rw [throughEndMarker]
    constructor
    · intro h
      split at h
      · next hend =>
        cases h
        exact ⟨[], line, lines, rfl, List.forall_mem_nil _, hend, rfl⟩
      · next hend =>
        split at h
        · next hsign =>
          obtain ⟨found, hfound, rfl⟩ := Option.map_eq_some_iff.mp h
          obtain ⟨before, last, after, rfl, hsigns, hlast, rfl⟩ := ih.mp hfound
          exact ⟨line :: before, last, after, rfl,
            List.forall_mem_cons.mpr ⟨⟨Bool.eq_false_iff.mpr hend, hsign⟩, hsigns⟩, hlast, rfl⟩
        · cases h
    · rintro ⟨before, last, after, heq, hsigns, hlast, rfl⟩
      cases before with
      | nil =>
        obtain ⟨rfl, rfl⟩ := List.cons.inj heq
        rw [if_pos hlast]
        rfl
      | cons first before =>
        obtain ⟨rfl, rfl⟩ := List.cons.inj heq
        obtain ⟨⟨hend, hsign⟩, hsigns⟩ := List.forall_mem_cons.mp hsigns
        rw [if_neg (Bool.eq_false_iff.mp hend), if_pos hsign,
          ih.mpr ⟨before, last, after, rfl, hsigns, hlast, rfl⟩]
        rfl

/-- **The line of a mark** is the mark between a hash sign and blanks, with or without a carriage
return at its end. -/
theorem exists_of_isHashLine {word line : Text} (h : isHashLine word line = true) :
    ∃ before after tail : Text, (∀ c ∈ before ++ after, isInlineBlank c = true) ∧
      (tail = [] ∨ tail = ['\r']) ∧ line = '#' :: before ++ word ++ after ++ tail := by
  cases line with
  | nil => cases h
  | cons c t =>
    by_cases hc : c = '#'
    · subst hc
      rw [isHashLine] at h
      simp only [Bool.and_eq_true, Bool.or_eq_true, List.isEmpty_iff, beq_iff_eq] at h
      obtain ⟨hword, htail⟩ := h
      obtain ⟨rest, hrest⟩ := List.isPrefixOf_iff_prefix.mp hword
      rw [← hrest, List.drop_left] at htail
      -- the blanks around the word are those that were passed over
      refine ⟨t.takeWhile isInlineBlank, rest.takeWhile isInlineBlank,
        rest.dropWhile isInlineBlank, ?_, htail, ?_⟩
      · rw [List.forall_mem_append]
        exact ⟨List.all_eq_true.mp List.all_takeWhile, List.all_eq_true.mp List.all_takeWhile⟩
      · simp only [List.cons_append, List.append_assoc, List.takeWhile_append_dropWhile, hrest]
    · unfold isHashLine at h
      split at h
      · next heq => exact absurd (List.cons.inj heq).1 hc
      · cases h

/-- **What may stand after a hash block:** what may stand after a whole line, or the carriage return
that ends the text. -/
def ClosesLine (post : Text) : Prop :=
  Text.EndsLine post ∨ post = ['\r']

theorem endsInside_append_spaces {t spaces : Text} (hspaces : ∀ c ∈ spaces, isInlineBlank c = true)
    (h : EndsInside t) : EndsInside (t ++ spaces) := by
  rcases List.eq_nil_or_concat spaces with rfl | ⟨init, c, rfl⟩
  · rw [List.append_nil]
    exact h
  · have hc : isInlineBlank c = true := hspaces c (by simp)
    refine EndsInside.append _ ⟨c, by simp, ?_, ?_⟩
    · rintro rfl
      exact absurd hc (by decide)
    · rintro rfl
      exact absurd hc (by decide)

/-- A mark between a hash sign and blanks is on the line of a mark, with or without a carriage
return at its end. -/
theorem isHashLine_endMarker {indent spaces tail : Text}
    (hspaces : ∀ c ∈ indent ++ spaces, isInlineBlank c = true) (htail : tail = [] ∨ tail = ['\r']) :
    isHashLine endMarker ('#' :: indent ++ endMarker ++ spaces ++ tail) = true := by
  rw [List.forall_mem_append] at hspaces
  have htext : '#' :: indent ++ endMarker ++ spaces ++ tail =
      '#' :: (indent ++ (endMarker ++ (spaces ++ tail))) := by
    simp only [List.cons_append, List.append_assoc]
  have hbody : (indent ++ (endMarker ++ (spaces ++ tail))).dropWhile isInlineBlank =
      endMarker ++ (spaces ++ tail) := by
    rw [List.dropWhile_append_of_pos hspaces.1]
    rfl
  have hrest : (spaces ++ tail).dropWhile isInlineBlank = tail := by
    rw [List.dropWhile_append_of_pos hspaces.2]
    rcases htail with rfl | rfl <;> rfl
  rw [htext, isHashLine]
  simp only [hbody, List.drop_left, hrest, Bool.and_eq_true]
  refine ⟨List.isPrefixOf_iff_prefix.mpr (List.prefix_append _ _), ?_⟩
  rcases htail with rfl | rfl <;> rfl

/-- **The line of an end mark** may have a carriage return at its end or not. -/
theorem exists_of_isHashLine_endMarker {line : Text} (h : isHashLine endMarker line = true) :
    ∃ core tail, line = core ++ tail ∧ (tail = [] ∨ tail = ['\r']) ∧ EndsInside core ∧
      ∀ tail, tail = [] ∨ tail = ['\r'] → isHashLine endMarker (core ++ tail) = true := by
  obtain ⟨indent, spaces, tail, hspaces, htail, rfl⟩ := exists_of_isHashLine h
  have hmark : EndsInside endMarker := ⟨'x', rfl, by decide, by decide⟩
  have hends : EndsInside ('#' :: indent ++ endMarker ++ spaces) :=
    endsInside_append_spaces (fun c hc => hspaces c (List.mem_append_right _ hc)) (hmark.append _)
  exact ⟨_, tail, rfl, htail, hends, fun tail htail => isHashLine_endMarker hspaces htail⟩

/-- **A hash block that is read** starts the text, and its last line ends after it. -/
theorem exists_of_hashAt? (h : hashAt? t = some raw) :
    ∃ post, t = raw ++ post ∧ ClosesLine post ∧ EndsInside raw := by
  rw [hashAt?_eq] at h
  obtain ⟨found, hfound, rfl⟩ := Option.map_eq_some_iff.mp h
  have hjoin : Text.join ['\n'] (t.splitOn '\n') = t := List.intercalate_splitOn '\n'
  generalize t.splitOn '\n' = lines at hfound hjoin
  cases lines with
  | nil => cases hfound
  | cons first lines =>
    rw [hashLinesAt?] at hfound
    split at hfound
    · obtain ⟨kept, hkept, rfl⟩ := Option.map_eq_some_iff.mp hfound
      -- the block is its first line, the lines with the sign, and the end mark without its return
      obtain ⟨before, line, after, rfl, -, hend, rfl⟩ := throughEndMarker_eq_some_iff.mp hkept
      obtain ⟨core, tail, rfl, htail, hcore, -⟩ := exists_of_isHashLine_endMarker hend
      have hparts : first :: before ≠ [] := List.cons_ne_nil _ _
      rw [hcore.dropReturn_append htail, ← List.cons_append]
      -- the text goes on with that return and the lines after it
      refine ⟨tail ++ if after = [] then [] else '\n' :: Text.join ['\n'] after, ?_, ?_, ?_⟩
      · have hlines : first :: (before ++ (core ++ tail) :: after) =
            (first :: before ++ [core ++ tail]) ++ after := by simp
        rw [← hjoin, hlines, ← List.append_assoc, ← Text.join_concat_append]
        by_cases hafter : after = []
        · rw [if_pos hafter, hafter, List.append_nil, List.append_nil]
        · rw [if_neg hafter, Text.join_append _ (by simp) hafter, List.append_assoc,
            List.singleton_append]
      · by_cases hafter : after = []
        · rw [if_pos hafter, List.append_nil]
          exact htail.imp Or.inl id
        · rw [if_neg hafter]
          rcases htail with rfl | rfl
          · exact Or.inl (Or.inr ⟨['\n'], _, Or.inl rfl, rfl⟩)
          · exact Or.inl (Or.inr ⟨['\r', '\n'], _, Or.inr rfl, rfl⟩)
      · rw [Text.join_append _ hparts (List.cons_ne_nil _ _), Text.join_singleton]
        exact hcore.append _
    · cases hfound

/-! ### The first block -/

/-- **The block at the start of a text.** A comment is tried first, and a hash block only if a line
starts there. -/
def blockAt? (lineStart : Bool) (t : Text) : Option (Style × Text) :=
  match jsdocAt? t with
  | some raw => some (.jsdoc, raw)
  | none => (if lineStart then hashAt? t else none).map fun raw => (.hash, raw)

theorem blockAt?_eq_none_iff {lineStart : Bool} :
    blockAt? lineStart t = none ↔ jsdocAt? t = none ∧ (lineStart = true → hashAt? t = none) := by
  unfold blockAt?
  cases jsdocAt? t with
  | some raw => simp
  | none => cases lineStart <;> simp

/-- Whether a line starts after a text, which follows the start of a line if `lineStart` says so. -/
def startsLineAfter (lineStart : Bool) (before : Text) : Bool :=
  (before.getLast?.map (· == '\n')).getD lineStart

@[simp] theorem startsLineAfter_nil (lineStart : Bool) : startsLineAfter lineStart [] = lineStart :=
  rfl

theorem startsLineAfter_cons (lineStart : Bool) (c : Char) (before : Text) :
    startsLineAfter lineStart (c :: before) = startsLineAfter (c == '\n') before := by
  unfold startsLineAfter
  rw [List.getLast?_cons]
  cases before.getLast? <;> rfl

theorem locateFrom?_cons (offset : Nat) (lineStart : Bool) (c : Char) (t : Text) :
    locateFrom? offset lineStart (c :: t) =
      match blockAt? lineStart (c :: t) with
      | some (style, raw) => some (offset, style, raw)
      | none => locateFrom? (offset + 1) (c == '\n') t := by
  rw [locateFrom?, blockAt?]
  cases jsdocAt? (c :: t) with
  | some raw => rfl
  | none =>
    simp only
    cases (if lineStart then hashAt? (c :: t) else none) with
    | some raw => rfl
    | none => rfl

theorem blockAt?_nil (lineStart : Bool) : blockAt? lineStart [] = none := by
  cases lineStart <;> rfl

/-- What holds of all places before the end of a text holds of its start and of all later ones. -/
theorem forall_split_cons {P : Text → Text → Prop} {c : Char} {before : Text} :
    (∀ b₁ b₂, c :: before = b₁ ++ b₂ → b₂ ≠ [] → P b₁ b₂) ↔
      P [] (c :: before) ∧ ∀ b₁ b₂, before = b₁ ++ b₂ → b₂ ≠ [] → P (c :: b₁) b₂ := by
  constructor
  · intro h
    refine ⟨h [] _ rfl (List.cons_ne_nil _ _), ?_⟩
    rintro b₁ b₂ rfl hne
    exact h (c :: b₁) b₂ rfl hne
  · rintro ⟨hfirst, hrest⟩ b₁ b₂ hsplit hne
    cases b₁ with
    | nil => exact (show c :: before = b₂ from hsplit) ▸ hfirst
    | cons d b₁ =>
      obtain ⟨rfl, rfl⟩ := List.cons.inj hsplit
      exact hrest b₁ b₂ rfl hne

/-- **The block that is found** is the first one that can be read. -/
theorem locateFrom?_eq_some_iff {offset start : Nat} {lineStart : Bool} :
    locateFrom? offset lineStart t = some (start, style, raw) ↔
      ∃ before after, t = before ++ after ∧ start = offset + before.length ∧
        blockAt? (startsLineAfter lineStart before) after = some (style, raw) ∧
        ∀ b₁ b₂, before = b₁ ++ b₂ → b₂ ≠ [] →
          blockAt? (startsLineAfter lineStart b₁) (b₂ ++ after) = none := by
  -- by induction on the text: a block is found at its start, or the search goes on after it
  induction t generalizing offset lineStart with
  | nil =>
    refine iff_of_false (Option.some_ne_none _).symm ?_
    rintro ⟨before, after, ht, -, hat, -⟩
    obtain ⟨rfl, rfl⟩ := List.append_eq_nil_iff.mp ht.symm
    rw [blockAt?_nil] at hat
    cases hat
  | cons c t ih =>
    rw [locateFrom?_cons]
    cases hat : blockAt? lineStart (c :: t) with
    | some found =>
      constructor
      · intro h
        cases h
        refine ⟨[], c :: t, rfl, rfl, hat, ?_⟩
        intro b₁ b₂ hnil hne
        exact absurd (List.append_eq_nil_iff.mp hnil.symm).2 hne
      · rintro ⟨before, after, ht, rfl, hat', hnone⟩
        -- a block can be read at the start of the text, so it is found there
        cases before with
        | nil =>
          obtain rfl : c :: t = after := ht
          rw [startsLineAfter_nil, hat] at hat'
          cases hat'
          rfl
        | cons d before =>
          obtain ⟨hfirst, -⟩ := forall_split_cons.mp hnone
          rw [← ht, startsLineAfter_nil, hat] at hfirst
          cases hfirst
    | none =>
      simp only
      rw [ih]
      constructor
      · rintro ⟨before, after, rfl, rfl, hat', hnone⟩
        refine ⟨c :: before, after, rfl, ?_, ?_, ?_⟩
        · rw [List.length_cons]
          omega
        · rw [startsLineAfter_cons]
          exact hat'
        · refine forall_split_cons.mpr ⟨hat, fun b₁ b₂ hsplit hne => ?_⟩
          rw [startsLineAfter_cons]
          exact hnone b₁ b₂ hsplit hne
      · rintro ⟨before, after, ht, rfl, hat', hnone⟩
        cases before with
        | nil =>
          obtain rfl : c :: t = after := ht
          rw [startsLineAfter_nil, hat] at hat'
          cases hat'
        | cons d before =>
          obtain ⟨rfl, rfl⟩ := List.cons.inj ht
          obtain ⟨-, hrest⟩ := forall_split_cons.mp hnone
          simp only [startsLineAfter_cons] at hat' hrest
          refine ⟨before, after, rfl, ?_, hat', hrest⟩
          rw [List.length_cons]
          omega

/-- **A line starts after the text:** it is empty, or it ends with a line feed. -/
def startsLine (before : Text) : Bool :=
  startsLineAfter true before

/-- A line starts after whole lines, and after nothing else. -/
theorem startsLine_iff {before : Text} : startsLine before = true ↔
    ∃ lines, (∀ line ∈ lines, '\n' ∉ line) ∧ before = wholeLines lines := by
  constructor
  · intro h
    obtain ⟨lines, last, hlines, hlast, rfl⟩ := Text.exists_wholeLines before
    refine ⟨lines, hlines, ?_⟩
    rcases List.eq_nil_or_concat last with rfl | ⟨init, c, rfl⟩
    · exact List.append_nil _
    · -- a last line with characters in it ends with one that is no line feed
      rw [List.concat_eq_append, ← List.append_assoc, startsLine, startsLineAfter,
        List.getLast?_concat, Option.map_some, Option.getD_some, beq_iff_eq] at h
      exact absurd h fun heq => hlast (by simp [heq])
  · rintro ⟨lines, -, rfl⟩
    rcases List.eq_nil_or_concat lines with rfl | ⟨init, line, rfl⟩
    · rfl
    · rw [List.concat_eq_append, Text.wholeLines_append, Text.wholeLines_cons,
        Text.wholeLines_nil, ← List.append_assoc, startsLine, startsLineAfter,
        List.getLast?_concat]
      rfl

/-- **The first block of a text:** it can be read at its place, and no block can be read at any
place before. -/
theorem locate?_eq_some_iff {content : Text} {start : Nat} :
    locate? content = some (start, style, raw) ↔
      ∃ before after, content = before ++ after ∧ start = before.length ∧
        blockAt? (startsLine before) after = some (style, raw) ∧
        ∀ b₁ b₂, before = b₁ ++ b₂ → b₂ ≠ [] → blockAt? (startsLine b₁) (b₂ ++ after) = none := by
  rw [locate?, locateFrom?_eq_some_iff]
  simp only [Nat.zero_add]
  exact Iff.rfl

/-- **The two kinds of blocks** that are read: a comment, and hash lines where a line starts. -/
theorem cases_of_blockAt? {lineStart : Bool} (h : blockAt? lineStart t = some (style, raw)) :
    (style = .jsdoc ∧ jsdocAt? t = some raw) ∨
      (style = .hash ∧ lineStart = true ∧ hashAt? t = some raw) := by
  unfold blockAt? at h
  split at h
  · next found hat =>
    cases h
    exact Or.inl ⟨rfl, hat⟩
  · obtain ⟨found, hfound, heq⟩ := Option.map_eq_some_iff.mp h
    cases heq
    cases lineStart with
    | false => cases hfound
    | true => exact Or.inr ⟨rfl, rfl, hfound⟩

/-- **A block that is read** starts the text, and its last character ends no line. -/
theorem exists_of_blockAt? {lineStart : Bool} (h : blockAt? lineStart t = some (style, raw)) :
    ∃ post, t = raw ++ post ∧ EndsInside raw ∧ (style = .hash → ClosesLine post) := by
  rcases cases_of_blockAt? h with ⟨rfl, hat⟩ | ⟨rfl, -, hat⟩
  · obtain ⟨opening, rest, found, -, rfl, hfound, rfl⟩ := exists_of_jsdocAt? hat
    obtain ⟨body, post, rfl, rfl⟩ := exists_of_throughClosing hfound
    have hclosing : EndsInside closing := ⟨'/', rfl, by decide, by decide⟩
    refine ⟨post, by simp only [List.append_assoc], ?_, nofun⟩
    rw [← List.append_assoc]
    exact hclosing.append _
  · obtain ⟨post, rfl, hpost, hends⟩ := exists_of_hashAt? hat
    exact ⟨post, rfl, hends, fun _ => hpost⟩

/-- **The block that is found stands in the text.** -/
theorem exists_of_locate? {content : Text} {start : Nat}
    (h : locate? content = some (start, style, raw)) :
    ∃ before post, content = before ++ raw ++ post ∧ start = before.length ∧ EndsInside raw := by
  obtain ⟨before, after, rfl, rfl, hat, -⟩ := locate?_eq_some_iff.mp h
  obtain ⟨post, rfl, hends, -⟩ := exists_of_blockAt? hat
  exact ⟨before, post, (List.append_assoc _ _ _).symm, rfl, hends⟩

end Block

end SectionIndex
