import SectionIndex.Language.Table
import SectionIndex.Proofs.Block.RoundTrip
import SectionIndex.Proofs.Text.LineCount
import SectionIndex.Scan.Explicit

/-!
# Lines of a block, scanned

A block is a comment in the language of its file, and no line of its frame is taken for a mark or
for the start of something. Most rules count at the start of a line only, where the comment sign
stands. Those that count anywhere look for two slashes or for the start of a store, which stand in a
block only if they stand in a name or a description, and then in the row of that section.

## Main definitions

* `Block.IsFrameLine` — the lines of a block and the line after it, by how they start.
* `Block.frameLines` — the lines that are the same in all blocks of a style.
* `Block.IsRowWith` — the row of a section with a word in its name or its description.
* `Block.IsForeignTo` — a word that a block has in it only in its names and descriptions.
* `Language.ReadsOnlyRows` — what the rules of a language can find in a line of a block.

## Main statements

* `Block.isFrameLine_of_mem_blockLines` — the lines of a written block are of this kind.
* `Block.IsForeignTo.isRowWith` — a line with such a word is a row.
* `Language.slashes_infix_of_findIn_sectionMarker`, `Language.create_infix_of_accepts` — the words
  that a line has in it if a rule matches it.
* `Language.readsOnlyRows_of_mem_blockLines` — the rules find rows at most.
* `Language.ReadsOnlyRows.markOf_eq_plain`, `Language.ReadsOnlyRows.detect?_eq_none` — when a line
  of a block is no mark and opens no section.
-/

namespace SectionIndex

namespace Block

variable {style : Style} {line : Text}

/-- **The lines of a block** and the empty line after it, by how they start. -/
inductive IsFrameLine : Style → Text → Prop
  | empty (style : Style) : IsFrameLine style []
  | sign (style : Style) : IsFrameLine style style.sign
  | label (style : Style) (rest : Text) : IsFrameLine style (style.sign ++ ' ' :: '@' :: rest)
  | row (style : Style) (rest : Text) : IsFrameLine style (style.sign ++ ' ' :: '|' :: rest)
  | opening : IsFrameLine .jsdoc "/**"
  | closing : IsFrameLine .jsdoc " */"

section Written

variable {sections : List Section} {totalLines : Int} {stamp : Text}

/-- The lines of a block that are the same in all blocks of a style. -/
def frameLines : Style → List Text
  | .jsdoc => [("/**" : Text), commentLine " *" marker, (" */" : Text)]
  | .hash => [commentLine "#" marker, commentLine "#" endMarker]

theorem mem_blockLines (h : line ∈ blockLines style (bodyLines style sections totalLines stamp)) :
    line ∈ frameLines style ∨
      ∃ body ∈ tailLines style sections totalLines stamp, line = commentLine style.sign body := by
  have hbody : bodyLines style sections totalLines stamp =
      marker :: tailLines style sections totalLines stamp := rfl
  rw [hbody] at h
  -- the marker counts as a line of the frame, as it is the same in all blocks
  cases style with
  | jsdoc =>
    simp only [blockLines, List.map_cons, List.cons_append, List.mem_cons, List.mem_append,
      List.mem_map, List.not_mem_nil, or_false] at h
    rcases h with rfl | rfl | ⟨body, hmem, rfl⟩ | rfl
    · exact Or.inl (by simp [frameLines])
    · exact Or.inl (by simp [frameLines])
    · exact Or.inr ⟨body, hmem, rfl⟩
    · exact Or.inl (by simp [frameLines])
  | hash =>
    simp only [blockLines, List.map_cons, List.mem_append, List.mem_cons, List.mem_map,
      List.not_mem_nil, or_false] at h
    rcases h with (rfl | ⟨body, hmem, rfl⟩) | rfl
    · exact Or.inl (by simp [frameLines])
    · exact Or.inr ⟨body, hmem, rfl⟩
    · exact Or.inl (by simp [frameLines])

/-- **The lines of a written block** start like this. -/
theorem isFrameLine_of_mem_blockLines
    (h : line ∈ blockLines style (bodyLines style sections totalLines stamp)) :
    IsFrameLine style line := by
  -- the lines of the frame one by one; the others are labels, an empty line, and the table
  rcases mem_blockLines h with h | ⟨body, hbody, rfl⟩
  · cases style with
    | jsdoc =>
      simp only [frameLines, List.mem_cons, List.not_mem_nil, or_false] at h
      rcases h with rfl | rfl | rfl
      · exact .opening
      · exact .label .jsdoc "ai-index"
      · exact .closing
    | hash =>
      simp only [frameLines, List.mem_cons, List.not_mem_nil, or_false] at h
      rcases h with rfl | rfl
      · exact .label .hash "ai-index"
      · exact .label .hash "end-ai-index"
  · simp only [tailLines, List.mem_cons] at hbody
    rcases hbody with rfl | rfl | rfl | hbody
    · exact .label style _
    · exact .label style _
    · exact .sign style
    · obtain ⟨cells, rfl, -⟩ := mem_tableRows hbody
      have hne : tableLine cells ≠ [] := List.cons_ne_nil _ _
      rw [commentLine_of_ne_nil _ hne]
      exact .row style _

/-! ### The ends of the lines -/

theorem endsInside_of_strip {t : Text} (hne : t ≠ []) (h : t.strip = t) : Text.EndsInside t := by
  obtain ⟨c, hc⟩ := Option.ne_none_iff_exists'.mp (mt List.getLast?_eq_none_iff.mp hne)
  have hblank : isBlank c = false := (Text.trim_eq_self_iff.mp h).2 c hc
  -- line feeds and carriage returns are blank
  refine ⟨c, hc, ?_, ?_⟩
  all_goals
    rintro rfl
    exact absurd hblank (by decide)

/-- No line of a block ends with a line end. -/
theorem endsInside_of_mem_blockLines (hstamp : IsStamp stamp)
    (h : line ∈ blockLines style (bodyLines style sections totalLines stamp)) :
    Text.EndsInside line := by
  rcases mem_blockLines h with hframe | ⟨body, hbody, rfl⟩
  · cases style with
    | jsdoc =>
      simp only [frameLines, List.mem_cons, List.not_mem_nil, or_false] at hframe
      rcases hframe with rfl | rfl | rfl
      all_goals exact ⟨_, rfl, by decide, by decide⟩
    | hash =>
      simp only [frameLines, List.mem_cons, List.not_mem_nil, or_false] at hframe
      rcases hframe with rfl | rfl
      all_goals exact ⟨_, rfl, by decide, by decide⟩
  · unfold commentLine
    split
    -- the sign of the comment, or what stands behind it
    · cases style with
      | jsdoc => exact ⟨'*', rfl, by decide, by decide⟩
      | hash => exact ⟨'#', rfl, by decide, by decide⟩
    · next hne =>
      have hends := endsInside_of_strip hne (strip_of_mem_tailLines hstamp hbody)
      exact (hends.append [' ']).append style.sign

/-! ### Words in the lines -/

/-- **The line is the row of a section** with the word in its name or its description. -/
def IsRowWith (style : Style) (sections : List Section) (word line : Text) : Prop :=
  ∃ s ∈ sections, line = commentLine style.sign (rowLine style sections s) ∧
    (word <:+: s.name ∨ word <:+: s.description)

theorem not_isRowWith {word : Text}
    (h : ∀ s ∈ sections, ¬ word <:+: s.name ∧ ¬ word <:+: s.description) :
    ¬ IsRowWith style sections word line := by
  rintro ⟨s, hs, -, hname | hdescription⟩
  · exact (h s hs).1 hname
  · exact (h s hs).2 hdescription

/-- **A word that no block has in it**, but for its names and descriptions: it is foreign to the
table, it cannot take in a backslash of an escape or the sign of the comment, and no line of the
frame has it in it. -/
structure IsForeignTo (style : Style) (word : Text) : Prop extends IsForeign word where
  no_backslash : '\\' ∉ word
  no_sign : ∀ c ∈ word, c ∉ style.sign
  not_infix_frame : ∀ line ∈ frameLines style, ¬ word <:+: line

instance (style : Style) (word : Text) : Decidable (IsForeignTo style word) :=
  decidable_of_iff (IsForeign word ∧ '\\' ∉ word ∧ (∀ c ∈ word, c ∉ style.sign) ∧
      ∀ line ∈ frameLines style, ¬ word <:+: line)
    ⟨fun h => ⟨h.1, h.2.1, h.2.2.1, h.2.2.2⟩,
      fun h => ⟨h.toIsForeign, h.no_backslash, h.no_sign, h.not_infix_frame⟩⟩

/-- **A foreign word in a line of a block** makes the line the row of a section with that word. -/
theorem IsForeignTo.isRowWith {word : Text} (hword : IsForeignTo style word)
    (hstamp : IsStamp stamp)
    (h : line ∈ blockLines style (bodyLines style sections totalLines stamp))
    (hstands : word <:+: line) : IsRowWith style sections word line := by
  have hne := hword.ne_nil
  rcases mem_blockLines h with hframe | ⟨body, hbody, rfl⟩
  · exact absurd hstands (hword.not_infix_frame line hframe)
  · -- the word stands after the sign of the comment and the space behind it
    have hbody' : word <:+: body := by
      unfold commentLine at hstands
      split at hstands
      · have hnil : word <:+: style.sign ++ [] := by rwa [List.append_nil]
        have hnone := Text.infix_of_append_right hne hword.no_sign hnil
        exact absurd (List.infix_nil.mp hnone) hne
      · have hspace : ∀ c ∈ word, c ∉ [' '] := by
          intro c hc hmem
          obtain rfl := List.mem_singleton.mp hmem
          exact hword.not_mem ' ' hc (by decide)
        have hspaced : word <:+: [' '] ++ body :=
          Text.infix_of_append_right hne hword.no_sign hstands
        exact Text.infix_of_append_right hne hspace hspaced
    obtain ⟨s, hs, hrow, htext⟩ := hword.exists_of_isInfix hstamp hbody hbody'
    exact ⟨s, hs, congrArg _ hrow, htext.imp (infix_of_escapeCell hword.no_backslash)
      (infix_of_escapeCell hword.no_backslash)⟩

end Written

end Block

/-! ### Words that do not occur -/

namespace Pattern

variable {p : Pattern} {t : Text}

theorem search?_eq_none (h : ∀ u, u <:+ t → p.match? u = none) : p.search? t = none := by
  induction t with
  | nil => exact h [] (List.suffix_refl [])
  | cons c t ih =>
    rw [search?, h (c :: t) (List.suffix_refl _)]
    exact ih fun u hu => h u (hu.trans (List.suffix_cons c t))

/-- **A pattern that starts with a word** is found only in texts with that word in them. -/
theorem search?_word_andThen {word : Text} (h : ¬ word <:+: t) :
    (andThen (.word word) p).search? t = none := by
  refine search?_eq_none fun u hu => ?_
  have hnot : ¬ word.isPrefixOf u = true := fun hstart =>
    h ((List.isPrefixOf_iff_prefix.mp hstart).isInfix.trans hu.isInfix)
  exact if_neg hnot

end Pattern

namespace Language

open Block (IsFrameLine IsForeignTo IsRowWith)

variable {language : Language} {style : Block.Style} {line : Text}

theorem dropReturns_of_getLast? (h : line.getLast? ≠ some '\r') : Text.dropReturns line = line := by
  refine Text.trimEnd_of_getLast? fun c hc => beq_eq_false_iff_ne.mpr ?_
  rintro rfl
  exact h hc

/-- A line that no rule matches is no mark. -/
theorem markOf_eq_plain (hdrop : Text.dropReturns line = line)
    (hstart : Rule.findIn language.regionStart line = none)
    (hend : Rule.findIn language.regionEnd line = none)
    (hmarker : Rule.findIn language.sectionMarker line = none) : language.markOf line = .plain := by
  unfold markOf
  simp only [hdrop, hstart, hend, hmarker]

/-- The rules for regions count at the start of a line, where the comment sign of a block stands. -/
theorem findIn_region_of_isFrameLine (hlanguage : language ∈ all)
    (hstyle : language.blockStyle = some style) (h : IsFrameLine style line) :
    Rule.findIn language.regionStart line = none ∧ Rule.findIn language.regionEnd line = none := by
  -- in each language the rules are tried on each kind of line; none goes beyond the first signs
  simp only [all, List.mem_cons, List.not_mem_nil, or_false] at hlanguage
  rcases hlanguage with rfl | rfl | rfl | rfl | rfl | rfl | rfl | rfl
  all_goals cases hstyle
  all_goals cases h
  all_goals exact ⟨rfl, rfl⟩

/-- The languages whose rule for section markers counts anywhere in a line have blocks in
documentation comments. -/
theorem style_eq_jsdoc (hlanguage : language ∈ [typescript, csharp, java])
    (hstyle : language.blockStyle = some style) : style = .jsdoc := by
  simp only [List.mem_cons, List.not_mem_nil, or_false] at hlanguage
  rcases hlanguage with rfl | rfl | rfl
  all_goals exact (Option.some.inj hstyle).symm

/-- **A line of a block that is a section marker** has two slashes in it, and it is one in three
languages only: their rule counts anywhere in a line. -/
theorem slashes_infix_of_findIn_sectionMarker (hlanguage : language ∈ all)
    (hstyle : language.blockStyle = some style) (h : IsFrameLine style line)
    (hfind : Rule.findIn language.sectionMarker line ≠ none) :
    language ∈ [typescript, csharp, java] ∧ ("//" : Text) <:+: line := by
  have hslashes : Rule.findIn (some ⟨false, sectionMark "//"⟩) line ≠ none →
      ("//" : Text) <:+: line := fun hfind =>
    not_not.mp fun hnot => hfind (Pattern.search?_word_andThen hnot)
  simp only [all, List.mem_cons, List.not_mem_nil, or_false] at hlanguage
  rcases hlanguage with rfl | rfl | rfl | rfl | rfl | rfl | rfl | rfl
  all_goals cases hstyle
  case inl => exact ⟨.head _, hslashes hfind⟩
  case inr.inr.inr.inr.inl => exact ⟨.tail _ (.head _), hslashes hfind⟩
  case inr.inr.inr.inr.inr.inl => exact ⟨.tail _ (.tail _ (.head _)), hslashes hfind⟩
  -- the rules of all other languages count at the start of a line
  all_goals
    refine absurd ?_ hfind
    cases h <;> rfl

theorem accepts_word_andThen {word : Text} {p : Pattern} (h : ¬ word <:+: line) :
    Rule.accepts ⟨false, .andThen (.word word) p⟩ line = false := by
  have hfind : Rule.find ⟨false, .andThen (.word word) p⟩ line = none :=
    Pattern.search?_word_andThen h
  rw [Rule.accepts, hfind]
  rfl

/-- The rules for sections count at the start of a line, where the comment sign of a block stands,
in all languages but one. -/
theorem find?_detectors_of_isFrameLine (hlanguage : language ∈ all)
    (hstyle : language.blockStyle = some style) (h : IsFrameLine style line)
    (hne : language ≠ typescript) : language.detectors.find? (·.rule.accepts line) = none := by
  simp only [all, List.mem_cons, List.not_mem_nil, or_false] at hlanguage
  rcases hlanguage with rfl | rfl | rfl | rfl | rfl | rfl | rfl | rfl
  case inl => exact absurd rfl hne
  all_goals cases hstyle
  all_goals cases h <;> rfl

/-- **A line of a block that tends to open a section** has the start of a store in it, and it does
so in one language only: one of its rules counts anywhere in a line. -/
theorem create_infix_of_accepts (hlanguage : language ∈ all)
    (hstyle : language.blockStyle = some style) (h : IsFrameLine style line) {d : Detector}
    (hd : d ∈ language.detectors) (haccepts : d.rule.accepts line = true) :
    language = typescript ∧ ("create<" : Text) <:+: line := by
  by_cases heq : language = typescript
  · refine ⟨heq, not_not.mp fun hnot => ?_⟩
    subst heq
    cases hstyle
    have hnone : ∀ d ∈ typescript.detectors, d.rule.accepts line = false := by
      simp only [typescript, List.forall_mem_cons]
      refine ⟨?_, ?_, ?_, ?_, ?_, ?_, ?_, ?_, ?_, ?_, ?_, List.forall_mem_nil _⟩
      -- all rules but the one for stores count at the start of a line
      all_goals first
        | exact accepts_word_andThen hnot
        | cases h <;> rfl
    rw [hnone d hd] at haccepts
    exact Bool.false_ne_true haccepts
  · have hnone := find?_detectors_of_isFrameLine hlanguage hstyle h heq
    exact absurd haccepts (List.find?_eq_none.mp hnone d hd)

/-- A line that no rule matches opens no section. -/
theorem detect?_eq_none (h : ∀ d ∈ language.detectors, ¬ d.rule.accepts line = true) :
    language.detect? line = none := by
  rw [detect?, Option.map_eq_none_iff, List.find?_eq_none]
  exact h

/-! ### What the rules find in a block -/

variable {sections : List Section} {totalLines : Int} {stamp : Text}

/-- **What the rules of a language can find in a line of a block:** the line is the start or the end
of no region, it is a section marker only as the row of a section with two slashes in its name or
its description, and it opens a section only as the row of one with the start of a store in them. -/
structure ReadsOnlyRows (language : Language) (style : Block.Style) (sections : List Section)
    (line : Text) : Prop where
  /-- The rules see the line as it is, as it has no carriage return at its end. -/
  dropReturns_eq : Text.dropReturns line = line
  regionStart_eq : Rule.findIn language.regionStart line = none
  regionEnd_eq : Rule.findIn language.regionEnd line = none
  sectionMarker : Rule.findIn language.sectionMarker line ≠ none →
    language ∈ [typescript, csharp, java] ∧ IsRowWith style sections "//" line
  detectors : ∀ d ∈ language.detectors, d.rule.accepts line = true →
    language = typescript ∧ IsRowWith style sections "create<" line

/-- The rules find no more than that in the lines of which a block is made, whatever the names and
descriptions of its sections are. -/
theorem readsOnlyRows_of_mem_blockLines (hlanguage : language ∈ all)
    (hstyle : language.blockStyle = some style) (hstamp : Block.IsStamp stamp)
    (h : line ∈ Block.blockLines style (Block.bodyLines style sections totalLines stamp)) :
    language.ReadsOnlyRows style sections line := by
  have hframe : IsFrameLine style line := Block.isFrameLine_of_mem_blockLines h
  obtain ⟨last, hlast, -, hreturn⟩ := Block.endsInside_of_mem_blockLines hstamp h
  have hends : line.getLast? ≠ some '\r' := by
    rw [hlast]
    exact mt Option.some.inj hreturn
  obtain ⟨hstart, hend⟩ := findIn_region_of_isFrameLine hlanguage hstyle hframe
  refine
    { dropReturns_eq := dropReturns_of_getLast? hends
      regionStart_eq := hstart
      regionEnd_eq := hend
      sectionMarker := fun hfind => ?_
      detectors := fun d hd haccepts => ?_ }
  · obtain ⟨hmem, hslashes⟩ := slashes_infix_of_findIn_sectionMarker hlanguage hstyle hframe hfind
    obtain rfl := style_eq_jsdoc hmem hstyle
    -- the slashes are not those of the comment, which starts and ends with a star beside them
    have hword : IsForeignTo .jsdoc "//" := by decide +kernel
    exact ⟨hmem, hword.isRowWith hstamp h hslashes⟩
  · obtain ⟨heq, hcreate⟩ := create_infix_of_accepts hlanguage hstyle hframe hd haccepts
    have hword : IsForeignTo style "create<" := by cases style <;> decide +kernel
    exact ⟨heq, hword.isRowWith hstamp h hcreate⟩

/-- **A line of a block is no mark** if two slashes stand in no name and no description. -/
theorem ReadsOnlyRows.markOf_eq_plain (h : language.ReadsOnlyRows style sections line)
    (hslashes : language ∈ [typescript, csharp, java] →
      ∀ s ∈ sections, ¬ ("//" : Text) <:+: s.name ∧ ¬ ("//" : Text) <:+: s.description) :
    language.markOf line = .plain := by
  refine Language.markOf_eq_plain h.dropReturns_eq h.regionStart_eq h.regionEnd_eq ?_
  by_contra hfind
  obtain ⟨hmem, hrow⟩ := h.sectionMarker hfind
  exact Block.not_isRowWith (hslashes hmem) hrow

/-- **A line of a block opens no section** if the start of a store stands in no name and no
description. -/
theorem ReadsOnlyRows.detect?_eq_none (h : language.ReadsOnlyRows style sections line)
    (hcreate : language = typescript → ∀ s ∈ sections,
      ¬ ("create<" : Text) <:+: s.name ∧ ¬ ("create<" : Text) <:+: s.description) :
    language.detect? (Text.dropReturns line) = none := by
  rw [h.dropReturns_eq]
  refine Language.detect?_eq_none fun d hd haccepts => ?_
  obtain ⟨heq, hrow⟩ := h.detectors d hd haccepts
  exact Block.not_isRowWith (hcreate heq) hrow

end Language

end SectionIndex
