import SectionIndex.Proofs.Upkeep.Written

/-!
# A block that is scanned again

The block of a file is read like the rest of the file when the file is indexed the next time. No
line of it is the start or the end of a region. A row can be a section marker, as three languages
look for two slashes anywhere in a line, and it can open a store, as one of them looks for its start
anywhere; but both words have to stand in the name or the description of the row itself. Everything
else in a block, its stamp, its numbers and the padding of its cells, means nothing in any language.

## Main statements

* `Language.readsOnlyRows_of_serialize` — what the rules find in the lines of a written block.
* `Language.scan_of_serialize` — a block without these words has no sections of its own.
-/

namespace SectionIndex

variable {language : Language} {style : Block.Style} {sections : List Section} {totalLines : Int}
  {newline block : Text} {now : Moment}

/-- The lines of a written block are those that it is made of. -/
theorem Block.exists_splitLines_of_serialize (hnewline : newline.IsLineEnd)
    (hsections : ∀ s ∈ sections, s.HasTexts ('\n' ∉ ·))
    (hblock : serialize sections totalLines style now newline = .ok block) :
    ∃ stamp, IsStamp stamp ∧
      Text.splitLines block = blockLines style (bodyLines style sections totalLines stamp) := by
  obtain ⟨stamp, hnow, -, rfl⟩ := serialize_eq_ok_iff.mp hblock
  have hstamp : IsStamp stamp := isStamp_of_blockStamp hnow
  exact ⟨stamp, hstamp, splitLines_render hnewline hstamp hsections⟩

namespace Language

/-- **A written block is read as its rows at most**, whatever the clock and the number of lines of
the file are, if its names and descriptions stay in their lines. -/
theorem readsOnlyRows_of_serialize (hlanguage : language ∈ all)
    (hstyle : language.blockStyle = some style) (hnewline : newline.IsLineEnd)
    (hsections : ∀ s ∈ sections, s.HasTexts ('\n' ∉ ·))
    (hblock : Block.serialize sections totalLines style now newline = .ok block) :
    ∀ line ∈ Text.splitLines block, language.ReadsOnlyRows style sections line := by
  obtain ⟨stamp, hstamp, hlines⟩ :=
    Block.exists_splitLines_of_serialize hnewline hsections hblock
  intro line hline
  rw [hlines] at hline
  exact readsOnlyRows_of_mem_blockLines hlanguage hstyle hstamp hline

/-- A row with both words in it is a section marker and opens a store. -/
theorem readsOnlyRows_of_store :
    let s : Section := ⟨"// Section: cart", 3, 9, "create<Cart>(", .explicit⟩
    let now : Moment := ⟨2025, 3, 7, 12, 30, 0, 0, 0⟩
    ∃ block, Block.serialize [s] 40 .jsdoc now ['\n'] = .ok block ∧
      ∃ line ∈ Text.splitLines block, typescript.ReadsOnlyRows .jsdoc [s] line ∧
        Rule.findIn typescript.sectionMarker line ≠ none ∧
        ∃ d ∈ typescript.detectors, d.rule.accepts line = true := by
  intro s now
  -- one line of this block holds a mark, and a detector takes it for a declaration
  have hrules : ((Block.serialize [s] 40 .jsdoc now ['\n']).toOption.any fun block =>
      (Text.splitLines block).any fun line => (Rule.findIn typescript.sectionMarker line).isSome &&
        typescript.detectors.any (·.rule.accepts line)) = true := by decide +kernel
  cases hserialize : Block.serialize [s] 40 .jsdoc now ['\n'] with
  | error fault =>
    rw [hserialize] at hrules
    cases hrules
  | ok block =>
    rw [hserialize] at hrules
    obtain ⟨line, hline, hfound⟩ := List.any_eq_true.mp hrules
    obtain ⟨hmarker, hdetector⟩ := Bool.and_eq_true_iff.mp hfound
    have hlanguage : typescript ∈ all := .head _
    have hread := readsOnlyRows_of_serialize hlanguage rfl (Or.inl rfl)
      (List.forall_mem_singleton.mpr ⟨by decide, by decide⟩) hserialize
    exact ⟨block, rfl, line, hline, hread line hline, Option.isSome_iff_ne_none.mp hmarker,
      List.any_eq_true.mp hdetector⟩

/-- **A block has no sections of its own**, marked or detected, if no name and no description of a
row has the word in it that the language looks for anywhere in a line. -/
theorem scan_of_serialize (hlanguage : language ∈ all)
    (hstyle : language.blockStyle = some style) (hnewline : newline.IsLineEnd)
    (hsections : ∀ s ∈ sections, s.HasTexts ('\n' ∉ ·))
    (hslashes : language ∈ [typescript, csharp, java] →
      ∀ s ∈ sections, s.HasTexts (¬ ("//" : Text) <:+: ·))
    (hcreate : language = typescript → ∀ s ∈ sections, s.HasTexts (¬ ("create<" : Text) <:+: ·))
    (hblock : Block.serialize sections totalLines style now newline = .ok block) :
    scanExplicit (some language) (Text.splitLines block) = [] ∧
      scanAuto (some language) (Text.splitLines block) = [] := by
  obtain ⟨stamp, hstamp, hlines⟩ :=
    Block.exists_splitLines_of_serialize hnewline hsections hblock
  have hread : ∀ line ∈ Text.splitLines block, language.ReadsOnlyRows style sections line := by
    intro line hline
    rw [hlines] at hline
    exact readsOnlyRows_of_mem_blockLines hlanguage hstyle hstamp hline
  -- lines that mean nothing only move what is found after them, and nothing follows here
  have hexplicit := scanExplicit_append [] fun line hline =>
    (hread line hline).markOf_eq_plain hslashes
  have hauto := scanAuto_append [] fun line hline => (hread line hline).detect?_eq_none hcreate
  rw [List.append_nil, scanExplicit_nil, List.map_nil] at hexplicit
  rw [List.append_nil, scanAuto_nil, List.map_nil] at hauto
  exact ⟨hexplicit, hauto⟩

end Language

end SectionIndex
