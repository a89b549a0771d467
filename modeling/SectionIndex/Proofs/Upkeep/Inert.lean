import SectionIndex.Proofs.Upkeep.Places
import Mathlib.Data.List.Infix

/-!
# Blocks that mean nothing

The names and descriptions of detected sections stand in the table of languages, and none of them
makes a mark or the start of a section of a line of a block. So a block that holds detected sections
means nothing in the file, and it is found there again if it stands in whole lines.

## Main definitions

* `Text.IsInert` — a text that means nothing in a line of a block.
* `Block.InWholeLines` — a block that stands in whole lines of a file.

## Main statements

* `Language.ignores_of_mem_blockLines` — the lines of a block with such texts.
* `Generated.ignores_of_auto` — a block of detected sections means nothing.
* `Generated.exists_isSettled_of_auto` — when it is found in the file that is written.
-/

namespace SectionIndex

open Text (EndsInside)

/-! ### Blocks that mean nothing -/

/-- **A text that means nothing in a line of a block:** it stays in the line, and it has neither the
sign of a line comment nor the bracket of a component in it. -/
structure Text.IsInert (t : Text) : Prop where
  unbroken : t.IsUnbroken
  no_slashes : ¬ ['/', '/'] <:+: t
  no_angle : '<' ∉ t

instance (t : Text) : Decidable t.IsInert :=
  decidable_of_iff (t.IsUnbroken ∧ ¬ ['/', '/'] <:+: t ∧ '<' ∉ t)
    ⟨fun h => ⟨h.1, h.2.1, h.2.2⟩, fun h => ⟨h.unbroken, h.no_slashes, h.no_angle⟩⟩

theorem Text.isUnbroken_numbered {name : Text} (n : Nat) (h : name.IsUnbroken) :
    (Section.numbered name n).IsUnbroken := by
  have hdigits : Text.IsUnbroken (Text.ofNat n) := fun c hc =>
    Block.isLineBreak_of_isBlockChar (Block.isBlockChar_of_mem_ofInt (n := n) hc)
  exact Text.isUnbroken_append.mpr ⟨h, Text.isUnbroken_cons.mpr ⟨rfl, hdigits⟩⟩

theorem isInert_numbered {name : Text} (n : Nat) (h : name.IsInert) :
    (Section.numbered name n).IsInert where
  unbroken := Text.isUnbroken_numbered n h.unbroken
  no_slashes := fun hslashes => by
    have hslash : '/' ∉ '-' :: Text.ofNat n := by
      rw [List.mem_cons, not_or]
      exact ⟨by decide, not_mem_ofNat (by decide)⟩
    have hapart : ∀ c ∈ ['/', '/'], c ∉ '-' :: Text.ofNat n :=
      List.forall_mem_cons.mpr ⟨hslash, List.forall_mem_cons.mpr ⟨hslash, List.forall_mem_nil _⟩⟩
    exact h.no_slashes (Text.infix_of_append_left (by decide) hapart hslashes)
  no_angle := not_mem_numbered n (by decide) (by decide) h.no_angle

/-- **The texts of detected sections** stand in the table of languages, and mean nothing. -/
theorem isInert_of_mem_scanAuto {path : Path} {lines : List Text} :
    ∀ s ∈ presentSections (scanAuto (Language.ofPath? path) lines), s.HasTexts Text.IsInert :=
  forall_presentSections (fun _ n => isInert_numbered n) (by decide +kernel) (by decide)
    (forall_scanAuto (by decide) (by decide +kernel))

/-- **A line of a block** with such texts means nothing in the language of the file. -/
theorem Language.ignores_of_mem_blockLines {language : Language} {style : Block.Style}
    {sections : List Section} {totalLines : Int} {stamp : Text}
    (hlanguage : language ∈ Language.all) (hstyle : language.blockStyle = some style)
    (hstamp : Block.IsStamp stamp) (h : ∀ s ∈ sections, s.HasTexts Text.IsInert) :
    ∀ line ∈ Block.blockLines style (Block.bodyLines style sections totalLines stamp),
      line.IsUnbroken ∧ language.Ignores line := by
  intro line hline
  have hunbroken := Block.isUnbroken_of_mem_blockLines hstamp
    (fun s hs => ⟨(h s hs).1.unbroken, (h s hs).2.unbroken⟩) line hline
  have hread := Language.readsOnlyRows_of_mem_blockLines hlanguage hstyle hstamp hline
  -- the start of a store has an angle bracket in it
  have hcreate : ∀ t : Text, t.IsInert → ¬ ("create<" : Text) <:+: t := fun t ht =>
    Text.not_isInfix_of_not_mem (by decide) ht.no_angle
  exact ⟨hunbroken,
    hread.markOf_eq_plain fun _ s hs => ⟨(h s hs).1.no_slashes, (h s hs).2.no_slashes⟩,
    hread.detect?_eq_none fun _ s hs => ⟨hcreate _ (h s hs).1, hcreate _ (h s hs).2⟩⟩

/-! ### Blocks in whole lines -/

namespace Block

variable {content block newline : Text} {existing : Option Block} {b : Block}

/-- **The block stands in whole lines of the file.** -/
def InWholeLines (content : Text) (b : Block) : Prop :=
  startsLine (content.take b.start) = true ∧ Text.EndsLine (content.drop b.stop)

/-- **The lines in which a block stands** are its own if it stands in whole lines. -/
theorem InWholeLines.linesIn_eq (hwhole : InWholeLines content b)
    (h : parse content = .ok (some b)) : b.linesIn content = Text.splitLines b.raw := by
  obtain ⟨hstart, hafter⟩ := hwhole
  obtain ⟨hcontent, -⟩ := exists_eq_of_parse h
  obtain ⟨-, hends⟩ := insert_raw [] h
  -- whole lines stand before the block, and its last line ends where it ends
  obtain ⟨before, hbefore, htake⟩ := startsLine_iff.mp hstart
  obtain ⟨hlength, hsplit⟩ := hends.exists_splitLines
  obtain ⟨after, hlines⟩ : ∃ after, Text.restLines (b.raw ++ content.drop b.stop) =
      Text.splitLines b.raw ++ after := by
    rcases hafter with hnil | ⟨newline, rest, hnewline, heq⟩
    · refine ⟨[], ?_⟩
      rw [hnil, List.append_nil, List.append_nil, hends.splitLines_eq]
    · exact ⟨Text.restLines rest, by rw [heq, ← List.append_assoc, hsplit newline rest hnewline]⟩
  have hrest : Text.restLines content =
      before.map Text.dropReturn ++ (Text.splitLines b.raw ++ after) := by
    rw [← hlines, ← Text.restLines_wholeLines_append _ hbefore, ← htake, ← hcontent]
  have hne : Text.restLines content ≠ [] := by
    rw [hrest, ← List.length_pos_iff, List.length_append, List.length_append, hlength]
    omega
  refine linesIn_of_parse h ((Text.splitLines_of_restLines_ne_nil hne).trans hrest) ?_ hlength
  rw [htake, Text.count_wholeLines hbefore, List.length_map]

/-- **A block that is put into a file** and found there stands in whole lines if the old one does,
and a first block does in any file. -/
theorem inWholeLines_insert (h : newline.IsLineEnd) (hparse : parse content = .ok existing)
    (hb : parse (insert content block existing newline) = .ok (some b))
    (hstart : b.start = placeOf content existing) (hraw : b.raw = block)
    (hwhole : ∀ b₀ ∈ existing, InWholeLines content b₀) :
    InWholeLines (insert content block existing newline) b := by
  obtain ⟨-, hstop, -⟩ := exists_of_parse hb
  rw [hraw] at hstop
  cases existing with
  | some b₀ =>
    obtain ⟨hstarts, hends⟩ := hwhole b₀ rfl
    obtain ⟨htake, hdrop⟩ := take_drop_replace block hparse
    rw [InWholeLines, hstop, hstart, insert_some, placeOf, htake, hdrop]
    exact ⟨hstarts, hends⟩
  | none =>
    have hline : startsLine (interpreterLine content) = true := by
      unfold interpreterLine
      split
      · exact startsLine_append _ (List.cons_ne_nil _ _)
      · rfl
    have htext : insert content block none newline =
        interpreterLine content ++ block ++ (newline ++ (newline ++ bodyOf content)) := by
      simp only [insert_none, insertNew, bodyOf, List.append_assoc]
    rw [InWholeLines, hstop, hstart, placeOf, htext, ← List.length_append, List.drop_left,
      List.append_assoc, List.take_left]
    exact ⟨hline, h.endsLine_append _⟩

end Block

/-! ### Blocks of detected sections -/

section Detected

variable {context : Context} {file content : Text} {language : Language} {style : Block.Style}
  {existing : Option Block} {found : List Section} {companion : Option Companion} {now : Moment}

-- there are no marks in the file, and it has no companion document with sections
variable (h : Generated context file content language style existing found companion now)
  (hcompanion : ∀ document ∈ companion, document.sections = [])
  (hmarks : scanExplicit (some language) (Text.splitLines content) = [])

include h hcompanion hmarks

/-- The texts of the detected sections that are written mean nothing in a line of a block. -/
theorem Generated.isInert_of_auto :
    ∀ s ∈ (indexedContent content existing style found now.stamp).sections,
      s.HasTexts Text.IsInert := by
  have hfound := h.found_eq_presentSections
  rw [chooseSections_of_forall _ _ hcompanion, chooseSections.scanned, hmarks, ← h.language_eq]
    at hfound
  refine Generated.forall_sections now.stamp (by decide +kernel) (by decide +kernel) ?_
  rw [hfound]
  exact isInert_of_mem_scanAuto

/-- **A block of detected sections** means nothing in the file. -/
theorem Generated.ignores_of_auto :
    ∀ line ∈ Text.splitLines (indexedBlock content existing style found now.stamp),
      line.IsUnbroken ∧ language.Ignores line := by
  have hstamp := h.isStamp
  have hinert := h.isInert_of_auto hcompanion hmarks
  rw [indexedBlock, Block.splitLines_render (Text.detectNewline_isLineEnd content) hstamp
    fun s hs => ⟨(hinert s hs).1.unbroken.not_mem rfl, (hinert s hs).2.unbroken.not_mem rfl⟩]
  exact Language.ignores_of_mem_blockLines (Language.mem_all_of_ofPath? h.language_eq) h.style_eq
    hstamp hinert

omit h hmarks in
/-- The file lacks rows of a companion document after a block of detected sections is written, even
if it is that document itself. -/
theorem Generated.lacksRows_of_auto
    (h : Generated context file content language style none found companion now)
    (hmarks : scanExplicit (some language) (Text.splitLines content) = []) :
    (context.host.overwrite (Path.ofText file)
      (indexedContent content none style found now.stamp).content).LacksRows file := by
  have hstamp := h.isStamp
  have hinert := h.isInert_of_auto hcompanion hmarks
  have hunbroken : ∀ line ∈ blockOf content style found now.stamp, line.IsUnbroken :=
    Block.isUnbroken_of_mem_blockLines hstamp fun s hs =>
      ⟨(hinert s hs).1.unbroken, (hinert s hs).2.unbroken⟩
  obtain ⟨hdocument, -⟩ := Context.detect_eq_ok_iff.mp h.detect
  exact Host.companionOf_overwrite h.load (readRows_indexedContent hunbroken)
    ⟨companion, hdocument, hcompanion⟩

/-- **A block of detected sections is found** in the file that is written, and means nothing there,
if the old one stands in whole lines that mean nothing and what is around it is clear. -/
theorem Generated.exists_isSettled_of_auto (hwhole : ∀ b ∈ existing, Block.InWholeLines content b)
    (hclear : ∀ b ∈ existing, Block.IsClear style (content.take b.start)
      (indexedBlock content existing style found now.stamp) (content.drop b.stop))
    (hold : ∀ b ∈ existing, ∀ line ∈ Text.splitLines b.raw, language.Ignores line) :
    ∃ b, Block.IsSettled language style content existing
      (indexedBlock content existing style found now.stamp)
      (indexedContent content existing style found now.stamp).content b := by
  have hnewline := Text.detectNewline_isLineEnd content
  have hstamp := h.isStamp
  have hinert := h.isInert_of_auto hcompanion hmarks
  obtain ⟨-, hcontent⟩ := h.serialize_eq
  obtain ⟨htotal, hwritable⟩ := h.isWritable_numbers
  have hreadable : Block.IsReadable style (indexedBlock content existing style found now.stamp) :=
    Block.exists_parseRows_of_isUnbroken _ hnewline hstamp
      fun s hs => ⟨(hinert s hs).1.unbroken, hwritable s hs⟩
  have hlocate := (Block.locate?_insert_render_iff hnewline hstamp (h.lineFeed_not_mem _)
    h.parse).mpr hclear
  obtain ⟨b, hparse, hstart, hstyle, hraw, -⟩ := (Block.isFoundAt_render_iff hnewline hstamp
    (Int.natCast_nonneg _) htotal).mpr ⟨hlocate, hreadable⟩
  -- neither the lines that are taken out nor those that are put in mean anything to the scan
  refine ⟨b, hcontent ▸ hparse, hstart, hstyle, hraw, fun b₀ hb₀ => ?_, ?_⟩
  · rw [(hwhole b₀ hb₀).linesIn_eq (hb₀ ▸ h.parse)]
    exact fun line hline => (hold b₀ hb₀ line hline).passesOver _
  · have hlines : b.linesIn (indexedContent content existing style found now.stamp).content =
        Text.splitLines (indexedBlock content existing style found now.stamp) :=
      ((Block.inWholeLines_insert hnewline h.parse hparse hstart hraw hwhole).linesIn_eq
        hparse).trans (congrArg _ hraw)
    intro line hline
    exact (h.ignores_of_auto hcompanion hmarks line (hlines ▸ hline)).2.passesOver _

end Detected

end SectionIndex
