import SectionIndex.Indexing.Resolve
import SectionIndex.Proofs.Block.Returns
import SectionIndex.Proofs.Upkeep.Written
import SectionIndex.Upkeep.Generate
import SectionIndex.Upkeep.Verify

/-!
# Files with carriage returns

Whether a file ends its lines with a line feed or with a carriage return and a line feed makes no
difference: its sections are the same, and so is everything that is told of it. A new text that it
gets has the line ends of the file.

## Main definitions

* `Context.IsReturned` — two systems that differ in the line ends of a file.

## Main statements

* `Block.insert_withReturns`, `Block.remove_withReturns` — the text with a block, and without it.
* `indexedContent_withReturns` — the file with the block of its sections.
* `Context.answers_of_isReturned` — the operations on the file.
-/

namespace SectionIndex

open Text (withReturns)

variable {content : Text}

namespace Block

/-! ### Putting blocks in and taking them out -/

theorem interpreterLine_withReturns (content : Text) :
    interpreterLine (Text.withReturns content) = Text.withReturns (interpreterLine content) := by
  have hsign : ['#', '!'] <+: Text.withReturns content ↔ ['#', '!'] <+: content :=
    Text.isPrefix_withReturns_iff (by decide) (by decide)
  unfold interpreterLine
  simp only [List.isPrefixOf_iff_prefix, hsign, Text.lineFeed_mem_withReturns_iff]
  split
  · next h =>
    rw [Text.takeWhile_withReturns_of_mem h.2, Text.withReturns_append,
      Text.withReturns_of_not_mem fun hmem => ?_]
    · simp only [List.append_assoc]
      rfl
    · have hnot := List.all_eq_true.mp List.all_takeWhile '\n' hmem
      exact absurd hnot (by decide)
  · rfl

theorem insertionLine_withReturns (content : Text) :
    insertionLine (Text.withReturns content) = insertionLine content := by
  unfold insertionLine
  rw [interpreterLine_withReturns]
  simp only [Text.withReturns_eq_nil_iff]

/-- The text is cut at the place of the block. -/
theorem exists_parts_of_parse {b : Block} (h : parse content = .ok (some b)) :
    ∃ before post, content = before ++ b.raw ++ post ∧ content.take b.start = before ∧
      content.drop b.stop = post ∧
      (Text.withReturns content).take (Block.withReturns content b).start =
        Text.withReturns before ∧
      (Text.withReturns content).drop (Block.withReturns content b).stop =
        Text.withReturns post := by
  obtain ⟨hlocate, hstop, -⟩ := exists_of_parse h
  obtain ⟨before, post, hcontent, hstart, -⟩ := exists_of_locate? hlocate
  have hbefore : content.take b.start = before := by
    rw [hcontent, hstart, List.append_assoc, List.take_left]
  refine ⟨before, post, hcontent, hbefore, ?_, ?_, ?_⟩
  · rw [hstop, hstart, ← List.length_append, hcontent, List.drop_left]
  · rw [Block.withReturns, hbefore, hcontent, List.append_assoc, Text.withReturns_append,
      List.take_left]
  · rw [Block.withReturns, hbefore, ← List.length_append, hcontent, Text.withReturns_append,
      Text.withReturns_append, List.drop_left]

/-- **The text with a block** has carriage returns where the text without it and the block have
them. -/
theorem insert_withReturns {existing : Option Block} (block : Text)
    (h : parse content = .ok existing) :
    insert (Text.withReturns content) (Text.withReturns block)
        (existing.map (Block.withReturns content)) ['\r', '\n'] =
      Text.withReturns (insert content block existing ['\n']) := by
  cases existing with
  | none =>
    -- the body of the text with returns is that of the text, with returns
    have hdrop :
        (Text.withReturns content).drop (interpreterLine (Text.withReturns content)).length =
          Text.withReturns (bodyOf content) := by
      have htext := congrArg Text.withReturns (interpreterLine_append_bodyOf content)
      rw [Text.withReturns_append] at htext
      rw [interpreterLine_withReturns, ← htext, List.drop_left]
    rw [Option.map_none, insert_none, insert_none, insertNew, insertNew, hdrop,
      interpreterLine_withReturns]
    simp only [Text.withReturns_append]
    rfl
  | some b =>
    obtain ⟨before, post, -, hbefore, hpost, hbefore', hpost'⟩ := exists_parts_of_parse h
    rw [Option.map_some, insert_some, insert_some, replace, replace, hbefore, hpost, hbefore',
      hpost']
    simp only [Text.withReturns_append]

theorem dropLineEnds_withReturns {t : Text} (h : '\r' ∉ t) :
    dropLineEnds (Text.withReturns t) = Text.withReturns (dropLineEnds t) := by
  induction t with
  | nil => rfl
  | cons c t ih =>
    obtain ⟨hc, ht⟩ := not_or.mp (mt List.mem_cons.mpr h)
    by_cases hfeed : c = '\n'
    · subst hfeed
      exact ih ht
    · have hplain : ∀ u : Text, dropLineEnds (c :: u) = c :: u := by
        intro u
        unfold dropLineEnds
        split
        · next heq => exact absurd (List.cons.inj heq).1 hfeed
        · next heq => exact absurd (List.cons.inj heq).1.symm hc
        · rfl
      rw [Text.withReturns_cons _ hfeed, hplain, hplain, Text.withReturns_cons _ hfeed]

/-- **The text without a block.** -/
theorem remove_withReturns {b : Block} (hreturn : '\r' ∉ content)
    (h : parse content = .ok (some b)) :
    remove (Text.withReturns content) (Block.withReturns content b) =
      Text.withReturns (remove content b) := by
  obtain ⟨before, post, hcontent, hbefore, hpost, hbefore', hpost'⟩ := exists_parts_of_parse h
  have hreturns : '\r' ∉ post := fun hmem => hreturn (by simp [hcontent, hmem])
  rw [remove, remove, hbefore, hpost, hbefore', hpost', dropLineEnds_withReturns hreturns,
    Text.withReturns_append]

end Block

/-! ### The file with its block -/

section Texts

variable {existing : Option Block} {style : Block.Style} {sections : List Section} {stamp : Text}

/-- The lines of a block with carriage returns. -/
theorem render_withReturns (totalLines : Int) (hstamp : Block.IsStamp stamp)
    (h : ∀ s ∈ sections, s.HasTexts ('\n' ∉ ·)) :
    Block.render sections totalLines style stamp ['\r', '\n'] =
      withReturns (Block.render sections totalLines style stamp ['\n']) :=
  (Text.withReturns_join (Block.lineFeed_not_mem_of_mem_blockLines hstamp h)).symm

theorem placementOf_withReturns (content : Text) (existing : Option Block) (height : Int) :
    Placement.of (withReturns content) (existing.map (Block.withReturns content)) height =
      Placement.of content existing height := by
  cases existing with
  | none =>
    rw [Option.map_none, Placement.of, Placement.of, Block.insertionLine_withReturns]
  | some b => rfl

/-- **The file with the block of its sections** has carriage returns where the file has them. -/
theorem indexedContent_withReturns (style : Block.Style) (hreturn : '\r' ∉ content)
    (hfeed : '\n' ∈ content) (hparse : Block.parse content = .ok existing)
    (hstamp : Block.IsStamp stamp) (hsections : ∀ s ∈ sections, s.HasTexts ('\n' ∉ ·)) :
    let indexed := indexedContent content existing style sections stamp
    indexedContent (withReturns content) (existing.map (Block.withReturns content)) style sections
        stamp = { indexed with content := withReturns indexed.content } := by
  have htexts : ∀ totalLines placement,
      ∀ s ∈ orFallback totalLines (sections.map (Placement.move placement)),
        s.HasTexts ('\n' ∉ ·) :=
    fun _ _ => forall_move (by decide) (by decide) hsections
  intro indexed
  simp only [indexed, indexedContent, placementOf_withReturns, Text.detectNewline_withReturns hfeed,
    Text.detectNewline_of_not_mem hreturn, render_withReturns _ hstamp (htexts _ _),
    Block.insert_withReturns _ hparse, Text.length_splitLines_withReturns]

end Texts

/-! ### The operations on the file -/

/-- **Two systems that differ in the line ends of a file:** one has line feeds alone in it, the
other a carriage return before each of them, and the companion document and the clock are the same
in both. -/
structure Context.IsReturned (context other : Context) (file content : Text) : Prop where
  load : context.host.loadFile file = .ok content
  load_other : other.host.loadFile file = .ok (withReturns content)
  companionOf_eq : other.host.companionOf file = context.host.companionOf file
  settings_eq : other.settings = context.settings
  now_eq : other.now = context.now
  return_not_mem : '\r' ∉ content
  lineFeed_mem : '\n' ∈ content

namespace Context

variable {context other : Context} {file : Text}

theorem IsReturned.utcNow_eq (h : IsReturned context other file content) :
    other.utcNow = context.utcNow := by
  rw [utcNow, utcNow, h.now_eq]

theorem IsReturned.detect_eq (h : IsReturned context other file content) (lines : List Text) :
    other.detect file lines = context.detect file lines := by
  rw [detect, detect, h.companionOf_eq]

theorem IsReturned.splitLines_eq (h : IsReturned context other file content) :
    Text.splitLines (withReturns content) = Text.splitLines content :=
  Text.splitLines_withReturns h.return_not_mem

theorem IsReturned.indexOf_eq (h : IsReturned context other file content) :
    other.indexOf file (withReturns content) = context.indexOf file content := by
  unfold indexOf
  simp only [h.splitLines_eq, h.detect_eq, h.utcNow_eq]

theorem IsReturned.index_eq (h : IsReturned context other file content) :
    other.index file = context.index file := by
  unfold index
  rw [h.load, h.load_other]
  exact h.indexOf_eq

theorem IsReturned.readSection_eq (h : IsReturned context other file content) (name : Text) :
    other.readSection file name = context.readSection file name := by
  unfold readSection
  rw [h.load, h.load_other]
  show (other.indexOf file (withReturns content) >>= _) = (context.indexOf file content >>= _)
  rw [h.indexOf_eq, h.splitLines_eq]

theorem IsReturned.verify_eq (h : IsReturned context other file content)
    (tolerance : Option Int) : other.verify file tolerance = context.verify file tolerance := by
  unfold verify contentIssues
  rw [h.load, h.load_other]
  simp only
  rw [Block.parse_withReturns h.return_not_mem, h.splitLines_eq, h.settings_eq]
  -- the rows of the block are all that is compared with the file
  cases Block.parse content with
  | error fault => rfl
  | ok stored =>
    cases stored with
    | none => rfl
    | some stored => rfl

theorem IsReturned.tryGenerate_eq (h : IsReturned context other file content) (minLines : Int) :
    other.tryGenerate file minLines =
      (context.tryGenerate file minLines).map (Prod.map id (Option.map withReturns)) := by
  unfold tryGenerate
  rw [h.load, h.load_other]
  show (if minLines ≠ 0 ∧ ((Text.splitLines (withReturns content)).length : Int) < minLines then _
    else _) = Except.map _ (if minLines ≠ 0 ∧ ((Text.splitLines content).length : Int) < minLines
      then _ else _)
  rw [h.splitLines_eq]
  -- both stop at the same step, or go on with the same values
  split
  · rfl
  · cases Language.ofPath? (Path.ofText file) with
    | none => rfl
    | some language =>
      simp only
      cases language.blockStyle with
      | none => rfl
      | some style =>
        simp only
        rw [Block.parse_withReturns h.return_not_mem, h.detect_eq, h.utcNow_eq]
        -- the same block is found, at another place
        cases hparse : Block.parse content with
        | error fault => rfl
        | ok existing =>
          cases hdetect : context.detect file (Text.splitLines content) with
          | error fault => rfl
          | ok found =>
            cases hclock : context.utcNow with
            | error fault => rfl
            | ok now =>
              have hindexed := indexedContent_withReturns style h.return_not_mem
                h.lineFeed_mem hparse (isStamp_of_utcNow hclock)
                (lineFeed_not_mem_of_detect hdetect)
              have hsome : (existing.map (Block.withReturns content)).isSome = existing.isSome :=
                Option.isSome_map
              simp only [Except.map, bind, Except.bind, hindexed, hsome]
              split
              · rfl
              · rfl

/-- **Line ends do not matter.** Of a file whose lines end with a carriage return and a line feed
the same is told as of the file whose lines end with a line feed alone: the same index and the same
text of each section, the same check, and the same outcome of writing its index and of removing it.
A new text is the same but for the line ends, and a fault is the same fault. -/
theorem answers_of_isReturned (h : IsReturned context other file content) :
    other.index file = context.index file ∧
      (∀ name, other.readSection file name = context.readSection file name) ∧
      (∀ tolerance, other.verify file tolerance = context.verify file tolerance) ∧
      (∀ minLines, other.generate file minLines =
        (context.generate file minLines).map (Prod.map id (Option.map withReturns))) ∧
      other.remove file =
        (context.remove file).map (Prod.map id (Option.map withReturns)) := by
  refine ⟨h.index_eq, h.readSection_eq, h.verify_eq, fun minLines => ?_, ?_⟩
  · rw [generate, generate, h.tryGenerate_eq, h.settings_eq]
    cases context.tryGenerate file (minLines.getD context.settings.minLines) with
    | ok result => rfl
    | error fault =>
      -- a fault gives the file no new text
      simp only [Except.map]
      cases GenerateResult.ofFault file fault <;> rfl
  · have htry : other.tryRemove file =
        (context.tryRemove file).map (Prod.map id (Option.map withReturns)) := by
      unfold tryRemove
      rw [h.load, h.load_other]
      show (Block.parse (withReturns content) >>= _) = Except.map _ (Block.parse content >>= _)
      rw [Block.parse_withReturns h.return_not_mem]
      cases hparse : Block.parse content with
      | error fault => rfl
      | ok existing =>
        cases existing with
        | none => rfl
        | some b =>
          simp only [Except.map, bind, Except.bind, Option.map_some, pure, Except.pure, Prod.map,
            Block.remove_withReturns h.return_not_mem hparse, id]
    rw [remove, remove, htry]
    cases context.tryRemove file with
    | ok result => rfl
    | error fault =>
      simp only [Except.map]
      cases RemoveResult.ofFault file fault <;> rfl

/-- **A file that is written again** with carriage returns. Its companion document is the same, even
if it is the file itself. -/
theorem isReturned_overwrite (hload : context.host.loadFile file = .ok content)
    (hreturn : '\r' ∉ content) (hfeed : '\n' ∈ content) :
    IsReturned context ⟨context.host.overwrite (Path.ofText file) (withReturns content),
      context.settings, context.now⟩ file content := by
  have hcompanion : (context.host.overwrite (Path.ofText file) (withReturns content)).companionOf
      file = context.host.companionOf file := by
    rcases Host.companionOf_overwrite_cases hload (withReturns content) with
      hsame | ⟨path, hold, hnew⟩
    · exact hsame
    · rw [hold, hnew, Companion.parse, Companion.parse, Text.breakLines_normalizeNewlines,
        Text.breakLines_normalizeNewlines, Text.breakLines_withReturns hreturn]
  have hother := Host.loadFile_overwrite (withReturns content) hload
  revert hcompanion hother
  generalize context.host.overwrite (Path.ofText file) (withReturns content) = written
  intro hcompanion hother
  exact ⟨hload, hother, hcompanion, rfl, rfl, hreturn, hfeed⟩

/-- A script and the same script with returns get the same index, and the same block but for the
returns. -/
theorem answers_of_isReturned_of_script :
    let file : Text := "a.py"
    let content : Text := "import os\nclass A(B):\n    pass\n"
    let context : Context := ⟨⟨⟨[([file], .file (encodeUtf8 content))]⟩, [], "/", []⟩,
      { workspaceRoot := ⟨.root, []⟩ }, ⟨2024, 2, 29, 1, 2, 3, 4, 0⟩⟩
    let other : Context := ⟨context.host.overwrite (Path.ofText file) (withReturns content),
      context.settings, context.now⟩
    ∃ result new, context.generate file none = .ok (result, some new) ∧
      result.status = .success ∧ other.generate file none = .ok (result, some (withReturns new)) ∧
      other.index file = context.index file := by
  intro file content context other
  have hload : context.host.loadFile file = .ok content :=
    Host.loadFile_of_encodeUtf8 [file] (by decide +kernel)
  have hreturn : '\r' ∉ content := by decide
  have hfeed : '\n' ∈ content := by decide
  have hsuccess : (context.generate file none).toOption.map (·.1.status) = some .success := by
    decide +kernel
  obtain ⟨hindex, -, -, hgenerate, -⟩ :=
    answers_of_isReturned (isReturned_overwrite hload hreturn hfeed)
  replace hgenerate := hgenerate none
  clear_value context content file
  obtain ⟨⟨result, new?⟩, hold, hsuccess⟩ := Fault.toOption_map_eq_some_iff.mp hsuccess
  obtain ⟨new, rfl⟩ := exists_of_success hold hsuccess
  rw [hold] at hgenerate
  exact ⟨result, new, hold, hsuccess, hgenerate, hindex⟩

end Context

end SectionIndex
