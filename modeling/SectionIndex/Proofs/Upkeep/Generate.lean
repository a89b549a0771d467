import SectionIndex.Proofs.Indexing.Names
import SectionIndex.Proofs.Upkeep.Splice
import SectionIndex.Upkeep.Generate

/-!
# What writing and removing an index do

Both operations give a file a new text only if they succeed: writing an index puts a block that was
written in the place of the one that is found, or at the top, and removing takes the one away that
is found.

## Main definitions

* `Generated` — what a successful writing has gone through.

## Main statements

* `Context.generate_cases`, `Context.remove_cases` — what comes of both operations.
* `Context.generated_of_generate` — a new text comes from a successful writing.
* `Generated.generate_eq` — a writing that goes through succeeds.
* `Generated.exists_isWritten` — the block in it was written.
* `Context.of_remove` — a new text comes from a block that was found.
-/

namespace SectionIndex

/-- **What a successful writing of an index has gone through:** the text it read, the language, the
block it found, the sections, and the clock. -/
structure Generated (context : Context) (file content : Text) (language : Language)
    (style : Block.Style) (existing : Option Block) (sections : List Section)
    (companion : Option Companion) (now : Moment) : Prop where
  load : context.host.loadFile file = .ok content
  language_eq : Language.ofPath? (Path.ofText file) = some language
  style_eq : language.blockStyle = some style
  parse : Block.parse content = .ok existing
  detect : context.detect file (Text.splitLines content) = .ok (sections, companion)
  clock : context.utcNow = .ok now
  numbers : Block.checkNumbers (indexedContent content existing style sections now.stamp).sections
    (indexedContent content existing style sections now.stamp).totalLines = .ok ()

variable {context : Context} {file content new : Text} {language : Language} {style : Block.Style}
  {existing : Option Block} {sections : List Section} {companion : Option Companion} {now : Moment}

/-- No fault ends in success. -/
theorem GenerateResult.status_ne_of_ofFault {fault : Fault} {result : GenerateResult}
    (h : GenerateResult.ofFault file fault = .ok result) : result.status ≠ .success := by
  unfold ofFault at h
  split at h <;> cases h <;> exact nofun

/-- **What comes of writing an index.** Either it does not succeed, and the file has no new text, or
it has gone through all of its steps on a file that is not below the limit. -/
theorem Context.generate_cases {minLines : Option Int} {result : GenerateResult}
    {new? : Option Text} (h : context.generate file minLines = .ok (result, new?)) :
    (result.status ≠ .success ∧ new? = none) ∨
      ∃ content language style existing sections companion now,
        Generated context file content language style existing sections companion now ∧
          ¬ (minLines.getD context.settings.minLines ≠ 0 ∧
            ((Text.splitLines content).length : Int) < minLines.getD context.settings.minLines) ∧
          result.status = .success ∧
          result.totalLines =
            (indexedContent content existing style sections now.stamp).totalLines ∧
          new? = some (indexedContent content existing style sections now.stamp).content := by
  -- the operation stops at a step with an outcome, or goes through all of them
  unfold generate at h
  split at h
  · next outcome htry =>
    cases h
    obtain ⟨content, hload, h⟩ := Fault.bind_eq_ok_iff.mp htry
    simp only at h
    split at h
    · cases h
      exact Or.inl ⟨nofun, rfl⟩
    · next hlimit =>
      split at h
      · cases h
      · next language hlanguage =>
        split at h
        · cases h
          exact Or.inl ⟨nofun, rfl⟩
        · next style hstyle =>
          obtain ⟨existing, hparse, h⟩ := Fault.bind_eq_ok_iff.mp h
          obtain ⟨⟨sections, companion⟩, hdetect, h⟩ := Fault.bind_eq_ok_iff.mp h
          obtain ⟨now, hnow, h⟩ := Fault.bind_eq_ok_iff.mp h
          obtain ⟨_, hnumbers, h⟩ := Fault.bind_eq_ok_iff.mp h
          cases h
          exact Or.inr ⟨content, language, style, existing, sections, companion, now,
            ⟨hload, hlanguage, hstyle, hparse, hdetect, hnow, hnumbers⟩, hlimit, rfl, rfl, rfl⟩
  · next fault _ =>
    obtain ⟨outcome, hfault, heq⟩ := Fault.map_eq_ok_iff.mp h
    cases heq
    exact Or.inl ⟨GenerateResult.status_ne_of_ofFault hfault, rfl⟩

/-- **A new text** comes from a successful writing. -/
theorem Context.generated_of_generate {minLines : Option Int} {result : GenerateResult}
    (h : context.generate file minLines = .ok (result, some new)) :
    ∃ content language style existing sections companion now,
      Generated context file content language style existing sections companion now ∧
        new = (indexedContent content existing style sections now.stamp).content := by
  rcases generate_cases h with ⟨-, hnone⟩ |
    ⟨content, language, style, existing, sections, companion, now, hg, -, -, -, hnew⟩
  · cases hnone
  · exact ⟨content, language, style, existing, sections, companion, now, hg, Option.some.inj hnew⟩

/-- A writing that succeeds gives the file a new text. -/
theorem Context.exists_of_success {minLines : Option Int} {result : GenerateResult}
    {new? : Option Text} (h : context.generate file minLines = .ok (result, new?))
    (hsuccess : result.status = .success) : ∃ new, new? = some new := by
  rcases generate_cases h with ⟨hstatus, -⟩ | ⟨_, _, _, _, _, _, _, -, -, -, -, hnew⟩
  · exact absurd hsuccess hstatus
  · exact ⟨_, hnew⟩

/-- **A writing that goes through** succeeds, on a file that is not below the limit. -/
theorem Generated.generate_eq
    (h : Generated context file content language style existing sections companion now)
    {minLines : Option Int} (hlimit : ¬ (minLines.getD context.settings.minLines ≠ 0 ∧
      ((Text.splitLines content).length : Int) < minLines.getD context.settings.minLines)) :
    ∃ result, context.generate file minLines = .ok (result,
        some (indexedContent content existing style sections now.stamp).content) ∧
      result.status = .success ∧
      result.action = some (if existing.isSome then .updated else .added) := by
  unfold Context.generate Context.tryGenerate
  simp only [h.load, bind, Except.bind, if_neg hlimit, h.language_eq, h.style_eq, h.parse, h.detect,
    h.clock, h.numbers]
  exact ⟨_, rfl, rfl, rfl⟩

/-- A writing that succeeds was on a file that is not below the limit. -/
theorem Context.not_below_of_success (hload : context.host.loadFile file = .ok content)
    {minLines : Option Int} {result : GenerateResult} {new? : Option Text}
    (hgenerate : context.generate file minLines = .ok (result, new?))
    (hsuccess : result.status = .success) :
    ¬ (minLines.getD context.settings.minLines ≠ 0 ∧
      ((Text.splitLines content).length : Int) < minLines.getD context.settings.minLines) := by
  rcases generate_cases hgenerate with ⟨hstatus, -⟩ | ⟨content', _, _, _, _, _, _, hg, hlimit, -⟩
  · exact absurd hsuccess hstatus
  · obtain rfl : content' = content := Except.ok.inj (hg.load.symm.trans hload)
    exact hlimit

theorem Context.blockStamp_of_utcNow (h : context.utcNow = .ok now) :
    context.now.blockStamp = some now.stamp := by
  rw [Moment.blockStamp, utcNow_eq_ok_iff.mp h]
  rfl

theorem Context.isStamp_of_utcNow (h : context.utcNow = .ok now) : Block.IsStamp now.stamp :=
  Block.isStamp_of_blockStamp (blockStamp_of_utcNow h)

theorem Generated.isStamp
    (h : Generated context file content language style existing sections companion now) :
    Block.IsStamp now.stamp :=
  Context.isStamp_of_utcNow h.clock

/-- The numbers in the block can be written. -/
theorem Generated.isWritable_numbers
    (h : Generated context file content language style existing sections companion now) :
    let indexed := indexedContent content existing style sections now.stamp
    isWritable indexed.totalLines = true ∧
      ∀ s ∈ indexed.sections, Block.IsWritableSection s :=
  Block.isWritable_of_numbers (Block.checkNumbers_eq_ok_iff.mp h.numbers)

@[simp] theorem Placement.move_name (placement : Placement) (s : Section) :
    (placement.move s).name = s.name := by
  unfold move
  split <;> rfl

/-- A section has the same texts when it is moved. -/
theorem Placement.hasTexts_move {P : Text → Prop} (placement : Placement) {s : Section}
    (h : s.HasTexts P) : (placement.move s).HasTexts P := by
  unfold move
  split
  · exact h
  · exact h

/-- **The texts of sections that are moved** are their own, or those of the section that covers a
file. -/
theorem forall_move {P : Text → Prop} {totalLines : Nat} {placement : Placement}
    (hname : P Section.fallbackName) (hdescription : P Section.fallbackDescription)
    (h : ∀ s ∈ sections, s.HasTexts P) :
    ∀ s ∈ orFallback totalLines (sections.map placement.move), s.HasTexts P := by
  refine forall_orFallback ⟨hname, hdescription⟩ fun s hs => ?_
  obtain ⟨s₀, hs₀, rfl⟩ := List.mem_map.mp hs
  exact placement.hasTexts_move (h s₀ hs₀)

/-- **The texts of the sections in the block** are those of the sections that were found, or those
of the section that covers a file. -/
theorem Generated.forall_sections {P : Text → Prop} (stamp : Text)
    (hname : P Section.fallbackName) (hdescription : P Section.fallbackDescription)
    (h : ∀ s ∈ sections, s.HasTexts P) :
    ∀ s ∈ (indexedContent content existing style sections stamp).sections, s.HasTexts P :=
  forall_move hname hdescription h

/-- **The file with its block:** the block was written, and it is put in the place of the one that
was found, or at the top. -/
theorem Generated.exists_isWritten
    (h : Generated context file content language style existing sections companion now) :
    ∃ block newline, newline.IsLineEnd ∧ Block.IsWritten style block ∧
      (indexedContent content existing style sections now.stamp).content =
        Block.insert content block existing newline := by
  let indexed := indexedContent content existing style sections now.stamp
  have hnewline := Text.detectNewline_isLineEnd content
  have hstamp := Context.blockStamp_of_utcNow h.clock
  have hsections : ∀ s ∈ indexed.sections, s.HasTexts ('\n' ∉ ·) :=
    Generated.forall_sections now.stamp (by decide) (by decide)
      (Context.lineFeed_not_mem_of_detect h.detect)
  have hserialize : Block.serialize indexed.sections indexed.totalLines style context.now
      (Text.detectNewline content) = .ok (Block.render indexed.sections indexed.totalLines style
        now.stamp (Text.detectNewline content)) :=
    Block.serialize_eq_ok_iff.mpr
      ⟨_, hstamp, Block.checkNumbers_eq_ok_iff.mp h.numbers, rfl⟩
  exact ⟨_, Text.detectNewline content, hnewline,
    ⟨indexed.sections, indexed.totalLines, context.now, _, hnewline, hsections, hserialize⟩, rfl⟩

theorem RemoveResult.of_ofFault {fault : Fault} {result : RemoveResult}
    (h : RemoveResult.ofFault file fault = .ok result) :
    result.status ≠ .success ∧ result.removed = false := by
  unfold ofFault at h
  split at h <;> cases h <;> exact ⟨nofun, rfl⟩

/-- **What comes of removing an index.** Either it does not succeed, and nothing is removed, or the
block that was found is taken away. -/
theorem Context.remove_cases {result : RemoveResult} {new? : Option Text}
    (h : context.remove file = .ok (result, new?)) :
    (result.status ≠ .success ∧ result.removed = false ∧ new? = none) ∨
      ∃ content existing, context.host.loadFile file = .ok content ∧
        Block.parse content = .ok (some existing) ∧ result.status = .success ∧
        result.removed = true ∧ new? = some (Block.remove content existing) := by
  -- the operation stops without a block, and takes it away otherwise
  unfold remove at h
  split at h
  · next outcome htry =>
    cases h
    obtain ⟨content, hload, h⟩ := Fault.bind_eq_ok_iff.mp htry
    obtain ⟨existing, hparse, h⟩ := Fault.bind_eq_ok_iff.mp h
    cases existing with
    | none =>
      cases h
      exact Or.inl ⟨nofun, rfl, rfl⟩
    | some existing =>
      cases h
      exact Or.inr ⟨content, existing, hload, hparse, rfl, rfl, rfl⟩
  · next fault _ =>
    obtain ⟨outcome, hfault, heq⟩ := Fault.map_eq_ok_iff.mp h
    cases heq
    obtain ⟨hstatus, hremoved⟩ := RemoveResult.of_ofFault hfault
    exact Or.inl ⟨hstatus, hremoved, rfl⟩

/-- **A file that loses its block** had one that was found. -/
theorem Context.of_remove {result : RemoveResult} {new? : Option Text}
    (h : context.remove file = .ok (result, new?)) (hnew : new? ≠ none ∨ result.removed = true) :
    ∃ content existing, context.host.loadFile file = .ok content ∧
      Block.parse content = .ok (some existing) ∧ new? = some (Block.remove content existing) := by
  rcases remove_cases h with ⟨-, hremoved, hnone⟩ | ⟨content, existing, hload, hparse, -, -, hgone⟩
  · simp [hremoved, hnone] at hnew
  · exact ⟨content, existing, hload, hparse, hgone⟩

end SectionIndex
