import SectionIndex.Proofs.Block.Replace
import SectionIndex.Proofs.Block.Reread
import SectionIndex.Proofs.Upkeep.Written

/-!
# The block that is found in the file that is written

An index that is written is meant to be found again, in the style of the language and with the
number of lines of the file. The first block of a file always is, if its table can be read. A block
that is put in the place of another is found only if what stands around it is clear.

## Main definitions

* `Block.placeOf` — where a block is put.
* `Block.IsFoundAt` — a block is found at a place with its number of lines.

## Main statements

* `Block.isFoundAt_render_iff` — a block that was written is found if the search ends at it and its
  table can be read.
* `Context.isFoundAt_of_generate_iff` — when the block that is written is found in its file.
-/

namespace SectionIndex

namespace Block

variable {style : Style} {sections : List Section} {totalLines : Int} {stamp newline : Text}
  {content : Text}

/-- **The offset where a block is put:** where the old block stands, or after the line of an
interpreter. -/
def placeOf (content : Text) : Option Block → Nat
  | some b => b.start
  | none => (interpreterLine content).length

/-- **The block is found** at this place of the text, with its style and this number of lines. -/
def IsFoundAt (start : Nat) (style : Style) (block content : Text) (totalLines : Int) : Prop :=
  ∃ b, parse content = .ok (some b) ∧ b.start = start ∧ b.style = style ∧ b.raw = block ∧
    b.totalLines = some totalLines

/-- **The table of a block can be read:** no cell of its rows holds digits that make no number. -/
def IsReadable (style : Style) (block : Text) : Prop :=
  ∃ rows, parseRows style [] (Text.breakLines block) = .ok rows

/-- **A block that was written is found** if the search ends at it and its table can be read. -/
theorem isFoundAt_render_iff {start : Nat} (h : newline.IsLineEnd) (hstamp : IsStamp stamp)
    (htotal : 0 ≤ totalLines) (hwritable : isWritable totalLines = true) :
    let block := render sections totalLines style stamp newline
    IsFoundAt start style block content totalLines ↔
      locate? content = some (start, style, block) ∧ IsReadable style block := by
  intro block
  constructor
  · -- a block that is found was located, and its rows were read
    rintro ⟨b, hparse, rfl, rfl, hraw, -⟩
    obtain ⟨hlocate, -⟩ := exists_of_parse hparse
    obtain ⟨-, -, -, hrows⟩ := parse_eq_some hlocate hparse
    rw [hraw] at hlocate hrows
    exact ⟨hlocate, _, hrows⟩
  · rintro ⟨hlocate, rows, hrows⟩
    obtain ⟨-, hlabel⟩ := valueAfter?_render style sections h hstamp htotal
    have hread : readNumber (Text.ofInt totalLines) = .ok totalLines :=
      readNumber_ofInt htotal hwritable
    -- the block that is put together has the place and the text that were located
    let firstLine := (content.take start).count '\n' + 1
    let b : Block :=
      { raw := block
        style := style
        start := start
        stop := start + block.length
        firstLine := firstLine
        lastLine := firstLine + block.count '\n'
        rows := rows
        generatedAt := valueAfter? generatedLabel (fun c => !isBlank c) block
        totalLines := some totalLines }
    have hparse : parse content = .ok (some b) := by
      rw [parse, hlocate]
      simp only [hrows]
      rw [hlabel]
      show (Except.ok _ >>= fun _ => ((some <$> readNumber (Text.ofInt totalLines)) >>= _)) = _
      rw [hread]
      rfl
    exact ⟨b, hparse, rfl, rfl, rfl, rfl⟩

/-- What stands around the place of the block that is found. -/
theorem exists_eq_of_parse {b : Block} (h : parse content = .ok (some b)) :
    content = content.take b.start ++ (b.raw ++ content.drop b.stop) ∧
      (content.take b.start).length = b.start ∧
      locate? content = some (b.start, b.style, b.raw) := by
  obtain ⟨hlocate, hstop, -⟩ := exists_of_parse h
  obtain ⟨before, post, rfl, hstart, -⟩ := exists_of_locate? hlocate
  rw [hstop, hstart, ← List.length_append, List.drop_left, List.append_assoc, List.take_left]
  exact ⟨rfl, rfl, hstart ▸ List.append_assoc before b.raw post ▸ hlocate⟩

/-- **A block that is put into a file is found** if what stands around the old one is clear, and a
first block is found in any file. -/
theorem locate?_insert_render_iff {existing : Option Block} (h : newline.IsLineEnd)
    (hstamp : IsStamp stamp) (hsections : ∀ s ∈ sections, s.HasTexts ('\n' ∉ ·))
    (hparse : parse content = .ok existing) :
    let block := render sections totalLines style stamp newline
    locate? (insert content block existing newline) =
        some (placeOf content existing, style, block) ↔
      ∀ b ∈ existing, IsClear style (content.take b.start) block (content.drop b.stop) := by
  intro block
  cases existing with
  | none =>
    have hends : style = .hash → Text.EndsLine (newline ++ (newline ++ bodyOf content)) :=
      fun _ => h.endsLine_append _
    have htext : insert content block none newline =
        interpreterLine content ++ block ++ (newline ++ (newline ++ bodyOf content)) := by
      simp only [insert_none, insertNew, bodyOf, List.append_assoc]
    rw [htext]
    exact iff_of_true
      (locate?_render style totalLines (isHead_interpreterLine content) h hstamp hsections hends)
      fun _ h => absurd h (Option.not_mem_none _)
  | some b =>
    obtain ⟨hcontent, hlength, hlocate⟩ := exists_eq_of_parse hparse
    have htext : insert content block (some b) newline =
        content.take b.start ++ (block ++ content.drop b.stop) := by
      rw [insert_some, replace, List.append_assoc]
    have hold : locate? (content.take b.start ++ (b.raw ++ content.drop b.stop)) =
        some ((content.take b.start).length, b.style, b.raw) := by
      rw [← hcontent, hlength]
      exact hlocate
    have hbody : ∀ line ∈ tailLines style sections totalLines stamp, IsBodyLine style line :=
      isBodyLine_of_mem hstamp hsections
    have hnew := locate?_replace_iff h hold hbody
    have hplace : placeOf content (some b) = (content.take b.start).length := hlength.symm
    rw [htext, hplace]
    simp only [Option.mem_some_iff, forall_eq']
    exact hnew

end Block

/-! ### The file that is written -/

section Written

variable {context : Context} {file content : Text} {existing : Option Block}

/-- **Success means that an index is there** if what stands around the old block is clear and the
table can be read, and only then. A table can be read if no name in it is broken. -/
theorem Context.isFoundAt_of_generate_iff (hload : context.host.loadFile file = .ok content)
    (hparse : Block.parse content = .ok existing) {minLines : Option Int} {result : GenerateResult}
    {new? : Option Text} (hgenerate : context.generate file minLines = .ok (result, new?))
    (hsuccess : result.status = .success) :
    ∃ style written block new,
      (Language.ofPath? (Path.ofText file)).bind Language.blockStyle = some style ∧
      Block.serialize written (Text.splitLines new).length style context.now
        (Text.detectNewline content) = .ok block ∧
      new? = some new ∧ new = Block.insert content block existing (Text.detectNewline content) ∧
      result.totalLines = (Text.splitLines new).length ∧
      (Block.IsFoundAt (Block.placeOf content existing) style block new result.totalLines ↔
        (∀ b ∈ existing, Block.IsClear style (content.take b.start) block (content.drop b.stop)) ∧
          Block.IsReadable style block) ∧
      ((∀ s ∈ written, s.name.IsUnbroken) → Block.IsReadable style block) := by
  obtain ⟨language, style, sections, companion, now, hg, rfl, htotal⟩ :=
    exists_generated hload hparse hgenerate hsuccess
  obtain ⟨hserialize, hcontent⟩ := hg.serialize_eq
  have hlines := hg.totalLines_eq
  have hnewline := Text.detectNewline_isLineEnd content
  have hstamp := hg.isStamp
  obtain ⟨hwritable, hsections⟩ := hg.isWritable_numbers
  rw [hlines] at hserialize
  refine ⟨style, _, _, _, hg.bind_blockStyle_eq, hserialize, rfl, hcontent,
    htotal.trans (congrArg _ hlines), ?_, ?_⟩
  · rw [htotal, hcontent]
    refine (Block.isFoundAt_render_iff hnewline hstamp (Int.natCast_nonneg _) hwritable).trans ?_
    exact and_congr_left' (Block.locate?_insert_render_iff hnewline hstamp
      (hg.lineFeed_not_mem _) hparse)
  · intro hunbroken
    exact Block.exists_parseRows_of_isUnbroken _ hnewline hstamp
      fun s hs => ⟨hunbroken s hs, hsections s hs⟩

/-- Hash lines that are put in the place of a comment in the middle of a line are not found. -/
theorem Context.not_isFoundAt_of_generate_of_script :
    let file : Text := "a.py"
    let content : Text := "x = 1  /**\n * @ai-index\n */\nimport os\n"
    let context : Context := ⟨⟨⟨[([file], .file (encodeUtf8 content))]⟩, [], "/", []⟩,
      { workspaceRoot := ⟨.root, []⟩ }, ⟨2024, 2, 29, 1, 2, 3, 4, 0⟩⟩
    ∃ result block new, context.generate file none = .ok (result, some new) ∧
      result.status = .success ∧ block <:+: new ∧
      ¬ Block.IsFoundAt 7 .hash block new result.totalLines := by
  intro file content context
  let old : Block :=
    { raw := "/**\n * @ai-index\n */"
      style := .jsdoc, start := 7, stop := 27, firstLine := 1, lastLine := 3
      rows := [], generatedAt := none, totalLines := none }
  have hload : context.host.loadFile file = .ok content :=
    Host.loadFile_of_encodeUtf8 [file] (by decide +kernel)
  have hparse : Block.parse content = .ok (some old) := by decide +kernel
  have hstyle : (Language.ofPath? (Path.ofText file)).bind Language.blockStyle = some .hash := by
    decide +kernel
  -- no line starts at the place of the comment
  have hclear : ∀ block, ¬ Block.IsClear .hash (content.take old.start) block
      (content.drop old.stop) := by
    intro block hclear
    have hstart : Block.startsLine (content.take old.start) = false := by decide +kernel
    rw [Block.IsClear, hstart] at hclear
    exact absurd hclear.1 (by decide)
  have hplace : old.start = 7 := rfl
  have hsuccess : (context.generate file none).toOption.map (·.1.status) = some .success := by
    decide +kernel
  clear_value old context content file
  obtain ⟨⟨result, new?⟩, hgenerate, hsuccess⟩ := Fault.toOption_map_eq_some_iff.mp hsuccess
  obtain ⟨style, written, block, new, hstyle', -, rfl, hnew, -, hfound, -⟩ :=
    Context.isFoundAt_of_generate_iff hload hparse hgenerate hsuccess
  obtain rfl := Option.some.inj (hstyle'.symm.trans hstyle)
  refine ⟨result, block, new, hgenerate, hsuccess, ?_, ?_⟩
  · rw [hnew]
    exact ⟨content.take old.start, content.drop old.stop, rfl⟩
  · rw [← hplace]
    exact fun h => hclear block ((hfound.mp h).1 old rfl)

end Written

end SectionIndex
