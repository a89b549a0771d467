import SectionIndex.Proofs.Block.Again
import SectionIndex.Proofs.Upkeep.Restoration

/-!
# Blocks that are replaced

A block of the style of the old one is found in its place. What stands around the old block did not
keep it from being found, and what is begun there and not finished does not reach the new block
either: a comment block closes any comment that is open before it, so none was, and a hash block
without the end of a comment closes none. Hash lines that start a block would have run into the old
block as well. So what is left to ask is whether the number of lines of the block can be read, as
for the first block of a file.

## Main definitions

* `Block.IsReplaced` — a block stands in the place of another one.

## Main statements

* `Block.isClear_of_locate?` — what stands around a block is clear for any block of its style.
* `Block.exists_isReplaced_iff` — when a block is found and read in the place of another one.
-/

namespace SectionIndex

namespace Block

variable {style : Style} {sections : List Section} {totalLines : Int} {now : Moment}
  {stamp newline t before raw after block content : Text} {p q : Block}

/-! ### What stands around a block -/

/-- A comment block that is read ends with the end of a comment. -/
theorem closing_infix_of_jsdocAt? (h : jsdocAt? t = some raw) : closing <:+: raw := by
  obtain ⟨opening, rest, found, -, -, hfound, rfl⟩ := exists_of_jsdocAt? h
  obtain ⟨body, post, rfl, -⟩ := exists_of_throughClosing hfound
  rw [← List.append_assoc]
  exact (List.suffix_append _ closing).isInfix

/-- **What stands around a block that is found** is clear for any block of its style. A hash block
must not close a comment that is open before it. -/
theorem isClear_of_locate? (block : Text)
    (hlocate : locate? (before ++ (raw ++ after)) = some (before.length, style, raw))
    (hclosing : style = .hash → ¬ closing <:+: block) : IsClear style before block after := by
  obtain ⟨hat, hcomments, hhashes⟩ := locate?_append_iff.mp hlocate
  rcases cases_of_blockAt? hat with ⟨rfl, hread⟩ | ⟨rfl, hstart, hread⟩
  · -- the old block would have closed a comment that is open before it
    obtain ⟨c, rest, rfl, hc⟩ := exists_cons_of_blockAt? hat
    have hends := closing_infix_of_jsdocAt? hread
    exact (jsdocAt?_before_of_closing hc
      (hends.trans (List.prefix_append _ after).isInfix)).mp hcomments
  · -- hash lines that start a block would have run into the old one
    obtain ⟨post, hpost, hcloses, -⟩ := exists_of_hashAt? hread
    obtain rfl := List.append_cancel_left hpost
    have hlines := (hashAt?_before_iff hstart (by rw [hread]; exact Option.some_ne_none _)
      hhashes).mp hhashes
    exact ⟨hstart, hcloses, hlines, fun _ => hclosing rfl⟩

/-- **No end of a comment stands in a hash block** if none stands in its names and descriptions. -/
theorem closing_not_infix_render (totalLines : Int) (h : newline.IsLineEnd) (hstamp : IsStamp stamp)
    (hsections : ∀ s ∈ sections, s.HasTexts (¬ closing <:+: ·)) :
    ¬ closing <:+: render sections totalLines .hash stamp newline := by
  rw [closing_infix_render_iff totalLines h hstamp]
  rintro ⟨s, hs, hname | hdescription⟩
  · exact (hsections s hs).1 (infix_of_escapeCell (by decide) hname)
  · exact (hsections s hs).2 (infix_of_escapeCell (by decide) hdescription)

/-- **A block in the place of another one of its style** is found there. -/
theorem locate?_insert_some (totalLines : Int) (h : newline.IsLineEnd) (hstamp : IsStamp stamp)
    (hsections : ∀ s ∈ sections, s.HasTexts ('\n' ∉ ·))
    (hclosing : p.style = .hash → ∀ s ∈ sections, s.HasTexts (¬ closing <:+: ·))
    (hparse : parse content = .ok (some p)) :
    let block := render sections totalLines p.style stamp newline
    locate? (insert content block (some p) newline) = some (p.start, p.style, block) := by
  intro block
  obtain ⟨hcontent, hlength, hlocate⟩ := exists_eq_of_parse hparse
  have hold : locate? (content.take p.start ++ (p.raw ++ content.drop p.stop)) =
      some ((content.take p.start).length, p.style, p.raw) := by
    rw [← hcontent, hlength]
    exact hlocate
  refine (locate?_insert_render_iff h hstamp hsections hparse).mpr fun b hb => ?_
  obtain rfl : p = b := Option.some.inj hb
  refine isClear_of_locate? block hold fun hstyle => ?_
  simp only [block, hstyle]
  exact closing_not_infix_render totalLines h hstamp (hclosing hstyle)

/-! ### The block in its place -/

/-- **The block stands in the place of the old one:** it starts where that one did, in its style,
and what stands before and after it stood there. -/
structure IsReplaced (content block new : Text) (p q : Block) : Prop where
  raw_eq : q.raw = block
  style_eq : q.style = p.style
  start_eq : q.start = p.start
  before_eq : new.take q.start = content.take p.start
  after_eq : new.drop q.stop = content.drop p.stop

/-- Whatever block is read stands in the place of the old one. -/
theorem isReplaced_of_parse (hparse : parse content = .ok (some p))
    (hlocate : locate? (insert content block (some p) newline) = some (p.start, p.style, block))
    (hq : parse (insert content block (some p) newline) = .ok (some q)) :
    IsReplaced content block (insert content block (some p) newline) p q := by
  obtain ⟨hfound, hstop, -⟩ := exists_of_parse hq
  have hplace := Option.some.inj (hfound.symm.trans hlocate)
  have hstart : q.start = p.start := congrArg Prod.fst hplace
  have hstyle : q.style = p.style := congrArg (fun found => found.2.1) hplace
  have hraw : q.raw = block := congrArg (fun found => found.2.2) hplace
  obtain ⟨htake, hdrop⟩ := take_drop_replace block hparse
  rw [hraw, hstart] at hstop
  exact ⟨hraw, hstyle, hstart, by rw [hstart]; exact htake, by rw [hstop]; exact hdrop⟩

/-- **A block of the style of the old one is found in its place**, and what stands before and after
it is kept, as long as the number of lines that the block gives can be read. It can be if it is not
negative. -/
theorem exists_isReplaced_iff (hparse : parse content = .ok (some p)) (h : newline.IsLineEnd)
    (hsections : ∀ s ∈ sections, s.HasTexts Text.IsUnbroken)
    (hclosing : p.style = .hash → ∀ s ∈ sections, s.HasTexts (¬ closing <:+: ·))
    (hserialize : serialize sections totalLines p.style now newline = .ok block) :
    ((∃ q, parse (insert content block (some p) newline) = .ok (some q) ∧
        IsReplaced content block (insert content block (some p) newline) p q) ↔
        HasReadableTotal block) ∧
      (0 ≤ totalLines → HasReadableTotal block) := by
  obtain ⟨stamp, hclock, hnumbers, rfl⟩ := serialize_eq_ok_iff.mp hserialize
  have hstamp := isStamp_of_blockStamp hclock
  obtain ⟨hwritable, hwritables⟩ := isWritable_of_numbers hnumbers
  have hlocate := locate?_insert_some totalLines h hstamp (fun s hs =>
    ⟨(hsections s hs).1.lineFeed_not_mem, (hsections s hs).2.lineFeed_not_mem⟩) hclosing hparse
  refine ⟨?_, fun htotal => hasReadableTotal_render p.style sections h hstamp htotal hwritable⟩
  have hread := exists_parse_iff_of_locate? h hstamp
    (fun s hs => ⟨hsections s hs, hwritables s hs⟩) hlocate
  refine Iff.trans ?_ hread
  constructor
  · rintro ⟨q, hq, -⟩
    exact ⟨q, hq⟩
  · rintro ⟨q, hq⟩
    exact ⟨q, hq, isReplaced_of_parse hparse hlocate hq⟩

/-- A hash block is replaced between a comment and hash lines that are begun before it, and hash
lines that are begun after it, with the starts of blocks and an end mark in its table. -/
theorem exists_isReplaced_of_begun :
    let content : Text :=
      "# @ai-index\nx = 1  /**\n * @ai-index\n# @ai-index\n# old\n# @end-ai-index\r\n# @ai-index\n"
    let newline : Text := ['\r', '\n']
    let s : Section := ⟨"/** | @ai-index *", 3, 4, "# @end-ai-index", .auto⟩
    let p : Block :=
      { raw := "# @ai-index\n# old\n# @end-ai-index"
        style := .hash, start := 36, stop := 69, firstLine := 4, lastLine := 6
        rows := [], generatedAt := none, totalLines := none }
    parse content = .ok (some p) ∧ newline.IsLineEnd ∧ s.HasTexts Text.IsUnbroken ∧
      s.HasTexts (¬ closing <:+: ·) ∧
      ∃ block, serialize [s] 12 p.style ⟨2024, 2, 29, 1, 2, 3, 4, 0⟩ newline = .ok block ∧
        ∃ q, parse (insert content block (some p) newline) = .ok (some q) ∧
          IsReplaced content block (insert content block (some p) newline) p q := by
  intro content newline s p
  have hparse : parse content = .ok (some p) := by decide +kernel
  have hnewline : newline.IsLineEnd := Or.inr rfl
  have hunbroken : s.HasTexts Text.IsUnbroken := ⟨by decide +kernel, by decide +kernel⟩
  have hclosing : s.HasTexts (¬ closing <:+: ·) := ⟨by decide +kernel, by decide +kernel⟩
  refine ⟨hparse, hnewline, hunbroken, hclosing, ?_⟩
  obtain ⟨block, hserialize⟩ : ∃ block,
      serialize [s] 12 p.style ⟨2024, 2, 29, 1, 2, 3, 4, 0⟩ newline = .ok block :=
    ⟨_, serialize_eq_ok_iff.mpr ⟨_, rfl, by decide +kernel, rfl⟩⟩
  obtain ⟨hreplaced, htotal⟩ := exists_isReplaced_iff hparse hnewline
    (List.forall_mem_singleton.mpr hunbroken) (fun _ => List.forall_mem_singleton.mpr hclosing)
    hserialize
  exact ⟨block, hserialize, hreplaced.mpr (htotal (by decide))⟩

/-! ### A number of lines that cannot be read -/

/-- A block of minus one lines with a number of 4301 digits in a name is put in the place of another
one, but it cannot be read there. -/
theorem not_exists_parse_replace_of_long_total :
    let content : Text := "# @ai-index\n# @end-ai-index\n"
    let digits : Text := List.replicate 4301 '1'
    let s : Section := ⟨totalLinesLabel ++ ' ' :: digits, 1, 1, [], .auto⟩
    ∃ p block, parse content = .ok (some p) ∧ s.HasTexts Text.IsUnbroken ∧
      s.HasTexts (¬ closing <:+: ·) ∧
      serialize [s] (-1) p.style ⟨2024, 2, 29, 1, 2, 3, 4, 0⟩ ['\n'] = .ok block ∧
      ¬ ∃ q, parse (insert content block (some p) ['\n']) = .ok (some q) := by
  intro content digits s
  let p : Block :=
    { raw := "# @ai-index\n# @end-ai-index"
      style := .hash, start := 0, stop := 27, firstLine := 1, lastLine := 2
      rows := [], generatedAt := none, totalLines := none }
  have hparse : parse content = .ok (some p) := by decide +kernel
  have hdigits : ∀ c ∈ digits, c.isDigit = true := by
    intro c hc
    rw [List.eq_of_mem_replicate hc]
    rfl
  have hlength : maxDigits < digits.length := by
    rw [List.length_replicate]
    decide
  -- neither the label nor the digits break the line
  have hunbroken : s.HasTexts Text.IsUnbroken := by
    refine ⟨?_, Text.isUnbroken_nil⟩
    show Text.IsUnbroken (totalLinesLabel ++ ' ' :: digits)
    rw [Text.isUnbroken_append, Text.isUnbroken_cons]
    exact ⟨by decide, rfl, Text.isUnbroken_replicate rfl⟩
  have hclosing : s.HasTexts (¬ closing <:+: ·) := by
    have hstar : '*' ∉ s.name := by
      show '*' ∉ totalLinesLabel ++ ' ' :: digits
      rw [List.mem_append, List.mem_cons, not_or, not_or]
      exact ⟨by decide, by decide, fun hmem => absurd (hdigits _ hmem) (by decide)⟩
    exact ⟨fun h => hstar (h.subset List.mem_cons_self), by decide⟩
  have hwritable : IsWritableSection s := ⟨by decide, by decide, by decide⟩
  obtain ⟨stamp, hclock⟩ : ∃ stamp,
      Moment.blockStamp ⟨2024, 2, 29, 1, 2, 3, 4, 0⟩ = some stamp := ⟨_, rfl⟩
  have hstamp := isStamp_of_blockStamp hclock
  have hnumbers : (numbers [s] (-1)).all isWritable = true := by
    have hlist : numbers [s] (-1) = [-1, 1, 1, 1] := rfl
    rw [hlist]
    decide
  refine ⟨p, render [s] (-1) .hash stamp ['\n'], hparse, hunbroken, hclosing, ?_, ?_⟩
  · exact serialize_eq_ok_iff.mpr ⟨stamp, hclock, hnumbers, rfl⟩
  · have hlocate := locate?_insert_some (-1) (Or.inl rfl) hstamp
      (List.forall_mem_singleton.mpr ⟨hunbroken.1.lineFeed_not_mem, hunbroken.2.lineFeed_not_mem⟩)
      (fun _ => List.forall_mem_singleton.mpr hclosing) hparse
    -- what is left to read is the number after the label in the name
    have hread := exists_parse_iff_of_locate? (Or.inl rfl) hstamp
      (List.forall_mem_singleton.mpr ⟨hunbroken, hwritable⟩) hlocate
    intro hq
    exact not_hasReadableTotal_of_name hstamp rfl hdigits hlength (by decide) (hread.mp hq)

end Block

end SectionIndex
