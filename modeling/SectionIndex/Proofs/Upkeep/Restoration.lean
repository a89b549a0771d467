import SectionIndex.Proofs.Block.Numerals
import SectionIndex.Proofs.Indexing.Names
import SectionIndex.Proofs.Upkeep.Places

/-!
# Files that are restored

A block that is put into a file is found there, and without it the file is as it was, less the empty
lines at the start of what stands after the block. The block is found but not read if it gives a
number of lines that is too long to be read. The number that is written is never too long. But a
negative one is not taken for a number, and then the label may stand in a name.

## Main definitions

* `Block.SkipsLineEnds` — what is left of a text without the line ends at its start.
* `Block.HasReadableTotal` — the number of lines that a block gives can be read.
* `Block.IsRestored` — a block stands where it was put, and the file without it.

## Main statements

* `Block.valueAfter?_render_of_neg` — a negative number of lines is passed over.
* `Block.exists_isRestored_iff` — when a file is restored.
-/

namespace SectionIndex

namespace Block

open Text (IsLineEnd)

variable {style : Style} {sections : List Section} {totalLines : Int} {now : Moment}
  {stamp newline block content : Text}

/-! ### Line ends at the start of a text -/

/-- **What is left of a text** when the line ends at its start are taken away, all of them. -/
structure SkipsLineEnds (t rest : Text) : Prop where
  exists_ends : ∃ ends : List Text, (∀ newline ∈ ends, IsLineEnd newline) ∧ t = ends.flatten ++ rest
  not_prefix : ∀ newline, IsLineEnd newline → ¬ newline <+: rest

/-- One more line end at the start is taken away with the others. -/
theorem SkipsLineEnds.append {t rest : Text} (h : SkipsLineEnds t rest)
    (hnewline : newline.IsLineEnd) : SkipsLineEnds (newline ++ t) rest where
  exists_ends := by
    obtain ⟨ends, hends, rfl⟩ := h.exists_ends
    refine ⟨newline :: ends, List.forall_mem_cons.mpr ⟨hnewline, hends⟩, ?_⟩
    rw [List.flatten_cons, List.append_assoc]
  not_prefix := h.not_prefix

theorem skipsLineEnds_dropLineEnds (t : Text) : SkipsLineEnds t (dropLineEnds t) := by
  fun_induction dropLineEnds t with
  | case1 t ih => exact ih.append (Or.inl rfl)
  | case2 t ih => exact ih.append (Or.inr rfl)
  | case3 t hfeed hreturn =>
    refine ⟨⟨[], List.forall_mem_nil _, rfl⟩, ?_⟩
    rintro newline (rfl | rfl) ⟨rest, heq⟩
    · exact hfeed rest heq.symm
    · exact hreturn rest heq.symm

/-- Nothing is taken away from a text that starts with no line end, and from no other. -/
theorem SkipsLineEnds.eq_iff {t rest : Text} (h : SkipsLineEnds t rest) :
    rest = t ↔ ∀ newline, IsLineEnd newline → ¬ newline <+: t := by
  constructor
  · rintro rfl
    exact h.not_prefix
  · intro hnot
    obtain ⟨ends, hends, rfl⟩ := h.exists_ends
    cases ends with
    | nil => rfl
    | cons newline ends =>
      have hfirst := hends newline List.mem_cons_self
      rw [List.flatten_cons, List.append_assoc] at hnot
      exact absurd (List.prefix_append newline _) (hnot newline hfirst)

/-! ### The number of lines that a block gives -/

/-- **The number of lines that a block gives can be read**, if it gives one: it has not too many
digits. -/
def HasReadableTotal (block : Text) : Prop :=
  ∀ value, valueAfter? totalLinesLabel isDecimal block = some value → value.length ≤ maxDigits

/-- The number is read exactly if it has not too many digits. -/
theorem exists_readTotal_iff_hasReadableTotal (block : Text) :
    (∃ total, (valueAfter? totalLinesLabel isDecimal block).mapM readNumber = .ok total) ↔
      HasReadableTotal block := by
  rw [exists_readTotal_iff]
  unfold HasReadableTotal
  constructor
  · intro h value hvalue
    exact (h value (by rw [hvalue]; exact List.mem_singleton_self value)).length_le
  · intro h value hmem
    have hvalue := Option.mem_toList.mp hmem
    exact ⟨(of_valueAfter? hvalue).1, h value hvalue⟩

/-- **The number that is written** can be read. -/
theorem hasReadableTotal_render (style : Style) (sections : List Section) (h : newline.IsLineEnd)
    (hstamp : IsStamp stamp) (htotal : 0 ≤ totalLines) (hwritable : isWritable totalLines = true) :
    HasReadableTotal (render sections totalLines style stamp newline) := by
  obtain ⟨-, hvalue⟩ := valueAfter?_render style sections h hstamp htotal
  obtain ⟨n, rfl⟩ := Int.eq_ofNat_of_zero_le htotal
  intro value heq
  obtain rfl := Option.some.inj (hvalue.symm.trans heq)
  exact of_decide_eq_true hwritable

/-- **A negative number of lines is passed over:** what is read in its place is whatever stands
after such a label in the table. -/
theorem valueAfter?_render_of_neg (style : Style) (sections : List Section) (h : newline.IsLineEnd)
    (hstamp : IsStamp stamp) (htotal : totalLines < 0) :
    valueAfter? totalLinesLabel isDecimal (render sections totalLines style stamp newline) =
      valueAfter? totalLinesLabel isDecimal (Text.join newline (tableLines style sections)) := by
  have hnewline : '@' ∉ newline := by rcases h with rfl | rfl <;> decide
  obtain ⟨n, rfl⟩ := Int.eq_negSucc_of_lt_zero htotal
  -- the sign is no digit, so there is no value after the label
  have hvalue (rest : Text) :
      valueAt? totalLinesLabel isDecimal (totalLinesLabel ++ ' ' :: '-' :: rest) = none := rfl
  have hdigits : '@' ∉ Text.ofNat (n + 1) := not_mem_ofNat rfl
  -- the label does not start again before the table
  have hbefore : '@' ∉ ("total-lines -" : Text) ++ (Text.ofNat (n + 1) ++ newline) := by
    rw [List.mem_append, List.mem_append, not_or, not_or]
    exact ⟨by decide, hdigits, hnewline⟩
  rw [valueAfter?_totalLines_render style sections _ h hstamp]
  show valueAfter? totalLinesLabel isDecimal
    (totalLinesLabel ++ ' ' :: '-' :: (Text.ofNat (n + 1) ++ _)) = _
  have hlabel : totalLinesLabel = '@' :: ("total-lines" : Text) := rfl
  have hpassed := hvalue (Text.ofNat (n + 1) ++
    (newline ++ Text.join newline (tableLines style sections)))
  rw [hlabel, List.cons_append] at hpassed ⊢
  rw [valueAfter?, hpassed]
  have hafter : valueAfter? ('@' :: ("total-lines" : Text)) isDecimal
      (("total-lines -" ++ (Text.ofNat (n + 1) ++ newline)) ++
        Text.join newline (tableLines style sections)) = _ :=
    valueAfter?_append_of_not_mem _ hbefore
  rw [List.append_assoc, List.append_assoc] at hafter
  exact hafter

/-! ### A number of lines in a name -/

/-- No label starts in a line of a table if none starts in its cells. -/
theorem at_not_mem_tableLine {cells : List Text} (h : ∀ cell ∈ cells, '@' ∉ cell) :
    '@' ∉ tableLine cells := by
  have hjoin : '@' ∉ Text.join " | " cells := by
    intro hmem
    rcases Text.mem_join hmem with hbar | ⟨cell, hcell, hmem⟩
    · exact absurd hbar (by decide)
    · exact h cell hcell hmem
  unfold tableLine
  rw [List.mem_append, List.mem_append, not_or, not_or]
  exact ⟨⟨by decide, hjoin⟩, by decide⟩

/-- The two lines above the rows of a table have no label in them. -/
theorem at_not_mem_headings (n m : Nat) : '@' ∉ headingLine n m ∧ '@' ∉ dashLine n m := by
  -- neither the cells nor the padding after them hold the sign of a label
  have hpadded (k : Nat) {t : Text} (ht : '@' ∉ t) : '@' ∉ Text.padRight k t := by
    intro hmem
    rcases List.mem_append.mp hmem with hmem | hmem
    · exact ht hmem
    · exact absurd (List.eq_of_mem_replicate hmem) (by decide)
  have hdashes (k : Nat) : '@' ∉ List.replicate k '-' := by
    intro hmem
    exact absurd (List.eq_of_mem_replicate hmem) (by decide)
  constructor
  · refine at_not_mem_tableLine ?_
    simp only [List.forall_mem_cons]
    exact ⟨hpadded n (by decide), by decide, by decide, by decide, hpadded m (by decide),
      List.forall_mem_nil _⟩
  · refine at_not_mem_tableLine ?_
    simp only [List.forall_mem_cons]
    exact ⟨hdashes _, hdashes _, hdashes _, hdashes _, hdashes _, List.forall_mem_nil _⟩

/-- **The first label in a table** may stand in the name of a section, and its digits are what is
read. -/
theorem valueAfter?_tableLines_of_name {s : Section} {digits : Text}
    (hname : s.name = totalLinesLabel ++ ' ' :: digits) (hdigits : ∀ c ∈ digits, c.isDigit = true)
    (hne : digits ≠ []) :
    valueAfter? totalLinesLabel isDecimal (Text.join ['\n'] (tableLines .hash [s])) =
      some digits := by
  have hbar : '|' ∉ s.name := by
    rw [hname, List.mem_append, List.mem_cons, not_or, not_or]
    exact ⟨by decide, by decide, fun hmem => absurd (hdigits _ hmem) (by decide)⟩
  have hcell : escapeCell .hash s.name = s.name := escapeBars_of_not_mem hbar
  unfold tableLines tableRows
  simp only [List.map_cons, List.map_nil, List.cons_append, List.nil_append]
  generalize columnWidth [escapeCell .hash s.name] = n
  generalize columnWidth [escapeCell .hash s.description] = m
  obtain ⟨hheading, hdash⟩ := at_not_mem_headings n m
  -- the name stands at the start of the row, and a space after it
  obtain ⟨rest, hrow⟩ : ∃ rest, sectionLine .hash n m s = "| " ++ (s.name ++ ' ' :: rest) := by
    unfold sectionLine tableLine
    rw [hcell, Text.join_cons_of_ne_nil _ _ (List.cons_ne_nil _ _)]
    unfold Text.padRight
    simp only [List.append_assoc]
    cases n - s.name.length with
    | zero => exact ⟨_, rfl⟩
    | succ k => exact ⟨_, rfl⟩
  have hlines (line : Text) (hline : line ≠ []) : commentLine "#" line = '#' :: ' ' :: line :=
    commentLine_of_ne_nil "#" hline
  have hheadingLine : headingLine n m ≠ [] := List.cons_ne_nil _ _
  have hdashLine : dashLine n m ≠ [] := List.cons_ne_nil _ _
  have hsectionLine : sectionLine .hash n m s ≠ [] := List.cons_ne_nil _ _
  -- the name is the first place in these lines that holds the label, and its value follows
  have htext : Text.join ['\n'] [commentLine "#" [], commentLine "#" (headingLine n m),
      commentLine "#" (dashLine n m), commentLine "#" (sectionLine .hash n m s),
      commentLine "#" endMarker] =
      (['#', '\n', '#', ' '] ++ (headingLine n m ++ (['\n', '#', ' '] ++
        (dashLine n m ++ ['\n', '#', ' ', '|', ' '])))) ++
      (totalLinesLabel ++
        ' ' :: (digits ++ ' ' :: (rest ++ '\n' :: commentLine "#" endMarker))) := by
    rw [Text.join_cons_of_ne_nil _ _ (List.cons_ne_nil _ _),
      Text.join_cons_of_ne_nil _ _ (List.cons_ne_nil _ _),
      Text.join_cons_of_ne_nil _ _ (List.cons_ne_nil _ _),
      Text.join_cons_of_ne_nil _ _ (List.cons_ne_nil _ _), Text.join_singleton,
      hlines _ hheadingLine, hlines _ hdashLine, hlines _ hsectionLine, hrow, hname]
    simp only [List.append_assoc, List.cons_append]
    rfl
  have hopening : '@' ∉ (['#', '\n', '#', ' '] : Text) ++ (headingLine n m ++ (['\n', '#', ' '] ++
      (dashLine n m ++ ['\n', '#', ' ', '|', ' ']))) := by
    simp only [List.mem_append, not_or]
    exact ⟨by decide, hheading, by decide, hdash, by decide⟩
  have hlabel : totalLinesLabel = '@' :: ("total-lines" : Text) := rfl
  rw [htext, hlabel, valueAfter?_append_of_not_mem _ hopening]
  refine valueAfter?_labelled hne (fun c hc => ?_) (fun c hc => ?_) (fun c hc => ?_)
  · exact isBlank_of_isDigit (hdigits c (List.mem_of_mem_head? hc))
  · exact isDecimal_of_isDigit c (hdigits c hc)
  · obtain rfl : ' ' = c := Option.some.inj hc
    decide

/-- A name that starts with the label and too many digits keeps the block from being read, if no
number of lines is read before it. -/
theorem not_hasReadableTotal_of_name {s : Section} {digits : Text} (hstamp : IsStamp stamp)
    (hname : s.name = totalLinesLabel ++ ' ' :: digits) (hdigits : ∀ c ∈ digits, c.isDigit = true)
    (hlength : maxDigits < digits.length) (htotal : totalLines < 0) :
    ¬ HasReadableTotal (render [s] totalLines .hash stamp ['\n']) := by
  intro hreadable
  have hne : digits ≠ [] := List.ne_nil_of_length_pos (Nat.zero_lt_of_lt hlength)
  have hvalue := valueAfter?_render_of_neg .hash [s] (Or.inl rfl) hstamp htotal
  rw [valueAfter?_tableLines_of_name hname hdigits hne] at hvalue
  exact absurd (hreadable digits hvalue) (Nat.not_le.mpr hlength)

/-! ### Files without their blocks -/

/-- **The block stands where it was put:** after the line that names an interpreter, with as many
lines as its height says. And **without it** the file is as it was, but for the line ends at the
start of what stands after that line. -/
structure IsRestored (content block newline : Text) (count : Nat) (style : Style) (b : Block) :
    Prop where
  raw_eq : b.raw = block
  style_eq : b.style = style
  start_eq : b.start = (interpreterLine content).length
  firstLine_eq : b.firstLine = insertionLine content
  lineCount_eq : (b.lineCount : Int) = height count style
  exists_rest : ∃ rest, SkipsLineEnds (bodyOf content) rest ∧
    remove (insert content block none newline) b = interpreterLine content ++ rest
  remove_eq_iff : remove (insert content block none newline) b = content ↔
    ∀ ending, IsLineEnd ending → ¬ ending <+: bodyOf content

theorem insert_none_eq (content block newline : Text) : insert content block none newline =
    interpreterLine content ++ (block ++ (newline ++ (newline ++ bodyOf content))) := by
  simp only [insert_none, insertNew, bodyOf, List.append_assoc]

/-- **The file without the block:** the two line ends that were put after the block go with it. -/
theorem remove_insert {b : Block} (h : newline.IsLineEnd)
    (hstart : b.start = (interpreterLine content).length)
    (hstop : b.stop = b.start + block.length) :
    remove (insert content block none newline) b =
      interpreterLine content ++ dropLineEnds (bodyOf content) := by
  have htake : (insert content block none newline).take b.start = interpreterLine content := by
    rw [insert_none_eq, hstart, List.take_left]
  have hdrop : (insert content block none newline).drop b.stop =
      newline ++ (newline ++ bodyOf content) := by
    rw [insert_none_eq, hstop, hstart, ← List.length_append, ← List.append_assoc, List.drop_left]
  unfold remove
  rw [htake, hdrop, dropLineEnds_append h, dropLineEnds_append h]

/-- **The block that is found** in the file is the one that was put there. -/
theorem locate?_insert_none (content : Text) (style : Style) (totalLines : Int)
    (h : newline.IsLineEnd) (hstamp : IsStamp stamp)
    (hsections : ∀ s ∈ sections, s.HasTexts ('\n' ∉ ·)) :
    let block := render sections totalLines style stamp newline
    locate? (insert content block none newline) =
      some ((interpreterLine content).length, style, block) := by
  intro block
  have hends : style = .hash → Text.EndsLine (newline ++ (newline ++ bodyOf content)) :=
    fun _ => h.endsLine_append _
  rw [insert_none_eq, ← List.append_assoc]
  exact locate?_render style totalLines (isHead_interpreterLine content) h hstamp hsections hends

/-- **A block that is found is read** if its number of lines can be read. -/
theorem exists_parse_iff_of_locate? {t : Text} {start : Nat} (h : newline.IsLineEnd)
    (hstamp : IsStamp stamp)
    (hsections : ∀ s ∈ sections, s.HasTexts Text.IsUnbroken ∧ IsWritableSection s)
    (hlocate : locate? t = some (start, style, render sections totalLines style stamp newline)) :
    (∃ b, parse t = .ok (some b)) ↔
      HasReadableTotal (render sections totalLines style stamp newline) := by
  obtain ⟨rows, hrows⟩ := exists_parseRows_of_isUnbroken totalLines h hstamp
    fun s hs => ⟨(hsections s hs).1.1, (hsections s hs).2⟩
  rw [← exists_readTotal_iff_hasReadableTotal, parse, hlocate]
  constructor
  · rintro ⟨b, hparse⟩
    obtain ⟨_, -, hparse⟩ := Fault.bind_eq_ok_iff.mp hparse
    obtain ⟨total, htotal, -⟩ := Fault.bind_eq_ok_iff.mp hparse
    exact ⟨total, htotal⟩
  · rintro ⟨total, htotal⟩
    exact ⟨_, Fault.bind_eq_ok_iff.mpr ⟨rows, hrows,
      Fault.bind_eq_ok_iff.mpr ⟨total, htotal, rfl⟩⟩⟩

/-- **It is read** if its number of lines can be read. -/
theorem exists_parse_insert_iff (content : Text) (style : Style) (totalLines : Int)
    (h : newline.IsLineEnd) (hstamp : IsStamp stamp)
    (hsections : ∀ s ∈ sections, s.HasTexts Text.IsUnbroken ∧ IsWritableSection s) :
    let block := render sections totalLines style stamp newline
    (∃ b, parse (insert content block none newline) = .ok (some b)) ↔ HasReadableTotal block :=
  exists_parse_iff_of_locate? h hstamp hsections <|
    locate?_insert_none content style totalLines h hstamp fun s hs =>
      ⟨(hsections s hs).1.1.lineFeed_not_mem, (hsections s hs).1.2.lineFeed_not_mem⟩

/-- **Whatever block is read** from the file stands where it was put, and is taken away again. -/
theorem isRestored_of_parse {b : Block} (h : newline.IsLineEnd) (hstamp : IsStamp stamp)
    (hsections : ∀ s ∈ sections, s.HasTexts ('\n' ∉ ·))
    (hparse : parse (insert content (render sections totalLines style stamp newline) none newline) =
      .ok (some b)) :
    IsRestored content (render sections totalLines style stamp newline) newline sections.length
      style b := by
  have hlocate := locate?_insert_none content style totalLines h hstamp hsections
  obtain ⟨hfound, hstop, hfirst, -⟩ := exists_of_parse hparse
  -- the block that is found is the one that was put in
  have hplace := Option.some.inj (hfound.symm.trans hlocate)
  have hstart : b.start = (interpreterLine content).length := congrArg Prod.fst hplace
  have hstyle : b.style = style := congrArg (fun found => found.2.1) hplace
  have hraw : b.raw = render sections totalLines style stamp newline :=
    congrArg (fun found => found.2.2) hplace
  rw [hraw] at hstop
  have hremove := remove_insert h hstart hstop
  have hskips := skipsLineEnds_dropLineEnds (bodyOf content)
  refine ⟨hraw, hstyle, hstart, ?_, ?_, ⟨_, hskips, hremove⟩, ?_⟩
  · rw [hfirst, hstart, insert_none_eq, List.take_left, count_interpreterLine, insertionLine_eq]
  · rw [lineCount_of_parse hparse, hraw, ← count_render style totalLines h hstamp hsections]
    push_cast
    rfl
  · -- what is left is the file exactly if it began with no line ends
    rw [hremove, ← hskips.eq_iff]
    constructor
    · intro heq
      exact List.append_cancel_left (heq.trans (interpreterLine_append_bodyOf content).symm)
    · intro heq
      rw [heq, interpreterLine_append_bodyOf]

/-- **A file is restored** when the block that was put into it is taken away, as long as the number
of lines that the block gives can be read. It can be if it is not negative. -/
theorem exists_isRestored_iff (content : Text) (h : newline.IsLineEnd)
    (hsections : ∀ s ∈ sections, s.HasTexts Text.IsUnbroken)
    (hserialize : serialize sections totalLines style now newline = .ok block) :
    ((∃ b, parse (insert content block none newline) = .ok (some b) ∧
        IsRestored content block newline sections.length style b) ↔ HasReadableTotal block) ∧
      (0 ≤ totalLines → HasReadableTotal block) := by
  obtain ⟨stamp, hclock, hnumbers, rfl⟩ := serialize_eq_ok_iff.mp hserialize
  have hstamp := isStamp_of_blockStamp hclock
  obtain ⟨hwritable, hwritables⟩ := isWritable_of_numbers hnumbers
  refine ⟨?_, fun htotal => hasReadableTotal_render style sections h hstamp htotal hwritable⟩
  have hread := exists_parse_insert_iff content style totalLines h hstamp
    fun s hs => ⟨hsections s hs, hwritables s hs⟩
  refine Iff.trans ?_ hread
  constructor
  · rintro ⟨b, hparse, -⟩
    exact ⟨b, hparse⟩
  · rintro ⟨b, hparse⟩
    refine ⟨b, hparse, isRestored_of_parse h hstamp (fun s hs => ?_) hparse⟩
    exact ⟨(hsections s hs).1.lineFeed_not_mem, (hsections s hs).2.lineFeed_not_mem⟩

/-- Behind the line of an interpreter and two empty lines, a block is put in and taken away, with
the start of a block in a name and the end of one in a description. The empty lines are lost. -/
theorem exists_isRestored_of_script :
    let content : Text := "#!/bin/sh\n\r\n\nx = 1\n"
    let newline : Text := ['\r', '\n']
    let s : Section := ⟨"/** @ai-index */ | @total-lines 7", 3, 4, "# @end-ai-index", .auto⟩
    newline.IsLineEnd ∧ s.HasTexts Text.IsUnbroken ∧
      ∃ block, serialize [s] 12 .jsdoc ⟨2024, 2, 29, 1, 2, 3, 4, 0⟩ newline = .ok block ∧
        ∃ b, parse (insert content block none newline) = .ok (some b) ∧
          IsRestored content block newline 1 .jsdoc b ∧
          remove (insert content block none newline) b ≠ content := by
  intro content newline s
  have hnewline : newline.IsLineEnd := Or.inr rfl
  have hunbroken : s.HasTexts Text.IsUnbroken :=
    ⟨by decide +kernel, by decide +kernel⟩
  refine ⟨hnewline, hunbroken, ?_⟩
  obtain ⟨block, hserialize⟩ : ∃ block,
      serialize [s] 12 .jsdoc ⟨2024, 2, 29, 1, 2, 3, 4, 0⟩ newline = .ok block :=
    ⟨_, serialize_eq_ok_iff.mpr ⟨_, rfl, by decide +kernel, rfl⟩⟩
  obtain ⟨hrestored, htotal⟩ := exists_isRestored_iff content hnewline
    (List.forall_mem_singleton.mpr hunbroken) hserialize
  obtain ⟨b, hparse, hb⟩ := hrestored.mpr (htotal (by decide))
  refine ⟨block, hserialize, b, hparse, hb, fun heq => ?_⟩
  have hbody : bodyOf content = newline ++ "\nx = 1\n" := by decide +kernel
  refine hb.remove_eq_iff.mp heq newline hnewline ?_
  rw [hbody]
  exact List.prefix_append newline _

/-- A block of minus one lines with a number of 4301 digits in a name is found where it was put, but
it cannot be read. -/
theorem not_exists_parse_insert_of_long_total :
    let digits : Text := List.replicate 4301 '1'
    let s : Section := ⟨totalLinesLabel ++ ' ' :: digits, 1, 1, [], .auto⟩
    ∃ block, serialize [s] (-1) .hash ⟨2024, 2, 29, 1, 2, 3, 4, 0⟩ ['\n'] = .ok block ∧
      s.HasTexts Text.IsUnbroken ∧ parse [] = .ok none ∧
      ¬ ∃ b, parse (insert [] block none ['\n']) = .ok (some b) := by
  intro digits s
  have hdigits : ∀ c ∈ digits, c.isDigit = true := by
    intro c hc
    rw [List.eq_of_mem_replicate hc]
    rfl
  have hlength : maxDigits < digits.length := by
    rw [List.length_replicate]
    decide
  have hunbroken : s.HasTexts Text.IsUnbroken := by
    refine ⟨?_, Text.isUnbroken_nil⟩
    show Text.IsUnbroken (totalLinesLabel ++ ' ' :: digits)
    rw [Text.isUnbroken_append, Text.isUnbroken_cons]
    exact ⟨by decide, rfl, Text.isUnbroken_replicate rfl⟩
  have hwritable : IsWritableSection s := ⟨by decide, by decide, by decide⟩
  obtain ⟨stamp, hclock⟩ : ∃ stamp,
      Moment.blockStamp ⟨2024, 2, 29, 1, 2, 3, 4, 0⟩ = some stamp := ⟨_, rfl⟩
  have hstamp := isStamp_of_blockStamp hclock
  have hnumbers : (numbers [s] (-1)).all isWritable = true := by
    have hlist : numbers [s] (-1) = [-1, 1, 1, 1] := rfl
    rw [hlist]
    decide
  refine ⟨render [s] (-1) .hash stamp ['\n'], ?_, hunbroken, rfl, ?_⟩
  · exact serialize_eq_ok_iff.mpr ⟨stamp, hclock, hnumbers, rfl⟩
  · -- the number in the name is the one that is read, and it has too many digits
    have hread := exists_parse_insert_iff [] .hash (-1) (Or.inl rfl) hstamp
      (List.forall_mem_singleton.mpr ⟨hunbroken, hwritable⟩)
    exact fun hparse =>
      not_hasReadableTotal_of_name hstamp rfl hdigits hlength (by decide) (hread.mp hparse)

end Block

end SectionIndex
