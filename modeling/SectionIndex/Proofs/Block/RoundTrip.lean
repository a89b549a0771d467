import SectionIndex.Block.Parser
import SectionIndex.Proofs.Block.Printer

/-!
# Blocks, written and read

A block that is written is read back whole if its rows are storable, wherever it stands in a file:
its rows, its time stamp and the number of lines it gives. A section whose row is not storable is
lost or changed, so the sections with storable rows are exactly those that a block keeps.

## Main definitions

* `Block.Rereads` — a text is read as a block with the rows of these sections.

## Main statements

* `Block.parse_render` — what is read from a block that was written.
* `Block.parse_serialize_rows_iff` — a block keeps its sections if and only if they are storable.
-/

namespace SectionIndex

namespace Block

open Text (IsLineEnd EndsLine)

variable {style : Style} {newline stamp : Text} {sections : List Section} {totalLines : Int}

/-! ### The rows of a table -/

theorem parseRows_cons_of_none {line : Text} (table : List Row) (lines : List Text)
    (h : parseRow (rowCells style line) = .ok none) :
    parseRows style table (line :: lines) = parseRows style table lines := by
  rw [parseRows, h]
  rfl

theorem parseRows_cons_of_some {line : Text} {row : Row} (table : List Row) (lines : List Text)
    (h : parseRow (rowCells style line) = .ok (some row)) :
    parseRows style table (line :: lines) = parseRows style (putRow row table) lines := by
  rw [parseRows, h]
  rfl

/-- Lines that are no rows are passed over. -/
theorem parseRows_append_of_none {lines : List Text} (table : List Row) (rest : List Text)
    (h : ∀ line ∈ lines, parseRow (rowCells style line) = .ok none) :
    parseRows style table (lines ++ rest) = parseRows style table rest := by
  induction lines with
  | nil => rfl
  | cons line lines ih =>
    obtain ⟨hline, hlines⟩ := List.forall_mem_cons.mp h
    rw [List.cons_append, parseRows_cons_of_none _ _ hline, ih hlines]

/-- The numbers of a section can be written. -/
def IsWritableSection (s : Section) : Prop :=
  isWritable s.first = true ∧ isWritable s.last = true ∧ isWritable s.size = true

/-- The numbers of a block that can be written. -/
theorem isWritable_of_numbers {totalLines : Int}
    (h : (numbers sections totalLines).all isWritable = true) :
    isWritable totalLines = true ∧ ∀ s ∈ sections, IsWritableSection s := by
  simpa [numbers, IsWritableSection] using h

/-- **The lines of sections are read as their rows**, in their order, if no name is used twice. -/
theorem parseRows_sectionLines (n m : Nat) (table : List Row) (rest : List Text)
    (hnames : (table.map Row.name ++ sections.map Section.name).Nodup)
    (hstorable : ∀ s ∈ sections, (rowOf s).IsStorable style)
    (hwritable : ∀ s ∈ sections, IsWritableSection s) :
    parseRows style table
        (sections.map (fun s => commentLine style.sign (sectionLine style n m s)) ++ rest) =
      parseRows style (table ++ sections.map rowOf) rest := by
  induction sections generalizing table with
  | nil => rw [List.map_nil, List.map_nil, List.nil_append, List.append_nil]
  | cons s sections ih =>
    obtain ⟨hs, hstorable⟩ := List.forall_mem_cons.mp hstorable
    obtain ⟨⟨hfirst, hlast, hsize⟩, hwritable⟩ := List.forall_mem_cons.mp hwritable
    -- the row goes to the end of the table, as its name is new
    have hnew : (rowOf s).name ∉ table.map Row.name := by
      rw [List.map_cons, List.nodup_append] at hnames
      exact fun hmem => hnames.2.2 _ hmem _ List.mem_cons_self rfl
    have hrest : ((table ++ [rowOf s]).map Row.name ++ sections.map Section.name).Nodup := by
      rw [List.map_append, List.append_assoc]
      exact hnames
    rw [List.map_cons, List.cons_append,
      parseRows_cons_of_some _ _ (parseRow_sectionLine n m hs hfirst hlast hsize),
      putRow_of_not_mem _ _ hnew, ih _ hrest hstorable hwritable, List.append_assoc]
    rfl

theorem columnWidth_ne_zero (entries : List Text) : columnWidth entries ≠ 0 := by
  have h : minColumnWidth ≤ columnWidth entries := by
    induction entries with
    | nil => exact Nat.le_refl _
    | cons entry entries ih => exact Nat.le_trans ih (Nat.le_max_right _ _)
  have hmin : 0 < minColumnWidth := by decide
  omega

theorem parseRow_of_head?_ne {line : Text} (h : line.strip = line) (hbar : line.head? ≠ some '|') :
    parseRow (rowCells style (commentLine style.sign line)) = .ok none := by
  rw [rowCells_of_head?_ne h hbar]
  rfl

/-- **The rows that are read from the lines of a block.** -/
theorem parseRows_blockLines (hstamp : IsStamp stamp) (hnames : (sections.map Section.name).Nodup)
    (hstorable : ∀ s ∈ sections, (rowOf s).IsStorable style)
    (hwritable : ∀ s ∈ sections, IsWritableSection s) :
    parseRows style [] (blockLines style (bodyLines style sections totalLines stamp)) =
      .ok (sections.map rowOf) := by
  -- a documentation comment has a line before the body and one after it, the other style only the
  -- line with the end marker; none of these is a row
  have hsplit : ∃ opening ending : List Text,
      blockLines style (bodyLines style sections totalLines stamp) =
        opening ++ (bodyLines style sections totalLines stamp).map (commentLine style.sign) ++
          ending ∧
      (∀ line ∈ opening, parseRow (rowCells style line) = .ok none) ∧
      ∀ line ∈ ending, parseRow (rowCells style line) = .ok none := by
    cases style with
    | jsdoc => exact ⟨[("/**" : Text)], [(" */" : Text)], rfl, by simp; rfl, by simp; rfl⟩
    | hash => exact ⟨[], [commentLine "#" endMarker], rfl, by simp, by simp; rfl⟩
  obtain ⟨opening, ending, hlines, hopening, hending⟩ := hsplit
  have hmem : ∀ line ∈ tailLines style sections totalLines stamp, line.strip = line :=
    fun _ => strip_of_mem_tailLines hstamp
  simp only [tailLines, List.forall_mem_cons] at hmem
  obtain ⟨hgenerated, htotal, hempty, -⟩ := hmem
  have hlabel : ∀ t : Text, ('@' :: t).head? ≠ some '|' := fun t => by simp
  -- the four lines before the table, its heading and its dashes are no rows
  rw [hlines, List.append_assoc, parseRows_append_of_none _ _ hopening]
  simp only [bodyLines, tableRows, List.map_cons, List.cons_append, List.map_map]
  rw [parseRows_cons_of_none _ _ (parseRow_of_head?_ne (by decide) (by decide)),
    parseRows_cons_of_none _ _ (parseRow_of_head?_ne hgenerated (hlabel _)),
    parseRows_cons_of_none _ _ (parseRow_of_head?_ne htotal (hlabel _)),
    parseRows_cons_of_none _ _ (parseRow_of_head?_ne hempty (by decide)),
    parseRows_cons_of_none _ _ (parseRow_headingLine _ _),
    parseRows_cons_of_none _ _ (parseRow_dashLine _ (columnWidth_ne_zero _))]
  have hrows := parseRows_sectionLines
    (columnWidth (sections.map fun s => escapeCell style s.name))
    (columnWidth (sections.map fun s => escapeCell style s.description)) [] ending
    hnames hstorable hwritable
  refine Eq.trans hrows ?_
  rw [← List.append_nil ending, parseRows_append_of_none _ _ hending]
  rfl

/-! ### The lines of a block -/

theorem isLineBreak_of_isBlockChar {c : Char} (h : isBlockChar c = true) :
    Text.isLineBreak c = false := by
  rw [← Bool.not_eq_true]
  intro hbreak
  simp only [Text.isLineBreak, Bool.or_eq_true, beq_iff_eq] at hbreak
  rcases hbreak with ((((((((rfl | rfl) | rfl) | rfl) | rfl) | rfl) | rfl) | rfl) | rfl) | rfl
  all_goals exact absurd h (by decide)

/-- **The lines of a block are unbroken** if its names and descriptions are. -/
theorem isUnbroken_of_mem_blockLines (hstamp : IsStamp stamp)
    (hsections : ∀ s ∈ sections, s.name.IsUnbroken ∧ s.description.IsUnbroken) :
    ∀ line ∈ blockLines style (bodyLines style sections totalLines stamp), line.IsUnbroken := by
  -- what stands in a line is of the block's own characters, a space, or from a text of a section
  have hbody : ∀ line ∈ bodyLines style sections totalLines stamp, line.IsUnbroken := by
    intro line hline
    rcases List.mem_cons.mp hline with rfl | hline
    · decide
    · intro c hc
      rcases mem_of_mem_tailLines hstamp hline hc with hc | rfl | ⟨s, hs, hc | hc⟩
      · exact isLineBreak_of_isBlockChar hc
      · rfl
      · exact (hsections s hs).1 c hc
      · exact (hsections s hs).2 c hc
  have hcomment : ∀ sign : Text, sign.IsUnbroken →
      ∀ line ∈ bodyLines style sections totalLines stamp, (commentLine sign line).IsUnbroken := by
    intro sign hsign line hline
    unfold commentLine
    split
    · exact hsign
    · exact Text.isUnbroken_append.mpr ⟨hsign, Text.isUnbroken_cons.mpr ⟨rfl, hbody line hline⟩⟩
  -- in both styles the lines of the body stand between lines of the frame
  cases style with
  | jsdoc =>
    simp only [blockLines, List.cons_append, List.forall_mem_cons, List.forall_mem_append,
      List.forall_mem_map]
    exact ⟨by decide, hcomment _ (by decide), by decide, List.forall_mem_nil _⟩
  | hash =>
    simp only [blockLines, List.forall_mem_cons, List.forall_mem_append, List.forall_mem_map]
    exact ⟨hcomment _ (by decide), by decide, List.forall_mem_nil _⟩

theorem getLast?_blockLines (style : Style) (body : List Text) :
    (blockLines style body).getLast? ≠ some [] := by
  cases style with
  | jsdoc => rw [blockLines, List.getLast?_concat]; decide
  | hash => rw [blockLines, List.getLast?_concat]; decide

theorem breakLines_render (h : newline.IsLineEnd) (hstamp : IsStamp stamp)
    (hsections : ∀ s ∈ sections, s.name.IsUnbroken ∧ s.description.IsUnbroken) :
    Text.breakLines (render sections totalLines style stamp newline) =
      blockLines style (bodyLines style sections totalLines stamp) :=
  Text.breakLines_join (isUnbroken_of_mem_blockLines hstamp hsections)
    (getLast?_blockLines _ _) h

/-! ### The values after labels -/

section Value

variable {members : Char → Bool} {label : Text}

theorem valueAfter?_append_of_not_mem {t : Text} (rest : Text) (h : '@' ∉ t) :
    valueAfter? ('@' :: label) members (t ++ rest) = valueAfter? ('@' :: label) members rest := by
  induction t with
  | nil => rfl
  | cons c t ih =>
    rw [List.mem_cons, not_or] at h
    -- no label starts here, as every label starts with the sign
    have hnot : ('@' :: label).isPrefixOf (c :: (t ++ rest)) = false := by
      rw [List.isPrefixOf, beq_false_of_ne h.1, Bool.false_and]
    have hvalue : valueAt? ('@' :: label) members (c :: (t ++ rest)) = none := by
      rw [valueAt?, hnot]
      rfl
    rw [List.cons_append, valueAfter?, hvalue]
    exact ih h.2

/-- Another label is passed over. -/
theorem valueAfter?_of_label_ne {c d : Char} (rest : Text) (h : c ≠ d) :
    valueAfter? ('@' :: c :: label) members ('@' :: d :: rest) =
      valueAfter? ('@' :: c :: label) members (d :: rest) := by
  have hnot : ('@' :: c :: label).isPrefixOf ('@' :: d :: rest) = false := by
    rw [List.isPrefixOf, List.isPrefixOf, beq_false_of_ne h, Bool.false_and, Bool.and_false]
  have hvalue : valueAt? ('@' :: c :: label) members ('@' :: d :: rest) = none := by
    rw [valueAt?, hnot]
    rfl
  rw [valueAfter?, hvalue]

/-- **The value after a label** at the start of a text. -/
theorem valueAfter?_labelled {c : Char} {value rest : Text} (hne : value ≠ [])
    (hblank : ∀ d ∈ value.head?, isBlank d = false) (hvalue : ∀ d ∈ value, members d = true)
    (hrest : ∀ d ∈ rest.head?, members d = false) :
    valueAfter? (c :: label) members (c :: label ++ ' ' :: (value ++ rest)) = some value := by
  have hprefix : (c :: label).isPrefixOf (c :: label ++ ' ' :: (value ++ rest)) = true :=
    List.isPrefixOf_iff_prefix.mpr (List.prefix_append _ _)
  -- one space stands before the value, as the value does not start with a blank
  have hgap : (value ++ rest).takeWhile isBlank = [] ∧ (value ++ rest).dropWhile isBlank =
      value ++ rest := by
    obtain ⟨d, t, rfl⟩ := List.exists_cons_of_ne_nil hne
    have hd : isBlank d = false := hblank d rfl
    simp [hd]
  have htake : (value ++ rest).takeWhile members = value := by
    rw [List.takeWhile_append_of_pos hvalue]
    cases rest with
    | nil => rw [List.takeWhile_nil, List.append_nil]
    | cons d rest =>
      rw [List.takeWhile_cons_of_neg (by simp [hrest d rfl]), List.append_nil]
  have hat : valueAt? (c :: label) members (c :: label ++ ' ' :: (value ++ rest)) = some value := by
    simp only [valueAt?, hprefix, if_true, List.drop_left]
    rw [List.takeWhile_cons_of_pos (by decide), List.dropWhile_cons_of_pos (by decide), hgap.1,
      hgap.2, htake, if_pos ⟨by simp, hne⟩]
  rw [List.cons_append] at hat ⊢
  rw [valueAfter?, hat]

end Value

theorem commentLine_of_ne_nil {line : Text} (sign : Text) (h : line ≠ []) :
    commentLine sign line = sign ++ ' ' :: line :=
  if_neg h

/-- **The lines of a block after its values:** an empty one, the table, and the end of the
comment. -/
def tableLines : Style → List Section → List Text
  | .jsdoc, sections =>
    commentLine " *" [] :: (tableRows .jsdoc sections).map (commentLine " *") ++ [(" */" : Text)]
  | .hash, sections =>
    commentLine "#" [] :: (tableRows .hash sections).map (commentLine "#") ++
      [commentLine "#" endMarker]

theorem tableLines_ne_nil (style : Style) (sections : List Section) :
    tableLines style sections ≠ [] := by
  cases style <;> exact List.cons_ne_nil _ _

/-- The first lines of a block, up to the one with the number of lines. -/
theorem exists_render_eq (style : Style) (sections : List Section) (totalLines : Int)
    (stamp newline : Text) (hnewline : '@' ∉ newline) :
    ∃ opening gap : Text, '@' ∉ opening ∧ '@' ∉ newline ++ gap ∧
      render sections totalLines style stamp newline =
        opening ++ (marker ++ (newline ++ gap ++ (generatedLabel ++ ' ' :: (stamp ++
          (newline ++ gap ++ (totalLinesLabel ++ ' ' :: (Text.ofInt totalLines ++
            (newline ++ Text.join newline (tableLines style sections))))))))) := by
  -- the lines after the first of the comment, each with its sign
  have hlines : ∀ rest : List Text, rest ≠ [] →
      Text.join newline (commentLine style.sign marker ::
        commentLine style.sign (generatedLabel ++ ' ' :: stamp) ::
        commentLine style.sign (totalLinesLabel ++ ' ' :: Text.ofInt totalLines) :: rest) =
      style.sign ++ [' '] ++ (marker ++ (newline ++ (style.sign ++ [' ']) ++
        (generatedLabel ++ ' ' :: (stamp ++ (newline ++ (style.sign ++ [' ']) ++
        (totalLinesLabel ++ ' ' :: (Text.ofInt totalLines ++
        (newline ++ Text.join newline rest)))))))) := by
    intro rest hne
    rw [Text.join_cons_of_ne_nil _ _ (by simp), Text.join_cons_of_ne_nil _ _ (by simp),
      Text.join_cons_of_ne_nil _ _ hne, commentLine_of_ne_nil _ (by decide),
      commentLine_of_ne_nil _ (by simp), commentLine_of_ne_nil _ (by simp)]
    simp only [List.append_assoc, List.cons_append, List.nil_append]
  have hsign : '@' ∉ style.sign := by cases style <;> decide
  have hgap : '@' ∉ newline ++ (style.sign ++ [' ']) := by simp [hnewline, hsign]
  -- in a documentation comment the marker stands in the second line, else in the first
  cases style with
  | jsdoc =>
    have hbody := hlines _ (tableLines_ne_nil .jsdoc sections)
    have hopen : render sections totalLines .jsdoc stamp newline = "/**" ++ newline ++
        Text.join newline (commentLine " *" marker ::
          commentLine " *" (generatedLabel ++ ' ' :: stamp) ::
          commentLine " *" (totalLinesLabel ++ ' ' :: Text.ofInt totalLines) ::
          tableLines .jsdoc sections) :=
      Text.join_cons_of_ne_nil newline "/**" (List.cons_ne_nil _ _)
    refine ⟨['/', '*', '*'] ++ newline ++ (" *" ++ [' ']), " *" ++ [' '],
      by simp [hnewline], hgap, ?_⟩
    rw [hopen, List.append_assoc (['/', '*', '*'] ++ newline)]
    exact congrArg (fun t : Text => (['/', '*', '*'] ++ newline) ++ t) hbody
  | hash =>
    exact ⟨"#" ++ [' '], "#" ++ [' '], by decide, hgap,
      hlines _ (tableLines_ne_nil .hash sections)⟩

/-- **What is read as the number of lines** of a block stands from its label on: the labels before
it are others. -/
theorem valueAfter?_totalLines_render (style : Style) (sections : List Section) (totalLines : Int)
    (h : newline.IsLineEnd) (hstamp : IsStamp stamp) :
    valueAfter? totalLinesLabel isDecimal (render sections totalLines style stamp newline) =
      valueAfter? totalLinesLabel isDecimal
        (totalLinesLabel ++ ' ' :: (Text.ofInt totalLines ++
          (newline ++ Text.join newline (tableLines style sections)))) := by
  have hnewline : '@' ∉ newline := by rcases h with rfl | rfl <;> decide
  have hstampAt : '@' ∉ stamp := fun hmem => by
    rcases hstamp.mem hmem with h | h <;> exact absurd h (by decide)
  -- three labels, told apart by the character after the sign
  have hmarker : marker = '@' :: 'a' :: "i-index" := rfl
  have hgenerated : generatedLabel = '@' :: 'g' :: "enerated" := rfl
  have htotalLines : totalLinesLabel = '@' :: 't' :: "otal-lines" := rfl
  obtain ⟨opening, gap, hopening, hgap, htext⟩ :=
    exists_render_eq style sections totalLines stamp newline hnewline
  rw [htext, htotalLines, valueAfter?_append_of_not_mem _ hopening, hmarker, List.cons_append,
    List.cons_append, valueAfter?_of_label_ne _ (by decide), ← List.cons_append,
    valueAfter?_append_of_not_mem _ (by decide), valueAfter?_append_of_not_mem _ hgap,
    hgenerated, List.cons_append, List.cons_append, valueAfter?_of_label_ne _ (by decide),
    ← List.cons_append, valueAfter?_append_of_not_mem _ (by decide), ← List.cons_append,
    valueAfter?_append_of_not_mem _ (by simp [hstampAt]), valueAfter?_append_of_not_mem _ hgap]

/-- **The values of a block** are its time stamp and the number of lines it gives. -/
theorem valueAfter?_render (style : Style) (sections : List Section) (h : newline.IsLineEnd)
    (hstamp : IsStamp stamp) (htotal : 0 ≤ totalLines) :
    valueAfter? generatedLabel (fun c => !isBlank c)
        (render sections totalLines style stamp newline) = some stamp ∧
      valueAfter? totalLinesLabel isDecimal (render sections totalLines style stamp newline) =
        some (Text.ofInt totalLines) := by
  have hnewline : '@' ∉ newline := by rcases h with rfl | rfl <;> decide
  -- a value ends at the end of its line: both line ends are blank, and no part of a number
  have hend : ∀ rest : Text, ∀ c ∈ (newline ++ rest).head?,
      isBlank c = true ∧ isDecimal c = false := by
    intro rest c hc
    rcases h with rfl | rfl
    · obtain rfl : '\n' = c := by simpa using hc
      decide
    · obtain rfl : '\r' = c := by simpa using hc
      decide
  have hdigits : ∀ c ∈ Text.ofInt totalLines, isBlank c = false ∧ isDecimal c = true := by
    obtain ⟨n, rfl⟩ := Int.eq_ofNat_of_zero_le htotal
    exact fun c hc => ⟨isBlank_of_isDigit (isDigit_of_mem_ofNat hc),
      isDecimal_of_isDigit c (isDigit_of_mem_ofNat hc)⟩
  constructor
  · have hmarker : marker = '@' :: 'a' :: "i-index" := rfl
    have hgenerated : generatedLabel = '@' :: 'g' :: "enerated" := rfl
    obtain ⟨opening, gap, hopening, hgap, htext⟩ :=
      exists_render_eq style sections totalLines stamp newline hnewline
    -- the label before the one that is looked for is passed over
    rw [htext, hgenerated, valueAfter?_append_of_not_mem _ hopening, hmarker, List.cons_append,
      List.cons_append, valueAfter?_of_label_ne _ (by decide), ← List.cons_append,
      valueAfter?_append_of_not_mem _ (by decide), valueAfter?_append_of_not_mem _ hgap]
    refine valueAfter?_labelled hstamp.ne_nil
      (fun c hc => hstamp.isBlank_eq c (List.mem_of_mem_head? hc))
      (fun c hc => by rw [hstamp.isBlank_eq c hc]; rfl) (fun c hc => ?_)
    rw [List.append_assoc] at hc
    rw [(hend _ c hc).1]
    rfl
  · rw [valueAfter?_totalLines_render style sections totalLines h hstamp]
    exact valueAfter?_labelled (ofInt_ne_nil _)
      (fun c hc => (hdigits c (List.mem_of_mem_head? hc)).1) (fun c hc => (hdigits c hc).2)
      (fun c hc => (hend _ c hc).2)

/-! ### Reading a block -/

/-- **What is read of a block** is where it stands: its lines, and its text. -/
theorem exists_of_parse {content : Text} {b : Block} (h : parse content = .ok (some b)) :
    locate? content = some (b.start, b.style, b.raw) ∧ b.stop = b.start + b.raw.length ∧
      b.firstLine = (content.take b.start).count '\n' + 1 ∧
      b.lastLine = b.firstLine + b.raw.count '\n' := by
  unfold parse at h
  split at h
  · cases h
  · next start style raw hlocate =>
    obtain ⟨rows, -, h⟩ := Fault.bind_eq_ok_iff.mp h
    obtain ⟨total, -, h⟩ := Fault.bind_eq_ok_iff.mp h
    cases h
    exact ⟨hlocate, rfl, rfl, rfl⟩

/-- What is read of a block that is found. -/
theorem parse_eq_some {content raw : Text} {start : Nat} {b : Block}
    (hlocate : locate? content = some (start, style, raw)) (h : parse content = .ok (some b)) :
    b.start = start ∧ b.stop = start + raw.length ∧ b.style = style ∧
      parseRows style [] (Text.breakLines raw) = .ok b.rows := by
  rw [parse, hlocate] at h
  obtain ⟨rows, hrows, h⟩ := Fault.bind_eq_ok_iff.mp h
  obtain ⟨total, -, h⟩ := Fault.bind_eq_ok_iff.mp h
  cases h
  exact ⟨rfl, rfl, rfl, hrows⟩

/-- **What is read from a block that was written:** its rows, its stamp and its number of lines,
wherever it stands in a file. -/
theorem parse_render {head : Text} (post : Text) (hhead : IsHead head) (h : newline.IsLineEnd)
    (hpost : style = .hash → EndsLine post) (hstamp : IsStamp stamp)
    (hnames : (sections.map Section.name).Nodup)
    (hstorable : ∀ s ∈ sections, (rowOf s).IsStorable style) (htotal : 0 ≤ totalLines)
    (hwritable : (numbers sections totalLines).all isWritable = true) :
    let raw := render sections totalLines style stamp newline
    parse (head ++ raw ++ post) = .ok (some
      { raw := raw
        style := style
        start := head.length
        stop := head.length + raw.length
        firstLine := head.count '\n' + 1
        lastLine := head.count '\n' + 1 + raw.count '\n'
        rows := sections.map rowOf
        generatedAt := some stamp
        totalLines := some totalLines }) := by
  intro raw
  have hunbroken : ∀ s ∈ sections, s.name.IsUnbroken ∧ s.description.IsUnbroken :=
    fun s hs => ⟨(hstorable s hs).name.unbroken, (hstorable s hs).description.unbroken⟩
  have hfeed : ∀ s ∈ sections, '\n' ∉ s.name ∧ '\n' ∉ s.description := fun s hs =>
    ⟨(hunbroken s hs).1.lineFeed_not_mem, (hunbroken s hs).2.lineFeed_not_mem⟩
  obtain ⟨htotalWritable, hsections⟩ := isWritable_of_numbers hwritable
  have hlocate : locate? (head ++ raw ++ post) = some (head.length, style, raw) :=
    locate?_render style totalLines hhead h hstamp hfeed hpost
  -- the lines of the block are those that were joined, as none of its texts breaks a line
  have hrows : parseRows style [] (Text.breakLines raw) = .ok (sections.map rowOf) := by
    rw [breakLines_render h hstamp hunbroken]
    exact parseRows_blockLines hstamp hnames hstorable hsections
  obtain ⟨hgenerated, htotalLines⟩ :=
    valueAfter?_render style sections h hstamp htotal
  have hread : readNumber (Text.ofInt totalLines) = .ok totalLines :=
    readNumber_ofInt htotal htotalWritable
  have htake : (head ++ raw ++ post).take head.length = head := by
    rw [List.append_assoc, List.take_left]
  rw [parse, hlocate]
  simp only [hrows, htake]
  rw [htotalLines, hgenerated]
  show (Except.ok _ >>= fun _ => ((some <$> readNumber (Text.ofInt totalLines)) >>= _)) = _
  rw [hread]
  rfl

/-- **What is true of the rows of a table** stays true if it is true of every row that is read. -/
theorem forall_of_parseRows {P : Row → Prop} {lines : List Text} {table rows : List Row}
    (h : parseRows style table lines = .ok rows) (htable : ∀ row ∈ table, P row)
    (hlines : ∀ line ∈ lines, ∀ row, parseRow (rowCells style line) = .ok (some row) → P row) :
    ∀ row ∈ rows, P row := by
  induction lines generalizing table with
  -- the table only grows, by rows that are read
  | nil =>
    cases h
    exact htable
  | cons line lines ih =>
    obtain ⟨hline, hlines⟩ := List.forall_mem_cons.mp hlines
    rw [parseRows] at h
    obtain ⟨row?, hrow, h⟩ := Fault.bind_eq_ok_iff.mp h
    cases row? with
    | none => exact ih h htable hlines
    | some row =>
      refine ih h (fun r hr => ?_) hlines
      rcases mem_putRow hr with rfl | hr
      · exact hline r hrow
      · exact htable r hr

/-- Every row that is read from unbroken lines is storable. -/
theorem isStorable_of_parseRows {lines : List Text} {rows : List Row}
    (hlines : ∀ line ∈ lines, line.IsUnbroken) (h : parseRows style [] lines = .ok rows) :
    ∀ row ∈ rows, row.IsStorable style :=
  forall_of_parseRows h (List.forall_mem_nil _) fun line hline _ =>
    isStorable_of_parseRow (hlines line hline)

/-- **Every row of a block is storable**, whoever wrote the block. -/
theorem isStorable_of_parse {content : Text} {b : Block} (h : parse content = .ok (some b)) :
    ∀ row ∈ b.rows, row.IsStorable b.style := by
  cases hlocate : locate? content with
  | none =>
    rw [parse_of_locate?_eq_none hlocate] at h
    cases h
  | some found =>
    obtain ⟨start, style, raw⟩ := found
    obtain ⟨-, -, rfl, hrows⟩ := parse_eq_some hlocate h
    exact isStorable_of_parseRows (fun _ => Text.isUnbroken_of_mem_breakLines) hrows

/-- A text is read as a block with the rows of these sections. -/
def Rereads (sections : List Section) (text : Text) : Prop :=
  ∃ b, parse text = .ok (some b) ∧ b.rows = sections.map rowOf

/-- **A block keeps its sections if and only if they are storable.** A block is written at every
moment that can be told in universal time, as long as its numbers are not too long. -/
theorem parse_serialize_rows_iff (style : Style) (now : Moment) (h : newline.IsLineEnd)
    (htotal : 0 ≤ totalLines) (hnames : (sections.map Section.name).Nodup)
    (hwritable : (numbers sections totalLines).all isWritable = true) :
    match now.blockStamp with
    | none => serialize sections totalLines style now newline = .error .dateOutOfRange
    | some _ => ∃ text, serialize sections totalLines style now newline = .ok text ∧
        (Rereads sections text ↔ ∀ s ∈ sections, (rowOf s).IsStorable style) := by
  cases hnow : now.blockStamp with
  | none => simp only [serialize, hnow]
  | some stamp =>
    have hstamp : IsStamp stamp := isStamp_of_blockStamp hnow
    refine ⟨render sections totalLines style stamp newline, ?_, fun hread s hs => ?_,
      fun hstorable => ?_⟩
    · exact serialize_eq_ok_iff.mpr ⟨stamp, hnow, hwritable, rfl⟩
    -- the rows that are read are storable, and they are those of the sections
    · obtain ⟨b, hparse, hrows⟩ := hread
      have hrow : (rowOf s).IsStorable b.style :=
        isStorable_of_parse hparse _ (hrows ▸ List.mem_map_of_mem hs)
      cases style with
      | hash => exact hrow.hash
      | jsdoc =>
        -- a comment is found where it starts, whatever is written in it
        have hlines : ∀ line ∈ tailLines .jsdoc sections totalLines stamp, ¬ closing <:+: line :=
          fun _ => closing_not_infix_of_mem_tailLines hstamp
        have hlocate := locateFrom?_jsdoc 0 [] h hlines
        rw [List.append_nil] at hlocate
        obtain ⟨-, -, hstyle, -⟩ := parse_eq_some hlocate hparse
        exact hstyle ▸ hrow
    -- the text of the block alone is a file with nothing before the block and nothing after it
    · have hparse := parse_render [] (Or.inl rfl) h (fun _ => Or.inl rfl) hstamp hnames
        hstorable htotal hwritable
      simp only [List.nil_append, List.append_nil] at hparse
      exact ⟨_, hparse, rfl⟩

/-- Bars and comment ends in names and descriptions are kept, and so is a section whose lines are
out of order. -/
theorem parse_serialize_rows_of_bars :
    let sections : List Section :=
      [⟨"a|b */ c", 3, 9, "x \\| y", .explicit⟩, ⟨"api", 12, 10, [], .auto⟩]
    ∃ text, serialize sections 40 .jsdoc ⟨2024, 2, 29, 23, 59, 59, 999999, 0⟩ ['\r', '\n'] =
        .ok text ∧
      (Rereads sections text ↔ ∀ s ∈ sections, (rowOf s).IsStorable .jsdoc) :=
  parse_serialize_rows_iff .jsdoc ⟨2024, 2, 29, 23, 59, 59, 999999, 0⟩ (Or.inr rfl) (by decide)
    (by decide) (by decide)

end Block

end SectionIndex
