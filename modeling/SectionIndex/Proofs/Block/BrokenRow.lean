import SectionIndex.Proofs.Block.AnyCell
import SectionIndex.Proofs.Block.RoundTrip

/-!
# Rows whose texts break lines

The line of a section falls into pieces if there is a line end in its name or in its description,
and each piece is read as a line of its own. Bars in a text are written with a backslash, so no
piece of a text looks like the start of a row. Of all pieces of a line at most one is a row: the one
with the numbers in it.

## Main definitions

* `Block.numberCells` — the numbers of a section with the bars around them.
* `Block.numberPiece` — the piece with the numbers in it.

## Main statements

* `Block.rowCells_numberPiece` — the cells of this piece, if the name is not broken.
* `Block.parseRows_line` — of the pieces of the line of a section at most this one is a row.
-/

namespace SectionIndex

namespace Block

open Text (IsPieceOf)

variable {style : Style} {newline stamp piece t : Text} {s : Section} {sections : List Section}
  {totalLines : Int} {escaped : Bool}

/-! ### Pieces without a cell boundary -/

theorem IsWhole.of_append_right {before : Text} (h : IsWhole escaped (before ++ t))
    (hescaped : before = [] → escaped = false) (hbefore : ∀ c ∈ before.getLast?, c ≠ '\\') :
    IsWhole false t := by
  induction before generalizing escaped with
  | nil => exact hescaped rfl ▸ h
  | cons c before ih =>
    obtain ⟨-, h⟩ := isWhole_cons.mp h
    refine ih h ?_ ?_
    · rintro rfl
      exact beq_false_of_ne (hbefore c rfl)
    · intro d hd
      refine hbefore d ?_
      rw [Option.mem_def] at hd
      rw [List.getLast?_cons, hd]
      rfl

theorem IsWhole.of_append_left {after : Text} (h : IsWhole escaped (t ++ after)) :
    IsWhole escaped t := by
  induction t generalizing escaped with
  | nil => rfl
  | cons c t ih =>
    obtain ⟨hc, h⟩ := isWhole_cons.mp h
    exact isWhole_cons.mpr ⟨hc, ih h⟩

/-- **A piece of a text without a cell boundary** has none either. -/
theorem IsWhole.of_isPieceOf (h : IsWhole false t) (hpiece : IsPieceOf piece t) :
    IsWhole false piece := by
  obtain ⟨before, after, rfl, hbefore⟩ := hpiece
  refine (h.of_append_right (fun _ => rfl) ?_).of_append_left
  rintro c hc rfl
  exact absurd (hbefore '\\' hc) (by decide)

/-- What is left of a line without its comment signs stands in the line after none of them. -/
theorem exists_eq_append_uncommented (line : Text) :
    ∃ before after, line = before ++ uncommented line ++ after ∧ '\\' ∉ before := by
  obtain ⟨signs, hsigns, hline⟩ := exists_eq_append_withoutSigns line
  obtain ⟨a, b, ha, -, hrest⟩ := Text.exists_eq_append_trim isBlank (withoutSigns line)
  refine ⟨signs ++ a, b, ?_, fun hmem => ?_⟩
  · conv => lhs; rw [hline, hrest]
    rw [uncommented_eq]
    simp only [Text.strip, List.append_assoc]
  · rcases List.mem_append.mp hmem with hmem | hmem
    · exact absurd (hsigns '\\' hmem) (by decide)
    · exact absurd (ha '\\' hmem) (by decide)

theorem isWhole_uncommented (h : IsWhole false t) : IsWhole false (uncommented t) := by
  obtain ⟨before, after, ht, hbefore⟩ := exists_eq_append_uncommented t
  rw [ht, List.append_assoc] at h
  refine (h.of_append_right (fun _ => rfl) ?_).of_append_left
  rintro c hc rfl
  exact hbefore (List.mem_of_getLast? hc)

theorem IsWhole.head?_ne (h : IsWhole false t) : t.head? ≠ some '|' := by
  intro hhead
  obtain ⟨rest, rfl⟩ := List.head?_eq_some_iff.mp hhead
  exact (isWhole_cons.mp h).1 ⟨rfl, rfl⟩

/-- **A line without a cell boundary is no row.** -/
theorem IsWhole.parseRow_eq (h : IsWhole false t) : parseRow (rowCells style t) = .ok none := by
  rw [rowCells, if_neg (isWhole_uncommented h).head?_ne]
  rfl

/-- **The cells of a line** in which nothing but comment signs stands before the first bar. -/
theorem rowCells_append_bar {before : Text} (h : uncommented before = []) (t : Text) :
    rowCells style (before ++ '|' :: t) =
      (splitCells (Text.trim (· == '|') (Text.trimEnd isBlank t))).map
        fun cell => unescapeCell style cell.strip := by
  have hline : uncommented (before ++ '|' :: t) = '|' :: Text.trimEnd isBlank t := by
    rw [uncommented_append_bar h]
    exact Text.trim_append t (List.cons_ne_nil '|' []) rfl
  have hbar : Text.trim (· == '|') ('|' :: Text.trimEnd isBlank t) =
      Text.trim (· == '|') (Text.trimEnd isBlank t) :=
    Text.trim_append_left (a := ['|']) _ (by simp)
  rw [rowCells, hline, List.head?_cons, if_pos rfl, hbar]

/-- A line is no row if anything but comment signs and blanks stands before its first bar. -/
theorem parseRow_of_uncommented_ne_nil {before : Text} (h : uncommented before ≠ [])
    (hbefore : IsWhole false before) (rest : Text) :
    parseRow (rowCells style (before ++ rest)) = .ok none := by
  obtain ⟨more, hmore⟩ := exists_uncommented_append h rest
  obtain ⟨c, t, ht⟩ := List.exists_cons_of_ne_nil h
  have hhead := (isWhole_uncommented hbefore).head?_ne
  rw [ht, List.head?_cons] at hhead
  rw [rowCells, hmore, ht, List.cons_append, List.head?_cons, if_neg hhead]
  rfl

/-- A bar after a text without a cell boundary makes no row of it. -/
theorem IsWhole.parseRow_concat (h : IsWhole false t) :
    parseRow (rowCells style (t ++ ['|'])) = .ok none := by
  by_cases hnil : uncommented t = []
  · rw [rowCells_append_bar hnil]
    rfl
  · exact parseRow_of_uncommented_ne_nil hnil h ['|']

/-! ### The piece with the numbers -/

theorem uncommented_append_blanks {line b : Text} (hb : ∀ c ∈ b, isBlank c = true) :
    uncommented (line ++ b) = uncommented line := by
  have hstrip : Text.strip (line ++ b) = Text.strip line := Text.trim_append_right line hb
  rw [uncommented, hstrip, uncommented]

/-- The sign of a comment is taken off a line. -/
theorem uncommented_sign (style : Style) : uncommented (style.sign ++ [' ']) = [] := by
  cases style <;> decide

/-- **The first piece of a broken name** is no row. -/
theorem parseRow_namePiece (h : IsWhole false t) :
    parseRow (rowCells style (style.sign ++ ' ' :: '|' :: ' ' :: t)) = .ok none := by
  have hline : style.sign ++ ' ' :: '|' :: ' ' :: t = (style.sign ++ [' ']) ++ '|' :: ' ' :: t := by
    rw [List.append_assoc, List.singleton_append]
  have hwhole : IsWhole false (' ' :: t) := isWhole_cons.mpr ⟨by simp, h⟩
  -- no bar is left but those with a backslash, so there is one cell
  have hcell : ∃ v, v <+: ' ' :: t ∧
      Text.trim (· == '|') (Text.trimEnd isBlank (' ' :: t)) = v := by
    obtain ⟨rest, hrest⟩ := Text.trimEnd_isPrefix isBlank (' ' :: t)
    generalize Text.trimEnd isBlank (' ' :: t) = u at hrest
    cases u with
    | nil => exact ⟨[], List.nil_prefix, rfl⟩
    | cons c u =>
      obtain ⟨rfl, rfl⟩ := List.cons.inj hrest
      have htrim : Text.trim (· == '|') (' ' :: u) = ' ' :: Text.trimEnd (· == '|') u :=
        Text.trim_append u (List.cons_ne_nil ' ' []) rfl
      refine ⟨_, List.cons_prefix_cons.mpr ⟨rfl, ?_⟩, htrim⟩
      exact (Text.trimEnd_isPrefix _ u).trans (List.prefix_append u rest)
  obtain ⟨v, ⟨rest, hv⟩, htrim⟩ := hcell
  have hsingle : splitCells v = [v] := by
    rw [← hv] at hwhole
    exact hwhole.of_append_left
  rw [hline, rowCells_append_bar (uncommented_sign style), htrim, hsingle]
  rfl

/-- The numbers of a section in its line, after the bar before the first of them. -/
def numbersText (s : Section) : Text :=
  [' '] ++ Text.padLeft numberWidth (Text.ofInt s.first) ++
    ([' ', '|', ' '] ++ Text.padLeft numberWidth (Text.ofInt s.last)) ++
    ([' ', '|', ' '] ++ Text.padLeft numberWidth (Text.ofInt s.size))

/-- **The numbers of a section** in its line, each after a bar. -/
def numberCells (s : Section) : Text :=
  [' ', '|'] ++ numbersText s

theorem commentLine_sectionLine (style : Style) (n m : Nat) (s : Section) :
    commentLine style.sign (sectionLine style n m s) =
      style.sign ++ " | " ++ Text.padRight n (escapeCell style s.name) ++ numberCells s ++
        (" | " ++ Text.padRight m (escapeCell style s.description) ++ " |") := by
  have hne : sectionLine style n m s ≠ [] := List.cons_ne_nil _ _
  rw [commentLine_of_ne_nil _ hne]
  unfold sectionLine tableLine numberCells numbersText
  simp only [Text.join_cons_of_ne_nil _ _ (List.cons_ne_nil _ _), Text.join_singleton,
    List.append_assoc]
  rfl

/-- The last digit of the numbers is neither blank nor a bar. -/
theorem exists_getLast?_numbersText (s : Section) (t : Text) :
    ∃ c, (t ++ numbersText s).getLast? = some c ∧ isBlank c = false ∧ c ≠ '|' := by
  obtain ⟨c, hc⟩ := Option.ne_none_iff_exists'.mp
    (mt List.getLast?_eq_none_iff.mp (ofInt_ne_nil s.size))
  have hlast : ∀ u : Text, (u ++ Text.ofInt s.size).getLast? = some c := by
    intro u
    rw [List.getLast?_append, hc, Option.some_or]
  have hlast : (t ++ numbersText s).getLast? = some c := by
    unfold numbersText Text.padLeft
    simp only [← List.append_assoc]
    exact hlast _
  refine ⟨c, hlast, ?_, ?_⟩
  · rcases mem_ofInt (List.mem_of_getLast? hc) with rfl | hdigit
    · rfl
    · exact isBlank_of_isDigit hdigit
  · rintro rfl
    exact not_mem_ofInt (by decide) (by decide) (List.mem_of_getLast? hc)

/-- **What is kept of a row** when its ends are trimmed: all up to its numbers, and what is not
trimmed of the rest. -/
theorem trim_row (s : Section) {t : Text} (ht : (t ++ numbersText s).head? = some ' ')
    (rest : Text) :
    Text.trim (· == '|') (Text.trimEnd isBlank (t ++ numbersText s ++ rest)) =
      t ++ numbersText s ++ Text.trimEnd (· == '|') (Text.trimEnd isBlank rest) := by
  -- the numbers end in a digit, so neither trimming reaches into them
  obtain ⟨c, hc, hblank, hbar⟩ := exists_getLast?_numbersText s t
  generalize t ++ numbersText s = kept at ht hc
  have hne : kept ≠ [] := by
    rintro rfl
    cases hc
  have hend : ∀ d ∈ kept.getLast?, isBlank d = false ∧ (d == '|') = false := by
    intro d hd
    rw [hc] at hd
    obtain rfl := Option.some.inj hd
    exact ⟨hblank, beq_false_of_ne hbar⟩
  have hstart : Text.trim (· == '|') kept = kept := by
    refine Text.trim_of_ends (fun d hd => ?_) fun d hd => (hend d hd).2
    rw [ht] at hd
    obtain rfl := Option.some.inj hd
    rfl
  rw [Text.trimEnd_append (Or.inr fun d hd => (hend d hd).1), Text.trim_append _ hne hstart]

/-- **The cells after the numbers** of a row, of which the first holds the description: none if
nothing but blanks follows the bar after the numbers. -/
def cellsAfter (style : Style) (rest : Text) : List Text :=
  if Text.trimEnd isBlank rest = [] then []
  else (splitCells (' ' :: Text.trimEnd (· == '|') (Text.trimEnd isBlank rest))).map
    fun cell => unescapeCell style cell.strip

/-- **The cells of the numbers and of what follows them.** -/
theorem map_splitCells_numbersText (style : Style) (s : Section) (rest : Text) :
    (splitCells (numbersText s ++
        Text.trimEnd (· == '|') (Text.trimEnd isBlank (" | " ++ rest)))).map
          (fun cell => unescapeCell style cell.strip) =
      Text.ofInt s.first :: Text.ofInt s.last :: Text.ofInt s.size :: cellsAfter style rest := by
  -- no cell of a number has a bar in it
  have hwhole : ∀ n : Int,
      IsWhole false (' ' :: Text.padLeft numberWidth (Text.ofInt n) ++ [' ']) := fun n =>
    isWhole_cons.mpr ⟨by simp, (isWhole_padLeft_ofInt numberWidth n).append (by decide)⟩
  have htext : ∀ u : Text, numbersText s ++ ' ' :: u =
      (' ' :: Text.padLeft numberWidth (Text.ofInt s.first) ++ [' ']) ++ '|' ::
        ((' ' :: Text.padLeft numberWidth (Text.ofInt s.last) ++ [' ']) ++ '|' ::
          ((' ' :: Text.padLeft numberWidth (Text.ofInt s.size) ++ [' ']) ++ u)) := by
    intro u
    simp only [numbersText, List.append_assoc, List.cons_append, List.nil_append]
  unfold cellsAfter
  by_cases hnil : Text.trimEnd isBlank rest = []
  · -- the bar after the numbers is the last one of the line, and is trimmed
    have hrest : Text.trimEnd (· == '|') (Text.trimEnd isBlank (" | " ++ rest)) = [' '] := by
      rw [Text.trimEnd_append_of_eq_nil _ hnil]
      rfl
    rw [if_pos hnil, hrest, htext, splitCells,
      splitCellsFrom_append_bar _ (hwhole _) List.getLast?_concat,
      splitCellsFrom_append_bar _ (hwhole _) List.getLast?_concat, List.append_nil, hwhole s.size]
    simp only [List.map_cons, List.map_nil, strip_framed, unescapeCell_strip_padLeft_ofInt]
  · -- a description is left, so the bar before it is kept
    have hspace : ∀ c ∈ (" | " : Text).getLast?, (c == '|') = false := by
      intro c hc
      obtain rfl : ' ' = c := Option.some.inj hc
      rfl
    have hrest : Text.trimEnd (· == '|') (Text.trimEnd isBlank (" | " ++ rest)) =
        ' ' :: '|' :: ' ' :: Text.trimEnd (· == '|') (Text.trimEnd isBlank rest) := by
      rw [Text.trimEnd_append (Or.inl hnil), Text.trimEnd_append (Or.inr hspace)]
      rfl
    rw [if_neg hnil, hrest, htext, splitCells,
      splitCellsFrom_append_bar _ (hwhole _) List.getLast?_concat,
      splitCellsFrom_append_bar _ (hwhole _) List.getLast?_concat,
      splitCellsFrom_append_bar _ (hwhole _) List.getLast?_concat]
    simp only [List.map_cons, strip_framed, unescapeCell_strip_padLeft_ofInt]
    rfl

/-- **The cells of a row**, if the name is not broken: the name and the numbers come first, whatever
follows them. -/
theorem rowCells_of_name (style : Style) (n : Nat) (s : Section) (rest : Text) :
    rowCells style (style.sign ++ " | " ++ Text.padRight n (escapeCell style s.name) ++
        numberCells s ++ (" | " ++ rest)) =
      readName style s.name :: Text.ofInt s.first :: Text.ofInt s.last :: Text.ofInt s.size ::
        cellsAfter style rest := by
  let name := Text.padRight n (escapeCell style s.name)
  -- the line as its sign, its first bar, and the three parts of the row
  have hpiece : style.sign ++ " | " ++ name ++ numberCells s ++ (" | " ++ rest) =
      (style.sign ++ [' ']) ++ '|' ::
        ((' ' :: name ++ [' ', '|']) ++ numbersText s ++ (" | " ++ rest)) := by
    have hbar : (" | " : Text) = [' ', '|', ' '] := rfl
    simp only [hbar, numberCells, List.append_assoc, List.cons_append, List.nil_append]
  have hname : IsWhole false (' ' :: name ++ [' ']) :=
    isWhole_cons.mpr ⟨by simp,
      (isWhole_padRight (isWhole_escapeCell style s.name)).append (by decide)⟩
  have hcell : Text.strip (' ' :: name ++ [' ']) = (escapeCell style s.name).strip := by
    rw [strip_framed, Text.strip_padRight]
  -- the bar after the name ends the cell, whatever follows
  have hsplit : ∀ u : Text, splitCells ((' ' :: name ++ [' ', '|']) ++ numbersText s ++ u) =
      (' ' :: name ++ [' ']) :: splitCells (numbersText s ++ u) := by
    intro u
    have hsplit := splitCellsFrom_append_bar (numbersText s ++ u) hname List.getLast?_concat
    simp only [List.append_assoc, List.cons_append, List.nil_append] at hsplit ⊢
    exact hsplit
  rw [hpiece, rowCells_append_bar (uncommented_sign style), trim_row s rfl, hsplit, List.map_cons,
    map_splitCells_numbersText, hcell, unescapeCell_strip_escapeCell]

/-- **The cells of a row before whose numbers there is no name:** the numbers are taken for the
name and the lines. -/
theorem rowCells_of_uncommented_eq_nil {before : Text} (h : uncommented before = []) (s : Section)
    (rest : Text) :
    rowCells style (before ++ numberCells s ++ (" | " ++ rest)) =
      Text.ofInt s.first :: Text.ofInt s.last :: Text.ofInt s.size :: cellsAfter style rest := by
  have hbefore : uncommented (before ++ [' ']) = [] := by
    rw [uncommented_append_blanks (by decide), h]
  have hpiece : before ++ numberCells s ++ (" | " ++ rest) =
      (before ++ [' ']) ++ '|' :: (([] : Text) ++ numbersText s ++ (" | " ++ rest)) := by
    simp only [numberCells, List.append_assoc, List.cons_append, List.nil_append]
  rw [hpiece, rowCells_append_bar hbefore, trim_row s rfl, List.nil_append,
    map_splitCells_numbersText]

/-- **The row that is read from the numbers of a section** after some name. -/
theorem parseRow_ofInt (name : Text) (more : List Text) (h : IsWritableSection s) :
    parseRow (name :: Text.ofInt s.first :: Text.ofInt s.last :: Text.ofInt s.size :: more) =
      .ok (if isHeadingName name = false ∧ 0 ≤ s.first ∧ 0 ≤ s.last then
        some ⟨name, s.first, s.last, s.size, more.head?.getD []⟩ else none) := by
  obtain ⟨hfirst, hlast, hsize⟩ := h
  rw [parseRow, isDigitCell_ofInt, isDigitCell_ofInt]
  -- a row is skipped for a heading in the place of its name, or for a sign before a line number
  by_cases hrow : isHeadingName name = false ∧ 0 ≤ s.first ∧ 0 ≤ s.last
  · rw [if_pos hrow]
    obtain ⟨hname, hfirst₀, hlast₀⟩ := hrow
    -- a negative size is not of digits, so it is computed from the two line numbers
    have hsizeCell : rowSize s.first s.last (some (Text.ofInt s.size)) = .ok s.size := by
      rw [rowSize, isDigitCell_ofInt]
      by_cases hneg : 0 ≤ s.size
      · rw [decide_eq_true hneg, if_pos rfl, readNumber_ofInt hneg hsize]
      · rw [decide_eq_false hneg]
        rfl
    rw [hname, decide_eq_true hfirst₀, decide_eq_true hlast₀, if_neg (by decide),
      readNumber_ofInt hfirst₀ hfirst, readNumber_ofInt hlast₀ hlast, List.head?_cons]
    show (rowSize s.first s.last (some (Text.ofInt s.size)) >>= _) = _
    rw [hsizeCell]
    cases more <;> rfl
  · have hskip : (isHeadingName name || !(decide (0 ≤ s.first) && decide (0 ≤ s.last))) = true := by
      by_contra hnot
      simp only [Bool.or_eq_true, not_or, Bool.not_eq_true, Bool.not_eq_false', Bool.and_eq_true,
        decide_eq_true_eq] at hnot
      exact hrow hnot
    rw [if_neg hrow, if_pos hskip]

/-! ### The pieces of a line -/

theorem parseRows_cons_append_of_none {after : List Text} (table : List Row) (line : Text)
    (rest : List Text) (h : ∀ line ∈ after, parseRow (rowCells style line) = .ok none) :
    parseRows style table (line :: (after ++ rest)) = parseRows style table (line :: rest) := by
  have hafter : ∀ table, parseRows style table (after ++ rest) = parseRows style table rest :=
    fun table => parseRows_append_of_none table rest h
  simp only [parseRows, hafter]

/-- **The lines of a description** after the first of them are no rows. -/
theorem exists_breakLinesFrom_description (style : Style) (ht : IsWhole false t) :
    ∃ after, (∀ line ∈ after, parseRow (rowCells style line) = .ok none) ∧
      ∀ (newline : Text) line rest, newline.IsLineEnd →
        Text.breakLinesFrom line (t ++ ' ' :: '|' :: (newline ++ rest)) =
          (line.reverse ++ Text.firstLine (t ++ " |")) :: (after ++ Text.breakLines rest) := by
  -- the bar at the end of the row ends its last line too
  have hend : ∀ (newline : Text) line rest, newline.IsLineEnd →
      Text.breakLinesFrom line (' ' :: '|' :: (newline ++ rest)) =
        (line.reverse ++ [' ', '|']) :: Text.breakLines rest := by
    intro newline line rest h
    have hbar : Text.IsUnbroken [' ', '|'] := by decide
    have hbreak := Text.breakLinesFrom_append line (newline ++ rest) hbar
    rw [Text.breakLinesFrom_newline _ _ h, List.reverse_append] at hbreak
    exact hbreak
  by_cases hbroken : Text.IsUnbroken t
  · -- the description is in one line, and with it the row
    refine ⟨[], List.forall_mem_nil _, ?_⟩
    intro newline line rest h
    have hline : Text.IsUnbroken (t ++ " |") := Text.isUnbroken_append.mpr ⟨hbroken, by decide⟩
    rw [Text.firstLine_of_isUnbroken hline, Text.breakLinesFrom_append _ _ hbroken, hend _ _ _ h,
      List.reverse_append, List.reverse_reverse, List.append_assoc, List.nil_append]
    rfl
  · -- the first line end of the description ends the row, and no later line has a bar that counts
    obtain ⟨before, c, left, -, hsplit, hc, hfirst⟩ := Text.exists_breakLinesFrom_append hbroken
    obtain ⟨pieces, hpieces, hrest⟩ := Text.exists_breakLines_append left
    have hleft : IsWhole false left := by
      rw [hsplit] at ht
      exact ht.of_isPieceOf (Text.isPieceOf_append_cons before left hc)
    have hlast : IsWhole false (Text.lastLine left) :=
      hleft.of_isPieceOf (Text.isPieceOf_lastLine left)
    have hline : Text.firstLine (t ++ " |") = Text.firstLine t := by
      rw [hsplit, List.append_assoc, List.cons_append, Text.firstLine_append_cons _ _ hc,
        Text.firstLine_append_cons _ _ hc]
    refine ⟨pieces ++ [Text.lastLine left ++ [' '] ++ ['|']], ?_, ?_⟩
    · refine List.forall_mem_append.mpr ⟨fun piece hpiece => ?_, List.forall_mem_singleton.mpr ?_⟩
      · exact (hleft.of_isPieceOf (hpieces piece hpiece)).parseRow_eq
      · exact (hlast.append (by decide)).parseRow_concat
    · intro newline line rest h
      rw [hfirst line ' ' _ (by decide), hrest ' ' _ (by decide), hend _ _ _ h, hline,
        List.reverse_reverse]
      simp only [List.append_assoc, List.singleton_append]

theorem isUnbroken_padLeft_ofInt (n : Nat) (m : Int) :
    Text.IsUnbroken (Text.padLeft n (Text.ofInt m)) :=
  fun c hc => isLineBreak_of_isBlockChar (isBlockChar_of_mem_padLeft_ofInt c hc)

theorem isUnbroken_numberCells (s : Section) : Text.IsUnbroken (numberCells s ++ " | ") := by
  have hbar : Text.IsUnbroken [' ', '|', ' '] := by decide
  have hopen : Text.IsUnbroken [' ', '|'] := by decide
  have hspace : Text.IsUnbroken [' '] := by decide
  unfold numberCells numbersText
  simp only [Text.isUnbroken_append]
  exact ⟨⟨hopen, ⟨⟨hspace, isUnbroken_padLeft_ofInt _ _⟩, hbar, isUnbroken_padLeft_ofInt _ _⟩,
    hbar, isUnbroken_padLeft_ofInt _ _⟩, hbar⟩

theorem isUnbroken_sign (style : Style) : Text.IsUnbroken (style.sign ++ " | ") := by
  cases style <;> decide +kernel

/-- The parts of the line of a section, with other lines after it. -/
theorem commentLine_sectionLine_append (style : Style) (n m : Nat) (s : Section)
    (newline rest : Text) :
    commentLine style.sign (sectionLine style n m s) ++ newline ++ rest =
      (style.sign ++ " | ") ++ (Text.padRight n (escapeCell style s.name) ++
        ((numberCells s ++ " | ") ++ (Text.padRight m (escapeCell style s.description) ++
          ' ' :: '|' :: (newline ++ rest)))) := by
  rw [commentLine_sectionLine]
  simp only [List.append_assoc]
  rfl

/-- **The lines of a name** before its last one are no rows, and the last one goes on with what
follows the name. -/
theorem exists_breakLines_name (style : Style) (hname : IsWhole false t) :
    ∃ pieces : List Text,
      (∀ piece ∈ pieces, parseRow (rowCells style piece) = .ok none) ∧
      ∀ d after, d ≠ '\n' → Text.breakLines ((style.sign ++ " | ") ++ (t ++ d :: after)) =
        pieces ++ Text.breakLinesFrom (Text.lastLine (style.sign ++ " | " ++ t)).reverse
          (d :: after) := by
  by_cases hbroken : t.IsUnbroken
  · -- the name is in one line, so no line comes before the one with its end
    refine ⟨[], List.forall_mem_nil _, fun d after _ => ?_⟩
    have hline : Text.IsUnbroken (style.sign ++ " | " ++ t) :=
      Text.isUnbroken_append.mpr ⟨isUnbroken_sign style, hbroken⟩
    rw [Text.lastLine_of_isUnbroken hline, ← List.append_assoc, Text.breakLines,
      Text.breakLinesFrom_append _ _ hline, List.append_nil, List.nil_append]
  · -- the lines before the last one of the name are no rows, as none has a second cell
    obtain ⟨before, c, left, ⟨u, rfl⟩, hsplit, hc, hbreak⟩ :=
      Text.exists_breakLinesFrom_append hbroken
    obtain ⟨pieces, hpieces, hrest⟩ := Text.exists_breakLines_append left
    rw [hsplit, List.append_assoc] at hname
    have hleft : IsWhole false left := by
      rw [← List.append_assoc] at hname
      exact hname.of_isPieceOf (Text.isPieceOf_append_cons _ left hc)
    have hlast : Text.lastLine (style.sign ++ " | " ++ t) = Text.lastLine left := by
      conv => lhs; rw [hsplit]
      rw [← List.append_assoc, Text.lastLine_append_cons _ _ hc]
    refine ⟨(style.sign ++ " | " ++ Text.firstLine t) :: pieces,
      List.forall_mem_cons.mpr ⟨?_, fun piece hpiece => ?_⟩, fun d after hd => ?_⟩
    · rw [List.append_assoc]
      exact parseRow_namePiece hname.of_append_left
    · exact (hleft.of_isPieceOf (hpieces piece hpiece)).parseRow_eq
    · rw [Text.breakLines, Text.breakLinesFrom_append _ _ (isUnbroken_sign style), hbreak _ d _ hd,
        hrest d _ hd, hlast, List.append_nil, List.reverse_reverse, List.cons_append]

/-- **The piece with the numbers** of the line of a section: the last line of what stands before
them and the first line of what follows. -/
def numberPiece (style : Style) (n m : Nat) (s : Section) : Text :=
  Text.lastLine (style.sign ++ " | " ++ Text.padRight n (escapeCell style s.name)) ++
    (numberCells s ++ " | ") ++
    Text.firstLine (Text.padRight m (escapeCell style s.description) ++ " |")

/-- A cell breaks a line only if its text does. -/
theorem isUnbroken_padRight_escapeCell (n : Nat) (h : t.IsUnbroken) :
    Text.IsUnbroken (Text.padRight n (escapeCell style t)) := by
  refine Text.isUnbroken_append.mpr ⟨fun c hc => ?_, Text.isUnbroken_replicate rfl⟩
  rcases mem_escapeCell hc with hc | rfl
  · exact h c hc
  · rfl

/-- **The cells of the piece with the numbers**, if the name is not broken. -/
theorem rowCells_numberPiece (style : Style) (n m : Nat) (hname : s.name.IsUnbroken) :
    rowCells style (numberPiece style n m s) =
      readName style s.name :: Text.ofInt s.first :: Text.ofInt s.last :: Text.ofInt s.size ::
        cellsAfter style
          (Text.firstLine (Text.padRight m (escapeCell style s.description) ++ " |")) := by
  have hline : Text.IsUnbroken (style.sign ++ " | " ++ Text.padRight n (escapeCell style s.name)) :=
    Text.isUnbroken_append.mpr ⟨isUnbroken_sign style, isUnbroken_padRight_escapeCell n hname⟩
  rw [← rowCells_of_name style n s, numberPiece, Text.lastLine_of_isUnbroken hline]
  simp only [List.append_assoc]

/-- **Of the pieces of the line of a section at most one is a row:** the one with the numbers,
whatever line end follows. -/
theorem parseRows_line (style : Style) (n m : Nat) (s : Section) (h : newline.IsLineEnd)
    (table : List Row) (rest : Text) :
    parseRows style table (Text.breakLines
        (commentLine style.sign (sectionLine style n m s) ++ newline ++ rest)) =
      parseRows style table (numberPiece style n m s :: Text.breakLines rest) := by
  obtain ⟨pieces, hpieces, hbreak⟩ :=
    exists_breakLines_name style (isWhole_padRight (n := n) (isWhole_escapeCell style s.name))
  obtain ⟨after, hafter, htail⟩ := exists_breakLinesFrom_description style
    (isWhole_padRight (n := m) (isWhole_escapeCell style s.description))
  obtain ⟨t, ht⟩ : ∃ t, numberCells s ++ " | " = ' ' :: t := ⟨_, rfl⟩
  rw [commentLine_sectionLine_append, ht, List.cons_append, hbreak ' ' _ (by decide),
    ← List.cons_append, ← ht, Text.breakLinesFrom_append _ _ (isUnbroken_numberCells s),
    htail _ _ _ h, parseRows_append_of_none _ _ hpieces,
    parseRows_cons_append_of_none _ _ _ hafter, numberPiece]
  simp only [List.reverse_append, List.reverse_reverse]

end Block

end SectionIndex
