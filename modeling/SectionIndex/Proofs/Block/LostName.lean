import SectionIndex.Proofs.Block.Numerals
import SectionIndex.Proofs.Block.Reread

/-!
# Rows of any names

What is read from the line of a section, whatever its name is. If the name ends its line, what
stands before the numbers is the last line of the name. The line is no row then, unless nothing but
comment signs is there: in that case the name is lost, and the numbers move up. The first line is
read as a name, and the description as the size.

## Main definitions

* `Block.IsLost` — a name that is lost from the line of its section.
* `Block.HasReadableSize` — the description can be read as a size, if it is taken for one.
* `Block.readKey?` — the name and the lines that are read from the line of a section.

## Main statements

* `Block.filter_isDigitCell_cellsAfter` — when the cell of the description shows digits.
* `Block.exists_parseRow_numberPiece_iff` — when the line of a section can be read.
* `Block.map_key_of_parseRow_numberPiece` — what is read from it.
-/

namespace SectionIndex

namespace Block

variable {style : Style} {s : Section} {t : Text}

/-! ### The cell of a description -/

/-- A backslash at the end of a text escapes nothing. -/
theorem unescapeBars_concat (t : Text) :
    unescapeBars (t ++ ['\\']) = unescapeBars t ++ ['\\'] := by
  induction t using unescapeBars.induct with
  | case1 => rfl
  | case2 t ih => exact congrArg ('|' :: ·) ih
  | case3 c t hnot ih =>
    rw [List.cons_append, unescapeBars.eq_3 _ _ hnot, unescapeBars.eq_3, ih, List.cons_append]
    intro rest hc hrest
    cases t with
    | nil => exact absurd (List.cons.inj hrest).1 (by decide)
    | cons d t => exact hnot t hc (by rw [(List.cons.inj hrest).1])

theorem unescapeClosings_concat (t : Text) :
    unescapeClosings (t ++ ['\\']) = unescapeClosings t ++ ['\\'] := by
  induction t using unescapeClosings.induct with
  | case1 => rfl
  | case2 t ih => exact congrArg ('*' :: '/' :: ·) ih
  | case3 c t hnot ih =>
    rw [List.cons_append, unescapeClosings.eq_3 _ _ hnot, unescapeClosings.eq_3, ih,
      List.cons_append]
    intro rest hc hrest
    obtain ⟨d, t, rfl⟩ := List.exists_cons_of_ne_nil (l := t) (by rintro rfl; simp at hrest)
    obtain ⟨rfl, htail⟩ := List.cons.inj hrest
    cases t with
    | nil => exact absurd (List.cons.inj htail).1 (by decide)
    | cons e t => exact hnot t hc (by rw [(List.cons.inj htail).1])

theorem unescapeCell_concat (style : Style) (t : Text) :
    ∃ u, unescapeCell style (t ++ ['\\']) = u ++ ['\\'] := by
  cases style with
  | hash => exact ⟨_, unescapeBars_concat t⟩
  | jsdoc => exact ⟨_, by rw [unescapeCell, unescapeClosings_concat, unescapeBars_concat]⟩

/-- Backslashes are all that is lost when a cell is read. -/
theorem mem_unescapeBars {c : Char} (hc : c ≠ '\\') (h : c ∈ t) : c ∈ unescapeBars t := by
  induction t using unescapeBars.induct with
  | case1 => exact h
  | case2 t ih =>
    rcases List.mem_cons.mp ((List.mem_cons.mp h).resolve_left hc) with rfl | h
    · exact List.mem_cons_self
    · exact List.mem_cons_of_mem _ (ih h)
  | case3 d t hnot ih =>
    rw [unescapeBars.eq_3 _ _ hnot, List.mem_cons]
    exact (List.mem_cons.mp h).imp id ih

theorem mem_unescapeClosings {c : Char} (hc : c ≠ '\\') (h : c ∈ t) :
    c ∈ unescapeClosings t := by
  induction t using unescapeClosings.induct with
  | case1 => exact h
  | case2 t ih =>
    rw [unescapeClosings, List.mem_cons, List.mem_cons]
    rw [List.mem_cons, List.mem_cons, List.mem_cons] at h
    exact h.imp id fun h => (h.resolve_left hc).imp id ih
  | case3 d t hnot ih =>
    rw [unescapeClosings.eq_3 _ _ hnot, List.mem_cons]
    exact (List.mem_cons.mp h).imp id ih

theorem mem_unescapeCell {c : Char} (style : Style) (hc : c ≠ '\\') (h : c ∈ t) :
    c ∈ unescapeCell style t := by
  cases style with
  | hash => exact mem_unescapeBars hc h
  | jsdoc => exact mem_unescapeBars hc (mem_unescapeClosings hc h)

/-- A text without a cell boundary that ends in a bar ends in an escape. -/
theorem IsWhole.exists_eq_concat (h : IsWhole false (t ++ ['|'])) : ∃ u, t = u ++ ['\\'] := by
  rcases List.eq_nil_or_concat t with rfl | ⟨u, c, rfl⟩
  · exact absurd rfl h.head?_ne
  · by_cases hc : c = '\\'
    · exact ⟨u, by rw [hc, List.concat_eq_append]⟩
    · have hbar : IsWhole false ['|'] := by
        refine h.of_append_right (fun _ => rfl) ?_
        intro d hd
        rw [List.concat_eq_append, List.getLast?_concat] at hd
        obtain rfl := Option.some.inj hd
        exact hc
      exact absurd rfl hbar.head?_ne

theorem not_isDigitCell_of_mem {c : Char} (hc : c ∈ t) (hform : isDigitForm c = false) :
    ¬ isDigitCell t = true := by
  intro h
  rw [isDigitForm_of_isDigitCell h c hc] at hform
  exact absurd hform (by decide)

/-- A text that ends in no blank loses the blanks at its start alone. -/
theorem strip_concat {c : Char} (t : Text) (hc : isBlank c = false) :
    Text.strip (t ++ [c]) = t.dropWhile isBlank ++ [c] := by
  have hstart : (t ++ [c]).dropWhile isBlank = t.dropWhile isBlank ++ [c] :=
    Text.dropWhile_append_of_stop (Or.inr (by simpa using hc))
  rw [Text.strip, Text.trim, hstart, Text.trimEnd_of_getLast? (by simpa using hc)]

/-- A cell that ends in a backslash or in a bar shows no digits. -/
theorem not_isDigitCell_unescapeCell_concat (style : Style) (t : Text) {c : Char}
    (hc : c = '\\' ∨ c = '|') :
    ¬ isDigitCell (unescapeCell style (Text.strip (t ++ [c]))) = true := by
  rcases hc with rfl | rfl
  · obtain ⟨u, hu⟩ := unescapeCell_concat style (t.dropWhile isBlank)
    rw [strip_concat t (by decide), hu]
    exact not_isDigitCell_of_mem List.mem_concat_self (by decide)
  · rw [strip_concat t (by decide)]
    exact not_isDigitCell_of_mem (mem_unescapeCell style (by decide) List.mem_concat_self)
      (by decide)

/-- A cell without a boundary in it is the only cell. -/
theorem map_splitCells_space (style : Style) (h : IsWhole false t) :
    (splitCells (' ' :: t)).map (fun cell => unescapeCell style cell.strip) =
      [unescapeCell style t.strip] := by
  have hsingle : splitCells (' ' :: t) = [' ' :: t] := isWhole_cons.mpr ⟨by simp, h⟩
  rw [hsingle, List.map_cons, List.map_nil, strip_space_cons]

/-- **The cell of an unbroken description** is what is read of it. -/
theorem cellsAfter_of_isUnbroken (style : Style) (m : Nat) (ht : t.IsUnbroken) :
    cellsAfter style (Text.firstLine (Text.padRight m (escapeCell style t) ++ " |")) =
      [readName style t] := by
  let cell := Text.padRight m (escapeCell style t)
  have hcell : IsWhole false (cell ++ [' ']) :=
    (isWhole_padRight (isWhole_escapeCell style t)).append (by decide)
  have hline : Text.IsUnbroken (cell ++ " |") :=
    Text.isUnbroken_append.mpr ⟨isUnbroken_padRight_escapeCell m ht, by decide⟩
  have hbar : ∀ c ∈ (cell ++ [' '] ++ ['|']).getLast?, isBlank c = false := by
    intro c hc
    rw [List.getLast?_concat] at hc
    obtain rfl := Option.some.inj hc
    rfl
  have hspace : ∀ c ∈ (cell ++ [' ']).getLast?, (c == '|') = false := by
    intro c hc
    rw [List.getLast?_concat] at hc
    obtain rfl := Option.some.inj hc
    rfl
  -- the blank before the last bar keeps it apart from all others
  have hend : cell ++ " |" = cell ++ [' '] ++ ['|'] := by
    rw [List.append_assoc]
    rfl
  have htrim : Text.trimEnd (· == '|') (cell ++ [' '] ++ ['|']) = cell ++ [' '] := by
    rw [Text.trimEnd_append_of_eq_nil _ (by decide), Text.trimEnd_of_getLast? hspace]
  have hstrip : Text.strip (cell ++ [' ']) = (escapeCell style t).strip :=
    (Text.trim_append_right cell (by decide)).trans (Text.strip_padRight m _)
  rw [Text.firstLine_of_isUnbroken hline, hend, cellsAfter, Text.trimEnd_of_getLast? hbar,
    if_neg (by simp), htrim, map_splitCells_space style hcell, hstrip,
    unescapeCell_strip_escapeCell]

/-- The first line of a broken description ends the piece with the numbers. -/
theorem firstLine_padRight_of_not_isUnbroken (style : Style) (m : Nat) (ht : ¬ t.IsUnbroken) :
    Text.firstLine (Text.padRight m (escapeCell style t) ++ " |") =
      escapeCell style (Text.firstLine t) := by
  obtain ⟨c, rest, hc, hsplit⟩ := Text.exists_eq_firstLine_append ht
  have hescape : escapeCell style t =
      escapeCell style (Text.firstLine t) ++ c :: escapeCell style rest := by
    conv => lhs; rw [hsplit]
    exact escapeCell_append_cons style _ rest (isNeutral_of_isLineBreak hc)
  have hfirst : Text.IsUnbroken (escapeCell style (Text.firstLine t)) := by
    intro d hd
    rcases mem_escapeCell hd with hd | rfl
    · exact Text.isUnbroken_firstLine t d hd
    · rfl
  rw [hescape, Text.padRight, List.append_assoc, List.append_assoc, List.cons_append,
    Text.firstLine_append_cons _ _ hc, Text.firstLine_of_isUnbroken hfirst]

/-- **The cell of a text that nothing follows** shows digits only if the text does. -/
theorem filter_isDigitCell_cellsAfter_escapeCell (style : Style) (t : Text) :
    (cellsAfter style (escapeCell style t)).head?.toList.filter isDigitCell =
      [t.strip].filter isDigitCell := by
  obtain ⟨b, hb, hsplit⟩ := Text.exists_eq_trimEnd_append isBlank (escapeCell style t)
  have hwhole : IsWhole false (Text.trimEnd isBlank (escapeCell style t)) := by
    have h : IsWhole false (escapeCell style t) := isWhole_escapeCell style t
    rw [hsplit] at h
    exact h.of_append_left
  have hstrip : Text.strip (Text.trimEnd isBlank (escapeCell style t)) =
      (escapeCell style t).strip := by
    conv => rhs; rw [hsplit]
    exact (Text.trim_append_right _ hb).symm
  rw [← filter_isDigitCell_readName style t, ← unescapeCell_strip_escapeCell, ← hstrip, cellsAfter]
  generalize Text.trimEnd isBlank (escapeCell style t) = u at hwhole
  rcases List.eq_nil_or_concat u with rfl | ⟨v, c, rfl⟩
  · -- nothing but blanks was written, so there is no cell
    cases style <;> rfl
  rw [List.concat_eq_append] at hwhole ⊢
  rw [if_neg (by simp)]
  by_cases hc : c = '|'
  · -- the bar of an escape is trimmed, and its backslash is left: neither shows digits
    subst hc
    obtain ⟨w, rfl⟩ := hwhole.exists_eq_concat
    have htrim : Text.trimEnd (· == '|') (w ++ ['\\'] ++ ['|']) = w ++ ['\\'] := by
      rw [Text.trimEnd_append_of_eq_nil _ (by decide), Text.trimEnd_of_getLast? (by simp)]
    have hleft := not_isDigitCell_unescapeCell_concat style w (Or.inl rfl)
    have hright := not_isDigitCell_unescapeCell_concat style (w ++ ['\\']) (Or.inr rfl)
    rw [htrim, map_splitCells_space style hwhole.of_append_left, List.filter_cons_of_neg hright]
    exact List.filter_cons_of_neg hleft
  · -- no bar is trimmed, so the cell is what was written
    have htrim : Text.trimEnd (· == '|') (v ++ [c]) = v ++ [c] := by
      refine Text.trimEnd_of_getLast? fun d hd => ?_
      rw [List.getLast?_concat] at hd
      obtain rfl := Option.some.inj hd
      exact beq_false_of_ne hc
    rw [htrim, map_splitCells_space style hwhole]
    rfl

/-- **The cell after the numbers** shows digits only if the first line of the description does. -/
theorem filter_isDigitCell_cellsAfter (style : Style) (m : Nat) (t : Text) :
    (cellsAfter style (Text.firstLine (Text.padRight m (escapeCell style t) ++
        " |"))).head?.toList.filter isDigitCell =
      [(Text.firstLine t).strip].filter isDigitCell := by
  by_cases ht : t.IsUnbroken
  · rw [cellsAfter_of_isUnbroken style m ht, Text.firstLine_of_isUnbroken ht]
    exact filter_isDigitCell_readName style t
  · rw [firstLine_padRight_of_not_isUnbroken style m ht]
    exact filter_isDigitCell_cellsAfter_escapeCell style _

/-! ### What is read from the line of a section -/

/-- **The name is lost** from the line of its section: it ends the line, and nothing but comment
signs and blanks follows in it. -/
def IsLost (name : Text) : Prop :=
  ¬ name.IsUnbroken ∧ uncommented (Text.lastLine name) = []

instance (name : Text) : Decidable (IsLost name) :=
  inferInstanceAs (Decidable (_ ∧ _))

/-- **The description can be read as a size**, if its first line is taken for one. -/
def HasReadableSize (s : Section) : Prop :=
  isDigitCell (Text.firstLine s.description).strip = true →
    IsNumeral (Text.firstLine s.description).strip

theorem hasReadableSize_iff : HasReadableSize s ↔
    ∀ t ∈ [(Text.firstLine s.description).strip].filter isDigitCell, IsNumeral t := by
  unfold HasReadableSize
  by_cases hdigits : isDigitCell (Text.firstLine s.description).strip = true
  · rw [List.filter_cons_of_pos hdigits, List.filter_nil, List.forall_mem_singleton]
    exact ⟨fun h => h hdigits, fun h _ => h⟩
  · rw [List.filter_cons_of_neg hdigits, List.filter_nil]
    exact iff_of_true (fun h => absurd h hdigits) (List.forall_mem_nil _)

/-- The name of a row and its lines. -/
def Row.key (row : Row) : Text × Int × Int :=
  (row.name, row.first, row.last)

/-- **The name and the lines that are read** from the line of a section, if it is a row. -/
def readKey? (style : Style) (s : Section) : Option (Text × Int × Int) :=
  if s.name.IsUnbroken then
    if isHeadingName (readName style s.name) then none
    else some (readName style s.name, s.first, s.last)
  -- behind a name that is lost the numbers move up
  else if IsLost s.name ∧ 0 ≤ s.size then some (Text.ofInt s.first, s.last, s.size)
  else none

/-- What is read is the name of the section with its lines, unless the name is lost. -/
theorem of_readKey? {key : Text × Int × Int} (h : readKey? style s = some key) :
    key = (readName style s.name, s.first, s.last) ∨
      IsLost s.name ∧ 0 ≤ s.size ∧ key = (Text.ofInt s.first, s.last, s.size) := by
  unfold readKey? at h
  split at h
  · split at h
    · cases h
    · exact Or.inl (Option.some.inj h).symm
  · split at h
    · next hlost => exact Or.inr ⟨hlost.1, hlost.2, (Option.some.inj h).symm⟩
    · cases h

theorem readKey?_of_isLost (hlost : IsLost s.name) (hsize : 0 ≤ s.size) :
    readKey? style s = some (Text.ofInt s.first, s.last, s.size) := by
  rw [readKey?, if_neg hlost.1, if_pos ⟨hlost, hsize⟩]

/-- A number is no heading of a table. -/
theorem isHeadingName_ofInt {n : Int} (hn : 0 ≤ n) : isHeadingName (Text.ofInt n) = false := by
  have hdigit : ∀ c ∈ Text.ofInt n, isDigitForm c = true := by
    refine isDigitForm_of_isDigitCell ?_
    rw [isDigitCell_ofInt, decide_eq_true hn]
  rw [Bool.eq_false_iff, ne_eq, isHeadingName_iff, not_or, not_or]
  refine ⟨ofInt_ne_nil n, fun hname => ?_, ?_⟩
  · have hletter : 'S' ∈ Text.ofInt n := by
      rw [hname]
      decide
    exact absurd (hdigit _ hletter) (by decide)
  · rintro ⟨left, right, k, hname⟩
    have hdash : '-' ∈ Text.ofInt n := by
      rw [hname, List.replicate_succ]
      simp
    exact absurd (hdigit _ hdash) (by decide)

theorem isNumeral_ofInt {n : Int} (hn : 0 ≤ n) (h : isWritable n = true) :
    IsNumeral (Text.ofInt n) := by
  have hcell : isDigitCell (Text.ofInt n) = true := by
    rw [isDigitCell_ofInt, decide_eq_true hn]
  exact (exists_readNumber_cell_iff hcell).mp ⟨n, readNumber_ofInt hn h⟩

/-- **What stands before the numbers** if the name is broken is the last line of the name. -/
theorem exists_numberPiece_of_not_isUnbroken (style : Style) (n m : Nat)
    (hname : ¬ s.name.IsUnbroken) :
    ∃ k, numberPiece style n m s =
      escapeCell style (Text.lastLine s.name) ++ List.replicate k ' ' ++ numberCells s ++ (" | " ++
        Text.firstLine (Text.padRight m (escapeCell style s.description) ++ " |")) := by
  obtain ⟨before, c, hc, hsplit⟩ := Text.exists_eq_append_lastLine hname
  have hescape : escapeCell style s.name =
      escapeCell style before ++ c :: escapeCell style (Text.lastLine s.name) := by
    conv => lhs; rw [hsplit]
    exact escapeCell_append_cons style before _ (isNeutral_of_isLineBreak hc)
  let k := n - (escapeCell style s.name).length
  have hlast : Text.IsUnbroken
      (escapeCell style (Text.lastLine s.name) ++ List.replicate k ' ') := by
    refine Text.isUnbroken_append.mpr ⟨fun d hd => ?_, Text.isUnbroken_replicate rfl⟩
    rcases mem_escapeCell hd with hd | rfl
    · exact Text.isUnbroken_lastLine s.name d hd
    · rfl
  -- the last line end of the name is the last one before the numbers
  have hline : style.sign ++ " | " ++ Text.padRight n (escapeCell style s.name) =
      (style.sign ++ " | " ++ escapeCell style before) ++
        c :: (escapeCell style (Text.lastLine s.name) ++ List.replicate k ' ') := by
    show style.sign ++ " | " ++ (escapeCell style s.name ++ List.replicate k ' ') = _
    conv => lhs; rw [hescape]
    simp only [List.append_assoc, List.cons_append]
  refine ⟨k, ?_⟩
  rw [numberPiece, hline, Text.lastLine_append_cons _ _ hc, Text.lastLine_of_isUnbroken hlast]
  simp only [List.append_assoc]

/-- Nothing is left of a name with blanks after it if nothing is left of the name. -/
theorem uncommented_escapeCell_append_spaces_eq_nil_iff (style : Style) (k : Nat) (t : Text) :
    uncommented (escapeCell style t ++ List.replicate k ' ') = [] ↔ uncommented t = [] := by
  rw [uncommented_append_blanks fun _ => Text.isBlank_of_mem_replicate,
    uncommented_escapeCell_eq_nil_iff]

/-- **A broken name that is not lost** leaves no row. -/
theorem parseRow_numberPiece_of_not_isLost (style : Style) (n m : Nat)
    (hname : ¬ s.name.IsUnbroken) (hlost : ¬ IsLost s.name) :
    parseRow (rowCells style (numberPiece style n m s)) = .ok none := by
  obtain ⟨k, hpiece⟩ := exists_numberPiece_of_not_isUnbroken style n m hname
  have hleft : uncommented
      (escapeCell style (Text.lastLine s.name) ++ List.replicate k ' ') ≠ [] := by
    rw [ne_eq, uncommented_escapeCell_append_spaces_eq_nil_iff]
    exact fun hnil => hlost ⟨hname, hnil⟩
  have hwhole : IsWhole false
      (escapeCell style (Text.lastLine s.name) ++ List.replicate k ' ') :=
    (isWhole_escapeCell style _).append (bar_not_mem_spaces k)
  rw [hpiece, List.append_assoc _ (numberCells s)]
  exact parseRow_of_uncommented_ne_nil hleft hwhole _

/-- **The cells behind a name that is lost:** the numbers, and the description. -/
theorem rowCells_numberPiece_of_isLost (style : Style) (n m : Nat) (hlost : IsLost s.name) :
    rowCells style (numberPiece style n m s) =
      Text.ofInt s.first :: Text.ofInt s.last :: Text.ofInt s.size :: cellsAfter style
        (Text.firstLine (Text.padRight m (escapeCell style s.description) ++ " |")) := by
  obtain ⟨hname, hnil⟩ := hlost
  obtain ⟨k, hpiece⟩ := exists_numberPiece_of_not_isUnbroken style n m hname
  rw [hpiece, rowCells_of_uncommented_eq_nil
    ((uncommented_escapeCell_append_spaces_eq_nil_iff style k _).mpr hnil)]

/-- The numbers that are read behind a name that is lost. -/
theorem digitCells_numberPiece_of_isLost (style : Style) (n m : Nat) (hlost : IsLost s.name)
    (hfirst : 0 ≤ s.first) (hlast : 0 ≤ s.last) :
    digitCells (rowCells style (numberPiece style n m s)) =
      if 0 ≤ s.size then Text.ofInt s.last :: Text.ofInt s.size ::
        [(Text.firstLine s.description).strip].filter isDigitCell else [] := by
  rw [rowCells_numberPiece_of_isLost style n m hlost, digitCells, isHeadingName_ofInt hfirst,
    isDigitCell_ofInt, isDigitCell_ofInt, decide_eq_true hlast,
    filter_isDigitCell_cellsAfter]
  by_cases hsize : 0 ≤ s.size
  · rw [decide_eq_true hsize, if_neg (by decide), if_pos hsize]
  · rw [decide_eq_false hsize, if_pos (by decide), if_neg hsize]

/-- **The line of a section can be read** unless its name is lost and its description is taken for
a size that is no number. -/
theorem exists_parseRow_numberPiece_iff (style : Style) (n m : Nat) (hs : IsWritableSection s)
    (hfirst : 0 ≤ s.first) (hlast : 0 ≤ s.last) :
    (∃ row?, parseRow (rowCells style (numberPiece style n m s)) = .ok row?) ↔
      (IsLost s.name → 0 ≤ s.size → HasReadableSize s) := by
  by_cases hname : s.name.IsUnbroken
  · obtain ⟨description, hrow⟩ := exists_parseRow_numberPiece style n m hname hs
    exact iff_of_true ⟨_, hrow⟩ fun hlost => absurd hname hlost.1
  by_cases hlost : IsLost s.name
  · rw [exists_parseRow_iff, digitCells_numberPiece_of_isLost style n m hlost hfirst hlast]
    split
    · next hsize =>
      have hnumbers := And.intro (isNumeral_ofInt hlast hs.2.1) (isNumeral_ofInt hsize hs.2.2)
      rw [List.forall_mem_cons, List.forall_mem_cons, ← hasReadableSize_iff]
      exact ⟨fun h _ _ => h.2.2, fun h => ⟨hnumbers.1, hnumbers.2, h hlost hsize⟩⟩
    · next hsize =>
      exact iff_of_true (List.forall_mem_nil _) fun _ h => absurd h hsize
  · have hrow := parseRow_numberPiece_of_not_isLost style n m hname hlost
    exact iff_of_true ⟨_, hrow⟩ fun h => absurd h hlost

/-- **What is read from the line of a section.** -/
theorem map_key_of_parseRow_numberPiece {n m : Nat} {row? : Option Row} (hs : IsWritableSection s)
    (hfirst : 0 ≤ s.first) (hlast : 0 ≤ s.last)
    (hread : parseRow (rowCells style (numberPiece style n m s)) = .ok row?) :
    row?.map Row.key = readKey? style s := by
  unfold readKey?
  by_cases hname : s.name.IsUnbroken
  · -- the name is in one line, so the row is read as it was written
    obtain ⟨description, hrow⟩ := exists_parseRow_numberPiece style n m hname hs
    rw [hrow] at hread
    rw [if_pos hname, ← Except.ok.inj hread]
    cases isHeadingName (readName style s.name) with
    | true => rfl
    | false => rw [if_pos ⟨rfl, hfirst, hlast⟩]; rfl
  rw [if_neg hname]
  by_cases hlost : IsLost s.name
  -- the numbers are read as they were written, each as what stands a cell before it
  · rw [rowCells_numberPiece_of_isLost style n m hlost, parseRow, isHeadingName_ofInt hfirst,
      isDigitCell_ofInt, isDigitCell_ofInt, decide_eq_true hlast] at hread
    by_cases hsize : 0 ≤ s.size
    · rw [decide_eq_true hsize, if_neg (by decide), readNumber_ofInt hlast hs.2.1,
        readNumber_ofInt hsize hs.2.2] at hread
      obtain ⟨_, hfirst, hread⟩ := Fault.bind_eq_ok_iff.mp hread
      obtain ⟨_, hlast, hread⟩ := Fault.bind_eq_ok_iff.mp hread
      obtain ⟨size, -, hrow⟩ := Fault.bind_eq_ok_iff.mp hread
      rw [if_pos ⟨hlost, hsize⟩, Except.ok.inj hfirst, Except.ok.inj hlast,
        ← Except.ok.inj hrow]
      rfl
    · rw [decide_eq_false hsize, if_pos (by decide)] at hread
      rw [if_neg fun h => hsize h.2, ← Except.ok.inj hread]
      rfl
  · -- the cell before the numbers is not of digits, so the line is no row
    rw [parseRow_numberPiece_of_not_isLost style n m hname hlost] at hread
    rw [if_neg fun h => hlost h.1, ← Except.ok.inj hread]
    rfl

end Block

end SectionIndex
