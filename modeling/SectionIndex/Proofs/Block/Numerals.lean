import SectionIndex.Block.Parser
import SectionIndex.Proofs.Text.Numeral

/-!
# The numbers of a block that is read

A line of a block that is no row of the table is passed over. But a cell counts as a number if its
characters show digits, and not every such text is the numeral of a number: the characters can be
raised or circled, or there can be too many of them. Then the whole block is a fault. So a block can
be read if and only if each of the texts that are taken for numbers is a numeral.

## Main definitions

* `Block.digitCells`, `Block.digitTexts` — the texts of a row and of a block that are taken for
  numbers.
* `Block.IsLegible` — a text whose block can be read, if it has one.

## Main statements

* `Block.exists_parse_ok_iff` — when a block can be read.
-/

namespace SectionIndex

namespace Block

variable {style : Style} {cells : List Text} {content raw : Text}

/-- **The cells of a row that are taken for numbers**, if the cells are a row of the table. -/
def digitCells : List Text → List Text
  | name :: first :: last :: more =>
    if isHeadingName name || !(isDigitCell first && isDigitCell last) then []
    else first :: last :: more.head?.toList.filter isDigitCell
  | _ => []

/-- **The texts of a block that are taken for numbers.** -/
def digitTexts (style : Style) (raw : Text) : List Text :=
  (Text.breakLines raw).flatMap (fun line => digitCells (rowCells style line)) ++
    (valueAfter? totalLinesLabel isDecimal raw).toList

/-- **The block of the text can be read**, if it has one: whatever is taken for a number is one. -/
def IsLegible (content : Text) : Prop :=
  ∀ start style raw, locate? content = some (start, style, raw) →
    ∀ t ∈ digitTexts style raw, IsNumeral t

/-! ### Rows -/

theorem exists_readNumber_cell_iff {cell : Text} (h : isDigitCell cell = true) :
    (∃ n, readNumber cell = .ok n) ↔ IsNumeral cell := by
  simp only [isDigitCell, Bool.and_eq_true, List.all_eq_true] at h
  refine exists_readNumber_iff h.2 ?_
  rintro rfl
  exact absurd h.1 (by decide)

/-- **A row is read** if its cells that are taken for numbers are numerals. -/
theorem exists_parseRow_iff (cells : List Text) :
    (∃ row?, parseRow cells = .ok row?) ↔ ∀ t ∈ digitCells cells, IsNumeral t := by
  unfold parseRow
  split
  · next name first last more =>
    -- a row is skipped before any of its numbers is read
    by_cases hrow : (isHeadingName name || !(isDigitCell first && isDigitCell last)) = true
    · rw [if_pos hrow, digitCells, if_pos hrow]
      exact iff_of_true ⟨_, rfl⟩ (List.forall_mem_nil _)
    · rw [if_neg hrow, digitCells, if_neg hrow]
      simp only [Bool.or_eq_true, Bool.not_eq_true', not_or, Bool.not_eq_false,
        Bool.and_eq_true] at hrow
      obtain ⟨-, hfirst, hlast⟩ := hrow
      -- the size is read only if its cell shows digits
      have hsize : ∀ first last, (∃ size, rowSize first last more.head? = .ok size) ↔
          ∀ t ∈ more.head?.toList.filter isDigitCell, IsNumeral t := by
        intro first last
        cases more with
        | nil => exact iff_of_true ⟨_, rfl⟩ (List.forall_mem_nil _)
        | cons size more =>
          simp only [List.head?_cons, rowSize, Option.toList_some]
          by_cases hdigits : isDigitCell size = true
          · rw [if_pos hdigits, List.filter_cons_of_pos hdigits, List.filter_nil,
              List.forall_mem_singleton]
            exact exists_readNumber_cell_iff hdigits
          · rw [if_neg hdigits, List.filter_cons_of_neg hdigits]
            exact iff_of_true ⟨_, rfl⟩ (List.forall_mem_nil _)
      rw [Fault.exists_bind_eq_ok_iff, List.forall_mem_cons, List.forall_mem_cons,
        ← exists_readNumber_cell_iff hfirst, ← exists_readNumber_cell_iff hlast]
      -- the numbers are read one after the other, so all of them have to be numerals
      constructor
      · rintro ⟨m, hm, h⟩
        obtain ⟨n, hn, h⟩ := Fault.exists_bind_eq_ok_iff.mp h
        obtain ⟨size, hread, -⟩ := Fault.exists_bind_eq_ok_iff.mp h
        exact ⟨⟨m, hm⟩, ⟨n, hn⟩, (hsize m n).mp ⟨size, hread⟩⟩
      · rintro ⟨⟨m, hm⟩, ⟨n, hn⟩, hnumerals⟩
        obtain ⟨size, hread⟩ := (hsize m n).mpr hnumerals
        exact ⟨m, hm, Fault.exists_bind_eq_ok_iff.mpr ⟨n, hn,
          Fault.exists_bind_eq_ok_iff.mpr ⟨size, hread, _, rfl⟩⟩⟩
  · next hnot =>
    rw [digitCells.eq_2 cells hnot]
    exact iff_of_true ⟨_, rfl⟩ (List.forall_mem_nil _)

theorem isOfNumber_of_parseRow {fault : Fault} (h : parseRow cells = .error fault) :
    fault.IsOfNumber := by
  unfold parseRow at h
  split at h
  · split at h
    · cases h
    · refine Fault.isOfNumber_of_bind h (fun _ => isOfNumber_of_readNumber) fun _ _ h => ?_
      refine Fault.isOfNumber_of_bind h (fun _ => isOfNumber_of_readNumber) fun _ _ h => ?_
      refine Fault.isOfNumber_of_bind h (fun _ h => ?_) fun _ _ h => nomatch h
      unfold rowSize at h
      split at h
      · split at h
        · exact isOfNumber_of_readNumber h
        · cases h
      · cases h
  · cases h

/-- **The rows of lines are read** if those of each line are. -/
theorem exists_parseRows_iff (style : Style) (table : List Row) (lines : List Text) :
    (∃ rows, parseRows style table lines = .ok rows) ↔
      ∀ t ∈ lines.flatMap (fun line => digitCells (rowCells style line)), IsNumeral t := by
  -- the table grows from row to row, but what it holds does not decide whether a number is read
  induction lines generalizing table with
  | nil => exact iff_of_true ⟨_, rfl⟩ (List.forall_mem_nil _)
  | cons line lines ih =>
    rw [parseRows, Fault.exists_bind_eq_ok_iff, List.flatMap_cons, List.forall_mem_append,
      ← exists_parseRow_iff]
    constructor
    · rintro ⟨row?, hrow, hrest⟩
      refine ⟨⟨row?, hrow⟩, ?_⟩
      cases row? with
      | none => exact (ih table).mp hrest
      | some row => exact (ih _).mp hrest
    · rintro ⟨⟨row?, hrow⟩, hnumerals⟩
      refine ⟨row?, hrow, ?_⟩
      cases row? with
      | none => exact (ih table).mpr hnumerals
      | some row => exact (ih _).mpr hnumerals

theorem isOfNumber_of_parseRows {table : List Row} {lines : List Text} {fault : Fault}
    (h : parseRows style table lines = .error fault) : fault.IsOfNumber := by
  induction lines generalizing table with
  | nil => cases h
  | cons line lines ih =>
    rw [parseRows] at h
    refine Fault.isOfNumber_of_bind h (fun _ => isOfNumber_of_parseRow) fun row? _ h => ?_
    cases row? with
    | none => exact ih h
    | some row => exact ih h

/-! ### Blocks -/

/-- The value of a label holds nothing but characters of the class, and at least one. -/
theorem of_valueAfter? {label value t : Text} {members : Char → Bool}
    (h : valueAfter? label members t = some value) :
    (∀ c ∈ value, members c = true) ∧ value ≠ [] := by
  induction t with
  | nil => cases h
  | cons c t ih =>
    rw [valueAfter?] at h
    split at h
    · next found hat =>
      cases h
      unfold valueAt? at hat
      split at hat
      · simp only [ne_eq, Option.ite_none_right_eq_some, Option.some.injEq] at hat
        obtain ⟨⟨-, hne⟩, rfl⟩ := hat
        exact ⟨List.all_eq_true.mp List.all_takeWhile, hne⟩
      · cases hat
    · exact ih h

theorem exists_readTotal_iff (raw : Text) :
    (∃ total, (valueAfter? totalLinesLabel isDecimal raw).mapM readNumber = .ok total) ↔
      ∀ t ∈ (valueAfter? totalLinesLabel isDecimal raw).toList, IsNumeral t := by
  cases hvalue : valueAfter? totalLinesLabel isDecimal raw with
  | none => exact iff_of_true ⟨_, rfl⟩ (List.forall_mem_nil _)
  | some value =>
    -- the value is made of digits, so it is read if it is a numeral
    obtain ⟨hdecimal, hne⟩ := of_valueAfter? hvalue
    have hdigits : ∀ c ∈ value, isDigitForm c = true := fun c hc => by
      rw [isDigitForm, hdecimal c hc, Bool.true_or]
    rw [Option.toList_some, List.forall_mem_singleton, ← exists_readNumber_iff hdigits hne,
      Option.mapM_some]
    cases readNumber value with
    | error fault =>
      constructor
      · rintro ⟨total, htotal⟩
        cases htotal
      · rintro ⟨n, hn⟩
        cases hn
    | ok n => exact iff_of_true ⟨_, rfl⟩ ⟨_, rfl⟩

/-- **A block can be read** if and only if each text in it that is taken for a number is a
numeral. -/
theorem exists_parse_ok_iff (content : Text) :
    (∃ b?, parse content = .ok b?) ↔ IsLegible content := by
  unfold parse IsLegible
  cases hlocate : locate? content with
  | none => exact iff_of_true ⟨_, rfl⟩ fun _ _ _ h => nomatch h
  | some found =>
    obtain ⟨start, style, raw⟩ := found
    -- only the block that is found is read: its rows, then its total
    simp only [Fault.exists_bind_eq_ok_iff]
    have hplace : (∀ start' style' raw', some (start, style, raw) = some (start', style', raw') →
        ∀ t ∈ digitTexts style' raw', IsNumeral t) ↔ ∀ t ∈ digitTexts style raw, IsNumeral t := by
      constructor
      · exact fun h => h start style raw rfl
      · intro h start' style' raw' heq
        cases heq
        exact h
    rw [hplace, digitTexts, List.forall_mem_append, ← exists_parseRows_iff style [],
      ← exists_readTotal_iff]
    exact ⟨fun ⟨rows, hrows, total, htotal, _⟩ => ⟨⟨rows, hrows⟩, total, htotal⟩,
      fun ⟨⟨rows, hrows⟩, total, htotal⟩ => ⟨rows, hrows, total, htotal, _, rfl⟩⟩

/-- What is wrong with a block is wrong with one of its numbers. -/
theorem isOfNumber_of_parse {fault : Fault} (h : parse content = .error fault) :
    fault.IsOfNumber := by
  unfold parse at h
  split at h
  · cases h
  · next start style raw _ =>
    refine Fault.isOfNumber_of_bind h (fun _ => isOfNumber_of_parseRows) fun _ _ h => ?_
    refine Fault.isOfNumber_of_bind h (fun fault h => ?_) fun _ _ h => nomatch h
    cases hvalue : valueAfter? totalLinesLabel isDecimal raw with
    | none => rw [hvalue] at h; cases h
    | some value =>
      rw [hvalue, Option.mapM_some] at h
      exact Fault.isOfNumber_of_bind h (fun _ => isOfNumber_of_readNumber) fun _ _ h => nomatch h

/-- What is wrong with numbers that are written is that one of them is too long. -/
theorem isOfNumber_of_checkNumbers {sections : List Section} {totalLines : Int} {fault : Fault}
    (h : checkNumbers sections totalLines = .error fault) : fault.IsOfNumber := by
  unfold checkNumbers at h
  split at h
  · cases h
  · cases h
    exact trivial

end Block

end SectionIndex
