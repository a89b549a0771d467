import SectionIndex.Proofs.Companion.Document
import SectionIndex.Proofs.Text.Numeral

/-!
# Companion documents with overlong numbers

A row of a table whose number has too many digits is not passed over like other rows that name no
lines. It is a fault of the whole document, whatever else is in it.

## Main definitions

* `Companion.overlong` — a document with such a row.

## Main statements

* `lineRange?_of_overlong` — a cell with too many digits is a fault.
* `Companion.parse_overlong` — so is the document.
-/

namespace SectionIndex

/-- **A cell with too many digits** is a fault. -/
theorem lineRange?_of_overlong {t : Text} (ht : ∀ c ∈ t, c.isDigit = true)
    (h : maxDigits < t.length) :
    lineRange? t = .error (.numberTooLong (some t.length)) := by
  have hstrip : t.strip = t := Text.strip_of_forall fun c hc => isBlank_of_isDigit (ht c hc)
  have htake : t.takeWhile isDecimal = t := takeWhile_isDecimal_of_digits ht
  have hdrop : t.dropWhile isDecimal = [] :=
    List.dropWhile_eq_nil_iff.mpr fun c hc => isDecimal_of_isDigit c (ht c hc)
  have hne : t ≠ [] := by
    rintro rfl
    exact absurd h (Nat.not_lt_zero _)
  simp only [lineRange?, hstrip, htake, hdrop, List.dropWhile_nil]
  rw [if_neg hne, readNumber_of_overlong ht h]
  rfl

namespace Companion

/-- One digit more than a number may have. -/
def overlongDigits : Text :=
  List.replicate (maxDigits + 1) '1'

/-- A row of a table that names too long a number. -/
def overlongLine : Text :=
  ['|'] ++ ('a' :: '|' :: overlongDigits) ++ ['|']

/-- The heading of a table. -/
def headingLine : Text := "## Sections"

/-- **A document with an overlong number** in its table. -/
def overlong : Text :=
  Text.join ['\n'] [headingLine, overlongLine]

theorem isDigit_of_mem_overlongDigits {c : Char} (h : c ∈ overlongDigits) : c.isDigit = true := by
  obtain rfl := List.eq_of_mem_replicate h
  rfl

theorem tableCells_overlongLine : tableCells overlongLine = [['a'], overlongDigits] := by
  have hlast : overlongDigits.getLast? = some '1' := by
    rw [overlongDigits, List.getLast?_replicate, if_neg (Nat.succ_ne_zero _)]
  -- the row has two cells between its bars, the name and the digits
  have hstrip : overlongLine.strip = overlongLine := by
    refine Text.trim_of_ends (fun c hc => ?_) (fun c hc => ?_)
    · cases hc
      rfl
    · rw [overlongLine, List.getLast?_concat] at hc
      cases hc
      rfl
  have htrim : Text.trim (· == '|') overlongLine = ['a'] ++ '|' :: overlongDigits := by
    refine Text.trim_append_append_of_trim (by decide) (by decide) ?_
    refine Text.trim_of_ends (fun c hc => ?_) (fun c hc => ?_)
    · cases hc
      rfl
    · rw [List.getLast?_cons_cons, List.getLast?_cons, hlast] at hc
      cases hc
      rfl
  have hbar : '|' ∉ overlongDigits := fun h => absurd (isDigit_of_mem_overlongDigits h) (by decide)
  have hdigits : overlongDigits.strip = overlongDigits :=
    Text.strip_of_forall fun c hc => isBlank_of_isDigit (isDigit_of_mem_overlongDigits hc)
  have hhead : overlongLine.head? = some '|' := rfl
  unfold tableCells
  simp only [hstrip, htrim]
  rw [if_pos hhead, List.splitOn_append_cons_self_of_not_mem (by decide),
    List.splitOn_eq_singleton hbar, List.map_cons, List.map_singleton, hdigits]
  rfl

theorem parseRow_overlongLine : parseRow (tableCells overlongLine) =
    .error (.numberTooLong (some overlongDigits.length)) := by
  have hlength : maxDigits < overlongDigits.length := by
    rw [overlongDigits, List.length_replicate]
    exact Nat.lt_succ_self _
  have hname : isHeadingName ['a'] = false := by decide +kernel
  rw [tableCells_overlongLine, parseRow, hname, if_neg Bool.false_ne_true,
    lineRange?_of_overlong (fun _ => isDigit_of_mem_overlongDigits) hlength]
  rfl

theorem breakLines_overlong : Text.breakLines overlong = [headingLine, overlongLine] := by
  have hdigits : overlongDigits.IsUnbroken := Text.isUnbroken_replicate rfl
  have hline : overlongLine.IsUnbroken := by
    refine Text.isUnbroken_append.mpr ⟨Text.isUnbroken_append.mpr ⟨by decide, ?_⟩, by decide⟩
    exact Text.isUnbroken_cons.mpr ⟨rfl, Text.isUnbroken_cons.mpr ⟨rfl, hdigits⟩⟩
  have hlast : [headingLine, overlongLine].getLast? ≠ some [] := by
    simp [overlongLine]
  refine Text.breakLines_join ?_ hlast (Or.inl rfl)
  exact List.forall_mem_cons.mpr ⟨by decide, List.forall_mem_singleton.mpr hline⟩

/-- **A document with an overlong number** is a fault. -/
theorem parse_overlong (path : Text) :
    parse (Text.normalizeNewlines overlong) path =
      .error (.numberTooLong (some overlongDigits.length)) := by
  have hpart : partOf? .preamble headingLine = some .sections := by decide +kernel
  have hrow : partOf? .sections overlongLine = none := by
    rw [partOf?, if_neg (by decide), if_neg fun h => absurd h.2 (by decide)]
  have hread : readLines .preamble [headingLine, overlongLine] =
      .error (.numberTooLong (some overlongDigits.length)) := by
    -- the heading starts the table, and its only row is the fault
    unfold readLines
    simp only [hpart]
    unfold readLines
    simp only [hrow, parseRow_overlongLine]
    rfl
  rw [parse, Text.breakLines_normalizeNewlines, breakLines_overlong, hread]
  rfl

end Companion

end SectionIndex
