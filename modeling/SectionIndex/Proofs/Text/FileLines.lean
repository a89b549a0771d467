import SectionIndex.Block.Splice
import SectionIndex.Proofs.Text.Lines

/-!
# The numbered lines of a file that is put together

A file starts with the line of an interpreter, or it does not. What follows is numbered on from
there, so lines that are put in between move it down by as many lines as there are.

## Main definitions

* `Text.restLines` — the lines of what follows a line.
* `Block.headLines` — the line of an interpreter.

## Main statements

* `Text.restLines_join_append` — the lines of joined lines and of what follows them.
* `Block.restLines_interpreterLine_append` — the lines of what follows the line of an interpreter.
-/

namespace SectionIndex

namespace Text

variable {newline : Text}

/-- **The lines of what follows a line.** Unlike a file, this can have no line at all. -/
def restLines (t : Text) : List Text :=
  let lines := (t.splitOn '\n').map dropReturn
  if lines.getLast? = some [] then lines.dropLast else lines

/-- The lines of a file, of which there is always one. -/
theorem splitLines_eq (t : Text) :
    splitLines t = if restLines t = [] then [[]] else restLines t := by
  have hne : (t.splitOn '\n').map dropReturn ≠ [] := by simp
  unfold splitLines restLines
  simp only
  generalize (t.splitOn '\n').map dropReturn = lines at hne
  -- the two differ if the last line is empty: only a file keeps it when it is the only one
  by_cases hlast : lines.getLast? = some []
  · rw [if_pos hlast]
    obtain ⟨init, rfl⟩ := List.getLast?_eq_some_iff.mp hlast
    rw [List.dropLast_concat]
    cases init with
    | nil => rfl
    | cons line init =>
      rw [if_pos ⟨by simp, List.getLast?_concat⟩, if_neg (List.cons_ne_nil _ _)]
  · rw [if_neg hlast, if_neg fun h => hlast h.2, if_neg hne]

theorem splitLines_of_restLines_ne_nil {t : Text} (h : restLines t ≠ []) :
    splitLines t = restLines t := by
  rw [splitLines_eq, if_neg h]

@[simp] theorem restLines_nil : restLines [] = [] := by decide

/-- **A line and what follows it.** -/
theorem restLines_append {line : Text} (rest : Text) (h : '\n' ∉ line) :
    restLines (line ++ '\n' :: rest) = dropReturn line :: restLines rest := by
  have hne : (rest.splitOn '\n').map dropReturn ≠ [] := by simp
  unfold restLines
  rw [List.splitOn_append_cons_self_of_not_mem h, List.map_cons]
  simp only
  -- there is a last line in the rest, so the first one is never dropped
  generalize (rest.splitOn '\n').map dropReturn = lines at hne
  obtain ⟨first, lines, rfl⟩ := List.exists_cons_of_ne_nil hne
  rw [List.getLast?_cons_cons]
  split
  · rw [List.dropLast_cons_cons]
  · rfl

/-- The carriage return of a line end is no part of the line. -/
theorem dropReturn_append_dropLast {line : Text} (h : newline.IsLineEnd) (hline : '\r' ∉ line) :
    dropReturn (line ++ newline.dropLast) = line := by
  have hplain : dropReturn line = line := by
    unfold dropReturn
    rw [if_neg fun hlast => hline (List.mem_of_getLast? hlast)]
  -- the line end has no carriage return, or it is the last character of the piece
  rcases h with rfl | rfl
  · rw [List.dropLast_singleton, List.append_nil]
    exact hplain
  · show dropReturn (line ++ ['\r']) = line
    unfold dropReturn
    rw [if_pos List.getLast?_concat, List.dropLast_concat]

/-- **A line and its end** come before the lines of what follows them. -/
theorem restLines_append_end {line : Text} (rest : Text) (h : newline.IsLineEnd)
    (hline : '\n' ∉ line) : restLines (line ++ newline ++ rest) =
      dropReturn (line ++ newline.dropLast) :: restLines rest := by
  rw [h.append_append, restLines_append rest (h.lineFeed_not_mem_append hline)]

theorem restLines_append_newline {line : Text} (rest : Text) (h : newline.IsLineEnd)
    (hline : line.IsUnbroken) : restLines (line ++ newline ++ rest) = line :: restLines rest := by
  rw [restLines_append_end rest h hline.lineFeed_not_mem,
    dropReturn_append_dropLast h (hline.not_mem rfl)]

/-- **The lines of joined lines** and of what follows them. -/
theorem restLines_join_append {lines : List Text} (rest : Text) (h : newline.IsLineEnd)
    (hne : lines ≠ []) (hlines : ∀ line ∈ lines, line.IsUnbroken) :
    restLines (join newline lines ++ newline ++ rest) = lines ++ restLines rest :=
  divide_join_append rest hne fun line hline rest =>
    restLines_append_newline rest h (hlines line hline)

end Text

namespace Block

/-- **The line of an interpreter**, if the file starts with one, without its end. -/
def headLines (content : Text) : List Text :=
  if interpreterLine content = [] then []
  else [Text.dropReturn (content.takeWhile (· != '\n'))]

theorem interpreterLine_eq_nil {content : Text} (h : ¬ ['#', '!'] <+: content) :
    interpreterLine content = [] :=
  if_neg fun hline => h (List.isPrefixOf_iff_prefix.mp hline.1)

/-- A new block starts on the line after it. -/
theorem insertionLine_eq (content : Text) :
    insertionLine content = (headLines content).length + 1 := by
  unfold insertionLine headLines
  split <;> rfl

/-- **The lines of what follows the line of an interpreter.** -/
theorem restLines_interpreterLine_append (content rest : Text) :
    Text.restLines (interpreterLine content ++ rest) = headLines content ++
      Text.restLines rest := by
  unfold headLines
  split
  · next h => rw [h]; rfl
  · next h =>
    have hline : '\n' ∉ content.takeWhile (· != '\n') := fun hmem =>
      absurd (List.all_eq_true.mp List.all_takeWhile _ hmem) (by decide)
    have heq : interpreterLine content = content.takeWhile (· != '\n') ++ ['\n'] := by
      unfold interpreterLine at h ⊢
      split
      · rfl
      · next hnot => exact absurd (if_neg hnot) h
    rw [heq, List.append_assoc, List.singleton_append, Text.restLines_append rest hline]
    rfl

/-- It starts with the two signs, and it is the first line of the file. -/
theorem of_mem_headLines {content line : Text} (h : line ∈ headLines content) :
    ['#', '!'] <+: line ∧ (Text.splitLines content).head? = some line := by
  unfold headLines at h
  split at h
  · exact absurd h (by simp)
  · next hne =>
    obtain rfl := List.mem_singleton.mp h
    obtain ⟨hsigns, hfeed⟩ : ['#', '!'].isPrefixOf content ∧ '\n' ∈ content := by
      unfold interpreterLine at hne
      split at hne
      · assumption
      · exact absurd rfl hne
    -- the line of the interpreter is all up to the first line feed
    obtain ⟨line, rest, rfl, hline⟩ := List.eq_append_cons_of_mem hfeed
    rw [Text.takeWhile_append_lineFeed hline]
    refine ⟨?_, ?_⟩
    · have hprefix : ['#', '!'] <+: line := by
        obtain ⟨t, ht⟩ := List.isPrefixOf_iff_prefix.mp hsigns
        -- the two signs are no line feeds, so both stand in the line
        rcases line with _ | ⟨a, _ | ⟨b, line⟩⟩
        · simp at ht
        · simp at ht
        · obtain ⟨rfl, rfl, -⟩ : '#' = a ∧ '!' = b ∧ _ := by simpa using ht
          exact ⟨line, rfl⟩
      obtain ⟨t, rfl⟩ := hprefix
      -- a carriage return at its end comes after the two signs
      unfold Text.dropReturn
      split
      · next hlast =>
        cases t with
        | nil => exact absurd hlast (by decide)
        | cons c t => exact ⟨(c :: t).dropLast, rfl⟩
      · exact ⟨t, rfl⟩
    · have hlines := Text.restLines_append rest hline
      rw [Text.splitLines_of_restLines_ne_nil (by rw [hlines]; simp), hlines]
      rfl

end Block

end SectionIndex
