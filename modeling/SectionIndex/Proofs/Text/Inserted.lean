import SectionIndex.Proofs.Text.LineCount

/-!
# Lines that are put into a file

Someone who edits a file puts new lines before one of its lines, or after its last one. The lines
before that place stay as they are, with the numbers that they have, and those after it move down by
as many lines as there are new ones.

## Main definitions

* `Text.insertLines` — a text with new lines before a line of it.

## Main statements

* `Text.insertLines_cases` — where the new lines stand in the text.
* `Text.exists_splitLines_insertLines` — the lines of the text with the new lines among them.
-/

namespace SectionIndex

namespace Text

variable {newline content t line piece : Text} {lines new : List Text} {number : Nat}

/-- **What is missing at the end of the last line.** A carriage return that ends the text is half
of a line end already. -/
def missingEnd (newline content : Text) : Text :=
  if content.getLast? = some '\r' then ['\n'] else newline

/-- **A text with new lines before its line `number`.** If it has as many line feeds as to have no
such line, the new lines come after its last one. -/
def insertLines (newline : Text) (new : List Text) (number : Nat) (content : Text) : Text :=
  let pieces := content.splitOn '\n'
  if number ≤ pieces.length then
    join ['\n'] (pieces.take (number - 1) ++ new.map (· ++ newline.dropLast) ++
      pieces.drop (number - 1))
  else content ++ missingEnd newline content ++ join newline new

theorem isLineEnd_missingEnd (h : newline.IsLineEnd) (content : Text) :
    (missingEnd newline content).IsLineEnd := by
  unfold missingEnd
  split
  · exact Or.inl rfl
  · exact h

/-- Lines with a line feed between neighbours are whole lines and a last one. -/
theorem join_concat_eq_wholeLines (hlines : ∀ line ∈ lines, '\n' ∉ line) (hlast : '\n' ∉ t) :
    join ['\n'] (lines ++ [t]) = wholeLines lines ++ t := by
  have h : join ['\n'] ((wholeLines lines ++ t).splitOn '\n') = wholeLines lines ++ t :=
    List.intercalate_splitOn '\n'
  rwa [splitOn_wholeLines_append _ hlines, List.splitOn_eq_singleton hlast] at h

/-- **Where the new lines stand:** between whole lines and what follows them, or after a last line
whose end was missing. -/
theorem insertLines_cases (newline : Text) (hnew : ∀ line ∈ new, '\n' ∉ line ++ newline.dropLast)
    (number : Nat) (content : Text) :
    (∃ before rest, (∀ line ∈ before, '\n' ∉ line) ∧ before.length = number - 1 ∧
      content = wholeLines before ++ rest ∧
      insertLines newline new number content =
        wholeLines before ++ (wholeLines (new.map (· ++ newline.dropLast)) ++ rest)) ∨
    ∃ before last, (∀ line ∈ before, '\n' ∉ line) ∧ '\n' ∉ last ∧ before.length + 1 < number ∧
      content = wholeLines before ++ last ∧
      insertLines newline new number content =
        content ++ missingEnd newline content ++ join newline new := by
  obtain ⟨lines, last, hlines, hlast, rfl⟩ := exists_wholeLines content
  have hsplit : (wholeLines lines ++ last).splitOn '\n' = lines ++ [last] := by
    rw [splitOn_wholeLines_append _ hlines, List.splitOn_eq_singleton hlast]
  by_cases hle : number ≤ lines.length + 1
  · have hprefix : number - 1 ≤ lines.length := by omega
    have hbefore : ∀ line ∈ lines.take (number - 1), '\n' ∉ line := fun line hline =>
      hlines line (List.mem_of_mem_take hline)
    -- none of the pieces that are joined has a line feed in it
    have hall : ∀ line ∈ lines.take (number - 1) ++ new.map (· ++ newline.dropLast) ++
        lines.drop (number - 1), '\n' ∉ line := by
      simp only [List.forall_mem_append, List.forall_mem_map]
      exact ⟨⟨hbefore, hnew⟩, fun line hline => hlines line (List.mem_of_mem_drop hline)⟩
    refine Or.inl ⟨lines.take (number - 1), wholeLines (lines.drop (number - 1)) ++ last, hbefore,
      List.length_take_of_le hprefix, ?_, ?_⟩
    · rw [← List.append_assoc, ← wholeLines_append, List.take_append_drop]
    · rw [insertLines, hsplit]
      simp only [List.length_append, List.length_singleton, hle, if_true]
      rw [List.take_append_of_le_length hprefix, List.drop_append_of_le_length hprefix,
        ← List.append_assoc, join_concat_eq_wholeLines hall hlast, wholeLines_append,
        wholeLines_append]
      simp only [List.append_assoc]
  · -- the place is behind the last line, so the new lines come after the end of that
    refine Or.inr ⟨lines, last, hlines, hlast, by omega, rfl, ?_⟩
    rw [insertLines, hsplit]
    simp only [List.length_append, List.length_singleton, hle, if_false]

/-! ### Lines without their returns -/

@[simp] theorem dropReturns_concat (t : Text) : dropReturns (t ++ ['\r']) = dropReturns t := by
  rw [dropReturns, dropReturns, trimEnd, trimEnd, List.reverse_append, List.reverse_singleton,
    List.singleton_append, List.dropWhile_cons_of_pos rfl]

@[simp] theorem dropReturns_dropReturn (t : Text) : dropReturns (dropReturn t) = dropReturns t := by
  unfold dropReturn
  split
  · next hlast =>
    obtain ⟨u, rfl⟩ := List.getLast?_eq_some_iff.mp hlast
    rw [List.dropLast_concat, dropReturns_concat]
  · rfl

theorem dropReturns_append_dropLast (t : Text) (h : newline.IsLineEnd) :
    dropReturns (t ++ newline.dropLast) = dropReturns t := by
  rcases h with rfl | rfl
  · exact congrArg dropReturns (List.append_nil t)
  · exact dropReturns_concat t

/-- What is missing at the end of the last line is no part of the line. -/
theorem dropReturn_append_missingEnd (h : newline.IsLineEnd) (last : Text) :
    dropReturn (last ++ (missingEnd newline last).dropLast) = dropReturn last := by
  unfold missingEnd
  split
  · exact congrArg dropReturn (List.append_nil last)
  · next hlast =>
    rcases h with rfl | rfl
    · exact congrArg dropReturn (List.append_nil last)
    · show dropReturn (last ++ ['\r']) = dropReturn last
      rw [dropReturn, if_pos List.getLast?_concat, List.dropLast_concat, dropReturn, if_neg hlast]

theorem missingEnd_wholeLines_append (newline last : Text) (lines : List Text) :
    missingEnd newline (wholeLines lines ++ last) = missingEnd newline last := by
  have hlast : (wholeLines lines ++ last).getLast? = some '\r' ↔ last.getLast? = some '\r' := by
    rw [List.getLast?_append]
    cases last.getLast? with
    | some c => rfl
    | none =>
      -- whole lines end with a line feed
      rcases List.eq_nil_or_concat lines with rfl | ⟨init, line, rfl⟩
      · rfl
      · rw [List.concat_eq_append, wholeLines_append, wholeLines_cons, wholeLines_nil,
          ← List.append_assoc, List.getLast?_concat]
        decide
  unfold missingEnd
  simp only [hlast]

/-! ### The lines of the text -/

theorem splitLines_wholeLines_append (rest : Text) (h : ∀ line ∈ lines, '\n' ∉ line)
    (hne : lines ≠ []) :
    splitLines (wholeLines lines ++ rest) = lines.map dropReturn ++ restLines rest := by
  rw [splitLines_of_restLines_ne_nil, restLines_wholeLines_append rest h]
  rw [restLines_wholeLines_append rest h]
  simp [hne]

/-- A text of as many lines as it has pieces between line feeds has a last line. -/
theorem splitLines_of_length_le (h : (content.splitOn '\n').length ≤ (splitLines content).length) :
    splitLines content = (content.splitOn '\n').map dropReturn := by
  unfold splitLines at h ⊢
  simp only at h ⊢
  split
  · next hdrop =>
    rw [if_pos hdrop, List.length_dropLast, List.length_map] at h
    rw [List.length_map] at hdrop
    omega
  · rfl

/-- A line of joined lines is one of them, but for the carriage returns at its end. -/
theorem exists_of_mem_splitOn_join (h : newline.IsLineEnd) (hne : new ≠ [])
    (hnew : ∀ line ∈ new, '\n' ∉ line) (hpiece : piece ∈ (join newline new).splitOn '\n') :
    ∃ line ∈ new, dropReturns piece = dropReturns line := by
  induction new with
  | nil => exact absurd rfl hne
  | cons line rest ih =>
    obtain ⟨hline, hrest⟩ := List.forall_mem_cons.mp hnew
    by_cases hnil : rest = []
    · rw [hnil, join_singleton, List.splitOn_eq_singleton hline, List.mem_singleton] at hpiece
      exact ⟨line, List.mem_cons_self, by rw [hpiece]⟩
    · rw [join_cons_of_ne_nil _ _ hnil, splitOn_append_newline _ hline h] at hpiece
      rcases List.mem_cons.mp hpiece with rfl | hpiece
      · exact ⟨line, List.mem_cons_self, dropReturns_append_dropLast line h⟩
      · obtain ⟨l, hl, heq⟩ := ih hnil hrest hpiece
        exact ⟨l, List.mem_cons_of_mem _ hl, heq⟩

theorem exists_of_mem_restLines (h : line ∈ restLines t) :
    ∃ piece ∈ t.splitOn '\n', line = dropReturn piece := by
  have hmem : line ∈ (t.splitOn '\n').map dropReturn := by
    unfold restLines at h
    simp only at h
    split at h
    · exact (List.dropLast_prefix _).subset h
    · exact h
  obtain ⟨piece, hpiece, heq⟩ := List.mem_map.mp hmem
  exact ⟨piece, hpiece, heq.symm⟩

/-- **The lines of a text with new lines in it:** those before them, with their numbers, the new
ones, but for the carriage returns at their ends, and those after them. Fewer lines than were put in
come only at the end of the text, where an empty one may be no line. -/
theorem exists_splitLines_insertLines (h : newline.IsLineEnd) (hne : new ≠ [])
    (hnew : ∀ line ∈ new, '\n' ∉ line) (hfirst : 1 < number)
    (hlast : number ≤ (splitLines content).length + 1) :
    ∃ head inner after, head.length + 1 = number ∧ splitLines content = head ++ after ∧
      splitLines (insertLines newline new number content) = head ++ (inner ++ after) ∧
      (∀ line ∈ inner, ∃ l ∈ new, dropReturns line = dropReturns l) ∧
      (inner.length = new.length ∨ after = []) := by
  have hpieces : ∀ line ∈ new, '\n' ∉ line ++ newline.dropLast :=
    fun line hline => h.lineFeed_not_mem_append (hnew line hline)
  rcases insertLines_cases newline hpieces number content with
    ⟨before, rest, hbefore, hlength, rfl, hinsert⟩ |
    ⟨before, last, hbefore, hlastFeed, hlength, rfl, hinsert⟩
  · -- whole lines stand before the new lines, so these are lines even if nothing follows them
    have hbeforeNe : before ≠ [] := List.ne_nil_of_length_pos (by omega)
    have hinner : ∀ line ∈ new.map (· ++ newline.dropLast), '\n' ∉ line :=
      List.forall_mem_map.mpr hpieces
    refine ⟨before.map dropReturn, (new.map (· ++ newline.dropLast)).map dropReturn, restLines rest,
      ?_, ?_, ?_, ?_, Or.inl ?_⟩
    · rw [List.length_map]
      omega
    · exact splitLines_wholeLines_append rest hbefore hbeforeNe
    · rw [hinsert, splitLines_wholeLines_append _ hbefore hbeforeNe,
        restLines_wholeLines_append _ hinner]
    · rw [List.map_map, List.forall_mem_map]
      refine fun l hl => ⟨l, hl, ?_⟩
      rw [Function.comp_apply, dropReturns_dropReturn, dropReturns_append_dropLast l h]
    · rw [List.length_map, List.length_map]
  · -- the last line of the text is the one before the new lines
    have hsplit : (wholeLines before ++ last).splitOn '\n' = before ++ [last] := by
      rw [splitOn_wholeLines_append _ hbefore, List.splitOn_eq_singleton hlastFeed]
    have hlines : splitLines (wholeLines before ++ last) = (before ++ [last]).map dropReturn := by
      rw [splitLines_of_length_le, hsplit]
      rw [hsplit, List.length_append, List.length_singleton]
      omega
    rw [hlines, List.length_map, List.length_append, List.length_singleton] at hlast
    let closed := last ++ (missingEnd newline last).dropLast
    have hmissing := isLineEnd_missingEnd h last
    have hclosed : ∀ line ∈ before ++ [closed], '\n' ∉ line :=
      List.forall_mem_append.mpr ⟨hbefore,
        List.forall_mem_singleton.mpr (hmissing.lineFeed_not_mem_append hlastFeed)⟩
    have htext : insertLines newline new number (wholeLines before ++ last) =
        wholeLines (before ++ [closed]) ++ join newline new := by
      rw [hinsert, missingEnd_wholeLines_append, wholeLines_append, wholeLines_cons,
        wholeLines_nil]
      conv => lhs; rw [← hmissing.dropLast_append]
      simp only [closed, List.append_assoc]
    refine ⟨(before ++ [last]).map dropReturn, restLines (join newline new), [], ?_, ?_, ?_, ?_,
      Or.inr rfl⟩
    · rw [List.length_map, List.length_append, List.length_singleton]
      omega
    · rw [hlines, List.append_nil]
    · rw [htext, splitLines_wholeLines_append _ hclosed (by simp), List.append_nil,
        List.map_append, List.map_append, List.map_singleton, List.map_singleton,
        dropReturn_append_missingEnd h]
    · intro line hline
      obtain ⟨piece, hpiece, rfl⟩ := exists_of_mem_restLines hline
      rw [dropReturns_dropReturn]
      exact exists_of_mem_splitOn_join h hne hnew hpiece

end Text

end SectionIndex
