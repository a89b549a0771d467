import SectionIndex.Proofs.Text.FileLines

/-!
# The number of lines of a file

A text is lines, each with a line feed after it, and what stands after the last of them. So lines
are counted by counting line feeds. What is put into the middle of a file adds as many lines as it
has line feeds, as long as something of its last line is left that is no line end.

## Main definitions

* `Text.wholeLines` — lines with a line feed after each of them.
* `Text.EndsInside` — a text that does not end with a line end.

## Main statements

* `Text.exists_wholeLines` — every text is lines and a last one.
* `Text.exists_restLines_around` — the lines of a file in which a text stands.
* `Text.splitLines_join`, `Text.count_join` — the lines and the line feeds of joined lines.
-/

namespace SectionIndex

namespace Text

variable {line last rest t newline : Text} {lines : List Text}

/-! ### Whole lines -/

/-- **Lines with a line feed after each of them.** -/
def wholeLines (lines : List Text) : Text :=
  lines.flatMap (· ++ ['\n'])

@[simp] theorem wholeLines_nil : wholeLines [] = [] := rfl

@[simp] theorem wholeLines_cons (line : Text) (lines : List Text) :
    wholeLines (line :: lines) = line ++ '\n' :: wholeLines lines := by
  simp [wholeLines]

theorem wholeLines_append (lines others : List Text) :
    wholeLines (lines ++ others) = wholeLines lines ++ wholeLines others :=
  List.flatMap_append

/-- **Every text is lines and a last one**, which has no line feed after it. -/
theorem exists_wholeLines (t : Text) :
    ∃ lines last, (∀ line ∈ lines, '\n' ∉ line) ∧ '\n' ∉ last ∧ t = wholeLines lines ++ last := by
  induction t with
  | nil => exact ⟨[], [], List.forall_mem_nil _, List.not_mem_nil, rfl⟩
  | cons c t ih =>
    obtain ⟨lines, last, hlines, hlast, rfl⟩ := ih
    by_cases hc : c = '\n'
    · -- a line feed ends a line with nothing in it
      refine ⟨[] :: lines, last, ?_, hlast, ?_⟩
      · exact List.forall_mem_cons.mpr ⟨List.not_mem_nil, hlines⟩
      · rw [wholeLines_cons, hc]
        rfl
    · -- any other character goes into the first line
      cases lines with
      | nil =>
        refine ⟨[], c :: last, hlines, ?_, rfl⟩
        rw [List.mem_cons, not_or]
        exact ⟨Ne.symm hc, hlast⟩
      | cons line lines =>
        obtain ⟨hline, hlines⟩ := List.forall_mem_cons.mp hlines
        refine ⟨(c :: line) :: lines, last, List.forall_mem_cons.mpr ⟨?_, hlines⟩, hlast, ?_⟩
        · rw [List.mem_cons, not_or]
          exact ⟨Ne.symm hc, hline⟩
        · rw [wholeLines_cons, wholeLines_cons]
          rfl

theorem splitOn_wholeLines_append (rest : Text) (h : ∀ line ∈ lines, '\n' ∉ line) :
    (wholeLines lines ++ rest).splitOn '\n' = lines ++ rest.splitOn '\n' := by
  induction lines with
  | nil => rfl
  | cons line lines ih =>
    obtain ⟨hline, hlines⟩ := List.forall_mem_cons.mp h
    rw [wholeLines_cons, List.append_assoc, List.cons_append,
      List.splitOn_append_cons_self_of_not_mem hline, ih hlines, List.cons_append]

theorem count_wholeLines (h : ∀ line ∈ lines, '\n' ∉ line) :
    (wholeLines lines).count '\n' = lines.length := by
  induction lines with
  | nil => rfl
  | cons line lines ih =>
    obtain ⟨hline, hlines⟩ := List.forall_mem_cons.mp h
    rw [wholeLines_cons, List.count_append, List.count_eq_zero_of_not_mem hline,
      List.count_cons_self, ih hlines, List.length_cons, Nat.zero_add]

/-! ### Counting lines -/

theorem restLines_wholeLines_append (rest : Text) (h : ∀ line ∈ lines, '\n' ∉ line) :
    restLines (wholeLines lines ++ rest) = lines.map dropReturn ++ restLines rest := by
  induction lines with
  | nil => rfl
  | cons line lines ih =>
    obtain ⟨hline, hlines⟩ := List.forall_mem_cons.mp h
    rw [wholeLines_cons, List.append_assoc, List.cons_append, restLines_append _ hline, ih hlines,
      List.map_cons, List.cons_append]

theorem length_restLines_wholeLines_append (rest : Text) (h : ∀ line ∈ lines, '\n' ∉ line) :
    (restLines (wholeLines lines ++ rest)).length = lines.length + (restLines rest).length := by
  rw [restLines_wholeLines_append rest h, List.length_append, List.length_map]

theorem length_restLines_append_newline (rest : Text) (h : newline.IsLineEnd)
    (hline : '\n' ∉ line) :
    (restLines (line ++ newline ++ rest)).length = (restLines rest).length + 1 := by
  rw [restLines_append_end rest h hline, List.length_cons]

/-- **The text does not end with a line end**, and it is not empty. -/
def EndsInside (t : Text) : Prop :=
  ∃ c, t.getLast? = some c ∧ c ≠ '\n' ∧ c ≠ '\r'

theorem EndsInside.append (s : Text) (h : EndsInside t) : EndsInside (s ++ t) := by
  obtain ⟨c, hc, hends⟩ := h
  exact ⟨c, by rw [List.getLast?_append, hc]; rfl, hends⟩

/-- What stands after the last line feed of such a text is more than a line end. -/
theorem EndsInside.of_append (h : EndsInside (wholeLines lines ++ last)) : EndsInside last := by
  obtain ⟨c, hc, hends⟩ := h
  refine ⟨c, ?_, hends⟩
  rw [List.getLast?_append] at hc
  cases hlast : last.getLast? with
  | some d => rwa [hlast] at hc
  | none =>
    -- else the text would end with a line feed
    rw [hlast, Option.none_or] at hc
    rcases List.eq_nil_or_concat lines with rfl | ⟨init, line, rfl⟩
    · rw [wholeLines_nil, List.getLast?_nil] at hc
      cases hc
    · rw [List.concat_eq_append, wholeLines_append, wholeLines_cons, wholeLines_nil,
        ← List.append_assoc, List.getLast?_concat] at hc
      exact absurd (Option.some.inj hc).symm hends.1

/-- Only the carriage return that is put after such a text is taken off. -/
theorem EndsInside.dropReturn_append {tail : Text} (h : EndsInside t)
    (htail : tail = [] ∨ tail = ['\r']) : dropReturn (t ++ tail) = t := by
  rcases htail with rfl | rfl
  · obtain ⟨c, hc, -, hreturn⟩ := h
    rw [List.append_nil, dropReturn, if_neg]
    rw [hc, Option.some.injEq]
    exact hreturn
  · rw [dropReturn, if_pos List.getLast?_concat, List.dropLast_concat]

/-- A last line that such a text starts is one line more. -/
theorem EndsInside.length_restLines (h : EndsInside line) (hline : '\n' ∉ line)
    (hrest : '\n' ∉ rest) : (restLines (line ++ rest)).length = 1 := by
  obtain ⟨c, hc, -, hreturn⟩ := h
  obtain ⟨init, rfl⟩ := List.getLast?_eq_some_iff.mp hc
  have hfeed : '\n' ∉ (init ++ [c]) ++ rest := by
    rw [List.mem_append, not_or]
    exact ⟨hline, hrest⟩
  -- only one character is dropped, and not the last one of the text
  have hkept : dropReturn (init ++ [c] ++ rest) ≠ [] := by
    unfold dropReturn
    split
    · next hlast =>
      intro hnil
      cases rest with
      | nil =>
        rw [List.append_nil, List.getLast?_concat] at hlast
        exact hreturn (Option.some.inj hlast)
      | cons d rest =>
        have hlength := congrArg List.length hnil
        simp only [List.length_dropLast, List.length_append, List.length_cons, List.length_nil]
          at hlength
        omega
    · simp
  unfold restLines
  rw [List.splitOn_eq_singleton hfeed, List.map_singleton]
  simp only [List.getLast?_singleton, Option.some.injEq, hkept, if_false, List.length_singleton]

/-- A line that does not end with a line end is the only one of its text. -/
theorem EndsInside.restLines_of_not_mem (h : EndsInside line) (hline : '\n' ∉ line) :
    restLines line = [line] := by
  have hne : line ≠ [] := by
    obtain ⟨c, hc, -⟩ := h
    rintro rfl
    cases hc
  have hdrop : dropReturn line = line := by
    have hnil := h.dropReturn_append (Or.inl rfl)
    rwa [List.append_nil] at hnil
  unfold restLines
  rw [List.splitOn_eq_singleton hline, List.map_singleton, hdrop]
  simp only [List.getLast?_singleton, Option.some.injEq, hne, if_false]

/-- **The lines of a text that does not end with a line end**, and those of a text after it. -/
theorem EndsInside.exists_splitLines (h : EndsInside t) :
    (splitLines t).length = t.count '\n' + 1 ∧ ∀ newline rest, newline.IsLineEnd →
      restLines (t ++ newline ++ rest) = splitLines t ++ restLines rest := by
  obtain ⟨lines, last, hlines, hlast, rfl⟩ := exists_wholeLines t
  have hends : EndsInside last := h.of_append
  -- the last piece ends inside of a line, so it is a line of its own
  have hsingle : restLines last = [last] := hends.restLines_of_not_mem hlast
  have hsplit : splitLines (wholeLines lines ++ last) = lines.map dropReturn ++ [last] := by
    rw [splitLines_of_restLines_ne_nil, restLines_wholeLines_append _ hlines, hsingle]
    rw [restLines_wholeLines_append _ hlines, hsingle]
    simp
  constructor
  · rw [hsplit, List.count_append, count_wholeLines hlines, List.count_eq_zero_of_not_mem hlast,
      List.length_append, List.length_map, List.length_singleton]
  · intro newline rest hnewline
    have htext : wholeLines lines ++ last ++ newline ++ rest =
        wholeLines lines ++ (last ++ newline ++ rest) := by
      simp only [List.append_assoc]
    have htail : newline.dropLast = [] ∨ newline.dropLast = ['\r'] := by
      rcases hnewline with rfl | rfl
      · exact Or.inl rfl
      · exact Or.inr rfl
    rw [htext, restLines_wholeLines_append _ hlines, restLines_append_end rest hnewline hlast,
      hends.dropReturn_append htail, hsplit, List.append_assoc, List.singleton_append]

/-- A last line that such a text starts, and what follows it up to a line feed. -/
theorem exists_restLines_append_cons (rest : Text) :
    ∃ after, ∀ line, EndsInside line → '\n' ∉ line →
      ∃ first, restLines (line ++ rest) = first :: after := by
  by_cases hrest : '\n' ∈ rest
  · obtain ⟨q, rest, rfl, hq⟩ := List.eq_append_cons_of_mem hrest
    refine ⟨restLines rest, fun line _ hline => ⟨dropReturn (line ++ q), ?_⟩⟩
    rw [← List.append_assoc, restLines_append]
    rw [List.mem_append, not_or]
    exact ⟨hline, hq⟩
  · refine ⟨[], fun line hends hline => ?_⟩
    exact List.length_eq_one_iff.mp (hends.length_restLines hline hrest)

/-- The lines of a text and what follows it: as many as the text has, and others that do not depend
on the text. -/
theorem exists_restLines_append (rest : Text) :
    ∃ after, ∀ t, EndsInside t → ∃ inner, inner.length = t.count '\n' + 1 ∧
      restLines (t ++ rest) = inner ++ after := by
  obtain ⟨after, hafter⟩ := exists_restLines_append_cons rest
  refine ⟨after, fun t ht => ?_⟩
  obtain ⟨lines, last, hlines, hlast, rfl⟩ := exists_wholeLines t
  obtain ⟨first, hfirst⟩ := hafter last ht.of_append hlast
  refine ⟨lines.map dropReturn ++ [first], ?_, ?_⟩
  · rw [List.count_append, count_wholeLines hlines, List.count_eq_zero_of_not_mem hlast,
      List.length_append, List.length_map, List.length_singleton, Nat.add_zero]
  · rw [List.append_assoc, restLines_wholeLines_append _ hlines, hfirst, List.append_assoc,
      List.singleton_append]

/-- The lines of a text that does not end with a line end are not taken for those of a file without
any text. -/
theorem EndsInside.splitLines_eq (h : EndsInside t) : splitLines t = restLines t := by
  obtain ⟨after, hlines⟩ := exists_restLines_append []
  obtain ⟨inner, hlength, hrest⟩ := hlines t h
  rw [List.append_nil] at hrest
  refine splitLines_of_restLines_ne_nil ?_
  rw [hrest, ← List.length_pos_iff, List.length_append]
  omega

/-- **The lines of a file in which a text stands:** those of the text, and others before and after
them that do not depend on it. -/
theorem exists_restLines_around (before rest : Text) :
    ∃ head after, head.length = before.count '\n' ∧ ∀ t, EndsInside t →
      ∃ inner, inner.length = t.count '\n' + 1 ∧
        restLines (before ++ t ++ rest) = head ++ (inner ++ after) := by
  obtain ⟨lines, start, hlines, hstart, rfl⟩ := exists_wholeLines before
  obtain ⟨after, hafter⟩ := exists_restLines_append rest
  refine ⟨lines.map dropReturn, after, ?_, fun t ht => ?_⟩
  · rw [List.count_append, count_wholeLines hlines, List.count_eq_zero_of_not_mem hstart,
      List.length_map, Nat.add_zero]
  · obtain ⟨inner, hlength, hinner⟩ := hafter (start ++ t) (ht.append start)
    rw [List.count_append, List.count_eq_zero_of_not_mem hstart, Nat.zero_add] at hlength
    refine ⟨inner, hlength, ?_⟩
    rw [List.append_assoc, List.append_assoc, restLines_wholeLines_append _ hlines,
      ← List.append_assoc, hinner]

/-- **The number of lines of a text and what follows it** is the number of line feeds of the text
and a number that does not depend on the text. -/
theorem exists_length_splitLines (rest : Text) :
    ∃ k, ∀ t, EndsInside t → (splitLines (t ++ rest)).length = t.count '\n' + k := by
  obtain ⟨after, hlines⟩ := exists_restLines_append rest
  refine ⟨after.length + 1, fun t ht => ?_⟩
  obtain ⟨inner, hlength, hrest⟩ := hlines t ht
  have hne : restLines (t ++ rest) ≠ [] := by
    rw [hrest, ne_eq, List.append_eq_nil_iff, ← List.length_eq_zero_iff, hlength]
    exact fun h => Nat.succ_ne_zero _ h.1
  rw [splitLines_of_restLines_ne_nil hne, hrest, List.length_append, hlength]
  omega

/-! ### Joined lines -/

theorem endsInside_join (hne : lines ≠ []) (hlines : ∀ line ∈ lines, EndsInside line) :
    EndsInside (join newline lines) := by
  obtain ⟨init, last, rfl⟩ := (List.eq_nil_or_concat lines).resolve_left hne
  rw [List.concat_eq_append] at hlines ⊢
  have hlast : EndsInside last := hlines last (List.mem_append_right _ List.mem_cons_self)
  by_cases hinit : init = []
  · rwa [hinit, List.nil_append, join_singleton]
  · rw [join_append _ hinit (List.cons_ne_nil _ _), join_singleton]
    exact hlast.append _

/-- **The numbered lines of joined lines** are these lines, if none of them ends with a line end. -/
theorem splitLines_join (h : newline.IsLineEnd) (hne : lines ≠ [])
    (hlines : ∀ line ∈ lines, EndsInside line ∧ '\n' ∉ line) :
    splitLines (join newline lines) = lines := by
  have hends : ∀ line ∈ lines, EndsInside line := fun line hline => (hlines line hline).1
  rw [(endsInside_join hne hends).splitLines_eq]
  clear hends
  induction lines with
  | nil => exact absurd rfl hne
  | cons line lines ih =>
    obtain ⟨⟨hends, hline⟩, hlines⟩ := List.forall_mem_cons.mp hlines
    have hsingle : restLines line = [line] := hends.restLines_of_not_mem hline
    by_cases hnil : lines = []
    · rw [hnil, join_singleton, hsingle]
    · -- the line end after the first line ends it, whatever follows
      obtain ⟨-, hsplit⟩ := hends.exists_splitLines
      rw [join_cons_of_ne_nil _ _ hnil, hsplit newline _ h, hends.splitLines_eq, hsingle,
        ih hnil hlines, List.singleton_append]

/-- **The line feeds of joined lines** are those between them. -/
theorem count_join (h : newline.IsLineEnd) (hne : lines ≠ [])
    (hlines : ∀ line ∈ lines, '\n' ∉ line) :
    (join newline lines).count '\n' + 1 = lines.length := by
  have hnewline : newline.count '\n' = 1 := by rcases h with rfl | rfl <;> rfl
  induction lines with
  | nil => exact absurd rfl hne
  | cons line lines ih =>
    obtain ⟨hline, hlines⟩ := List.forall_mem_cons.mp hlines
    have hzero : line.count '\n' = 0 := List.count_eq_zero_of_not_mem hline
    by_cases hnil : lines = []
    · rw [hnil, join_singleton, hzero]
      rfl
    · rw [join_cons_of_ne_nil _ _ hnil, List.count_append, List.count_append, hzero, hnewline,
        List.length_cons, ← ih hnil hlines]
      omega

end Text

end SectionIndex
