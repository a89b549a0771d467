import SectionIndex.Proofs.Text.LineCount

/-!
# Texts with carriage returns

A file can end its lines with a carriage return and a line feed instead of a line feed alone. The
two texts have the same lines, and whatever is read of one by the characters that are no line ends
is read of the other.

## Main definitions

* `Text.withReturns` — the text with a carriage return before each line feed.
* `Text.returnsBetween` — what that makes of the lines of a text.

## Main statements

* `Text.splitOn_withReturns` — the text is cut at the same line feeds.
* `Text.splitLines_withReturns`, `Text.breakLines_withReturns` — its lines are the same.
-/

namespace SectionIndex

namespace Text

/-- **The text with a carriage return before each line feed.** -/
def withReturns : Text → Text
  | [] => []
  | c :: t => if c = '\n' then '\r' :: '\n' :: withReturns t else c :: withReturns t

/-- The lines with a carriage return at the end of each, the last line apart. -/
def returnsBetween : List Text → List Text
  | [] => []
  | [line] => [line]
  | line :: next :: lines => (line ++ ['\r']) :: returnsBetween (next :: lines)

@[simp] theorem withReturns_nil : withReturns [] = [] := rfl

@[simp] theorem withReturns_lineFeed (t : Text) :
    withReturns ('\n' :: t) = '\r' :: '\n' :: withReturns t := rfl

theorem withReturns_cons {c : Char} (t : Text) (h : c ≠ '\n') :
    withReturns (c :: t) = c :: withReturns t :=
  if_neg h

@[simp] theorem withReturns_append (s t : Text) :
    withReturns (s ++ t) = withReturns s ++ withReturns t := by
  induction s with
  | nil => rfl
  | cons c s ih =>
    by_cases hc : c = '\n'
    · subst hc
      rw [List.cons_append, withReturns_lineFeed, ih]
      rfl
    · rw [List.cons_append, withReturns_cons _ hc, withReturns_cons _ hc, ih]
      rfl

theorem withReturns_of_not_mem {t : Text} (h : '\n' ∉ t) : withReturns t = t := by
  induction t with
  | nil => rfl
  | cons c t ih =>
    obtain ⟨hc, ht⟩ := not_or.mp (mt List.mem_cons.mpr h)
    rw [withReturns_cons _ (Ne.symm hc), ih ht]

/-- A text that does not start with a carriage return was there before. -/
theorem exists_of_withReturns_eq_cons {c : Char} {t u : Text} (h : withReturns t = c :: u)
    (hc : c ≠ '\r') : ∃ s, t = c :: s ∧ u = withReturns s := by
  cases t with
  | nil => cases h
  | cons d t =>
    by_cases hd : d = '\n'
    · subst hd
      exact absurd (List.cons.inj h).1.symm hc
    · rw [withReturns_cons _ hd] at h
      obtain ⟨rfl, rfl⟩ := List.cons.inj h
      exact ⟨t, rfl, rfl⟩

@[simp] theorem withReturns_eq_nil_iff {t : Text} : withReturns t = [] ↔ t = [] := by
  cases t with
  | nil => simp
  | cons c t =>
    unfold withReturns
    split <;> simp

theorem lineFeed_mem_withReturns_iff {t : Text} : '\n' ∈ withReturns t ↔ '\n' ∈ t := by
  induction t with
  | nil => rfl
  | cons c t ih =>
    by_cases hc : c = '\n'
    · subst hc
      simp
    · rw [withReturns_cons _ hc, List.mem_cons, List.mem_cons, ih]

/-- **There are as many line feeds.** -/
@[simp] theorem count_withReturns (t : Text) : (withReturns t).count '\n' = t.count '\n' := by
  induction t with
  | nil => rfl
  | cons c t ih =>
    by_cases hc : c = '\n'
    · subst hc
      rw [withReturns_lineFeed, List.count_cons_of_ne (by decide), List.count_cons_self,
        List.count_cons_self, ih]
    · rw [withReturns_cons _ hc, List.count_cons_of_ne hc, List.count_cons_of_ne hc, ih]

/-! ### Characters that are no line ends -/

section Runs

variable {p : Char → Bool} (t : Text)

/-- A run of characters with line ends among them is the same run with carriage returns. -/
theorem takeWhile_withReturns_of_pos (hreturn : p '\r' = true) (hfeed : p '\n' = true) :
    (withReturns t).takeWhile p = withReturns (t.takeWhile p) := by
  induction t with
  | nil => rfl
  | cons c t ih =>
    -- before each line feed comes a return, and both are taken
    by_cases hc : c = '\n'
    · subst hc
      rw [withReturns_lineFeed, List.takeWhile_cons_of_pos hreturn,
        List.takeWhile_cons_of_pos hfeed, List.takeWhile_cons_of_pos hfeed, ih]
      rfl
    · rw [withReturns_cons _ hc]
      by_cases hp : p c = true
      · rw [List.takeWhile_cons_of_pos hp, List.takeWhile_cons_of_pos hp, withReturns_cons _ hc, ih]
      · rw [List.takeWhile_cons_of_neg hp, List.takeWhile_cons_of_neg hp]
        rfl

theorem dropWhile_withReturns_of_pos (hreturn : p '\r' = true) (hfeed : p '\n' = true) :
    (withReturns t).dropWhile p = withReturns (t.dropWhile p) := by
  have htake := takeWhile_withReturns_of_pos t hreturn hfeed
  have hwhole : withReturns t = withReturns (t.takeWhile p) ++ withReturns (t.dropWhile p) := by
    rw [← withReturns_append, List.takeWhile_append_dropWhile]
  have hparts := List.takeWhile_append_dropWhile (p := p) (l := withReturns t)
  rw [htake] at hparts
  exact List.append_cancel_left (hparts.trans hwhole)

/-- A run of characters that ends before a line end is the same. -/
theorem takeWhile_withReturns_of_neg (hreturn : p '\r' = false) (hfeed : p '\n' = false) :
    (withReturns t).takeWhile p = t.takeWhile p := by
  induction t with
  | nil => rfl
  | cons c t ih =>
    by_cases hc : c = '\n'
    · subst hc
      rw [withReturns_lineFeed, List.takeWhile_cons_of_neg (by rw [hreturn]; decide),
        List.takeWhile_cons_of_neg (by rw [hfeed]; decide)]
    · rw [withReturns_cons _ hc]
      by_cases hp : p c = true
      · rw [List.takeWhile_cons_of_pos hp, List.takeWhile_cons_of_pos hp, ih]
      · rw [List.takeWhile_cons_of_neg hp, List.takeWhile_cons_of_neg hp]

end Runs

/-- The line before the first line end has a carriage return then. -/
theorem takeWhile_withReturns_of_mem {t : Text} (h : '\n' ∈ t) :
    (withReturns t).takeWhile (· != '\n') = t.takeWhile (· != '\n') ++ ['\r'] := by
  obtain ⟨line, rest, rfl, hline⟩ := List.eq_append_cons_of_mem h
  have hrun : ∀ c ∈ line, (c != '\n') = true := fun c hc =>
    bne_iff_ne.mpr fun heq => hline (heq ▸ hc)
  have hold : (line ++ '\n' :: rest).takeWhile (· != '\n') = line := by
    rw [List.takeWhile_append_of_pos hrun, List.takeWhile_cons_of_neg (by decide), List.append_nil]
  rw [hold, withReturns_append, withReturns_of_not_mem hline, withReturns_lineFeed,
    List.takeWhile_append_of_pos hrun, List.takeWhile_cons_of_pos (by decide),
    List.takeWhile_cons_of_neg (by decide)]

/-- A word without line ends starts the one text if and only if it starts the other. -/
theorem isPrefix_withReturns_iff {word t : Text} (hreturn : '\r' ∉ word) (hfeed : '\n' ∉ word) :
    word <+: withReturns t ↔ word <+: t := by
  constructor
  · intro h
    -- by induction on the word: a character that is no return was there before
    induction word generalizing t with
    | nil => exact List.nil_prefix
    | cons c word ih =>
      obtain ⟨rest, hrest⟩ := h
      obtain ⟨hc, hword⟩ := not_or.mp (mt List.mem_cons.mpr hreturn)
      obtain ⟨s, rfl, hs⟩ := exists_of_withReturns_eq_cons hrest.symm (Ne.symm hc)
      rw [List.cons_prefix_cons]
      exact ⟨rfl, ih hword (fun h => hfeed (List.mem_cons_of_mem _ h)) ⟨rest, hs⟩⟩
  · rintro ⟨rest, rfl⟩
    rw [withReturns_append, withReturns_of_not_mem hfeed]
    exact List.prefix_append word _

theorem drop_withReturns {word t : Text} (hfeed : '\n' ∉ word) (h : word <+: t) :
    (withReturns t).drop word.length = withReturns (t.drop word.length) := by
  obtain ⟨rest, rfl⟩ := h
  rw [withReturns_append, withReturns_of_not_mem hfeed, List.drop_left, List.drop_left]

/-! ### Lines -/

theorem returnsBetween_cons (line : Text) {lines : List Text} (h : lines ≠ []) :
    returnsBetween (line :: lines) = (line ++ ['\r']) :: returnsBetween lines := by
  obtain ⟨next, lines, rfl⟩ := List.exists_cons_of_ne_nil h
  rfl

theorem returnsBetween_ne_nil {lines : List Text} (h : lines ≠ []) : returnsBetween lines ≠ [] := by
  obtain ⟨line, lines, rfl⟩ := List.exists_cons_of_ne_nil h
  cases lines <;> exact List.cons_ne_nil _ _

theorem withReturns_wholeLines_append {lines : List Text} (last : Text)
    (h : ∀ line ∈ lines, '\n' ∉ line) :
    withReturns (wholeLines lines ++ last) =
      wholeLines (lines.map (· ++ ['\r'])) ++ withReturns last := by
  induction lines with
  | nil => rfl
  | cons line lines ih =>
    obtain ⟨hline, hlines⟩ := List.forall_mem_cons.mp h
    rw [wholeLines_cons, List.append_assoc, List.cons_append, withReturns_append,
      withReturns_lineFeed, withReturns_of_not_mem hline, ih hlines, List.map_cons, wholeLines_cons]
    simp only [List.append_assoc, List.cons_append, List.nil_append]

theorem returnsBetween_concat (lines : List Text) (last : Text) :
    returnsBetween (lines ++ [last]) = lines.map (· ++ ['\r']) ++ [last] := by
  induction lines with
  | nil => rfl
  | cons line lines ih =>
    rw [List.cons_append, returnsBetween_cons _ (List.append_ne_nil_of_right_ne_nil _
      (List.cons_ne_nil _ _)), ih, List.map_cons, List.cons_append]

/-- **The text is cut at the same line feeds.** -/
theorem splitOn_withReturns (t : Text) :
    (withReturns t).splitOn '\n' = returnsBetween (t.splitOn '\n') := by
  obtain ⟨lines, last, hlines, hlast, rfl⟩ := exists_wholeLines t
  have hreturns : ∀ line ∈ lines.map (· ++ ['\r']), '\n' ∉ line := by
    intro line hline
    obtain ⟨line, hmem, rfl⟩ := List.mem_map.mp hline
    rw [List.mem_append, not_or]
    exact ⟨hlines line hmem, by decide⟩
  rw [withReturns_wholeLines_append last hlines, withReturns_of_not_mem hlast,
    splitOn_wholeLines_append last hreturns, splitOn_wholeLines_append last hlines,
    List.splitOn_eq_singleton hlast, returnsBetween_concat]

/-- **Joined lines** with carriage returns. -/
theorem withReturns_join {lines : List Text} (h : ∀ line ∈ lines, '\n' ∉ line) :
    withReturns (join ['\n'] lines) = join ['\r', '\n'] lines := by
  induction lines with
  | nil => rfl
  | cons line lines ih =>
    obtain ⟨hline, hlines⟩ := List.forall_mem_cons.mp h
    by_cases hne : lines = []
    · rw [hne, join_singleton, join_singleton, withReturns_of_not_mem hline]
    · rw [join_cons_of_ne_nil _ _ hne, join_cons_of_ne_nil _ _ hne, withReturns_append,
        withReturns_append, withReturns_of_not_mem hline, ih hlines]
      rfl

theorem withReturns_join_lineFeed {lines : List Text} (h : ∀ line ∈ lines, '\n' ∉ line) :
    withReturns (join ['\n'] lines) = join ['\n'] (returnsBetween lines) := by
  induction lines with
  | nil => rfl
  | cons line lines ih =>
    obtain ⟨hline, hlines⟩ := List.forall_mem_cons.mp h
    by_cases hne : lines = []
    · rw [hne, join_singleton]
      exact (withReturns_of_not_mem hline).trans (join_singleton _ _).symm
    · rw [returnsBetween_cons _ hne, join_cons_of_ne_nil _ _ hne,
        join_cons_of_ne_nil _ _ (returnsBetween_ne_nil hne), withReturns_append, withReturns_append,
        withReturns_of_not_mem hline, ih hlines]
      simp only [List.append_assoc, withReturns_lineFeed, withReturns_nil, List.cons_append,
        List.nil_append]

theorem dropReturn_of_not_mem {line : Text} (h : '\r' ∉ line) : dropReturn line = line :=
  if_neg fun hlast => h (List.mem_of_getLast? hlast)

theorem map_dropReturn_returnsBetween {lines : List Text} (h : ∀ line ∈ lines, '\r' ∉ line) :
    (returnsBetween lines).map dropReturn = lines := by
  induction lines with
  | nil => rfl
  | cons line lines ih =>
    obtain ⟨hline, hlines⟩ := List.forall_mem_cons.mp h
    by_cases hne : lines = []
    · rw [hne]
      exact congrArg (· :: []) (dropReturn_of_not_mem hline)
    · have hdrop : dropReturn (line ++ ['\r']) = line := by
        rw [dropReturn, if_pos List.getLast?_concat, List.dropLast_concat]
      rw [returnsBetween_cons _ hne, List.map_cons, ih hlines, hdrop]

theorem return_not_mem_of_mem_splitOn {t line : Text} (h : '\r' ∉ t)
    (hline : line ∈ t.splitOn '\n') : '\r' ∉ line :=
  fun hmem => h ((of_mem_splitOn hline).2 hmem)

/-- **The numbered lines of a file** with carriage returns are those of the file without. -/
theorem splitLines_withReturns {t : Text} (h : '\r' ∉ t) :
    splitLines (withReturns t) = splitLines t := by
  have hlines : ∀ line ∈ t.splitOn '\n', '\r' ∉ line :=
    fun line => return_not_mem_of_mem_splitOn h
  have hplain : (t.splitOn '\n').map dropReturn = t.splitOn '\n' :=
    (List.map_congr_left fun line hline => dropReturn_of_not_mem (hlines line hline)).trans
      (List.map_id' _)
  unfold splitLines
  rw [splitOn_withReturns, map_dropReturn_returnsBetween hlines, hplain]

/-- There are as many lines, even with other carriage returns in the text. -/
theorem length_splitLines_withReturns (t : Text) :
    (splitLines (withReturns t)).length = (splitLines t).length := by
  obtain ⟨lines, last, hlines⟩ : ∃ lines last, t.splitOn '\n' = lines ++ [last] :=
    ⟨_, _, (List.dropLast_concat_getLast (List.splitOnP_ne_nil _ t)).symm⟩
  -- the last line decides whether it counts, and it stays as it is
  unfold splitLines
  rw [splitOn_withReturns, hlines, returnsBetween_concat]
  simp only [List.map_append, List.map_cons, List.map_nil, List.getLast?_concat, List.length_append,
    List.length_map, List.dropLast_concat]
  split <;> simp

theorem breakLinesFrom_withReturns {t : Text} (line : Text) (h : '\r' ∉ t) :
    breakLinesFrom line (withReturns t) = breakLinesFrom line t := by
  induction t generalizing line with
  | nil => rfl
  | cons c t ih =>
    obtain ⟨hc, ht⟩ := not_or.mp (mt List.mem_cons.mpr h)
    -- a return and its line feed end the line that the line feed ended
    by_cases hfeed : c = '\n'
    · subst hfeed
      have hreturn := breakLinesFrom_newline line (withReturns t) (Or.inr rfl)
      have hold := breakLinesFrom_newline line t (Or.inl rfl)
      rw [ih [] ht] at hreturn
      exact hreturn.trans hold.symm
    · have hplain : ∀ u : Text, ¬ (c = '\r' ∧ u.head? = some '\n') := fun u hu => hc hu.1.symm
      rw [withReturns_cons _ hfeed, breakLinesFrom, breakLinesFrom, if_neg (hplain _),
        if_neg (hplain _), ih [] ht, ih (c :: line) ht]

/-- **The lines of a document** with carriage returns are those of the document without. -/
theorem breakLines_withReturns {t : Text} (h : '\r' ∉ t) :
    breakLines (withReturns t) = breakLines t :=
  breakLinesFrom_withReturns [] h

/-- A file without carriage returns uses line feeds alone. -/
theorem detectNewline_of_not_mem {t : Text} (h : '\r' ∉ t) : detectNewline t = ['\n'] := by
  refine if_neg fun hreturn => h ?_
  exact (List.takeWhile_prefix _).subset (List.mem_of_getLast? hreturn.2)

/-- **The line end of a file with carriage returns**, if it has a line end. -/
theorem detectNewline_withReturns {t : Text} (h : '\n' ∈ t) :
    detectNewline (withReturns t) = ['\r', '\n'] := by
  refine if_pos ⟨lineFeed_mem_withReturns_iff.mpr h, ?_⟩
  rw [takeWhile_withReturns_of_mem h]
  exact List.getLast?_concat

end Text

end SectionIndex
