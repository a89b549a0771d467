import SectionIndex.Proofs.Text.Lines
import SectionIndex.Proofs.Text.Trim

/-!
# Texts that are broken into pieces

A text with line ends in it falls into pieces when the document that it stands in is read. All
pieces but the first start where a line starts, and the last one goes on with what follows the text.

## Main definitions

* `Text.IsPieceOf` — a part of a text that starts where a line starts.
* `Text.firstLine`, `Text.lastLine` — the lines at the ends of a text.

## Main statements

* `Text.exists_breakLinesFrom_append` — the first piece of a text with a line end in it.
* `Text.exists_breakLines_append` — the pieces of a text and of what follows it.
* `Text.trim_append` — a text that needs no trimming keeps its place in what follows it.
-/

namespace SectionIndex

namespace Text

variable {piece t : Text}

/-- **A part of a text that starts where a line starts.** -/
def IsPieceOf (piece t : Text) : Prop :=
  ∃ before after, t = before ++ (piece ++ after) ∧ ∀ c ∈ before.getLast?, isLineBreak c = true

theorem IsPieceOf.refl (t : Text) : IsPieceOf t t :=
  ⟨[], [], by simp, fun _ h => absurd h (Option.not_mem_none _)⟩

/-- What starts a line of a part that starts a line starts a line of the whole text. -/
theorem IsPieceOf.trans {whole : Text} (h : IsPieceOf piece t) (ht : IsPieceOf t whole) :
    IsPieceOf piece whole := by
  obtain ⟨before, after, rfl, hbefore⟩ := h
  obtain ⟨start, rest, rfl, hstart⟩ := ht
  refine ⟨start ++ before, after ++ rest, by simp only [List.append_assoc], ?_⟩
  intro c hc
  rw [List.getLast?_append] at hc
  cases hlast : before.getLast? with
  | none =>
    rw [hlast, Option.none_or] at hc
    exact hstart c hc
  | some d =>
    rw [hlast] at hc
    obtain rfl := Option.some.inj hc
    exact hbefore d hlast

/-- What follows a character that ends a line. -/
theorem isPieceOf_append_cons {c : Char} (before rest : Text) (hc : isLineBreak c = true) :
    IsPieceOf rest (before ++ c :: rest) :=
  ⟨before ++ [c], [], by simp, by simpa using hc⟩

/-! ### The first and the last line of a text -/

/-- **The first line of a text**, up to the first character that ends a line. -/
def firstLine (t : Text) : Text :=
  t.takeWhile fun c => !isLineBreak c

/-- **The last line of a text**, after the last character that ends a line. -/
def lastLine (t : Text) : Text :=
  (t.reverse.takeWhile fun c => !isLineBreak c).reverse

theorem firstLine_of_isUnbroken (h : t.IsUnbroken) : firstLine t = t := by
  have hall : ∀ c ∈ t, (!isLineBreak c) = true := fun c hc => by simp [h c hc]
  have htake : (t ++ []).takeWhile (fun c => !isLineBreak c) = t ++ [] :=
    List.takeWhile_append_of_pos hall
  rwa [List.append_nil] at htake

/-- A line end behind a text does not reach into its first line. -/
theorem firstLine_append_cons {c : Char} (s rest : Text) (hc : isLineBreak c = true) :
    firstLine (s ++ c :: rest) = firstLine s := by
  have hend : (c :: rest).takeWhile (fun c => !isLineBreak c) = [] :=
    List.takeWhile_cons_of_neg (by simp [hc])
  unfold firstLine
  induction s with
  | nil => exact hend
  | cons d s ih =>
    rw [List.cons_append, List.takeWhile_cons, List.takeWhile_cons, ih]

theorem lastLine_eq (t : Text) : lastLine t = (firstLine t.reverse).reverse := rfl

theorem lastLine_of_isUnbroken (h : t.IsUnbroken) : lastLine t = t := by
  rw [lastLine_eq, firstLine_of_isUnbroken (isUnbroken_reverse.mpr h), List.reverse_reverse]

/-- What stands before a line end does not reach into the last line. -/
theorem lastLine_append_cons {c : Char} (s rest : Text) (hc : isLineBreak c = true) :
    lastLine (s ++ c :: rest) = lastLine rest := by
  have hreverse : (s ++ c :: rest).reverse = rest.reverse ++ c :: s.reverse := by simp
  rw [lastLine_eq, hreverse, firstLine_append_cons _ _ hc, lastLine_eq]

/-- A text with a line end in it goes on after its first line. -/
theorem exists_eq_firstLine_append (h : ¬ t.IsUnbroken) :
    ∃ c rest, isLineBreak c = true ∧ t = firstLine t ++ c :: rest := by
  induction t with
  | nil => exact absurd isUnbroken_nil h
  | cons c t ih =>
    by_cases hc : isLineBreak c = true
    · have hnil : firstLine (c :: t) = [] := firstLine_append_cons [] t hc
      exact ⟨c, t, hc, by rw [hnil, List.nil_append]⟩
    · rw [Bool.not_eq_true] at hc
      have hcons : firstLine (c :: t) = c :: firstLine t :=
        List.takeWhile_cons_of_pos (by simp [hc])
      obtain ⟨d, rest, hd, ht⟩ := ih fun ht => h (isUnbroken_cons.mpr ⟨hc, ht⟩)
      exact ⟨d, rest, hd, by rw [hcons, List.cons_append, ← ht]⟩

/-- A text with a line end in it has a line end before its last line. -/
theorem exists_eq_append_lastLine (h : ¬ t.IsUnbroken) :
    ∃ before c, isLineBreak c = true ∧ t = before ++ c :: lastLine t := by
  obtain ⟨c, rest, hc, ht⟩ := exists_eq_firstLine_append (mt isUnbroken_reverse.mp h)
  refine ⟨rest.reverse, c, hc, ?_⟩
  calc t = t.reverse.reverse := t.reverse_reverse.symm
    _ = (firstLine t.reverse ++ c :: rest).reverse := by rw [← ht]
    _ = rest.reverse ++ c :: lastLine t := by rw [lastLine_eq]; simp

theorem isUnbroken_firstLine (t : Text) : (firstLine t).IsUnbroken := by
  intro c hc
  simpa using List.all_eq_true.mp List.all_takeWhile c hc

theorem isUnbroken_lastLine (t : Text) : (lastLine t).IsUnbroken := by
  rw [lastLine_eq, isUnbroken_reverse]
  exact isUnbroken_firstLine _

theorem isPieceOf_lastLine (t : Text) : IsPieceOf (lastLine t) t := by
  by_cases h : t.IsUnbroken
  · rw [lastLine_of_isUnbroken h]
    exact IsPieceOf.refl t
  · obtain ⟨before, c, hc, ht⟩ := exists_eq_append_lastLine h
    have hpiece := isPieceOf_append_cons before (lastLine t) hc
    rwa [← ht] at hpiece

/-! ### Pieces of a text with other text after it -/

/-- **The first piece of a text with a line end in it** ends the line that is read, and what is left
of the text starts a line. -/
theorem exists_breakLinesFrom_append (h : ¬ t.IsUnbroken) :
    ∃ before c rest, firstLine t <+: before ∧ t = before ++ c :: rest ∧ isLineBreak c = true ∧
      ∀ line d after, d ≠ '\n' → breakLinesFrom line (t ++ d :: after) =
        (line.reverse ++ firstLine t) :: breakLines (rest ++ d :: after) := by
  induction t with
  | nil => exact absurd isUnbroken_nil h
  | cons c t ih =>
    by_cases hc : isLineBreak c = true
    · have hfirst : firstLine (c :: t) = [] := firstLine_append_cons [] t hc
      rw [hfirst]
      by_cases hreturn : c = '\r' ∧ t.head? = some '\n'
      · -- both characters are one line end
        obtain ⟨rfl, hfeed⟩ := hreturn
        obtain ⟨rest, rfl⟩ := List.head?_eq_some_iff.mp hfeed
        refine ⟨['\r'], '\n', rest, List.nil_prefix, rfl, rfl, ?_⟩
        intro line d after _
        rw [List.append_nil]
        rfl
      · -- one character alone is the line end
        refine ⟨[], c, t, List.nil_prefix, rfl, hc, ?_⟩
        intro line d after hd
        have hnot : ¬ (c = '\r' ∧ (t ++ d :: after).head? = some '\n') := by
          rintro ⟨rfl, hfeed⟩
          cases t with
          | nil => exact hd (Option.some.inj hfeed)
          | cons e t => exact hreturn ⟨rfl, hfeed⟩
        rw [List.cons_append, breakLinesFrom, if_neg hnot, if_pos hc, List.append_nil]
        rfl
    · -- any other character goes into the first line
      have hbroken : ¬ IsUnbroken t := by
        intro ht
        exact h (isUnbroken_cons.mpr ⟨by simpa using hc, ht⟩)
      have hreturn : c ≠ '\r' := by
        rintro rfl
        exact hc rfl
      have hfirst : firstLine (c :: t) = c :: firstLine t :=
        List.takeWhile_cons_of_pos (by simpa using hc)
      obtain ⟨before, e, rest, hbefore, ht, he, hbreak⟩ := ih hbroken
      refine ⟨c :: before, e, rest, ?_, by rw [List.cons_append, ← ht], he, ?_⟩
      · rw [hfirst]
        exact List.cons_prefix_cons.mpr ⟨rfl, hbefore⟩
      · intro line d after hd
        rw [List.cons_append, breakLinesFrom, if_neg fun h => hreturn h.1, if_neg hc,
          hbreak (c :: line) d after hd, hfirst, List.reverse_cons, List.append_assoc,
          List.singleton_append]

/-- **The pieces of a text and of what follows it:** the last line of the text goes on. -/
theorem exists_breakLines_append (t : Text) :
    ∃ pieces, (∀ piece ∈ pieces, IsPieceOf piece t) ∧
      ∀ d after, d ≠ '\n' → breakLines (t ++ d :: after) =
        pieces ++ breakLinesFrom (lastLine t).reverse (d :: after) := by
  -- by induction on the length: the first line is cut off, and the rest is shorter
  induction hn : t.length using Nat.strongRecOn generalizing t with
  | _ n ih =>
    by_cases ht : IsUnbroken t
    · refine ⟨[], List.forall_mem_nil _, ?_⟩
      intro d after _
      rw [breakLines, breakLinesFrom_append [] _ ht, List.append_nil, List.nil_append,
        lastLine_of_isUnbroken ht]
    · obtain ⟨before, c, rest, hfirst, hsplit, hc, hbreak⟩ := exists_breakLinesFrom_append ht
      have hlength : rest.length < n := by
        rw [← hn, hsplit, List.length_append, List.length_cons]
        omega
      obtain ⟨pieces, hpieces, hrest⟩ := ih rest.length hlength rest rfl
      have hpiece : IsPieceOf rest t := by
        rw [hsplit]
        exact isPieceOf_append_cons before rest hc
      have hlast : lastLine t = lastLine rest := by
        rw [hsplit, lastLine_append_cons before rest hc]
      refine ⟨firstLine t :: pieces, List.forall_mem_cons.mpr ⟨?_, ?_⟩, ?_⟩
      · obtain ⟨left, hleft⟩ := List.takeWhile_prefix (l := t) fun c => !isLineBreak c
        exact ⟨[], left, hleft.symm, fun _ h => absurd h (Option.not_mem_none _)⟩
      · exact fun piece hp => (hpieces piece hp).trans hpiece
      · intro d after hd
        rw [breakLines, hbreak [] d after hd, hrest d after hd, hlast]
        rfl

/-! ### Trimmed texts with other text after them -/

/-- What is dropped from the start of a text ends in it, if anything is left of the text or what
follows it is not dropped. -/
theorem dropWhile_append_of_stop {p : Char → Bool} {rest : Text}
    (h : t.dropWhile p ≠ [] ∨ ∀ c ∈ rest.head?, p c = false) :
    (t ++ rest).dropWhile p = t.dropWhile p ++ rest := by
  rw [List.dropWhile_append]
  split
  · next hempty =>
    have hnil : t.dropWhile p = [] := List.isEmpty_iff.mp hempty
    rw [hnil, List.nil_append]
    cases rest with
    | nil => rfl
    | cons c rest =>
      have hc : p c = false := h.elim (fun hne => absurd hnil hne) fun hhead => hhead c rfl
      exact List.dropWhile_cons_of_neg (by simp [hc])
  · rfl

theorem exists_eq_trimEnd_append (p : Char → Bool) (t : Text) :
    ∃ b : Text, (∀ c ∈ b, p c = true) ∧ t = trimEnd p t ++ b := by
  refine ⟨(t.reverse.takeWhile p).reverse, fun c hc => ?_, ?_⟩
  · exact List.all_eq_true.mp List.all_takeWhile c (List.mem_reverse.mp hc)
  · rw [trimEnd, ← List.reverse_append, List.takeWhile_append_dropWhile, List.reverse_reverse]

/-- What is trimmed from the end of a text does not reach into the text before it, if anything is
left of the end or the text before it is not trimmed. -/
theorem trimEnd_append {p : Char → Bool} {s t : Text}
    (h : trimEnd p t ≠ [] ∨ ∀ c ∈ s.getLast?, p c = false) :
    trimEnd p (s ++ t) = s ++ trimEnd p t := by
  have hstop : t.reverse.dropWhile p ≠ [] ∨ ∀ c ∈ s.reverse.head?, p c = false := by
    rw [List.head?_reverse]
    exact h.imp_left fun hne hnil => hne (by rw [trimEnd, hnil, List.reverse_nil])
  rw [trimEnd, List.reverse_append, dropWhile_append_of_stop hstop, List.reverse_append,
    List.reverse_reverse, trimEnd]

/-- An end that is trimmed completely changes nothing for the text before it. -/
theorem trimEnd_append_of_eq_nil {p : Char → Bool} {t : Text} (s : Text) (h : trimEnd p t = []) :
    trimEnd p (s ++ t) = trimEnd p s := by
  have hnil : t.reverse.dropWhile p = [] := List.reverse_eq_nil_iff.mp h
  rw [trimEnd, List.reverse_append, List.dropWhile_append, hnil]
  rfl

/-- **A text that needs no trimming** keeps its place when what follows it is trimmed. -/
theorem trim_append {p : Char → Bool} {s : Text} (t : Text) (hne : s ≠ []) (hs : trim p s = s) :
    trim p (s ++ t) = s ++ trimEnd p t := by
  obtain ⟨hhead, hlast⟩ := trim_eq_self_iff.mp hs
  obtain ⟨c, rest, rfl⟩ := List.exists_cons_of_ne_nil hne
  have hstart : (c :: rest ++ t).dropWhile p = c :: rest ++ t :=
    List.dropWhile_cons_of_neg (by simp [hhead c rfl])
  rw [trim, hstart, trimEnd_append (Or.inr hlast)]

end Text

end SectionIndex
