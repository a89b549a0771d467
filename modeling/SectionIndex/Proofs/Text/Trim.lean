import SectionIndex.Text.Basic

/-!
# Trimmed texts

A text is trimmed if it has no character of the class at either end. Trimming gives such a text,
keeps those that are trimmed already, and takes off whatever is put around them.

## Main statements

* `Text.trim_eq_self_iff` — the trimmed texts, by their ends.
* `Text.trim_append_append` — padding is taken off.
-/

namespace SectionIndex

namespace Text

variable {p : Char → Bool} {t : Text}

theorem trimEnd_isPrefix (p : Char → Bool) (t : Text) : trimEnd p t <+: t := by
  have h := List.reverse_prefix.mpr (List.dropWhile_suffix (l := t.reverse) p)
  rwa [List.reverse_reverse] at h

theorem trim_isInfix (p : Char → Bool) (t : Text) : trim p t <:+: t :=
  (trimEnd_isPrefix p _).isInfix.trans (List.dropWhile_suffix p).isInfix

/-- All characters of a trimmed text stand in the text. -/
theorem mem_of_mem_trim {c : Char} (h : c ∈ trim p t) : c ∈ t :=
  (trim_isInfix p t).subset h

theorem not_of_mem_head?_trim {c : Char} (h : c ∈ (trim p t).head?) : p c = false := by
  obtain ⟨rest, hrest⟩ := trimEnd_isPrefix p (t.dropWhile p)
  have hhead : c ∈ (t.dropWhile p).head? := by
    rw [← hrest, List.head?_append]
    have h' : (trimEnd p (t.dropWhile p)).head? = some c := h
    simp [h']
  have hnot := List.head?_dropWhile_not p t
  rw [Option.mem_def.mp hhead] at hnot
  exact hnot

theorem not_of_mem_getLast?_trimEnd {c : Char} (h : c ∈ (trimEnd p t).getLast?) : p c = false := by
  rw [trimEnd, List.getLast?_reverse] at h
  have hnot := List.head?_dropWhile_not p t.reverse
  rw [Option.mem_def.mp h] at hnot
  exact hnot

/-- A text that ends in no character of the class keeps its end. -/
theorem trimEnd_of_getLast? (h : ∀ c ∈ t.getLast?, p c = false) : trimEnd p t = t := by
  have hdrop : t.reverse.dropWhile p = t.reverse := by
    cases hreverse : t.reverse with
    | nil => rfl
    | cons c u =>
      have hlast : t.getLast? = some c := by rw [← List.head?_reverse, hreverse]; rfl
      exact List.dropWhile_cons_of_neg (by simp [h c hlast])
  rw [trimEnd, hdrop, List.reverse_reverse]

theorem trim_of_ends (hhead : ∀ c ∈ t.head?, p c = false)
    (hlast : ∀ c ∈ t.getLast?, p c = false) : trim p t = t := by
  have hdrop : t.dropWhile p = t := by
    cases t with
    | nil => rfl
    | cons c t => exact List.dropWhile_cons_of_neg (by simp [hhead c rfl])
  rw [trim, hdrop, trimEnd_of_getLast? hlast]

/-- **The trimmed texts**, by the characters at their ends. -/
theorem trim_eq_self_iff :
    trim p t = t ↔ (∀ c ∈ t.head?, p c = false) ∧ ∀ c ∈ t.getLast?, p c = false := by
  constructor
  · intro h
    refine ⟨fun c hc => ?_, fun c hc => ?_⟩
    · rw [← h] at hc
      exact not_of_mem_head?_trim hc
    · rw [← h] at hc
      exact not_of_mem_getLast?_trimEnd hc
  · rintro ⟨hhead, hlast⟩
    exact trim_of_ends hhead hlast

/-- Trimming a trimmed text changes nothing. -/
@[simp] theorem trim_trim (p : Char → Bool) (t : Text) : trim p (trim p t) = trim p t :=
  trim_of_ends (fun _ h => not_of_mem_head?_trim h) (fun _ h => not_of_mem_getLast?_trimEnd h)

theorem trim_append_append_of_trim {a b : Text} (ha : ∀ c ∈ a, p c = true)
    (hb : ∀ c ∈ b, p c = true) (ht : trim p t = t) : trim p (a ++ t ++ b) = t := by
  obtain ⟨hhead, hlast⟩ := trim_eq_self_iff.mp ht
  -- if nothing is left of the text, what comes after it goes with what comes before
  have hleft : (a ++ t ++ b).dropWhile p = if t = [] then [] else t ++ b := by
    rw [List.append_assoc, List.dropWhile_append_of_pos ha]
    cases t with
    | nil =>
      have h : (b ++ []).dropWhile p = ([] : Text).dropWhile p := List.dropWhile_append_of_pos hb
      simpa using h
    | cons c t => simp [hhead c rfl]
  rw [trim, hleft]
  split
  · next hnil => rw [hnil, trimEnd_nil]
  · next hne =>
    -- the last character of the text ends what is dropped from behind
    obtain ⟨c, r, hr⟩ := List.exists_cons_of_ne_nil (List.reverse_ne_nil_iff.mpr hne)
    have hpc : p c = false := hlast c (by rw [← List.head?_reverse, hr]; rfl)
    rw [trimEnd, List.reverse_append, List.dropWhile_append_of_pos (by simpa using hb), hr,
      List.dropWhile_cons_of_neg (by simp [hpc]), ← hr, List.reverse_reverse]

/-- What is taken off a text is of the class. -/
theorem exists_eq_append_trim (p : Char → Bool) (t : Text) :
    ∃ a b : Text, (∀ c ∈ a, p c = true) ∧ (∀ c ∈ b, p c = true) ∧ t = a ++ trim p t ++ b := by
  refine ⟨t.takeWhile p, ((t.dropWhile p).reverse.takeWhile p).reverse, ?_, ?_, ?_⟩
  · exact List.all_eq_true.mp List.all_takeWhile
  · intro c hc
    exact List.all_eq_true.mp List.all_takeWhile c (List.mem_reverse.mp hc)
  · rw [trim, trimEnd, List.append_assoc, ← List.reverse_append,
      List.takeWhile_append_dropWhile, List.reverse_reverse, List.takeWhile_append_dropWhile]

/-- **Whatever of the class is put around a text is taken off with its own ends.** -/
theorem trim_append_append {a b : Text} (ha : ∀ c ∈ a, p c = true) (hb : ∀ c ∈ b, p c = true) :
    trim p (a ++ t ++ b) = trim p t := by
  obtain ⟨a', b', ha', hb', h⟩ := exists_eq_append_trim p t
  have houter : a ++ t ++ b = (a ++ a') ++ trim p t ++ (b' ++ b) := by
    conv => lhs; rw [h]
    simp only [List.append_assoc]
  rw [houter]
  exact trim_append_append_of_trim (List.forall_mem_append.mpr ⟨ha, ha'⟩)
    (List.forall_mem_append.mpr ⟨hb', hb⟩) (trim_trim p t)

theorem trim_append_left {a : Text} (t : Text) (ha : ∀ c ∈ a, p c = true) :
    trim p (a ++ t) = trim p t := by
  have h := trim_append_append (t := t) ha (List.forall_mem_nil _)
  rwa [List.append_nil] at h

theorem trim_append_right {b : Text} (t : Text) (hb : ∀ c ∈ b, p c = true) :
    trim p (t ++ b) = trim p t :=
  trim_append_append (List.forall_mem_nil _) hb

theorem isBlank_of_mem_replicate {n : Nat} {c : Char} (h : c ∈ List.replicate n ' ') :
    isBlank c = true := by
  rw [List.eq_of_mem_replicate h]
  rfl

/-- **Padding is taken off.** -/
@[simp] theorem strip_padRight (n : Nat) (t : Text) : strip (padRight n t) = strip t :=
  trim_append_right t fun _ => isBlank_of_mem_replicate

@[simp] theorem strip_padLeft (n : Nat) (t : Text) : strip (padLeft n t) = strip t :=
  trim_append_left t fun _ => isBlank_of_mem_replicate

/-- A text without blanks in it is trimmed. -/
theorem strip_of_forall (h : ∀ c ∈ t, isBlank c = false) : t.strip = t :=
  trim_of_ends (fun c hc => h c (List.mem_of_mem_head? hc))
    (fun c hc => h c (List.mem_of_getLast? hc))

end Text

end SectionIndex
