import SectionIndex.Proofs.Scan.Shift

/-!
# Scans of lines in which some are replaced

Lines that mean nothing are replaced by other such lines, of which there may be more or fewer. What
is found before them stays, and what is found after them moves with its lines. A section that ends
on the last of them does so because another one starts after them or the file ends there, so this
end moves too.

## Main definitions

* `Section.carried` — a section when lines before it or in it are replaced.

## Main statements

* `scanExplicit_replaced`, `scanAuto_replaced` — the sections that are found when lines are
  replaced.
-/

namespace SectionIndex

/-- **The section when lines are replaced** by `delta` more, where `threshold` is the first line
after them. An end on the last of these lines moves with the lines after it. -/
def Section.carried (threshold delta : Int) (s : Section) : Section :=
  { s with first := shiftLine threshold delta s.first
           last := shiftLine (threshold - 1) delta s.last }

open Section (shiftLine_of_le shiftLine_of_lt)

variable {threshold delta : Int}

/-! ### Explicit sections -/

/-- A section that is open before the lines and ends before the last of them stays where it is. -/
theorem map_carried_closeAt {current : Option OpenSection} {last : Nat}
    (hfirst : ∀ o ∈ current, (o.first : Int) < threshold)
    (hlast : ∀ o ∈ current, (last : Int) < threshold - 1) :
    (closeAt current last).map (Section.carried threshold delta) = closeAt current last := by
  cases current with
  | none => rfl
  | some o =>
    simp only [closeAt, Option.map_some, Option.toList_some, List.map_cons, List.map_nil,
      OpenSection.close, Section.carried, shiftLine_of_lt delta (hfirst o rfl),
      shiftLine_of_lt delta (hlast o rfl)]

/-- **Marks after the lines** give the same sections from another line on, if the sections that are
open there are ended alike. -/
theorem sectionsOfMarks_carried {current current' : Option OpenSection} {number number' : Nat}
    (marks : List Mark) (hnumber : (number' : Int) = number + delta)
    (hthreshold : threshold ≤ number) (hpos : 0 < number) (hpos' : 0 < number')
    (hcurrent : ∀ last last' : Nat, threshold - 1 ≤ last → (last' : Int) = last + delta →
      closeAt current' last' = (closeAt current last).map (Section.carried threshold delta)) :
    sectionsOfMarks current' number' marks =
      (sectionsOfMarks current number marks).map (Section.carried threshold delta) := by
  -- the open section ends on the line before
  have hbefore : closeAt current' (number' - 1) =
      (closeAt current (number - 1)).map (Section.carried threshold delta) :=
    hcurrent (number - 1) (number' - 1) (by omega) (by omega)
  -- by induction on the marks: what is assumed of the open section holds of the next one too
  induction marks generalizing current current' number number' with
  | nil => exact hbefore
  | cons mark marks ih =>
    have hnext : ((number' + 1 : Nat) : Int) = (number + 1 : Nat) + delta := by omega
    have hthreshold' : threshold ≤ (number + 1 : Nat) := by omega
    cases mark with
    | opening name description =>
      have hopen : ∀ last last' : Nat, threshold - 1 ≤ last → (last' : Int) = last + delta →
          closeAt (some ⟨name, description, number'⟩) last' =
            (closeAt (some ⟨name, description, number⟩) last).map
              (Section.carried threshold delta) := by
        intro last last' hlast heq
        simp only [closeAt, Option.map_some, Option.toList_some, List.map_cons, List.map_nil,
          OpenSection.close, Section.carried, shiftLine_of_le delta hthreshold,
          shiftLine_of_le delta hlast, hnumber, heq]
      rw [sectionsOfMarks, sectionsOfMarks, List.map_append, hbefore]
      refine congrArg _ (ih hnext hthreshold' (Nat.succ_pos _) (Nat.succ_pos _) hopen ?_)
      exact hopen _ _ (by omega) (by omega)
    | ending =>
      rw [sectionsOfMarks, sectionsOfMarks, List.map_append,
        hcurrent number number' (by omega) hnumber]
      exact congrArg _ (ih hnext hthreshold' (Nat.succ_pos _) (Nat.succ_pos _)
        (fun _ _ _ _ => rfl) rfl)
    | plain =>
      exact ih hnext hthreshold' (Nat.succ_pos _) (Nat.succ_pos _) hcurrent
        (hcurrent _ _ (by omega) (by omega))

/-- Marks that mean nothing only count as lines. -/
theorem sectionsOfMarks_plain_append {plain : List Mark} (current : Option OpenSection)
    (number : Nat) (marks : List Mark) (h : ∀ mark ∈ plain, mark = .plain) :
    sectionsOfMarks current number (plain ++ marks) =
      sectionsOfMarks current (number + plain.length) marks := by
  induction plain generalizing number with
  | nil => rfl
  | cons mark plain ih =>
    obtain ⟨rfl, hplain⟩ := List.forall_mem_cons.mp h
    rw [List.cons_append, sectionsOfMarks, ih (number + 1) hplain, List.length_cons,
      Nat.add_assoc, Nat.add_comm 1]

/-- **The sections of marks some of which are replaced.** Where there was none before, only one mark
may stand before them, so that no section ends there. -/
theorem sectionsOfMarks_replaced {current : Option OpenSection} {number : Nat}
    {before plain plain' : List Mark} (after : List Mark) (hpos : 0 < number)
    (hplain : ∀ mark ∈ plain, mark = .plain) (hplain' : ∀ mark ∈ plain', mark = .plain)
    (hcurrent : ∀ o ∈ current, o.first < number)
    (hends : plain ≠ [] ∨ before = [] ∨ current = none ∧ before.length ≤ 1)
    (hthreshold : threshold = number + before.length + plain.length)
    (hdelta : delta = plain'.length - plain.length) :
    sectionsOfMarks current number (before ++ (plain' ++ after)) =
      (sectionsOfMarks current number (before ++ (plain ++ after))).map
        (Section.carried threshold delta) := by
  -- by induction on the marks before the lines, with the open section as a parameter
  induction before generalizing current number with
  | nil =>
    rw [List.length_nil] at hthreshold
    rw [List.nil_append, List.nil_append, sectionsOfMarks_plain_append _ _ _ hplain,
      sectionsOfMarks_plain_append _ _ _ hplain']
    refine sectionsOfMarks_carried after (by omega) (by omega) (by omega) (by omega) ?_
    -- a section that is open starts before the lines
    intro last last' hlast heq
    cases current with
    | none => rfl
    | some o =>
      have hfirst : (o.first : Int) < threshold := by
        have hlt := hcurrent o rfl
        omega
      simp only [closeAt, Option.map_some, Option.toList_some, List.map_cons, List.map_nil,
        OpenSection.close, Section.carried, shiftLine_of_lt delta hfirst,
        shiftLine_of_le delta hlast, heq]
  | cons mark before ih =>
    rw [List.length_cons] at hthreshold
    have hthreshold' : threshold = (number + 1 : Nat) + before.length + plain.length := by omega
    have hfirst : ∀ o ∈ current, (o.first : Int) < threshold := by
      intro o ho
      have hlt := hcurrent o ho
      omega
    have hkept : ∀ o ∈ current, plain ≠ [] := by
      rintro o rfl
      rcases hends with hne | hnil | ⟨hnone, -⟩
      · exact hne
      · cases hnil
      · cases hnone
    have hends' : ∀ current' : Option OpenSection,
        plain ≠ [] ∨ before = [] ∨ current' = none ∧ before.length ≤ 1 := by
      intro current'
      rcases hends with hne | hnil | ⟨-, hlength⟩
      · exact Or.inl hne
      · cases hnil
      · exact Or.inr (Or.inl (List.eq_nil_of_length_eq_zero (by
          rw [List.length_cons] at hlength
          omega)))
    -- a section that ends here ends before the last of the lines
    have hclosed : ∀ last : Nat, last ≤ number →
        (closeAt current last).map (Section.carried threshold delta) = closeAt current last := by
      intro last hlast
      refine map_carried_closeAt hfirst fun o ho => ?_
      have hlength := List.length_pos_iff.mpr (hkept o ho)
      omega
    cases mark with
    | opening name description =>
      rw [List.cons_append, List.cons_append, sectionsOfMarks, sectionsOfMarks, List.map_append,
        hclosed _ (Nat.sub_le number 1)]
      refine congrArg _ (ih (Nat.succ_pos number) ?_ (hends' _) hthreshold')
      intro o ho
      cases ho
      exact Nat.lt_succ_self number
    | ending =>
      rw [List.cons_append, List.cons_append, sectionsOfMarks, sectionsOfMarks, List.map_append,
        hclosed _ (Nat.le_refl number)]
      have hnone : ∀ o ∈ (none : Option OpenSection), o.first < number + 1 :=
        fun o ho => absurd ho (Option.not_mem_none o)
      exact congrArg _ (ih (Nat.succ_pos number) hnone (hends' _) hthreshold')
    | plain =>
      exact ih (Nat.succ_pos number) (fun o ho => Nat.lt_succ_of_lt (hcurrent o ho)) (hends' _)
        hthreshold'

variable {language : Language} {before old new : List Text}

/-- **The sections of an author** when lines that are no marks are replaced by others. -/
theorem scanExplicit_replaced (after : List Text) (hends : old ≠ [] ∨ before.length ≤ 1)
    (hold : ∀ line ∈ old, language.markOf line = .plain)
    (hnew : ∀ line ∈ new, language.markOf line = .plain) :
    scanExplicit (some language) (before ++ (new ++ after)) =
      (scanExplicit (some language) (before ++ (old ++ after))).map
        (Section.carried (before.length + old.length + 1) (new.length - old.length)) := by
  unfold scanExplicit
  simp only
  split
  · simp only [List.map_append]
    refine sectionsOfMarks_replaced _ Nat.one_pos (List.forall_mem_map.mpr hold)
      (List.forall_mem_map.mpr hnew) (nofun : ∀ o ∈ (none : Option OpenSection), _) ?_ ?_ ?_
    · rw [ne_eq, List.map_eq_nil_iff, List.length_map]
      exact hends.imp id fun hlength => Or.inr ⟨rfl, hlength⟩
    · rw [List.length_map, List.length_map]
      push_cast
      omega
    · rw [List.length_map, List.length_map]
  · rfl

/-! ### Detected sections -/

/-- **The detected sections** when lines in which nothing is detected are replaced by others. -/
theorem scanAuto_replaced (after : List Text) (hends : old ≠ [] ∨ before.length ≤ 1)
    (hold : ∀ line ∈ old, language.detect? (Text.dropReturns line) = none)
    (hnew : ∀ line ∈ new, language.detect? (Text.dropReturns line) = none) :
    scanAuto (some language) (before ++ (new ++ after)) =
      (scanAuto (some language) (before ++ (old ++ after))).map
        (Section.carried (before.length + old.length + 1) (new.length - old.length)) := by
  have hplain : ∀ n, ∀ mark ∈ List.replicate n Mark.plain, mark = .plain :=
    fun _ _ => List.eq_of_mem_replicate
  rw [scanAuto_eq, scanAuto_eq]
  simp only [List.map_append]
  -- what stands before the lines is marked alike, whatever follows
  obtain ⟨marks, current, hlength, hmarks⟩ := exists_marksOfDetections_append none
    (before.map fun line => language.detect? (Text.dropReturns line))
  rw [List.length_map] at hlength
  rw [hmarks, hmarks, marksOfDetections_append_of_none _ _ (List.forall_mem_map.mpr hold),
    marksOfDetections_append_of_none _ _ (List.forall_mem_map.mpr hnew), List.length_map,
    List.length_map, sectionsOfMarks_replaced _ Nat.one_pos (hplain old.length)
      (hplain new.length) (nofun : ∀ o ∈ (none : Option OpenSection), _) ?_ rfl rfl, List.map_map,
    List.map_map]
  · simp only [List.length_replicate, hlength]
    refine List.map_congr_left fun s _ => ?_
    rw [Function.comp_apply, Function.comp_apply]
    have hone : (1 : Nat) + (before.length : Int) + old.length =
        before.length + old.length + 1 := by
      push_cast
      omega
    rw [hone]
    rfl
  · rw [hlength]
    refine hends.imp (fun hne => ?_) fun hone => Or.inr ⟨rfl, hone⟩
    rw [ne_eq, List.replicate_eq_nil_iff, List.length_eq_zero_iff]
    exact hne

end SectionIndex
