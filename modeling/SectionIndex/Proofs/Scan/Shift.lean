import SectionIndex.Proofs.Scan.Detections

/-!
# Scans of lines that have moved

The sections that are found in lines depend on where the lines start only by their numbers: if the
lines move down, every section moves down with them. Lines that mean nothing, put before the others,
do just that. A section lies within the lines it is found in, so the line where the others were put
in moves it as a whole.

## Main definitions

* `Section.moved` — the section with both ends moved.
* `Mark.Opens` — a mark that opens a section.

## Main statements

* `scanExplicit_append`, `scanAuto_append` — the sections that are found after lines that mean
  nothing.
* `bounds_of_mem_scanExplicit`, `bounds_of_mem_scanAuto` — where sections can stand.
-/

namespace SectionIndex

namespace Section

/-- **The section with both ends moved** by the same number of lines. -/
def moved (d : Int) (s : Section) : Section :=
  { s with first := s.first + d, last := s.last + d }

@[simp] theorem moved_name (d : Int) (s : Section) : (s.moved d).name = s.name := rfl

@[simp] theorem moved_description (d : Int) (s : Section) :
    (s.moved d).description = s.description := rfl

@[simp] theorem moved_source (d : Int) (s : Section) : (s.moved d).source = s.source := rfl

theorem moved_moved (c d : Int) (s : Section) : (s.moved c).moved d = s.moved (c + d) := by
  simp [moved, Int.add_assoc]

theorem shiftLine_of_le {threshold n : Int} (delta : Int) (h : threshold ≤ n) :
    shiftLine threshold delta n = n + delta :=
  if_pos h

theorem shiftLine_of_lt {threshold n : Int} (delta : Int) (h : n < threshold) :
    shiftLine threshold delta n = n :=
  if_neg (Int.not_le.mpr h)

/-- A section behind the place where lines were added moves as a whole. -/
theorem shifted_eq_moved {s : Section} {threshold : Int} (d : Int) (hfirst : threshold ≤ s.first)
    (hlast : threshold ≤ s.last) : s.shifted threshold d = s.moved d := by
  rw [shifted, shiftLine_of_le d hfirst, shiftLine_of_le d hlast, moved]

end Section

/-! ### Explicit sections -/

/-- The open section, moved. -/
def OpenSection.moved (d : Nat) (o : OpenSection) : OpenSection :=
  { o with first := o.first + d }

theorem closeAt_moved (current : Option OpenSection) (last d : Nat) :
    closeAt (current.map (OpenSection.moved d)) (last + d) =
      (closeAt current last).map (Section.moved d) := by
  cases current with
  | none => rfl
  | some o =>
    simp only [closeAt, Option.map_some, Option.toList_some, List.map_cons, List.map_nil,
      OpenSection.close, OpenSection.moved, Section.moved]
    push_cast
    rfl

/-- **The sections of marks move** with the number of the first mark. -/
theorem sectionsOfMarks_moved (current : Option OpenSection) {number : Nat} (d : Nat)
    (marks : List Mark) (h : 0 < number) :
    sectionsOfMarks (current.map (OpenSection.moved d)) (number + d) marks =
      (sectionsOfMarks current number marks).map (Section.moved d) := by
  induction marks generalizing current number with
  | nil =>
    rw [sectionsOfMarks, sectionsOfMarks, Nat.sub_add_comm h]
    exact closeAt_moved current (number - 1) d
  | cons mark marks ih =>
    -- the lines after the first move with the next number, whatever section is open then
    have hrest := fun current => ih current (Nat.succ_pos number)
    cases mark with
    | opening name description =>
      -- the opening moves with its line, and the section before it ends as many lines later
      have hopen := hrest (some ⟨name, description, number⟩)
      rw [Nat.succ_add] at hopen
      rw [sectionsOfMarks, sectionsOfMarks, List.map_append, Nat.sub_add_comm h, closeAt_moved]
      exact congrArg _ hopen
    | ending =>
      have hnone := hrest none
      rw [Nat.succ_add] at hnone
      rw [sectionsOfMarks, sectionsOfMarks, List.map_append, closeAt_moved]
      exact congrArg _ hnone
    | plain =>
      have hcurrent := hrest current
      rw [Nat.succ_add] at hcurrent
      exact hcurrent

/-- **The mark opens a section.** -/
def Mark.Opens : Mark → Prop
  | .opening _ _ => True
  | _ => False

/-- Marks at the start that open no section only count as lines: there is no section to end. -/
theorem sectionsOfMarks_append_of_not_opens {before : List Mark} (number : Nat)
    (marks : List Mark) (h : ∀ mark ∈ before, ¬ mark.Opens) :
    sectionsOfMarks none number (before ++ marks) =
      sectionsOfMarks none (number + before.length) marks := by
  induction before generalizing number with
  | nil => rfl
  | cons mark before ih =>
    obtain ⟨hmark, hbefore⟩ := List.forall_mem_cons.mp h
    have hrest : sectionsOfMarks none (number + 1) (before ++ marks) =
        sectionsOfMarks none (number + (mark :: before).length) marks := by
      rw [ih (number + 1) hbefore, List.length_cons, Nat.add_assoc, Nat.add_comm 1]
    cases mark with
    | opening name description => exact absurd trivial hmark
    | ending => exact hrest
    | plain => exact hrest

/-- A section of marks starts at the first of them or later, and it has a line. -/
theorem bounds_of_mem_sectionsOfMarks {current : Option OpenSection} {low number : Nat}
    {marks : List Mark} (hcurrent : ∀ o ∈ current, low ≤ o.first ∧ o.first < number)
    (hlow : low ≤ number) {s : Section} (h : s ∈ sectionsOfMarks current number marks) :
    (low : Int) ≤ s.first ∧ s.first ≤ s.last := by
  have hclose : ∀ {current : Option OpenSection} {last : Nat},
      (∀ o ∈ current, low ≤ o.first ∧ o.first ≤ last) → s ∈ closeAt current last →
      (low : Int) ≤ s.first ∧ s.first ≤ s.last := by
    intro current last hcurrent hs
    cases current with
    | none => exact absurd hs (by simp [closeAt])
    | some o =>
      obtain rfl : s = o.close last := by simpa [closeAt] using hs
      obtain ⟨hfirst, hlast⟩ := hcurrent o rfl
      exact ⟨Int.ofNat_le.mpr hfirst, Int.ofNat_le.mpr hlast⟩
  -- a section is closed one line before the mark, or at the mark if that ends it
  have hbefore : ∀ {current : Option OpenSection} {number : Nat},
      (∀ o ∈ current, low ≤ o.first ∧ o.first < number) →
      ∀ o ∈ current, low ≤ o.first ∧ o.first ≤ number - 1 := fun hcurrent o ho =>
    ⟨(hcurrent o ho).1, Nat.le_sub_one_of_lt (hcurrent o ho).2⟩
  induction marks generalizing current number with
  | nil => exact hclose (hbefore hcurrent) h
  | cons mark marks ih =>
    have hlow' : low ≤ number + 1 := Nat.le_succ_of_le hlow
    cases mark with
    | opening name description =>
      rw [sectionsOfMarks, List.mem_append] at h
      rcases h with h | h
      · exact hclose (hbefore hcurrent) h
      · refine ih (fun o ho => ?_) hlow' h
        cases ho
        exact ⟨hlow, Nat.lt_succ_self number⟩
    | ending =>
      rw [sectionsOfMarks, List.mem_append] at h
      rcases h with h | h
      · exact hclose (fun o ho => ⟨(hcurrent o ho).1, Nat.le_of_lt (hcurrent o ho).2⟩) h
      · exact ih (fun o ho => absurd ho (by simp)) hlow' h
    | plain =>
      exact ih (fun o ho => ⟨(hcurrent o ho).1, Nat.lt_succ_of_lt (hcurrent o ho).2⟩) hlow' h

variable {language : Language}

@[simp] theorem scanExplicit_nil (language? : Option Language) :
    scanExplicit language? [] = [] := by
  cases language? with
  | none => rfl
  | some language =>
    unfold scanExplicit
    -- a language without marks has no explicit sections at all
    simp only
    split <;> rfl

/-- **Lines that open no section** move the sections that are marked after them. -/
theorem scanExplicit_append_of_not_opens {before : List Text} (lines : List Text)
    (h : ∀ line ∈ before, ¬ (language.markOf line).Opens) :
    scanExplicit (some language) (before ++ lines) =
      (scanExplicit (some language) lines).map (Section.moved before.length) := by
  unfold scanExplicit
  simp only
  split
  · have hbefore := sectionsOfMarks_append_of_not_opens 1 (lines.map language.markOf)
      (List.forall_mem_map.mpr h)
    rw [List.map_append, hbefore, List.length_map]
    exact sectionsOfMarks_moved none before.length _ Nat.one_pos
  · rfl

theorem Mark.not_opens_of_eq_plain {mark : Mark} (h : mark = .plain) : ¬ mark.Opens := by
  rw [h]
  exact not_false

/-- **Lines that are no marks** move the sections that are found after them. -/
theorem scanExplicit_append {before : List Text} (lines : List Text)
    (h : ∀ line ∈ before, language.markOf line = .plain) :
    scanExplicit (some language) (before ++ lines) =
      (scanExplicit (some language) lines).map (Section.moved before.length) :=
  scanExplicit_append_of_not_opens lines fun line hline => Mark.not_opens_of_eq_plain (h line hline)

theorem bounds_of_mem_scanExplicit {language? : Option Language} {lines : List Text} {s : Section}
    (h : s ∈ scanExplicit language? lines) : 1 ≤ s.first ∧ s.first ≤ s.last := by
  unfold scanExplicit at h
  split at h
  · split at h
    · exact bounds_of_mem_sectionsOfMarks (fun o ho => absurd ho (by simp)) (Nat.le_refl 1) h
    · exact absurd h (by simp)
  · exact absurd h (by simp)

/-! ### Detected sections -/

/-- **Lines that open no section** move the sections that are found after them. -/
theorem scanAuto_append {before : List Text} (lines : List Text)
    (h : ∀ line ∈ before, language.detect? (Text.dropReturns line) = none) :
    scanAuto (some language) (before ++ lines) =
      (scanAuto (some language) lines).map (Section.moved before.length) := by
  have hplain : ∀ mark ∈ List.replicate before.length Mark.plain, ¬ mark.Opens :=
    fun mark hmark => Mark.not_opens_of_eq_plain (List.eq_of_mem_replicate hmark)
  rw [scanAuto_eq, scanAuto_eq, List.map_append,
    marksOfDetections_append_of_none none _ (List.forall_mem_map.mpr h), List.length_map,
    sectionsOfMarks_append_of_not_opens 1 _ hplain, List.length_replicate]
  have hmoved := sectionsOfMarks_moved none before.length
    (marksOfDetections none (lines.map fun line => language.detect? (Text.dropReturns line)))
    Nat.one_pos
  rw [Option.map_none] at hmoved
  rw [hmoved, List.map_map, List.map_map]
  rfl

@[simp] theorem scanAuto_nil (language? : Option Language) : scanAuto language? [] = [] := by
  cases language? <;> rfl

theorem bounds_of_mem_scanAuto {language? : Option Language} {lines : List Text} {s : Section}
    (h : s ∈ scanAuto language? lines) : 1 ≤ s.first ∧ s.first ≤ s.last := by
  cases language? with
  | none => exact absurd h List.not_mem_nil
  | some language =>
    rw [scanAuto_eq] at h
    obtain ⟨s₀, hs₀, rfl⟩ := List.mem_map.mp h
    exact bounds_of_mem_sectionsOfMarks (s := s₀)
      (fun o ho => absurd ho (Option.not_mem_none o)) (Nat.le_refl 1) hs₀

end SectionIndex
