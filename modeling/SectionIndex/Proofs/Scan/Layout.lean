import SectionIndex.Proofs.Scan.Detections

/-!
# Sections laid out in a file

Sections do not nest: a section that is found ends before the next one starts, whatever marks or
detections open and end it. The scans read a file from its first line to its last, so the sections
stand in the order of their lines, and none reaches beyond the file.

## Main definitions

* `IsLayout` — sections that lie between two lines, one after another.

## Main statements

* `IsLayout.append` — what is laid out in two parts of a file, one after the other.
* `isLayout_sectionsOfMarks` — what a scan does from any line on.
* `isLayout_scanExplicit`, `isLayout_scanAuto` — the sections that are found in a file.
-/

namespace SectionIndex

/-- **Sections laid out** from line `low` to line `high`: each ends before the next one starts, and
each has a line at least. -/
structure IsLayout (low high : Int) (sections : List Section) : Prop where
  apart : sections.Pairwise fun s t => s.last < t.first
  bounds : ∀ s ∈ sections, low ≤ s.first ∧ s.first ≤ s.last ∧ s.last ≤ high

namespace IsLayout

variable {low low' high high' : Int} {sections others : List Section}

theorem nil (low high : Int) : IsLayout low high [] :=
  ⟨List.Pairwise.nil, List.forall_mem_nil _⟩

theorem singleton {s : Section} (hlow : low ≤ s.first) (h : s.first ≤ s.last)
    (hhigh : s.last ≤ high) : IsLayout low high [s] where
  apart := List.pairwise_singleton _ s
  bounds := List.forall_mem_singleton.mpr ⟨hlow, h, hhigh⟩

/-- Sections that are laid out in a part of a file are laid out in the file. -/
theorem mono (h : IsLayout low high sections) (hlow : low' ≤ low) (hhigh : high ≤ high') :
    IsLayout low' high' sections where
  apart := h.apart
  bounds := by
    intro s hs
    obtain ⟨hfirst, hlines, hlast⟩ := h.bounds s hs
    exact ⟨Int.le_trans hlow hfirst, hlines, Int.le_trans hlast hhigh⟩

/-- **What is laid out in two parts of a file**, one after the other. -/
theorem append (h : IsLayout low high sections) (h' : IsLayout low' high' others)
    (hlow : low ≤ low') (hhigh : high ≤ high') (hparts : high < low') :
    IsLayout low high' (sections ++ others) where
  apart := by
    rw [List.pairwise_append]
    refine ⟨h.apart, h'.apart, ?_⟩
    intro s hs t ht
    obtain ⟨-, -, hlast⟩ := h.bounds s hs
    obtain ⟨hfirst, -, -⟩ := h'.bounds t ht
    exact Int.lt_of_le_of_lt hlast (Int.lt_of_lt_of_le hparts hfirst)
  bounds := by
    rw [List.forall_mem_append]
    exact ⟨(h.mono (Int.le_refl low) hhigh).bounds, (h'.mono hlow (Int.le_refl high')).bounds⟩

/-- The sections stand in the order of their first lines. -/
theorem sorted (h : IsLayout low high sections) :
    sections.Pairwise fun s t => s.first ≤ t.first := by
  refine h.apart.imp_of_mem ?_
  intro s t hs _ hlt
  obtain ⟨-, hlines, -⟩ := h.bounds s hs
  exact Int.le_of_lt (Int.lt_of_le_of_lt hlines hlt)

/-- A section that ends before another one starts stands before it in the list. -/
theorem rel_of_lt {R : Section → Section → Prop} (h : IsLayout low high sections)
    (hrel : sections.Pairwise R) {s t : Section} (hs : s ∈ sections) (ht : t ∈ sections)
    (hlt : s.last < t.first) : R s t := by
  obtain ⟨-, hslines, -⟩ := h.bounds s hs
  obtain ⟨-, htlines, -⟩ := h.bounds t ht
  obtain ⟨i, hi, rfl⟩ := List.mem_iff_getElem.mp hs
  obtain ⟨j, hj, rfl⟩ := List.mem_iff_getElem.mp ht
  rcases Nat.lt_trichotomy i j with hij | rfl | hij
  · exact List.pairwise_iff_getElem.mp hrel i j hi hj hij
  · omega
  · have hback := List.pairwise_iff_getElem.mp h.apart j i hj hi hij
    omega

/-- **Only the lines of sections count**, and not their names or where they come from. -/
theorem of_map_eq (h : IsLayout low high sections)
    (heq : others.map (fun s => (s.first, s.last)) = sections.map fun s => (s.first, s.last)) :
    IsLayout low high others where
  apart := by
    have hapart : (sections.map fun s => (s.first, s.last)).Pairwise fun s t => s.2 < t.1 :=
      List.pairwise_map.mpr h.apart
    rw [← heq] at hapart
    exact List.pairwise_map.mp hapart
  bounds := by
    intro s hs
    have hmem : (s.first, s.last) ∈ sections.map fun s => (s.first, s.last) :=
      heq ▸ List.mem_map_of_mem hs
    obtain ⟨s₀, hs₀, hlines⟩ := List.mem_map.mp hmem
    obtain ⟨hfirst, hlast⟩ := Prod.mk.inj hlines
    rw [← hfirst, ← hlast]
    exact h.bounds s₀ hs₀

end IsLayout

/-! ### Explicit sections -/

theorem isLayout_closeAt {current : Option OpenSection} {low last : Nat}
    (h : ∀ o ∈ current, low ≤ o.first ∧ o.first ≤ last) :
    IsLayout low last (closeAt current last) := by
  cases current with
  | none => exact IsLayout.nil _ _
  | some o =>
    obtain ⟨hlow, hlast⟩ := h o rfl
    exact IsLayout.singleton (s := o.close last) (Int.ofNat_le.mpr hlow) (Int.ofNat_le.mpr hlast)
      (Int.le_refl _)

/-- **The sections of marks are laid out** from the first line of the open section, or from the
line of the first mark, to the line of the last one. -/
theorem isLayout_sectionsOfMarks {current : Option OpenSection} {low number : Nat}
    (marks : List Mark) (hcurrent : ∀ o ∈ current, low ≤ o.first ∧ o.first < number)
    (hlow : low ≤ number) (hnumber : 0 < number) :
    IsLayout low (number + marks.length - 1 : Nat) (sectionsOfMarks current number marks) := by
  -- a section that is open ends on the line before, unless the line itself ends it
  have hbefore : ∀ o ∈ current, low ≤ o.first ∧ o.first ≤ number - 1 := fun o ho =>
    ⟨(hcurrent o ho).1, Nat.le_sub_one_of_lt (hcurrent o ho).2⟩
  induction marks generalizing current low number with
  | nil => exact isLayout_closeAt hbefore
  | cons mark marks ih =>
    have hlength : number + (mark :: marks).length - 1 = number + 1 + marks.length - 1 := by
      rw [List.length_cons]
      omega
    rw [hlength]
    -- an opening ends the open section on the line before it, an ending on its own line
    cases mark with
    | opening name description =>
      have hopen : IsLayout number (number + 1 + marks.length - 1 : Nat)
          (sectionsOfMarks (some ⟨name, description, number⟩) (number + 1) marks) := by
        apply ih
        · intro o ho
          cases ho
          exact ⟨Nat.le_refl _, Nat.lt_succ_self _⟩
        · exact Nat.le_succ number
        · exact Nat.succ_pos number
        · intro o ho
          cases ho
          exact ⟨Nat.le_refl _, Nat.le_refl _⟩
      rw [sectionsOfMarks]
      exact (isLayout_closeAt hbefore).append hopen (by omega) (by omega) (by omega)
    | ending =>
      have hrest : IsLayout (number + 1 : Nat) (number + 1 + marks.length - 1 : Nat)
          (sectionsOfMarks none (number + 1) marks) := by
        apply ih
        · exact fun o ho => absurd ho (by simp)
        · exact Nat.le_refl _
        · exact Nat.succ_pos number
        · exact fun o ho => absurd ho (by simp)
      have hclosed : IsLayout low number (closeAt current number) :=
        isLayout_closeAt fun o ho => ⟨(hcurrent o ho).1, Nat.le_of_lt (hcurrent o ho).2⟩
      rw [sectionsOfMarks]
      exact hclosed.append hrest (by omega) (by omega) (by omega)
    | plain =>
      rw [sectionsOfMarks]
      apply ih
      · exact fun o ho => ⟨(hcurrent o ho).1, Nat.lt_succ_of_lt (hcurrent o ho).2⟩
      · exact Nat.le_succ_of_le hlow
      · exact Nat.succ_pos number
      · exact fun o ho => ⟨(hcurrent o ho).1, Nat.le_of_lt (hcurrent o ho).2⟩

/-- **The sections an author has marked** are laid out in the file. -/
theorem isLayout_scanExplicit (language? : Option Language) (lines : List Text) :
    IsLayout 1 lines.length (scanExplicit language? lines) := by
  cases language? with
  | none => exact IsLayout.nil _ _
  | some language =>
    rw [scanExplicit]
    -- without rules for marks there is no section at all
    by_cases hmarkers : language.hasMarkers = true
    · rw [if_pos hmarkers]
      have hcurrent : ∀ o ∈ (none : Option OpenSection), 1 ≤ o.first ∧ o.first < 1 :=
        fun _ h => absurd h (Option.not_mem_none _)
      have hmarks := isLayout_sectionsOfMarks (lines.map language.markOf) hcurrent (Nat.le_refl 1)
        Nat.one_pos
      rw [List.length_map, Nat.add_sub_cancel_left] at hmarks
      exact hmarks
    · rw [if_neg hmarkers]
      exact IsLayout.nil _ _

/-! ### Detected sections -/

/-- **The detected sections** are laid out in the file. -/
theorem isLayout_scanAuto (language? : Option Language) (lines : List Text) :
    IsLayout 1 lines.length (scanAuto language? lines) := by
  cases language? with
  | none => exact IsLayout.nil _ _
  | some language =>
    have hcurrent : ∀ o ∈ (none : Option OpenSection), 1 ≤ o.first ∧ o.first < 1 :=
      fun _ h => absurd h (Option.not_mem_none _)
    have hmarks := isLayout_sectionsOfMarks (marksOfDetections none
      (lines.map fun line => language.detect? (Text.dropReturns line))) hcurrent (Nat.le_refl 1)
      Nat.one_pos
    rw [length_marksOfDetections, List.length_map, Nat.add_sub_cancel_left] at hmarks
    rw [scanAuto_eq]
    exact hmarks.of_map_eq (List.map_map ..)

end SectionIndex
