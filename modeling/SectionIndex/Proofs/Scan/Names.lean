import SectionIndex.Language.Table
import SectionIndex.Proofs.Pattern.Groups
import SectionIndex.Proofs.Text.Trim
import SectionIndex.Scan.Auto
import SectionIndex.Scan.Explicit

/-!
# Names that are found in a file

Where the names and descriptions of scanned sections come from: those of explicit sections are cut
out of one line each, those of detected sections stand in the table of languages.

## Main statements

* `exists_of_mem_sectionsOfMarks` — an explicit section is named by a mark.
* `exists_of_mem_sectionsOfDetections` — a detected section is named by a rule.
-/

namespace SectionIndex

/-! ### Explicit sections -/

/-- A text that is cut out of a line: trimmed, and of characters of the line. -/
structure IsCutFrom (line t : Text) : Prop where
  strip_eq : t.strip = t
  subset : t ⊆ line

theorem mem_of_mem_dropReturns {line : Text} {c : Char} (h : c ∈ Text.dropReturns line) :
    c ∈ line :=
  (Text.trimEnd_isPrefix _ _).subset h

/-- **The name and the description of a mark** are cut out of its line. -/
theorem isCutFrom_of_markOf {language : Language} {line name description : Text}
    (h : language.markOf line = .opening name description) :
    IsCutFrom line name ∧ IsCutFrom line description := by
  -- every name and description is a group of a match, trimmed
  have hcut : ∀ {rule? : Option Rule} {found : Pattern.Outcome} (index : Nat),
      Rule.findIn rule? (Text.dropReturns line) = some found →
      IsCutFrom line ((found.group? index).getD []).strip := fun index hfound =>
    ⟨Text.trim_trim _ _, fun _ hc => mem_of_mem_dropReturns
      (Rule.mem_of_mem_group? hfound (Text.mem_of_mem_trim hc))⟩
  unfold Language.markOf at h
  simp only at h
  split at h
  · next found hfound =>
    cases h
    exact ⟨hcut 1 hfound, hcut 2 hfound⟩
  · split at h
    · cases h
    · split at h
      · next found hfound =>
        cases h
        exact ⟨hcut 1 hfound, rfl, List.nil_subset _⟩
      · cases h

theorem mem_closeAt {current : Option OpenSection} {last : Nat} {s : Section}
    (h : s ∈ closeAt current last) : ∃ o, current = some o ∧ s = o.close last := by
  cases current with
  | none => exact absurd h (by simp [closeAt])
  | some o => exact ⟨o, rfl, by simpa [closeAt] using h⟩

/-- **An explicit section is named by a mark**, or by the section that is open. -/
theorem exists_of_mem_sectionsOfMarks {current : Option OpenSection} {number : Nat}
    {marks : List Mark} {s : Section} (h : s ∈ sectionsOfMarks current number marks) :
    s.source = .explicit ∧
      ((∃ o, current = some o ∧ s.name = o.name ∧ s.description = o.description) ∨
        Mark.opening s.name s.description ∈ marks) := by
  have hclose : ∀ {o : Option OpenSection} {last : Nat}, s ∈ closeAt o last → s.source = .explicit ∧
      ∃ open', o = some open' ∧ s.name = open'.name ∧ s.description = open'.description := by
    intro o last hs
    obtain ⟨open', hopen, rfl⟩ := mem_closeAt hs
    exact ⟨rfl, open', hopen, rfl, rfl⟩
  -- by induction on the marks, with the open section as a parameter
  induction marks generalizing current number with
  | nil =>
    obtain ⟨hsource, hopen⟩ := hclose h
    exact ⟨hsource, Or.inl hopen⟩
  | cons mark marks ih =>
    cases mark with
    | opening name description =>
      rw [sectionsOfMarks, List.mem_append] at h
      rcases h with h | h
      · obtain ⟨hsource, hopen⟩ := hclose h
        exact ⟨hsource, Or.inl hopen⟩
      -- the section was opened by this mark, or by one after it
      · obtain ⟨hsource, ⟨o, ho, hname, hdescription⟩ | hmem⟩ := ih h
        · cases ho
          exact ⟨hsource, Or.inr (by simp [hname, hdescription])⟩
        · exact ⟨hsource, Or.inr (List.mem_cons_of_mem _ hmem)⟩
    | ending =>
      rw [sectionsOfMarks, List.mem_append] at h
      rcases h with h | h
      · obtain ⟨hsource, hopen⟩ := hclose h
        exact ⟨hsource, Or.inl hopen⟩
      · obtain ⟨hsource, ⟨o, ho, -⟩ | hmem⟩ := ih h
        · cases ho
        · exact ⟨hsource, Or.inr (List.mem_cons_of_mem _ hmem)⟩
    | plain =>
      obtain ⟨hsource, hopen | hmem⟩ := ih h
      · exact ⟨hsource, Or.inl hopen⟩
      · exact ⟨hsource, Or.inr (List.mem_cons_of_mem _ hmem)⟩

/-- **The name and the description of an explicit section** are cut out of a line of the file. -/
theorem isCutFrom_of_mem_scanExplicit {language? : Option Language} {lines : List Text}
    {s : Section} (h : s ∈ scanExplicit language? lines) :
    s.source = .explicit ∧
      ∃ line ∈ lines, IsCutFrom line s.name ∧ IsCutFrom line s.description := by
  cases language? with
  | none => exact absurd h (by simp)
  | some language =>
    unfold scanExplicit at h
    simp only at h
    split at h
    · obtain ⟨hsource, ⟨o, ho, -⟩ | hmark⟩ := exists_of_mem_sectionsOfMarks h
      · cases ho
      · obtain ⟨line, hline, hmark⟩ := List.mem_map.mp hmark
        exact ⟨hsource, line, hline, isCutFrom_of_markOf hmark⟩
    · exact absurd h (by simp)

/-! ### Detected sections -/

/-- **A detected section is named by a detection**, or by the section that is open. -/
theorem exists_of_mem_sectionsOfDetections {current : Option (Text × Nat)} {number : Nat}
    {detections : List (Option Text)} {s : Section}
    (h : s ∈ sectionsOfDetections current number detections) :
    s.source = .auto ∧ s.description = [] ∧
      (current.map Prod.fst = some s.name ∨ some s.name ∈ detections) := by
  have hclose : ∀ {o : Option (Text × Nat)} {last : Nat}, s ∈ closeDetected o last →
      s.source = .auto ∧ s.description = [] ∧ o.map Prod.fst = some s.name := by
    intro o last hs
    cases o with
    | none => exact absurd hs (by simp [closeDetected])
    | some o =>
      obtain rfl : s = ⟨o.1, o.2, last, [], .auto⟩ := by simpa [closeDetected] using hs
      exact ⟨rfl, rfl, rfl⟩
  -- by induction on what is detected, with the open section as a parameter
  induction detections generalizing current number with
  | nil =>
    obtain ⟨hsource, hdescription, hopen⟩ := hclose h
    exact ⟨hsource, hdescription, Or.inl hopen⟩
  | cons detection detections ih =>
    cases detection with
    | none =>
      obtain ⟨hsource, hdescription, hmem⟩ := ih h
      exact ⟨hsource, hdescription, hmem.imp_right (List.mem_cons_of_mem _)⟩
    | some name =>
      rw [sectionsOfDetections] at h
      split at h
      · obtain ⟨hsource, hdescription, hmem⟩ := ih h
        exact ⟨hsource, hdescription, hmem.imp_right (List.mem_cons_of_mem _)⟩
      · rcases List.mem_append.mp h with h | h
        · obtain ⟨hsource, hdescription, hopen⟩ := hclose h
          exact ⟨hsource, hdescription, Or.inl hopen⟩
        · obtain ⟨hsource, hdescription, hopen | hmem⟩ := ih h
          -- the section was opened here
          · have hname : name = s.name := by simpa using hopen
            exact ⟨hsource, hdescription, Or.inr (hname ▸ List.mem_cons_self)⟩
          · exact ⟨hsource, hdescription, Or.inr (List.mem_cons_of_mem _ hmem)⟩

/-- **The name of a detected section** is that of a rule of the language. -/
theorem exists_of_mem_scanAuto {language? : Option Language} {lines : List Text} {s : Section}
    (h : s ∈ scanAuto language? lines) :
    s.source = .auto ∧ s.description = [] ∧
      ∃ language, language? = some language ∧ ∃ d ∈ language.detectors, d.sectionName = s.name := by
  cases language? with
  | none => exact absurd h (by simp)
  | some language =>
    obtain ⟨hsource, hdescription, hopen | hmem⟩ := exists_of_mem_sectionsOfDetections h
    · cases hopen
    · refine ⟨hsource, hdescription, language, rfl, ?_⟩
      obtain ⟨line, -, hdetect⟩ := List.mem_map.mp hmem
      obtain ⟨d, hd, hname⟩ := Option.map_eq_some_iff.mp hdetect
      exact ⟨d, List.mem_of_find?_eq_some hd, hname⟩

theorem Language.mem_all_of_ofPath? {path : Path} {language : Language}
    (h : Language.ofPath? path = some language) : language ∈ Language.all :=
  List.mem_of_find?_eq_some h

end SectionIndex
