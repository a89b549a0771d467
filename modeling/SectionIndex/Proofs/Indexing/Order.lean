import SectionIndex.Proofs.Companion.Order
import SectionIndex.Proofs.Files.Alike
import SectionIndex.Proofs.Indexing.Names
import SectionIndex.Proofs.Indexing.Shift
import SectionIndex.Proofs.Scan.Layout
import SectionIndex.Service.Payload

/-!
# The sections of an index

Whichever way the sections of a file are found, its index has at least one, all their names are
different, they come from one place and they are sorted by their first lines. Sections that are
found in the file itself also lie in the file, one after another; a table that somebody wrote may
overlap, and may name lines past the end of the file.

## Main definitions

* `IsMap` — what the lines of the sections of a file keep to.
* `FileIndex.IsSound` — what an index keeps to.

## Main statements

* `Context.isMap_of_detect` — what a file, or a companion document, gives.
* `FileIndex.IsSound.checkedPayload_eq` — a sound index is not refused as an answer.
* `Context.isSound_of_indexOf` — an index that is found is sound.
-/

namespace SectionIndex

/-! ### What is kept when sections are shown -/

/-- **What does not depend on names** is the same for renamed sections. -/
theorem Section.map_renameRepeated {α : Type} (f : Section → α)
    (hname : ∀ (s : Section) name, f { s with name := name } = f s) (taken : List Text)
    (seen : List (Text × Nat)) (sections : List Section) :
    (renameRepeated taken seen sections).map f = sections.map f := by
  induction sections generalizing taken seen with
  | nil => rfl
  | cons s sections ih =>
    rw [renameRepeated]
    split
    · rw [List.map_cons, ih, List.map_cons]
    · rw [List.map_cons, ih, List.map_cons, hname]

/-- **What does not depend on names and descriptions** is the same for the sections that are
shown. -/
theorem map_presentSections {α : Type} (f : Section → α)
    (hname : ∀ (s : Section) name, f { s with name := name } = f s)
    (hdescribe : ∀ s : Section, f s.describe = f s) (sections : List Section) :
    (presentSections sections).map f = sections.map f := by
  rw [presentSections, Section.uniqueNames, Section.map_renameRepeated f hname, List.map_map]
  exact List.map_congr_left fun s _ => hdescribe s

/-- The section that covers a file lies in it. -/
theorem isLayout_fallback {totalLines : Nat} (h : 0 < totalLines) :
    IsLayout 1 totalLines [Section.fallback totalLines] := by
  have hone : (1 : Int) ≤ totalLines := Int.ofNat_le.mpr h
  have hlast : max (totalLines : Int) 1 = totalLines := Int.max_eq_left hone
  apply IsLayout.singleton
  · exact Int.le_refl 1
  · exact Int.le_max_right _ _
  · exact Int.le_of_eq hlast

/-- **The sections of a file of `totalLines` lines:** they come from one place, they are sorted by
their first lines, and the lines of each are in order. If they are found in the file itself, they
are laid out in it. -/
structure IsMap (totalLines : Nat) (sections : List Section) : Prop where
  source_eq : ∀ s ∈ sections, ∀ t ∈ sections, s.source = t.source
  sorted : sections.Pairwise fun s t => s.first ≤ t.first
  bounds : ∀ s ∈ sections, 1 ≤ s.first ∧ s.first ≤ s.last
  layout : (∀ s ∈ sections, s.source ≠ .companion) → IsLayout 1 totalLines sections

namespace IsMap

variable {totalLines : Nat} {sections : List Section}

/-- Sections of one place that are laid out in a file. -/
theorem of_isLayout (source : Section.Source) (hsource : ∀ s ∈ sections, s.source = source)
    (h : IsLayout 1 totalLines sections) : IsMap totalLines sections where
  source_eq := fun s hs t ht => (hsource s hs).trans (hsource t ht).symm
  sorted := h.sorted
  bounds := fun s hs => ⟨(h.bounds s hs).1, (h.bounds s hs).2.1⟩
  layout := fun _ => h

/-- **The sections of a companion document.** -/
theorem of_parse {text path : Text} {document : Companion}
    (h : Companion.parse text path = .ok (some document)) :
    IsMap totalLines document.sections where
  source_eq := fun _ hs _ ht => (Companion.source_of_mem_sections h hs).trans
    (Companion.source_of_mem_sections h ht).symm
  sorted := Companion.sorted_sections h
  bounds := fun _ hs => Companion.bounds_of_mem_sections h hs
  layout := by
    intro hsource
    -- without rows there is nothing to lay out
    have hnil : document.sections = [] := by
      rw [List.eq_nil_iff_forall_not_mem]
      exact fun s hs => hsource s hs (Companion.source_of_mem_sections h hs)
    rw [hnil]
    exact IsLayout.nil _ _

/-- **The sections that are found in a file.** -/
theorem scanned (language? : Option Language) (lines : List Text) :
    IsMap lines.length (chooseSections.scanned language? lines) := by
  unfold chooseSections.scanned
  split
  · apply of_isLayout .auto
    · exact fun s hs => (exists_of_mem_scanAuto hs).1
    · exact isLayout_scanAuto language? lines
  · apply of_isLayout .explicit
    · exact fun s hs => (isCutFrom_of_mem_scanExplicit hs).1
    · exact isLayout_scanExplicit language? lines

/-- **Names and descriptions do not count.** -/
theorem presentSections (h : IsMap totalLines sections) :
    IsMap totalLines (presentSections sections) where
  source_eq := by
    intro s hs t ht
    obtain ⟨s₀, hs₀, -, -, hs⟩ := exists_of_mem_presentSections hs
    obtain ⟨t₀, ht₀, -, -, ht⟩ := exists_of_mem_presentSections ht
    rw [hs, ht]
    exact h.source_eq s₀ hs₀ t₀ ht₀
  sorted := by
    have hfirst :=
      map_presentSections Section.first (fun _ _ => rfl) Section.describe_first sections
    have hsorted := List.pairwise_map.mpr h.sorted
    rw [← hfirst] at hsorted
    exact List.pairwise_map.mp hsorted
  bounds := by
    intro s hs
    obtain ⟨s₀, hs₀, hfirst, hlast, -⟩ := exists_of_mem_presentSections hs
    rw [hfirst, hlast]
    exact h.bounds s₀ hs₀
  layout := by
    intro hsource
    -- neither renaming nor describing changes a line number, so the layout is kept
    have hsources := map_presentSections Section.source (fun _ _ => rfl) Section.describe_source
      sections
    refine (h.layout ?_).of_map_eq (map_presentSections _ (fun _ _ => rfl) ?_ sections)
    · intro s hs
      have hmem : s.source ∈ (SectionIndex.presentSections sections).map Section.source :=
        hsources ▸ List.mem_map_of_mem hs
      obtain ⟨t, ht, heq⟩ := List.mem_map.mp hmem
      exact heq ▸ hsource t ht
    · exact fun s => by rw [Section.describe_first, Section.describe_last]

/-- A file of one line at least is covered by one section if nothing else is found. -/
theorem orFallback (h : IsMap totalLines sections) (hlines : 0 < totalLines) :
    IsMap totalLines (orFallback totalLines sections) := by
  unfold SectionIndex.orFallback
  split
  · exact of_isLayout .fallback (List.forall_mem_singleton.mpr rfl)
      (isLayout_fallback hlines)
  · exact h

end IsMap

/-- **The sections of a file, however they are found.** -/
theorem Context.isMap_of_detect {context : Context} {file : Text} {lines : List Text}
    {sections : List Section} {companion : Option Companion}
    (h : context.detect file lines = .ok (sections, companion)) : IsMap lines.length sections := by
  obtain ⟨document?, hdocument, h⟩ := Fault.bind_eq_ok_iff.mp h
  obtain ⟨rfl, -⟩ := Prod.mk.inj (Except.ok.inj h)
  apply IsMap.presentSections
  cases document? with
  | none => exact IsMap.scanned _ lines
  | some document =>
    rw [chooseSections]
    by_cases hrows : document.sections ≠ []
    · rw [if_pos hrows]
      obtain ⟨text, path, hread⟩ := Host.exists_parse_of_companionOf hdocument
      exact IsMap.of_parse hread
    · rw [if_neg hrows]
      exact IsMap.scanned _ lines

/-! ### Sound indexes -/

/-- **A sound index** has a section, all its names are different, and its sections are a map of the
file. -/
structure FileIndex.IsSound (index : FileIndex) : Prop where
  sections_ne_nil : index.sections ≠ []
  nodup_names : index.names.Nodup
  isMap : IsMap index.totalLines index.sections

/-- **An index that is found is sound.** -/
theorem Context.isSound_of_indexOf {context : Context} {file content : Text} {index : FileIndex}
    (h : context.indexOf file content = .ok index) : index.IsSound := by
  obtain ⟨⟨sections, companion⟩, hdetect, h⟩ := Fault.bind_eq_ok_iff.mp h
  obtain ⟨now, -, h⟩ := Fault.bind_eq_ok_iff.mp h
  cases h
  have hlines : 0 < (Text.splitLines content).length :=
    List.length_pos_of_ne_nil (Text.splitLines_ne_nil content)
  -- the names are unique once they are renamed, and the fallback stands alone
  have hnodup : (sections.map Section.name).Nodup := by
    obtain ⟨document, -, h⟩ := Fault.bind_eq_ok_iff.mp hdetect
    cases h
    exact Section.nodup_uniqueNames _
  refine ⟨?_, ?_, (isMap_of_detect hdetect).orFallback hlines⟩
  · show orFallback (Text.splitLines content).length sections ≠ []
    unfold orFallback
    split
    · exact List.cons_ne_nil _ _
    · assumption
  · show ((orFallback (Text.splitLines content).length sections).map Section.name).Nodup
    unfold orFallback
    split
    · exact List.nodup_singleton _
    · exact hnodup

/-! ### Answers that are not refused -/

theorem Section.faultyFields_eq_nil {s : Section} (h : 1 ≤ s.first ∧ s.first ≤ s.last) :
    s.faultyFields = [] := by
  obtain ⟨hfirst, hlines⟩ := h
  have hlast : 1 ≤ s.last := Int.le_trans hfirst hlines
  have hsize : 1 ≤ s.size := by
    rw [Section.size]
    omega
  simp [faultyFields, Json.faultyNames, Json.sortNames, leastNumber, hfirst, hlast, hsize]

theorem ReadResult.faultyFields_text {s : Section} (content : Text)
    (h : 1 ≤ s.first ∧ s.first ≤ s.last) : (ReadResult.text s content).faultyFields = [] := by
  have hlast : 1 ≤ s.last := Int.le_trans h.1 h.2
  simp [faultyFields, Json.faultyNames, Json.sortNames, leastNumber, h.1, hlast]

namespace FileIndex.IsSound

variable {index : FileIndex}

/-- **A sound index is not refused** as an answer. -/
theorem checkedPayload_eq (h : index.IsSound) : index.checkedPayload = .ok index.payload := by
  have hsections : ∀ sections : List Section, (∀ s ∈ sections, 1 ≤ s.first ∧ s.first ≤ s.last) →
      (forM sections fun s => refuseFaulty s.faultyFields ()) = Except.ok PUnit.unit := by
    intro sections hbounds
    induction sections with
    | nil => rfl
    | cons s sections ih =>
      obtain ⟨hs, hbounds⟩ := List.forall_mem_cons.mp hbounds
      rw [List.forM_cons, Section.faultyFields_eq_nil hs]
      exact ih hbounds
  rw [checkedPayload, hsections index.sections h.isMap.bounds]
  rfl

/-- **No section of a sound index is refused** when it is read. -/
theorem checkedPayload_text (h : index.IsSound) {s : Section} (hs : s ∈ index.sections)
    (content : Text) :
    (ReadResult.text s content).checkedPayload = .ok (ReadResult.text s content).payload := by
  rw [ReadResult.checkedPayload, ReadResult.faultyFields_text content (h.isMap.bounds s hs)]
  rfl

end FileIndex.IsSound

/-- **Every index is sound and no answer is refused:** neither the index of a file nor what a reader
gets of it. -/
theorem Context.isSound_and_checked (context : Context) (file : Text) :
    (∀ content index, context.indexOf file content = .ok index → index.IsSound) ∧
    (∀ index, context.index file = .ok index →
      index.IsSound ∧ index.checkedPayload = .ok index.payload) ∧
    ∀ name result, context.readSection file name = .ok result →
      result.checkedPayload = .ok result.payload := by
  refine ⟨fun content index h => isSound_of_indexOf h, ?_, ?_⟩
  · intro index h
    obtain ⟨content, -, hindex⟩ := Fault.bind_eq_ok_iff.mp h
    have hsound := isSound_of_indexOf hindex
    exact ⟨hsound, hsound.checkedPayload_eq⟩
  · -- reading goes through an index of its own, which is sound for the same reason
    intro name result h
    obtain ⟨content, -, h⟩ := Fault.bind_eq_ok_iff.mp h
    obtain ⟨index, hindex, h⟩ := Fault.bind_eq_ok_iff.mp h
    have hsound := isSound_of_indexOf hindex
    cases hfind : index.find? name with
    | none =>
      rw [hfind] at h
      cases h
      rfl
    | some s =>
      rw [hfind] at h
      cases h
      exact hsound.checkedPayload_text (FileIndex.find?_eq_some hfind).1 _

/-- The index of a script with an import and a class is sound, and its second section can be
read. -/
theorem Context.isSound_and_checked_of_script :
    let file : Text := "run.py"
    let content : Text := "import os\n\nclass A(B):\n  x = 1\n"
    let context : Context := ⟨⟨⟨[([file], .file (encodeUtf8 content))]⟩, [], "/", []⟩,
      { workspaceRoot := ⟨.root, []⟩ }, ⟨2024, 2, 29, 1, 2, 3, 4, 0⟩⟩
    ∃ index result, context.index file = .ok index ∧ index.IsSound ∧
      index.checkedPayload = .ok index.payload ∧
      index.names = (["imports", "classes"] : List Text) ∧
      context.readSection file "classes" = .ok result ∧
      result.checkedPayload = .ok result.payload := by
  intro file content context
  let sections : List Section := [⟨"imports", 1, 2, "External dependencies", .auto⟩,
    ⟨"classes", 3, 4, "Class definitions", .auto⟩]
  have hload : context.host.loadFile file = .ok content :=
    Host.loadFile_of_encodeUtf8 [file] (by decide +kernel)
  have hindexOf : ∃ index, context.indexOf file content = .ok index ∧
      index.names = (["imports", "classes"] : List Text) := by
    have hdetect : context.detect file (Text.splitLines content) = .ok (sections, none) := by
      decide +kernel
    have hnow : context.utcNow = .ok context.now := by decide +kernel
    have hnames : (orFallback (Text.splitLines content).length sections).map Section.name =
        (["imports", "classes"] : List Text) := by
      decide +kernel
    exact ⟨_, Fault.bind_eq_ok_iff.mpr ⟨_, hdetect, Fault.bind_eq_ok_iff.mpr ⟨_, hnow, rfl⟩⟩,
      hnames⟩
  obtain ⟨index, hindexOf, hnames⟩ := hindexOf
  have hindex : context.index file = .ok index :=
    Fault.bind_eq_ok_iff.mpr ⟨content, hload, hindexOf⟩
  obtain ⟨result, hread⟩ : ∃ result, context.readSection file "classes" = .ok result := by
    unfold Context.readSection
    simp only [hload, hindexOf, bind, Except.bind]
    cases index.find? "classes" with
    | none => exact ⟨_, rfl⟩
    | some s => exact ⟨_, rfl⟩
  obtain ⟨-, hanswer, hreads⟩ := Context.isSound_and_checked context file
  obtain ⟨hsound, hchecked⟩ := hanswer index hindex
  exact ⟨index, result, hindex, hsound, hchecked, hnames, hread, hreads "classes" result hread⟩

end SectionIndex
