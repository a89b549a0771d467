import SectionIndex.Indexing.Resolve
import SectionIndex.Proofs.Companion.Document
import SectionIndex.Proofs.Scan.Names
import SectionIndex.Proofs.Section.Unique
import SectionIndex.Proofs.Text.Numeral

/-!
# The texts of the sections of a file

A section is shown with a number after its name if the name is used before, and with the customary
description of its name if it has none of its own. So whatever holds of the names that are found, of
the customary texts and of numbered names holds of all texts of an index.

## Main statements

* `forall_presentSections` — what holds of the texts of all sections that are shown.
* `forall_scanned` — what holds of the texts of all sections that are found in the file itself.
* `Context.lineFeed_not_mem_of_detect` — no text of a section has a line feed in it.
-/

namespace SectionIndex

/-- The name and the description are such texts. -/
def Section.HasTexts (P : Text → Prop) (s : Section) : Prop :=
  P s.name ∧ P s.description

variable {P : Text → Prop} {sections : List Section}

/-- **The customary descriptions** are those that are listed, or nothing. -/
theorem customary_lookup (hcustomary : ∀ entry ∈ Section.customary, P entry.2) (hnil : P [])
    (name : Text) : P ((Section.customary.lookup name).getD []) := by
  cases hlookup : Section.customary.lookup name with
  | none => exact hnil
  | some description =>
    obtain ⟨before, after, hmem, -⟩ := List.lookup_eq_some_iff.mp hlookup
    exact hcustomary (name, description) (by simp [hmem])

/-- **What holds of the texts of sections** holds of them when they are shown. -/
theorem forall_presentSections (hnumbered : ∀ name n, P name → P (Section.numbered name n))
    (hcustomary : ∀ entry ∈ Section.customary, P entry.2) (hnil : P [])
    (h : ∀ s ∈ sections, s.HasTexts P) : ∀ s ∈ presentSections sections, s.HasTexts P := by
  intro s hs
  -- the name is that of a section, perhaps with a number, and the description is its own or a
  -- customary one
  obtain ⟨s₁, hs₁, heq, hname⟩ := Section.exists_of_mem_uniqueNames hs
  obtain ⟨s₀, hs₀, rfl⟩ := List.mem_map.mp hs₁
  obtain ⟨hname₀, hdescription₀⟩ := h s₀ hs₀
  have hdescription : P s₀.describe.description := by
    unfold Section.describe
    split
    · exact customary_lookup hcustomary hnil s₀.name
    · exact hdescription₀
  rw [Section.describe_name] at hname
  refine ⟨?_, heq ▸ hdescription⟩
  rcases hname with hname | ⟨n, hname⟩
  · exact hname ▸ hname₀
  · exact hname ▸ hnumbered _ _ hname₀

/-- **What holds of the names of rules** holds of the texts of all detected sections, which have no
descriptions. -/
theorem forall_scanAuto {path : Path} {lines : List Text} (hnil : P [])
    (hrules : ∀ language ∈ Language.all, ∀ d ∈ language.detectors, P d.sectionName) :
    ∀ s ∈ scanAuto (Language.ofPath? path) lines, s.HasTexts P := by
  intro s hs
  obtain ⟨-, hdescription, language, hlanguage, d, hd, hname⟩ := exists_of_mem_scanAuto hs
  exact ⟨hname ▸ hrules language (Language.mem_all_of_ofPath? hlanguage) d hd,
    hdescription ▸ hnil⟩

/-- **What holds of the texts cut out of lines** and of the names of rules holds of the texts of all
sections that are found in a file. -/
theorem forall_scanned {path : Path} {lines : List Text} (hnil : P [])
    (hcut : ∀ line ∈ lines, ∀ t, IsCutFrom line t → P t)
    (hrules : ∀ language ∈ Language.all, ∀ d ∈ language.detectors, P d.sectionName) :
    ∀ s ∈ chooseSections.scanned (Language.ofPath? path) lines, s.HasTexts P := by
  intro s hs
  unfold chooseSections.scanned at hs
  split at hs
  · exact forall_scanAuto hnil hrules s hs
  · obtain ⟨-, line, hline, hname, hdescription⟩ := isCutFrom_of_mem_scanExplicit hs
    exact ⟨hcut line hline _ hname, hcut line hline _ hdescription⟩

theorem forall_orFallback {totalLines : Nat}
    (hfallback : (Section.fallback totalLines).HasTexts P) (h : ∀ s ∈ sections, s.HasTexts P) :
    ∀ s ∈ orFallback totalLines sections, s.HasTexts P := by
  unfold orFallback
  split
  · intro s hs
    rw [List.mem_singleton.mp hs]
    exact hfallback
  · exact h

/-- A companion document is read from some text. -/
theorem Host.exists_parse_of_companionOf {host : Host} {file : Text} {document : Companion}
    (h : host.companionOf file = .ok (some document)) :
    ∃ text path, Companion.parse text path = .ok (some document) := by
  obtain ⟨place, -, h⟩ := Fault.bind_eq_ok_iff.mp h
  cases place with
  | none => cases h
  | some place =>
    simp only [Host.readCompanion] at h
    split at h
    · cases h
    · split at h
      · split at h
        · next text _ => exact ⟨_, _, h⟩
        · cases h
      · cases h

/-- The number after a name is made of a hyphen and digits. -/
theorem not_mem_numbered {name : Text} {c : Char} (n : Nat) (hhyphen : c ≠ '-')
    (hdigit : c.isDigit = false) (h : c ∉ name) : c ∉ Section.numbered name n := by
  intro hmem
  rcases List.mem_append.mp hmem with hmem | hmem
  · exact h hmem
  · rcases List.mem_cons.mp hmem with hmem | hmem
    · exact hhyphen hmem
    · exact not_mem_ofNat hdigit hmem

/-- No section is found whose name or description has a line feed in it. -/
theorem Context.lineFeed_not_mem_of_detect {context : Context} {file content : Text}
    {companion : Option Companion}
    (h : context.detect file (Text.splitLines content) = .ok (sections, companion)) :
    ∀ s ∈ sections, s.HasTexts ('\n' ∉ ·) := by
  obtain ⟨document, hdocument, h⟩ := Fault.bind_eq_ok_iff.mp h
  cases h
  have hnumbered : ∀ name n, '\n' ∉ name → '\n' ∉ Section.numbered name n :=
    fun _ n => not_mem_numbered n (by decide) (by decide)
  have hscanned : ∀ s ∈ chooseSections.scanned (Language.ofPath? (Path.ofText file))
      (Text.splitLines content), s.HasTexts ('\n' ∉ ·) := by
    refine forall_scanned (by decide) (fun line hline t ht hmem => ?_) (by decide +kernel)
    exact Text.lineFeed_not_mem_of_mem_splitLines hline (ht.subset hmem)
  refine forall_presentSections hnumbered (by decide +kernel) (by decide) ?_
  -- the sections come from the companion document or from the lines of the file; both are cut into
  -- lines first
  unfold chooseSections
  split
  · next document =>
    split
    · intro s hs
      obtain ⟨text, path, hread⟩ := Host.exists_parse_of_companionOf hdocument
      obtain ⟨hname, hdescription⟩ := Companion.isUnbroken_of_mem_sections hread hs
      exact ⟨hname.lineFeed_not_mem, hdescription.lineFeed_not_mem⟩
    · exact hscanned
  · exact hscanned

/-! ### Trimmed texts -/

theorem strip_numbered {name : Text} (n : Nat) (h : name.strip = name) :
    (Section.numbered name n).strip = Section.numbered name n := by
  obtain ⟨hhead, -⟩ := Text.trim_eq_self_iff.mp h
  -- a name without blanks at its ends keeps its start and gets a digit at its end
  refine Text.trim_of_ends (fun c hc => ?_) (fun c hc => ?_)
  · cases name with
    | nil =>
      obtain rfl : '-' = c := by simpa [Section.numbered] using hc
      rfl
    | cons d name => exact hhead c hc
  · have hdigits : Text.ofNat n ≠ [] := ofNat_ne_nil n
    have hlast : (Section.numbered name n).getLast? = (Text.ofNat n).getLast? := by
      obtain ⟨d, rest, hd⟩ := List.exists_cons_of_ne_nil hdigits
      rw [Section.numbered, hd, List.getLast?_append, List.getLast?_cons_cons, List.getLast?_cons]
      rfl
    rw [hlast] at hc
    exact isBlank_of_isDigit (isDigit_of_mem_ofNat (List.mem_of_getLast? hc))

/-- **The texts of all sections that are found in a file are trimmed.** -/
theorem strip_of_mem_presentSections {path : Path} {lines : List Text} :
    ∀ s ∈ presentSections (chooseSections.scanned (Language.ofPath? path) lines),
      s.HasTexts fun t => t.strip = t :=
  forall_presentSections (fun _ n => strip_numbered n) (by decide +kernel) rfl
    (forall_scanned rfl (fun _ _ _ ht => ht.strip_eq) (by decide +kernel))

end SectionIndex
