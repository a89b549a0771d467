import SectionIndex.Language.Table
import SectionIndex.Proofs.Pattern.Groups
import SectionIndex.Scan.Explicit
import Mathlib.Data.List.Forall2

/-!
# The regions of a file

The scan for marked sections has one section open and ends it when a later mark says so. Which
sections it finds can be told without a state: each line that opens a section does so whatever
stands before it, and its section ends where the next line stands that means anything.

## Main definitions

* `Language.isOpening`, `Language.isEnding`, `Language.isPlain` — the three kinds of lines.
* `Language.IsTitle` — the name and the description in a line that opens a section.
* `Language.EndsOn` — where a section ends that is open after some lines.
* `Language.IsRegion` — the section that a line opens.

## Main statements

* `Language.exists_sectionsOfMarks_eq` — what the scan finds from any line on.
* `forall₂_isRegion_scanExplicit` — the sections of a file are those that its lines open.
-/

namespace SectionIndex

namespace Language

variable (language : Language)

/-! ### The kinds of lines -/

/-- **The line opens a section:** a region starts in it, or no region starts or ends in it and it is
a section marker. -/
def isOpening (line : Text) : Bool :=
  let line := Text.dropReturns line
  (Rule.findIn language.regionStart line).isSome ||
    ((Rule.findIn language.regionStart line).isNone &&
      (Rule.findIn language.regionEnd line).isNone &&
      (Rule.findIn language.sectionMarker line).isSome)

/-- **The line ends a section:** a region ends in it, and none starts. -/
def isEnding (line : Text) : Bool :=
  let line := Text.dropReturns line
  (Rule.findIn language.regionStart line).isNone && (Rule.findIn language.regionEnd line).isSome

/-- **The line means nothing:** it neither opens nor ends a section. -/
def isPlain (line : Text) : Bool :=
  !language.isOpening line && !language.isEnding line

/-- **The name and the description in a line that opens a section:** what a region start says of
them, without blanks around it. A section marker gives a name alone. -/
inductive IsTitle (line : Text) : (name description : Text) → Prop
  | region {found : Pattern.Outcome}
      (hstart : Rule.findIn language.regionStart (Text.dropReturns line) = some found) :
      IsTitle line ((found.group? 1).getD []).strip ((found.group? 2).getD []).strip
  | marker {found : Pattern.Outcome}
      (hstart : Rule.findIn language.regionStart (Text.dropReturns line) = none)
      (hend : Rule.findIn language.regionEnd (Text.dropReturns line) = none)
      (hmarker : Rule.findIn language.sectionMarker (Text.dropReturns line) = some found) :
      IsTitle line ((found.group? 1).getD []).strip []

/-- **A line that opens a section has a name for it** in every language of the table, so none is
made up. -/
theorem exists_name_of_mem_all {language : Language} (hlanguage : language ∈ all) {line : Text}
    {found : Pattern.Outcome} (h : Rule.findIn language.regionStart line = some found ∨
      Rule.findIn language.sectionMarker line = some found) :
    ∃ name, found.group? 1 = some name := by
  have hmarks : ∀ language ∈ all, ∀ rule, language.regionStart = some rule ∨
      language.sectionMarker = some rule → rule.pattern.marks 1 = true := by
    have hrules : ∀ language ∈ all, ∀ rule ∈ language.regionStart.toList ++
        language.sectionMarker.toList, rule.pattern.marks 1 = true := by decide +kernel
    intro language hlanguage rule hrule
    refine hrules language hlanguage rule ?_
    rw [List.mem_append, Option.mem_toList, Option.mem_toList]
    exact hrule
  rcases h with h | h
  all_goals
    obtain ⟨rule, hrule, hfind⟩ := Option.bind_eq_some_iff.mp h
    refine Rule.exists_group?_of_marks (hmarks language hlanguage rule ?_) hfind
  · exact Or.inl hrule
  · exact Or.inr hrule

/-- **The mark of a line** is of the kind of the line. -/
theorem markOf_cases (line : Text) :
    (∃ name description, language.markOf line = .opening name description ∧
        language.isOpening line = true ∧ language.IsTitle line name description) ∨
      (language.markOf line = .ending ∧ language.isOpening line = false ∧
        language.isEnding line = true) ∨
      (language.markOf line = .plain ∧ language.isOpening line = false ∧
        language.isPlain line = true) := by
  -- the rules are tried in this order: the start of a region, its end, the section marker
  cases hstart : Rule.findIn language.regionStart (Text.dropReturns line) with
  | some found =>
    refine Or.inl ⟨_, _, ?_, ?_, .region hstart⟩
    · rw [markOf, hstart]
    · simp [isOpening, hstart]
  | none =>
    cases hend : Rule.findIn language.regionEnd (Text.dropReturns line) with
    | some found =>
      refine Or.inr (Or.inl ⟨?_, ?_, ?_⟩)
      · rw [markOf, hstart, hend]
      · simp [isOpening, hstart, hend]
      · simp [isEnding, hstart, hend]
    | none =>
      cases hmarker : Rule.findIn language.sectionMarker (Text.dropReturns line) with
      | some found =>
        refine Or.inl ⟨_, _, ?_, ?_, .marker hstart hend hmarker⟩
        · rw [markOf, hstart, hend, hmarker]
        · simp [isOpening, hstart, hend, hmarker]
      | none =>
        refine Or.inr (Or.inr ⟨?_, ?_, ?_⟩)
        · rw [markOf, hstart, hend, hmarker]
        · simp [isOpening, hstart, hend, hmarker]
        · simp [isPlain, isOpening, isEnding, hstart, hend, hmarker]

/-- A line that means nothing has no mark. -/
theorem markOf_of_isPlain {line : Text} (h : language.isPlain line = true) :
    language.markOf line = .plain := by
  rcases language.markOf_cases line with ⟨_, _, -, hopen, -⟩ | ⟨-, -, hend⟩ | ⟨hmark, -, -⟩
  · simp [isPlain, hopen] at h
  · simp [isPlain, hend] at h
  · exact hmark

/-! ### Where sections end -/

/-- **Where a section ends that is open after `n` lines of a file:** on the next line that ends a
section, if no other one is opened before it, or else on the line before the next one is opened. If
only plain lines follow, it goes on to the last line. -/
inductive EndsOn (lines : List Text) (n : Nat) : (last : Nat) → Prop
  | ending {before after : List Text} {line : Text}
      (hlines : lines.drop n = before ++ line :: after)
      (hplain : ∀ l ∈ before, language.isPlain l = true) (hline : language.isEnding line = true) :
      EndsOn lines n (n + before.length + 1)
  | opening {before after : List Text} {line : Text}
      (hlines : lines.drop n = before ++ line :: after)
      (hplain : ∀ l ∈ before, language.isPlain l = true) (hline : language.isOpening line = true) :
      EndsOn lines n (n + before.length)
  | unended (hplain : ∀ l ∈ lines.drop n, language.isPlain l = true) : EndsOn lines n lines.length

variable {language} {lines rest : List Text} {line : Text} {n last : Nat}

/-- A line that opens a section ends none by itself. -/
theorem isEnding_of_isOpening (h : language.isOpening line = true) :
    language.isEnding line = false := by
  simp only [isOpening, Bool.or_eq_true, Bool.and_eq_true, Option.isNone_iff_eq_none] at h
  rcases h with hstart | ⟨⟨-, hend⟩, -⟩
  · simp [isEnding, Option.ne_none_iff_isSome.mpr hstart]
  · simp [isEnding, hend]

/-- The first line that means something, in a list of lines. -/
theorem takeWhile_isPlain {before : List Text} (after : List Text)
    (hplain : ∀ l ∈ before, language.isPlain l = true) (hline : language.isPlain line = false) :
    (before ++ line :: after).takeWhile language.isPlain = before := by
  rw [List.takeWhile_append_of_pos hplain, List.takeWhile_cons_of_neg (by simp [hline]),
    List.append_nil]

/-- The first line that means something says where the section ends. -/
theorem EndsOn.cases_line (h : language.EndsOn lines n last) :
    (∃ before line after, lines.drop n = before ++ line :: after ∧
        (∀ l ∈ before, language.isPlain l = true) ∧ language.isPlain line = false ∧
        last = n + before.length + if language.isEnding line then 1 else 0) ∨
      ((∀ l ∈ lines.drop n, language.isPlain l = true) ∧ last = lines.length) := by
  cases h with
  | @ending before after line hlines hplain hline =>
    exact Or.inl ⟨before, line, after, hlines, hplain, by simp [isPlain, hline], by simp [hline]⟩
  | @opening before after line hlines hplain hline =>
    exact Or.inl ⟨before, line, after, hlines, hplain, by simp [isPlain, hline],
      by simp [isEnding_of_isOpening hline]⟩
  | unended hplain => exact Or.inr ⟨hplain, rfl⟩

/-- **A section ends on one line only.** -/
theorem EndsOn.unique {last' : Nat} (h : language.EndsOn lines n last)
    (h' : language.EndsOn lines n last') : last = last' := by
  rcases h.cases_line with ⟨before, line, after, hlines, hplain, hline, rfl⟩ | ⟨hplain, rfl⟩
  · rcases h'.cases_line with ⟨before', line', after', hlines', hplain', hline', rfl⟩ |
      ⟨hplain', rfl⟩
    · -- both are the first line that means something
      have hfirst := takeWhile_isPlain after hplain hline
      have hfirst' := takeWhile_isPlain after' hplain' hline'
      rw [← hlines] at hfirst
      rw [← hlines', hfirst] at hfirst'
      obtain rfl := hfirst'
      obtain ⟨rfl, -⟩ := List.cons.inj (List.append_cancel_left (hlines.symm.trans hlines'))
      rfl
    · have hmem : line ∈ lines.drop n := by rw [hlines]; simp
      -- one of them is the last line of the file, where only plain lines follow
      rw [hplain' line hmem] at hline
      cases hline
  · rcases h'.cases_line with ⟨before', line', after', hlines', -, hline', rfl⟩ | ⟨-, rfl⟩
    · have hmem : line' ∈ lines.drop n := by rw [hlines']; simp
      rw [hplain line' hmem] at hline'
      cases hline'
    · rfl

theorem drop_succ_of_drop_eq_cons (h : lines.drop n = line :: rest) :
    lines.drop (n + 1) = rest := by
  rw [← List.drop_drop, h, List.drop_one, List.tail_cons]

theorem EndsOn.of_isOpening (hlines : lines.drop n = line :: rest)
    (hline : language.isOpening line = true) : language.EndsOn lines n n :=
  .opening (hlines.trans (List.nil_append _).symm) (List.forall_mem_nil _) hline

theorem EndsOn.of_isEnding (hlines : lines.drop n = line :: rest)
    (hline : language.isEnding line = true) : language.EndsOn lines n (n + 1) :=
  .ending (hlines.trans (List.nil_append _).symm) (List.forall_mem_nil _) hline

/-- A plain line does not end the section that is open before it. -/
theorem EndsOn.of_isPlain (hlines : lines.drop n = line :: rest)
    (hline : language.isPlain line = true) (h : language.EndsOn lines (n + 1) last) :
    language.EndsOn lines n last := by
  have hrest := drop_succ_of_drop_eq_cons hlines
  -- the plain line is one more of those before the end, whichever of the three that is
  cases h with
  | @ending before after end' hlines' hplain hend =>
    rw [hrest] at hlines'
    rw [hlines'] at hlines
    have hlast : n + 1 + before.length + 1 = n + (line :: before).length + 1 := by
      rw [List.length_cons]
      omega
    rw [hlast]
    exact .ending hlines (List.forall_mem_cons.mpr ⟨hline, hplain⟩) hend
  | @opening before after open' hlines' hplain hopen =>
    rw [hrest] at hlines'
    rw [hlines'] at hlines
    have hlast : n + 1 + before.length = n + (line :: before).length := by
      rw [List.length_cons]
      omega
    rw [hlast]
    exact .opening hlines (List.forall_mem_cons.mpr ⟨hline, hplain⟩) hopen
  | unended hplain =>
    refine .unended ?_
    rw [hrest] at hplain
    rw [hlines]
    exact List.forall_mem_cons.mpr ⟨hline, hplain⟩

variable (language)

/-- **The section that a line opens**, given the line and its number: it starts there, has the name
and the description of that line, and ends where sections end that are open after it. -/
structure IsRegion (lines : List Text) (opened : Text × Nat) (s : Section) : Prop where
  first_eq : s.first = opened.2
  isTitle : language.IsTitle opened.1 s.name s.description
  exists_last : ∃ last : Nat, s.last = last ∧
    ∀ n, language.EndsOn lines opened.2 n ↔ n = last
  source_eq : s.source = .explicit

/-- **The section that is open after `n` lines**, ended where it ends. -/
def IsClosed (lines : List Text) (n : Nat) (o : OpenSection) (s : Section) : Prop :=
  ∃ last, language.EndsOn lines n last ∧ s = o.close last

variable {language}

theorem forall₂_closeAt (current : Option OpenSection) (h : language.EndsOn lines n last) :
    List.Forall₂ (language.IsClosed lines n) current.toList (closeAt current last) := by
  cases current with
  | none => exact List.Forall₂.nil
  | some o => exact List.Forall₂.cons ⟨last, h, rfl⟩ List.Forall₂.nil

/-- **What the scan finds from any line on:** the open section, ended where the lines that follow
end it, and the sections that these lines open. -/
theorem exists_sectionsOfMarks_eq (hlines : lines.drop n = rest)
    (hlength : n + rest.length = lines.length) (current : Option OpenSection) :
    ∃ closed opened,
      sectionsOfMarks current (n + 1) (rest.map language.markOf) = closed ++ opened ∧
      List.Forall₂ (language.IsClosed lines n) current.toList closed ∧
      List.Forall₂ (language.IsRegion lines)
        ((rest.zipIdx (n + 1)).filter fun l => language.isOpening l.1) opened := by
  -- by induction on the lines that are left; what they do with the open section is kept apart from
  -- the sections that they open, as only these have a line of their own among them
  induction rest generalizing n current with
  | nil =>
    have hend : language.EndsOn lines n n := by
      obtain rfl : n = lines.length := hlength
      refine .unended ?_
      rw [hlines]
      exact List.forall_mem_nil _
    exact ⟨closeAt current n, [], (List.append_nil _).symm, forall₂_closeAt current hend,
      List.Forall₂.nil⟩
  | cons line rest ih =>
    have hlength' : n + 1 + rest.length = lines.length := by
      rw [← hlength, List.length_cons]
      omega
    have hrest := ih (drop_succ_of_drop_eq_cons hlines) hlength'
    rw [List.map_cons, List.zipIdx_cons, List.filter_cons]
    rcases language.markOf_cases line with ⟨name, description, hmark, hopen, htitle⟩ |
      ⟨hmark, hopen, hend⟩ | ⟨hmark, hopen, hplain⟩
    · -- the section that is open ends on the line before, and another one is open from here on
      obtain ⟨closed, opened, heq, hclosed, hopened⟩ := hrest (some ⟨name, description, n + 1⟩)
      obtain ⟨s, _, ⟨last, hlast, rfl⟩, hnil, rfl⟩ := List.forall₂_cons_left_iff.mp hclosed
      obtain rfl := List.forall₂_nil_left_iff.mp hnil
      refine ⟨closeAt current n,
        (⟨name, description, n + 1⟩ : OpenSection).close last :: opened, ?_,
        forall₂_closeAt current (.of_isOpening hlines hopen), ?_⟩
      · rw [hmark, sectionsOfMarks, heq]
        rfl
      · rw [if_pos hopen]
        -- the section that was open in the rest is the one of this line
        have hlasts : ∀ k, language.EndsOn lines (n + 1) k ↔ k = last :=
          fun k => ⟨fun hk => hk.unique hlast, fun hk => hk ▸ hlast⟩
        exact List.Forall₂.cons ⟨rfl, htitle, ⟨last, rfl, hlasts⟩, rfl⟩ hopened
    · -- the section that is open ends on this line
      obtain ⟨closed, opened, heq, hclosed, hopened⟩ := hrest none
      obtain rfl := List.forall₂_nil_left_iff.mp hclosed
      refine ⟨closeAt current (n + 1), opened, ?_,
        forall₂_closeAt current (.of_isEnding hlines hend), ?_⟩
      · rw [hmark, sectionsOfMarks, heq]
        rfl
      · rw [if_neg (by simp [hopen])]
        exact hopened
    · -- the section that is open ends where it would after this line
      obtain ⟨closed, opened, heq, hclosed, hopened⟩ := hrest current
      refine ⟨closed, opened, ?_, ?_, ?_⟩
      · rw [hmark, sectionsOfMarks, heq]
      · refine hclosed.imp ?_
        rintro o s ⟨last, hlast, rfl⟩
        exact ⟨last, hlast.of_isPlain hlines hplain, rfl⟩
      · rw [if_neg (by simp [hopen])]
        exact hopened

end Language

/-- **The sections that an author has marked in a file** are those that its lines open, one for each
such line and in the order of these lines. -/
theorem forall₂_isRegion_scanExplicit (language : Language) (lines : List Text) :
    List.Forall₂ (language.IsRegion lines)
      ((lines.zipIdx 1).filter fun l => language.isOpening l.1)
      (scanExplicit (some language) lines) := by
  rw [scanExplicit]
  by_cases hmarkers : language.hasMarkers = true
  · have hlines : lines.drop 0 = lines := rfl
    obtain ⟨closed, opened, heq, hclosed, hopened⟩ :=
      Language.exists_sectionsOfMarks_eq hlines (Nat.zero_add _) none
    obtain rfl := List.forall₂_nil_left_iff.mp hclosed
    rw [if_pos hmarkers, heq]
    exact hopened
  · -- a language without marks has no line that opens a section
    have hnone : language.regionStart = none ∧ language.sectionMarker = none := by
      simpa [Language.hasMarkers] using hmarkers
    have hplain : ∀ line, language.isOpening line = false := by
      intro line
      simp [Language.isOpening, hnone]
    rw [if_neg hmarkers, List.filter_eq_nil_iff.mpr fun l _ => by simp [hplain]]
    exact List.Forall₂.nil

end SectionIndex
