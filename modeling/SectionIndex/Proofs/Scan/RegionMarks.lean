import SectionIndex.Proofs.Pattern.Sequence
import SectionIndex.Proofs.Scan.Regions
import SectionIndex.Proofs.Text.Trim

/-!
# Region marks as authors write them

Each language with regions has one customary way to write their marks: what stands before the name
of a region, a dash before its description, and the line that ends it. The rules of the language
read back what is written so, as the name ends at the first dash: a name without a dash is read to
its end, and all after the dash is the description, whatever it holds.

## Main definitions

* `RegionMarks`, `Language.regionMarks` — the marks of a language.
* `Dash`, `Region` — the two dashes, and what an author writes for a region.
* `Region.IsWritable` — the regions whose marks say what they are meant to say.

## Main statements

* `Region.IsWritable.exists_match?` — names and descriptions are read back.
* `Language.markOf_opening`, `Language.markOf_closing` — what the marks mean.
-/

namespace SectionIndex

/-! ### Marks and regions -/

/-- **The marks of regions:** what stands before the name, and the line that ends a region. -/
structure RegionMarks where
  opening : Text
  closing : Text
  deriving DecidableEq, Repr

namespace Language

/-- The marks of the languages that have regions, by the name of the language. -/
def customaryMarks : List (Text × RegionMarks) :=
  [("ts", ⟨"//#region ", "//#endregion"⟩),
   ("python", ⟨"# region: ", "# endregion"⟩),
   ("rust", ⟨"// region: ", "// endregion"⟩),
   ("go", ⟨"// region: ", "// endregion"⟩),
   ("csharp", ⟨"#region ", "#endregion"⟩),
   ("java", ⟨"// region ", "// endregion"⟩),
   ("yaml", ⟨"# region: ", "# endregion"⟩)]

/-- **The marks of regions** in a language. -/
def regionMarks (language : Language) : RegionMarks :=
  (customaryMarks.lookup language.name).getD ⟨[], []⟩

end Language

/-- **The two dashes** that an author can put before a description. -/
inductive Dash
  | long
  | short
  deriving DecidableEq, Repr

/-- The dash, with a space on either side. -/
def Dash.text : Dash → Text
  | .long => " — "
  | .short => " - "

/-- **What an author writes for a region:** its name, a description if there is one, and the lines
in it. -/
structure Region where
  name : Text
  description : Option (Dash × Text)
  body : List Text
  deriving DecidableEq, Repr

/-- What stands after the name of a region. -/
def Region.tail (r : Region) : Text :=
  r.description.elim [] fun (dash, text) => dash.text ++ text

/-- The lines of a region: the one that opens it, those in it, and the one that ends it. -/
def Region.lines (language : Language) (r : Region) : List Text :=
  (language.regionMarks.opening ++ (r.name ++ r.tail)) :: (r.body ++ [language.regionMarks.closing])

/-- **A region whose marks say what they are meant to say:** the name has no dash in it, at which it
would end, neither it nor the description has blanks around it or a line feed in it, and the lines
in the region are no marks. Where a colon can stand before a name, the name starts with none. -/
structure Region.IsWritable (language : Language) (r : Region) : Prop where
  name_ne_nil : r.name ≠ []
  strip_name : r.name.strip = r.name
  name_clear : '\n' ∉ r.name ∧ '-' ∉ r.name ∧ '—' ∉ r.name
  head?_name : language = Language.python → r.name.head? ≠ some ':'
  description_ne_nil : ∀ d ∈ r.description, d.2 ≠ []
  strip_description : ∀ d ∈ r.description, d.2.strip = d.2
  description_clear : ∀ d ∈ r.description, '\n' ∉ d.2
  isPlain_body : ∀ line ∈ r.body, language.isPlain line = true

/-! ### Names and descriptions -/

namespace Pattern

open SectionIndex.Language (blanks gap nameAndDescription)

variable {name text tail rest : Text}

/-- A dash and a description after it, as they can follow a name. -/
def dashAndDescription : Pattern :=
  .andThen blanks
    (.andThen (firstOf [.word "—", .word "-"]) (.andThen blanks (.group 2 (.run 1 .inLine))))

/-- What can follow a name: a dash and a description, or nothing. -/
def afterName : Pattern :=
  .andThen (.optional dashAndDescription) .lineEnd

/-- One space is all the blanks there are before a character that is none. -/
theorem match?_run_blank_space {least : Nat} {c : Char} (rest : Text) (hleast : least ≤ 1)
    (hc : isBlank c = false) :
    (Pattern.run least .blank).match? (' ' :: c :: rest) = some ⟨c :: rest, []⟩ :=
  match?_run_append [' '] hleast (by decide) (by simpa [CharClass.holds] using hc)

theorem match?_blanks_none {c : Char} (rest : Text) (hc : isBlank c = false) :
    blanks.match? (c :: rest) = some ⟨c :: rest, []⟩ :=
  match?_run_append [] (Nat.zero_le _) (List.forall_mem_nil _)
    (by simpa [CharClass.holds] using hc)

theorem outcomes_firstOf_dashes (h : ∀ c ∈ rest.head?, c ≠ '—' ∧ c ≠ '-') :
    (firstOf [.word "—", .word "-"]).outcomes rest = [] := by
  cases rest with
  | nil => rfl
  | cons c rest =>
    obtain ⟨hlong, hshort⟩ := h c rfl
    simp [firstOf, outcomes, Ne.symm hlong, Ne.symm hshort]

/-- The name does not end inside itself: what is left of it starts with no dash. -/
theorem outcomes_dashAndDescription_of_name (hname : name ≠ [])
    (hlast : ∀ c ∈ name.getLast?, isBlank c = false) (hdash : '-' ∉ name ∧ '—' ∉ name) :
    dashAndDescription.outcomes (name ++ tail) = [] := by
  obtain ⟨last, hgetLast⟩ : ∃ c, name.getLast? = some c :=
    Option.isSome_iff_exists.mp (by simpa using hname)
  rw [dashAndDescription, outcomes, List.flatMap_eq_nil_iff]
  intro o ho
  obtain ⟨run, hrun, (hblank : ∀ c ∈ run, isBlank c = true)⟩ := exists_of_mem_outcomes_run ho
  rw [outcomes, outcomes_firstOf_dashes]
  · rfl
  intro c hc
  obtain ⟨left, hright, hleft⟩ | ⟨left, hright, hleft⟩ := List.append_eq_append_iff.mp hrun
  · -- the blanks would take the last character of the name
    have hmem : last ∈ run := hright ▸ List.mem_append_left _ (List.mem_of_getLast? hgetLast)
    exact absurd (hlast last hgetLast) (by simp [hblank last hmem])
  · cases left with
    | nil =>
      rw [List.append_nil] at hright
      have hmem : last ∈ run := hright ▸ List.mem_of_getLast? hgetLast
      exact absurd (hlast last hgetLast) (by simp [hblank last hmem])
    | cons d left =>
      rw [hleft] at hc
      obtain rfl := Option.some.inj hc
      have hmem : d ∈ name := hright ▸ List.mem_append_right _ List.mem_cons_self
      exact ⟨fun heq => hdash.2 (heq ▸ hmem), fun heq => hdash.1 (heq ▸ hmem)⟩

/-- The rest of a name is not all that can follow a name. -/
theorem match?_afterName_of_name (hname : name ≠ []) (hfeed : '\n' ∉ name)
    (hlast : ∀ c ∈ name.getLast?, isBlank c = false) (hdash : '-' ∉ name ∧ '—' ∉ name) :
    afterName.match? (name ++ tail) = none := by
  have hend : lineEnd.outcomes (name ++ tail) = [] := by
    refine if_neg ?_
    rintro (hnil | hfeed')
    · exact hname (List.append_eq_nil_iff.mp hnil).1
    · cases name with
      | nil => exact hname rfl
      | cons c name =>
        rw [List.cons_append, List.cons_eq_cons] at hfeed'
        exact hfeed (hfeed'.1 ▸ List.mem_cons_self)
  rw [afterName, match?_andThen, outcomes, outcomes_dashAndDescription_of_name hname hlast hdash,
    List.nil_append, List.findSome?_singleton, match?_eq_head?, hend]
  rfl

/-- A dash and a description can follow a name, and all after the dash is the description. -/
theorem match?_afterName_dash (dash : Dash) (hne : text ≠ []) (hfeed : '\n' ∉ text)
    (hhead : ∀ c ∈ text.head?, isBlank c = false) :
    afterName.match? (dash.text ++ text) = some ⟨[], [(2, ⟨text, []⟩)]⟩ := by
  -- the description goes up to the end of the line
  have hrun : (Pattern.run 1 .inLine).match? text = some ⟨[], []⟩ := by
    have hinLine : ∀ c ∈ text, CharClass.inLine.holds c = true := by
      intro c hc
      have hneq : c ≠ '\n' := fun heq => hfeed (heq ▸ hc)
      simpa [CharClass.holds] using hneq
    have hnothing : ∀ c ∈ ([] : Text).head?, CharClass.inLine.holds c = false := nofun
    have hmatch := match?_run_append text (List.length_pos_iff.mpr hne) hinLine hnothing
    rwa [List.append_nil] at hmatch
  obtain ⟨c, rest, rfl⟩ := List.exists_cons_of_ne_nil hne
  have hdescription :=
    match?_andThen_of_rest (match?_run_blank_space rest (Nat.zero_le 1) (hhead c rfl))
      (match?_group 2 hrun)
  have hdash : dashAndDescription.match? (dash.text ++ c :: rest) =
      some ⟨[], [(2, ⟨c :: rest, []⟩)]⟩ := by
    cases dash with
    | long =>
      exact match?_andThen_of_rest
        (match?_run_blank_space (c := '—') (' ' :: c :: rest) (Nat.zero_le 1) rfl)
        (match?_andThen_of_rest (match?_orElse_of_match? (match?_word_append "—" _)) hdescription)
    | short =>
      have hminus : (firstOf [.word "—", .word "-"]).match? ('-' :: ' ' :: c :: rest) =
          some ⟨' ' :: c :: rest, []⟩ := rfl
      exact match?_andThen_of_rest
        (match?_run_blank_space (c := '-') (' ' :: c :: rest) (Nat.zero_le 1) rfl)
        (match?_andThen_of_rest hminus hdescription)
  have hoptional : (optional dashAndDescription).match? (dash.text ++ c :: rest) =
      some ⟨[], [(2, ⟨c :: rest, []⟩)]⟩ := by
    rw [match?_optional, hdash]
    rfl
  exact match?_andThen_of_match? hoptional match?_lineEnd_nil

end Pattern

namespace Region

open Pattern

variable {language : Language} {r : Region}

/-- Nothing that stands after a name ends it too early, and the description is read as it is. -/
theorem IsWritable.match?_afterName (h : r.IsWritable language) : afterName.match? r.tail =
    some ⟨[], (r.description.map fun d => (2, ⟨d.2, []⟩)).toList⟩ := by
  cases hdescription : r.description with
  | none => rw [tail, hdescription]; rfl
  | some d =>
    have hmem : d ∈ r.description := hdescription
    rw [tail, hdescription]
    exact match?_afterName_dash d.1 (h.description_ne_nil d hmem) (h.description_clear d hmem)
      (Text.trim_eq_self_iff.mp (h.strip_description d hmem)).1

/-- **The name and the description of a region are read back** from what follows its mark. -/
theorem IsWritable.exists_match? (h : r.IsWritable language) :
    ∃ found, Language.nameAndDescription.match? (r.name ++ r.tail) = some found ∧
      found.group? 1 = some r.name ∧ found.group? 2 = r.description.map Prod.snd := by
  obtain ⟨hfeed, hdash⟩ := h.name_clear
  refine ⟨_, match?_shortRun_andThen (List.length_pos_iff.mpr h.name_ne_nil) ?_ ?_
    h.match?_afterName, ?_, ?_⟩
  · intro c hc
    have hne : c ≠ '\n' := fun heq => hfeed (heq ▸ hc)
    simpa [CharClass.holds] using hne
  · -- a part of the name is followed by more of it, and not by a dash or the end of the line
    intro before rest hsplit hrest _
    have hsub : rest ⊆ r.name := hsplit ▸ List.subset_append_right before rest
    refine match?_afterName_of_name hrest (fun hmem => hfeed (hsub hmem)) ?_
      ⟨fun hmem => hdash.1 (hsub hmem), fun hmem => hdash.2 (hsub hmem)⟩
    intro c hc
    refine (Text.trim_eq_self_iff.mp h.strip_name).2 c ?_
    rw [hsplit, List.getLast?_append, Option.mem_def.mp hc]
    rfl
  · cases r.description <;> simp [Outcome.group?, Span.text, List.lookup_cons]
  · cases r.description <;> simp [Outcome.group?, Span.text, List.lookup_cons]

/-- The line that opens a region ends in no blank, so no carriage return is taken off it. -/
theorem IsWritable.isBlank_getLast (h : r.IsWritable language) :
    ∀ c ∈ (r.name ++ r.tail).getLast?, isBlank c = false := by
  intro c hc
  cases hdescription : r.description with
  | none =>
    rw [tail, hdescription, Option.elim_none, List.append_nil] at hc
    exact (Text.trim_eq_self_iff.mp h.strip_name).2 c hc
  | some d =>
    have hmem : d ∈ r.description := hdescription
    have hne := h.description_ne_nil d hmem
    rw [tail, hdescription, Option.elim_some, List.getLast?_append, List.getLast?_append,
      List.getLast?_eq_some_getLast hne, Option.some_or, Option.some_or] at hc
    refine (Text.trim_eq_self_iff.mp (h.strip_description d hmem)).2 c ?_
    rw [List.getLast?_eq_some_getLast hne]
    exact hc

end Region

/-! ### The marks of a region -/

namespace Language

open Pattern

variable {language : Language} {r : Region}

theorem findIn_slashRegion_opening {c : Char} {rest : Text} {found : Outcome}
    (hspace : blanks.match? (' ' :: c :: rest) = some ⟨c :: rest, []⟩)
    (hname : nameAndDescription.match? (c :: rest) = some found) :
    slashRegion.find ("// region: " ++ c :: rest) = some found :=
  match?_andThen_of_rest (match?_word_append "//" _)
    (match?_andThen_of_rest
      (match?_run_blank_space (c := 'r') ("egion: " ++ c :: rest) (Nat.zero_le 1) rfl)
      (match?_andThen_of_rest (match?_word_append "region:" (' ' :: c :: rest))
        (match?_andThen_of_rest hspace hname)))

/-- **The rule for region starts passes over the mark** that is customary in the language, up to the
name. -/
theorem findIn_regionStart_opening (hlanguage : language ∈ all)
    (hstart : language.regionStart.isSome = true) {c : Char} (rest : Text) {found : Outcome}
    (hblank : isBlank c = false) (hcolon : language = python → c ≠ ':')
    (hname : nameAndDescription.match? (c :: rest) = some found) :
    Rule.findIn language.regionStart (language.regionMarks.opening ++ c :: rest) = some found := by
  have hspace : blanks.match? (' ' :: c :: rest) = some ⟨c :: rest, []⟩ :=
    match?_run_blank_space rest (Nat.zero_le 1) hblank
  have hgap : gap.match? (' ' :: c :: rest) = some ⟨c :: rest, []⟩ :=
    match?_run_blank_space rest (Nat.le_refl 1) hblank
  -- the parts of each rule one after another, with what they leave of the mark
  simp only [all, List.mem_cons, List.not_mem_nil, or_false] at hlanguage
  rcases hlanguage with rfl | rfl | rfl | rfl | rfl | rfl | rfl | rfl
  · -- TypeScript
    exact match?_andThen_of_rest (match?_word_append "//#region" _)
      (match?_andThen_of_rest hgap hname)
  · -- Python, where the name comes after all colons and blanks
    have hcolons : (Pattern.run 0 (.blankOr ":")).match? (':' :: ' ' :: c :: rest) =
        some ⟨c :: rest, []⟩ := by
      refine match?_run_append [':', ' '] (Nat.zero_le _) (by decide) ?_
      simpa [CharClass.holds, hblank] using hcolon rfl
    exact match?_andThen_of_rest (match?_word_append "#" _)
      (match?_andThen_of_rest
        (match?_run_blank_space (c := 'r') ("egion: " ++ c :: rest) (Nat.zero_le 1) rfl)
        (match?_andThen_of_rest (match?_word_append "region" (':' :: ' ' :: c :: rest))
          (match?_andThen_of_rest (match?_blanks_none (' ' :: c :: rest) rfl)
            (match?_andThen_of_rest hcolons hname))))
  · exact findIn_slashRegion_opening hspace hname
  · exact findIn_slashRegion_opening hspace hname
  · -- C#
    exact match?_andThen_of_rest (match?_blanks_none ("region " ++ c :: rest) rfl)
      (match?_andThen_of_rest (match?_word_append "#region" (' ' :: c :: rest))
        (match?_andThen_of_rest hgap hname))
  · -- Java
    exact match?_andThen_of_rest (match?_word_append "//" _)
      (match?_andThen_of_rest
        (match?_run_blank_space (c := 'r') ("egion " ++ c :: rest) (Nat.zero_le 1) rfl)
        (match?_andThen_of_rest (match?_word_append "region" (' ' :: c :: rest))
          (match?_andThen_of_rest hspace hname)))
  · -- YAML
    exact match?_andThen_of_rest (match?_word_append "#" _)
      (match?_andThen_of_rest
        (match?_run_blank_space (c := 'r') ("egion: " ++ c :: rest) (Nat.zero_le 1) rfl)
        (match?_andThen_of_rest (match?_word_append "region:" (' ' :: c :: rest))
          (match?_andThen_of_rest hspace hname)))
  · cases hstart

/-- **The line that opens a region** says its name and its description. -/
theorem markOf_opening (hlanguage : language ∈ all) (hstart : language.regionStart.isSome = true)
    (h : r.IsWritable language) :
    language.markOf (language.regionMarks.opening ++ (r.name ++ r.tail)) =
      .opening r.name ((r.description.map Prod.snd).getD []) := by
  obtain ⟨found, hname, hfirst, hsecond⟩ := h.exists_match?
  -- no carriage return stands at the end of the mark, so all of it is read
  have hlast : ∀ c ∈ (language.regionMarks.opening ++ (r.name ++ r.tail)).getLast?,
      (c == '\r') = false := by
    intro c hc
    have hne : r.name ++ r.tail ≠ [] := List.append_ne_nil_of_left_ne_nil h.name_ne_nil _
    rw [List.getLast?_append, List.getLast?_eq_some_getLast hne, Option.some_or] at hc
    have hblank := h.isBlank_getLast c (by rw [List.getLast?_eq_some_getLast hne]; exact hc)
    refine beq_eq_false_iff_ne.mpr ?_
    rintro rfl
    exact absurd hblank (by decide)
  have hfind : Rule.findIn language.regionStart
      (language.regionMarks.opening ++ (r.name ++ r.tail)) = some found := by
    obtain ⟨c, rest, heq⟩ := List.exists_cons_of_ne_nil h.name_ne_nil
    rw [heq, List.cons_append] at hname ⊢
    refine findIn_regionStart_opening hlanguage hstart _ ?_ ?_ hname
    · exact (Text.trim_eq_self_iff.mp h.strip_name).1 c (by rw [heq]; rfl)
    · rintro hpython rfl
      exact h.head?_name hpython (by rw [heq]; rfl)
  have hdescription : ((r.description.map Prod.snd).getD []).strip =
      (r.description.map Prod.snd).getD [] := by
    cases heq : r.description with
    | none => rfl
    | some d => exact h.strip_description d heq
  rw [markOf, Text.dropReturns, Text.trimEnd_of_getLast? hlast]
  simp only [hfind, hfirst, hsecond, Option.getD_some, h.strip_name, hdescription]

/-- **The line that ends a region** ends it. -/
theorem markOf_closing (hlanguage : language ∈ all) (hstart : language.regionStart.isSome = true) :
    language.markOf language.regionMarks.closing = .ending := by
  revert language
  decide +kernel

end Language

end SectionIndex
