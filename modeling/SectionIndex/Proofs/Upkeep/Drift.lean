import SectionIndex.Proofs.Scan.Regions
import SectionIndex.Proofs.Upkeep.Below
import SectionIndex.Proofs.Upkeep.Marks
import SectionIndex.Proofs.Upkeep.Verify

/-!
# What a check finds after lines were put in

New lines below the block of a file leave the block as it is and move what stands after them. If
they are no marks, the sections that an author has marked keep their names, and those that start
behind the place of the new lines start as much later as there are new lines. So a check of an index
that was right finds that just these have drifted, if they moved by more than it tolerates, and it
finds nothing else.

## Main definitions

* `driftBehind` — the drift of the sections behind new lines.

## Main statements

* `openings_insert` — the openings of marks with others among them that open nothing.
* `map_start_scanExplicit_insert` — sections start later behind lines that were put in.
* `driftIssues_of_map_start` — which sections have drifted from the rows they agreed with.
* `Context.exists_verify_insertLines` — what a check finds after lines were put in.
-/

namespace SectionIndex

open Section (shiftLine uniqueNames)

/-! ### Sections behind new lines -/

theorem Language.isPlain_congr {language : Language} {line line' : Text}
    (h : Text.dropReturns line = Text.dropReturns line') :
    language.isPlain line = language.isPlain line' := by
  unfold isPlain isOpening isEnding
  simp only [h]

/-- **Marks behind new ones** open their sections as many lines later as there are new ones, and
those before them where they did, if no new one opens a section. -/
theorem openings_insert (before : List Mark) {inner after : List Mark} {k : Nat}
    (hinner : ∀ mark ∈ inner, ¬ mark.Opens) (hlength : inner.length = k ∨ after = []) :
    openings 1 (before ++ (inner ++ after)) = (openings 1 (before ++ after)).map fun o =>
      (o.1, shiftLine (before.length + 1) k o.2) := by
  have hbefore : (openings 1 before).map (fun o => (o.1, shiftLine (before.length + 1) k o.2)) =
      openings 1 before := map_shiftLine_openings_of_le _ (by omega)
  -- if fewer lines were put in than that, no mark stands behind them
  have hafter : openings (1 + before.length + inner.length) after =
      (openings (1 + before.length) after).map fun o =>
        (o.1, shiftLine (before.length + 1) k o.2) := by
    rcases hlength with rfl | rfl
    · rw [openings_add, map_shiftLine_openings_of_ge _ _ (by omega)]
    · rfl
  rw [openings_append, openings_append, (openings_eq_nil_iff _ _).mpr hinner, List.nil_append,
    hafter, openings_append, List.map_append, hbefore]

/-- **Sections behind new lines** that open no section start as many lines later as there are new
ones; they keep their names, and so do those before the new lines. -/
theorem map_start_scanExplicit_insert {language? : Option Language} (before : List Text)
    {inner after : List Text} {k : Nat}
    (hinner : ∀ language ∈ language?, ∀ line ∈ inner, ¬ (language.markOf line).Opens)
    (hlength : inner.length = k ∨ after = []) :
    (scanExplicit language? (before ++ (inner ++ after))).map Section.start =
      (scanExplicit language? (before ++ after)).map fun s =>
        (s.name, shiftLine (before.length + 1) k s.first) := by
  cases language? with
  | none => rfl
  | some language =>
    by_cases hmarkers : language.hasMarkers = true
    · have hopenings := openings_insert (before.map language.markOf)
        (List.forall_mem_map.mpr (hinner language rfl))
        (hlength.imp (List.length_map _).trans (congrArg (List.map language.markOf)))
      rw [List.length_map] at hopenings
      rw [map_start_scanExplicit hmarkers, List.map_append, List.map_append, hopenings,
        ← List.map_append, ← map_start_scanExplicit hmarkers, List.map_map]
      rfl
    · unfold scanExplicit
      simp only [hmarkers]
      rfl

/-! ### What has drifted -/

variable {rows : List Block.Row} {sections others : List Section}

/-- **Which sections have drifted** from the rows that say where they were: those that moved by more
than is tolerated. None of them is missing, as they have the names that they had. -/
theorem driftIssues_of_map_start (f : Int → Int) (tolerance : Int)
    (hrows : driftIssues rows sections 0 = [])
    (h : others.map Section.start = sections.map fun s => (s.name, f s.first)) :
    driftIssues rows others tolerance =
      (sections.filter fun s => tolerance < (s.first - f s.first).natAbs).map fun s =>
        .lineDrift s.name s.first (f s.first) := by
  -- by induction on the sections, the others along with them: each has the row of the old one
  induction sections generalizing others with
  | nil =>
    rw [List.map_eq_nil_iff.mp h]
    rfl
  | cons s sections ih =>
    obtain ⟨t, others, rfl, ht, hothers⟩ := List.map_eq_cons_iff.mp h
    obtain ⟨hname, hfirst⟩ := Prod.mk.inj ht
    rw [driftIssues_eq_nil_iff, List.forall_mem_cons] at hrows
    obtain ⟨⟨row, hrow, hdrift⟩, hrest⟩ := hrows
    have hfirstRow : row.first = s.first := by omega
    have hrest := ih (driftIssues_eq_nil_iff.mpr hrest) hothers
    unfold driftIssues at hrest ⊢
    simp only [List.filterMap_cons, hname, hrow, hfirst, hfirstRow]
    by_cases hmoved : tolerance < (s.first - f s.first).natAbs
    · rw [List.filter_cons_of_pos (by simpa using hmoved), List.map_cons, ← hrest]
      simp only [hmoved, if_true]
    · rw [List.filter_cons_of_neg (by simpa using hmoved), ← hrest]
      simp only [hmoved, if_false]

/-- The sections that a shift moves by more than is tolerated are those behind the place of the new
lines, if there are more new lines than that. -/
theorem filter_lt_natAbs_shiftLine {number : Int} {k : Nat} {tolerance : Int}
    (htolerance : 0 ≤ tolerance) :
    (sections.filter fun s => tolerance < (s.first - shiftLine number k s.first).natAbs) =
      if tolerance < k then sections.filter (number ≤ ·.first) else [] := by
  have hmoved : ∀ n : Int, tolerance < (n - shiftLine number k n).natAbs ↔
      tolerance < k ∧ number ≤ n := by
    intro n
    by_cases hn : number ≤ n
    · rw [Section.shiftLine_of_le _ hn]
      omega
    · rw [Section.shiftLine_of_lt _ (Int.not_le.mp hn)]
      omega
  simp only [hmoved]
  split
  · next hlt => simp [hlt]
  · next hlt => simp [hlt]

/-- **The drift of the sections behind new lines**, of which there are `k` before line `number`. -/
def driftBehind (number k : Nat) (sections : List Section) : List Issue :=
  (sections.filter fun s => (number : Int) ≤ s.first).map fun s =>
    .lineDrift s.name s.first (s.first + k)

theorem driftBehind_eq_nil_iff {number k : Nat} :
    driftBehind number k sections = [] ↔ ∀ s ∈ sections, s.first < number := by
  rw [driftBehind, List.map_eq_nil_iff, List.filter_eq_nil_iff]
  simp only [decide_eq_true_eq, Int.not_le]

/-- The rows of lines that stand in a file stand in a longer one. -/
theorem rangeIssues_eq_nil_mono {totalLines totalLines' : Nat}
    (h : rangeIssues rows totalLines = []) (hle : totalLines ≤ totalLines') :
    rangeIssues rows totalLines' = [] := by
  rw [rangeIssues_eq_nil_iff] at h ⊢
  intro row hrow
  obtain ⟨hfirst, hlast⟩ := h row hrow
  omega

/-- **What is wrong with rows that were right** after lines were put into the file that are no
marks: the sections behind them have drifted, if there are more new lines than is tolerated. -/
theorem contentIssues_insertLines {language? : Option Language} {content newline : Text}
    {new : List Text} {number : Nat} {tolerance : Int}
    (hissues : contentIssues rows language? content 0 = []) (hnewline : newline.IsLineEnd)
    (hne : new ≠ []) (hnew : ∀ line ∈ new, '\n' ∉ line) (hfirst : 1 < number)
    (hlast : number ≤ (Text.splitLines content).length + 1)
    (hplain : ∀ language ∈ language?, ∀ line ∈ new, language.isPlain line = true)
    (htolerance : 0 ≤ tolerance) :
    contentIssues rows language? (Text.insertLines newline new number content) tolerance =
      if tolerance < new.length then
        driftBehind number new.length
          (uniqueNames (scanExplicit language? (Text.splitLines content)))
      else [] := by
  obtain ⟨before, inner, after, hnumber, hold, hlines, hinner, hlength⟩ :=
    Text.exists_splitLines_insertLines hnewline hne hnew hfirst hlast
  obtain ⟨hrange, hdrift⟩ := List.append_eq_nil_iff.mp hissues
  -- the lines in the file are the new ones but for carriage returns, of which no rule takes notice
  have hopens : ∀ language ∈ language?, ∀ line ∈ inner, ¬ (language.markOf line).Opens := by
    intro language hlanguage line hline
    obtain ⟨l, hl, heq⟩ := hinner line hline
    refine Mark.not_opens_of_eq_plain (Language.markOf_of_isPlain language ?_)
    rw [Language.isPlain_congr heq]
    exact hplain language hlanguage l hl
  have hstart := Section.map_start_uniqueNames (shiftLine (before.length + 1) new.length)
    (map_start_scanExplicit_insert before hopens hlength)
  have hcast : ((before.length : Int) + 1) = number := by omega
  rw [← hold, ← hlines, hcast] at hstart
  -- a row in the range of the shorter file is in that of the longer one
  have hlonger : (Text.splitLines content).length ≤
      (Text.splitLines (Text.insertLines newline new number content)).length := by
    rw [hold, hlines]
    simp only [List.length_append]
    omega
  unfold contentIssues
  simp only
  rw [rangeIssues_eq_nil_mono hrange hlonger, List.nil_append,
    driftIssues_of_map_start _ tolerance hdrift hstart, filter_lt_natAbs_shiftLine htolerance]
  split
  · -- every section that is left starts behind the place of the new lines
    refine List.map_congr_left fun s hs => ?_
    have hbehind : (number : Int) ≤ s.first := by simpa using (List.mem_filter.mp hs).2
    rw [Section.shiftLine_of_le _ hbehind]
  · rfl

/-! ### The check -/

/-- **A check finds exactly what has drifted.** If the index of a file is right, and lines that are
no marks are put in below its block, then a check finds each section that started at the place of
the new lines or behind it as many lines later as there are new ones, if that is more than it
tolerates, and nothing else. -/
theorem Context.exists_verify_insertLines {context later : Context} {file content newline : Text}
    {b : Block} {check : VerifyResult} {new : List Text} {number : Nat} {tolerance : Option Int}
    (hload : context.host.loadFile file = .ok content)
    (hparse : Block.parse content = .ok (some b))
    (hstart : b.start = 0 ∨ b.start = (Block.interpreterLine content).length)
    (hverify : context.verify file (some 0) = .ok check) (hvalid : check.valid = true)
    (hbelow : b.lastLine < number) (hlast : number ≤ (Text.splitLines content).length + 1)
    (hnewline : newline.IsLineEnd) (hne : new ≠ []) (hnew : ∀ line ∈ new, '\n' ∉ line)
    (hplain : ∀ language ∈ Language.ofPath? (Path.ofText file), ∀ line ∈ new,
      language.isPlain line = true)
    (hlater : later.host.loadFile file = .ok (Text.insertLines newline new number content))
    (htolerance : 0 ≤ tolerance.getD later.settings.driftTolerance) :
    let sections := uniqueNames
      (scanExplicit (Language.ofPath? (Path.ofText file)) (Text.splitLines content))
    ∃ result, later.verify file tolerance = .ok result ∧
      result.issues = (if tolerance.getD later.settings.driftTolerance < new.length then
        driftBehind number new.length sections else []) ∧
      (result.valid = true ↔ new.length ≤ tolerance.getD later.settings.driftTolerance ∨
        ∀ s ∈ sections, s.first < number) := by
  intro sections
  rw [Context.verify_of_parse hload hparse] at hverify
  obtain rfl := Except.ok.inj hverify
  have hissues := VerifyResult.valid_ofIssues_iff.mp hvalid
  obtain ⟨-, -, hfirst, hlines⟩ := Block.exists_of_parse hparse
  rw [Context.verify_of_parse hlater
      (Block.parse_insertLines hparse hstart hnewline hnew hbelow),
    contentIssues_insertLines hissues hnewline hne hnew (by omega) hlast hplain htolerance]
  refine ⟨_, rfl, rfl, ?_⟩
  rw [VerifyResult.valid_ofIssues_iff, ite_eq_right_iff, driftBehind_eq_nil_iff, ← Int.not_lt,
    ← imp_iff_not_or]

/-- Three lines that are put in before a region move it by more than two lines. -/
theorem Context.exists_verify_insertLines_of_region :
    let file : Text := "a.py"
    let content : Text := "#!/usr/bin/env python\n# @ai-index\n# | a | 6 | 8 | 3 | x |\n" ++
      "# @end-ai-index\n\n# region: a\nx = 1\n# endregion\n"
    let new : List Text := ["y = 1", [], "z = 2\r"]
    let holding (t : Text) : Context := ⟨⟨⟨[([file], .file (encodeUtf8 t))]⟩, [], "/", []⟩,
      { workspaceRoot := ⟨.root, []⟩ }, ⟨2024, 2, 29, 1, 2, 3, 4, 0⟩⟩
    ∃ b check result, Block.parse content = .ok (some b) ∧
      b.start = (Block.interpreterLine content).length ∧ b.lastLine < 6 ∧
      (holding content).verify file (some 0) = .ok check ∧ check.valid = true ∧
      (∀ language ∈ Language.ofPath? (Path.ofText file), ∀ line ∈ new,
        language.isPlain line = true) ∧
      (holding (Text.insertLines ['\n'] new 6 content)).verify file (some 2) = .ok result ∧
      result.issues = [.lineDrift "a" 6 9] ∧ result.valid = false := by
  intro file content new holding
  have hload : ∀ t, (holding t).host.loadFile file = .ok t := fun t =>
    Host.loadFile_of_encodeUtf8 [file] rfl
  let b : Block :=
    { raw := "# @ai-index\n# | a | 6 | 8 | 3 | x |\n# @end-ai-index"
      style := .hash, start := 22, stop := 73, firstLine := 2, lastLine := 4
      rows := [⟨"a", 6, 8, 3, "x"⟩], generatedAt := none, totalLines := none }
  have hparse : Block.parse content = .ok (some b) := by decide +kernel
  have hsections : uniqueNames (scanExplicit (Language.ofPath? (Path.ofText file))
      (Text.splitLines content)) = [⟨"a", 6, 8, [], .explicit⟩] := by decide +kernel
  have hplain : ∀ language ∈ Language.ofPath? (Path.ofText file), ∀ line ∈ new,
      language.isPlain line = true := by decide +kernel
  have hright : contentIssues b.rows (Language.ofPath? (Path.ofText file)) content 0 = [] := by
    decide +kernel
  have hverify := Context.verify_of_parse (hload content) hparse (some 0)
  have hvalid : (VerifyResult.ofIssues file (contentIssues b.rows
      (Language.ofPath? (Path.ofText file)) content 0)).valid = true :=
    VerifyResult.valid_ofIssues_iff.mpr hright
  have hstart : b.start = (Block.interpreterLine content).length := by decide +kernel
  have hlater := hload (Text.insertLines ['\n'] new 6 content)
  have htolerance : (0 : Int) ≤ (some 2).getD (holding content).settings.driftTolerance := by decide
  obtain ⟨result, hresult, hissues, hfound⟩ :=
    Context.exists_verify_insertLines (hload content) hparse (Or.inr hstart) hverify hvalid
      (by decide) (by decide +kernel) (Or.inl rfl) (by decide) (by decide) hplain hlater htolerance
  rw [hsections] at hissues hfound
  refine ⟨b, _, result, hparse, hstart, by decide, hverify, hvalid, hplain, hresult, hissues, ?_⟩
  rw [Bool.eq_false_iff, ne_eq, hfound]
  decide

end SectionIndex
