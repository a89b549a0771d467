import SectionIndex.CommandLine.Glob
import SectionIndex.Proofs.CommandLine.Batch

/-!
# Files that are named again

Arguments of the command line are paths of files and patterns. Whatever they are, each of their
files comes out once: a later path that leads to the same place is left out. The files that come out
are paths again, and can be arguments themselves. A path is taken as it is, so this gives the same
files in the same order, unless a path has a character in it with which it is a pattern: what such a
path stands for as an argument is not up to the file it was found for.

## Main definitions

* `Host.AreNew` — regular files that lead to places that are not known yet.
* `Host.StandsForItself` — a path that is a pattern of its file and of files that follow it or are
  known.

## Main statements

* `Host.exists_areNew_of_expandFrom` — what comes out of arguments.
* `Host.expandFrom_map_toText` — what comes out of the files themselves.
* `Host.expandPatterns_expandPatterns` — the expansion of arguments is idempotent.
-/

namespace SectionIndex

namespace Host

/-! ### What comes out of arguments -/

/-- **Regular files that are new**, given where those lead that are known before, and then where
those lead that are known after them. -/
inductive AreNew (host : Host) : (known : List Path) → (files : List Path) → List Path → Prop
  | nil (known : List Path) : host.AreNew known [] known
  | cons {known known' files : List Path} {file place : Path} (isProper : file.IsProper)
      (isFile : host.isFile file = .ok true) (leads : host.resolve file = .ok place)
      (isNew : place ∉ known) (rest : host.AreNew (place :: known) files known') :
      host.AreNew known (file :: files) known'

variable {host : Host} {known known' known'' files files' : List Path} {file place : Path}
  {arguments missing paths : List Text}

namespace AreNew

theorem append (h : host.AreNew known files known') (h' : host.AreNew known' files' known'') :
    host.AreNew known (files ++ files') known'' := by
  induction h with
  | nil known => exact h'
  | cons isProper isFile leads isNew rest ih => exact cons isProper isFile leads isNew (ih h')

theorem isFile_of_mem (h : host.AreNew known files known') (hfile : file ∈ files) :
    host.isFile file = .ok true := by
  induction h with
  | nil known => cases hfile
  | cons isProper isFile leads isNew rest ih =>
    rcases List.mem_cons.mp hfile with rfl | hfile
    · exact isFile
    · exact ih hfile

/-- Each of the files leads to a place that was not known before. -/
theorem exists_resolve_of_mem (h : host.AreNew known files known') (hfile : file ∈ files) :
    ∃ place, host.resolve file = .ok place ∧ place ∉ known := by
  induction h with
  | nil known => cases hfile
  | cons isProper isFile leads isNew rest ih =>
    rcases List.mem_cons.mp hfile with rfl | hfile
    · exact ⟨_, leads, isNew⟩
    · obtain ⟨place, hplace, hnew⟩ := ih hfile
      exact ⟨place, hplace, fun hknown => hnew (List.mem_cons_of_mem _ hknown)⟩

/-- **No two of the files lead to one place.** -/
theorem pairwise_resolve_ne (h : host.AreNew known files known') :
    files.Pairwise fun first second => host.resolve first ≠ host.resolve second := by
  induction h with
  | nil known => exact List.Pairwise.nil
  | cons isProper isFile leads isNew rest ih =>
    refine List.pairwise_cons.mpr ⟨fun second hsecond heq => ?_, ih⟩
    obtain ⟨place, hplace, hnew⟩ := rest.exists_resolve_of_mem hsecond
    obtain rfl := Except.ok.inj ((leads.symm.trans heq).trans hplace)
    exact hnew List.mem_cons_self

end AreNew

/-- **The files among paths** that are new. -/
theorem areNew_of_newFiles (h : host.newFiles known paths = .ok (files, known')) :
    host.AreNew known files known' := by
  -- by induction on the paths: a file is new if its place was not known before
  induction paths generalizing known files known' with
  | nil =>
    cases h
    exact .nil known
  | cons t paths ih =>
    obtain ⟨found, hfound, h⟩ := Fault.bind_eq_ok_iff.mp h
    cases found with
    | false => exact ih h
    | true =>
      obtain ⟨place, hplace, h⟩ := Fault.bind_eq_ok_iff.mp h
      split at h
      · exact ih h
      · next hnew =>
        obtain ⟨⟨files, known'⟩, hrest, h⟩ := Fault.bind_eq_ok_iff.mp h
        cases h
        refine .cons (Path.isProper_ofText t) hfound hplace ?_ (ih hrest)
        rwa [List.contains_iff_mem] at hnew

/-- **The files of arguments** are new. -/
theorem exists_areNew_of_expandFrom (h : host.expandFrom known arguments = .ok (files, missing)) :
    ∃ known', host.AreNew known files known' := by
  induction arguments generalizing known files missing with
  | nil =>
    cases h
    exact ⟨known, .nil known⟩
  | cons argument arguments ih =>
    obtain ⟨paths, -, h⟩ := Fault.bind_eq_ok_iff.mp h
    split at h
    · obtain ⟨⟨files, missing⟩, hrest, h⟩ := Fault.bind_eq_ok_iff.mp h
      cases h
      exact ih hrest
    · obtain ⟨⟨found, known'⟩, hfound, h⟩ := Fault.bind_eq_ok_iff.mp h
      obtain ⟨⟨files, missing⟩, hrest, h⟩ := Fault.bind_eq_ok_iff.mp h
      cases h
      obtain ⟨known'', hfiles⟩ := ih hrest
      exact ⟨known'', (areNew_of_newFiles hfound).append hfiles⟩

/-! ### Where files lead -/

/-- The places where the files lead, the latest first. -/
def placesOf (host : Host) (files : List Path) : List Path :=
  (files.filterMap fun file => (host.resolve file).toOption).reverse

namespace AreNew

/-- After new files, the places that are known are theirs and those that were known before. -/
theorem eq_placesOf_append (h : host.AreNew known files known') :
    known' = host.placesOf files ++ known := by
  induction h with
  | nil known => rfl
  | cons isProper isFile leads isNew rest ih =>
    rw [ih, placesOf, placesOf, List.filterMap_cons, leads]
    simp [Except.toOption]

theorem eq_placesOf (h : host.AreNew [] files known') : known' = host.placesOf files := by
  rw [h.eq_placesOf_append, List.append_nil]

/-- Of new files, the first ones are new, and the others are new after them. -/
theorem exists_of_append (h : host.AreNew known (files ++ files') known'') :
    ∃ known', host.AreNew known files known' ∧ host.AreNew known' files' known'' := by
  induction files generalizing known with
  | nil => exact ⟨known, .nil known, h⟩
  | cons file files ih =>
    cases h with
    | cons isProper isFile leads isNew rest =>
      obtain ⟨known', hfiles, hfiles'⟩ := ih rest
      exact ⟨known', .cons isProper isFile leads isNew hfiles, hfiles'⟩

/-- What was known stays known, and where the files lead is known after them. -/
theorem mem_known' (h : host.AreNew known files known') :
    (∀ place ∈ known, place ∈ known') ∧
      ∀ file ∈ files, ∀ place, host.resolve file = .ok place → place ∈ known' := by
  induction h with
  | nil known => exact ⟨fun _ hplace => hplace, fun _ hfile => nomatch hfile⟩
  | cons isProper isFile leads isNew rest ih =>
    obtain ⟨hknown, hfiles⟩ := ih
    refine ⟨fun place hplace => hknown place (List.mem_cons_of_mem _ hplace), ?_⟩
    intro file hfile place hplace
    rcases List.mem_cons.mp hfile with rfl | hfile
    · obtain rfl := Except.ok.inj (leads.symm.trans hplace)
      exact hknown _ List.mem_cons_self
    · exact hfiles file hfile place hplace

end AreNew

/-- **Where more is known, less is new:** of the files among paths, those that lead to a known place
are left out. -/
theorem newFiles_of_subset {seen seen' skipped fresh : List Path}
    (h : host.newFiles known paths = .ok (skipped ++ fresh, known'))
    (hsub : ∀ place ∈ known, place ∈ seen)
    (hskipped : ∀ file ∈ skipped, ∀ place, host.resolve file = .ok place → place ∈ seen)
    (hfresh : host.AreNew seen fresh seen') :
    host.newFiles seen paths = .ok (fresh, seen') := by
  -- by induction on the paths: `seen` has the places of `known` and those of the files to skip
  induction paths generalizing known seen skipped fresh with
  | nil =>
    obtain ⟨hnil, -⟩ := Prod.mk.inj (Except.ok.inj h)
    obtain ⟨rfl, rfl⟩ := List.append_eq_nil_iff.mp hnil.symm
    cases hfresh
    rfl
  | cons t paths ih =>
    rw [newFiles] at h ⊢
    obtain ⟨found, hfound, h⟩ := Fault.bind_eq_ok_iff.mp h
    refine Fault.bind_eq_ok_iff.mpr ⟨found, hfound, ?_⟩
    cases found with
    | false => exact ih h hsub hskipped hfresh
    | true =>
      obtain ⟨place, hplace, h⟩ := Fault.bind_eq_ok_iff.mp h
      refine Fault.bind_eq_ok_iff.mpr ⟨place, hplace, ?_⟩
      by_cases hknown : place ∈ known
      · rw [if_pos (List.contains_iff_mem.mpr hknown)] at h
        rw [if_pos (List.contains_iff_mem.mpr (hsub place hknown))]
        exact ih h hsub hskipped hfresh
      rw [if_neg (fun hcontains => hknown (List.contains_iff_mem.mp hcontains))] at h
      obtain ⟨⟨rest, known''⟩, hrest, h⟩ := Fault.bind_eq_ok_iff.mp h
      obtain ⟨hfiles, rfl⟩ := Prod.mk.inj (Except.ok.inj h)
      -- the path is the first of the new files: it is skipped, or it is the first of the others
      cases skipped with
      | cons file skipped =>
        obtain ⟨rfl, rfl⟩ := List.cons.inj hfiles
        have hseen : place ∈ seen := hskipped _ List.mem_cons_self place hplace
        rw [if_pos (List.contains_iff_mem.mpr hseen)]
        refine ih hrest ?_ (fun file hfile => hskipped file (List.mem_cons_of_mem _ hfile)) hfresh
        exact List.forall_mem_cons.mpr ⟨hseen, hsub⟩
      | nil =>
        obtain rfl : fresh = _ := hfiles.symm
        cases hfresh with
        | @cons _ _ _ _ here isProper isFile leads isNew hfresh =>
          obtain rfl : here = _ := Except.ok.inj (leads.symm.trans hplace)
          rw [if_neg fun hcontains => isNew (List.contains_iff_mem.mp hcontains)]
          have hrest : host.newFiles (here :: known) paths = .ok ([] ++ rest, known'') := hrest
          have hsub : ∀ p ∈ here :: known, p ∈ here :: seen := by
            intro p hp
            rcases List.mem_cons.mp hp with rfl | hp
            · exact List.mem_cons_self
            · exact List.mem_cons_of_mem _ (hsub p hp)
          have hnew := ih hrest hsub (fun _ hfile => nomatch hfile) hfresh
          exact Fault.bind_eq_ok_iff.mpr ⟨_, hnew, rfl⟩

/-! ### What comes out of the files themselves -/

/-- **The path of a file stands for it** in a list, given the files before it and after it. As an
argument it may be a pattern of other files too; but those that lead to places of the files before
it do not count again, and what is left is the file itself and then the next files of the list. -/
def StandsForItself (host : Host) (before : List Path) (file : Path) (after : List Path) : Prop :=
  ∃ paths more known', host.matchesOf file.toText = .ok paths ∧
    host.newFiles (host.placesOf before) paths = .ok (file :: more, known') ∧ more <+: after

/-- A path that is no pattern stands for the file and nothing else. -/
theorem standsForItself_of_plain {before after : List Path}
    (hplain : ¬ Wildcard.isMagic file.toText = true) (hproper : file.IsProper)
    (hfile : host.isFile file = .ok true) (hplace : host.resolve file = .ok place)
    (hnew : place ∉ host.placesOf before) : host.StandsForItself before file after := by
  obtain ⟨found, bytes, hlookup⟩ := exists_of_isFile hfile
  have hfind : host.find file = .ok (some (found, .file bytes)) := by
    rw [find, hlookup]
  refine ⟨[file.toText], [], place :: host.placesOf before, ?_, ?_, List.nil_prefix⟩
  · rw [matchesOf, if_neg hplain, hproper.ofText_toText, hfind]
    rfl
  · have hcontains : (host.placesOf before).contains place = false := by
      rw [← Bool.not_eq_true, List.contains_iff_mem]
      exact hnew
    simp only [newFiles, hproper.ofText_toText, hfile, hplace, hcontains, bind, Except.bind,
      if_true]
    rfl

/-- What lies in front of two lists has a part in front of the first, and if that is not all, the
rest is in front of the second. -/
theorem exists_of_prefix_append {front first second : List Path} (h : front <+: first ++ second) :
    ∃ skipped fresh, front = skipped ++ fresh ∧ skipped <+: first ∧ fresh <+: second := by
  rcases List.prefix_or_prefix_of_prefix h (List.prefix_append first second) with
    hfirst | ⟨fresh, rfl⟩
  · exact ⟨front, [], (List.append_nil front).symm, hfirst, List.nil_prefix⟩
  · exact ⟨first, fresh, rfl, List.prefix_rfl, (List.prefix_append_right_inj first).mp h⟩

/-- **The files that came out of arguments** come out of their own paths, by induction on the paths
that are left. The files before them are through; the files `ahead` came out of a pattern already,
and `pending` are the ones that are still to come. -/
theorem expandFrom_map_toText {before ahead pending later seen : List Path}
    (hlater : ahead ++ pending = later) (hbefore : host.AreNew [] before known)
    (hahead : host.AreNew known ahead seen) (hpending : host.AreNew seen pending known')
    (hown : ∀ passed file after, later = passed ++ file :: after →
      host.StandsForItself (before ++ passed) file after) :
    host.expandFrom seen (later.map Path.toText) = .ok (pending, []) := by
  -- by induction on the files that are left; those ahead were found with an earlier pattern
  induction later generalizing before ahead pending known seen with
  | nil =>
    obtain ⟨rfl, rfl⟩ := List.append_eq_nil_iff.mp hlater
    rfl
  | cons file later ih =>
    obtain ⟨paths, more, found, hmatches, hfound, hmore⟩ := hown [] file later rfl
    rw [List.append_nil, ← hbefore.eq_placesOf] at hfound
    -- what comes out of the path is a front of the files that are left
    have hfront : file :: more <+: ahead ++ pending := by
      rw [hlater]
      exact List.cons_prefix_cons.mpr ⟨rfl, hmore⟩
    obtain ⟨skipped, fresh, hsplit, hskipped, pending, rfl⟩ := exists_of_prefix_append hfront
    obtain ⟨seen', hfresh, hpending⟩ := hpending.exists_of_append
    rw [hsplit] at hfound
    have hnew : host.newFiles seen paths = .ok (fresh, seen') :=
      newFiles_of_subset hfound hahead.mem_known'.1
        (fun other hother => hahead.mem_known'.2 other (hskipped.subset hother)) hfresh
    have hpaths : paths ≠ [] := by
      rintro rfl
      obtain ⟨hnil, -⟩ := Prod.mk.inj (Except.ok.inj hfound)
      rw [← hsplit] at hnil
      nomatch hnil
    -- with it the file is through, and what is fresh is ahead
    obtain ⟨ahead', hahead', hrest⟩ : ∃ ahead', ahead ++ fresh = file :: ahead' ∧
        ahead' ++ pending = later := by
      rw [← List.append_assoc] at hlater
      cases hcons : ahead ++ fresh with
      | nil =>
        obtain ⟨rfl, rfl⟩ := List.append_eq_nil_iff.mp hcons
        rw [List.prefix_nil.mp hskipped] at hsplit
        nomatch hsplit
      | cons other ahead' =>
        rw [hcons] at hlater
        obtain ⟨rfl, hrest⟩ := List.cons.inj hlater
        exact ⟨ahead', rfl, hrest⟩
    have hboth := hahead.append hfresh
    rw [hahead'] at hboth
    cases hboth with
    | @cons _ _ _ _ place isProper isFile leads isNew hahead =>
      have hfile : host.AreNew known [file] (place :: known) :=
        .cons isProper isFile leads isNew (.nil _)
      have hrest := ih hrest (hbefore.append hfile) hahead hpending fun passed other after h => by
        rw [List.append_assoc]
        exact hown (file :: passed) other after (congrArg (file :: ·) h)
      cases paths with
      | nil => exact absurd rfl hpaths
      | cons t paths =>
        rw [List.map_cons, Host.expandFrom]
        simp only [hmatches, hnew, hrest, bind, Except.bind]
        rfl

/-- **The expansion of arguments is idempotent.** What comes out of arguments are regular files, no
two of which lead to one place. If each of their paths that is a pattern stands for its file in the
list, the paths give the same files again, and none of them is missing. -/
theorem expandPatterns_expandPatterns (h : host.expandPatterns arguments = .ok (files, missing)) :
    (∀ file ∈ files, host.isFile file = .ok true ∧ ∃ place, host.resolve file = .ok place) ∧
      (files.Pairwise fun first second => host.resolve first ≠ host.resolve second) ∧
      ((∀ before file after, files = before ++ file :: after →
          Wildcard.isMagic file.toText = true → host.StandsForItself before file after) →
        host.expandPatterns (files.map Path.toText) = .ok (files, [])) := by
  obtain ⟨known', hfiles⟩ := exists_areNew_of_expandFrom h
  refine ⟨fun file hfile => ⟨hfiles.isFile_of_mem hfile, ?_⟩, hfiles.pairwise_resolve_ne, ?_⟩
  · obtain ⟨place, hplace, -⟩ := hfiles.exists_resolve_of_mem hfile
    exact ⟨place, hplace⟩
  · intro hown
    refine expandFrom_map_toText (List.nil_append files) (.nil []) (.nil []) hfiles ?_
    rintro before file after rfl
    by_cases hmagic : Wildcard.isMagic file.toText = true
    · exact hown before file after rfl hmagic
    · obtain ⟨known, hbefore, hafter⟩ := hfiles.exists_of_append
      cases hafter with
      | cons isProper isFile leads isNew hafter =>
        rw [hbefore.eq_placesOf] at isNew
        exact standsForItself_of_plain hmagic isProper isFile leads isNew

/-- A file has a star for a name, so its path is a pattern of the other file too. That one comes
next in the list, and a link to it does not count. -/
theorem expandPatterns_expandPatterns_of_star :
    let host : Host := ⟨⟨[(["*.py"], .file []), (["a.py"], .file []),
      (["b.py"], .link "a.py")]⟩, [], "/", []⟩
    let files : List Path := [⟨.here, ["*.py"]⟩, ⟨.here, ["a.py"]⟩]
    host.expandPatterns ["?.py", "x.py"] = .ok (files, ["x.py"]) ∧
      (∀ before file after, files = before ++ file :: after →
        Wildcard.isMagic file.toText = true → host.StandsForItself before file after) ∧
      host.expandPatterns (["*.py", "a.py"] : List Text) = .ok (files, []) := by
  intro host files
  let paths : List Text := ["*.py", "a.py", "b.py"]
  have hsorted : paths.mergeSort Text.isAtMost = paths :=
    List.mergeSort_of_pairwise (by decide)
  have hmatches (pattern : Text) (hmagic : Wildcard.isMagic pattern = true)
      (hglob : host.glob pattern = .ok paths) : host.matchesOf pattern = .ok paths := by
    rw [matchesOf, if_pos hmagic, hglob]
    exact congrArg Except.ok hsorted
  have hquestion : host.matchesOf "?.py" = .ok paths := hmatches _ (by decide) (by decide +kernel)
  have hstar : host.matchesOf "*.py" = .ok paths := hmatches _ (by decide) (by decide +kernel)
  have hmissing : host.matchesOf "x.py" = .ok [] := by decide +kernel
  have hfound : host.newFiles [] paths = .ok (files, [⟨.root, ["a.py"]⟩, ⟨.root, ["*.py"]⟩]) := by
    decide +kernel
  have hexpand : host.expandPatterns ["?.py", "x.py"] = .ok (files, ["x.py"]) := by
    rw [expandPatterns, expandFrom, hquestion]
    simp only [hfound, bind, Except.bind, paths]
    rw [expandFrom, hmissing]
    rfl
  have hown : ∀ before file after, files = before ++ file :: after →
      Wildcard.isMagic file.toText = true → host.StandsForItself before file after := by
    intro before file after hfiles hmagic
    cases before with
    | nil =>
      obtain ⟨rfl, rfl⟩ := List.cons.inj hfiles
      exact ⟨_, _, _, hstar, hfound, List.prefix_rfl⟩
    | cons first before =>
      -- no other path is a pattern
      have hmem : file ∈ [(⟨.here, ["a.py"]⟩ : Path)] := by
        rw [show [(⟨.here, ["a.py"]⟩ : Path)] = before ++ file :: after from
          (List.cons.inj hfiles).2]
        exact List.mem_append_right _ List.mem_cons_self
      rw [List.mem_singleton.mp hmem] at hmagic
      exact absurd hmagic (by decide)
  exact ⟨hexpand, hown, (expandPatterns_expandPatterns hexpand).2.2 hown⟩

/-- **A path with brackets in it is not always that of its own file:** the path of the only file
here is a pattern of another name, and as an argument it stands for nothing. -/
theorem expandPatterns_brackets :
    let host : Host := ⟨⟨[(["a[1].py"], .file [])]⟩, [], "/", []⟩
    let files : List Path := [⟨.here, ["a[1].py"]⟩]
    host.expandPatterns ["*.py"] = .ok (files, []) ∧
      host.expandPatterns (files.map Path.toText) = .ok ([], ["a[1].py"]) ∧
      host.expandPatterns (files.map Path.toText) ≠ .ok (files, []) := by
  intro host files
  have hagain : host.expandPatterns (files.map Path.toText) = .ok ([], ["a[1].py"]) := by
    decide +kernel
  refine ⟨by decide +kernel, hagain, ?_⟩
  rw [hagain]
  decide

end Host

end SectionIndex
