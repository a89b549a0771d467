import SectionIndex.CommandLine.Run
import SectionIndex.Proofs.Files.Linkless
import SectionIndex.Proofs.Service.Question
import SectionIndex.Proofs.Upkeep.Generate

/-!
# Files that are handled together

Each file of a batch is read as the files before it leave the host. Writing an index changes a file
with a language, so never the companion document of another file; removing one can change any file,
but it reads no companion documents. So where there are no links, what comes of a file is the same
whatever was done to others before, and the order of the batch does not matter.

## Main definitions

* `Host.LeadApart`, `Host.AreFiles` — paths to different files.
* `Context.after` — the host after one file was handled.
* `Context.outcomes` — what comes of each file on the same host.
* `Context.IsIsolated` — what comes of a batch is what comes of each of its files alone.

## Main statements

* `Context.outcomeOf_after` — what comes of a file does not depend on a file before it.
* `Context.performAll_eq_outcomes` — what comes of a batch, from what comes of each file.
* `Context.isIsolated_of_areFiles` — the files of a batch have no influence on each other.
* `Context.isIsolated_and_eq_of_perm` — nor has their order.
-/

namespace SectionIndex

/-! ### Paths to different files -/

namespace Host

/-- **The paths lead to different files.** -/
def LeadApart (host : Host) (first second : Path) : Prop :=
  ∃ place bytes place' bytes', host.lookup first = .found place (.file bytes) ∧
    host.lookup second = .found place' (.file bytes') ∧ place ≠ place'

/-- **Paths to files**, no two of which are the same. -/
structure AreFiles (host : Host) (paths : List Path) : Prop where
  isProper : ∀ path ∈ paths, path.IsProper
  isFile : ∀ path ∈ paths, host.isFile path = .ok true
  distinct : paths.Pairwise fun first second => host.lookup first ≠ host.lookup second

variable {host other : Host} {path first second : Path} {paths paths' : List Path}

theorem exists_of_isFile (h : host.isFile path = .ok true) :
    ∃ place bytes, host.lookup path = .found place (.file bytes) := by
  unfold isFile findFile find at h
  cases hlookup : host.lookup path with
  | found place entry =>
    rw [hlookup] at h
    cases entry with
    | file bytes => exact ⟨place, bytes, rfl⟩
    | directory => cases h
    | link target => cases h
  | missing => rw [hlookup] at h; cases h
  | nameTooLong => rw [hlookup] at h; cases h
  | linkLoop => rw [hlookup] at h; cases h

theorem leadApart_of_ne (hfirst : host.isFile first = .ok true)
    (hsecond : host.isFile second = .ok true) (hne : host.lookup first ≠ host.lookup second) :
    host.LeadApart first second := by
  obtain ⟨place, bytes, hlookup⟩ := exists_of_isFile hfirst
  obtain ⟨place', bytes', hlookup'⟩ := exists_of_isFile hsecond
  refine ⟨place, bytes, place', bytes', hlookup, hlookup', ?_⟩
  rintro rfl
  -- one place has one content
  have hbytes := (get?_of_lookup hlookup).symm.trans (get?_of_lookup hlookup')
  exact hne (by rw [hlookup, hlookup', Option.some.inj hbytes])

theorem LeadApart.symm (h : host.LeadApart first second) : host.LeadApart second first := by
  obtain ⟨place, bytes, place', bytes', hfirst, hsecond, hne⟩ := h
  exact ⟨place', bytes', place, bytes, hsecond, hfirst, hne.symm⟩

/-- **Writing into a file** leaves the other one as it is. -/
theorem LeadApart.lookup_overwrite (h : host.LeadApart first second) (new : Text) :
    (host.overwrite first new).lookup second = host.lookup second := by
  obtain ⟨place, bytes, place', bytes', hfirst, hsecond, hne⟩ := h
  refine lookup_eq_of_isAlike (isAlike_overwrite host first new) fun found found' hfound => ?_
  obtain rfl : place' = found := by
    rw [hsecond] at hfound
    cases hfound
    rfl
  rw [get?_overwrite hfirst, if_neg hne.symm]

/-- **Two files can be written in any order.** -/
theorem LeadApart.overwrite_comm (h : host.LeadApart first second) (new new' : Text) :
    (host.overwrite first new).overwrite second new' =
      (host.overwrite second new').overwrite first new := by
  have hsecond := h.lookup_overwrite new
  have hfirst := h.symm.lookup_overwrite new'
  obtain ⟨place, bytes, place', bytes', hplace, hplace', hne⟩ := h
  have hentry := FileTree.lookup_of_get?_file (get?_of_lookup hplace)
  have hentry' := FileTree.lookup_of_get?_file (get?_of_lookup hplace')
  rw [overwrite, hsecond, hplace', overwrite.eq_def (host.overwrite second new'), hfirst, hplace,
    overwrite, hplace, overwrite, hplace']
  simp only [put, FileTree.put]
  rw [FileTree.putEntry_comm hne hentry hentry']

theorem LeadApart.overwriteIf_comm (h : host.LeadApart first second) (new new' : Option Text) :
    (host.overwriteIf first new).overwriteIf second new' =
      (host.overwriteIf second new').overwriteIf first new := by
  cases new with
  | none => rfl
  | some new =>
    cases new' with
    | none => rfl
    | some new' => exact h.overwrite_comm new new'

theorem isAlike_overwriteIf (host : Host) (path : Path) (new : Option Text) :
    host.IsAlike (host.overwriteIf path new) := by
  cases new with
  | none => exact ⟨FileTree.IsAlike.refl _, rfl, rfl, rfl⟩
  | some new => exact isAlike_overwrite host path new

/-! ### Batches of files -/

theorem AreFiles.tail (h : host.AreFiles (path :: paths)) : host.AreFiles paths where
  isProper path hpath := h.isProper path (List.mem_cons_of_mem _ hpath)
  isFile path hpath := h.isFile path (List.mem_cons_of_mem _ hpath)
  distinct := (List.pairwise_cons.mp h.distinct).2

theorem AreFiles.leadApart (h : host.AreFiles (first :: paths)) (hsecond : second ∈ paths) :
    host.LeadApart first second :=
  leadApart_of_ne (h.isFile first List.mem_cons_self)
    (h.isFile second (List.mem_cons_of_mem _ hsecond))
    ((List.pairwise_cons.mp h.distinct).1 second hsecond)

theorem AreFiles.perm (h : host.AreFiles paths) (hperm : paths.Perm paths') :
    host.AreFiles paths' where
  isProper path hpath := h.isProper path (hperm.mem_iff.mpr hpath)
  isFile path hpath := h.isFile path (hperm.mem_iff.mpr hpath)
  distinct := hperm.pairwise h.distinct Ne.symm

/-- Different files are so whatever is written in them. -/
theorem AreFiles.of_isAlike (h : host.AreFiles paths) (halike : host.IsAlike other) :
    other.AreFiles paths where
  isProper := h.isProper
  isFile path hpath := by rw [isFile_of_isAlike halike, h.isFile path hpath]
  distinct := by
    refine h.distinct.imp_of_mem fun {first second} hfirst hsecond hne => ?_
    obtain ⟨place, bytes, place', bytes', hlookup, hlookup', hplaces⟩ :=
      leadApart_of_ne (h.isFile first hfirst) (h.isFile second hsecond) hne
    obtain ⟨new, hnew⟩ := halike.tree.get?_eq_file (get?_of_lookup hlookup)
    obtain ⟨new', hnew'⟩ := halike.tree.get?_eq_file (get?_of_lookup hlookup')
    rw [lookup_of_isAlike halike, lookup_of_isAlike halike, hlookup, hlookup', Lookup.seenIn,
      Lookup.seenIn, hnew, hnew']
    intro heq
    cases heq
    exact hplaces rfl

end Host

/-! ### The language of a companion document -/

/-- A name with the suffix of documents has no other suffix. -/
theorem Path.splitSuffix_document (t : Text) :
    (splitSuffix (t ++ ".md")).2 = ".md" ∨ (splitSuffix (t ++ ".md")).2 = [] := by
  have hextension : ((t ++ ".md").reverse.takeWhile (· != '.')).reverse = ['m', 'd'] := by
    rw [List.reverse_append]
    rfl
  unfold splitSuffix
  simp only
  rw [hextension]
  -- a dot at the start of the name separates nothing
  split
  · exact Or.inl rfl
  · exact Or.inr rfl

namespace Language

variable {path : Path}

/-- **Documents have no language.** -/
theorem ofPath?_document {t : Text} (h : path.name = t ++ ".md") : ofPath? path = none := by
  unfold ofPath? Path.suffix
  rw [h]
  rcases Path.splitSuffix_document t with hsuffix | hsuffix
  · rw [hsuffix]
    decide
  · rw [hsuffix]
    decide

theorem ofPath?_of_suffix (h : path.suffix = []) : ofPath? path = none := by
  unfold ofPath?
  rw [h]
  decide

/-- A file with a language has a name, and it is not a double dot. -/
theorem name_ne_of_ofPath? {language : Language} (h : ofPath? path = some language) :
    path.name ≠ [] ∧ path.name ≠ ['.', '.'] := by
  have hsuffix : path.suffix ≠ [] := fun hsuffix => by
    rw [ofPath?_of_suffix hsuffix] at h
    cases h
  -- neither name has a suffix
  exact ⟨fun hname => hsuffix (by rw [Path.suffix, hname]; decide),
    fun hname => hsuffix (by rw [Path.suffix, hname]; decide)⟩

end Language

namespace Path

variable {path : Path}

theorem IsProper.slash_not_mem_name (h : path.IsProper) : '/' ∉ path.name := by
  unfold Path.name
  cases hlast : path.names.getLast? with
  | none => exact List.not_mem_nil
  | some name => exact (h name (List.mem_of_getLast? hlast)).2.2

theorem stem_subset_name (path : Path) : path.stem ⊆ path.name := by
  have happend : path.stem ++ path.suffix = path.name := splitSuffix_append path.name
  exact happend ▸ List.subset_append_left _ _

theorem IsProper.child_document (h : path.IsProper) {t : Text} (ht : '/' ∉ t) :
    (path.child (t ++ ".md")).IsProper := by
  refine h.child (by simp) ?_ (by simp [ht])
  intro hdot
  have hlength := congrArg List.length hdot
  simp at hlength

end Path

/-- **Companion documents are looked for under the names of documents.** -/
theorem Companion.of_mem_candidates {file companion : Path} (hfile : file.IsProper)
    (h : companion ∈ candidates file) :
    companion.IsProper ∧ ∃ t, companion.name = t ++ ".md" := by
  have hname := hfile.slash_not_mem_name
  have hdirectory : (file.parent.child directoryName).IsProper :=
    hfile.parent.child (by decide) (by decide) (by decide)
  have hbeside : file.name ++ ".ai.md" = (file.name ++ ".ai") ++ ".md" := by
    rw [List.append_assoc]
    rfl
  unfold candidates at h
  rcases List.mem_cons.mp h with rfl | h
  · rw [hbeside]
    exact ⟨hfile.parent.child_document (by simp [hname]), _, Path.name_child _ _⟩
  rcases List.mem_cons.mp h with rfl | h
  · exact ⟨hdirectory.child_document hname, _, Path.name_child _ _⟩
  · obtain rfl := List.mem_singleton.mp h
    have hstem : '/' ∉ file.stem := fun hslash => hname (file.stem_subset_name hslash)
    exact ⟨hdirectory.child_document hstem, _, Path.name_child _ _⟩

/-! ### One file after another -/

/-- Files are counted in any order. -/
theorem Summary.record_comm (summary : Summary) (first second : Status) :
    (summary.record first).record second = (summary.record second).record first := by
  cases first <;> cases second <;> rfl

/-- **The counters of a summary** after files came to these statuses. -/
theorem Summary.foldl_record (summary : Summary) (statuses : List Status) :
    statuses.foldl Summary.record summary =
      ⟨summary.success + statuses.count .success, summary.skipped + statuses.count .skipped,
        summary.failed + statuses.count .failed⟩ := by
  induction statuses generalizing summary with
  | nil => rfl
  | cons status statuses ih =>
    rw [List.foldl_cons, ih]
    cases status <;> simp [record, Nat.add_assoc, Nat.add_comm 1]

/-- Each file comes to one status. -/
theorem Status.count_add_count_add_count (statuses : List Status) :
    statuses.count .success + statuses.count .skipped + statuses.count .failed =
      statuses.length := by
  induction statuses with
  | nil => rfl
  | cons status statuses ih => cases status <;> simp <;> omega

namespace Host

variable {host : Host} {path first second : Path}

/-- **A file with a language is no companion document**, where there are no links. So what is
written into it leaves the companion documents of all files as they are. -/
theorem companionOf_overwrite_of_language (hlinkless : host.tree.IsLinkless)
    (hpath : path.IsProper) {language : Language}
    (hlanguage : Language.ofPath? path = some language) {target : Location} {bytes : Bytes}
    (htarget : host.lookup path = .found target (.file bytes)) (new file : Text) :
    (host.overwrite path new).companionOf file = host.companionOf file := by
  have halike := isAlike_overwrite host path new
  refine companionOf_eq_of_isAlike halike fun companion hlocate => ?_
  obtain ⟨hproper, t, hdocument⟩ := Companion.of_mem_candidates
    (Path.isProper_ofText file) (of_firstFile hlocate).1
  have hne : companion.name ≠ [] := by simp [hdocument]
  have hdots : companion.name ≠ ['.', '.'] := by
    intro heq
    have hlength := congrArg List.length (hdocument.symm.trans heq)
    simp at hlength
  rw [hproper.ofText_toText]
  refine lookup_eq_of_isAlike halike fun place bytes' hplace => ?_
  -- both places have the names of the paths that lead to them, and these have other suffixes
  have hother : place ≠ target := by
    rintro rfl
    obtain ⟨hname, hname'⟩ := Language.name_ne_of_ofPath? hlanguage
    have hsame : some path.name = some companion.name :=
      (getLast?_of_lookup hlinkless hpath hname hname' htarget).symm.trans
        (getLast?_of_lookup hlinkless hproper hne hdots hplace)
    rw [Language.ofPath?_document ((Option.some.inj hsame).trans hdocument)] at hlanguage
    cases hlanguage
  rw [get?_overwrite htarget, if_neg hother]

end Host

namespace Context

variable {context : Context} {other : Host} {arguments : Arguments} {file : Text}
  {path first second : Path} {paths paths' : List Path}

/-- **All that is read for one file** is the file, and its companion document if an index is
written. -/
theorem perform_withHost (hload : other.loadFile file = context.host.loadFile file)
    (hcompanion : arguments.task = .generate →
      other.companionOf file = context.host.companionOf file) :
    (context.withHost other).perform arguments file = context.perform arguments file := by
  have hread : (context.withHost other).host.loadFile file = context.host.loadFile file := hload
  cases htask : arguments.task with
  | verify =>
    unfold perform verify
    rw [htask, hread]
    rfl
  | remove =>
    unfold perform remove tryRemove
    rw [htask, hread]
  | generate =>
    have hdocument : (context.withHost other).host.companionOf file =
        context.host.companionOf file := hcompanion htask
    unfold perform generate tryGenerate detect
    rw [htask, hread, hdocument]
    rfl

/-- The host after one file was handled. -/
def after (context : Context) (arguments : Arguments) (path : Path) : Context :=
  context.withHost
    (context.host.overwriteIf path (context.outcomeOf arguments path.toText).content)

/-- **What is written by writing an index** goes into a file with a language. -/
theorem exists_ofPath?_of_generate {new : Text} (hpath : path.IsProper)
    (htask : arguments.task = .generate)
    (hnew : (context.outcomeOf arguments path.toText).content = some new) :
    ∃ language, Language.ofPath? path = some language := by
  unfold outcomeOf perform at hnew
  rw [htask] at hnew
  simp only at hnew
  cases hgenerate : context.generate path.toText (arguments.minLines.bind LineLimit.number?) with
  | error fault => rw [hgenerate] at hnew; cases hnew
  | ok outcome =>
    obtain ⟨result, new?⟩ := outcome
    rw [hgenerate] at hnew
    cases hnew
    obtain ⟨_, language, _, _, _, _, _, hg, -⟩ := generated_of_generate hgenerate
    exact ⟨language, hpath.ofText_toText ▸ hg.language_eq⟩

/-- **What comes of a file** does not depend on a file that is handled before it. -/
theorem outcomeOf_after (hlinkless : context.host.tree.IsLinkless) (hfirst : first.IsProper)
    (hsecond : second.IsProper) (hapart : context.host.LeadApart first second) :
    (context.after arguments first).outcomeOf arguments second.toText =
      context.outcomeOf arguments second.toText := by
  unfold after
  cases hcontent : (context.outcomeOf arguments first.toText).content with
  | none => rfl
  | some new =>
    rw [show context.host.overwriteIf first (some new) = context.host.overwrite first new from rfl]
    -- the second file leads to another place, so it is loaded as before
    have hload : (context.host.overwrite first new).loadFile second.toText =
        context.host.loadFile second.toText := by
      refine Host.loadFile_eq_of_lookup ?_
      rw [hsecond.ofText_toText]
      exact hapart.lookup_overwrite new
    -- only `generate` reads a companion document, and it writes no such document
    have hcompanion : arguments.task = .generate →
        (context.host.overwrite first new).companionOf second.toText =
          context.host.companionOf second.toText := by
      intro htask
      obtain ⟨language, hlanguage⟩ := exists_ofPath?_of_generate hfirst htask hcontent
      obtain ⟨target, bytes, -, -, htarget, -⟩ := hapart
      exact Host.companionOf_overwrite_of_language hlinkless hfirst hlanguage htarget new _
    unfold outcomeOf
    rw [perform_withHost hload hcompanion]

/-! ### A whole batch -/

/-- A batch starts with its first file, and the others are handled on the host after it. -/
theorem performAll_cons (context : Context) (arguments : Arguments) (summary : Summary)
    (path : Path) (paths : List Path) :
    context.performAll arguments summary (path :: paths) =
      ((context.outcomeOf arguments path.toText).report ++ '\n' ::
        ((context.after arguments path).performAll arguments
          (summary.record (context.outcomeOf arguments path.toText).status) paths).1,
        ((context.after arguments path).performAll arguments
          (summary.record (context.outcomeOf arguments path.toText).status) paths).2) := rfl

theorem isAlike_after (context : Context) (arguments : Arguments) (path : Path) :
    context.host.IsAlike (context.after arguments path).host :=
  Host.isAlike_overwriteIf context.host path _

/-- **What comes of each file**, on the host as it is. -/
def outcomes (context : Context) (arguments : Arguments) (paths : List Path) : List FileOutcome :=
  paths.map fun path => context.outcomeOf arguments path.toText

/-- What comes of the other files of a batch is the same after its first file was handled. -/
theorem outcomes_after (hlinkless : context.host.tree.IsLinkless)
    (hpaths : context.host.AreFiles (first :: paths)) :
    (context.after arguments first).outcomes arguments paths =
      context.outcomes arguments paths := by
  refine List.map_congr_left fun second hsecond => ?_
  have hproper := hpaths.isProper first List.mem_cons_self
  have hproper' := hpaths.isProper second (List.mem_cons_of_mem _ hsecond)
  exact outcomeOf_after hlinkless hproper hproper' (hpaths.leadApart hsecond)

/-- **The lines and the summary of a batch** are those of what comes of each of its files on the
host at the start. -/
theorem performAll_eq_outcomes (summary : Summary) (hlinkless : context.host.tree.IsLinkless)
    (hpaths : context.host.AreFiles paths) :
    (context.performAll arguments summary paths).1 =
        (context.outcomes arguments paths).flatMap (·.report ++ ['\n']) ∧
      (context.performAll arguments summary paths).2.1 =
        ((context.outcomes arguments paths).map FileOutcome.status).foldl Summary.record
          summary := by
  induction paths generalizing context summary with
  | nil => exact ⟨rfl, rfl⟩
  | cons first paths ih =>
    -- the rest is handled on another host, where the same comes of it
    have halike := isAlike_after context arguments first
    obtain ⟨htext, hsummary⟩ := ih
      (summary.record (context.outcomeOf arguments first.toText).status)
      (hlinkless.of_isAlike halike.tree) (hpaths.tail.of_isAlike halike)
    rw [outcomes_after hlinkless hpaths] at htext hsummary
    have hcons : context.outcomes arguments (first :: paths) =
        context.outcomeOf arguments first.toText :: context.outcomes arguments paths := rfl
    rw [performAll_cons, hcons, List.flatMap_cons, List.map_cons, List.foldl_cons]
    constructor
    · rw [htext]
      exact List.append_cons _ _ _
    · exact hsummary

/-- **Two files can be handled in any order.** -/
theorem after_comm (hlinkless : context.host.tree.IsLinkless) (hfirst : first.IsProper)
    (hsecond : second.IsProper) (hapart : context.host.LeadApart first second) :
    (context.after arguments first).after arguments second =
      (context.after arguments second).after arguments first := by
  rw [after, outcomeOf_after hlinkless hfirst hsecond hapart,
    after.eq_def (context.after arguments second),
    outcomeOf_after hlinkless hsecond hfirst hapart.symm]
  exact congrArg context.withHost (hapart.overwriteIf_comm _ _)

/-- **The order of a batch** has no influence on its summary and on the host after it. -/
theorem performAll_perm (summary : Summary) (hlinkless : context.host.tree.IsLinkless)
    (hpaths : context.host.AreFiles paths) (hperm : paths.Perm paths') :
    (context.performAll arguments summary paths).2 =
      (context.performAll arguments summary paths').2 := by
  -- by induction on the permutation: two files that change places write to places of their own
  induction hperm generalizing context summary with
  | nil => rfl
  | cons first hperm ih =>
    have halike := isAlike_after context arguments first
    exact ih _ (hlinkless.of_isAlike halike.tree) (hpaths.tail.of_isAlike halike)
  | swap second first paths =>
    have hsecond : second ∈ second :: paths := List.mem_cons_self
    have hproper := hpaths.isProper first List.mem_cons_self
    have hproper' := hpaths.isProper second (List.mem_cons_of_mem _ hsecond)
    have hapart := hpaths.leadApart hsecond
    rw [performAll_cons, performAll_cons, performAll_cons, performAll_cons]
    simp only
    rw [outcomeOf_after hlinkless hproper hproper' hapart,
      outcomeOf_after hlinkless hproper' hproper hapart.symm,
      after_comm hlinkless hproper hproper' hapart, Summary.record_comm]
  | trans hperm _ ih ih' =>
    exact (ih _ hlinkless hpaths).trans (ih' _ hlinkless (hpaths.perm hperm))

/-! ### Isolation -/

/-- **What comes of a batch is what comes of each of its files alone,** on the host at the start.
The lines are those about each file alone, each file is counted once and as the status that it comes
to alone, and a fault fails its file and no other. The exit code tells whether a file failed. -/
structure IsIsolated (context : Context) (arguments : Arguments) (paths : List Path) : Prop where
  text_eq : (context.performAll arguments {} paths).1 =
    paths.flatMap fun path => (context.performAll arguments {} [path]).1
  count_eq : ∀ status, ((context.outcomes arguments paths).map FileOutcome.status).count status =
    match status with
    | .success => (context.performAll arguments {} paths).2.1.success
    | .skipped => (context.performAll arguments {} paths).2.1.skipped
    | .failed => (context.performAll arguments {} paths).2.1.failed
  total_eq : (context.performAll arguments {} paths).2.1.success +
      (context.performAll arguments {} paths).2.1.skipped +
      (context.performAll arguments {} paths).2.1.failed = paths.length
  of_fault : ∀ path fault, context.perform arguments path.toText = .error fault →
    context.performAll arguments {} [path] =
      (statusLine path.toText .failed fault.message ++ ['\n'], { failed := 1 }, context.host)
  code_eq : (context.handle arguments paths).1.code =
    if 0 < (context.performAll arguments {} paths).2.1.failed then 1 else 0

theorem code_handle (context : Context) (arguments : Arguments) (paths : List Path) :
    (context.handle arguments paths).1.code =
      if 0 < (context.performAll arguments {} paths).2.1.failed then 1 else 0 := by
  unfold handle
  by_cases hnil : paths = []
  · -- no file has failed where there is none
    subst hnil
    rfl
  · rw [if_neg hnil]

theorem host_handle (context : Context) (arguments : Arguments) (paths : List Path) :
    (context.handle arguments paths).2 = (context.performAll arguments {} paths).2.2 := by
  unfold handle
  by_cases hnil : paths = []
  · subst hnil
    rfl
  · rw [if_neg hnil]

/-- **The files of a batch have no influence on each other**, where there are no links. -/
theorem isIsolated_of_areFiles (arguments : Arguments) (hlinkless : context.host.tree.IsLinkless)
    (hpaths : context.host.AreFiles paths) : context.IsIsolated arguments paths where
  text_eq := by
    rw [(performAll_eq_outcomes {} hlinkless hpaths).1, outcomes, List.flatMap_map]
    rfl
  count_eq status := by
    rw [(performAll_eq_outcomes {} hlinkless hpaths).2, Summary.foldl_record]
    cases status <;> simp
  total_eq := by
    rw [(performAll_eq_outcomes {} hlinkless hpaths).2, Summary.foldl_record]
    have hlength : ((context.outcomes arguments paths).map FileOutcome.status).length =
        paths.length := by
      rw [List.length_map, outcomes, List.length_map]
    rw [← hlength, ← Status.count_add_count_add_count]
    simp
  of_fault path fault hfault := by
    have houtcome : context.outcomeOf arguments path.toText =
        ⟨.failed, statusLine path.toText .failed fault.message, none⟩ := by
      rw [outcomeOf, hfault]
    rw [performAll_cons, after, houtcome]
    rfl
  code_eq := code_handle context arguments paths

/-- **Batches of the same files** have the same lines about each file, the same counters, the same
exit code, and leave the same host, in whatever order the files are handled. -/
theorem isIsolated_and_eq_of_perm (arguments : Arguments)
    (hlinkless : context.host.tree.IsLinkless) (hpaths : context.host.AreFiles paths)
    (hperm : paths.Perm paths') :
    context.IsIsolated arguments paths ∧ context.IsIsolated arguments paths' ∧
      (context.performAll arguments {} paths').2 = (context.performAll arguments {} paths).2 ∧
      (context.handle arguments paths').1.code = (context.handle arguments paths).1.code ∧
      (context.handle arguments paths').2 = (context.handle arguments paths).2 := by
  have hsame : (context.performAll arguments {} paths).2 =
      (context.performAll arguments {} paths').2 := performAll_perm {} hlinkless hpaths hperm
  refine ⟨isIsolated_of_areFiles arguments hlinkless hpaths,
    isIsolated_of_areFiles arguments hlinkless (hpaths.perm hperm), hsame.symm, ?_, ?_⟩
  · rw [code_handle, code_handle, hsame]
  · rw [host_handle, host_handle, hsame]

/-- A file that gets an index, its companion document, and a file with a block that cannot be read,
handled in two orders. -/
theorem isIsolated_and_eq_of_companion :
    let host : Host := ⟨⟨[(["w"], .directory),
      (["w", "a.py"], .file (encodeUtf8 "import os\n")),
      (["w", "a.py.ai.md"], .file (encodeUtf8 "# A\n")),
      (["w", "b.py"],
        .file (encodeUtf8 "# @ai-index\n# | a | ² | 1 | 1 | x |\n# @end-ai-index\n"))]⟩,
      ["w"], "/", []⟩
    let context : Context := ⟨host, { workspaceRoot := ⟨.root, []⟩ }, ⟨2024, 2, 29, 1, 2, 3, 4, 0⟩⟩
    let paths : List Path := [⟨.here, ["a.py"]⟩, ⟨.here, ["a.py.ai.md"]⟩, ⟨.root, ["w", "b.py"]⟩]
    let arguments : Arguments := { minLines := some (.lines 1) }
    host.tree.IsLinkless ∧ host.AreFiles paths ∧ paths.Perm paths.reverse ∧
      (context.performAll arguments {} paths).2.1 = ⟨1, 1, 1⟩ ∧
      context.IsIsolated arguments paths ∧ context.IsIsolated arguments paths.reverse ∧
      (context.performAll arguments {} paths.reverse).2 =
        (context.performAll arguments {} paths).2 ∧
      (context.handle arguments paths.reverse).1.code = (context.handle arguments paths).1.code ∧
      (context.handle arguments paths.reverse).2 = (context.handle arguments paths).2 := by
  intro host context paths arguments
  have hlinkless : host.tree.IsLinkless := FileTree.isLinkless_of_linkCount (by decide)
  have hpaths : host.AreFiles paths :=
    ⟨by decide +kernel, by decide +kernel, by decide +kernel⟩
  have hperm : paths.Perm paths.reverse := (List.reverse_perm paths).symm
  have hsummary : (context.performAll arguments {} paths).2.1 = ⟨1, 1, 1⟩ := by decide +kernel
  exact ⟨hlinkless, hpaths, hperm, hsummary,
    isIsolated_and_eq_of_perm arguments hlinkless hpaths hperm⟩

end Context

end SectionIndex
