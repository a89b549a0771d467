import SectionIndex.Indexing.Resolve
import SectionIndex.Proofs.Block.Numerals
import SectionIndex.Proofs.Companion.Numerals
import SectionIndex.Proofs.Indexing.Source
import SectionIndex.Proofs.Upkeep.Generate
import SectionIndex.Upkeep.Generate
import SectionIndex.Upkeep.Verify

/-!
# When an operation gives a result

A file that cannot be read is told of as such, and so is a name that is too long when a file is
written. What is left are numbers that are no numerals, in the block of the file or in its companion
document, and names that are too long when a companion document is looked for: these are faults that
no operation turns into a result.

## Main definitions

* `Host.IsSearchable` — files can be looked for at these places.
* `Host.IsDescribed` — the companion document of a file can be read, if it has one.
* `Fault.IsOfReading` — a file that cannot be read.

## Main statements

* `Host.exists_companionOf_iff` — when the companion document of a file is told.
* `Context.exists_result_iff` — when each operation on a file gives a result.
-/

namespace SectionIndex

/-- **The fault of a file that cannot be read.** -/
def Fault.IsOfReading : Fault → Prop
  | .unreadable _ _ => True
  | _ => False

namespace Host

variable {host : Host} {file content : Text}

/-! ### Files that are looked for -/

/-- A file is there or not unless a name on its path is too long. -/
theorem exists_isFile_iff (path : Path) :
    (∃ found, host.isFile path = .ok found) ↔ host.lookup path ≠ .nameTooLong := by
  unfold isFile findFile find
  cases host.lookup path with
  | found place entry => exact iff_of_true ⟨_, rfl⟩ nofun
  | missing => exact iff_of_true ⟨_, rfl⟩ nofun
  | linkLoop => exact iff_of_true ⟨_, rfl⟩ nofun
  | nameTooLong => exact iff_of_false nofun fun h => h rfl

/-- **Files can be looked for at these places**, in turn: no name on the path to a place is too
long, until a file is found. -/
def IsSearchable (host : Host) : List Path → Prop
  | [] => True
  | path :: paths =>
    host.lookup path ≠ .nameTooLong ∧ (host.isFile path = .ok false → host.IsSearchable paths)

theorem exists_firstFile_iff (paths : List Path) :
    (∃ path?, host.firstFile paths = .ok path?) ↔ host.IsSearchable paths := by
  induction paths with
  | nil => exact iff_of_true ⟨_, rfl⟩ trivial
  | cons path paths ih =>
    rw [firstFile, IsSearchable, Fault.exists_bind_eq_ok_iff, ← exists_isFile_iff, ← ih]
    constructor
    · rintro ⟨found, hfound, h⟩
      refine ⟨⟨found, hfound⟩, fun hnone => ?_⟩
      obtain rfl : found = false := Except.ok.inj (hfound.symm.trans hnone)
      exact h
    · rintro ⟨⟨found, hfound⟩, h⟩
      refine ⟨found, hfound, ?_⟩
      cases found with
      | true => exact ⟨_, rfl⟩
      | false => exact h hfound

/-- A fault of the search is a name that is too long. -/
theorem nameTooLong_of_firstFile {paths : List Path} {fault : Fault}
    (h : host.firstFile paths = .error fault) : ∃ path, fault = .nameTooLong path := by
  -- the search stops at the first path that has a name too long, and goes on after any other
  induction paths with
  | nil => cases h
  | cons path paths ih =>
    cases hfound : host.isFile path with
    | error fault' =>
      rw [firstFile, hfound] at h
      obtain rfl := Except.error.inj h
      unfold isFile findFile find at hfound
      cases hlookup : host.lookup path with
      | nameTooLong =>
        rw [hlookup] at hfound
        cases hfound
        exact ⟨_, rfl⟩
      | found place entry => rw [hlookup] at hfound; cases hfound
      | missing => rw [hlookup] at hfound; cases hfound
      | linkLoop => rw [hlookup] at hfound; cases hfound
    | ok found =>
      rw [firstFile, hfound] at h
      cases found with
      | true => cases h
      | false => exact ih h

/-! ### Companion documents -/

/-- **The companion document of a file can be read**, if it has one: no number in it is too long. -/
def IsDescribed (host : Host) (file : Text) : Prop :=
  ∀ path text, host.locateCompanion file = .ok (some path) →
    host.loadFile path.toText = .ok text → Companion.IsLegible text

theorem exists_readCompanion_iff {path : Path} (h : '\x00' ∉ path.toText) :
    (∃ document?, host.readCompanion path.toText = .ok document?) ↔
      ∀ text, host.loadFile path.toText = .ok text → Companion.IsLegible text := by
  have hload : ∀ text, host.loadFile path.toText = .ok text ↔ ∃ place bytes,
      host.lookup (Path.ofText path.toText) = .found place (.file bytes) ∧
        decodeUtf8 bytes = .ok text := fun text => loadFile_eq_ok_iff
  unfold readCompanion
  rw [if_neg h]
  simp only [hload]
  -- only a file whose bytes are text is read as a document
  cases host.lookup (Path.ofText path.toText) with
  | found place entry =>
    cases entry with
    | file bytes =>
      simp only
      cases hdecode : decodeUtf8 bytes with
      | ok text =>
        simp only
        rw [Companion.exists_parse_ok_iff, Companion.isLegible_normalizeNewlines_iff]
        constructor
        · rintro hlegible text' ⟨place', bytes', hfound, htext'⟩
          cases hfound
          rw [hdecode] at htext'
          cases htext'
          exact hlegible
        · exact fun hlegible => hlegible text ⟨place, bytes, rfl, hdecode⟩
      | error fault =>
        refine iff_of_true ⟨_, rfl⟩ ?_
        rintro text ⟨place', bytes', hfound, htext⟩
        cases hfound
        rw [hdecode] at htext
        cases htext
    | directory => exact iff_of_true ⟨_, rfl⟩ fun _ ⟨_, _, hfound, _⟩ => nomatch hfound
    | link target => exact iff_of_true ⟨_, rfl⟩ fun _ ⟨_, _, hfound, _⟩ => nomatch hfound
  | missing => exact iff_of_true ⟨_, rfl⟩ fun _ ⟨_, _, hfound, _⟩ => nomatch hfound
  | linkLoop => exact iff_of_true ⟨_, rfl⟩ fun _ ⟨_, _, hfound, _⟩ => nomatch hfound
  | nameTooLong => exact iff_of_true ⟨_, rfl⟩ fun _ ⟨_, _, hfound, _⟩ => nomatch hfound

/-- **The companion document of a file is told** if it can be looked for, and if no number in it is
too long. -/
theorem exists_companionOf_iff (file : Text) :
    (∃ companion, host.companionOf file = .ok companion) ↔
      host.IsSearchable (Companion.candidates (Path.ofText file)) ∧ host.IsDescribed file := by
  rw [← exists_firstFile_iff, companionOf, Fault.exists_bind_eq_ok_iff]
  constructor
  · rintro ⟨path?, hpath, h⟩
    refine ⟨⟨path?, hpath⟩, fun path text hlocate => ?_⟩
    obtain rfl : path? = some path := Except.ok.inj (hpath.symm.trans hlocate)
    exact (exists_readCompanion_iff (null_not_mem_of_locateCompanion hlocate)).mp h text
  · rintro ⟨⟨path?, hpath⟩, h⟩
    refine ⟨path?, hpath, ?_⟩
    cases path? with
    | none => exact ⟨_, rfl⟩
    | some path =>
      exact (exists_readCompanion_iff (null_not_mem_of_locateCompanion hpath)).mpr
        fun text => h path text hpath

/-- **What is wrong when it is not told:** a name on the way to it is too long, or a number in
it. -/
theorem cases_of_companionOf {fault : Fault} (h : host.companionOf file = .error fault) :
    ((∃ path, fault = .nameTooLong path) ∧ host.IsDescribed file) ∨
      fault.IsOfNumber ∧ ¬ host.IsDescribed file := by
  have htold : ¬ (host.IsSearchable (Companion.candidates (Path.ofText file)) ∧
      host.IsDescribed file) := by
    rw [← exists_companionOf_iff, h]
    exact nofun
  -- the search fails for a name that is too long, and the reading for a number
  cases hlocate : host.locateCompanion file with
  | error fault' =>
    left
    refine ⟨?_, fun path text hpath => nomatch hlocate.symm.trans hpath⟩
    obtain rfl : fault' = fault := by
      unfold companionOf at h
      rw [hlocate] at h
      exact Except.error.inj h
    exact nameTooLong_of_firstFile hlocate
  | ok path? =>
    right
    have hsearchable := (exists_firstFile_iff _).mp ⟨path?, hlocate⟩
    refine ⟨?_, fun hdescribed => htold ⟨hsearchable, hdescribed⟩⟩
    unfold companionOf at h
    rw [hlocate] at h
    cases path? with
    | none => cases h
    | some path =>
      have hnull := null_not_mem_of_locateCompanion hlocate
      replace h : host.readCompanion path.toText = .error fault := h
      unfold readCompanion at h
      rw [if_neg hnull] at h
      split at h
      · split at h
        · exact Companion.isOfNumber_of_parse h
        · cases h
      · cases h

/-! ### The file itself -/

/-- **A file is read**, or it cannot be read, or a name on its path is too long. -/
theorem loadFile_cases (host : Host) (file : Text) :
    (∃ content, host.loadFile file = .ok content) ∨
      (∃ reason, host.loadFile file = .error (.unreadable file reason)) ∨
        host.loadFile file = .error (.nameTooLong (Path.ofText file).toText) := by
  unfold loadFile find
  cases host.lookup (Path.ofText file) with
  | found place entry =>
    cases entry with
    | file bytes =>
      simp only [bind, Except.bind]
      cases decodeUtf8 bytes with
      | ok text => exact Or.inl ⟨text, rfl⟩
      | error cause => exact Or.inr (Or.inl ⟨_, rfl⟩)
    | directory => exact Or.inr (Or.inl ⟨_, rfl⟩)
    | link target => exact Or.inr (Or.inl ⟨_, rfl⟩)
  | missing => exact Or.inr (Or.inl ⟨_, rfl⟩)
  | linkLoop => exact Or.inr (Or.inl ⟨_, rfl⟩)
  | nameTooLong => exact Or.inr (Or.inr rfl)

/-- A file cannot be told to be readable or not only if a name on its path is too long. -/
theorem loadFile_eq_nameTooLong_iff : host.loadFile file =
      .error (.nameTooLong (Path.ofText file).toText) ↔
    host.lookup (Path.ofText file) = .nameTooLong := by
  unfold loadFile find
  cases host.lookup (Path.ofText file) with
  | found place entry =>
    cases entry with
    | file bytes =>
      simp only [bind, Except.bind]
      cases decodeUtf8 bytes <;> exact iff_of_false nofun nofun
    | directory => exact iff_of_false nofun nofun
    | link target => exact iff_of_false nofun nofun
  | missing => exact iff_of_false nofun nofun
  | linkLoop => exact iff_of_false nofun nofun
  | nameTooLong => exact iff_of_true rfl rfl

end Host

/-! ### The operations -/

/-- The fault of a number is no outcome of removing an index. -/
theorem RemoveResult.ofFault_of_isOfNumber (file : Text) {fault : Fault} (h : fault.IsOfNumber) :
    RemoveResult.ofFault file fault = .error fault := by
  cases fault <;> first | rfl | exact h.elim

/-- The fault of a number is no outcome of writing an index. -/
theorem GenerateResult.ofFault_of_isOfNumber (file : Text) {fault : Fault} (h : fault.IsOfNumber) :
    GenerateResult.ofFault file fault = .error fault := by
  cases fault <;> first | rfl | exact h.elim

namespace Context

variable {context : Context} {file : Text}

/-- **A check gives a result.** -/
theorem exists_verify_iff (tolerance : Option Int) :
    (∃ result, context.verify file tolerance = .ok result) ↔
      context.host.lookup (Path.ofText file) ≠ .nameTooLong ∧
        ∀ content, context.host.loadFile file = .ok content → Block.IsLegible content := by
  rw [ne_eq, ← Host.loadFile_eq_nameTooLong_iff]
  unfold verify
  rcases context.host.loadFile_cases file with ⟨content, hload⟩ | ⟨reason, hload⟩ | hload
  · simp only [hload, Except.ok.injEq, forall_eq', Fault.exists_bind_eq_ok_iff,
      ← Block.exists_parse_ok_iff]
    constructor
    · exact fun ⟨b?, hparse, _⟩ => ⟨nofun, b?, hparse⟩
    · rintro ⟨-, b?, hparse⟩
      refine ⟨b?, hparse, ?_⟩
      cases b? <;> exact ⟨_, rfl⟩
  · simp only [hload]
    exact iff_of_true ⟨_, rfl⟩ ⟨nofun, nofun⟩
  · simp only [hload]
    exact iff_of_false nofun fun h => h.1 trivial

/-- Removing gives a result if the attempt does, or if its fault is an outcome. -/
theorem exists_remove_iff_tryRemove : (∃ result, context.remove file = .ok result) ↔
    ∀ fault, context.tryRemove file = .error fault →
      ∃ result, RemoveResult.ofFault file fault = .ok result := by
  unfold remove
  cases context.tryRemove file with
  | ok result => exact iff_of_true ⟨_, rfl⟩ nofun
  | error fault =>
    simp only [Except.error.injEq, forall_eq']
    cases RemoveResult.ofFault file fault with
    | ok result => exact iff_of_true ⟨_, rfl⟩ ⟨_, rfl⟩
    | error fault => exact iff_of_false nofun nofun

/-- **Removing the index of a file gives a result.** -/
theorem exists_remove_iff :
    (∃ result, context.remove file = .ok result) ↔
      ∀ content, context.host.loadFile file = .ok content → Block.IsLegible content := by
  rw [exists_remove_iff_tryRemove]
  unfold tryRemove
  -- the file is read, cannot be read, or has a name that is too long
  rcases context.host.loadFile_cases file with ⟨content, hload⟩ | ⟨reason, hload⟩ | hload
  · simp only [hload, Except.ok.injEq, forall_eq', ← Block.exists_parse_ok_iff, bind, Except.bind]
    cases hparse : Block.parse content with
    | ok b? => cases b? <;> exact iff_of_true nofun ⟨_, rfl⟩
    | error fault =>
      refine iff_of_false (fun h => ?_) nofun
      obtain ⟨result, hresult⟩ := h fault rfl
      rw [RemoveResult.ofFault_of_isOfNumber file (Block.isOfNumber_of_parse hparse)] at hresult
      cases hresult
  · simp only [hload]
    refine iff_of_true (fun fault hfault => ?_) nofun
    cases hfault
    exact ⟨_, rfl⟩
  · simp only [hload]
    refine iff_of_true (fun fault hfault => ?_) nofun
    cases hfault
    exact ⟨_, rfl⟩

/-- What is needed to find the sections of a text that stands in a file. -/
theorem exists_indexOf_iff (hclock : context.now.utc? ≠ none) (content : Text) :
    (∃ index, context.indexOf file content = .ok index) ↔
      context.host.IsSearchable (Companion.candidates (Path.ofText file)) ∧
        context.host.IsDescribed file := by
  obtain ⟨moment, hmoment⟩ := Option.ne_none_iff_exists'.mp hclock
  have hnow : context.utcNow = .ok moment := utcNow_eq_ok_iff.mpr hmoment
  rw [← Host.exists_companionOf_iff]
  unfold indexOf detect
  simp only [Fault.exists_bind_eq_ok_iff]
  constructor
  · rintro ⟨found, hfound, -⟩
    obtain ⟨companion, hcompanion, -⟩ := Fault.bind_eq_ok_iff.mp hfound
    exact ⟨companion, hcompanion⟩
  · rintro ⟨companion, hcompanion⟩
    exact ⟨_, Fault.bind_eq_ok_iff.mpr ⟨companion, hcompanion, rfl⟩, moment, hnow, _, rfl⟩

/-- What is wrong when the sections of a text are not found is not that a file cannot be read. -/
theorem not_isOfReading_of_indexOf (hclock : context.now.utc? ≠ none) {content : Text}
    {fault : Fault} (h : context.indexOf file content = .error fault) : ¬ fault.IsOfReading := by
  obtain ⟨moment, hmoment⟩ := Option.ne_none_iff_exists'.mp hclock
  unfold indexOf detect utcNow at h
  rw [hmoment] at h
  cases hcompanion : context.host.companionOf file with
  | ok companion => rw [hcompanion] at h; cases h
  | error fault' =>
    rw [hcompanion] at h
    cases h
    rcases Host.cases_of_companionOf hcompanion with ⟨⟨path, rfl⟩, -⟩ | ⟨hnumber, -⟩
    · exact not_false
    · cases fault <;> first | exact not_false | exact hnumber.elim

/-- **A file is read and then something else is done**, which fails for other reasons than that a
file cannot be read. -/
theorem forall_isOfReading_iff {α : Type} {next : Text → Except Fault α} {P : Prop}
    (hnext : ∀ content, (∃ a, next content = .ok a) ↔ P)
    (hfault : ∀ content fault, next content = .error fault → ¬ fault.IsOfReading) :
    (∀ fault, (context.host.loadFile file >>= next) = .error fault → fault.IsOfReading) ↔
      context.host.lookup (Path.ofText file) ≠ .nameTooLong ∧
        ∀ content, context.host.loadFile file = .ok content → P := by
  rw [ne_eq, ← Host.loadFile_eq_nameTooLong_iff]
  rcases context.host.loadFile_cases file with ⟨content, hload⟩ | ⟨reason, hload⟩ | hload
  · simp only [hload, Except.ok.injEq, forall_eq', ← hnext content]
    cases hresult : next content with
    | ok a =>
      refine iff_of_true (fun fault h => ?_) ⟨nofun, a, rfl⟩
      cases hresult.symm.trans h
    | error fault =>
      refine iff_of_false (fun h => hfault content fault hresult (h fault hresult)) ?_
      rintro ⟨-, a, ha⟩
      cases ha
  · simp only [hload]
    refine iff_of_true (fun fault h => ?_) ⟨nofun, nofun⟩
    cases h
    exact trivial
  · simp only [hload]
    exact iff_of_false (fun h => h _ rfl) fun h => h.1 trivial

/-- **The index of a file is told, or that it cannot be read.** -/
theorem forall_isOfReading_index_iff (hclock : context.now.utc? ≠ none) :
    (∀ fault, context.index file = .error fault → fault.IsOfReading) ↔
      context.host.lookup (Path.ofText file) ≠ .nameTooLong ∧
        ∀ content, context.host.loadFile file = .ok content →
          context.host.IsSearchable (Companion.candidates (Path.ofText file)) ∧
            context.host.IsDescribed file :=
  forall_isOfReading_iff (fun content => exists_indexOf_iff hclock content)
    fun _ _ => not_isOfReading_of_indexOf hclock

/-- **A section of a file is told, or that the file cannot be read.** -/
theorem forall_isOfReading_readSection_iff (hclock : context.now.utc? ≠ none) (name : Text) :
    (∀ fault, context.readSection file name = .error fault → fault.IsOfReading) ↔
      context.host.lookup (Path.ofText file) ≠ .nameTooLong ∧
        ∀ content, context.host.loadFile file = .ok content →
          context.host.IsSearchable (Companion.candidates (Path.ofText file)) ∧
            context.host.IsDescribed file := by
  refine forall_isOfReading_iff (fun content => ?_) fun content fault h => ?_
  · rw [← exists_indexOf_iff hclock content, Fault.exists_bind_eq_ok_iff]
    refine ⟨fun ⟨index, hindex, _⟩ => ⟨index, hindex⟩, fun ⟨index, hindex⟩ => ⟨index, hindex, ?_⟩⟩
    cases index.find? name <;> exact ⟨_, rfl⟩
  · cases hindex : context.indexOf file content with
    | ok index =>
      rw [hindex] at h
      simp only [bind, Except.bind] at h
      cases hfind : index.find? name with
      | none => rw [hfind] at h; cases h
      | some s => rw [hfind] at h; cases h
    | error fault' =>
      rw [hindex] at h
      cases h
      exact not_isOfReading_of_indexOf hclock hindex

/-! ### Writing an index -/

/-- **The file is to get an index** in a comment style: it can be read, it is not below the limit,
and its language has comments of the style. -/
structure IsIndexable (context : Context) (file : Text) (minLines : Option Int) (content : Text)
    (style : Block.Style) : Prop where
  load : context.host.loadFile file = .ok content
  not_below : ¬ (minLines.getD context.settings.minLines ≠ 0 ∧
    ((Text.splitLines content).length : Int) < minLines.getD context.settings.minLines)
  style_eq : (Language.ofPath? (Path.ofText file)).bind Language.blockStyle = some style

/-- **No number that would be written is too long.** -/
def IsWritableIndex (context : Context) (file content : Text) (style : Block.Style) : Prop :=
  ∀ existing sections companion now, Block.parse content = .ok existing →
    context.detect file (Text.splitLines content) = .ok (sections, companion) →
    context.utcNow = .ok now →
      let indexed := indexedContent content existing style sections now.stamp
      ∀ n ∈ Block.numbers indexed.sections indexed.totalLines, isWritable n = true

/-- Writing gives a result if the attempt does, or if its fault is an outcome. -/
theorem exists_generate_iff_tryGenerate (minLines : Option Int) :
    (∃ result, context.generate file minLines = .ok result) ↔
      ∀ fault, context.tryGenerate file (minLines.getD context.settings.minLines) = .error fault →
        ∃ result, GenerateResult.ofFault file fault = .ok result := by
  unfold generate
  cases context.tryGenerate file (minLines.getD context.settings.minLines) with
  | ok result => exact iff_of_true ⟨_, rfl⟩ nofun
  | error fault =>
    simp only [Except.error.injEq, forall_eq']
    cases GenerateResult.ofFault file fault with
    | ok result => exact iff_of_true ⟨_, rfl⟩ ⟨_, rfl⟩
    | error fault => exact iff_of_false nofun nofun

/-- A step that has no other faults than those of numbers has none at all if each is an outcome. -/
theorem forall_ofFault_iff {α : Type} {step : Except Fault α}
    (hstep : ∀ fault, step = .error fault → fault.IsOfNumber) :
    (∀ fault, step = .error fault → ∃ result, GenerateResult.ofFault file fault = .ok result) ↔
      ∃ a, step = .ok a := by
  cases step with
  | ok a => exact iff_of_true nofun ⟨a, rfl⟩
  | error fault =>
    refine iff_of_false (fun h => ?_) nofun
    obtain ⟨result, hresult⟩ := h fault rfl
    rw [GenerateResult.ofFault_of_isOfNumber file (hstep fault rfl)] at hresult
    cases hresult

/-- **What is wrong when sections are looked for** is an outcome unless it is a number in the
companion document. -/
theorem forall_ofFault_detect_iff (lines : List Text) :
    (∀ fault, context.detect file lines = .error fault →
        ∃ result, GenerateResult.ofFault file fault = .ok result) ↔
      context.host.IsDescribed file := by
  unfold detect
  rw [Fault.forall_error_bind_iff]
  cases hcompanion : context.host.companionOf file with
  | ok companion =>
    have hdescribed := ((Host.exists_companionOf_iff file).mp ⟨companion, hcompanion⟩).2
    exact iff_of_true ⟨nofun, fun _ _ => nofun⟩ hdescribed
  | error fault =>
    rcases Host.cases_of_companionOf hcompanion with
      ⟨⟨path, rfl⟩, hdescribed⟩ | ⟨hfault, hdescribed⟩
    · -- a name that is too long is an outcome
      refine iff_of_true ⟨fun _ hfault => ?_, nofun⟩ hdescribed
      cases hfault
      exact ⟨_, rfl⟩
    · refine iff_of_false (fun h => ?_) hdescribed
      obtain ⟨result, hresult⟩ := h.1 fault rfl
      rw [GenerateResult.ofFault_of_isOfNumber file hfault] at hresult
      cases hresult

/-- **Numbers that are too long** are no outcome. -/
theorem forall_ofFault_checkNumbers_iff (sections : List Section) (totalLines : Int) :
    (∀ fault, Block.checkNumbers sections totalLines = .error fault →
        ∃ result, GenerateResult.ofFault file fault = .ok result) ↔
      ∀ n ∈ Block.numbers sections totalLines, isWritable n = true := by
  rw [forall_ofFault_iff fun _ => Block.isOfNumber_of_checkNumbers, ← List.all_eq_true,
    ← Block.checkNumbers_eq_ok_iff]
  exact ⟨fun ⟨_, h⟩ => h, fun h => ⟨(), h⟩⟩

/-- **The attempt on a file that is to get an index** gives a result, or its fault is an outcome. -/
theorem IsIndexable.forall_tryGenerate_iff {minLines : Option Int} {content : Text}
    {style : Block.Style} (h : context.IsIndexable file minLines content style)
    (hclock : context.now.utc? ≠ none) :
    (∀ fault, context.tryGenerate file (minLines.getD context.settings.minLines) = .error fault →
        ∃ result, GenerateResult.ofFault file fault = .ok result) ↔
      Block.IsLegible content ∧ context.host.IsDescribed file ∧
        context.IsWritableIndex file content style := by
  obtain ⟨moment, hmoment⟩ := Option.ne_none_iff_exists'.mp hclock
  have hnow : context.utcNow = .ok moment := utcNow_eq_ok_iff.mpr hmoment
  obtain ⟨language, hlanguage, hstyle⟩ := Option.bind_eq_some_iff.mp h.style_eq
  unfold tryGenerate
  -- reading the file and its language can no longer fail, reading the clock cannot either
  rw [Fault.forall_error_bind_iff]
  simp only [h.load, Except.ok.injEq, forall_eq', if_neg h.not_below, hlanguage, hstyle]
  rw [Fault.forall_error_bind_iff, forall_ofFault_iff fun _ => Block.isOfNumber_of_parse,
    Block.exists_parse_ok_iff]
  simp only [Fault.forall_error_bind_iff, forall_ofFault_detect_iff, hnow,
    forall_ofFault_checkNumbers_iff, Except.ok.injEq, forall_eq']
  -- every step that is left has to give a value or to end in an outcome
  constructor
  · rintro ⟨-, hlegible, hsteps⟩
    obtain ⟨existing, hparse⟩ := (Block.exists_parse_ok_iff content).mpr hlegible
    refine ⟨hlegible, (hsteps existing hparse).1, ?_⟩
    intro existing sections companion now hparse hdetect hnow'
    cases hnow.symm.trans hnow'
    exact ((hsteps existing hparse).2 _ hdetect).2.1
  · rintro ⟨hlegible, hdescribed, hwritable⟩
    refine ⟨nofun, hlegible, fun existing hparse => ⟨hdescribed, fun found hdetect => ?_⟩⟩
    exact ⟨nofun, hwritable existing _ _ moment hparse hdetect hnow, fun _ _ => nofun⟩

/-- What is wrong with a file that is to get no index is an outcome. -/
theorem exists_ofFault_of_not_isIndexable {minLines : Option Int} {fault : Fault}
    (hindexable : ¬ ∃ content style, context.IsIndexable file minLines content style)
    (h : context.tryGenerate file (minLines.getD context.settings.minLines) = .error fault) :
    ∃ result, GenerateResult.ofFault file fault = .ok result := by
  unfold tryGenerate at h
  rcases context.host.loadFile_cases file with ⟨content, hload⟩ | ⟨reason, hload⟩ | hload
  · simp only [hload, bind, Except.bind] at h
    by_cases hbelow : minLines.getD context.settings.minLines ≠ 0 ∧
        ((Text.splitLines content).length : Int) < minLines.getD context.settings.minLines
    · rw [if_pos hbelow] at h
      cases h
    rw [if_neg hbelow] at h
    cases hlanguage : Language.ofPath? (Path.ofText file) with
    | none =>
      rw [hlanguage] at h
      cases h
      exact ⟨_, rfl⟩
    | some language =>
      cases hstyle : language.blockStyle with
      | none =>
        simp only [hlanguage, hstyle] at h
        cases h
      | some style =>
        exact absurd ⟨content, style, hload, hbelow, by rw [hlanguage]; exact hstyle⟩ hindexable
  · rw [hload] at h
    cases h
    exact ⟨_, rfl⟩
  · rw [hload] at h
    cases h
    exact ⟨_, rfl⟩

/-- **Writing the index of a file gives a result.** -/
theorem exists_generate_iff (hclock : context.now.utc? ≠ none) (minLines : Option Int) :
    (∃ result, context.generate file minLines = .ok result) ↔
      ∀ content style, context.IsIndexable file minLines content style →
        Block.IsLegible content ∧ context.host.IsDescribed file ∧
          context.IsWritableIndex file content style := by
  rw [exists_generate_iff_tryGenerate]
  constructor
  · exact fun hfaults content style h => (h.forall_tryGenerate_iff hclock).mp hfaults
  · intro hall fault hfault
    by_cases hindexable : ∃ content style, context.IsIndexable file minLines content style
    · obtain ⟨content, style, h⟩ := hindexable
      exact (h.forall_tryGenerate_iff hclock).mpr (hall content style h) fault hfault
    · exact exists_ofFault_of_not_isIndexable hindexable hfault

/-- **When the operations on a file give a result.** A check does if the numbers in the block of the
file are numerals and no name on its path is too long; removing does if the numbers are numerals.
The same is true of writing, for a file that is to get an index, if besides no number in the
companion document is too long and none that is written. The index of a file and a section are told,
or that the file cannot be read, if its companion document can be looked for and read. -/
theorem exists_result_iff (hclock : context.now.utc? ≠ none) (file : Text) :
    (∀ tolerance, (∃ result, context.verify file tolerance = .ok result) ↔
      context.host.lookup (Path.ofText file) ≠ .nameTooLong ∧
        ∀ content, context.host.loadFile file = .ok content → Block.IsLegible content) ∧
    ((∃ result, context.remove file = .ok result) ↔
      ∀ content, context.host.loadFile file = .ok content → Block.IsLegible content) ∧
    (∀ minLines, (∃ result, context.generate file minLines = .ok result) ↔
      ∀ content style, context.IsIndexable file minLines content style →
        Block.IsLegible content ∧ context.host.IsDescribed file ∧
          context.IsWritableIndex file content style) ∧
    ((∀ fault, context.index file = .error fault → fault.IsOfReading) ↔
      context.host.lookup (Path.ofText file) ≠ .nameTooLong ∧
        ∀ content, context.host.loadFile file = .ok content →
          context.host.IsSearchable (Companion.candidates (Path.ofText file)) ∧
            context.host.IsDescribed file) ∧
    (∀ name, (∀ fault, context.readSection file name = .error fault → fault.IsOfReading) ↔
      context.host.lookup (Path.ofText file) ≠ .nameTooLong ∧
        ∀ content, context.host.loadFile file = .ok content →
          context.host.IsSearchable (Companion.candidates (Path.ofText file)) ∧
            context.host.IsDescribed file) :=
  ⟨exists_verify_iff, exists_remove_iff, exists_generate_iff hclock,
    forall_isOfReading_index_iff hclock, forall_isOfReading_readSection_iff hclock⟩

/-- A superscript two in a row of the block is a digit and no numeral: no operation on the block
gives a result. -/
theorem not_exists_result_of_script :
    let file : Text := "a.py"
    let content : Text := "# @ai-index\n# | a | ² | 1 | 1 | x |\n# @end-ai-index\n"
    let context : Context := ⟨⟨⟨[([file], .file (encodeUtf8 content))]⟩, [], "/", []⟩,
      { workspaceRoot := ⟨.root, []⟩ }, ⟨2024, 2, 29, 1, 2, 3, 4, 0⟩⟩
    context.now.utc? ≠ none ∧ context.host.loadFile file = .ok content ∧
      (¬ ∃ result, context.verify file none = .ok result) ∧
      (¬ ∃ result, context.remove file = .ok result) ∧
      ¬ ∃ result, context.generate file none = .ok result := by
  intro file content context
  have hclock : context.now.utc? ≠ none := by decide +kernel
  have hload : context.host.loadFile file = .ok content :=
    Host.loadFile_of_encodeUtf8 [file] (by decide +kernel)
  -- the second cell of the row is a number to the test and none to the reader
  have hlegible : ¬ Block.IsLegible content := by
    have hparse : (Block.parse content).toOption = none := by decide +kernel
    rw [← Block.exists_parse_ok_iff]
    rintro ⟨b?, hb⟩
    rw [hb] at hparse
    cases hparse
  have hbelow : ¬ (context.settings.minLines ≠ 0 ∧
      ((Text.splitLines content).length : Int) < context.settings.minLines) := by
    decide +kernel
  have hstyle : (Language.ofPath? (Path.ofText file)).bind Language.blockStyle = some .hash := by
    decide +kernel
  clear_value context content file
  obtain ⟨hverify, hremove, hgenerate, -⟩ := exists_result_iff hclock file
  refine ⟨hclock, hload, fun h => ?_, fun h => ?_, fun h => ?_⟩
  · exact hlegible (((hverify none).mp h).2 content hload)
  · exact hlegible (hremove.mp h content hload)
  · exact hlegible ((hgenerate none).mp h content .hash ⟨hload, hbelow, hstyle⟩).1

end Context

end SectionIndex
