import SectionIndex.Proofs.Companion.Comments
import SectionIndex.Proofs.Files.Alike

/-!
# Companion documents in hosts that look alike

Which file is the companion document of a file depends on what stands where, and not on what is
written in any file. So writing into a file leaves the choice as it is. Only the document itself may
be the file that is written, by a link.

## Main statements

* `Host.lookup_cases_of_isAlike` — a path leads to a file in both hosts, or to the same in both.
* `Host.locateCompanion_of_isAlike` — the companion document of a file stands at the same path.
* `Host.companionOf_overwrite_cases` — the companion document of a file that gets a new text.
* `Host.map_sectionsOf_companionOf_overwrite` — a file with new comments in it gets the same
  sections from its companion document.
-/

namespace SectionIndex

namespace Host

variable {host other : Host} {file content : Text}

/-- **A path leads to a file in both hosts**, or to the same in both. -/
theorem lookup_cases_of_isAlike (h : host.IsAlike other) (path : Path) :
    (∃ place bytes bytes', host.lookup path = .found place (.file bytes) ∧
        other.lookup path = .found place (.file bytes') ∧
        other.tree.get? place = some (.file bytes')) ∨
      other.lookup path = host.lookup path ∧
        ∀ place bytes, host.lookup path ≠ .found place (.file bytes) := by
  have hother := lookup_of_isAlike h path
  -- a lookup comes to the same in both, but for the bytes of a file
  cases hlookup : host.lookup path with
  | found place entry =>
    rw [hlookup, Lookup.seenIn] at hother
    have hentry := get?_of_lookup hlookup
    cases entry with
    | file bytes =>
      obtain ⟨bytes', hbytes⟩ := h.tree.get?_eq_file hentry
      rw [hbytes] at hother
      exact Or.inl ⟨place, bytes, bytes', rfl, hother, hbytes⟩
    | directory =>
      rw [h.tree.get?_eq_some hentry (by simp)] at hother
      exact Or.inr ⟨hother, by simp⟩
    | link target =>
      rw [h.tree.get?_eq_some hentry (by simp)] at hother
      exact Or.inr ⟨hother, by simp⟩
  | missing => rw [hlookup] at hother; exact Or.inr ⟨hother, by simp⟩
  | nameTooLong => rw [hlookup] at hother; exact Or.inr ⟨hother, by simp⟩
  | linkLoop => rw [hlookup] at hother; exact Or.inr ⟨hother, by simp⟩

theorem isFile_of_isAlike (h : host.IsAlike other) (path : Path) :
    other.isFile path = host.isFile path := by
  unfold isFile findFile find
  rcases lookup_cases_of_isAlike h path with ⟨place, bytes, bytes', hhost, hother, -⟩ | ⟨heq, -⟩
  · rw [hhost, hother]
    rfl
  · rw [heq]

theorem firstFile_of_isAlike (h : host.IsAlike other) (paths : List Path) :
    other.firstFile paths = host.firstFile paths := by
  induction paths with
  | nil => rfl
  | cons path paths ih => rw [firstFile, firstFile, isFile_of_isAlike h, ih]

/-- **The companion document of a file stands at the same path.** -/
theorem locateCompanion_of_isAlike (h : host.IsAlike other) (file : Text) :
    other.locateCompanion file = host.locateCompanion file :=
  firstFile_of_isAlike h _

/-! ### Paths of companion documents -/

/-- A path with a null character leads nowhere. -/
theorem null_not_mem_of_isFile {path : Path} (h : host.isFile path = .ok true) :
    '\x00' ∉ path.toText := by
  intro hnull
  have hmissing : host.lookup path = .missing := by rw [lookup, lookupText, if_pos hnull]
  rw [isFile, findFile, find, hmissing] at h
  cases h

/-- The place that is found is one of those that are tried, and there is a file. -/
theorem of_firstFile {paths : List Path} {path : Path}
    (h : host.firstFile paths = .ok (some path)) : path ∈ paths ∧ host.isFile path = .ok true := by
  induction paths with
  | nil => cases h
  | cons first paths ih =>
    obtain ⟨found, hfirst, h⟩ := Fault.bind_eq_ok_iff.mp h
    cases found with
    | true =>
      cases h
      exact ⟨List.mem_cons_self, hfirst⟩
    | false =>
      obtain ⟨hmem, hfile⟩ := ih h
      exact ⟨List.mem_cons_of_mem _ hmem, hfile⟩

theorem null_not_mem_of_locateCompanion {path : Path}
    (h : host.locateCompanion file = .ok (some path)) : '\x00' ∉ path.toText :=
  null_not_mem_of_isFile (of_firstFile h).2

/-! ### A file that is its own companion document -/

/-- The host gives the file a companion document without sections, or none at all. -/
def LacksRows (host : Host) (file : Text) : Prop :=
  ∃ document?, host.companionOf file = .ok document? ∧
    ∀ document ∈ document?, document.sections = []

/-- What stands at a place after a file is given a new text. -/
theorem get?_overwrite {path : Path} {target : Location} {bytes : Bytes}
    (h : host.lookup path = .found target (.file bytes)) (new : Text) (place : Location) :
    (host.overwrite path new).tree.get? place =
      if place = target then some (.file (encodeUtf8 new)) else host.tree.get? place := by
  have hroot := FileTree.ne_nil_of_get?_file (get?_of_lookup h)
  unfold overwrite
  rw [h]
  simp only [put]
  split
  · next heq => rw [heq, FileTree.get?_put_self _ _ _ hroot]
  · next hne => exact FileTree.get?_put_of_ne _ _ hne

/-- **The companion document of a file that gets a new text** is the one it had, or the file itself
is that document, by a link. -/
theorem companionOf_overwrite_cases (hload : host.loadFile file = .ok content) (new : Text) :
    (host.overwrite (Path.ofText file) new).companionOf file = host.companionOf file ∨
      ∃ path, host.companionOf file = Companion.parse (Text.normalizeNewlines content) path ∧
        (host.overwrite (Path.ofText file) new).companionOf file =
          Companion.parse (Text.normalizeNewlines new) path := by
  obtain ⟨target, bytes, htarget, hdecode⟩ := loadFile_eq_ok_iff.mp hload
  have halike := isAlike_overwrite host (Path.ofText file) new
  have hget := get?_overwrite htarget new
  -- from here on only what stands in the written host matters, and not how it was written
  generalize host.overwrite (Path.ofText file) new = written at halike hget
  unfold companionOf
  rw [locateCompanion_of_isAlike halike]
  cases host.locateCompanion file with
  | error fault =>
    left
    simp only [bind, Except.bind]
  | ok place? =>
    cases place? with
    | none =>
      left
      simp only [bind, Except.bind]
    | some path =>
      show written.readCompanion path.toText = host.readCompanion path.toText ∨
        ∃ path', host.readCompanion path.toText = _ ∧ written.readCompanion path.toText = _
      unfold readCompanion
      split
      · exact Or.inl rfl
      · rcases lookup_cases_of_isAlike halike (Path.ofText path.toText) with
          ⟨place, bytes₀, bytes₁, hhost, hwritten, hbytes⟩ | ⟨heq, hnone⟩
        · rw [hhost, hwritten]
          simp only
          rw [hget] at hbytes
          have hplace := get?_of_lookup hhost
          split at hbytes
          · next hsame =>
            -- the document is the file itself
            subst hsame
            cases hbytes
            obtain rfl : bytes₀ = bytes := by
              simpa using hplace.symm.trans (get?_of_lookup htarget)
            rw [hdecode, decodeUtf8_encodeUtf8]
            exact Or.inr ⟨path.toText, rfl, rfl⟩
          -- the document is another file, which has its old bytes
          · obtain rfl : bytes₀ = bytes₁ := by
              simpa using hplace.symm.trans hbytes
            exact Or.inl rfl
        · rw [heq]
          exact Or.inl rfl

/-- **A file with new comments in it** gets the same sections from its companion document, even if
it is that document itself. -/
theorem map_sectionsOf_companionOf_overwrite (hload : host.loadFile file = .ok content) {new : Text}
    (hrows : Companion.readRows .preamble (Text.breakLines new) =
      Companion.readRows .preamble (Text.breakLines content)) :
    ((host.overwrite (Path.ofText file) new).companionOf file).map Companion.sectionsOf =
      (host.companionOf file).map Companion.sectionsOf := by
  rcases companionOf_overwrite_cases hload new with hsame | ⟨path, hold, hnew⟩
  · rw [hsame]
  · rw [hold, hnew, Companion.map_sectionsOf_parse, Companion.map_sectionsOf_parse,
      Text.breakLines_normalizeNewlines, Text.breakLines_normalizeNewlines, hrows]

/-- A companion document lacks rows if it gives no sections. -/
theorem lacksRows_iff : host.LacksRows file ↔
    (host.companionOf file).map Companion.sectionsOf = .ok [] := by
  unfold LacksRows
  cases host.companionOf file with
  | error fault => simp [Except.map]
  | ok document? => simp [Except.map, Companion.sectionsOf_eq_nil_iff]

/-- **A file with new comments in it** gets no sections from its companion document if it had none
before. -/
theorem companionOf_overwrite (hload : host.loadFile file = .ok content) {new : Text}
    (hrows : Companion.readRows .preamble (Text.breakLines new) =
      Companion.readRows .preamble (Text.breakLines content))
    (h : host.LacksRows file) : (host.overwrite (Path.ofText file) new).LacksRows file := by
  rw [lacksRows_iff] at h ⊢
  rw [map_sectionsOf_companionOf_overwrite hload hrows, h]

/-- A file for which no companion document is found lacks rows when a file gets a new text. -/
theorem lacksRows_overwrite (h : host.locateCompanion file = .ok none) (path : Path) (new : Text) :
    (host.overwrite path new).LacksRows file := by
  have hnone : (host.overwrite path new).locateCompanion file = .ok none := by
    rw [locateCompanion_of_isAlike (isAlike_overwrite host path new), h]
  refine ⟨none, ?_, nofun⟩
  unfold companionOf
  rw [hnone]
  rfl

end Host

end SectionIndex
