import SectionIndex.Files.Write
import SectionIndex.Indexing.Source
import SectionIndex.Proofs.Text.Utf8

/-!
# File trees that look alike

Two trees look alike if the same directories, names and links stand in them and only the bytes of
their files can differ. Paths lead to the same places in both, so a lookup tells them apart only by
the bytes at its end. A file that is given a new text leaves a tree that looks alike.

## Main definitions

* `FileTree.IsAlike`, `Host.IsAlike` — the trees look alike.
* `Lookup.seenIn` — what a lookup comes to in another tree.

## Main statements

* `Host.lookup_of_isAlike` — paths lead to the same places.
* `Host.isAlike_overwrite` — a file with a new text leaves all paths as they are.
* `Host.loadFile_overwrite` — what is written into a file is what is read from it.
-/

namespace SectionIndex

/-- What stands at a place, whatever the bytes of a file are. -/
def Entry.outline : Entry → Entry
  | .file _ => .file []
  | entry => entry

/-- **The trees look alike:** only the bytes of files can differ. -/
def FileTree.IsAlike (tree other : FileTree) : Prop :=
  ∀ place, (other.get? place).map Entry.outline = (tree.get? place).map Entry.outline

/-- **The hosts look alike:** their trees do, and all else is the same. -/
structure Host.IsAlike (host other : Host) : Prop where
  tree : host.tree.IsAlike other.tree
  workingDirectory : other.workingDirectory = host.workingDirectory
  home : other.home = host.home
  accounts : other.accounts = host.accounts

/-- The same lookup, seen in another tree. -/
def Lookup.seenIn (tree : FileTree) : Lookup → Lookup
  | .found place _ => (tree.get? place).elim .missing (.found place)
  | lookup => lookup

namespace FileTree

variable {tree other : FileTree} {place : Location} {bytes : Bytes}

/-- A file stands below the root, which is a directory. -/
theorem ne_nil_of_get?_file (h : tree.get? place = some (.file bytes)) : place ≠ [] := by
  rintro rfl
  cases h

/-- A file is one of the entries. -/
theorem lookup_of_get?_file (h : tree.get? place = some (.file bytes)) :
    tree.entries.lookup place = some (.file bytes) := by
  rw [get?, if_neg (ne_nil_of_get?_file h)] at h
  exact h

theorem IsAlike.refl (tree : FileTree) : tree.IsAlike tree := fun _ => rfl

theorem IsAlike.get?_eq_none (h : tree.IsAlike other) (hnone : tree.get? place = none) :
    other.get? place = none := by
  have hplace := h place
  rw [hnone, Option.map_none, Option.map_eq_none_iff] at hplace
  exact hplace

/-- What is no file is the same in both trees. -/
theorem IsAlike.get?_eq_some (h : tree.IsAlike other) {entry : Entry}
    (hentry : tree.get? place = some entry) (hfile : ∀ bytes, entry ≠ .file bytes) :
    other.get? place = some entry := by
  have hplace := h place
  rw [hentry, Option.map_some, Option.map_eq_some_iff] at hplace
  obtain ⟨found, hfound, heq⟩ := hplace
  cases entry with
  | file bytes => exact absurd rfl (hfile bytes)
  | directory =>
    cases found with
    | directory => exact hfound
    | file _ => cases heq
    | link _ => cases heq
  | link target =>
    cases found with
    | link _ => cases heq; exact hfound
    | file _ => cases heq
    | directory => cases heq

theorem IsAlike.get?_eq_file (h : tree.IsAlike other)
    (hfile : tree.get? place = some (.file bytes)) :
    ∃ bytes, other.get? place = some (.file bytes) := by
  have hplace := h place
  rw [hfile, Option.map_some, Option.map_eq_some_iff] at hplace
  obtain ⟨found, hfound, heq⟩ := hplace
  cases found with
  | file bytes => exact ⟨bytes, hfound⟩
  | directory => cases heq
  | link _ => cases heq

theorem IsAlike.get?_eq_directory_iff (h : tree.IsAlike other) :
    other.get? place = some .directory ↔ tree.get? place = some .directory := by
  have hcases : ∀ entry, entry = .directory ↔ Entry.outline entry = .directory := by
    intro entry
    cases entry <;> simp [Entry.outline]
  have hiff : ∀ t : FileTree, t.get? place = some .directory ↔
      (t.get? place).map Entry.outline = some .directory := by
    intro t
    cases t.get? place with
    | none => simp
    | some entry => simpa using hcases entry
  rw [hiff, hiff, h place]

/-! ### Lookups -/

/-- **Names lead to the same places.** -/
theorem walkNames_of_isAlike (h : tree.IsAlike other) (followLast : Bool)
    {onLink onLink' : Location → Text → List Text → Lookup}
    (hlink : ∀ directory target names,
      onLink' directory target names = (onLink directory target names).seenIn other)
    (place : Location) (names : List Text) :
    other.walkNames followLast onLink' place names =
      (tree.walkNames followLast onLink place names).seenIn other := by
  induction names generalizing place with
  | nil =>
    unfold walkNames
    cases hplace : tree.get? place with
    | none => rw [h.get?_eq_none hplace]; rfl
    | some entry => cases hother : other.get? place <;> simp [Lookup.seenIn, hother]
  -- a name is looked up in both trees: it leads to a directory in both, to a link with the same
  -- target, to a file, or to nothing in both
  | cons name names ih =>
    unfold walkNames
    by_cases hdirectory : tree.get? place = some .directory
    · rw [if_pos hdirectory, if_pos (h.get?_eq_directory_iff.mpr hdirectory)]
      split
      · exact ih place
      · split
        · exact ih _
        · split
          · rfl
          · cases hentry : tree.get? (place ++ [name]) with
            | none => rw [h.get?_eq_none hentry]; rfl
            | some entry =>
              cases entry with
              | link target =>
                have hother := h.get?_eq_some hentry (by simp)
                simp only [hother]
                split
                · simp [Lookup.seenIn, hother]
                · exact hlink _ _ _
              | directory =>
                simp only [h.get?_eq_some hentry (by simp)]
                exact ih _
              | file bytes =>
                obtain ⟨bytes', hother⟩ := h.get?_eq_file hentry
                simp only [hother]
                exact ih _
    · rw [if_neg hdirectory, if_neg fun hother => hdirectory (h.get?_eq_directory_iff.mp hother)]
      rfl

theorem walk_of_isAlike (h : tree.IsAlike other) (followLast : Bool) (links : Nat)
    (place : Location) (names : List Text) :
    other.walk followLast links place names =
      (tree.walk followLast links place names).seenIn other := by
  induction links generalizing place names with
  | zero =>
    -- no room for another link: the lookup is given up in both trees
    have hloop : ∀ (_ : Location) (_ : Text) (_ : List Text),
        Lookup.linkLoop = Lookup.linkLoop.seenIn other := fun _ _ _ => rfl
    exact walkNames_of_isAlike h followLast hloop place names
  | succ links ih => exact walkNames_of_isAlike h followLast (fun _ _ _ => ih _ _) place names

/-- What a lookup finds stands in the tree. -/
theorem get?_of_walkNames {followLast : Bool} {onLink : Location → Text → List Text → Lookup}
    (hlink : ∀ directory target names place entry,
      onLink directory target names = .found place entry → tree.get? place = some entry)
    {names : List Text} {found : Location} {entry : Entry}
    (h : tree.walkNames followLast onLink place names = .found found entry) :
    tree.get? found = some entry := by
  -- by induction on the names: an entry is looked up where the walk ends, or behind a link
  induction names generalizing place with
  | nil =>
    unfold walkNames at h
    split at h
    · cases h
      assumption
    · cases h
  | cons name names ih =>
    unfold walkNames at h
    split at h
    · split at h
      · exact ih h
      · split at h
        · exact ih h
        · split at h
          · cases h
          · split at h
            · cases h
            · next target hentry =>
              split at h
              · cases h
                exact hentry
              · exact hlink _ _ _ _ _ h
            · exact ih h
    · cases h

theorem get?_of_walk {followLast : Bool} {links : Nat} {names : List Text} {found : Location}
    {entry : Entry} (h : tree.walk followLast links place names = .found found entry) :
    tree.get? found = some entry := by
  induction links generalizing place names found entry with
  | zero =>
    refine get?_of_walkNames (fun _ _ _ _ _ hloop => ?_) h
    cases hloop
  | succ links ih => exact get?_of_walkNames (fun _ _ _ _ _ hlink => ih hlink) h

end FileTree

namespace Host

variable {host other : Host}

/-- **Paths lead to the same places** in hosts that look alike. -/
theorem lookup_of_isAlike (h : host.IsAlike other) (path : Path) :
    other.lookup path = (host.lookup path).seenIn other.tree := by
  unfold lookup lookupText
  rw [h.workingDirectory]
  split
  · rfl
  · split
    · rfl
    · exact FileTree.walk_of_isAlike h.tree true _ _ _

theorem get?_of_lookup {path : Path} {place : Location} {entry : Entry}
    (h : host.lookup path = .found place entry) : host.tree.get? place = some entry := by
  unfold lookup lookupText at h
  split at h
  · cases h
  · split at h
    · cases h
    · exact FileTree.get?_of_walk h

/-- **A file that is given other bytes** leaves a host that looks alike. -/
theorem isAlike_put {place : Location} {bytes : Bytes}
    (h : host.tree.get? place = some (.file bytes)) (new : Bytes) :
    host.IsAlike (host.put place (.file new)) := by
  have hroot := FileTree.ne_nil_of_get?_file h
  refine ⟨fun p => ?_, rfl, rfl, rfl⟩
  by_cases hp : p = place
  · rw [hp, put, FileTree.get?_put_self _ _ _ hroot, h]
    rfl
  · rw [put, FileTree.get?_put_of_ne _ _ hp]

/-- **A file that is given a new text** leaves a host that looks alike. -/
theorem isAlike_overwrite (host : Host) (path : Path) (content : Text) :
    host.IsAlike (host.overwrite path content) := by
  unfold overwrite
  split
  · next place bytes hlookup => exact isAlike_put (get?_of_lookup hlookup) _
  · exact ⟨FileTree.IsAlike.refl _, rfl, rfl, rfl⟩

/-! ### Texts of files -/

theorem loadFile_of_lookup {file : Text} {place : Location} {bytes : Bytes}
    (h : host.lookup (Path.ofText file) = .found place (.file bytes)) :
    host.loadFile file =
      (decodeUtf8 bytes).mapError fun cause => .unreadable file (.notReadable cause) := by
  rw [loadFile, find, h]
  rfl

/-- A text is loaded from a file if it is the text of its bytes. -/
theorem loadFile_eq_ok_iff {file content : Text} :
    host.loadFile file = .ok content ↔ ∃ place bytes,
      host.lookup (Path.ofText file) = .found place (.file bytes) ∧
        decodeUtf8 bytes = .ok content := by
  constructor
  · intro h
    -- of all that a lookup comes to, only a file is loaded
    cases hlookup : host.lookup (Path.ofText file) with
    | found place entry =>
      cases entry with
      | file bytes =>
        rw [loadFile_of_lookup hlookup] at h
        cases hdecode : decodeUtf8 bytes with
        | ok text =>
          rw [hdecode] at h
          cases h
          exact ⟨place, bytes, rfl, hdecode⟩
        | error fault => rw [hdecode] at h; cases h
      | directory => rw [loadFile, find, hlookup] at h; cases h
      | link _ => rw [loadFile, find, hlookup] at h; cases h
    | missing => rw [loadFile, find, hlookup] at h; cases h
    | nameTooLong => rw [loadFile, find, hlookup] at h; cases h
    | linkLoop => rw [loadFile, find, hlookup] at h; cases h
  · rintro ⟨place, bytes, hlookup, hdecode⟩
    rw [loadFile_of_lookup hlookup, hdecode]
    rfl

/-- A text is loaded from a file that has its bytes. -/
theorem loadFile_of_encodeUtf8 {file content : Text} (place : Location)
    (h : host.lookup (Path.ofText file) = .found place (.file (encodeUtf8 content))) :
    host.loadFile file = .ok content :=
  loadFile_eq_ok_iff.mpr ⟨place, _, h, decodeUtf8_encodeUtf8 content⟩

/-- **What is written into a file is what is read from it.** -/
theorem loadFile_overwrite {file content : Text} (new : Text)
    (h : host.loadFile file = .ok content) :
    (host.overwrite (Path.ofText file) new).loadFile file = .ok new := by
  obtain ⟨place, bytes, hlookup, -⟩ := loadFile_eq_ok_iff.mp h
  have hroot := FileTree.ne_nil_of_get?_file (get?_of_lookup hlookup)
  have hplace : (host.overwrite (Path.ofText file) new).tree.get? place =
      some (.file (encodeUtf8 new)) := by
    rw [overwrite, hlookup]
    exact FileTree.get?_put_self _ _ _ hroot
  refine loadFile_of_encodeUtf8 place ?_
  -- the file is looked up in the host after the write, which looks like the one before it
  rw [lookup_of_isAlike (isAlike_overwrite host (Path.ofText file) new), hlookup, Lookup.seenIn,
    hplace]
  rfl

end Host

end SectionIndex
