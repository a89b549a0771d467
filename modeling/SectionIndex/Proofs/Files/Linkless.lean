import SectionIndex.Proofs.Files.Alike
import SectionIndex.Proofs.Text.Lines

/-!
# Trees without links

Where there are no links, the last name of a path is the name of what it leads to, unless it is a
double dot. So paths with different last names lead to different places, and entries at different
places can be put in any order.

## Main definitions

* `Path.IsProper` — the names of a path that was read.
* `FileTree.IsLinkless` — no link stands in the tree.

## Main statements

* `Path.IsProper.ofText_toText` — a path that is written is read back.
* `Host.getLast?_of_lookup` — the name of what a path leads to.
* `FileTree.putEntry_comm` — two entries can be put in any order.
-/

namespace SectionIndex

/-! ### Paths that are written and read -/

namespace Path

/-- **The names of a path that was read:** none is empty or a dot, or has a slash in it. -/
def IsProper (path : Path) : Prop :=
  ∀ name ∈ path.names, name ≠ [] ∧ name ≠ ['.'] ∧ '/' ∉ name

instance (path : Path) : Decidable path.IsProper :=
  inferInstanceAs (Decidable (∀ name ∈ path.names, name ≠ [] ∧ name ≠ ['.'] ∧ '/' ∉ name))

variable {path : Path} {name : Text}

theorem isProper_ofText (t : Text) : (ofText t).IsProper := by
  intro name hname
  obtain ⟨hmem, hkept⟩ := List.mem_filter.mp hname
  simp only [Bool.not_eq_true', Bool.or_eq_false_iff, beq_eq_false_iff_ne,
    List.isEmpty_eq_false_iff] at hkept
  exact ⟨hkept.1, hkept.2, (Text.of_mem_splitOn hmem).1⟩

theorem IsProper.parent (h : path.IsProper) : path.parent.IsProper :=
  fun name hname => h name (List.dropLast_subset _ hname)

theorem IsProper.child (h : path.IsProper) (hne : name ≠ []) (hdot : name ≠ ['.'])
    (hslash : '/' ∉ name) : (path.child name).IsProper := by
  intro other hother
  rcases List.mem_append.mp hother with hmem | hmem
  · exact h other hmem
  · rw [List.mem_singleton.mp hmem]
    exact ⟨hne, hdot, hslash⟩

/-- The slashes at the start of a path are its anchor. -/
theorem IsProper.splitOn_toText (h : path.IsProper) (hne : path.names ≠ []) :
    ∃ slashes, path.toText.splitOn '/' = List.replicate slashes [] ++ path.names := by
  have hnames : (Text.join ['/'] path.names).splitOn '/' = path.names :=
    List.splitOn_intercalate '/' (fun name hname => (h name hname).2.2) hne
  have hslash (t : Text) : ('/' :: t).splitOn '/' = [] :: t.splitOn '/' :=
    List.splitOn_append_cons_self_of_not_mem List.not_mem_nil t
  have htext : path.toText = path.anchor.toText ++ Text.join ['/'] path.names :=
    if_neg fun hempty => hne hempty.2
  rw [htext]
  -- each slash at the start splits off an empty name
  cases path.anchor with
  | here => exact ⟨0, hnames⟩
  | root =>
    refine ⟨1, ?_⟩
    show ('/' :: Text.join ['/'] path.names).splitOn '/' = _
    rw [hslash, hnames]
    rfl
  | doubleRoot =>
    refine ⟨2, ?_⟩
    show ('/' :: '/' :: Text.join ['/'] path.names).splitOn '/' = _
    rw [hslash, hslash, hnames]
    rfl

/-- The names of a path stay when the text of it is divided, and what is left of the slashes before
them goes. -/
theorem IsProper.filter_splitOn_toText (h : path.IsProper) (hne : path.names ≠ [])
    {keeps : Text → Bool} (hnil : keeps [] = false)
    (hnames : ∀ name ∈ path.names, keeps name = true) :
    (path.toText.splitOn '/').filter keeps = path.names := by
  obtain ⟨slashes, hsplit⟩ := h.splitOn_toText hne
  have hdropped : (List.replicate slashes ([] : Text)).filter keeps = [] := by
    rw [List.filter_eq_nil_iff]
    intro name hname
    rw [List.eq_of_mem_replicate hname, hnil]
    decide
  rw [hsplit, List.filter_append, hdropped, List.filter_eq_self.mpr hnames, List.nil_append]

theorem IsProper.namesOf_toText (h : path.IsProper) (hne : path.names ≠ []) :
    namesOf path.toText = path.names := by
  refine h.filter_splitOn_toText hne rfl fun name hname => ?_
  obtain ⟨hnil, hdot, -⟩ := h name hname
  simp [hnil, hdot]

/-- The first name starts with no slash. -/
theorem IsProper.takeWhile_join (h : path.IsProper) (hne : path.names ≠ []) :
    (Text.join ['/'] path.names).takeWhile (· == '/') = [] := by
  obtain ⟨first, rest, hnames⟩ := List.exists_cons_of_ne_nil hne
  obtain ⟨hnil, -, hslash⟩ := h first (hnames ▸ List.mem_cons_self)
  obtain ⟨c, t, rfl⟩ := List.exists_cons_of_ne_nil hnil
  have hc : (c == '/') = false := by
    rw [beq_eq_false_iff_ne]
    rintro rfl
    exact hslash List.mem_cons_self
  rw [hnames]
  cases rest with
  | nil => rw [Text.join_singleton, List.takeWhile_cons, hc]; rfl
  | cons second rest =>
    rw [Text.join_cons_of_ne_nil _ _ (List.cons_ne_nil _ _), List.append_assoc, List.cons_append,
      List.takeWhile_cons, hc]
    rfl

/-- **A path that is written is read back.** -/
theorem IsProper.ofText_toText (h : path.IsProper) : ofText path.toText = path := by
  by_cases hne : path.names = []
  · -- only the start is written, or a dot
    obtain ⟨anchor, names⟩ := path
    subst hne
    cases anchor <;> rfl
  have htext : path.toText = path.anchor.toText ++ Text.join ['/'] path.names :=
    if_neg fun hempty => hne hempty.2
  -- the start is read off the slashes before the first name, and no name holds one
  have hslashes : ∀ c ∈ path.anchor.toText, (c == '/') = true := by
    cases path.anchor with
    | here => decide
    | root => decide
    | doubleRoot => decide
  have hanchor : anchorOf path.toText = path.anchor := by
    rw [htext, anchorOf, List.takeWhile_append_of_pos hslashes, h.takeWhile_join hne,
      List.append_nil]
    cases path.anchor with
    | here => rfl
    | root => rfl
    | doubleRoot => rfl
  unfold ofText
  rw [hanchor, h.namesOf_toText hne]

/-- No path ends with a slash, unless it has no names. -/
theorem IsProper.getLast?_toText_ne (h : path.IsProper) (hne : path.names ≠ []) :
    path.toText.getLast? ≠ some '/' := by
  have htext : path.toText = path.anchor.toText ++ Text.join ['/'] path.names :=
    if_neg fun hempty => hne hempty.2
  -- the last character of the path is that of its last name
  obtain ⟨before, last, hnames⟩ := (List.eq_nil_or_concat _).resolve_left hne
  rw [List.concat_eq_append] at hnames
  obtain ⟨hnil, -, hslash⟩ := h last (by simp [hnames])
  obtain ⟨t, c, ht⟩ := (List.eq_nil_or_concat _).resolve_left hnil
  rw [List.concat_eq_append] at ht
  subst ht
  rw [htext, hnames, Text.join_concat_append, ← List.append_assoc, List.getLast?_concat]
  intro hc
  cases hc
  exact hslash (by simp)

/-- **The steps along a path that is written are its names.** -/
theorem IsProper.stepsOf_toText (h : path.IsProper) (hne : path.names ≠ []) :
    FileTree.stepsOf path.toText = path.names := by
  unfold FileTree.stepsOf
  simp only
  rw [if_neg (h.getLast?_toText_ne hne)]
  refine h.filter_splitOn_toText hne rfl fun name hname => ?_
  simp [(h name hname).1]

end Path

/-! ### Trees without links -/

namespace FileTree

variable {tree other : FileTree} {place : Location}

/-- **No link stands in the tree.** -/
def IsLinkless (tree : FileTree) : Prop :=
  ∀ place target, tree.get? place ≠ some (.link target)

theorem isLinkless_of_linkCount (h : tree.linkCount = 0) : tree.IsLinkless := by
  intro place target hlink
  unfold get? at hlink
  split at hlink
  · cases hlink
  · obtain ⟨before, after, heq, -⟩ := List.lookup_eq_some_iff.mp hlink
    have hmem : (place, Entry.link target) ∈ tree.entries := by simp [heq]
    exact absurd rfl (List.countP_eq_zero.mp h _ hmem)

/-- A tree that looks like one without links has none. -/
theorem IsLinkless.of_isAlike (hlinkless : tree.IsLinkless) (h : tree.IsAlike other) :
    other.IsLinkless := by
  intro place target hlink
  have houtline := h place
  rw [hlink, Option.map_some] at houtline
  obtain ⟨entry, hentry, heq⟩ := Option.map_eq_some_iff.mp houtline.symm
  cases entry with
  | file bytes => cases heq
  | directory => cases heq
  | link other => exact hlinkless place other hentry

/-- **The last name is the name of what is found**, unless it says to stay or to step back. -/
theorem IsLinkless.getLast?_of_walkNames (h : tree.IsLinkless) {followLast : Bool}
    {onLink : Location → Text → List Text → Lookup} {names : List Text} {last : Text}
    {found : Location} {entry : Entry} (hlast : names.getLast? = some last) (hdot : last ≠ ['.'])
    (hdots : last ≠ ['.', '.'])
    (hwalk : tree.walkNames followLast onLink place names = .found found entry) :
    found.getLast? = some last := by
  induction names generalizing place with
  | nil => cases hlast
  | cons name names ih =>
    -- a name before the last one leaves the last one as it is
    have hrest : names ≠ [] → names.getLast? = some last := by
      intro hne
      rw [← hlast, List.getLast?_cons_of_ne_nil hne]
    have hname : names = [] → name = last := by
      rintro rfl
      exact Option.some.inj hlast
    unfold walkNames at hwalk
    split at hwalk
    · split at hwalk
      · next heq => exact ih (hrest fun hnil => hdot (hname hnil ▸ heq)) hwalk
      · split at hwalk
        · next heq => exact ih (hrest fun hnil => hdots (hname hnil ▸ heq)) hwalk
        · split at hwalk
          · cases hwalk
          · split at hwalk
            · cases hwalk
            · next target hlink => exact absurd hlink (h _ target)
            · by_cases hnil : names = []
              · -- the last name was found, and nothing is left to do
                subst hnil
                unfold walkNames at hwalk
                split at hwalk
                · cases hwalk
                  rw [hname rfl, List.getLast?_concat]
                · cases hwalk
              · exact ih (hrest hnil) hwalk
    · cases hwalk

/-! ### Entries at different locations -/

/-- **Two entries can be put in any order** if other ones stand at their locations. -/
theorem putEntry_comm {first second : Location} {entries : List (Location × Entry)}
    {old old' : Entry} (hne : first ≠ second) (hfirst : entries.lookup first = some old)
    (hsecond : entries.lookup second = some old') (new new' : Entry) :
    putEntry second new' (putEntry first new entries) =
      putEntry first new (putEntry second new' entries) := by
  induction entries with
  | nil => cases hfirst
  | cons head entries ih =>
    obtain ⟨p, e⟩ := head
    rw [List.lookup_cons] at hfirst hsecond
    by_cases hp : p = first
    · subst hp
      rw [putEntry, if_pos rfl, putEntry, if_neg hne, putEntry, if_neg hne, putEntry, if_pos rfl]
    · by_cases hp' : p = second
      · subst hp'
        rw [putEntry, if_neg hp, putEntry, if_pos rfl, putEntry, if_pos rfl, putEntry, if_neg hp]
      · rw [beq_false_of_ne (Ne.symm hp)] at hfirst
        rw [beq_false_of_ne (Ne.symm hp')] at hsecond
        rw [putEntry, if_neg hp, putEntry, if_neg hp', putEntry, if_neg hp', putEntry, if_neg hp,
          ih hfirst hsecond]

end FileTree

namespace Host

variable {host : Host} {path first second : Path} {place : Location} {entry : Entry}

/-- **The name of what a path leads to** is the name of the path, unless it is a double dot. -/
theorem getLast?_of_lookup (h : host.tree.IsLinkless) (hpath : path.IsProper)
    (hname : path.name ≠ []) (hdots : path.name ≠ ['.', '.'])
    (hlookup : host.lookup path = .found place entry) : place.getLast? = some path.name := by
  have hne : path.names ≠ [] := by
    intro hnil
    exact hname (by rw [Path.name, hnil]; rfl)
  have hlast : path.names.getLast? = some path.name := by
    rw [Path.name, List.getLast?_eq_some_getLast hne]
    rfl
  have hdot : path.name ≠ ['.'] := (hpath _ (List.mem_of_getLast? hlast)).2.1
  unfold lookup lookupText at hlookup
  split at hlookup
  · cases hlookup
  · split at hlookup
    · cases hlookup
    · rw [hpath.stepsOf_toText hne] at hlookup
      exact h.getLast?_of_walkNames hlast hdot hdots hlookup

end Host

end SectionIndex
