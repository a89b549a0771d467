import SectionIndex.Proofs.Files.Alike
import SectionIndex.Settings.Basic
import Mathlib.Data.List.Perm.Subperm

/-!
# Resolved paths in hosts that look alike

Where a path is resolved to depends on the links of the tree, and not on what is written in its
files. The number of links that may be expanded inside one another is taken from the tree, and two
trees that look alike need not list as many links. But no link is expanded inside itself, so more
room than there are links makes no difference.

## Main definitions

* `FileTree.HasRoom` — no more links can be expanded inside those that are than there is room for.

## Main statements

* `FileTree.expand_of_isAlike` — names lead to the same locations.
* `Host.resolve_of_isAlike`, `Context.resolvePath_of_isAlike` — paths are resolved to the same
  paths.
-/

namespace SectionIndex

namespace FileTree

variable {tree other : FileTree} {place : Location} {target : Text}

/-! ### Room for links -/

/-- A link stands at the place. -/
def IsLinkAt (tree : FileTree) (place : Location) : Prop :=
  ∃ target, tree.get? place = some (.link target)

/-- **There is room for all links** that are not being expanded yet: any of them are no more than
`links`. -/
def HasRoom (tree : FileTree) (links : Nat) (active : List Location) : Prop :=
  ∀ more : List Location, (more ++ active).Nodup → (∀ p ∈ more, tree.IsLinkAt p) →
    more.length ≤ links

theorem HasRoom.mem_of_zero {active : List Location} (h : tree.HasRoom 0 active)
    (hactive : active.Nodup) (hlink : tree.IsLinkAt place) : place ∈ active := by
  by_contra hnot
  have hlength := h [place] (List.nodup_cons.mpr ⟨hnot, hactive⟩) (by simpa using hlink)
  exact absurd hlength (by simp)

theorem HasRoom.cons {links : Nat} {active : List Location} (h : tree.HasRoom (links + 1) active)
    (hlink : tree.IsLinkAt place) : tree.HasRoom links (place :: active) := by
  intro more hnodup hmore
  have hlength := h (more ++ [place]) (by simpa using hnodup) (by
    simp only [List.forall_mem_append, List.forall_mem_singleton]
    exact ⟨hmore, hlink⟩)
  simpa using hlength

/-- **A tree has room for its links.** -/
theorem hasRoom_linkCount (tree : FileTree) : tree.HasRoom (tree.linkCount + 1) [] := by
  intro more hnodup hmore
  rw [List.append_nil] at hnodup
  obtain ⟨isLink, hisLink, hcount⟩ : ∃ isLink : Location × Entry → Bool,
      (∀ p target, isLink (p, .link target) = true) ∧ tree.linkCount = tree.entries.countP isLink :=
    ⟨_, fun _ _ => rfl, rfl⟩
  -- each place is the place of an entry that is a link, so there are no more places than links
  have hsubset : more ⊆ (tree.entries.filter isLink).map Prod.fst := by
    intro p hp
    obtain ⟨target, htarget⟩ := hmore p hp
    unfold get? at htarget
    split at htarget
    · cases htarget
    · obtain ⟨before, after, hmem, -⟩ := List.lookup_eq_some_iff.mp htarget
      refine List.mem_map.mpr ⟨(p, .link target), List.mem_filter.mpr ⟨?_, hisLink p target⟩, rfl⟩
      rw [hmem]
      exact List.mem_append_right _ List.mem_cons_self
  have hlength := (hnodup.subperm hsubset).length_le
  rw [List.length_map, ← List.countP_eq_length_filter, ← hcount] at hlength
  omega

/-! ### Expansions -/

/-- **Names lead to the same location** if the links on the way do. -/
theorem expandNames_of_isAlike (h : tree.IsAlike other)
    {onLink onLink' : Location → Text → Expansion}
    (hlink : ∀ place target, tree.get? place = some (.link target) →
      onLink' place target = onLink place target) (place : Location) (names : List Text) :
    other.expandNames onLink' place names = tree.expandNames onLink place names := by
  -- by induction on the names: what stands at a place decides, and it is alike in both trees
  induction names generalizing place with
  | nil => rfl
  | cons name names ih =>
    rw [expandNames, expandNames]
    split
    · exact ih place
    · split
      · exact ih _
      · cases hentry : tree.get? (place ++ [name]) with
        | none => rw [h.get?_eq_none hentry]; exact ih _
        | some entry =>
          cases entry with
          | link target =>
            have hnext : (fun place => other.expandNames onLink' place names) =
                fun place => tree.expandNames onLink place names := funext ih
            rw [h.get?_eq_some hentry (by simp)]
            simp only [hlink _ _ hentry, hnext]
          | directory => rw [h.get?_eq_some hentry (by simp)]; exact ih _
          | file bytes =>
            obtain ⟨bytes', hbytes⟩ := h.get?_eq_file hentry
            rw [hbytes]
            exact ih _

/-- **Names lead to the same location** in trees that look alike, if both have room for links. -/
theorem expand_of_isAlike (h : tree.IsAlike other) {links links' : Nat} {active : List Location}
    (hroom : tree.HasRoom links active) (hroom' : tree.HasRoom links' active)
    (hactive : active.Nodup) (place : Location) (names : List Text) :
    other.expand links' active place names = tree.expand links active place names := by
  induction links generalizing links' active place names with
  | zero =>
    cases links' with
    | zero => exact expandNames_of_isAlike h (fun _ _ _ => rfl) place names
    | succ links' =>
      refine expandNames_of_isAlike h (fun place target hentry => ?_) place names
      -- no room is left in `tree`: this link is being expanded already, and neither tree expands
      -- it again
      have hmem : place ∈ active := hroom.mem_of_zero hactive ⟨target, hentry⟩
      rw [if_pos (List.contains_iff_mem.mpr hmem)]
  | succ links ih =>
    cases links' with
    | zero =>
      refine expandNames_of_isAlike h (fun place target hentry => ?_) place names
      -- the same, with no room left in `other`
      have hmem : place ∈ active := hroom'.mem_of_zero hactive ⟨target, hentry⟩
      rw [if_pos (List.contains_iff_mem.mpr hmem)]
    | succ links' =>
      refine expandNames_of_isAlike h (fun place target hentry => ?_) place names
      by_cases hmem : active.contains place
      · rw [if_pos hmem, if_pos hmem]
      · rw [if_neg hmem, if_neg hmem]
        have hnot : place ∉ active := fun hplace => hmem (List.contains_iff_mem.mpr hplace)
        exact ih (hroom.cons ⟨target, hentry⟩) (hroom'.cons ⟨target, hentry⟩)
          (List.nodup_cons.mpr ⟨hnot, hactive⟩) _ _

end FileTree

namespace Host

variable {host other : Host}

/-- A lookup ends in a circle of links in both hosts or in none. -/
theorem lookup_eq_linkLoop_iff (h : host.IsAlike other) (path : Path) :
    other.lookup path = .linkLoop ↔ host.lookup path = .linkLoop := by
  rw [lookup_of_isAlike h]
  cases host.lookup path with
  | found place entry =>
    rw [Lookup.seenIn]
    cases other.tree.get? place <;> simp
  | missing => rfl
  | nameTooLong => rfl
  | linkLoop => rfl

/-- **Paths are resolved to the same paths.** -/
theorem resolve_of_isAlike (h : host.IsAlike other) (path : Path) :
    other.resolve path = host.resolve path := by
  -- the links of one tree are those of the other, so the room of the other is enough for both
  have hroom : host.tree.HasRoom (other.tree.linkCount + 1) [] := fun more hnodup hmore =>
    other.tree.hasRoom_linkCount more hnodup fun p hp => by
      obtain ⟨target, htarget⟩ := hmore p hp
      exact ⟨target, h.tree.get?_eq_some htarget (by simp)⟩
  have hexpand := FileTree.expand_of_isAlike h.tree host.tree.hasRoom_linkCount hroom
    List.nodup_nil (host.startOf path) path.names
  have hstart : other.startOf path = host.startOf path := by
    rw [startOf, startOf, h.workingDirectory]
  unfold resolve
  simp only [hstart, hexpand, lookup_eq_linkLoop_iff h]

theorem expandHome_of_isAlike (h : host.IsAlike other) (path : Path) :
    other.expandHome path = host.expandHome path := by
  have hhome : ∀ name, other.homeOf name = host.homeOf name := fun name => by
    rw [homeOf, homeOf, h.home, h.accounts]
  unfold expandHome
  simp only [hhome]

end Host

namespace Context

variable {context : Context} {other : Host}

theorem workspace_of_isAlike (h : context.host.IsAlike other) :
    ({ context with host := other } : Context).workspace = context.workspace := by
  unfold workspace
  simp only [Host.expandHome_of_isAlike h]
  exact congrArg _ (funext (Host.resolve_of_isAlike h))

/-- **Requested files are resolved to the same paths.** -/
theorem resolvePath_of_isAlike (h : context.host.IsAlike other) (file : Text) :
    ({ context with host := other } : Context).resolvePath file = context.resolvePath file := by
  unfold resolvePath
  rw [workspace_of_isAlike h]
  simp only [Host.expandHome_of_isAlike h, Host.resolve_of_isAlike h]

end Context

end SectionIndex
