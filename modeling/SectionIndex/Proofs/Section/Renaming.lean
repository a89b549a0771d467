import SectionIndex.Proofs.Section.Unique
import Mathlib.Order.Bounds.Basic

/-!
# Which names repeated sections get

The renaming keeps a counter for each name, so that it need not try the small numbers again when a
name comes up once more. What it gives can be told without the counters: the first section of a
name keeps it, and each later one gets the least number, from 2 on, that makes a name which no
section of the list has and no earlier one was given. The numbers up to a counter are all in use,
and this is the invariant that makes both searches the same.

## Main definitions

* `Section.IsNameAfter` — what a section is called after the sections before it.
* `Section.IsRenaming` — the sections with the names that they get.

## Main statements

* `Section.isLeast_freeNumber` — a counter that skips numbers in use skips no free one.
* `Section.isNameAfter_renameRepeated` — what each section is called, from any place on.
* `Section.IsRenaming.unique` — the names that sections get are determined.
* `Section.isRenaming_iff_and_uniqueNames` — the renaming gives these names and no others, and a
  second one changes nothing.
-/

namespace SectionIndex

namespace Section

/-- **What a section of the name `name` is called**, given the names in the whole list, the names of
the sections before it, and what these are called: its own name if it is the first with it, or else
that name with the least number from 2 on that makes a name which is in use neither in the list nor
before it. -/
def IsNameAfter (originals before given : List Text) (name new : Text) : Prop :=
  (name ∉ before ∧ new = name) ∨
    (name ∈ before ∧ ∃ k, new = numbered name k ∧
      IsLeast {k | 2 ≤ k ∧ numbered name k ∉ originals ∧ numbered name k ∉ given} k)

/-- **The sections with the names that they get:** everything but the name of a section stays as it
is, all names are different, the first section of a name keeps it, and a later one gets the least
number that is free. -/
structure IsRenaming (sections renamed : List Section) : Prop where
  length_eq : renamed.length = sections.length
  kept : ∀ (i : Nat) (s r : Section), sections[i]? = some s → renamed[i]? = some r →
    r.first = s.first ∧ r.last = s.last ∧ r.description = s.description ∧ r.source = s.source
  nodup : (renamed.map name).Nodup
  first : ∀ (i : Nat) (s r : Section), sections[i]? = some s → renamed[i]? = some r →
    s.name ∉ (sections.take i).map name → r.name = s.name
  repeated : ∀ (i : Nat) (s r : Section), sections[i]? = some s → renamed[i]? = some r →
    s.name ∈ (sections.take i).map name → ∃ k, r.name = numbered s.name k ∧
      IsLeast {k | 2 ≤ k ∧ numbered s.name k ∉ sections.map name ∧
        numbered s.name k ∉ (renamed.take i).map name} k

variable {taken originals before given : List Text} {seen : List (Text × Nat)}
variable {name new : Text} {sections renamed others : List Section}

/-! ### Counters -/

/-- **A counter that skips numbers in use skips no free one:** if the numbers from 2 to `count` are
in use, the search after `count` finds the least number from 2 on that is not. -/
theorem isLeast_freeNumber {count : Nat} (hcount : 1 ≤ count)
    (hused : ∀ k, 2 ≤ k → k ≤ count → numbered name k ∈ taken) :
    IsLeast {k | 2 ≤ k ∧ numbered name k ∉ taken} (freeNumber taken name (count + 1)) := by
  obtain ⟨-, hmem, hskipped⟩ :=
    List.find?_range'_eq_some.mp (find?_eq_freeNumber taken name (count + 1))
  have hlow : count + 1 ≤ _ := (List.mem_range'_1.mp hmem).1
  refine ⟨⟨by omega, numbered_freeNumber_not_mem taken name _⟩, fun k hk => ?_⟩
  by_contra hless
  -- a smaller number is in use: up to the counter by assumption, after it as it was tried
  rcases Nat.lt_or_ge count k with hlarge | hsmall
  · have htaken := hskipped k hlarge (by omega)
    rw [Bool.not_not, List.contains_iff_mem] at htaken
    exact hk.2 htaken
  · exact hk.2 (hused k hk.1 hsmall)

/-- **What is known of the names in use and of the counters** after some sections: a name is in use
if it is one of the list or was given, and a name has a counter if a section had it, with all
numbers up to it in use. -/
structure Counts (originals before given taken : List Text) (seen : List (Text × Nat)) : Prop where
  mem_taken : ∀ t, t ∈ taken ↔ t ∈ originals ∨ t ∈ given
  lookup_eq_none : ∀ t, seen.lookup t = none ↔ t ∉ before
  used : ∀ t count, seen.lookup t = some count →
    1 ≤ count ∧ ∀ k, 2 ≤ k → k ≤ count → numbered t k ∈ taken

theorem Counts.start (originals : List Text) : Counts originals [] [] originals [] where
  mem_taken t := by simp
  lookup_eq_none t := by simp
  used t count h := by cases h

/-- With one more section there is a counter for its name, and for no other that had none. -/
theorem Counts.lookup_cons_eq_none (h : Counts originals before given taken seen) (count : Nat)
    (t : Text) : List.lookup t ((name, count) :: seen) = none ↔ t ∉ before ++ [name] := by
  rw [List.lookup_cons, List.mem_append, List.mem_singleton]
  split
  · next heq => simp [beq_iff_eq.mp heq]
  · next hne => simp [h.lookup_eq_none t, beq_eq_false_iff_ne.mp hne]

/-- The first section of a name starts its counter. -/
theorem Counts.keep (h : Counts originals before given taken seen) (hname : name ∈ originals) :
    Counts originals (before ++ [name]) (given ++ [name]) taken ((name, 1) :: seen) where
  mem_taken t := by
    rw [h.mem_taken t, List.mem_append, List.mem_singleton]
    constructor
    · exact Or.imp_right Or.inl
    · rintro (ht | ht | rfl)
      · exact Or.inl ht
      · exact Or.inr ht
      · exact Or.inl hname
  lookup_eq_none := h.lookup_cons_eq_none _
  used t count hlookup := by
    rw [List.lookup_cons] at hlookup
    split at hlookup
    · obtain rfl := Option.some.inj hlookup
      exact ⟨le_refl 1, fun k hlow hhigh => by omega⟩
    · exact h.used t count hlookup

/-- A later section of a name moves its counter to the number that it gets. -/
theorem Counts.count (h : Counts originals before given taken seen) {count : Nat}
    (hname : seen.lookup name = some count) :
    Counts originals (before ++ [name])
      (given ++ [numbered name (freeNumber taken name (count + 1))])
      (numbered name (freeNumber taken name (count + 1)) :: taken)
      ((name, freeNumber taken name (count + 1)) :: seen) where
  mem_taken t := by
    rw [List.mem_cons, h.mem_taken t, List.mem_append, List.mem_singleton]
    tauto
  lookup_eq_none := h.lookup_cons_eq_none _
  used t count' hlookup := by
    obtain ⟨hcount, hused⟩ := h.used name count hname
    have hleast := isLeast_freeNumber hcount hused
    rw [List.lookup_cons] at hlookup
    split at hlookup
    · next heq =>
      obtain rfl := Option.some.inj hlookup
      obtain rfl := beq_iff_eq.mp heq
      refine ⟨Nat.le_of_succ_le hleast.1.1, fun k hlow hhigh => ?_⟩
      -- the number itself is in use now, and all smaller ones were before
      rcases Nat.lt_or_eq_of_le hhigh with hless | rfl
      · by_contra hfree
        exact absurd (hleast.2 ⟨hlow, fun hmem => hfree (List.mem_cons_of_mem _ hmem)⟩)
          (Nat.not_le_of_lt hless)
      · exact List.mem_cons_self
    · obtain ⟨hone, hall⟩ := h.used t count' hlookup
      exact ⟨hone, fun k hlow hhigh => List.mem_cons_of_mem _ (hall k hlow hhigh)⟩

/-- The number that the search finds is the least that is free. -/
theorem Counts.isLeast (h : Counts originals before given taken seen) {count : Nat}
    (hname : seen.lookup name = some count) :
    IsLeast {k | 2 ≤ k ∧ numbered name k ∉ originals ∧ numbered name k ∉ given}
      (freeNumber taken name (count + 1)) := by
  obtain ⟨hcount, hused⟩ := h.used name count hname
  have hfree : ∀ k, numbered name k ∉ taken ↔
      numbered name k ∉ originals ∧ numbered name k ∉ given := by
    intro k
    rw [h.mem_taken, not_or]
  simpa only [hfree] using isLeast_freeNumber hcount hused

/-! ### Names from any place on -/

/-- **What each section is called**, from any place on. -/
theorem isNameAfter_renameRepeated (h : Counts originals before given taken seen)
    (hmem : sections.map Section.name ⊆ originals) {i : Nat} {s r : Section}
    (hs : sections[i]? = some s) (hr : (renameRepeated taken seen sections)[i]? = some r) :
    r = { s with name := r.name } ∧
      IsNameAfter originals (before ++ (sections.take i).map Section.name)
        (given ++ ((renameRepeated taken seen sections).take i).map Section.name)
        s.name r.name := by
  -- by induction on the sections; each one that is passed goes to those before
  induction sections generalizing taken seen before given i with
  | nil => cases hs
  | cons s₀ sections ih =>
    obtain ⟨hs₀, hsections⟩ := List.cons_subset.mp hmem
    rw [renameRepeated] at hr ⊢
    cases hlookup : seen.lookup s₀.name with
    | none =>
      simp only [hlookup] at hr ⊢
      cases i with
      | zero =>
        obtain rfl := Option.some.inj hs
        obtain rfl := Option.some.inj hr
        refine ⟨rfl, Or.inl ⟨?_, rfl⟩⟩
        simpa using (h.lookup_eq_none _).mp hlookup
      | succ i =>
        have hrest := ih (h.keep hs₀) hsections hs hr
        simpa only [List.take_succ_cons, List.map_cons, List.append_assoc, List.singleton_append]
          using hrest
    | some count =>
      simp only [hlookup] at hr ⊢
      cases i with
      | zero =>
        obtain rfl := Option.some.inj hs
        obtain rfl := Option.some.inj hr
        refine ⟨rfl, Or.inr ⟨?_, _, rfl, ?_⟩⟩
        · by_contra hnew
          rw [List.take_zero, List.map_nil, List.append_nil] at hnew
          rw [(h.lookup_eq_none _).mpr hnew] at hlookup
          cases hlookup
        · simpa using h.isLeast hlookup
      | succ i =>
        have hrest := ih (h.count hlookup) hsections hs hr
        simpa only [List.take_succ_cons, List.map_cons, List.append_assoc, List.singleton_append]
          using hrest

/-- **The renaming gives the names that sections get.** -/
theorem IsRenaming.of_uniqueNames (sections : List Section) :
    IsRenaming sections (uniqueNames sections) := by
  -- the counts start with nothing given, so what they say holds of the whole list
  have hname : ∀ {i s r}, sections[i]? = some s → (uniqueNames sections)[i]? = some r →
      r = { s with name := r.name } ∧
        IsNameAfter (sections.map Section.name) ((sections.take i).map Section.name)
          (((uniqueNames sections).take i).map Section.name) s.name r.name := fun hs hr =>
    isNameAfter_renameRepeated (.start _) (List.Subset.refl _) hs hr
  refine ⟨length_uniqueNames sections, ?_, nodup_uniqueNames sections, ?_, ?_⟩
  · intro i s r hs hr
    rw [(hname hs hr).1]
    exact ⟨rfl, rfl, rfl, rfl⟩
  · intro i s r hs hr hnew
    rcases (hname hs hr).2 with ⟨-, heq⟩ | ⟨hmem, -⟩
    · exact heq
    · exact absurd hmem hnew
  · intro i s r hs hr hmem
    rcases (hname hs hr).2 with ⟨hnew, -⟩ | ⟨-, hnumber⟩
    · exact absurd hmem hnew
    · exact hnumber

/-! ### One renaming -/

/-- **The names that sections get are determined:** each one by the names before it. -/
theorem IsRenaming.unique (h : IsRenaming sections renamed) (h' : IsRenaming sections others) :
    renamed = others := by
  -- by induction on how many are renamed: a name is settled by the names before it
  have htake : ∀ i ≤ sections.length, renamed.take i = others.take i := by
    intro i
    induction i with
    | zero => exact fun _ => rfl
    | succ i ih =>
      intro hi
      have hbefore := ih (Nat.le_of_succ_le hi)
      obtain ⟨s, hs⟩ : ∃ s, sections[i]? = some s := ⟨_, List.getElem?_eq_getElem hi⟩
      obtain ⟨r, hr⟩ : ∃ r, renamed[i]? = some r :=
        ⟨_, List.getElem?_eq_getElem (h.length_eq ▸ hi)⟩
      obtain ⟨r', hr'⟩ : ∃ r', others[i]? = some r' :=
        ⟨_, List.getElem?_eq_getElem (h'.length_eq ▸ hi)⟩
      have hname : r.name = r'.name := by
        by_cases hmem : s.name ∈ (sections.take i).map Section.name
        · obtain ⟨k, hk, hleast⟩ := h.repeated i s r hs hr hmem
          obtain ⟨k', hk', hleast'⟩ := h'.repeated i s r' hs hr' hmem
          rw [hbefore] at hleast
          rw [hk, hk', hleast.unique hleast']
        · rw [h.first i s r hs hr hmem, h'.first i s r' hs hr' hmem]
      have hrest := h.kept i s r hs hr
      have hrest' := h'.kept i s r' hs hr'
      have heq : r = r' := by
        cases r
        cases r'
        simp_all
      rw [List.take_add_one, List.take_add_one, hbefore, hr, hr', heq]
  have hall := htake sections.length (le_refl _)
  rwa [List.take_of_length_le h.length_eq.le, List.take_of_length_le h'.length_eq.le] at hall

/-- Sections whose names are all different keep them. -/
theorem IsRenaming.of_nodup (h : (sections.map Section.name).Nodup) :
    IsRenaming sections sections := by
  -- no name is repeated, so only the clauses on first occurrences have anything to say
  have hnew : ∀ {i s}, sections[i]? = some s → s.name ∉ (sections.take i).map Section.name := by
    intro i s hs hmem
    obtain ⟨r, hr, hname⟩ := List.mem_map.mp hmem
    obtain ⟨j, hj, hget⟩ := List.mem_take_iff_getElem.mp hr
    have hless : j < i := by omega
    have hlength : i < (sections.map Section.name).length := by
      rw [List.length_map]
      exact (List.getElem?_eq_some_iff.mp hs).1
    refine List.nodup_iff_getElem?_ne_getElem?.mp h j i hless hlength ?_
    rw [List.getElem?_map, List.getElem?_map, hs, List.getElem?_eq_getElem (by omega), hget]
    exact congrArg some hname
  refine ⟨rfl, ?_, h, ?_, ?_⟩
  · intro i s r hs hr
    obtain rfl := Option.some.inj (hs.symm.trans hr)
    exact ⟨rfl, rfl, rfl, rfl⟩
  · intro i s r hs hr _
    obtain rfl := Option.some.inj (hs.symm.trans hr)
    rfl
  · intro i s r hs _ hmem
    exact absurd hmem (hnew hs)

/-- **The renaming gives each section the name that it gets, and no other list of sections has these
names.** Renaming the sections once more changes nothing. -/
theorem isRenaming_iff_and_uniqueNames (sections renamed : List Section) :
    (IsRenaming sections renamed ↔ renamed = uniqueNames sections) ∧
      uniqueNames (uniqueNames sections) = uniqueNames sections := by
  have hrenaming := IsRenaming.of_uniqueNames sections
  refine ⟨⟨fun h => h.unique hrenaming, fun h => h ▸ hrenaming⟩, ?_⟩
  -- the names are all different after the first time, so each section has its name already
  exact (IsRenaming.of_uniqueNames (uniqueNames sections)).unique
    (IsRenaming.of_nodup hrenaming.nodup)

/-- A number is passed over if an author has used it, and what is made up can be repeated too. -/
example : (uniqueNames [⟨"a", 1, 1, [], .auto⟩, ⟨"a-2", 2, 2, [], .auto⟩, ⟨"a", 3, 3, [], .auto⟩,
    ⟨"a-2", 4, 4, [], .auto⟩]).map Section.name = ["a", "a-2", "a-3", "a-2-2"] := by decide

end Section

end SectionIndex
