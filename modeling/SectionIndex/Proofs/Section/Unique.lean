import SectionIndex.Section.Unique
import Mathlib.Data.List.Nodup
import Mathlib.Data.List.Perm.Subperm

/-!
# Unique names

The names of renamed sections are all different, and each is the name of its section or that name
with a number. Everything else of a section is kept.

## Main statements

* `Section.numbered_freeNumber_not_mem` — a free number makes a name that is not taken.
* `Section.nodup_uniqueNames` — the names are all different.
* `Section.exists_of_mem_uniqueNames` — what becomes of a section.
-/

namespace SectionIndex

namespace Section

variable {taken : List Text} {seen : List (Text × Nat)} {name : Text} {sections : List Section}

/-! ### Free numbers -/

theorem ofNat_injective : Function.Injective Text.ofNat := fun m n h => by
  have hm : Nat.ofDigitChars 10 (Text.ofNat m) 0 = m := Nat.ofDigitChars_ten_toDigits
  have hn : Nat.ofDigitChars 10 (Text.ofNat n) 0 = n := Nat.ofDigitChars_ten_toDigits
  rw [← hm, ← hn, h]

theorem numbered_injective (name : Text) : Function.Injective (numbered name) := fun _ _ h =>
  ofNat_injective (List.cons_injective (List.append_cancel_left h))

/-- **A free number is found**, as there are more candidates than names. -/
theorem find?_eq_freeNumber (taken : List Text) (name : Text) (number : Nat) :
    ((List.range' number (taken.length + 1)).find? fun k => !taken.contains (numbered name k)) =
      some (freeNumber taken name number) := by
  obtain ⟨k, hk, hfree⟩ : ∃ k ∈ List.range' number (taken.length + 1), numbered name k ∉ taken := by
    by_contra hall
    push Not at hall
    -- all candidates would be taken, and they are all different
    have hnodup : ((List.range' number (taken.length + 1)).map (numbered name)).Nodup :=
      (List.nodup_range').map (numbered_injective name)
    have hsubset : (List.range' number (taken.length + 1)).map (numbered name) ⊆ taken := by
      intro t ht
      obtain ⟨k, hk, rfl⟩ := List.mem_map.mp ht
      exact hall k hk
    have hlength := (hnodup.subperm hsubset).length_le
    rw [List.length_map, List.length_range'] at hlength
    omega
  have hfound : ((List.range' number (taken.length + 1)).find?
      fun k => !taken.contains (numbered name k)).isSome = true :=
    List.find?_isSome.mpr ⟨k, hk, by simpa using hfree⟩
  obtain ⟨n, hn⟩ := Option.isSome_iff_exists.mp hfound
  rw [freeNumber, hn, Option.getD_some]

/-- **A free number makes a name that is not taken.** -/
theorem numbered_freeNumber_not_mem (taken : List Text) (name : Text) (number : Nat) :
    numbered name (freeNumber taken name number) ∉ taken := by
  simpa using List.find?_some (find?_eq_freeNumber taken name number)

/-! ### Renamed sections -/

/-- **A renamed section** has its name or that name with a number, and is otherwise as it was. -/
theorem exists_of_mem_renameRepeated {s : Section} (h : s ∈ renameRepeated taken seen sections) :
    ∃ s₀ ∈ sections, s = { s₀ with name := s.name } ∧
      (s.name = s₀.name ∨ ∃ n, s.name = numbered s₀.name n) := by
  induction sections generalizing taken seen with
  | nil => exact absurd h (by simp [renameRepeated])
  | cons s₀ sections ih =>
    rw [renameRepeated] at h
    split at h
    · rcases List.mem_cons.mp h with rfl | h
      · exact ⟨s, by simp, rfl, Or.inl rfl⟩
      · obtain ⟨s₁, hs₁, hs⟩ := ih h
        exact ⟨s₁, List.mem_cons_of_mem _ hs₁, hs⟩
    · rcases List.mem_cons.mp h with rfl | h
      · exact ⟨s₀, by simp, rfl, Or.inr ⟨_, rfl⟩⟩
      · obtain ⟨s₁, hs₁, hs⟩ := ih h
        exact ⟨s₁, List.mem_cons_of_mem _ hs₁, hs⟩

theorem lookup_eq_none_of_cons {name t : Text} {count : Nat}
    (h : List.lookup t ((name, count) :: seen) = none) : seen.lookup t = none := by
  rw [List.lookup_cons] at h
  split at h
  · cases h
  · exact h

/-- A section whose name was not seen before keeps it; every other name is a new one. -/
theorem name_of_mem_renameRepeated {s : Section} (h : s ∈ renameRepeated taken seen sections) :
    (s.name ∈ sections.map Section.name ∧ seen.lookup s.name = none) ∨ s.name ∉ taken := by
  -- by induction on the sections: a name that was not seen is kept, and any other one is new
  induction sections generalizing taken seen with
  | nil => exact absurd h (by simp [renameRepeated])
  | cons s₀ sections ih =>
    rw [renameRepeated] at h
    split at h
    · next hseen =>
      rcases List.mem_cons.mp h with rfl | h
      · exact Or.inl ⟨by simp, hseen⟩
      · rcases ih h with ⟨hmem, hlookup⟩ | hnew
        · exact Or.inl ⟨List.mem_cons_of_mem _ hmem, lookup_eq_none_of_cons hlookup⟩
        · exact Or.inr hnew
    · next count hseen =>
      have hfree := numbered_freeNumber_not_mem taken s₀.name (count + 1)
      rcases List.mem_cons.mp h with rfl | h
      · exact Or.inr hfree
      · rcases ih h with ⟨hmem, hlookup⟩ | hnew
        · exact Or.inl ⟨List.mem_cons_of_mem _ hmem, lookup_eq_none_of_cons hlookup⟩
        · exact Or.inr fun hmem => hnew (List.mem_cons_of_mem _ hmem)

theorem nodup_renameRepeated (htaken : sections.map Section.name ⊆ taken)
    (hseen : ∀ name, seen.lookup name ≠ none → name ∈ taken) :
    ((renameRepeated taken seen sections).map Section.name).Nodup := by
  induction sections generalizing taken seen with
  | nil => exact List.nodup_nil
  | cons s sections ih =>
    obtain ⟨hs, htaken⟩ := List.cons_subset.mp htaken
    have hadd : ∀ number name, List.lookup name ((s.name, number) :: seen) ≠ none →
        name ∈ taken := by
      intro number name hlookup
      by_cases hname : name = s.name
      · exact hname ▸ hs
      · rw [List.lookup_cons, beq_false_of_ne hname] at hlookup
        exact hseen name hlookup
    rw [renameRepeated]
    split
    · next hnone =>
      refine List.nodup_cons.mpr ⟨fun hmem => ?_, ih htaken (hadd 1)⟩
      -- the name counts as seen in the rest, so no section has it there
      obtain ⟨r, hr, hname⟩ := List.mem_map.mp hmem
      rcases name_of_mem_renameRepeated hr with ⟨-, hlookup⟩ | hnew
      · rw [hname, List.lookup_cons, beq_self_eq_true] at hlookup
        cases hlookup
      · exact hnew (hname ▸ hs)
    · next count hsome =>
      have hfree := numbered_freeNumber_not_mem taken s.name (count + 1)
      -- the new name counts as taken in the rest, so no section has it there
      refine List.nodup_cons.mpr ⟨fun hmem => ?_, ?_⟩
      · obtain ⟨r, hr, hname⟩ := List.mem_map.mp hmem
        simp only at hname
        rcases name_of_mem_renameRepeated hr with ⟨hmem, -⟩ | hnew
        · exact hfree (hname ▸ htaken hmem)
        · exact hnew (hname ▸ List.mem_cons_self)
      · exact ih (fun name hname => List.mem_cons_of_mem _ (htaken hname))
          fun name hlookup => List.mem_cons_of_mem _ (hadd _ name hlookup)

/-- **The names of sections are all different** after renaming. -/
theorem nodup_uniqueNames (sections : List Section) :
    ((uniqueNames sections).map Section.name).Nodup :=
  nodup_renameRepeated (fun _ h => h) fun _ h => absurd rfl h

theorem exists_of_mem_uniqueNames {s : Section} (h : s ∈ uniqueNames sections) :
    ∃ s₀ ∈ sections, s = { s₀ with name := s.name } ∧
      (s.name = s₀.name ∨ ∃ n, s.name = numbered s₀.name n) :=
  exists_of_mem_renameRepeated h

end Section

end SectionIndex
