import SectionIndex.Language.Basic

/-!
# Parts of a match

Whatever a pattern matches is a part of the text: what is left after a match is an end of the
text, and so is all that follows the start of a group. So a name that is cut out of a line has
only characters of the line.

## Main statements

* `Pattern.isPart_of_mem_outcomes` — a match and its groups are parts of the text.
* `Rule.mem_of_mem_group?` — a group has only characters of the line.
* `Rule.exists_group?_of_marks` — a group that takes part in every match has a text.
-/

namespace SectionIndex

namespace Pattern

/-- The match is a part of the text, and so are its groups. -/
structure Outcome.IsPart (t : Text) (o : Outcome) : Prop where
  rest : o.rest <:+ t
  groups : ∀ g ∈ o.groups, g.2.start <:+ t

variable {t : Text} {o : Outcome}

theorem mem_longestFirst {least : Nat} {members : CharClass} {rest : Text}
    (h : rest ∈ longestFirst least members t) : rest <:+ t := by
  have hmem := List.mem_of_mem_take h
  rw [runRests_eq, List.append_nil, List.mem_reverse, List.mem_map] at hmem
  obtain ⟨n, -, rfl⟩ := hmem
  exact List.drop_suffix n t

/-- **Every way to match the beginning of a text** is a part of it. -/
theorem isPart_of_mem_outcomes (p : Pattern) (h : o ∈ p.outcomes t) : o.IsPart t := by
  have hplain : ∀ rest : Text, rest <:+ t → Outcome.IsPart t ⟨rest, []⟩ :=
    fun rest hrest => ⟨hrest, List.forall_mem_nil _⟩
  -- by the structure of the pattern: each way of matching leaves an end of the text
  induction p generalizing t o with
  | word w =>
    rw [outcomes] at h
    split at h
    · obtain rfl := List.mem_singleton.mp h
      exact hplain _ (List.drop_suffix _ _)
    · exact absurd h (by simp)
  | anyCase w =>
    rw [outcomes] at h
    split at h
    · obtain rfl := List.mem_singleton.mp h
      exact hplain _ (List.drop_suffix _ _)
    · exact absurd h (by simp)
  | run least members =>
    obtain ⟨rest, hrest, rfl⟩ := List.mem_map.mp h
    exact hplain _ (mem_longestFirst hrest)
  | shortRun least members =>
    obtain ⟨rest, hrest, rfl⟩ := List.mem_map.mp h
    exact hplain _ (mem_longestFirst (List.mem_reverse.mp hrest))
  | andThen p q ihp ihq =>
    rw [outcomes, List.mem_flatMap] at h
    obtain ⟨first, hfirst, h⟩ := h
    obtain ⟨second, hsecond, rfl⟩ := List.mem_map.mp h
    obtain ⟨hrest, hgroups⟩ := ihp hfirst fun _ hr => ⟨hr, List.forall_mem_nil _⟩
    obtain ⟨hrest', hgroups'⟩ := ihq hsecond fun _ hr => ⟨hr, List.forall_mem_nil _⟩
    refine ⟨hrest'.trans hrest, fun g hg => ?_⟩
    -- the groups of the second pattern start in what the first one left
    rcases List.mem_append.mp hg with hg | hg
    · exact (hgroups' g hg).trans hrest
    · exact hgroups g hg
  | orElse p q ihp ihq =>
    rw [outcomes, List.mem_append] at h
    exact h.elim (fun h => ihp h hplain) fun h => ihq h hplain
  | optional p ih =>
    rw [outcomes, List.mem_append, List.mem_singleton] at h
    rcases h with h | rfl
    · exact ih h hplain
    · exact hplain _ List.suffix_rfl
  | group index p ih =>
    obtain ⟨found, hfound, rfl⟩ := List.mem_map.mp h
    obtain ⟨hrest, hgroups⟩ := ih hfound hplain
    exact ⟨hrest, List.forall_mem_cons.mpr ⟨List.suffix_rfl, hgroups⟩⟩
  | lineEnd =>
    rw [outcomes] at h
    split at h
    · obtain rfl := List.mem_singleton.mp h
      exact hplain _ List.suffix_rfl
    · exact absurd h (by simp)

theorem mem_outcomes_of_match? {p : Pattern} (h : p.match? t = some o) : o ∈ p.outcomes t := by
  rw [match?_eq_head?] at h
  exact List.mem_of_mem_head? h

theorem isPart_of_match? {p : Pattern} (h : p.match? t = some o) : o.IsPart t :=
  isPart_of_mem_outcomes p (mem_outcomes_of_match? h)

theorem isPart_of_search? {p : Pattern} (h : p.search? t = some o) : o.IsPart t := by
  induction t with
  | nil => exact isPart_of_match? h
  | cons c t ih =>
    rw [search?] at h
    split at h
    · next hmatch =>
      cases h
      exact isPart_of_match? hmatch
    · obtain ⟨hrest, hgroups⟩ := ih h
      have hsuffix := List.suffix_cons c t
      exact ⟨hrest.trans hsuffix, fun g hg => (hgroups g hg).trans hsuffix⟩

/-- **A group has only characters of the text.** -/
theorem Outcome.IsPart.mem_of_mem_group? {index : Nat} {c : Char} (h : o.IsPart t)
    (hc : c ∈ (o.group? index).getD []) : c ∈ t := by
  unfold Outcome.group? at hc
  cases hlookup : o.groups.lookup index with
  | none =>
    rw [hlookup] at hc
    exact absurd hc (by simp)
  | some span =>
    rw [hlookup] at hc
    obtain ⟨before, after, hgroups, -⟩ := List.lookup_eq_some_iff.mp hlookup
    have hmem : (index, span) ∈ o.groups := by simp [hgroups]
    exact (h.groups _ hmem).subset (List.mem_of_mem_take hc)

end Pattern

/-- **A group of a rule has only characters of the line.** -/
theorem Rule.mem_of_mem_group? {rule? : Option Rule} {line : Text} {found : Pattern.Outcome}
    {index : Nat} {c : Char} (h : Rule.findIn rule? line = some found)
    (hc : c ∈ (found.group? index).getD []) : c ∈ line := by
  cases rule? with
  | none => cases h
  | some rule =>
    rw [Rule.findIn_some, Rule.find] at h
    split at h
    · exact (Pattern.isPart_of_match? h).mem_of_mem_group? hc
    · exact (Pattern.isPart_of_search? h).mem_of_mem_group? hc

/-! ### Groups that take part in every match -/

namespace Pattern

variable {index : Nat} {p : Pattern} {t : Text} {o : Outcome}

/-- **The group takes part in every match** of the pattern. -/
def marks (index : Nat) : Pattern → Bool
  | .andThen p q => p.marks index || q.marks index
  | .orElse p q => p.marks index && q.marks index
  | .group i p => i == index || p.marks index
  | _ => false

theorem exists_mem_groups_of_marks (h : p.marks index = true) (ho : o ∈ p.outcomes t) :
    ∃ span, (index, span) ∈ o.groups := by
  -- by the structure of the pattern: only a sequence, a choice or a group marks anything
  induction p generalizing t o with
  | word | anyCase | run | shortRun | optional | lineEnd => cases h
  | andThen p q ihp ihq =>
    rw [outcomes, List.mem_flatMap] at ho
    obtain ⟨first, hfirst, ho⟩ := ho
    obtain ⟨second, hsecond, rfl⟩ := List.mem_map.mp ho
    rw [marks, Bool.or_eq_true] at h
    rcases h with h | h
    · obtain ⟨span, hspan⟩ := ihp h hfirst
      exact ⟨span, List.mem_append_right _ hspan⟩
    · obtain ⟨span, hspan⟩ := ihq h hsecond
      exact ⟨span, List.mem_append_left _ hspan⟩
  | orElse p q ihp ihq =>
    rw [outcomes, List.mem_append] at ho
    rw [marks, Bool.and_eq_true] at h
    exact ho.elim (ihp h.1) (ihq h.2)
  | group i p ih =>
    obtain ⟨found, hfound, rfl⟩ := List.mem_map.mp ho
    rw [marks, Bool.or_eq_true, beq_iff_eq] at h
    rcases h with rfl | h
    · exact ⟨_, List.mem_cons_self⟩
    · obtain ⟨span, hspan⟩ := ih h hfound
      exact ⟨span, List.mem_cons_of_mem _ hspan⟩

theorem exists_mem_outcomes_of_search? (h : p.search? t = some o) : ∃ u, o ∈ p.outcomes u := by
  induction t with
  | nil => exact ⟨[], mem_outcomes_of_match? h⟩
  | cons c t ih =>
    rw [search?] at h
    split at h
    · next hfirst =>
      cases h
      exact ⟨_, mem_outcomes_of_match? hfirst⟩
    · exact ih h

end Pattern

/-- **A group that takes part in every match** has a text in each line that the rule matches. -/
theorem Rule.exists_group?_of_marks {rule : Rule} {line : Text} {found : Pattern.Outcome}
    {index : Nat} (hmarks : rule.pattern.marks index = true) (h : rule.find line = some found) :
    ∃ text, found.group? index = some text := by
  obtain ⟨t, hfound⟩ : ∃ t, found ∈ rule.pattern.outcomes t := by
    rw [Rule.find] at h
    split at h
    · exact ⟨line, Pattern.mem_outcomes_of_match? h⟩
    · exact Pattern.exists_mem_outcomes_of_search? h
  obtain ⟨span, hspan⟩ := Pattern.exists_mem_groups_of_marks hmarks hfound
  unfold Pattern.Outcome.group?
  cases hlookup : found.groups.lookup index with
  | some first => exact ⟨first.text, rfl⟩
  | none => exact absurd (List.lookup_eq_none_iff.mp hlookup _ hspan) (by simp)

end SectionIndex
