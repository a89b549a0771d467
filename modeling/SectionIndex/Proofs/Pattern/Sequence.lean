import SectionIndex.Pattern.Basic

/-!
# Matches of patterns in order

A pattern that is made of patterns in order matches as its parts do, one after another: the best
match of the first part counts, unless the rest cannot go on from there. A long run takes all it
can, a short run goes on only until the rest can.

## Main statements

* `Pattern.match?_andThen` — one pattern and then another, by the ways to match the first.
* `Pattern.match?_run_append` — a long run takes all it can.
* `Pattern.match?_shortRun_andThen` — a short run ends at the first place where the rest matches.
-/

namespace SectionIndex

namespace Pattern

variable {p q : Pattern} {t rest : Text} {o next : Outcome} {least : Nat} {members : CharClass}

/-! ### Single patterns -/

theorem match?_word_append (w rest : Text) : (word w).match? (w ++ rest) = some ⟨rest, []⟩ := by
  have hprefix : w.isPrefixOf (w ++ rest) = true :=
    List.isPrefixOf_iff_prefix.mpr (List.prefix_append w rest)
  rw [match?_eq_head?, outcomes, if_pos hprefix, List.drop_left]
  rfl

/-- What follows the short runs of at least `least` characters, by their lengths. -/
theorem shortestFirst_eq (least : Nat) (members : CharClass) (t : Text) :
    shortestFirst least members t =
      (List.range' least ((t.takeWhile members.holds).length + 1 - least)).map t.drop := by
  have hdrop : ∀ l : List Text, (l.take (l.length - least)).reverse = l.reverse.drop least := by
    intro l
    rw [List.reverse_take]
    by_cases hleast : least ≤ l.length
    · rw [Nat.sub_sub_self hleast]
    · rw [List.drop_of_length_le (by simp; omega), List.drop_of_length_le (by simp; omega)]
  rw [shortestFirst, longestFirst, hdrop, runRests_eq, List.append_nil, List.reverse_reverse,
    ← List.map_drop, List.range_eq_range', List.drop_range']
  simp

/-- **A long run takes all it can.** -/
theorem match?_run_append (run : Text) (hleast : least ≤ run.length)
    (hrun : ∀ c ∈ run, members.holds c = true) (hrest : ∀ c ∈ rest.head?, members.holds c = false) :
    (Pattern.run least members).match? (run ++ rest) = some ⟨rest, []⟩ := by
  -- the run takes all of `run` and stops before `rest`, and its longest match comes first
  have hstop : rest.takeWhile members.holds = [] := by
    cases rest with
    | nil => rfl
    | cons c rest => exact List.takeWhile_cons_of_neg (by simp [hrest c rfl])
  have hlength : ((run ++ rest).takeWhile members.holds).length = run.length := by
    rw [List.takeWhile_append_of_pos hrun, hstop, List.append_nil]
  rw [match?_eq_head?, outcomes, longestFirst, runRests_eq, hlength, List.append_nil,
    List.range_succ, List.map_append, List.reverse_append]
  simp only [List.map_cons, List.map_nil, List.reverse_singleton, List.singleton_append,
    List.drop_left]
  have hpos : (rest :: ((List.range run.length).map (run ++ rest).drop).reverse).length - least =
      run.length - least + 1 := by
    simp
    omega
  rw [hpos, List.take_succ_cons]
  rfl

/-- A run takes only characters of its class. -/
theorem exists_of_mem_outcomes_run (h : o ∈ (Pattern.run least members).outcomes t) :
    ∃ run, t = run ++ o.rest ∧ ∀ c ∈ run, members.holds c = true := by
  obtain ⟨rest, hrest, rfl⟩ := List.mem_map.mp h
  have hmem := List.mem_of_mem_take hrest
  rw [runRests_eq, List.append_nil, List.mem_reverse, List.mem_map] at hmem
  obtain ⟨n, hn, rfl⟩ := hmem
  refine ⟨t.take n, (List.take_append_drop n t).symm, fun c hc => ?_⟩
  have hrun : t.take n <+: t.takeWhile members.holds := by
    refine List.prefix_of_prefix_length_le (List.take_prefix n t) (List.takeWhile_prefix _) ?_
    have hlength := List.mem_range.mp hn
    rw [List.length_take]
    omega
  exact List.all_eq_true.mp List.all_takeWhile c (hrun.subset hc)

theorem match?_group (index : Nat) (h : p.match? t = some o) :
    (group index p).match? t = some (o.mark index t) := by
  rw [match?_eq_head?] at h ⊢
  rw [outcomes, List.head?_map, h]
  rfl

theorem match?_orElse_of_match? (h : p.match? t = some o) : (orElse p q).match? t = some o := by
  rw [match?_eq_head?] at h ⊢
  rw [outcomes, List.head?_append, h]
  rfl

theorem match?_optional (p : Pattern) (t : Text) :
    (optional p).match? t = some ((p.match? t).getD ⟨t, []⟩) := by
  rw [match?_eq_head?, match?_eq_head?, outcomes, List.head?_append]
  cases (p.outcomes t).head? <;> rfl

theorem match?_lineEnd_nil : lineEnd.match? [] = some ⟨[], []⟩ := rfl

/-! ### Patterns in order -/

/-- **One pattern and then another** matches in the first way to match the first one from where the
second one matches. -/
theorem match?_andThen (p q : Pattern) (t : Text) : (andThen p q).match? t =
    (p.outcomes t).findSome? fun o => (q.match? o.rest).map o.append := by
  rw [match?_eq_head?, outcomes, List.head?_flatMap]
  simp only [List.head?_map, match?_eq_head?]

theorem match?_andThen_of_match? (h : p.match? t = some o) (hnext : q.match? o.rest = some next) :
    (andThen p q).match? t = some (o.append next) := by
  rw [match?_eq_head?] at h
  obtain ⟨others, houtcomes⟩ := List.head?_eq_some_iff.mp h
  rw [match?_andThen, houtcomes, List.findSome?_cons, hnext]
  rfl

/-- A part of a pattern without groups leaves the groups to the parts after it. -/
theorem match?_andThen_of_rest (h : p.match? t = some ⟨rest, []⟩) (hnext : q.match? rest = some o) :
    (andThen p q).match? t = some o := by
  rw [match?_andThen_of_match? h hnext, Outcome.append, List.append_nil]

/-- **A short run ends at the first place where the rest matches.** -/
theorem match?_shortRun_andThen {index : Nat} {run : Text} (hleast : least ≤ run.length)
    (hrun : ∀ c ∈ run, members.holds c = true)
    (hbefore : ∀ a b, run = a ++ b → b ≠ [] → least ≤ a.length → q.match? (b ++ rest) = none)
    (hnext : q.match? rest = some next) :
    (andThen (group index (shortRun least members)) q).match? (run ++ rest) =
      some ⟨next.rest, next.groups ++ [(index, ⟨run ++ rest, rest⟩)]⟩ := by
  have hlong : run.length ≤ ((run ++ rest).takeWhile members.holds).length := by
    rw [List.takeWhile_append_of_pos hrun, List.length_append]
    omega
  -- the lengths up to that of the run, and those after it
  have hsplit : List.range' least (((run ++ rest).takeWhile members.holds).length + 1 - least) =
      List.range' least (run.length - least) ++
        run.length :: List.range' (run.length + 1)
          (((run ++ rest).takeWhile members.holds).length - run.length) := by
    have hcount : ((run ++ rest).takeWhile members.holds).length + 1 - least =
        (run.length - least) +
          (((run ++ rest).takeWhile members.holds).length - run.length + 1) := by omega
    rw [hcount, ← List.range'_append_1, List.range'_succ, Nat.add_sub_cancel' hleast]
  rw [match?_andThen, outcomes, outcomes, shortestFirst_eq, hsplit]
  simp only [List.map_map, List.findSome?_map]
  rw [List.findSome?_append, List.findSome?_eq_none_iff.mpr, Option.none_or, List.findSome?_cons]
  · simp only [Function.comp_apply, List.drop_left, Outcome.mark, hnext]
    rfl
  · -- a shorter run leaves some of `run` to the next pattern, which does not match there
    intro k hk
    obtain ⟨hlow, hhigh⟩ := List.mem_range'_1.mp hk
    have hshort : k < run.length := by omega
    simp only [Function.comp_apply, Outcome.mark]
    rw [List.drop_append_of_le_length (Nat.le_of_lt hshort),
      hbefore (run.take k) (run.drop k) (List.take_append_drop k run).symm ?_ ?_]
    · rfl
    · simpa using hshort
    · rw [List.length_take]
      omega

end Pattern

end SectionIndex
