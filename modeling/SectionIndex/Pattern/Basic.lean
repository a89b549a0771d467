import SectionIndex.Text.Basic
import SectionIndex.Text.Word
import SectionIndex.Text.LetterCase

/-!
# Line patterns

A pattern describes the beginnings of a text: literal words, runs of a character class, choices,
optional parts and up to two marked groups. What a pattern matches is *ordered*: a run can prefer
to be long or short, a choice prefers its first branch, and the first way that leads to a match of
the whole pattern is the match.

## Main definitions

* `CharClass` — the classes that runs are made of.
* `Pattern`, `Pattern.inOrder`, `Pattern.firstOf` — patterns.
* `Pattern.outcomes` — all the ways to match the beginning of a text, best first.
* `Pattern.tryAll` — the first outcome a continuation accepts, found without listing them all.
* `Rule`, `Rule.find` — a pattern that is looked for at the start of a line or anywhere in it.

## Main statements

* `Pattern.tryAll_eq_findSome?` — both ways to run a pattern agree.
-/

namespace SectionIndex

/-- **A class of characters.** -/
inductive CharClass
  /-- A blank of any script. -/
  | blank
  /-- A letter, digit or underscore of any script. -/
  | word
  /-- Anything but a line feed. -/
  | inLine
  /-- One of the characters listed. -/
  | oneOf (members : Text)
  /-- A blank or one of the characters listed. -/
  | blankOr (members : Text)
  deriving DecidableEq, Repr

/-- The characters of a class. -/
def CharClass.holds : CharClass → Char → Bool
  | .blank, c => isBlank c
  | .word, c => isWordChar c
  | .inLine, c => c != '\n'
  | .oneOf members, c => members.contains c
  | .blankOr members, c => isBlank c || members.contains c

/-- **Patterns.** -/
inductive Pattern
  /-- The word itself. -/
  | word (text : Text)
  /-- The word, given in small letters, in any letter case. -/
  | anyCase (text : Text)
  /-- One or more characters of a class (or none or more, with `least = 0`), as many as possible. -/
  | run (least : Nat) (members : CharClass)
  /-- The same, but as few as possible. -/
  | shortRun (least : Nat) (members : CharClass)
  /-- One pattern and then another. -/
  | andThen (first second : Pattern)
  /-- The first pattern, or else the second. -/
  | orElse (first second : Pattern)
  /-- The pattern, or else nothing. -/
  | optional (body : Pattern)
  /-- The pattern; what it matches is group `index`. -/
  | group (index : Nat) (body : Pattern)
  /-- The end of the line: nothing, or only a line feed, follows. -/
  | lineEnd
  deriving DecidableEq, Repr

namespace Pattern

/-- The patterns one after another. -/
def inOrder : List Pattern → Pattern
  | [] => .word []
  | [p] => p
  | p :: ps => .andThen p (inOrder ps)

/-- The first of the patterns that leads to a match. -/
def firstOf : List Pattern → Pattern
  | [] => .word []
  | [p] => p
  | p :: ps => .orElse p (firstOf ps)

/-- **A part of a text**, given by the text from its start on and the text from its end on. -/
structure Span where
  start : Text
  rest : Text
  deriving DecidableEq, Repr

/-- What stands in the part. -/
def Span.text (s : Span) : Text :=
  s.start.take (s.start.length - s.rest.length)

/-- The groups matched, the latest first. -/
abbrev Groups := List (Nat × Span)

/-- **A way to match the beginning of a text:** what follows the match, and the groups. -/
structure Outcome where
  rest : Text
  groups : Groups := []
  deriving DecidableEq, Repr

/-- The text of a group, if it took part in the match. -/
def Outcome.group? (o : Outcome) (index : Nat) : Option Text :=
  (o.groups.lookup index).map Span.text

/-- A match of what follows a match, with the groups of both. -/
def Outcome.append (o next : Outcome) : Outcome :=
  ⟨next.rest, next.groups ++ o.groups⟩

/-- The match of the beginning of `t`, marked as a group. -/
def Outcome.mark (index : Nat) (t : Text) (o : Outcome) : Outcome :=
  ⟨o.rest, (index, ⟨t, o.rest⟩) :: o.groups⟩

/-- The small letter a character stands for when letter case does not count. The long s and the
two i without their usual dot are spellings of s and i. -/
def plainLetter (c : Char) : Char :=
  if c == 'ſ' then 's' else if c == 'ı' || c == 'İ' then 'i' else foldChar c

/-- What follows the runs of a class at the beginning of a text, before what follows `shorter` ones:
the longest run comes first. -/
def runRests (holds : Char → Bool) (shorter : List Text) : Text → List Text
  | [] => [] :: shorter
  | c :: t =>
    if holds c then runRests holds ((c :: t) :: shorter) t else (c :: t) :: shorter

/-- What follows the runs of at least `least` characters, the longest first. -/
def longestFirst (least : Nat) (members : CharClass) (t : Text) : List Text :=
  let rests := runRests members.holds [] t
  rests.take (rests.length - least)

/-- The same, the shortest first. -/
def shortestFirst (least : Nat) (members : CharClass) (t : Text) : List Text :=
  (longestFirst least members t).reverse

/-- **All the ways to match the beginning of a text**, best first. -/
def outcomes : Pattern → Text → List Outcome
  | .word w, t => if w.isPrefixOf t then [⟨t.drop w.length, []⟩] else []
  | .anyCase w, t => if w.isPrefixOf (t.map plainLetter) then [⟨t.drop w.length, []⟩] else []
  | .run least members, t => (longestFirst least members t).map fun rest => ⟨rest, []⟩
  | .shortRun least members, t => (shortestFirst least members t).map fun rest => ⟨rest, []⟩
  | .andThen p q, t =>
    (p.outcomes t).flatMap fun o => (q.outcomes o.rest).map o.append
  | .orElse p q, t => p.outcomes t ++ q.outcomes t
  | .optional p, t => p.outcomes t ++ [⟨t, []⟩]
  | .group index p, t => (p.outcomes t).map (Outcome.mark index t)
  | .lineEnd, t => if t = [] ∨ t = ['\n'] then [⟨t, []⟩] else []

/-- **The first outcome that `next` accepts**, with the groups matched before put to its own.
Outcomes are produced one at a time, so that none is computed after the accepted one. -/
def tryAll {α : Type} : Pattern → Text → Groups → (Outcome → Option α) → Option α
  | .word w, t, groups, next =>
    if w.isPrefixOf t then next ⟨t.drop w.length, groups⟩ else none
  | .anyCase w, t, groups, next =>
    if w.isPrefixOf ((t.take w.length).map plainLetter) then next ⟨t.drop w.length, groups⟩
    else none
  | .run least members, t, groups, next =>
    (longestFirst least members t).findSome? fun rest => next ⟨rest, groups⟩
  | .shortRun least members, t, groups, next =>
    (shortestFirst least members t).findSome? fun rest => next ⟨rest, groups⟩
  | .andThen p q, t, groups, next => p.tryAll t groups fun o => q.tryAll o.rest o.groups next
  | .orElse p q, t, groups, next => p.tryAll t groups next <|> q.tryAll t groups next
  | .optional p, t, groups, next => p.tryAll t groups next <|> next ⟨t, groups⟩
  | .group index p, t, groups, next => p.tryAll t groups fun o => next (o.mark index t)
  | .lineEnd, t, groups, next => if t = [] ∨ t = ['\n'] then next ⟨t, groups⟩ else none

/-- The best match of the beginning of a text. -/
def match? (p : Pattern) (t : Text) : Option Outcome :=
  p.tryAll t [] some

/-- The best match at the first place where the pattern matches. -/
def search? (p : Pattern) : Text → Option Outcome
  | [] => p.match? []
  | c :: t =>
    match p.match? (c :: t) with
    | some o => some o
    | none => p.search? t

end Pattern

/-- **A rule about lines:** a pattern, and whether it counts at the start of the line only. -/
structure Rule where
  anchored : Bool
  pattern : Pattern
  deriving DecidableEq, Repr

/-- The match of a rule in a line. -/
def Rule.find (rule : Rule) (line : Text) : Option Pattern.Outcome :=
  if rule.anchored then rule.pattern.match? line else rule.pattern.search? line

/-- The rule matches the line. -/
def Rule.accepts (rule : Rule) (line : Text) : Bool :=
  (rule.find line).isSome

namespace Pattern

/-- The rests of runs are the ends of the text that start in the run or just after it. -/
theorem runRests_eq (holds : Char → Bool) (shorter : List Text) (t : Text) :
    runRests holds shorter t =
      ((List.range ((t.takeWhile holds).length + 1)).map t.drop).reverse ++ shorter := by
  induction t generalizing shorter with
  | nil => simp [runRests]
  | cons c t ih =>
    unfold runRests
    split
    -- the run goes on: the end before `c` is one of the shorter ones
    · rename_i h
      rw [ih, List.takeWhile_cons_of_pos h, List.length_cons,
        List.range_succ_eq_map (n := (t.takeWhile holds).length + 1)]
      simp [Function.comp_def]
    · rename_i h
      rw [List.takeWhile_cons_of_neg h]
      simp

private theorem isPrefixOf_map_take (f : Char → Char) (w t : Text) :
    w.isPrefixOf ((t.take w.length).map f) = w.isPrefixOf (t.map f) := by
  induction w generalizing t with
  | nil => simp
  | cons c w ih =>
    cases t with
    | nil => simp
    | cons d t =>
      simp only [List.length_cons, List.take_succ_cons, List.map_cons, List.isPrefixOf_cons_cons]
      rw [ih]

private theorem findSome?_flatMap {α β γ : Type} (f : α → List β) (g : β → Option γ)
    (xs : List α) : (xs.flatMap f).findSome? g = xs.findSome? fun x => (f x).findSome? g := by
  induction xs with
  | nil => rfl
  | cons x xs ih =>
    simp only [List.flatMap_cons, List.findSome?_append, List.findSome?_cons, ih]
    cases (f x).findSome? g <;> rfl

/-- **Both ways to run a pattern agree:** trying the outcomes one at a time finds the first
acceptable outcome of the list of all of them. -/
theorem tryAll_eq_findSome? {α : Type} (p : Pattern) (t : Text) (groups : Groups)
    (next : Outcome → Option α) :
    p.tryAll t groups next =
      (p.outcomes t).findSome? fun o => next ⟨o.rest, o.groups ++ groups⟩ := by
  induction p generalizing t groups next with
  | word w => simp only [tryAll, outcomes]; split <;> simp
  | anyCase w =>
    simp only [tryAll, outcomes, isPrefixOf_map_take]; split <;> simp
  | run least members => simp [tryAll, outcomes, List.findSome?_map, Function.comp_def]
  | shortRun least members => simp [tryAll, outcomes, List.findSome?_map, Function.comp_def]
  | andThen p q ihp ihq =>
    simp only [tryAll, outcomes, ihp, ihq, findSome?_flatMap, List.findSome?_map,
      Function.comp_def, Outcome.append, List.append_assoc]
  | orElse p q ihp ihq => simp [tryAll, outcomes, ihp, ihq, List.findSome?_append]
  | optional p ih => simp [tryAll, outcomes, ih, List.findSome?_append]
  | group index p ih =>
    simp [tryAll, outcomes, ih, List.findSome?_map, Function.comp_def, Outcome.mark]
  | lineEnd => simp only [tryAll, outcomes]; split <;> simp

/-- The best match is the first outcome. -/
theorem match?_eq_head? (p : Pattern) (t : Text) : p.match? t = (p.outcomes t).head? := by
  rw [match?, tryAll_eq_findSome?]
  cases p.outcomes t <;> simp

end Pattern

end SectionIndex
