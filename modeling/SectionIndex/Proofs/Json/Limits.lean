import Mathlib.Data.List.Infix
import SectionIndex.Proofs.Json.Texts

/-!
# What a reader refuses

A text that is JSON can still have no value: if it holds a number of too many digits, or brackets
that stand inside each other too deep. Both can be seen in the text itself. As a reader takes each
part from the text that the part before left, a fault of a part is one of the whole text.

## Main definitions

* `IsReadable` — the text has a value, or it is no JSON.
* `Shows` — what can be seen in a text that has a fault.
* `IsShort` — no fault can be seen in the text.

## Main statements

* `shows_of_parse` — a fault can be seen in the text.
* `IsShort.isReadable` — short texts are readable.
* `nesting_le_of_parse` — what is read nests no deeper than it may.
-/

namespace SectionIndex

namespace Json

/-- **The text is readable:** it has a value, or it is no JSON. -/
def IsReadable (depth : Nat) (t : Points) : Prop :=
  ∀ fault, parse depth t = .error fault → fault = .malformed

/-- A bracket that opens an array or an object. -/
def isOpening (p : CodePoint) : Bool :=
  p == .char '[' || p == .char '\x7b'

/-- **A run of digits** in a text. -/
def HasRun (digits : Nat) (t : Points) : Prop :=
  ∃ run : Text, run.length = digits ∧ (∀ c ∈ run, c.isDigit = true) ∧ (run : Points) <:+: t

/-- **What can be seen in a text that has a fault:** so many digits in a row, or more brackets than
may stand inside each other. -/
def Shows (depth : Nat) (t : Points) : ParseFault → Prop
  | .malformed => True
  | .numberTooLong digits => maxDigits < digits ∧ HasRun digits t
  | .tooDeep _ => depth < t.countP isOpening

/-- **A reader accounts for a text:** it leaves the end of it, or the text shows the fault. -/
def Accounts {α : Type} (depth : Nat) (t : Points) : Reading α → Prop
  | .error fault => Shows depth t fault
  | .ok (_, rest) => rest <:+ t

variable {α : Type} {depth fuel : Nat} {t rest u : Points} {fault : ParseFault}

/-! ### Ends of a text -/

theorem HasRun.of_suffix {digits : Nat} (h : HasRun digits t) (ht : t <:+ u) :
    HasRun digits u := by
  obtain ⟨run, hlength, hdigits, hrun⟩ := h
  exact ⟨run, hlength, hdigits, hrun.trans ht.isInfix⟩

/-- What the end of a text shows, the text shows. -/
theorem Shows.of_suffix (h : Shows depth t fault) (ht : t <:+ u) : Shows depth u fault := by
  cases fault with
  | malformed => trivial
  | numberTooLong digits => exact ⟨h.1, h.2.of_suffix ht⟩
  | tooDeep bracket => exact Nat.lt_of_lt_of_le h (ht.sublist.countP_le)

/-- Inside a bracket one less may stand. -/
theorem Shows.of_opening {p : CodePoint} (h : Shows depth t fault) (hp : isOpening p = true) :
    Shows (depth + 1) (p :: t) fault := by
  cases fault with
  | malformed => trivial
  | numberTooLong digits => exact ⟨h.1, h.2.of_suffix (List.suffix_cons p t)⟩
  | tooDeep bracket =>
    show depth + 1 < (p :: t).countP isOpening
    rw [List.countP_cons_of_pos hp]
    exact Nat.succ_lt_succ h

/-- Where no bracket may stand, one is too many. -/
theorem shows_tooDeep {p : CodePoint} (bracket : Bracket) (hp : isOpening p = true) :
    Shows 0 (p :: t) (.tooDeep bracket) := by
  show 0 < (p :: t).countP isOpening
  rw [List.countP_cons_of_pos hp]
  exact Nat.succ_pos _

theorem Accounts.of_suffix {reading : Reading α} (h : Accounts depth t reading) (ht : t <:+ u) :
    Accounts depth u reading := by
  cases reading with
  | error fault => exact Shows.of_suffix h ht
  | ok found => exact h.trans ht

theorem Accounts.of_opening {reading : Reading α} {p : CodePoint}
    (h : Accounts depth t reading) (hp : isOpening p = true) :
    Accounts (depth + 1) (p :: t) reading := by
  cases reading with
  | error fault => exact Shows.of_opening h hp
  | ok found => exact h.trans (List.suffix_cons p t)

theorem skipSpace_suffix (t : Points) : skipSpace t <:+ t :=
  List.dropWhile_suffix _

/-! ### Texts -/

theorem suffix_of_unitEscape? {unit : Nat} (h : unitEscape? t = some (unit, rest)) :
    rest <:+ t := by
  unfold unitEscape? at h
  split at h
  · next a b c d t =>
    obtain ⟨_, _, h⟩ := Option.map_eq_some_iff.1 h
    obtain ⟨_, rfl⟩ := Prod.mk.inj h
    exact List.suffix_append [CodePoint.char '\\', CodePoint.char 'u', a, b, c, d] _
  · nomatch h

theorem suffix_of_escape? {p : CodePoint} (h : escape? t = some (p, rest)) : rest <:+ t := by
  -- an escape is a unit, a pair of units or a letter, and reading each of them leaves an end of the
  -- text
  unfold escape? at h
  split at h
  · next first afterFirst hfirst =>
    have hfirst := suffix_of_unitEscape? hfirst
    split at h
    · next second afterPair hsecond =>
      have hsecond := suffix_of_unitEscape? hsecond
      split at h
      · cases h
        exact hsecond.trans hfirst
      · cases h
        exact hfirst
    · cases h
      exact hfirst
  · split at h
    · obtain ⟨_, _, h⟩ := Option.map_eq_some_iff.1 h
      cases h
      exact (List.suffix_cons _ _).trans (List.suffix_cons _ _)
    · nomatch h

/-- A text leaves what follows its closing quote. -/
theorem accounts_parseChars (depth : Nat) (seen t : Points) :
    Accounts depth t (parseChars seen t) := by
  -- by the cases of the reader: each character it passes leaves a shorter end of the text
  induction seen, t using parseChars.induct with
  | case1 seen => rw [parseChars]; trivial
  | case2 seen t => rw [parseChars]; exact List.suffix_cons _ _
  | case3 seen t p rest h ih =>
    rw [parseChars]
    split
    · next heq =>
      rw [h] at heq
      cases heq
      exact ih.of_suffix (suffix_of_escape? h)
    · trivial
  | case4 seen t h =>
    rw [parseChars]
    split
    · next heq =>
      rw [h] at heq
      cases heq
    · trivial
  | case5 seen c t hquote hslash hcontrol =>
    rw [parseChars, if_pos hcontrol]
    · trivial
    · exact hquote
    · exact hslash
  | case6 seen c t hquote hslash hcontrol ih =>
    rw [parseChars, if_neg hcontrol]
    · exact ih.of_suffix (List.suffix_cons _ _)
    · exact hquote
    · exact hslash
  | case7 seen unit t ih =>
    rw [parseChars]
    exact ih.of_suffix (List.suffix_cons _ _)

/-! ### Numbers -/

/-- The digits that are taken stand at the start of the text. -/
theorem exists_takeDigits (seen : Text) (t : Points) :
    ∃ run : Text, (∀ c ∈ run, c.isDigit = true) ∧ (takeDigits seen t).1 = seen.reverse ++ run ∧
      (run : Points) ++ (takeDigits seen t).2 = t := by
  -- by induction on the text: digits are taken up to the first character that is none
  induction t generalizing seen with
  | nil => exact ⟨[], List.forall_mem_nil _, by simp [takeDigits], rfl⟩
  | cons p t ih =>
    cases p with
    | surrogate unit => exact ⟨[], List.forall_mem_nil _, by simp [takeDigits], rfl⟩
    | char c =>
      by_cases hc : c.isDigit = true
      · obtain ⟨run, hdigits, hseen, hrest⟩ := ih (c :: seen)
        refine ⟨c :: run, List.forall_mem_cons.mpr ⟨hc, hdigits⟩, ?_, ?_⟩
        · rw [takeDigits, if_pos hc, hseen]
          simp
        · rw [takeDigits, if_pos hc]
          exact congrArg (CodePoint.char c :: ·) hrest
      · refine ⟨[], List.forall_mem_nil _, ?_, ?_⟩
        · rw [takeDigits, if_neg hc]
          simp
        · rw [takeDigits, if_neg hc]
          rfl

theorem takeDigits_suffix (t : Points) : (takeDigits [] t).2 <:+ t := by
  obtain ⟨run, -, -, hrest⟩ := exists_takeDigits [] t
  exact ⟨run, hrest⟩

/-- The digits before a point stand at the start of the text. -/
theorem takeWhole_append (t : Points) :
    (∀ c ∈ (takeWhole t).1, c.isDigit = true) ∧
      ((takeWhole t).1 : Points) ++ (takeWhole t).2 = t := by
  unfold takeWhole
  split
  · exact ⟨List.forall_mem_singleton.mpr rfl, rfl⟩
  · obtain ⟨run, hdigits, hseen, hrest⟩ := exists_takeDigits [] t
    rw [List.reverse_nil, List.nil_append] at hseen
    rw [hseen]
    exact ⟨hdigits, hrest⟩

theorem takeFraction_suffix (t : Points) : (takeFraction t).2 <:+ t := by
  unfold takeFraction
  split
  · next t =>
    split
    · exact List.suffix_refl _
    · exact (takeDigits_suffix t).trans (List.suffix_cons _ _)
  · exact List.suffix_refl _

theorem takeSign_suffix (t : Points) : (takeSign t).2 <:+ t := by
  unfold takeSign
  split
  · exact List.suffix_cons _ _
  · exact List.suffix_cons _ _
  · exact List.suffix_refl _

theorem takeExponent_suffix (t : Points) : (takeExponent t).2 <:+ t := by
  -- the mark, a sign and the digits are taken from the front, one after the other
  have hmark : ∀ (mark : CodePoint) (t : Points),
      (takeDigits [] (takeSign t).2).2 <:+ mark :: t := fun mark t =>
    ((takeDigits_suffix _).trans (takeSign_suffix t)).trans (List.suffix_cons mark t)
  unfold takeExponent
  split
  · simp only
    split
    · exact List.suffix_refl _
    · next t _ _ _ _ heq =>
      have hrest := hmark (.char 'e') t
      rw [heq] at hrest
      exact hrest
  · simp only
    split
    · exact List.suffix_refl _
    · next t _ _ _ _ heq =>
      have hrest := hmark (.char 'E') t
      rw [heq] at hrest
      exact hrest
  · exact List.suffix_refl _

theorem accounts_parseUnsigned (depth : Nat) (negative : Bool) (t : Points) :
    Accounts depth t (parseUnsigned negative t) := by
  obtain ⟨hdigits, hwhole⟩ := takeWhole_append t
  have hrest : (takeExponent (takeFraction (takeWhole t).2).2).2 <:+ t := by
    have hwhole : (takeWhole t).2 <:+ t := ⟨_, hwhole⟩
    exact ((takeExponent_suffix _).trans (takeFraction_suffix _)).trans hwhole
  unfold parseUnsigned
  simp only
  split
  · trivial
  · split
    · split
      · next hlong =>
        -- the digits that are too many stand at the start
        exact ⟨hlong, _, rfl, hdigits, ⟨[], _, by rw [List.nil_append]; exact hwhole⟩⟩
      · exact hrest
    · exact hrest

theorem accounts_parseNumber (depth : Nat) (t : Points) : Accounts depth t (parseNumber t) := by
  unfold parseNumber
  split
  · exact (accounts_parseUnsigned depth true _).of_suffix (List.suffix_cons _ _)
  · exact accounts_parseUnsigned depth false _

/-! ### Values -/

theorem suffix_of_takeWord? {value : Json} (h : takeWord? t = some (value, rest)) :
    rest <:+ t := by
  obtain ⟨⟨word, found⟩, -, h⟩ := List.exists_of_findSome?_eq_some h
  simp only [Option.ite_none_right_eq_some, Option.some.injEq, Prod.mk.injEq] at h
  obtain ⟨-, -, rfl⟩ := h
  exact List.drop_suffix _ _

theorem accounts_parsePlain (depth : Nat) (t : Points) : Accounts depth t (parsePlain t) := by
  unfold parsePlain
  split
  · next t =>
    have h := (accounts_parseChars depth [] t).of_suffix (List.suffix_cons (.char '"') t)
    cases hchars : parseChars [] t with
    | error fault => rw [hchars] at h; exact h
    | ok found => rw [hchars] at h; exact h
  · split
    · next found hword => exact suffix_of_takeWord? hword
    · exact accounts_parseNumber depth _

/-- After white space and a sign the text goes on. -/
theorem suffix_of_skipSpace {c : Char} {after : Points} (h : skipSpace rest = .char c :: after)
    (hrest : rest <:+ t) : after <:+ t ∧ skipSpace after <:+ t := by
  have hafter : after <:+ t := by
    have hskip := skipSpace_suffix rest
    rw [h] at hskip
    exact ((List.suffix_cons _ _).trans hskip).trans hrest
  exact ⟨hafter, (skipSpace_suffix after).trans hafter⟩

mutual

/-- **A value accounts for its text.** Of the values between brackets each starts where the one
before ends, and one bracket less may stand around what is inside. -/
theorem accounts_parseValue : ∀ (depth fuel : Nat) (t : Points),
    Accounts depth t (parseValue depth fuel t)
  | _, 0, _ => by rw [parseValue]; trivial
  | depth, fuel + 1, t => by
    unfold parseValue
    split
    · trivial
    · next heq =>
      cases heq
      cases depth with
      | zero => exact shows_tooDeep .square rfl
      | succ depth =>
        simp only
        split
        · next hskip => exact (suffix_of_skipSpace hskip (List.suffix_cons _ _)).1
        · exact ((accounts_parseItems depth fuel [] _).of_suffix (skipSpace_suffix _)).of_opening
            rfl
    · next heq =>
      cases heq
      cases depth with
      | zero => exact shows_tooDeep .curly rfl
      | succ depth =>
        simp only
        split
        · next hskip => exact (suffix_of_skipSpace hskip (List.suffix_cons _ _)).1
        · exact ((accounts_parseMembers depth fuel [] _).of_suffix (skipSpace_suffix _)).of_opening
            rfl
    · exact accounts_parsePlain depth _

/-- The same for an array from its next item on. -/
theorem accounts_parseItems : ∀ (depth fuel : Nat) (seen : List Json) (t : Points),
    Accounts depth t (parseItems depth fuel seen t)
  | _, 0, _, _ => by rw [parseItems]; trivial
  | depth, fuel + 1, seen, t => by
    have hvalue := accounts_parseValue depth fuel t
    rw [parseItems]
    split
    · next fault heq =>
      rw [heq] at hvalue
      exact hvalue
    · next item rest heq =>
      rw [heq] at hvalue
      split
      · next hskip => exact (suffix_of_skipSpace hskip hvalue).1
      · next hskip =>
        exact (accounts_parseItems depth fuel _ _).of_suffix (suffix_of_skipSpace hskip hvalue).2
      · trivial

/-- The same for an object from its next member on. -/
theorem accounts_parseMembers : ∀ (depth fuel : Nat) (seen : Members) (t : Points),
    Accounts depth t (parseMembers depth fuel seen t)
  | _, 0, _, _ => by rw [parseMembers]; trivial
  | depth, fuel + 1, seen, t => by
    unfold parseMembers
    split
    · trivial
    · next t heq =>
      cases heq
      have hkey := (accounts_parseChars depth [] t).of_suffix (List.suffix_cons (.char '"') t)
      split
      · next fault heq =>
        rw [heq] at hkey
        exact hkey
      · next key afterKey heq =>
        rw [heq] at hkey
        split
        · next afterColon hcolon =>
          have hcolon := (suffix_of_skipSpace hcolon hkey).2
          have hvalue := (accounts_parseValue depth fuel (skipSpace afterColon)).of_suffix hcolon
          split
          · next fault heq =>
            rw [heq] at hvalue
            exact hvalue
          · next value rest heq =>
            rw [heq] at hvalue
            split
            · next hskip => exact (suffix_of_skipSpace hskip hvalue).1
            · next hskip =>
              exact (accounts_parseMembers depth fuel _ _).of_suffix
                (suffix_of_skipSpace hskip hvalue).2
            · trivial
        · trivial
    · trivial

end

/-- **A fault can be seen in the text.** -/
theorem shows_of_parse (h : parse depth t = .error fault) : Shows depth t fault := by
  have hvalue := (accounts_parseValue depth (2 * t.length + 2) (skipSpace t)).of_suffix
    (skipSpace_suffix t)
  unfold parse at h
  split at h
  · next heq =>
    rw [heq] at hvalue
    cases h
    exact hvalue
  · split at h
    · nomatch h
    · cases h
      trivial

/-- **A text is short:** it has neither too many digits in a row nor more brackets than may stand
inside each other. -/
structure IsShort (depth : Nat) (t : Points) : Prop where
  digits : ∀ digits, HasRun digits t → digits ≤ maxDigits
  brackets : t.countP isOpening ≤ depth

/-- **Short texts are readable.** -/
theorem IsShort.isReadable (h : IsShort depth t) : IsReadable depth t := by
  intro fault hparse
  have hshows := shows_of_parse hparse
  cases fault with
  | malformed => rfl
  | numberTooLong digits => exact absurd hshows.1 (Nat.not_lt.mpr (h.digits digits hshows.2))
  | tooDeep bracket => exact absurd hshows (Nat.not_lt.mpr h.brackets)

/-! ### How deep a value nests -/

theorem nesting_of_parsePlain {value : Json} (h : parsePlain t = .ok (value, rest)) :
    value.nesting = 0 := by
  have hword : ∀ entry ∈ words, entry.2.nesting = 0 := by decide
  have hunsigned {negative : Bool} {t : Points}
      (h : parseUnsigned negative t = .ok (value, rest)) : value.nesting = 0 := by
    unfold parseUnsigned at h
    simp only at h
    split at h
    · nomatch h
    split at h
    · split at h
      · nomatch h
      · cases h; rfl
    · cases h; rfl
  -- a text, a word or a number: none of them has a value in it
  unfold parsePlain at h
  split at h
  · next t =>
    cases hchars : parseChars [] t with
    | error fault => rw [hchars] at h; nomatch h
    | ok found => rw [hchars] at h; cases h; rfl
  · split at h
    · next found hfound =>
      cases h
      obtain ⟨entry, hentry, hvalue⟩ := List.exists_of_findSome?_eq_some hfound
      simp only [Option.ite_none_right_eq_some, Option.some.injEq, Prod.mk.injEq] at hvalue
      rw [← hvalue.2.1]
      exact hword entry hentry
    · unfold parseNumber at h
      split at h
      · exact hunsigned h
      · exact hunsigned h

theorem forall_nesting_put {members : Members} {value : Json} {n : Nat} (key : Points)
    (h : ∀ member ∈ members, member.2.nesting ≤ n) (hvalue : value.nesting ≤ n) :
    ∀ member ∈ members.put key value, member.2.nesting ≤ n := by
  induction members with
  | nil => exact List.forall_mem_singleton.mpr hvalue
  | cons member members ih =>
    obtain ⟨hmember, hmembers⟩ := List.forall_mem_cons.mp h
    rw [Members.put]
    split
    · exact List.forall_mem_cons.mpr ⟨hvalue, hmembers⟩
    · exact List.forall_mem_cons.mpr ⟨hmember, ih hmembers⟩

mutual

/-- **No bracket in a value stands deeper than it may.** The three readers call each other, each
with less fuel, so this is an induction on the fuel; it goes through the items and members that were
read before, which nest one less than the value that they become part of. -/
theorem nesting_le_of_parseValue : ∀ (depth fuel : Nat) (t : Points) {value : Json} {rest : Points},
    parseValue depth fuel t = .ok (value, rest) → value.nesting ≤ depth
  | _, 0, _, _, _, h => by rw [parseValue] at h; nomatch h
  | depth, fuel + 1, t, _, _, h => by
    unfold parseValue at h
    split at h
    · nomatch h
    · next heq =>
      cases heq
      cases depth with
      | zero => nomatch h
      | succ depth =>
        simp only at h
        split at h
        · cases h
          exact Nat.le_add_left 1 depth
        · exact nesting_le_of_parseItems depth fuel [] _ (List.forall_mem_nil _) h
    · next heq =>
      cases heq
      cases depth with
      | zero => nomatch h
      | succ depth =>
        simp only at h
        split at h
        · cases h
          exact Nat.le_add_left 1 depth
        · exact nesting_le_of_parseMembers depth fuel [] _ (List.forall_mem_nil _) h
    · rw [nesting_of_parsePlain h]
      exact Nat.zero_le depth

/-- The same for an array from its next item on. -/
theorem nesting_le_of_parseItems : ∀ (depth fuel : Nat) (seen : List Json) (t : Points)
    {value : Json} {rest : Points}, (∀ item ∈ seen, item.nesting ≤ depth) →
    parseItems depth fuel seen t = .ok (value, rest) → value.nesting ≤ depth + 1
  | _, 0, _, _, _, _, _, h => by rw [parseItems] at h; nomatch h
  | depth, fuel + 1, seen, t, _, _, hseen, h => by
    rw [parseItems] at h
    split at h
    · nomatch h
    · next item rest hitem =>
      have hseen : ∀ other ∈ item :: seen, other.nesting ≤ depth :=
        List.forall_mem_cons.mpr ⟨nesting_le_of_parseValue depth fuel t hitem, hseen⟩
      split at h
      · cases h
        refine nesting_arr_le_iff.mpr fun other hother => hseen other ?_
        rwa [List.mem_reverse] at hother
      · exact nesting_le_of_parseItems depth fuel _ _ hseen h
      · nomatch h

/-- The same for an object from its next member on. -/
theorem nesting_le_of_parseMembers : ∀ (depth fuel : Nat) (seen : Members) (t : Points)
    {value : Json} {rest : Points}, (∀ member ∈ seen, member.2.nesting ≤ depth) →
    parseMembers depth fuel seen t = .ok (value, rest) → value.nesting ≤ depth + 1
  | _, 0, _, _, _, _, _, h => by rw [parseMembers] at h; nomatch h
  | depth, fuel + 1, seen, t, _, _, hseen, h => by
    unfold parseMembers at h
    split at h
    · nomatch h
    · next t heq =>
      cases heq
      split at h
      · nomatch h
      · next key afterKey _ =>
        split at h
        · split at h
          · nomatch h
          · next value afterValue hvalue =>
            have hseen := forall_nesting_put key hseen
              (nesting_le_of_parseValue depth fuel _ hvalue)
            split at h
            · cases h
              exact nesting_obj_le_iff.mpr hseen
            · exact nesting_le_of_parseMembers depth fuel _ _ hseen h
            · nomatch h
        · nomatch h
    · nomatch h

end

/-- **A value nests no deeper than the brackets of its text may.** -/
theorem nesting_le_of_parse {value : Json} (h : parse depth t = .ok value) :
    value.nesting ≤ depth := by
  unfold parse at h
  split at h
  · nomatch h
  · next found rest hvalue =>
    split at h
    · cases h
      exact nesting_le_of_parseValue depth _ _ hvalue
    · nomatch h

/-! ### Numerals that are too long -/

section LongNumerals

variable {d : Char} {digits : Text}

/-- A text that starts with a digit starts with no other character. -/
theorem ne_of_isDigit (hd : d.isDigit = true) {c : Char} (hc : c.isDigit = false) (t u : Points) :
    CodePoint.char d :: t ≠ .char c :: u := by
  intro heq
  rw [CodePoint.char.inj (List.cons.inj heq).1, hc] at hd
  nomatch hd

theorem parsePlain_of_long (hdigits : ∀ c ∈ digits, c.isDigit = true)
    (hfirst : digits.head? ≠ some '0') (hlong : maxDigits < digits.length) :
    parsePlain (digits : Points) = .error (.numberTooLong digits.length) := by
  cases digits with
  | nil => nomatch hlong
  | cons d digits =>
    have hd := hdigits d List.mem_cons_self
    have hwhole := takeWhole_of_digits hdigits (List.cons_ne_nil _ _) hfirst endsNumber_nil
    rw [List.append_nil] at hwhole
    unfold parsePlain
    split
    · next heq => exact absurd heq (ne_of_isDigit hd rfl _ _)
    · rw [show takeWord? ((d :: digits : Text) : Points) = none from (takeWord?_of_isDigit hd _).1]
      simp only
      rw [parseNumber, parseUnsigned, hwhole]
      · simpa [takeFraction, takeExponent] using hlong
      · exact fun _ => ne_of_isDigit hd rfl _ _

/-- **A numeral of too many digits** is not readable. -/
theorem parse_of_long (depth : Nat) (hdigits : ∀ c ∈ digits, c.isDigit = true)
    (hfirst : digits.head? ≠ some '0') (hlong : maxDigits < digits.length) :
    parse depth (digits : Points) = .error (.numberTooLong digits.length) := by
  have hplain := parsePlain_of_long hdigits hfirst hlong
  cases digits with
  | nil => nomatch hlong
  | cons d digits =>
    have hd := hdigits d List.mem_cons_self
    -- the text starts with a digit, so no blank and no bracket stands before the number
    have hspace : isSpace (.char d) = false := by
      have hblank : ∀ c, c.isDigit = false → d ≠ c := by
        rintro c hc rfl
        exact absurd hd (by simp [hc])
      simp [isSpace, hblank ' ' rfl, hblank '\t' rfl, hblank '\n' rfl, hblank '\r' rfl]
    have hskip : skipSpace ((d :: digits : Text) : Points) = ((d :: digits : Text) : Points) := by
      simp [skipSpace, hspace]
    have hvalue : parseValue depth (2 * ((d :: digits : Text) : Points).length + 2)
        ((d :: digits : Text) : Points) = .error (.numberTooLong (d :: digits).length) := by
      rw [parseValue]
      · exact hplain
      · exact fun _ => ne_of_isDigit hd rfl _ _
      · exact fun _ => ne_of_isDigit hd rfl _ _
    rw [parse, hskip, hvalue]

end LongNumerals

end Json

end SectionIndex
