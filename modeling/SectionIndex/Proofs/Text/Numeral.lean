import SectionIndex.Block.Parser
import SectionIndex.Proofs.Text.Trim
import Mathlib.Algebra.Group.Nat.Defs
import Mathlib.Data.List.TakeWhile

/-!
# Numerals that are written and read

The numeral of a number is read as that number if it is not too long. The cells of a table hold
numerals without a sign only, so a negative number is not read back from a cell.

## Main definitions

* `IsNumeral` — the digits of a number that is read.
* `Fault.IsOfNumber` — the fault of a number that cannot be read or written.

## Main statements

* `readNumber_ofNat` — a numeral is read as its number.
* `readNumber_of_overlong` — too many digits are no number.
* `exists_readNumber_iff` — when a text that shows digits is read.
* `Block.isDigitCell_ofInt` — the numerals that a cell may hold.
* `Block.nonneg_of_readNumber` — a number that is read from a cell is not negative.
-/

namespace SectionIndex

theorem isDigit_of_mem_ofNat {n : Nat} {c : Char} (h : c ∈ Text.ofNat n) : c.isDigit = true :=
  Nat.isDigit_of_mem_toDigits (by decide) (by decide) h

theorem ofNat_ne_nil (n : Nat) : Text.ofNat n ≠ [] :=
  Nat.toDigits_ne_nil

theorem isBlank_of_isDigit {c : Char} (h : c.isDigit = true) : isBlank c = false := by
  simp only [Char.isDigit, Bool.and_eq_true, decide_eq_true_eq, UInt32.le_iff_toNat_le] at h
  have hlow : 48 ≤ c.toNat := h.1
  have hhigh : c.toNat ≤ 57 := h.2
  have hsmall : c.toNat < 0x80 := by omega
  rw [isBlank, if_pos hsmall]
  simp only [Bool.or_eq_false_iff, Bool.and_eq_false_iff, decide_eq_false_iff_not]
  omega

/-- A character that is no digit stands in no numeral. -/
theorem not_mem_ofNat {n : Nat} {c : Char} (h : c.isDigit = false) : c ∉ Text.ofNat n := by
  intro hmem
  rw [isDigit_of_mem_ofNat hmem] at h
  exact absurd h (by decide)

theorem digitsValue_ofNat (n : Nat) : digitsValue (Text.ofNat n) = n := by
  have hfold : ∀ (t : Text) (value : Nat), (∀ c ∈ t, c.isDigit = true) →
      t.foldl (fun value c => (decimalValue? c).elim value (10 * value + ·)) value =
        Nat.ofDigitChars 10 t value := by
    intro t
    induction t with
    | nil => intro value _; rfl
    | cons c t ih =>
      intro value ht
      obtain ⟨hc, ht⟩ := List.forall_mem_cons.mp ht
      rw [List.foldl_cons, ih _ ht, decimalValue?_of_isDigit c hc]
      rfl
  rw [digitsValue, hfold _ _ fun c => isDigit_of_mem_ofNat]
  exact Nat.ofDigitChars_ten_toDigits

/-! ### Characters that show digits -/

/-- The ranges of the characters that show a digit. -/
def digitRanges : CodeRanges :=
  zeroPoints.map (fun first => (first, first + 9)) ++ digitFormRanges

theorem exists_of_isDigitForm {c : Char} (h : isDigitForm c = true) :
    ∃ range ∈ digitRanges, range.1 ≤ c.toNat ∧ c.toNat ≤ range.2 := by
  rw [isDigitForm, Bool.or_eq_true] at h
  rcases h with h | h
  · rw [isDecimal, decimalValue?, Option.isSome_map, List.find?_isSome] at h
    obtain ⟨first, hfirst, hrange⟩ := h
    rw [Bool.and_eq_true, decide_eq_true_eq, decide_eq_true_eq] at hrange
    exact ⟨(first, first + 9), List.mem_append_left _ (List.mem_map_of_mem hfirst), hrange⟩
  · obtain ⟨range, hmem, hrange⟩ := (CodeRanges.hasChar_iff _ c).mp h
    exact ⟨range, List.mem_append_right _ hmem, hrange⟩

/-- **A blank shows no digit.** -/
theorem isBlank_of_isDigitForm {c : Char} (h : isDigitForm c = true) : isBlank c = false := by
  -- no range of blanks meets a range of digits
  have hapart : ∀ blank ∈ (9, 13) :: (28, 32) :: blankRanges, ∀ digit ∈ digitRanges,
      blank.2 < digit.1 ∨ digit.2 < blank.1 := by
    decide +kernel
  obtain ⟨digit, hdigit, hlow, hhigh⟩ := exists_of_isDigitForm h
  have houtside : ∀ blank ∈ (9, 13) :: (28, 32) :: blankRanges,
      ¬ (blank.1 ≤ c.toNat ∧ c.toNat ≤ blank.2) := by
    rintro blank hblank ⟨hlow', hhigh'⟩
    have := hapart blank hblank digit hdigit
    omega
  simp only [List.forall_mem_cons] at houtside
  obtain ⟨hlines, hspaces, hwide⟩ := houtside
  unfold isBlank
  split
  · simp only [Bool.or_eq_false_iff, Bool.and_eq_false_iff, decide_eq_false_iff_not]
    omega
  · rw [← Bool.not_eq_true, CodeRanges.hasChar_iff]
    rintro ⟨blank, hblank, hrange⟩
    exact hwide blank hblank hrange

/-! ### Texts of digits -/

/-- Decimal digits are read unless there are too many of them. -/
theorem readDigits_of_decimals {t : Text} (ht : ∀ c ∈ t, isDecimal c = true) (hne : t ≠ []) :
    readDigits t =
      if maxDigits < t.length then .error (.tooLong t.length) else .ok (digitsValue t) := by
  have hrun : t.takeWhile (fun c => isDecimal c || c == '_') = t :=
    List.takeWhile_eq_self_iff.mpr fun c hc => by rw [ht c hc, Bool.true_or]
  have hsplit : t.splitOn '_' = [t] := by
    refine List.splitOn_eq_singleton fun hmem => ?_
    exact absurd (ht _ hmem) (by decide)
  have hcount : t.countP isDecimal = t.length := List.countP_eq_length.mpr ht
  simp only [readDigits, hrun, hsplit, hcount]
  rw [if_neg (by simp [hne]), if_neg (Nat.lt_irrefl t.length)]

section Digits

variable {t : Text} (ht : ∀ c ∈ t, c.isDigit = true)

include ht

theorem takeWhile_isDecimal_of_digits : t.takeWhile isDecimal = t :=
  List.takeWhile_eq_self_iff.mpr fun c hc => isDecimal_of_isDigit c (ht c hc)

/-- Digits are read unless there are too many of them. -/
theorem readDigits_of_digits (hne : t ≠ []) :
    readDigits t =
      if maxDigits < t.length then .error (.tooLong t.length) else .ok (digitsValue t) :=
  readDigits_of_decimals (fun c hc => isDecimal_of_isDigit c (ht c hc)) hne

/-- Nothing is trimmed off digits, and they have no sign. -/
theorem readInt_of_digits : readInt t = (readDigits t).map fun n => (n : Int) := by
  have hblank : ∀ c ∈ t, isNumeralBlank c = false := by
    intro c hc
    rw [isNumeralBlank, isBlank_of_isDigit (ht c hc), Bool.false_and]
  have htrim : Text.trim isNumeralBlank t = t :=
    Text.trim_of_ends (fun c hc => hblank c (List.mem_of_mem_head? hc))
      (fun c hc => hblank c (List.mem_of_getLast? hc))
  rw [readInt, htrim]
  have hsign : ∀ (c : Char) (rest : Text), t = c :: rest → c.isDigit = true :=
    fun c rest heq => ht c (heq ▸ List.mem_cons_self)
  split
  · next rest => exact absurd (hsign _ _ rfl) (by decide)
  · next rest => exact absurd (hsign _ _ rfl) (by decide)
  · rfl

/-- **Too many digits are no number.** -/
theorem readNumber_of_overlong (h : maxDigits < t.length) :
    readNumber t = .error (.numberTooLong (some t.length)) := by
  have hne : t ≠ [] := by
    rintro rfl
    exact absurd h (Nat.not_lt_zero _)
  rw [readNumber, readInt_of_digits ht, readDigits_of_digits ht hne, if_pos h]
  rfl

end Digits

/-! ### Texts that show digits -/

/-- **The digits of a number that is read** are decimal, and not too many. -/
structure IsNumeral (t : Text) : Prop where
  isDecimal_eq : ∀ c ∈ t, isDecimal c = true
  length_le : t.length ≤ maxDigits

/-- What follows other characters than decimal digits and underscores is not read. -/
theorem readDigits_ne_ok {t : Text} {c : Char} (hmem : c ∈ t) (hdecimal : isDecimal c = false)
    (hunderscore : c ≠ '_') (n : Nat) : readDigits t ≠ .ok n := by
  have hlength : (t.takeWhile fun c => isDecimal c || c == '_').length < t.length := by
    refine Nat.lt_of_le_of_ne (List.takeWhile_prefix _).length_le fun heq => ?_
    have hall := List.takeWhile_eq_self_iff.mp ((List.takeWhile_prefix _).eq_of_length heq) c hmem
    rw [hdecimal, Bool.false_or, beq_iff_eq] at hall
    exact hunderscore hall
  -- something is left after the digits, so the text is malformed if it is not too long already
  simp only [readDigits, if_pos hlength]
  split
  · exact nofun
  · split <;> exact nofun

/-- **A text that shows digits is read** if it is the digits of a number, and only then. -/
theorem exists_readNumber_iff {t : Text} (ht : ∀ c ∈ t, isDigitForm c = true) (hne : t ≠ []) :
    (∃ n, readNumber t = .ok n) ↔ IsNumeral t := by
  -- nothing is trimmed off the text, and it has no sign and no underscore
  have htrim : Text.trim isNumeralBlank t = t := by
    have hblank : ∀ c ∈ t, isNumeralBlank c = false := fun c hc => by
      rw [isNumeralBlank, isBlank_of_isDigitForm (ht c hc), Bool.false_and]
    exact Text.trim_of_ends (fun c hc => hblank c (List.mem_of_mem_head? hc))
      (fun c hc => hblank c (List.mem_of_getLast? hc))
  have hread : readInt t = (readDigits t).map fun n => (n : Int) := by
    have hsign : ∀ (c : Char) (rest : Text), t = c :: rest → isDigitForm c = true :=
      fun c rest heq => ht c (heq ▸ List.mem_cons_self)
    rw [readInt, htrim]
    split
    · next rest => exact absurd (hsign _ _ rfl) (by decide)
    · next rest => exact absurd (hsign _ _ rfl) (by decide)
    · rfl
  have hdigits : (∃ n, readNumber t = .ok n) ↔ ∃ n, readDigits t = .ok n := by
    rw [readNumber, hread]
    cases readDigits t with
    | error fault => exact iff_of_false nofun nofun
    | ok n => exact iff_of_true ⟨_, rfl⟩ ⟨_, rfl⟩
  rw [hdigits]
  by_cases hall : ∀ c ∈ t, isDecimal c = true
  · rw [readDigits_of_decimals hall hne]
    split
    · next hlong => exact iff_of_false nofun fun h => absurd h.length_le (Nat.not_le.mpr hlong)
    · next hshort => exact iff_of_true ⟨_, rfl⟩ ⟨hall, Nat.le_of_not_lt hshort⟩
  · refine iff_of_false ?_ fun h => hall h.isDecimal_eq
    simp only [not_forall, Bool.not_eq_true] at hall
    obtain ⟨c, hmem, hdecimal⟩ := hall
    rintro ⟨n, hn⟩
    refine readDigits_ne_ok hmem hdecimal ?_ n hn
    rintro rfl
    exact absurd (ht _ hmem) (by decide)

/-! ### Faults of numbers -/

/-- **The fault of a number** that cannot be read or written. -/
def Fault.IsOfNumber : Fault → Prop
  | .notANumber _ => True
  | .numberTooLong _ => True
  | _ => False

/-- **Steps that can fail**, one after the other, give a result if and only if each of them does. -/
theorem Fault.exists_bind_eq_ok_iff {α β : Type} {step : Except Fault α}
    {next : α → Except Fault β} :
    (∃ b, (step >>= next) = .ok b) ↔ ∃ a, step = .ok a ∧ ∃ b, next a = .ok b := by
  constructor
  · rintro ⟨b, h⟩
    obtain ⟨a, ha, hb⟩ := bind_eq_ok_iff.mp h
    exact ⟨a, ha, b, hb⟩
  · rintro ⟨a, ha, b, hb⟩
    exact ⟨b, bind_eq_ok_iff.mpr ⟨a, ha, hb⟩⟩

/-- **A fault of steps**, one after the other, is the fault of one of them. -/
theorem Fault.of_bind {α β : Type} {step : Except Fault α} {next : α → Except Fault β}
    {P : Fault → Prop} {fault : Fault} (h : (step >>= next) = .error fault)
    (hstep : ∀ fault, step = .error fault → P fault)
    (hnext : ∀ a, step = .ok a → next a = .error fault → P fault) : P fault := by
  cases step with
  | error fault' =>
    obtain rfl : fault' = fault := Except.error.inj h
    exact hstep fault' rfl
  | ok a => exact hnext a rfl h

/-- **Something is true of all faults of steps**, one after the other, if it is of each step's. -/
theorem Fault.forall_error_bind_iff {α β : Type} {step : Except Fault α}
    {next : α → Except Fault β} {P : Fault → Prop} :
    (∀ fault, (step >>= next) = .error fault → P fault) ↔
      (∀ fault, step = .error fault → P fault) ∧
        ∀ a, step = .ok a → ∀ fault, next a = .error fault → P fault := by
  constructor
  · intro h
    refine ⟨fun fault hfault => h fault ?_, fun a ha fault hfault => h fault ?_⟩
    · rw [hfault]
      rfl
    · rw [ha]
      exact hfault
  · rintro ⟨hstep, hnext⟩ fault h
    exact of_bind h hstep fun a ha => hnext a ha fault

theorem Fault.isOfNumber_of_bind {α β : Type} {step : Except Fault α}
    {next : α → Except Fault β} {fault : Fault} (h : (step >>= next) = .error fault)
    (hstep : ∀ fault, step = .error fault → fault.IsOfNumber)
    (hnext : ∀ a, step = .ok a → next a = .error fault → fault.IsOfNumber) :
    fault.IsOfNumber :=
  of_bind h hstep hnext

/-- What is wrong with a number that is read is a fault of a number. -/
theorem isOfNumber_of_readNumber {t : Text} {fault : Fault} (h : readNumber t = .error fault) :
    fault.IsOfNumber := by
  unfold readNumber at h
  cases hread : readInt t with
  | ok n => rw [hread] at h; cases h
  | error cause =>
    rw [hread] at h
    cases h
    cases cause <;> exact trivial

/-! ### Numerals -/

/-- The numbers that can be written are the ones below a power of ten. -/
theorem isWritable_iff {n : Int} : isWritable n = true ↔ n.natAbs < 10 ^ maxDigits := by
  rw [isWritable, decide_eq_true_eq]
  exact Nat.length_toDigits_le_iff (by decide) (by decide)

/-- A number that is not larger than one that can be written can be written too. -/
theorem isWritable_of_le {m n : Int} (hm : 0 ≤ m) (h : m ≤ n) (hn : isWritable n = true) :
    isWritable m = true := by
  rw [isWritable_iff] at hn ⊢
  generalize 10 ^ maxDigits = limit at hn ⊢
  omega

/-- A digit has a value below ten. -/
theorem decimalValue?_lt {c : Char} {d : Nat} (h : decimalValue? c = some d) : d < 10 := by
  obtain ⟨first, hfirst, rfl⟩ := Option.map_eq_some_iff.mp h
  have hrange := List.find?_some hfirst
  simp only [Bool.and_eq_true, decide_eq_true_eq] at hrange
  omega

/-- **A number has no more places than digits**, by induction on its digits. -/
theorem digitsValue_lt (t : Text) : digitsValue t < 10 ^ t.countP isDecimal := by
  -- each digit adds a place to the value
  have hfold : ∀ (t : Text) (value : Nat),
      t.foldl (fun value c => (decimalValue? c).elim value (10 * value + ·)) value <
        (value + 1) * 10 ^ t.countP isDecimal := by
    intro t
    induction t with
    | nil => intro value; simp
    | cons c t ih =>
      intro value
      rw [List.foldl_cons]
      cases hc : decimalValue? c with
      | none =>
        rw [List.countP_cons_of_neg (by simp [isDecimal, hc])]
        exact ih value
      | some d =>
        have hd := decimalValue?_lt hc
        rw [List.countP_cons_of_pos (by simp [isDecimal, hc])]
        calc t.foldl _ (10 * value + d)
            < (10 * value + d + 1) * 10 ^ t.countP isDecimal := ih (10 * value + d)
          _ ≤ ((value + 1) * 10) * 10 ^ t.countP isDecimal :=
              Nat.mul_le_mul_right _ (by omega)
          _ = (value + 1) * 10 ^ (t.countP isDecimal + 1) := by
              rw [Nat.pow_succ, Nat.mul_assoc, Nat.mul_comm 10]
  simpa [digitsValue] using hfold t 0

theorem lt_of_readDigits {t : Text} {n : Nat} (h : readDigits t = .ok n) :
    n < 10 ^ maxDigits := by
  unfold readDigits at h
  simp only at h
  split at h
  · cases h
  split at h
  · cases h
  · next hcount =>
    split at h
    · cases h
    · cases h
      exact Nat.lt_of_lt_of_le (digitsValue_lt _)
        (Nat.pow_le_pow_right (by decide) (Nat.not_lt.mp hcount))

/-- **A number that is read can be written.** -/
theorem isWritable_of_readNumber {t : Text} {n : Int} (h : readNumber t = .ok n) :
    isWritable n = true := by
  have hread : readInt t = .ok n := by
    unfold readNumber at h
    cases hread : readInt t with
    | ok m => rw [hread] at h; exact congrArg Except.ok (Except.ok.inj h)
    | error cause => rw [hread] at h; cases h
  -- the sign does not count
  have hsigned {t : Text} {sign : Int → Int} (hsign : ∀ m : Nat, (sign m).natAbs = m)
      (h : Except.map sign (do let m ← readDigits t; pure (m : Int)) = .ok n) :
      isWritable n = true := by
    cases hvalue : readDigits t with
    | ok m =>
      rw [hvalue] at h
      cases h
      rw [isWritable_iff, hsign]
      exact lt_of_readDigits hvalue
    | error cause => rw [hvalue] at h; cases h
  unfold readInt at hread
  split at hread
  · exact hsigned (fun m => by rw [Int.natAbs_neg]; rfl) hread
  · exact hsigned (fun m => rfl) hread
  · exact hsigned (fun m => rfl) hread

theorem readInt_ofNat {n : Nat} (h : (Text.ofNat n).length ≤ maxDigits) :
    readInt (Text.ofNat n) = .ok (n : Int) := by
  have hdigits : ∀ c ∈ Text.ofNat n, c.isDigit = true := fun c => isDigit_of_mem_ofNat
  rw [readInt_of_digits hdigits, readDigits_of_digits hdigits (ofNat_ne_nil n),
    if_neg (Nat.not_lt.mpr h), digitsValue_ofNat]
  rfl

/-- **A numeral is read as its number**, if it is not too long. -/
theorem readNumber_ofNat {n : Nat} (h : isWritable n = true) :
    readNumber (Text.ofNat n) = .ok (n : Int) := by
  rw [readNumber, readInt_ofNat (by simpa [isWritable] using h)]
  rfl

theorem ofInt_ne_nil (n : Int) : Text.ofInt n ≠ [] := by
  cases n with
  | ofNat n => exact ofNat_ne_nil n
  | negSucc n => simp [Text.ofInt]

theorem mem_ofInt {n : Int} {c : Char} (h : c ∈ Text.ofInt n) : c = '-' ∨ c.isDigit = true := by
  cases n with
  | ofNat n => exact Or.inr (isDigit_of_mem_ofNat h)
  | negSucc n =>
    rw [Text.ofInt, List.mem_cons] at h
    exact h.imp id isDigit_of_mem_ofNat

theorem not_mem_ofInt {n : Int} {c : Char} (hsign : c ≠ '-') (h : c.isDigit = false) :
    c ∉ Text.ofInt n := by
  intro hmem
  rcases mem_ofInt hmem with hc | hc
  · exact hsign hc
  · rw [h] at hc
    exact absurd hc (by decide)

theorem strip_ofInt (n : Int) : (Text.ofInt n).strip = Text.ofInt n := by
  refine Text.strip_of_forall fun c hc => ?_
  rcases mem_ofInt hc with rfl | hc
  · rfl
  · exact isBlank_of_isDigit hc

theorem readNumber_ofInt {n : Int} (hn : 0 ≤ n) (h : isWritable n = true) :
    readNumber (Text.ofInt n) = .ok n := by
  obtain ⟨m, rfl⟩ := Int.eq_ofNat_of_zero_le hn
  exact readNumber_ofNat h

namespace Block

theorem isDigitCell_ofNat (n : Nat) : isDigitCell (Text.ofNat n) = true := by
  simp only [isDigitCell, Bool.and_eq_true, List.all_eq_true]
  refine ⟨by simp [ofNat_ne_nil], fun c hc => ?_⟩
  rw [isDigitForm, isDecimal_of_isDigit c (isDigit_of_mem_ofNat hc), Bool.true_or]

/-- **The numerals that a cell may hold** are those without a sign. -/
theorem isDigitCell_ofInt (n : Int) : isDigitCell (Text.ofInt n) = decide (0 ≤ n) := by
  cases n with
  | ofNat n => simpa using isDigitCell_ofNat n
  | negSucc n =>
    have hsign : isDigitForm '-' = false := by decide
    simp [isDigitCell, Text.ofInt, hsign]

/-- **A number that is read from a cell is not negative**, as a sign shows no digit. -/
theorem nonneg_of_readNumber {cell : Text} {n : Int} (hcell : isDigitCell cell = true)
    (h : readNumber cell = .ok n) : 0 ≤ n := by
  simp only [isDigitCell, Bool.and_eq_true, List.all_eq_true] at hcell
  -- digits have no negative value, so only a sign could make one
  have hdigits : ∀ (t : Text) (m : Int), (readDigits t).map (fun n => (n : Int)) = .ok m →
      0 ≤ m := by
    intro t m hm
    cases hread : readDigits t with
    | error _ => rw [hread] at hm; cases hm
    | ok k =>
      rw [hread] at hm
      cases hm
      exact Int.natCast_nonneg k
  cases hread : readInt cell with
  | error _ => rw [readNumber, hread] at h; cases h
  | ok m =>
    rw [readNumber, hread] at h
    cases h
    unfold readInt at hread
    split at hread
    · next rest heq =>
      have hmem : '-' ∈ cell := Text.mem_of_mem_trim (heq ▸ List.mem_cons_self)
      exact absurd (hcell.2 '-' hmem) (by decide)
    · exact hdigits _ _ hread
    · exact hdigits _ _ hread

end Block

end SectionIndex
