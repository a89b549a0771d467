import SectionIndex.Json.Parser
import SectionIndex.Json.Printer
import SectionIndex.Proofs.Text.Numeral

/-!
# Texts and numbers read back

A text is written in ASCII, with an escape of one unit or two for whatever is not printable, and is
read back as it was. So is a whole number, unless it is too long to be read.

## Main statements

* `parseChars_escaped` — a text is read back.
* `parseNumber_ofInt` — a whole number is read back.
-/

namespace SectionIndex

/-- A number with one digit more has its last digit in sixteens at the end. -/
theorem Text.hexPadded_succ {width : Nat} (hwidth : 0 < width) (n : Nat) :
    hexPadded (width + 1) n = hexPadded width (n / 16) ++ [(n % 16).digitChar] := by
  unfold hexPadded
  by_cases h : n < 16
  · have hzero : n / 16 = 0 := Nat.div_eq_of_lt h
    have hzeros : List.replicate width '0' = List.replicate (width - 1) '0' ++ ['0'] := by
      rw [← List.replicate_succ', Nat.sub_add_cancel hwidth]
    simp [Nat.toDigits_of_lt_base h, hzero, Nat.toDigits_zero, Nat.mod_eq_of_lt h, hzeros]
  · rw [Nat.toDigits_of_base_le (by decide) (Nat.le_of_not_lt h)]
    simp [Nat.add_sub_add_right]

/-- A unit is written with four digits. -/
theorem Text.hexPadded_four {n : Nat} (h : n < 0x10000) :
    hexPadded 4 n = [(n / 16 / 16 / 16).digitChar, (n / 16 / 16 % 16).digitChar,
      (n / 16 % 16).digitChar, (n % 16).digitChar] := by
  have hfirst : hexPadded 1 (n / 16 / 16 / 16) = [(n / 16 / 16 / 16).digitChar] := by
    rw [hexPadded, Nat.toDigits_of_lt_base (by omega)]
    rfl
  rw [hexPadded_succ (by decide), hexPadded_succ (by decide), hexPadded_succ (by decide), hfirst]
  rfl

namespace Json

/-! ### Escapes -/

theorem hexValue?_digitChar : ∀ d < 16, hexValue? (.char d.digitChar) = some d := by decide

/-- **An escape of one unit** is read back, whatever follows it. -/
theorem unitEscape?_append {unit : Nat} (h : unit < 0x10000) (rest : Points) :
    unitEscape? ((unitEscape unit : Points) ++ rest) = some (unit, rest) := by
  have hunit : ((unit / 16 / 16 / 16 * 16 + unit / 16 / 16 % 16) * 256 + unit / 16 % 16 * 16 +
      unit % 16) = unit := by omega
  have hdigit : ∀ n, hexValue? (.char (n % 16).digitChar) = some (n % 16) := fun n =>
    hexValue?_digitChar _ (Nat.mod_lt n (by decide))
  have hfirst := hexValue?_digitChar (unit / 16 / 16 / 16) (by omega)
  simp [unitEscape, Text.hexPadded_four h, unitEscape?, hexUnit?, hdigit, hfirst, hunit]

/-- A number below the pairs of units is no first half of a pair. -/
theorem pairedChar?_of_toNat (c : Char) (second : Nat) : pairedChar? c.toNat second = none := by
  have hvalid : c.toNat < 0xD800 ∨ 0xDFFF < c.toNat := c.valid.imp id And.left
  have hleading : isLeadingUnit c.toNat = false := by
    simp only [isLeadingUnit, Bool.and_eq_false_iff, decide_eq_false_iff_not]
    omega
  simp [pairedChar?, hleading]

/-- **A character of one unit** is read back. -/
theorem escape?_of_unit {c : Char} (h : c.toNat < 0x10000) (rest : Points) :
    escape? ((unitEscape c.toNat : Points) ++ rest) = some (.char c, rest) := by
  unfold escape?
  simp only [unitEscape?_append h, pairedChar?_of_toNat, CodePoint.ofNat_toNat]
  -- what follows may be an escape as well, but the two are no pair
  cases unitEscape? rest with
  | none => rfl
  | some second => rfl

/-- Characters end before the number 0x110000. -/
theorem toNat_lt (c : Char) : c.toNat < 0x110000 := by
  rcases c.valid with hvalid | hvalid
  · exact Nat.lt_trans hvalid (by decide)
  · exact hvalid.2

/-- The two units of a character beyond the first 65536 make it again. -/
theorem pairedChar?_of_units {c : Char} (h : 0x10000 ≤ c.toNat) :
    pairedChar? (0xD800 + (c.toNat - 0x10000) / 0x400) (0xDC00 + (c.toNat - 0x10000) % 0x400) =
      some c := by
  have hbound := toNat_lt c
  have hleading : isLeadingUnit (0xD800 + (c.toNat - 0x10000) / 0x400) = true := by
    simp only [isLeadingUnit, Bool.and_eq_true, decide_eq_true_eq]
    omega
  have htrailing : isTrailingUnit (0xDC00 + (c.toNat - 0x10000) % 0x400) = true := by
    simp only [isTrailingUnit, Bool.and_eq_true, decide_eq_true_eq]
    omega
  have hnumber : 0x10000 + (0xD800 + (c.toNat - 0x10000) / 0x400 - 0xD800) * 0x400 +
      (0xDC00 + (c.toNat - 0x10000) % 0x400 - 0xDC00) = c.toNat := by omega
  rw [pairedChar?, hleading, htrailing, hnumber, Char.ofNat_toNat]
  rfl

/-- **A character of two units** is read back. -/
theorem escape?_of_pair {first second : Nat} {c : Char} (hfirst : first < 0x10000)
    (hsecond : second < 0x10000) (hpair : pairedChar? first second = some c) (rest : Points) :
    escape? ((unitEscape first : Points) ++ ((unitEscape second : Points) ++ rest)) =
      some (.char c, rest) := by
  unfold escape?
  simp only [unitEscape?_append hfirst, unitEscape?_append hsecond, hpair]

/-! ### Texts -/

/-- An escape is one code point of the text. -/
theorem parseChars_of_escape? {seen t rest : Points} {p : CodePoint}
    (h : escape? (.char '\\' :: t) = some (p, rest)) :
    parseChars seen (.char '\\' :: t) = parseChars (p :: seen) rest := by
  rw [parseChars]
  split
  · next heq =>
    obtain ⟨rfl, rfl⟩ := Prod.mk.inj (Option.some.inj (h.symm.trans heq))
    rfl
  · next heq => rw [h] at heq; cases heq

/-- A character that needs no escape is one code point of the text. -/
theorem parseChars_of_plain {c : Char} (seen t : Points) (hquote : c ≠ '"') (hslash : c ≠ '\\')
    (hprint : ' ' ≤ c) : parseChars seen (.char c :: t) = parseChars (.char c :: seen) t := by
  rw [parseChars, if_neg (Char.not_lt.mpr hprint)]
  · exact hquote
  · exact hslash

/-- **A character** is read back, whatever follows it. -/
theorem parseChars_escapeChar (seen : Points) (c : Char) (rest : Points) :
    parseChars seen ((escapeChar c : Points) ++ rest) = parseChars (.char c :: seen) rest := by
  -- a letter after the sign stands for one character, unless it announces a unit
  have hletter : ∀ letter, escapedChar? letter = some c → letter ≠ 'u' →
      parseChars seen (.char '\\' :: .char letter :: rest) = parseChars (.char c :: seen) rest := by
    intro letter hletter hunit
    apply parseChars_of_escape?
    have hnone : unitEscape? (.char '\\' :: .char letter :: rest) = none := by
      unfold unitEscape?
      split
      · next heq =>
        simp only [List.cons.injEq, CodePoint.char.injEq] at heq
        exact absurd heq.2.1 hunit
      · rfl
    simp [escape?, hnone, hletter]
  -- the cases are those of the escape: a letter, the character itself, one unit, or two
  unfold escapeChar
  split
  · next h =>
    obtain h | h : c = '"' ∨ c = '\\' := by simpa using h
    · subst h; exact hletter '"' rfl (by decide)
    · subst h; exact hletter '\\' rfl (by decide)
  split
  · next h => obtain rfl : c = '\n' := by simpa using h
              exact hletter 'n' rfl (by decide)
  split
  · next h => obtain rfl : c = '\r' := by simpa using h
              exact hletter 'r' rfl (by decide)
  split
  · next h => obtain rfl : c = '\t' := by simpa using h
              exact hletter 't' rfl (by decide)
  split
  · next h => obtain rfl : c = '\x08' := by simpa using h
              exact hletter 'b' rfl (by decide)
  split
  · next h => obtain rfl : c = '\x0c' := by simpa using h
              exact hletter 'f' rfl (by decide)
  split
  · next hquote _ _ _ _ _ h =>
    obtain ⟨hquote, hslash⟩ : c ≠ '"' ∧ c ≠ '\\' := by simpa using hquote
    obtain ⟨hprint, -⟩ : ' ' ≤ c ∧ c ≤ '~' := by simpa using h
    exact parseChars_of_plain seen rest hquote hslash hprint
  split
  · next h => exact parseChars_of_escape? (escape?_of_unit h rest)
  · next h =>
    have hbound := toNat_lt c
    rw [List.map_append, List.append_assoc]
    exact parseChars_of_escape? (escape?_of_pair (by omega) (by omega)
      (pairedChar?_of_units (Nat.le_of_not_lt h)) rest)

/-- A text as it is written between quotes. -/
def escaped (t : Text) : Text :=
  t.flatMap escapeChar

/-- **A text** is read back up to its closing quote. -/
theorem parseChars_escaped (seen : Points) (t : Text) (rest : Points) :
    parseChars seen ((escaped t : Points) ++ .char '"' :: rest) =
      .ok (seen.reverse ++ t, rest) := by
  induction t generalizing seen with
  | nil => simp [escaped, parseChars]
  | cons c t ih =>
    have hescaped : escaped (c :: t) = escapeChar c ++ escaped t := rfl
    rw [hescaped, List.map_append, List.append_assoc, parseChars_escapeChar, ih]
    simp

/-- What is written of a text is its quotes and what stands between them. -/
theorem renderPoints_append (t : Text) (rest : Points) :
    (renderPoints t : Points) ++ rest =
      .char '"' :: ((escaped t : Points) ++ .char '"' :: rest) := by
  simp [renderPoints, escaped, List.flatMap_map, escapePoint]

/-! ### Whole numbers -/

/-- **What follows a number** and is no part of it. -/
def EndsNumber (rest : Points) : Prop :=
  ∀ c, rest.head? = some (.char c) → c.isDigit = false ∧ c ≠ '.' ∧ c ≠ 'e' ∧ c ≠ 'E'

theorem endsNumber_nil : EndsNumber [] := fun _ h => nomatch h

variable {rest : Points}

theorem EndsNumber.takeDigits_eq (h : EndsNumber rest) (seen : Text) :
    takeDigits seen rest = (seen.reverse, rest) := by
  cases rest with
  | nil => rfl
  | cons p rest =>
    cases p with
    | char c => rw [takeDigits, if_neg (by simp [(h c rfl).1])]
    | surrogate unit => rfl

/-- All digits are taken. -/
theorem takeDigits_append {digits : Text} (hdigits : ∀ c ∈ digits, c.isDigit = true)
    (h : EndsNumber rest) (seen : Text) :
    takeDigits seen ((digits : Points) ++ rest) = (seen.reverse ++ digits, rest) := by
  induction digits generalizing seen with
  | nil => simpa using h.takeDigits_eq seen
  | cons c digits ih =>
    obtain ⟨hc, hdigits⟩ := List.forall_mem_cons.mp hdigits
    rw [List.map_cons, List.cons_append, takeDigits, if_pos hc, ih hdigits]
    simp

/-- No numeral but that of zero starts with a zero. -/
theorem head?_ofNat_ne {n : Nat} (h : 0 < n) : (Text.ofNat n).head? ≠ some '0' := by
  induction n using Nat.strongRecOn with
  | ind n ih =>
    -- by strong induction: dropping the last digit leaves a smaller number that is not zero
    unfold Text.ofNat at ih ⊢
    rw [Nat.toDigits_eq_if (by decide)]
    split
    · have hdigit : ∀ d < 10, 0 < d → d.digitChar ≠ '0' := by decide
      simpa using hdigit n ‹_› h
    · next hten =>
      have hfirst := ih (n / 10) (by omega) (by omega)
      cases hdigits : Nat.toDigits 10 (n / 10) with
      | nil => exact absurd hdigits Nat.toDigits_ne_nil
      | cons d digits => simpa [hdigits] using hfirst

/-- Digits without a zero in front are taken as they are written. -/
theorem takeWhole_of_digits {digits : Text} (hdigits : ∀ c ∈ digits, c.isDigit = true)
    (hne : digits ≠ []) (hfirst : digits.head? ≠ some '0') (h : EndsNumber rest) :
    takeWhole ((digits : Points) ++ rest) = (digits, rest) := by
  have htake := takeDigits_append hdigits h []
  cases digits with
  | nil => exact absurd rfl hne
  | cons d digits =>
    rw [takeWhole]
    · exact htake
    · rintro t heq
      obtain ⟨hd, -⟩ := List.cons.inj heq
      exact hfirst (congrArg some (CodePoint.char.inj hd))

/-- The digits of a number are taken as they are written. -/
theorem takeWhole_ofNat (n : Nat) (h : EndsNumber rest) :
    takeWhole ((Text.ofNat n : Points) ++ rest) = (Text.ofNat n, rest) := by
  rcases Nat.eq_zero_or_pos n with rfl | hpos
  · rfl
  · exact takeWhole_of_digits (fun _ => isDigit_of_mem_ofNat) (ofNat_ne_nil n)
      (head?_ofNat_ne hpos) h

/-- Nothing of what follows is taken for a fraction. -/
theorem EndsNumber.takeFraction_eq (h : EndsNumber rest) : takeFraction rest = ([], rest) := by
  unfold takeFraction
  split
  · exact absurd rfl (h '.' rfl).2.1
  · rfl

/-- Nothing of what follows is taken for an exponent. -/
theorem EndsNumber.takeExponent_eq (h : EndsNumber rest) : takeExponent rest = (none, rest) := by
  unfold takeExponent
  split
  · exact absurd rfl (h 'e' rfl).2.2.1
  · exact absurd rfl (h 'E' rfl).2.2.2
  · rfl

theorem parseUnsigned_ofNat {n : Nat} (negative : Bool) (hn : (Text.ofNat n).length ≤ maxDigits)
    (h : EndsNumber rest) : parseUnsigned negative ((Text.ofNat n : Points) ++ rest) =
      .ok (.int (if negative then -(n : Int) else n), rest) := by
  have hvalue : Nat.ofDigitChars 10 (Text.ofNat n) 0 = n := Nat.ofDigitChars_ten_toDigits
  simp only [parseUnsigned, takeWhole_ofNat n h, h.takeFraction_eq, h.takeExponent_eq, hvalue,
    ofNat_ne_nil, Nat.not_lt.mpr hn, if_false, and_self, if_true]

/-- The numeral of a number is a sign, perhaps, and a digit at least. -/
theorem exists_ofInt_append (n : Int) (rest : Points) : ∃ d t, d.isDigit = true ∧
    ((Text.ofInt n : Points) ++ rest = .char d :: t ∨
      (Text.ofInt n : Points) ++ rest = .char '-' :: .char d :: t) := by
  -- what comes after the sign is a numeral, and that starts with a digit
  have hdigits : ∀ m : Nat, ∃ d t, d.isDigit = true ∧
      (Text.ofNat m : Points) ++ rest = .char d :: t := by
    intro m
    cases hm : Text.ofNat m with
    | nil => exact absurd hm (ofNat_ne_nil m)
    | cons d digits =>
      exact ⟨d, _, isDigit_of_mem_ofNat (hm ▸ List.mem_cons_self), rfl⟩
  cases n with
  | ofNat m =>
    obtain ⟨d, t, hd, heq⟩ := hdigits m
    exact ⟨d, t, hd, .inl heq⟩
  | negSucc m =>
    obtain ⟨d, t, hd, heq⟩ := hdigits (m + 1)
    exact ⟨d, t, hd, .inr (congrArg (CodePoint.char '-' :: ·) heq)⟩

/-- **A whole number** is read back, unless it is too long. -/
theorem parseNumber_ofInt {n : Int} (hn : isWritable n = true) (h : EndsNumber rest) :
    parseNumber ((Text.ofInt n : Points) ++ rest) = .ok (.int n, rest) := by
  have hlength : (Text.ofNat n.natAbs).length ≤ maxDigits := by simpa [isWritable] using hn
  cases n with
  | ofNat m =>
    have hparse := parseUnsigned_ofNat (n := m) false hlength h
    rw [parseNumber]
    · exact hparse
    · intro t heq
      -- a numeral without a sign starts with a digit
      cases hm : Text.ofNat m with
      | nil => exact ofNat_ne_nil m hm
      | cons d digits =>
        have hd := isDigit_of_mem_ofNat (n := m) (hm ▸ List.mem_cons_self)
        replace heq : ((Text.ofNat m : Points) ++ rest) = .char '-' :: t := heq
        rw [hm] at heq
        obtain ⟨hsign, -⟩ := List.cons.inj heq
        rw [CodePoint.char.inj hsign] at hd
        exact absurd hd (by decide)
  | negSucc m => exact parseUnsigned_ofNat (n := m + 1) true hlength h

/-- No word starts with a digit, and none with a minus sign and a digit. -/
theorem takeWord?_of_isDigit {d : Char} (hd : d.isDigit = true) (t : Points) :
    takeWord? (.char d :: t) = none ∧ takeWord? (.char '-' :: .char d :: t) = none := by
  have hne : ∀ c, c.isDigit = false → c ≠ d := by
    rintro c hc rfl
    exact absurd hd (by simp [hc])
  constructor
  · simp [takeWord?, words, hne 'n' rfl, hne 't' rfl, hne 'f' rfl, hne 'N' rfl, hne 'I' rfl,
      hne '-' rfl]
  · simp [takeWord?, words, hne 'I' rfl]

/-- A number is none of the words. -/
theorem takeWord?_ofInt (n : Int) (rest : Points) :
    takeWord? ((Text.ofInt n : Points) ++ rest) = none := by
  obtain ⟨d, t, hd, heq | heq⟩ := exists_ofInt_append n rest
  · rw [heq]
    exact (takeWord?_of_isDigit hd t).1
  · rw [heq]
    exact (takeWord?_of_isDigit hd t).2

end Json

end SectionIndex
