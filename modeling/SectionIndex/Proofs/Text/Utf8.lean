import SectionIndex.Text.Utf8

/-!
# Texts as bytes and back

The bytes of a text are read as that text. So what is written into a file is what stands in it.

## Main statements

* `decodeUtf8_encodeUtf8` — reading undoes writing.
-/

namespace SectionIndex

variable {a b c d : UInt8} {rest : Bytes}

/-! ### One character -/

theorem toNat_ofNat {n : Nat} (h : n < 256) : (UInt8.ofNat n).toNat = n :=
  UInt8.toNat_ofNat_of_lt' h

theorem isContinuation_ofNat {n : Nat} (h : n < 0x40) :
    isContinuation (UInt8.ofNat (0x80 + n)) = true := by
  have hn : (UInt8.ofNat (0x80 + n)).toNat = 0x80 + n := toNat_ofNat (by omega)
  simp only [isContinuation, hn, Bool.and_eq_true, decide_eq_true_eq]
  omega

theorem not_lt_of_toNat_le {k : UInt8} (h : k.toNat ≤ a.toNat) : ¬ a < k :=
  fun hlt => absurd (UInt8.lt_iff_toNat_lt.mp hlt) (Nat.not_lt.mpr h)

/-- A first byte of more than one byte starts no overlong form and no value that is too large. -/
theorem decide_start_eq_false (ha : 0xC2 ≤ a.toNat) (ha' : a.toNat ≤ 0xF4) :
    (decide (a < 0xC2) || decide (0xF4 < a)) = false := by
  rw [Bool.or_eq_false_iff, decide_eq_false_iff_not, decide_eq_false_iff_not]
  exact ⟨not_lt_of_toNat_le ha, not_lt_of_toNat_le ha'⟩

theorem decodeUtf8From_one (offset : Nat) (ha : a.toNat < 0x80) :
    decodeUtf8From offset (a :: rest) =
      (Char.ofNat a.toNat :: ·) <$> decodeUtf8From (offset + 1) rest := by
  rw [decodeUtf8From.eq_def]
  simp only
  rw [if_pos (UInt8.lt_iff_toNat_lt.mpr ha)]

theorem decodeUtf8From_two (offset : Nat) (ha : 0xC2 ≤ a.toNat) (ha' : a.toNat < 0xE0)
    (hb : isContinuation b = true) :
    decodeUtf8From offset (a :: b :: rest) =
      (Char.ofNat ((a.toNat - 0xC0) * 0x40 + (b.toNat - 0x80)) :: ·) <$>
        decodeUtf8From (offset + 2) rest := by
  have hone : ¬ a < 0x80 := not_lt_of_toNat_le (k := 0x80) (Nat.le_trans (by decide) ha)
  have hstart := decide_start_eq_false (a := a) (by omega) (by omega)
  have htwo : a < 0xE0 := UInt8.lt_iff_toNat_lt.mpr ha'
  rw [decodeUtf8From.eq_def]
  simp only
  rw [if_neg hone, hstart, if_neg (by decide)]
  simp only [htwo, hb, if_true]

theorem decodeUtf8From_three (offset : Nat) (ha : 0xE0 ≤ a.toNat) (ha' : a.toNat < 0xF0)
    (hb : isSecond a b = true) (hc : isContinuation c = true) :
    decodeUtf8From offset (a :: b :: c :: rest) =
      (Char.ofNat ((a.toNat - 0xE0) * 0x1000 + (b.toNat - 0x80) * 0x40 + (c.toNat - 0x80)) :: ·) <$>
        decodeUtf8From (offset + 3) rest := by
  have hone : ¬ a < 0x80 := not_lt_of_toNat_le (k := 0x80) (Nat.le_trans (by decide) ha)
  have hstart := decide_start_eq_false (a := a) (by omega) (by omega)
  have htwo : ¬ a < 0xE0 := not_lt_of_toNat_le ha
  have hthree : a < 0xF0 := UInt8.lt_iff_toNat_lt.mpr ha'
  rw [decodeUtf8From.eq_def]
  simp only
  rw [if_neg hone, hstart, if_neg (by decide)]
  simp only [htwo, hb, hc, hthree, Bool.not_true, Bool.false_eq_true, if_true, if_false]

theorem decodeUtf8From_four (offset : Nat) (ha : 0xF0 ≤ a.toNat) (ha' : a.toNat ≤ 0xF4)
    (hb : isSecond a b = true) (hc : isContinuation c = true) (hd : isContinuation d = true) :
    decodeUtf8From offset (a :: b :: c :: d :: rest) =
      (Char.ofNat ((a.toNat - 0xF0) * 0x40000 + (b.toNat - 0x80) * 0x1000 +
        (c.toNat - 0x80) * 0x40 + (d.toNat - 0x80)) :: ·) <$> decodeUtf8From (offset + 4) rest := by
  have hone : ¬ a < 0x80 := not_lt_of_toNat_le (k := 0x80) (Nat.le_trans (by decide) ha)
  have hstart := decide_start_eq_false (a := a) (by omega) (by omega)
  have htwo : ¬ a < 0xE0 := not_lt_of_toNat_le (k := 0xE0) (Nat.le_trans (by decide) ha)
  have hthree : ¬ a < 0xF0 := not_lt_of_toNat_le ha
  rw [decodeUtf8From.eq_def]
  simp only
  rw [if_neg hone, hstart, if_neg (by decide)]
  simp only [htwo, hb, hc, hd, hthree, Bool.not_true, Bool.false_eq_true, if_true, if_false]

/-- A second byte is in its range, which is narrower after the first bytes at the edges. -/
theorem isSecond_of_bounds (hb : 0x80 ≤ b.toNat) (hb' : b.toNat ≤ 0xBF)
    (hE0 : a.toNat = 0xE0 → 0xA0 ≤ b.toNat) (hF0 : a.toNat = 0xF0 → 0x90 ≤ b.toNat)
    (hED : a.toNat = 0xED → b.toNat ≤ 0x9F) (hF4 : a.toNat = 0xF4 → b.toNat ≤ 0x8F) :
    isSecond a b = true := by
  -- the limits are chosen by equality of bytes, and the hypotheses speak of their numbers
  have heq : ∀ k : UInt8, (a == k) = decide (a.toNat = k.toNat) := fun k => by
    by_cases h : a = k
    · rw [h, beq_self_eq_true, decide_eq_true rfl]
    · rw [beq_false_of_ne h, decide_eq_false fun h' => h (UInt8.toNat_inj.mp h')]
  have hlow : (if a == 0xE0 then 0xA0 else if a == 0xF0 then 0x90 else 0x80) ≤ b.toNat := by
    rw [heq, heq]
    split
    · next h => exact hE0 (by simpa using h)
    · split
      · next h => exact hF0 (by simpa using h)
      · exact hb
  have hhigh : b.toNat ≤ if a == 0xED then 0x9F else if a == 0xF4 then 0x8F else 0xBF := by
    rw [heq, heq]
    split
    · next h => exact hED (by simpa using h)
    · split
      · next h => exact hF4 (by simpa using h)
      · exact hb'
  simp only [isSecond, hlow, hhigh, decide_true, Bool.and_self]

/-- **The bytes of a character are read as that character.** -/
theorem decodeUtf8From_encodeChar (offset : Nat) (c : Char) (rest : Bytes) :
    ∃ next, decodeUtf8From offset (encodeChar c ++ rest) =
      (c :: ·) <$> decodeUtf8From next rest := by
  -- a character is no surrogate, which keeps the second of three bytes in its range
  have hvalid : c.toNat < 0xD800 ∨ 0xDFFF < c.toNat ∧ c.toNat < 0x110000 := c.valid
  have hchar : Char.ofNat c.toNat = c := Char.ofNat_toNat c
  unfold encodeChar
  simp only
  split
  -- one byte, which is the character itself
  · next h₁ =>
    have ha := toNat_ofNat (n := c.toNat) (by omega)
    refine ⟨offset + 1, ?_⟩
    rw [List.cons_append, List.nil_append, decodeUtf8From_one offset (by omega), ha, hchar]
  · split
    -- two bytes, with six bits of the character in the second one
    · next h₁ h₂ =>
      have ha := toNat_ofNat (n := 0xC0 + c.toNat / 0x40) (by omega)
      have hb := toNat_ofNat (n := 0x80 + c.toNat % 0x40) (by omega)
      refine ⟨offset + 2, ?_⟩
      have hvalue : (0xC0 + c.toNat / 0x40 - 0xC0) * 0x40 + (0x80 + c.toNat % 0x40 - 0x80) =
          c.toNat := by
        omega
      rw [List.cons_append, List.cons_append, List.nil_append,
        decodeUtf8From_two offset (by omega) (by omega) (isContinuation_ofNat (by omega)), ha, hb,
        hvalue, hchar]
    · split
      -- three bytes; the limits of the second one are met since the character needs three
      · next h₁ h₂ h₃ =>
        have ha := toNat_ofNat (n := 0xE0 + c.toNat / 0x1000) (by omega)
        have hb := toNat_ofNat (n := 0x80 + c.toNat / 0x40 % 0x40) (by omega)
        have hc := toNat_ofNat (n := 0x80 + c.toNat % 0x40) (by omega)
        refine ⟨offset + 3, ?_⟩
        have hsecond : isSecond (UInt8.ofNat (0xE0 + c.toNat / 0x1000))
            (UInt8.ofNat (0x80 + c.toNat / 0x40 % 0x40)) = true :=
          isSecond_of_bounds (by omega) (by omega) (by omega) (by omega) (by omega) (by omega)
        have hvalue : (0xE0 + c.toNat / 0x1000 - 0xE0) * 0x1000 +
            (0x80 + c.toNat / 0x40 % 0x40 - 0x80) * 0x40 + (0x80 + c.toNat % 0x40 - 0x80) =
            c.toNat := by
          omega
        rw [List.cons_append, List.cons_append, List.cons_append, List.nil_append,
          decodeUtf8From_three offset (by omega) (by omega) hsecond
            (isContinuation_ofNat (by omega)), ha, hb, hc, hvalue, hchar]
      -- four bytes, with limits for the second one as before
      · next h₁ h₂ h₃ =>
        have ha := toNat_ofNat (n := 0xF0 + c.toNat / 0x40000) (by omega)
        have hb := toNat_ofNat (n := 0x80 + c.toNat / 0x1000 % 0x40) (by omega)
        have hc := toNat_ofNat (n := 0x80 + c.toNat / 0x40 % 0x40) (by omega)
        have hd := toNat_ofNat (n := 0x80 + c.toNat % 0x40) (by omega)
        refine ⟨offset + 4, ?_⟩
        have hsecond : isSecond (UInt8.ofNat (0xF0 + c.toNat / 0x40000))
            (UInt8.ofNat (0x80 + c.toNat / 0x1000 % 0x40)) = true :=
          isSecond_of_bounds (by omega) (by omega) (by omega) (by omega) (by omega) (by omega)
        have hvalue : (0xF0 + c.toNat / 0x40000 - 0xF0) * 0x40000 +
            (0x80 + c.toNat / 0x1000 % 0x40 - 0x80) * 0x1000 +
            (0x80 + c.toNat / 0x40 % 0x40 - 0x80) * 0x40 + (0x80 + c.toNat % 0x40 - 0x80) =
            c.toNat := by
          omega
        rw [List.cons_append, List.cons_append, List.cons_append, List.cons_append, List.nil_append,
          decodeUtf8From_four offset (by omega) (by omega) hsecond
            (isContinuation_ofNat (by omega)) (isContinuation_ofNat (by omega)), ha, hb, hc, hd,
          hvalue, hchar]

/-- **The bytes of a text are read as that text.** -/
theorem decodeUtf8_encodeUtf8 (t : Text) : decodeUtf8 (encodeUtf8 t) = .ok t := by
  -- the offset grows from character to character, and no fault is left to tell of it
  have h : ∀ offset, decodeUtf8From offset (encodeUtf8 t) = .ok t := by
    induction t with
    | nil => exact fun _ => rfl
    | cons c t ih =>
      intro offset
      obtain ⟨next, hnext⟩ := decodeUtf8From_encodeChar offset c (encodeUtf8 t)
      rw [encodeUtf8_cons, hnext, ih]
      rfl
  exact h 0

end SectionIndex
