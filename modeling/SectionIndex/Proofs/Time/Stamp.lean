import SectionIndex.Proofs.Time.Calendar
import Mathlib.Data.Char
import Mathlib.Data.List.Lex

/-!
# Stamps in the order of time

The stamp of a block can be compared as a text. It is written in universal time, so the offset of
the clock is of no account, and its fields stand in the order of their weight, each with all its
digits. So stamps are in the order of their fields, and these in the order of the calendar, which is
that of time. Less than a millisecond is not written.

## Main definitions

* `Moment.IsInCalendar` — the instants that have a date in universal time.
* `Moment.milliseconds` — the whole milliseconds of an instant.
* `Moment.fields` — what a stamp says.

## Main statements

* `Text.ofNatPadded_append_lt_iff` — numerals of one width are in the order of their numbers.
* `Moment.stamp_lt_stamp_iff`, `Moment.milliseconds_lt_iff` — both orders are that of the fields.
* `Moment.exists_blockStamp_lt_iff` — stamps are in the order of time.
-/

namespace SectionIndex

/-! ### Numerals of one width -/

namespace Text

variable {width a b n : Nat} {s t : Text}

theorem ofNatPadded_one (h : n < 10) : ofNatPadded 1 n = [Nat.digitChar n] := by
  rw [ofNatPadded, ofNat, Nat.toDigits_of_lt_base h]
  rfl

/-- **The last digit of a numeral**, and the numeral before it. -/
theorem ofNatPadded_add_one (h : 0 < width) (n : Nat) :
    ofNatPadded (width + 1) n = ofNatPadded width (n / 10) ++ [Nat.digitChar (n % 10)] := by
  by_cases hn : n < 10
  · -- there is one digit, and all digits before it are zeros
    obtain ⟨width, rfl⟩ := Nat.exists_eq_add_of_lt h
    rw [ofNatPadded, ofNat, Nat.toDigits_of_lt_base hn, Nat.div_eq_of_lt hn, Nat.mod_eq_of_lt hn,
      ofNatPadded, ofNat, Nat.toDigits_of_lt_base (by decide)]
    simp only [Nat.zero_add, List.length_singleton, Nat.add_sub_cancel, List.replicate_succ']
    rfl
  · have hdigits : ofNat n = ofNat (n / 10) ++ [Nat.digitChar (n % 10)] := by
      rw [ofNat, Nat.toDigits_eq_if (by decide), if_neg hn]
      rfl
    rw [ofNatPadded, hdigits, List.length_append, List.length_singleton, Nat.add_sub_add_right,
      ← List.append_assoc]
    rfl

theorem length_ofNatPadded (hwidth : 0 < width) (h : n < 10 ^ width) :
    (ofNatPadded width n).length = width := by
  have hlength : (ofNat n).length ≤ width := (Nat.length_toDigits_le_iff (by decide) hwidth).mpr h
  rw [ofNatPadded, List.length_append, List.length_replicate]
  omega

theorem digitChar_lt_digitChar_iff (ha : a < 10) (hb : b < 10) :
    Nat.digitChar a < Nat.digitChar b ↔ a < b := by
  rw [Char.lt_def, UInt32.lt_iff_toNat_lt]
  show (Nat.digitChar a).toNat < (Nat.digitChar b).toNat ↔ a < b
  rw [Nat.toNat_digitChar_of_lt_ten ha, Nat.toNat_digitChar_of_lt_ten hb]
  omega

/-- Digits are in the order of their values, and what follows them counts where they are the
same. -/
theorem digitChar_cons_lt_iff (ha : a < 10) (hb : b < 10) :
    Nat.digitChar a :: s < Nat.digitChar b :: t ↔ a < b ∨ a = b ∧ s < t := by
  have hab := digitChar_lt_digitChar_iff ha hb
  have hba := digitChar_lt_digitChar_iff hb ha
  have heq : Nat.digitChar a = Nat.digitChar b ↔ a = b := by
    refine ⟨fun h => ?_, congrArg _⟩
    have hnot := mt hab.mpr (h ▸ lt_irrefl _)
    have hnot' := mt hba.mpr (h ▸ lt_irrefl _)
    omega
  rw [List.cons_lt_cons_iff, hab, heq]

/-- **Numerals of one width are in the order of their numbers**, and what follows them counts where
the numbers are the same. The induction is on the width and takes off the last digits. -/
theorem ofNatPadded_append_lt_iff (hwidth : 0 < width) (ha : a < 10 ^ width) (hb : b < 10 ^ width) :
    ofNatPadded width a ++ s < ofNatPadded width b ++ t ↔ a < b ∨ a = b ∧ s < t := by
  induction width, hwidth using Nat.le_induction generalizing a b s t with
  | base =>
    rw [ofNatPadded_one ha, ofNatPadded_one hb]
    exact digitChar_cons_lt_iff ha hb
  | succ width hwidth ih =>
    have ha' : a / 10 < 10 ^ width := Nat.div_lt_of_lt_mul (by rwa [Nat.mul_comm, ← Nat.pow_succ])
    have hb' : b / 10 < 10 ^ width := Nat.div_lt_of_lt_mul (by rwa [Nat.mul_comm, ← Nat.pow_succ])
    rw [ofNatPadded_add_one hwidth, ofNatPadded_add_one hwidth, List.append_assoc,
      List.append_assoc, List.singleton_append, List.singleton_append, ih ha' hb',
      digitChar_cons_lt_iff (Nat.mod_lt _ (by decide)) (Nat.mod_lt _ (by decide))]
    -- a number is ten times what stands before its last digit, and that digit
    by_cases hst : s < t
    · simp only [hst, and_true]
      omega
    · simp only [hst, and_false, or_false]
      omega

end Text

namespace Moment

variable {m n : Moment}

/-! ### Fields -/

/-- **An instant of the years 1 to 9999** of universal time. -/
def IsInCalendar (m : Moment) : Prop :=
  0 ≤ m.instant ∧ m.instant < calendarEnd

instance (m : Moment) : Decidable m.IsInCalendar :=
  inferInstanceAs (Decidable (0 ≤ m.instant ∧ m.instant < calendarEnd))

/-- **The whole milliseconds of an instant**, since the start of year 1. -/
def milliseconds (m : Moment) : Int :=
  m.instant / 1000

/-- **What a stamp says:** the numbers that it is written with, in their order. -/
def fields (m : Moment) : List Nat :=
  [m.year, m.month, m.day, m.hour, m.minute, m.second, m.microsecond / 1000]

/-- The fields of a reading have no more digits than they are written with. -/
theorem IsReading.lt_pow (h : m.IsReading) :
    m.year < 10 ^ 4 ∧ m.month < 10 ^ 2 ∧ m.day < 10 ^ 2 ∧ m.hour < 10 ^ 2 ∧ m.minute < 10 ^ 2 ∧
      m.second < 10 ^ 2 ∧ m.microsecond / 1000 < 10 ^ 3 := by
  obtain ⟨⟨-, -, hmonth, -, hday⟩, hyear, hhour, hminute, hsecond, hmicrosecond⟩ := h
  have hshort := daysIn_le m.year m.month
  omega

/-- **A stamp has 24 characters**, and the last one says that it is in universal time. -/
theorem IsReading.length_stamp (h : m.IsReading) :
    m.stamp.length = 24 ∧ m.stamp.getLast? = some 'Z' := by
  obtain ⟨hyear, hmonth, hday, hhour, hminute, hsecond, hmillisecond⟩ := h.lt_pow
  refine ⟨?_, List.getLast?_concat⟩
  simp only [stamp, toSeconds, List.length_append, List.length_cons, List.length_nil,
    Text.length_ofNatPadded (Nat.succ_pos _) hyear, Text.length_ofNatPadded (Nat.succ_pos _) hmonth,
    Text.length_ofNatPadded (Nat.succ_pos _) hday, Text.length_ofNatPadded (Nat.succ_pos _) hhour,
    Text.length_ofNatPadded (Nat.succ_pos _) hminute,
    Text.length_ofNatPadded (Nat.succ_pos _) hsecond,
    Text.length_ofNatPadded (Nat.succ_pos _) hmillisecond]

/-- **Stamps are in the order of their fields**, as the signs between these are the same. -/
theorem stamp_lt_stamp_iff (hm : m.IsReading) (hn : n.IsReading) :
    m.stamp < n.stamp ↔ m.fields < n.fields := by
  obtain ⟨hyear, hmonth, hday, hhour, hminute, hsecond, hmillisecond⟩ := hm.lt_pow
  obtain ⟨hyear', hmonth', hday', hhour', hminute', hsecond', hmillisecond'⟩ := hn.lt_pow
  simp only [stamp, toSeconds, fields, List.append_assoc, List.cons_append,
    Text.ofNatPadded_append_lt_iff (Nat.succ_pos _) hyear hyear',
    Text.ofNatPadded_append_lt_iff (Nat.succ_pos _) hmonth hmonth',
    Text.ofNatPadded_append_lt_iff (Nat.succ_pos _) hday hday',
    Text.ofNatPadded_append_lt_iff (Nat.succ_pos _) hhour hhour',
    Text.ofNatPadded_append_lt_iff (Nat.succ_pos _) hminute hminute',
    Text.ofNatPadded_append_lt_iff (Nat.succ_pos _) hsecond hsecond',
    Text.ofNatPadded_append_lt_iff (Nat.succ_pos _) hmillisecond hmillisecond',
    List.cons_lt_cons_self, List.cons_lt_cons_iff, lt_irrefl]

/-! ### Instants -/

/-- The milliseconds of a reading in universal time: those of the days before, and then those of the
parts of the day. -/
theorem milliseconds_eq (h : m.offset = 0) :
    m.milliseconds = (dayNumber m.year m.month m.day * 86400000 + (m.hour * 3600000 +
      (m.minute * 60000 + (m.second * 1000 + m.microsecond / 1000))) : Nat) := by
  rw [milliseconds, instant, h]
  omega

/-- **The milliseconds of readings in universal time are in the order of their fields.** -/
theorem milliseconds_lt_iff (hm : m.IsReading) (hn : n.IsReading) (hm' : m.offset = 0)
    (hn' : n.offset = 0) : m.milliseconds < n.milliseconds ↔ m.fields < n.fields := by
  obtain ⟨hdate, -, hhour, hminute, hsecond, hmicrosecond⟩ := hm
  obtain ⟨hdate', -, hhour', hminute', hsecond', hmicrosecond'⟩ := hn
  rw [milliseconds_eq hm', milliseconds_eq hn', Int.ofNat_lt,
    mul_add_lt_mul_add_iff (by omega) (by omega), mul_add_lt_mul_add_iff (by omega) (by omega),
    mul_add_lt_mul_add_iff (by omega) (by omega), mul_add_lt_mul_add_iff (by omega) (by omega),
    dayNumber_lt_iff hdate hdate', dayNumber_eq_iff hdate hdate']
  simp only [fields, List.cons_lt_cons_iff, lt_irrefl, and_false, or_false]
  tauto

/-- **The same instant in universal time**, if it has a date there. -/
theorem IsReading.exists_utc? (h : m.IsReading) (hcalendar : m.IsInCalendar) :
    ∃ u, m.utc? = some u ∧ u.IsReading ∧ u.offset = 0 ∧ u.instant = m.instant := by
  unfold utc?
  split
  · next hoffset => exact ⟨m, rfl, h, hoffset, rfl⟩
  · obtain ⟨hstart, hend⟩ := hcalendar
    rw [if_pos ⟨hstart, hend⟩]
    obtain ⟨k, hk⟩ := Int.eq_ofNat_of_zero_le hstart
    have hlt : k < calendarEnd := by
      rw [hk] at hend
      exact Int.ofNat_lt.mp hend
    rw [hk, Int.toNat_natCast]
    exact ⟨ofInstant k, rfl, isReading_ofInstant hlt, rfl, instant_ofInstant k⟩

/-- **The stamps of blocks are in the order of time.** Whatever the offsets of two clocks are, the
stamps are written with as many characters, they are the same if the whole milliseconds of the
instants are, and else the earlier instant has the stamp that comes first in the alphabet. -/
theorem exists_blockStamp_lt_iff (hm : m.IsReading) (hn : n.IsReading) (hm' : m.IsInCalendar)
    (hn' : n.IsInCalendar) :
    ∃ s t, m.blockStamp = some s ∧ n.blockStamp = some t ∧
      (s.length = 24 ∧ s.getLast? = some 'Z') ∧ (t.length = 24 ∧ t.getLast? = some 'Z') ∧
      (s = t ↔ m.milliseconds = n.milliseconds) ∧ (s < t ↔ m.milliseconds < n.milliseconds) := by
  -- a stamp is that of the instant at Greenwich, in whole milliseconds
  obtain ⟨u, hutc, hu, huoffset, huinstant⟩ := hm.exists_utc? hm'
  obtain ⟨v, hutc', hv, hvoffset, hvinstant⟩ := hn.exists_utc? hn'
  have humilliseconds : u.milliseconds = m.milliseconds := congrArg (· / 1000) huinstant
  have hvmilliseconds : v.milliseconds = n.milliseconds := congrArg (· / 1000) hvinstant
  have hlt : u.stamp < v.stamp ↔ m.milliseconds < n.milliseconds := by
    rw [stamp_lt_stamp_iff hu hv, ← milliseconds_lt_iff hu hv huoffset hvoffset, humilliseconds,
      hvmilliseconds]
  have hgt : v.stamp < u.stamp ↔ n.milliseconds < m.milliseconds := by
    rw [stamp_lt_stamp_iff hv hu, ← milliseconds_lt_iff hv hu hvoffset huoffset, humilliseconds,
      hvmilliseconds]
  refine ⟨u.stamp, v.stamp, ?_, ?_, hu.length_stamp, hv.length_stamp, ?_, hlt⟩
  · rw [blockStamp, hutc]
    rfl
  · rw [blockStamp, hutc']
    rfl
  -- two stamps are the same if neither comes first
  · constructor
    · intro heq
      have hnot := mt hlt.mpr (heq ▸ lt_irrefl _)
      have hnot' := mt hgt.mpr (heq ▸ lt_irrefl _)
      omega
    · intro heq
      rcases lt_trichotomy u.stamp v.stamp with h | h | h
      · exact absurd (hlt.mp h) (Int.not_lt.mpr (Int.le_of_eq heq.symm))
      · exact h
      · exact absurd (hgt.mp h) (Int.not_lt.mpr (Int.le_of_eq heq))

/-- A clock that shows the new year already can show an earlier instant than one that does not. -/
theorem exists_blockStamp_lt_of_new_year :
    let m : Moment := ⟨2025, 1, 1, 5, 14, 59, 1999, 20699000000⟩
    let n : Moment := ⟨2024, 12, 31, 18, 30, 0, 2000, -18000000000⟩
    m.IsReading ∧ n.IsReading ∧ m.IsInCalendar ∧ n.IsInCalendar ∧
      ∃ s t, m.blockStamp = some s ∧ n.blockStamp = some t ∧ s < t ∧
        s = ("2024-12-31T23:30:00.001Z" : Text) ∧ t = ("2024-12-31T23:30:00.002Z" : Text) := by
  intro m n
  have hm : m.IsReading := by decide
  have hn : n.IsReading := by decide
  have hm' : m.IsInCalendar := by decide
  have hn' : n.IsInCalendar := by decide
  obtain ⟨s, t, hs, ht, -, -, -, hlt⟩ := exists_blockStamp_lt_iff hm hn hm' hn'
  have hmilliseconds : m.milliseconds < n.milliseconds := by decide
  refine ⟨hm, hn, hm', hn', s, t, hs, ht, hlt.mpr hmilliseconds, ?_, ?_⟩
  · exact Option.some.inj (hs.symm.trans (by decide))
  · exact Option.some.inj (ht.symm.trans (by decide))

end Moment

end SectionIndex
