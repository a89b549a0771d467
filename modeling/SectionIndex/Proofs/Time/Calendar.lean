import SectionIndex.Time.Moment
import Mathlib.Algebra.Order.BigOperators.Group.List
import Mathlib.Algebra.Order.Ring.Nat
import Mathlib.Data.List.GetD
import Mathlib.Tactic.MkIffOfInductiveProp

/-!
# The calendar

The days are numbered in the order of their dates, and no number is left out. Years and months
differ in length, so the numbers are those of a stair with unequal steps: a day lies on the step of
its year, and there on the step of its month. A date is brought to its number by going up these
steps, and a number to its date by taking them off again.

## Main definitions

* `Moment.daysIn`, `Moment.daysInYear`, `Moment.daysBeforeMonth` — the lengths of the steps.
* `Moment.IsDate`, `Moment.IsReading` — the dates of the calendar, and what a clock can show.

## Main statements

* `add_lt_add_iff_of_steps` — the order of places on a stair.
* `Moment.dayNumber_lt_iff` — days are numbered in the order of their dates.
* `Moment.isDate_and_dayNumber_ofInstant` — each number is that of a date.
* `Moment.isReading_ofInstant`, `Moment.instant_ofInstant` — each instant is that of a reading.
-/

namespace SectionIndex

/-- **Places on a stair** are in the order of their steps, and on one step in the order of their
heights above it. A place lies below the next step. -/
theorem add_lt_add_iff_of_steps {f : Nat → Nat} (hf : Monotone f) {a b a' b' : Nat}
    (h : f a + b < f (a + 1)) (h' : f a' + b' < f (a' + 1)) :
    f a + b < f a' + b' ↔ a < a' ∨ a = a' ∧ b < b' := by
  rcases Nat.lt_trichotomy a a' with hlt | rfl | hgt
  · have hnext : f (a + 1) ≤ f a' := hf hlt
    omega
  · omega
  · have hnext : f (a' + 1) ≤ f a := hf hgt
    omega

/-- Steps of the same height: a number with two places. -/
theorem mul_add_lt_mul_add_iff {k a b a' b' : Nat} (h : b < k) (h' : b' < k) :
    a * k + b < a' * k + b' ↔ a < a' ∨ a = a' ∧ b < b' := by
  refine add_lt_add_iff_of_steps (f := (· * k)) (fun _ _ => Nat.mul_le_mul_right k) ?_ ?_
  · rw [Nat.add_mul, Nat.one_mul]
    exact Nat.add_lt_add_left h _
  · rw [Nat.add_mul, Nat.one_mul]
    exact Nat.add_lt_add_left h' _

namespace Moment

/-- The length of a month. -/
def daysIn (year month : Nat) : Nat :=
  (monthLengths year).getD (month - 1) 0

/-- The length of a year. -/
def daysInYear (year : Nat) : Nat :=
  (monthLengths year).sum

/-- The days of a year before a month of it. -/
def daysBeforeMonth (year month : Nat) : Nat :=
  ((monthLengths year).take (month - 1)).sum

/-- **The dates of the calendar.** -/
@[mk_iff]
structure IsDate (year month day : Nat) : Prop where
  year_pos : 1 ≤ year
  month_pos : 1 ≤ month
  month_le : month ≤ 12
  day_pos : 1 ≤ day
  day_le : day ≤ daysIn year month

/-- **What a clock can show:** a date of the years 1 to 9999 and a time of day, at any distance from
universal time. -/
@[mk_iff]
structure IsReading (m : Moment) : Prop where
  date : IsDate m.year m.month m.day
  year_le : m.year ≤ 9999
  hour_lt : m.hour < 24
  minute_lt : m.minute < 60
  second_lt : m.second < 60
  microsecond_lt : m.microsecond < 1000000

instance (year month day : Nat) : Decidable (IsDate year month day) :=
  decidable_of_iff _ (isDate_iff year month day).symm

instance (m : Moment) : Decidable m.IsReading :=
  decidable_of_iff _ (isReading_iff m).symm

variable {year month day year' month' day' c k y : Nat}

/-! ### Years -/

theorem daysInYear_eq (year : Nat) : daysInYear year = if isLeap year then 366 else 365 := by
  rw [daysInYear, monthLengths]
  cases isLeap year <;> rfl

/-- **Each year starts after the last day of the year before.** -/
theorem daysBeforeYear_add_one (h : 1 ≤ year) :
    daysBeforeYear (year + 1) = daysBeforeYear year + daysInYear year := by
  obtain ⟨n, rfl⟩ := Nat.exists_eq_add_of_le' h
  have hcenturies : n / 100 ≤ n / 4 := by omega
  rw [daysInYear_eq]
  -- a quotient grows by one in a year that the divisor divides, so the cases are those of the rule
  simp only [daysBeforeYear, isLeap, Bool.and_eq_true, Bool.or_eq_true, beq_iff_eq, bne_iff_ne,
    Nat.add_sub_cancel, Nat.succ_div]
  split <;> (repeat' split) <;> omega

theorem monotone_daysBeforeYear : Monotone daysBeforeYear := by
  refine monotone_nat_of_le_succ fun year => ?_
  cases year with
  | zero => exact Nat.le_refl 0
  | succ year =>
    rw [daysBeforeYear_add_one (Nat.le_add_left 1 year)]
    exact Nat.le_add_right _ _

/-- The days before a year, by its place in the cycles of 400, 100 and 4 years. -/
theorem daysBeforeYear_of_cycle (q : Nat) (hc : c ≤ 3) (hk : k ≤ 24) (hy : y ≤ 3) :
    daysBeforeYear (400 * q + 100 * c + 4 * k + y + 1) =
      146097 * q + 36524 * c + 1461 * k + 365 * y := by
  have hfour : (400 * q + 100 * c + 4 * k + y) / 4 = 100 * q + 25 * c + k := by omega
  have hcentury : (400 * q + 100 * c + 4 * k + y) / 100 = 4 * q + c := by omega
  have hcycle : (400 * q + 100 * c + 4 * k + y) / 400 = q := by omega
  simp only [daysBeforeYear, Nat.add_sub_cancel, hfour, hcentury, hcycle]
  omega

/-- The last year of four is a leap year, unless it ends a century that does not end a cycle. -/
theorem daysInYear_of_cycle (q : Nat) (hc : c ≤ 3) (hk : k ≤ 24) (hy : y ≤ 3) :
    daysInYear (400 * q + 100 * c + 4 * k + y + 1) =
      if y = 3 ∧ (k < 24 ∨ c = 3) then 366 else 365 := by
  -- each rule for leap years looks at one of the four parts of the year
  have hfour : (400 * q + 100 * c + 4 * k + y + 1) % 4 = 0 ↔ y = 3 := by omega
  have hcentury : y = 3 → ((400 * q + 100 * c + 4 * k + y + 1) % 100 = 0 ↔ k = 24) := by omega
  have hcycle : y = 3 → k = 24 → ((400 * q + 100 * c + 4 * k + y + 1) % 400 = 0 ↔ c = 3) := by
    omega
  have hleap : isLeap (400 * q + 100 * c + 4 * k + y + 1) = true ↔ y = 3 ∧ (k < 24 ∨ c = 3) := by
    rw [isLeap, Bool.and_eq_true, Bool.or_eq_true, beq_iff_eq, bne_iff_ne, beq_iff_eq, hfour]
    refine and_congr_right fun hy => ?_
    rw [ne_eq, hcentury hy]
    by_cases hlast : k = 24
    · rw [hcycle hy hlast]
      omega
    · omega
  rw [daysInYear_eq]
  exact if_congr hleap rfl rfl

/-- The place of a day in the cycles: the counts of whole cycles that are taken off are those of the
year, and fewer days are left than the year has. -/
theorem exists_cycle (n : Nat) :
    ∃ q c k y, yearOfDay n = 400 * q + 100 * c + 4 * k + y + 1 ∧ c ≤ 3 ∧ k ≤ 24 ∧ y ≤ 3 ∧
      146097 * q + 36524 * c + 1461 * k + 365 * y ≤ n ∧
      n < 146097 * q + 36524 * c + 1461 * k + 365 * y +
        if y = 3 ∧ (k < 24 ∨ c = 3) then 366 else 365 := by
  refine ⟨_, _, _, _, rfl, ?_, ?_, ?_, ?_, ?_⟩
  · exact Nat.min_le_right _ _
  · omega
  · exact Nat.min_le_right _ _
  · omega
  · split <;> omega

/-- **The year of a day** is the one that the day lies in. -/
theorem daysBeforeYear_yearOfDay (n : Nat) :
    daysBeforeYear (yearOfDay n) ≤ n ∧
      n < daysBeforeYear (yearOfDay n) + daysInYear (yearOfDay n) := by
  obtain ⟨q, c, k, y, hyear, hc, hk, hy, hlow, hhigh⟩ := exists_cycle n
  rw [hyear, daysBeforeYear_of_cycle q hc hk hy, daysInYear_of_cycle q hc hk hy]
  exact ⟨hlow, hhigh⟩

/-! ### Months -/

theorem length_monthLengths (year : Nat) : (monthLengths year).length = 12 := rfl

/-- **Each month starts after the last day of the month before.** -/
theorem daysBeforeMonth_add_one (year : Nat) (h : 1 ≤ month) (h' : month ≤ 12) :
    daysBeforeMonth year (month + 1) = daysBeforeMonth year month + daysIn year month := by
  have hindex : month - 1 < (monthLengths year).length := by
    rw [length_monthLengths]
    omega
  have hnext : month + 1 - 1 = month - 1 + 1 := by omega
  rw [daysBeforeMonth, hnext, List.sum_take_succ _ _ hindex, daysBeforeMonth, daysIn,
    List.getD_eq_getElem _ _ hindex]

theorem monotone_daysBeforeMonth (year : Nat) : Monotone (daysBeforeMonth year) := by
  intro month month' h
  have hindex : month - 1 ≤ month' - 1 := Nat.sub_le_sub_right h 1
  exact (List.take_sublist_take_left hindex).sum_le_sum fun _ _ => Nat.zero_le _

/-- No month starts after the end of its year. -/
theorem daysBeforeMonth_le (year month : Nat) : daysBeforeMonth year month ≤ daysInYear year :=
  (List.take_sublist _ _).sum_le_sum fun _ _ => Nat.zero_le _

/-- No month has more than 31 days. -/
theorem daysIn_le (year month : Nat) : daysIn year month ≤ 31 := by
  have hlengths : ∀ length ∈ monthLengths year, length ≤ 31 := by
    rw [monthLengths]
    cases isLeap year <;> decide
  rw [daysIn, List.getD_eq_getElem?_getD]
  cases hlength : (monthLengths year)[month - 1]? with
  | none => exact Nat.zero_le 31
  | some length => exact hlengths length (List.mem_of_getElem? hlength)

/-- **The month and the day** of what is left of a year: so many whole months are taken off that
fewer days are left than the next month has. The induction is on the lengths of the months. -/
theorem exists_monthAndDay {lengths : List Nat} (month : Nat) {days : Nat}
    (h : days < lengths.sum) :
    ∃ k d, monthAndDay lengths month days = (month + k, d + 1) ∧ k < lengths.length ∧
      (lengths.take k).sum + d = days ∧ d < lengths.getD k 0 := by
  induction lengths generalizing month days with
  | nil => exact absurd h (Nat.not_lt_zero _)
  | cons length lengths ih =>
    rw [monthAndDay]
    -- either the day is in the first month, or what is left of it is in a later one
    split
    · next hfirst => exact ⟨0, days, rfl, Nat.succ_pos _, Nat.zero_add _, hfirst⟩
    · next hlater =>
      have hleft : days - length < lengths.sum := by
        rw [List.sum_cons] at h
        omega
      obtain ⟨k, d, hmonth, hk, hsum, hd⟩ := ih (month + 1) hleft
      refine ⟨k + 1, d, ?_, Nat.succ_lt_succ hk, ?_, hd⟩
      · rw [hmonth, Nat.add_assoc, Nat.add_comm 1 k]
      · rw [List.take_succ_cons, List.sum_cons]
        omega

/-! ### The numbers of days -/

theorem dayNumber_eq (year month day : Nat) :
    dayNumber year month day = daysBeforeYear year + (daysBeforeMonth year month + (day - 1)) := by
  rw [dayNumber, daysBeforeMonth, List.sum_eq_foldl, Nat.add_assoc]

/-- A day lies before the next month. -/
theorem IsDate.add_lt_daysBeforeMonth (h : IsDate year month day) :
    daysBeforeMonth year month + (day - 1) < daysBeforeMonth year (month + 1) := by
  have hpos := h.day_pos
  have hle := h.day_le
  rw [daysBeforeMonth_add_one year h.month_pos h.month_le]
  omega

/-- A day lies before the next year. -/
theorem IsDate.add_lt_daysBeforeYear (h : IsDate year month day) :
    daysBeforeYear year + (daysBeforeMonth year month + (day - 1)) <
      daysBeforeYear (year + 1) := by
  have hmonth := h.add_lt_daysBeforeMonth
  have hyear := daysBeforeMonth_le year (month + 1)
  rw [daysBeforeYear_add_one h.year_pos]
  omega

/-- **Days are numbered in the order of their dates.** -/
theorem dayNumber_lt_iff (h : IsDate year month day) (h' : IsDate year' month' day') :
    dayNumber year month day < dayNumber year' month' day' ↔
      year < year' ∨ year = year' ∧ (month < month' ∨ month = month' ∧ day < day') := by
  rw [dayNumber_eq, dayNumber_eq, add_lt_add_iff_of_steps monotone_daysBeforeYear
    h.add_lt_daysBeforeYear h'.add_lt_daysBeforeYear]
  refine or_congr_right (and_congr_right ?_)
  -- in one year the months are the steps
  rintro rfl
  have hpos := h.day_pos
  have hpos' := h'.day_pos
  rw [add_lt_add_iff_of_steps (monotone_daysBeforeMonth year) h.add_lt_daysBeforeMonth
    h'.add_lt_daysBeforeMonth]
  omega

/-- **Dates with the same number are the same.** -/
theorem dayNumber_eq_iff (h : IsDate year month day) (h' : IsDate year' month' day') :
    dayNumber year month day = dayNumber year' month' day' ↔
      year = year' ∧ month = month' ∧ day = day' := by
  have hlt := dayNumber_lt_iff h h'
  have hgt := dayNumber_lt_iff h' h
  omega

/-! ### The reading of an instant -/

variable {n : Nat}

/-- **Each number of a day is that of a date.** -/
theorem isDate_and_dayNumber_ofInstant (n : Nat) :
    IsDate (ofInstant n).year (ofInstant n).month (ofInstant n).day ∧
      dayNumber (ofInstant n).year (ofInstant n).month (ofInstant n).day = n / 86400000000 := by
  obtain ⟨hlow, hhigh⟩ := daysBeforeYear_yearOfDay (n / 86400000000)
  have hyear : (ofInstant n).year = yearOfDay (n / 86400000000) := rfl
  have hmonth : ((ofInstant n).month, (ofInstant n).day) =
      monthAndDay (monthLengths (yearOfDay (n / 86400000000))) 1
        (n / 86400000000 - daysBeforeYear (yearOfDay (n / 86400000000))) := rfl
  -- what is left of the year of the day is less than the sum of its months
  obtain ⟨k, d, hparts, hk, hsum, hd⟩ := exists_monthAndDay 1
    (Nat.sub_lt_left_of_lt_add hlow hhigh)
  rw [hparts, Prod.mk.injEq] at hmonth
  have hindex : 1 + k - 1 = k := Nat.add_sub_cancel_left 1 k
  rw [length_monthLengths] at hk
  rw [hyear, hmonth.1, hmonth.2]
  constructor
  · refine ⟨Nat.le_add_left _ _, Nat.le_add_right _ _, by omega, Nat.le_add_left _ _, ?_⟩
    rw [daysIn, hindex]
    exact hd
  · rw [dayNumber_eq, daysBeforeMonth, hindex, Nat.add_sub_cancel, hsum]
    exact Nat.add_sub_cancel' hlow

/-- **The reading of an instant** of the years 1 to 9999. -/
theorem isReading_ofInstant (h : n < calendarEnd) : (ofInstant n).IsReading where
  date := (isDate_and_dayNumber_ofInstant n).1
  year_le := by
    obtain ⟨hlow, -⟩ := daysBeforeYear_yearOfDay (n / 86400000000)
    have hday : n / 86400000000 < daysBeforeYear 10000 := Nat.div_lt_of_lt_mul (by
      rwa [Nat.mul_comm])
    -- a later year would start after the last instant
    by_contra hyear
    have hlate : daysBeforeYear 10000 ≤ daysBeforeYear (yearOfDay (n / 86400000000)) :=
      monotone_daysBeforeYear (Nat.lt_of_not_le hyear)
    omega
  hour_lt := by
    show n % 86400000000 / 3600000000 < 24
    omega
  minute_lt := Nat.mod_lt _ (by decide)
  second_lt := Nat.mod_lt _ (by decide)
  microsecond_lt := Nat.mod_lt _ (by decide)

theorem instant_ofInstant (n : Nat) : (ofInstant n).instant = n := by
  have hday := (isDate_and_dayNumber_ofInstant n).2
  have hhour : (ofInstant n).hour = n % 86400000000 / 3600000000 := rfl
  have hminute : (ofInstant n).minute = n % 86400000000 / 60000000 % 60 := rfl
  have hsecond : (ofInstant n).second = n % 86400000000 / 1000000 % 60 := rfl
  have hmicrosecond : (ofInstant n).microsecond = n % 86400000000 % 1000000 := rfl
  have hoffset : (ofInstant n).offset = 0 := rfl
  rw [instant, hday, hhour, hminute, hsecond, hmicrosecond, hoffset]
  omega

end Moment

end SectionIndex
