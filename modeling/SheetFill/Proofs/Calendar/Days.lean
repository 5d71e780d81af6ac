import SheetFill.Calendar.DateTime

/-!
# Counting days

The day after a date is the next one of its month, or the first one of the next month or year
(`Date.next?`). Each such step counts one (`Date.dayNumber_of_next?`), across the ends of months and
years and with the leap days where they are. So one date comes before another one exactly if it has
the lower number (`Date.before_iff`), and it is so many days earlier as the numbers differ by
(`Date.later_iff`).
-/

namespace SheetFill

namespace Calendar

/-! ## Months and years -/

/-- How many days a year has. -/
def daysInYear (year : Int) : Nat := if isLeap year then 366 else 365

/-- A leap year is one day longer, since the days before a year count the leap years so far. -/
theorem daysBeforeYear_succ (year : Int) :
    daysBeforeYear (year + 1) = daysBeforeYear year + daysInYear year := by
  have leap : isLeap year = true ↔ year % 4 = 0 ∧ (year % 100 ≠ 0 ∨ year % 400 = 0) := by
    simp [isLeap]
  simp only [daysBeforeYear, daysInYear, leap]
  split
  · omega
  · omega

theorem daysBeforeYear_le {year later : Int} (before : year ≤ later) :
    daysBeforeYear year ≤ daysBeforeYear later := by
  simp only [daysBeforeYear]
  omega

theorem daysBeforeMonth_one (year : Int) : daysBeforeMonth year 1 = 0 := rfl

theorem daysBeforeMonth_succ (year : Int) {month : Nat} (first : 1 ≤ month) :
    daysBeforeMonth year (month + 1) = daysBeforeMonth year month + daysInMonth year month := by
  have none : month ≠ 0 := by omega
  show List.sum _ = List.sum _ + _
  rw [List.range_succ, List.map_append, List.sum_append, List.map_singleton, List.sum_singleton,
    if_neg none]

theorem daysBeforeMonth_le (year : Int) {month later : Nat} (first : 1 ≤ month)
    (before : month ≤ later) : daysBeforeMonth year month ≤ daysBeforeMonth year later := by
  induction before with
  | refl => exact Nat.le_refl _
  | step before ih =>
      rw [daysBeforeMonth_succ year (Nat.le_trans first before)]
      exact Nat.le_trans ih (Nat.le_add_right ..)

/-- All months together are a year. -/
theorem daysBeforeMonth_thirteen (year : Int) : daysBeforeMonth year 13 = daysInYear year := by
  simp only [daysBeforeMonth, List.range, List.range.loop, List.map, List.foldr, daysInMonth,
    daysInYear]
  cases isLeap year with
  | false => rfl
  | true => rfl

end Calendar

namespace Date

open Calendar

/-! ## The order of dates -/

/-- A date comes before another one: the years decide, then the months, then the days. -/
def Before (d e : Date) : Prop :=
  d.year < e.year ∨ d.year = e.year ∧
    (d.month < e.month ∨ d.month = e.month ∧ d.day < e.day)

instance (d e : Date) : Decidable (d.Before e) :=
  inferInstanceAs (Decidable (d.year < e.year ∨ d.year = e.year ∧
    (d.month < e.month ∨ d.month = e.month ∧ d.day < e.day)))

theorem before_trichotomy (d e : Date) : d.Before e ∨ d = e ∨ e.Before d := by
  obtain ⟨year, month, day, _, _, _⟩ := d
  obtain ⟨year', month', day', _, _, _⟩ := e
  simp only [Before, mk.injEq]
  omega

theorem lt_dayNumber (d : Date) : daysBeforeYear d.year < d.dayNumber := by
  have := d.day_mem
  rw [dayNumber]
  omega

/-- A day is at most the last one of its month. -/
theorem daysBeforeMonth_add_day_le (d : Date) :
    daysBeforeMonth d.year d.month + d.day ≤ daysBeforeMonth d.year (d.month + 1) := by
  rw [daysBeforeMonth_succ d.year d.month_mem.1]
  exact Nat.add_le_add_left d.day_mem.2 _

/-- A day is at most the last one of its year. -/
theorem dayNumber_le (d : Date) : d.dayNumber ≤ daysBeforeYear (d.year + 1) := by
  have month := d.daysBeforeMonth_add_day_le
  have year : daysBeforeMonth d.year (d.month + 1) ≤ daysBeforeMonth d.year 13 :=
    daysBeforeMonth_le d.year (by omega) (by have := d.month_mem; omega)
  rw [daysBeforeMonth_thirteen] at year
  rw [daysBeforeYear_succ, dayNumber]
  omega

theorem Before.dayNumber_lt {d e : Date} (before : d.Before e) : d.dayNumber < e.dayNumber := by
  rcases before with years | ⟨years, months | ⟨months, days⟩⟩
  · have first := d.dayNumber_le
    have between : daysBeforeYear (d.year + 1) ≤ daysBeforeYear e.year := daysBeforeYear_le years
    have last := e.lt_dayNumber
    omega
  · have first := d.daysBeforeMonth_add_day_le
    have between : daysBeforeMonth d.year (d.month + 1) ≤ daysBeforeMonth d.year e.month :=
      daysBeforeMonth_le d.year (by omega) months
    have last := e.day_mem.1
    rw [dayNumber, dayNumber, ← years]
    omega
  · rw [dayNumber, dayNumber, years, months]
    omega

/-- The count of days follows the order of dates. -/
theorem before_iff {d e : Date} : d.Before e ↔ d.dayNumber < e.dayNumber := by
  refine ⟨Before.dayNumber_lt, fun less => ?_⟩
  rcases before_trichotomy d e with before | rfl | after
  · exact before
  · exact absurd less (Int.lt_irrefl _)
  · exact absurd after.dayNumber_lt (Int.lt_asymm less)

theorem eq_of_dayNumber_eq {d e : Date} (same : d.dayNumber = e.dayNumber) : d = e := by
  rcases before_trichotomy d e with before | rfl | after
  · exact absurd same (Int.ne_of_lt before.dayNumber_lt)
  · rfl
  · exact absurd same (Int.ne_of_gt after.dayNumber_lt)

/-! ## The next day -/

/-- The day after a date: the next one of its month, or the first one of the next month, or the
first one of the next year. The last date of all has none. -/
def next? (d : Date) : Option Date :=
  (of? d.year d.month (d.day + 1)).or ((of? d.year (d.month + 1) 1).or (of? (d.year + 1) 1 1))

theorem of?_eq_some_iff {year : Int} {month day : Nat} {d : Date} :
    of? year month day = some d ↔ d.year = year ∧ d.month = month ∧ d.day = day := by
  rw [of?]
  split
  · rw [Option.some.injEq]
    constructor
    · rintro rfl
      exact ⟨rfl, rfl, rfl⟩
    · rintro ⟨rfl, rfl, rfl⟩
      rfl
  · rename_i noDate
    refine ⟨nofun, ?_⟩
    rintro ⟨rfl, rfl, rfl⟩
    exact absurd ⟨d.year_mem, d.month_mem, d.day_mem⟩ noDate

theorem of?_eq_none_iff {year : Int} {month day : Nat} :
    of? year month day = none ↔ ¬ ((-262143 ≤ year ∧ year ≤ 262142) ∧ (1 ≤ month ∧ month ≤ 12) ∧
      (1 ≤ day ∧ day ≤ daysInMonth year month)) := by
  rw [of?]
  split
  · rename_i date
    exact ⟨nofun, fun noDate => absurd date noDate⟩
  · rename_i noDate
    exact ⟨fun _ => noDate, fun _ => rfl⟩

theorem one_le_daysInMonth (year : Int) (month : Nat) : 1 ≤ daysInMonth year month := by
  unfold daysInMonth
  split
  · split
    · decide
    · decide
  all_goals decide

/-- The day after a date is in the same month, or the date ends its month, or its year. -/
theorem next?_cases {d e : Date} (next : d.next? = some e) :
    (e.year = d.year ∧ e.month = d.month ∧ e.day = d.day + 1) ∨
    (d.day = daysInMonth d.year d.month ∧
      e.year = d.year ∧ e.month = d.month + 1 ∧ e.day = 1) ∨
    (d.day = daysInMonth d.year d.month ∧ d.month = 12 ∧
      e.year = d.year + 1 ∧ e.month = 1 ∧ e.day = 1) := by
  have years := d.year_mem
  have months := d.month_mem
  have days := d.day_mem
  rw [next?, Option.or_eq_some_iff, Option.or_eq_some_iff] at next
  rcases next with same | ⟨last, month | ⟨lastMonth, year⟩⟩
  · exact .inl (of?_eq_some_iff.mp same)
  · rw [of?_eq_none_iff] at last
    exact .inr (.inl ⟨by omega, of?_eq_some_iff.mp month⟩)
  · have some := one_le_daysInMonth d.year (d.month + 1)
    rw [of?_eq_none_iff] at last lastMonth
    exact .inr (.inr ⟨by omega, by omega, of?_eq_some_iff.mp year⟩)

/-- The next day counts one more. -/
theorem dayNumber_of_next? {d e : Date} (next : d.next? = some e) :
    e.dayNumber = d.dayNumber + 1 := by
  rw [dayNumber, dayNumber]
  rcases next?_cases next with ⟨year, month, day⟩ | ⟨last, year, month, day⟩ |
    ⟨last, december, year, month, day⟩
  · rw [year, month, day]
    omega
  · rw [year, month, day, daysBeforeMonth_succ d.year d.month_mem.1]
    omega
  · have whole := daysBeforeMonth_thirteen d.year
    rw [daysBeforeMonth_succ d.year (by decide : 1 ≤ 12), ← december, ← last] at whole
    rw [year, month, day, daysBeforeYear_succ, daysBeforeMonth_one]
    omega

/-- A date with a later one has a next day. -/
theorem Before.exists_next? {d e : Date} (before : d.Before e) : ∃ f, d.next? = some f := by
  rw [← Option.ne_none_iff_exists']
  intro none
  rw [next?, Option.or_eq_none_iff, Option.or_eq_none_iff, of?_eq_none_iff, of?_eq_none_iff,
    of?_eq_none_iff] at none
  obtain ⟨last, lastMonth, lastYear⟩ := none
  have := one_le_daysInMonth d.year (d.month + 1)
  have := one_le_daysInMonth (d.year + 1) 1
  have := d.year_mem
  have := d.month_mem
  have := d.day_mem
  have := e.year_mem
  have := e.month_mem
  have lastDay := e.day_mem.2
  rcases before with years | ⟨years, months | ⟨months, days⟩⟩
  · omega
  · omega
  · rw [← years, ← months] at lastDay
    omega

/-! ## Days later -/

/-- A date is so many days before another one. -/
inductive Later : Nat → Date → Date → Prop where
  /-- Every date is no days before itself. -/
  | same (d : Date) : Later 0 d d
  /-- It is one day more before it than its next day. -/
  | next {n : Nat} {d e f : Date} (next : d.next? = some e) (later : Later n e f) :
      Later (n + 1) d f

/-- From day to day every later date is reached, and no other one. -/
theorem later_iff {n : Nat} {d e : Date} : Later n d e ↔ e.dayNumber = d.dayNumber + n := by
  constructor
  · intro later
    induction later with
    | same => omega
    | next next _ ih =>
        rw [ih, dayNumber_of_next? next]
        omega
  · intro numbers
    induction n generalizing d with
    | zero =>
        obtain rfl : d = e := eq_of_dayNumber_eq (by omega)
        exact .same d
    | succ n ih =>
        have before : d.Before e := before_iff.mpr (by omega)
        obtain ⟨f, next⟩ := before.exists_next?
        exact .next next (ih (by rw [dayNumber_of_next? next]; omega))

end Date

end SheetFill
