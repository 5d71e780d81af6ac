import SheetFill.Text.Numeral

/-!
# Dates and times of day

Dates are those of the Gregorian calendar, extended to all years from -262143 to 262142. They are
counted by `Date.dayNumber`. A time of day has nanoseconds; those from `10 ^ 9` up are in a leap
second, which may come after any second and counts like the one that follows. Texts show it as that
one too, so that only a leap second after second 59 has a number of its own, second 60, and can be
read.
-/

namespace SheetFill

namespace Calendar

/-- Whether a year has a 29th of February. -/
def isLeap (year : Int) : Bool := year % 4 == 0 && (year % 100 != 0 || year % 400 == 0)

/-- How many days a month has. -/
def daysInMonth (year : Int) (month : Nat) : Nat :=
  match month with
  | 2 => if isLeap year then 29 else 28
  | 4 | 6 | 9 | 11 => 30
  | _ => 31

/-- How many days of a year lie before a month. -/
def daysBeforeMonth (year : Int) (month : Nat) : Nat :=
  ((List.range month).map fun m => if m = 0 then 0 else daysInMonth year m).foldr (· + ·) 0

/-- How many days lie between the start of the year 1 and the start of a year. -/
def daysBeforeYear (year : Int) : Int :=
  let past := year - 1
  365 * past + past / 4 - past / 100 + past / 400

end Calendar

/-- A date of the calendar. -/
structure Date where
  /-- The year; the year before 1 is 0. -/
  year : Int
  /-- The month, from 1. -/
  month : Nat
  /-- The day of the month, from 1. -/
  day : Nat
  /-- The year can be represented. -/
  year_mem : -262143 ≤ year ∧ year ≤ 262142
  /-- The month is one of the twelve. -/
  month_mem : 1 ≤ month ∧ month ≤ 12
  /-- The month has that day. -/
  day_mem : 1 ≤ day ∧ day ≤ Calendar.daysInMonth year month
deriving DecidableEq

namespace Date

/-- The date of a year, month and day, if there is one. -/
def of? (year : Int) (month day : Nat) : Option Date :=
  if h : (-262143 ≤ year ∧ year ≤ 262142) ∧ (1 ≤ month ∧ month ≤ 12) ∧
      (1 ≤ day ∧ day ≤ Calendar.daysInMonth year month) then
    some ⟨year, month, day, h.1, h.2.1, h.2.2⟩
  else none

/-- The place of a date in the count of days. -/
def dayNumber (d : Date) : Int :=
  Calendar.daysBeforeYear d.year + Calendar.daysBeforeMonth d.year d.month + d.day

/-- A year in four digits, or in at least four after a sign. -/
def yearText (year : Int) : List Char :=
  let digits := Text.Numeral.padded 4 year.natAbs
  if 0 ≤ year ∧ year ≤ 9999 then digits
  else (if year < 0 then '-' else '+') :: digits

/-- A date as `2013-06-01`. -/
def text (d : Date) : List Char :=
  yearText d.year ++ '-' :: Text.Numeral.padded 2 d.month ++ '-' :: Text.Numeral.padded 2 d.day

end Date

/-- A time of day. -/
structure TimeOfDay where
  /-- The hour. -/
  hour : Nat
  /-- The minute. -/
  minute : Nat
  /-- The second; a leap second has that of the second before it. -/
  second : Nat
  /-- The nanoseconds since the start of the second, `10 ^ 9` or more in a leap second. -/
  nanos : Nat
  /-- The fields are in their ranges. -/
  fields_mem : hour < 24 ∧ minute < 60 ∧ second < 60
  /-- There is at most one leap second after a second. -/
  nanos_lt : nanos < 2000000000
deriving DecidableEq

namespace TimeOfDay

/-- The time that is written with the given fields, if there is one. Second 60 is the leap second
after second 59, and no other second is followed by one. -/
def of? (hour minute second nanos : Nat) : Option TimeOfDay :=
  let (second, nanos) := if second = 60 then (59, nanos + 1000000000) else (second, nanos)
  if h : (hour < 24 ∧ minute < 60 ∧ second < 60) ∧
      nanos < if second = 59 then 2000000000 else 1000000000 then
    some ⟨hour, minute, second, nanos, h.1, Nat.lt_of_lt_of_le h.2 (by split <;> decide)⟩
  else none

/-- The start of the day. -/
def midnight : TimeOfDay := ⟨0, 0, 0, 0, by decide, by decide⟩

/-- Nanoseconds since midnight; a leap second counts as the second that follows. -/
def nanosOfDay (t : TimeOfDay) : Nat :=
  ((t.hour * 60 + t.minute) * 60 + t.second) * 1000000000 + t.nanos

/-- A time as `08:30:00`, without its fraction. A leap second goes by the number of the second that
follows, which is 60 after second 59. -/
def text (t : TimeOfDay) : List Char :=
  Text.Numeral.padded 2 t.hour ++ ':' :: Text.Numeral.padded 2 t.minute ++
    ':' :: Text.Numeral.padded 2 (t.second + t.nanos / 1000000000)

end TimeOfDay

/-- A date and a time of day, as a calendar and a clock on the wall show them. -/
structure DateTime where
  /-- The date. -/
  date : Date
  /-- The time. -/
  time : TimeOfDay
deriving DecidableEq

namespace DateTime

/-- The date and the time, with `separator` between them. -/
def textWith (separator : Char) (d : DateTime) : List Char :=
  d.date.text ++ separator :: d.time.text

/-- A date and time as `2013-06-01T08:30:00`. -/
def isoText (d : DateTime) : String := String.ofList (d.textWith 'T')

/-- A date and time as a reader expects it: `2013-06-01`, or `2013-06-01 08:30:00` if the time is
not midnight. -/
def displayText (d : DateTime) : String :=
  String.ofList (if d.time = .midnight then d.date.text else d.textWith ' ')

/-- The day before the first day of spreadsheet dates, 1899-12-30. -/
def epoch : Date := ⟨1899, 12, 30, by decide, by decide, by decide⟩

/-- The last day of spreadsheet dates, 9999-12-31. -/
def lastDate : Date := ⟨9999, 12, 31, by decide, by decide, by decide⟩

/-- Whole milliseconds since the start of 1899-12-30, for the dates that a spreadsheet can show:
from that day on, up to 9999-12-31. -/
def serialMillis? (d : DateTime) : Option Nat :=
  if d.date.dayNumber < epoch.dayNumber ∨ lastDate.dayNumber < d.date.dayNumber then none
  else
    some ((d.date.dayNumber - epoch.dayNumber).toNat * 86400000 + d.time.nanosOfDay / 1000000)

end DateTime

end SheetFill
