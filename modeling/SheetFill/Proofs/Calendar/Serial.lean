import SheetFill.Proofs.Calendar.Seconds
import SheetFill.Proofs.Number.Nearest
import SheetFill.Value.CellContent

/-!
# Serial dates

The serial of a date and time is its number of milliseconds since the first day, in days. The
milliseconds follow the order of dates and times without leap seconds, a leap second counts as the
second that follows, and from each day to the next there are as many as a day has. They are a
whole number of at most 53 bits, so that the serial is the nearest number to the quotient, and a
whole number at midnight (`serial_counts`).
-/

namespace SheetFill

namespace DateTime

/-! ## Milliseconds -/

/-- At least a millisecond passes from one date and time to another one, with the days between them
counted one by one. -/
def MillisecondBefore (d e : DateTime) : Prop :=
  ∃ days, Date.Later days d.date e.date ∧
    d.time.nanosOfDay + 1000000 ≤ days * 86400000000000 + e.time.nanosOfDay

/-- Whole milliseconds since the start of the first day, also for dates that have no serial. -/
def millis (d : DateTime) : Int := d.nanos / 1000000

theorem Before.millis_le {d e : DateTime} (before : d.Before e) (noLeap : ¬ d.time.IsLeap) :
    d.millis ≤ e.millis := by
  have less := before.nanos_lt noLeap
  rw [millis, millis]
  omega

theorem MillisecondBefore.millis_lt {d e : DateTime} (apart : d.MillisecondBefore e) :
    d.millis < e.millis := by
  obtain ⟨days, later, apart⟩ := apart
  have numbers := Date.later_iff.mp later
  rw [millis, millis, nanos, nanos, numbers]
  omega

/-- From a day to the next one there are as many milliseconds as a day has. -/
theorem millis_next {date next : Date} (time : TimeOfDay) (step : date.next? = some next) :
    (⟨next, time⟩ : DateTime).millis = (⟨date, time⟩ : DateTime).millis + 86400000 := by
  have numbers := Date.dayNumber_of_next? step
  simp only [millis, nanos, numbers]
  omega

/-- A leap second has the milliseconds of the second after it, and its own ones. -/
theorem millis_of_isLeap {d next : DateTime} (leap : d.time.IsLeap)
    (found : d.nextSecond? = some next) :
    d.millis = next.millis + ((d.time.nanos - 1000000000) / 1000000 : Nat) := by
  obtain ⟨counted, whole⟩ := seconds_of_nextSecond? found
  rw [TimeOfDay.IsLeap] at leap
  rw [millis, millis, nanos_eq, nanos_eq, counted, whole]
  omega

/-! ## Serials -/

/-- The dates and times that a spreadsheet can show. -/
def Shows (d : DateTime) : Prop := ¬ d.Before ⟨epoch, .midnight⟩ ∧ ¬ lastDate.Before d.date

theorem shows_iff {d : DateTime} :
    d.Shows ↔ ¬ (d.date.dayNumber < epoch.dayNumber ∨ lastDate.dayNumber < d.date.dayNumber) := by
  have first : d.Before ⟨epoch, .midnight⟩ ↔ d.date.dayNumber < epoch.dayNumber := by
    rw [Before, Date.before_iff]
    exact or_iff_left fun same => TimeOfDay.not_before_midnight _ same.2
  rw [Shows, first, Date.before_iff, not_or]

/-- Milliseconds are counted from the first to the last day. -/
theorem serialMillis?_eq_some_iff {d : DateTime} {m : Nat} :
    d.serialMillis? = some m ↔ d.Shows ∧ d.millis = m := by
  rw [shows_iff, serialMillis?]
  split
  · rename_i out
    exact ⟨nofun, fun ⟨inside, _⟩ => absurd out inside⟩
  · rename_i inside
    rw [Option.some.injEq, millis, nanos]
    constructor
    · rintro rfl
      exact ⟨inside, by omega⟩
    · rintro ⟨-, same⟩
      omega

theorem days_epoch_lastDate : lastDate.dayNumber = epoch.dayNumber + 2958465 := by decide +kernel

theorem serialMillis?_lt {d : DateTime} {m : Nat} (counted : d.serialMillis? = some m) :
    m < 2 ^ 53 := by
  obtain ⟨shown, same⟩ := serialMillis?_eq_some_iff.mp counted
  rw [shows_iff, days_epoch_lastDate] at shown
  have inDay := d.time.nanosOfDay_lt.1
  rw [millis, nanos] at same
  omega

theorem isSome_serial?_iff {d : DateTime} : d.serial?.isSome ↔ d.Shows := by
  rw [serial?, Option.isSome_map, shows_iff, serialMillis?]
  split
  · rename_i out
    exact ⟨nofun, fun inside => absurd out inside⟩
  · rename_i inside
    exact ⟨fun _ => inside, fun _ => rfl⟩

/-- The serial is the nearest number to the milliseconds in days. -/
theorem exists_millis_of_serial? {d : DateTime} {x : Binary64} (found : d.serial? = some x) :
    ∃ m : Nat, d.millis = m ∧ m < 2 ^ 53 ∧ x.Rounds (m / 86400000) := by
  obtain ⟨m, counted, rfl⟩ := Option.map_eq_some_iff.mp found
  have small := serialMillis?_lt counted
  refine ⟨m, (serialMillis?_eq_some_iff.mp counted).2, small, ?_⟩
  have range : (m : ℚ) / (86400000 : Nat) < 2 ^ 1023 := by
    have small' : (m : ℚ) < 2 ^ 53 := by exact_mod_cast small
    have wide : (2 : ℚ) ^ 53 < 2 ^ 1023 := pow_lt_pow_right₀ (by norm_num) (by decide)
    refine lt_of_le_of_lt (div_le_self (Nat.cast_nonneg m) (by norm_num)) (lt_trans small' wide)
  exact_mod_cast Binary64.rounds_ofRatio (by decide) range

/-- At midnight the serial is the number of days since the first one. -/
theorem value_serial?_midnight {date : Date} {x : Binary64}
    (found : (⟨date, .midnight⟩ : DateTime).serial? = some x) :
    x.value = ((date.dayNumber - epoch.dayNumber : Int) : ℚ) := by
  obtain ⟨m, counted, rfl⟩ := Option.map_eq_some_iff.mp found
  have small := serialMillis?_lt counted
  have same := (serialMillis?_eq_some_iff.mp counted).2
  rw [millis, nanos_midnight] at same
  obtain ⟨n, days⟩ : ∃ n : Nat, date.dayNumber - epoch.dayNumber = n :=
    ⟨(date.dayNumber - epoch.dayNumber).toNat, by omega⟩
  obtain rfl : m = n * 86400000 := by omega
  rw [days, Binary64.value_ofRatio_of_whole (by decide) (by omega), Int.cast_natCast]

/-- The serials of midnights are whole numbers, one more from each day to the next. -/
theorem exists_days_of_serial? {date : Date} {x : Binary64}
    (found : (⟨date, .midnight⟩ : DateTime).serial? = some x) :
    ∃ n : Nat, x.value = n ∧ ∀ next y, date.next? = some next →
      (⟨next, .midnight⟩ : DateTime).serial? = some y → y.value = n + 1 := by
  obtain ⟨m, same, -, -⟩ := exists_millis_of_serial? found
  rw [millis, nanos_midnight] at same
  obtain ⟨n, days⟩ : ∃ n : Nat, date.dayNumber - epoch.dayNumber = n :=
    ⟨(date.dayNumber - epoch.dayNumber).toNat, by omega⟩
  refine ⟨n, by rw [value_serial?_midnight found, days, Int.cast_natCast], ?_⟩
  intro next y step found'
  have later : next.dayNumber - epoch.dayNumber = ((n + 1 : Nat) : Int) := by
    have numbers := Date.dayNumber_of_next? step
    omega
  rw [value_serial?_midnight found', later]
  push_cast
  rfl

/-- A serial is there for the dates that a spreadsheet can show. It is the milliseconds in days,
which are a whole number of at most 53 bits, grow with the date and time, go on from a leap second
with the second after it, and grow by a whole day from each day to the next. So midnights have
consecutive whole numbers. -/
theorem serial_counts (d : DateTime) :
    (d.serial?.isSome ↔
      ¬ d.Before ⟨⟨1899, 12, 30, by decide, by decide, by decide⟩, .midnight⟩ ∧
      ¬ Date.Before ⟨9999, 12, 31, by decide, by decide, by decide⟩ d.date) ∧
    (∀ x, d.serial? = some x → ∃ m : Nat, d.millis = m ∧ m < 2 ^ 53 ∧ x.Rounds (m / 86400000)) ∧
    (∀ e : DateTime, ¬ d.time.IsLeap → ¬ e.time.IsLeap →
      (d.Before e → d.millis ≤ e.millis) ∧ (d.MillisecondBefore e → d.millis < e.millis)) ∧
    (∀ e, d.time.IsLeap → d.nextSecond? = some e →
      d.millis = e.millis + ((d.time.nanos - 1000000000) / 1000000 : Nat)) ∧
    (∀ next, d.date.next? = some next →
      (⟨next, d.time⟩ : DateTime).millis = d.millis + 86400000) ∧
    (∀ x, d.time = .midnight → d.serial? = some x → ∃ n : Nat, x.value = n ∧
      ∀ next y, d.date.next? = some next → (⟨next, .midnight⟩ : DateTime).serial? = some y →
        y.value = n + 1) := by
  refine ⟨isSome_serial?_iff, fun _ => exists_millis_of_serial?, fun e noLeap _ => ⟨?_, ?_⟩,
    fun _ => millis_of_isLeap, fun _ => millis_next d.time, fun x midnight found => ?_⟩
  · exact fun before => before.millis_le noLeap
  · exact MillisecondBefore.millis_lt
  · obtain ⟨date, time⟩ := d
    obtain rfl : time = .midnight := midnight
    exact exists_days_of_serial? found

/-- The day before a leap day. -/
def leapEve : Date := ⟨2000, 2, 28, by decide, by decide, by decide⟩

/-- A leap day in a year that ends a century. -/
def leapDay : Date := ⟨2000, 2, 29, by decide, by decide, by decide⟩

/-- Half of a leap second has passed at the end of a day. -/
def leapSecond : TimeOfDay := ⟨23, 59, 59, 1500000000, by decide, by decide⟩

/-- A leap second right before a leap day. -/
theorem serial_counts_leapDay :
    (⟨leapEve, leapSecond⟩ : DateTime).serial?.isSome ∧
      (∃ m : Nat, (⟨leapEve, leapSecond⟩ : DateTime).millis = m ∧ m < 2 ^ 53 ∧
        (Binary64.ofRatio false 3160944000500 86400000).Rounds (m / 86400000)) ∧
      (⟨leapEve, .midnight⟩ : DateTime).millis ≤ (⟨leapDay, .midnight⟩ : DateTime).millis ∧
      (⟨leapEve, .midnight⟩ : DateTime).millis < (⟨leapDay, .midnight⟩ : DateTime).millis ∧
      (⟨leapEve, leapSecond⟩ : DateTime).millis =
        (⟨leapDay, .midnight⟩ : DateTime).millis + ((1500000000 - 1000000000) / 1000000 : Nat) ∧
      (⟨leapDay, leapSecond⟩ : DateTime).millis =
        (⟨leapEve, leapSecond⟩ : DateTime).millis + 86400000 ∧
      ∃ n : Nat, (Binary64.ofRatio false 3160857600000 86400000).value = n ∧
        (Binary64.ofRatio false 3160944000000 86400000).value = n + 1 := by
  obtain ⟨shown, counted, -, leaps, next, -⟩ := serial_counts ⟨leapEve, leapSecond⟩
  obtain ⟨-, -, order, -, -, midnights⟩ := serial_counts ⟨leapEve, .midnight⟩
  have step : leapEve.next? = some leapDay := by decide +kernel
  obtain ⟨grows, apart⟩ := order ⟨leapDay, .midnight⟩ (by decide) (by decide)
  have found : (⟨leapEve, .midnight⟩ : DateTime).serial? =
      some (Binary64.ofRatio false 3160857600000 86400000) := by decide +kernel
  obtain ⟨n, first, later⟩ := midnights _ rfl found
  exact ⟨shown.mpr (by decide +kernel), counted _ (by decide +kernel), grows (by decide),
    apart ⟨1, .next step (.same _), by decide⟩, leaps _ (by decide) (by decide +kernel),
    next _ step, n, first, later _ _ step (by decide +kernel)⟩

end DateTime

end SheetFill
