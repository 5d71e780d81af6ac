import SheetFill.Proofs.Calendar.Days

/-!
# Counting seconds

The second after a date and time is the next one of its minute, or the first one of the next minute,
hour or day (`DateTime.nextSecond?`), and each such step counts one
(`DateTime.seconds_of_nextSecond?`). A leap second is not counted. Its nanoseconds go past the end of
the second before it, so that it is as long as the second that follows and lies in the same place
(`DateTime.nanos_eq`).
-/

namespace SheetFill

/-! ## Times of day -/

namespace TimeOfDay

/-- A time is in a leap second. -/
def IsLeap (t : TimeOfDay) : Prop := 1000000000 ≤ t.nanos

instance (t : TimeOfDay) : Decidable t.IsLeap := inferInstanceAs (Decidable (1000000000 ≤ t.nanos))

/-- A time comes before another one: the hours decide, then the minutes, the seconds and what is
left. -/
def Before (t u : TimeOfDay) : Prop :=
  t.hour < u.hour ∨ t.hour = u.hour ∧ (t.minute < u.minute ∨ t.minute = u.minute ∧
    (t.second < u.second ∨ t.second = u.second ∧ t.nanos < u.nanos))

instance (t u : TimeOfDay) : Decidable (t.Before u) :=
  inferInstanceAs (Decidable (t.hour < u.hour ∨ t.hour = u.hour ∧
    (t.minute < u.minute ∨ t.minute = u.minute ∧
      (t.second < u.second ∨ t.second = u.second ∧ t.nanos < u.nanos))))

/-- The start of a second, if the day has it. -/
def start? (hour minute second : Nat) : Option TimeOfDay :=
  if h : hour < 24 ∧ minute < 60 ∧ second < 60 then
    some { midnight with hour := hour, minute := minute, second := second, fields_mem := h }
  else none

/-- The start of the next second of the day, if there is one. -/
def nextSecond? (t : TimeOfDay) : Option TimeOfDay :=
  (start? t.hour t.minute (t.second + 1)).or <|
    (start? t.hour (t.minute + 1) 0).or (start? (t.hour + 1) 0 0)

/-- How many seconds of the day lie before that of a time. -/
def seconds (t : TimeOfDay) : Nat := (t.hour * 60 + t.minute) * 60 + t.second

theorem not_before_midnight (t : TimeOfDay) : ¬ t.Before midnight := by
  simp [Before, midnight]

theorem seconds_lt (t : TimeOfDay) : t.seconds < 86400 := by
  have ⟨hours, minutes, seconds⟩ := t.fields_mem
  rw [TimeOfDay.seconds]
  omega

theorem nanosOfDay_eq (t : TimeOfDay) : t.nanosOfDay = t.seconds * 1000000000 + t.nanos := rfl

/-- Only a leap second at the end of a day is beyond it. -/
theorem nanosOfDay_lt (t : TimeOfDay) :
    t.nanosOfDay < 86401000000000 ∧ (¬ t.IsLeap → t.nanosOfDay < 86400000000000) := by
  have seconds := t.seconds_lt
  have nanos := t.nanos_lt
  rw [IsLeap, nanosOfDay_eq]
  omega

theorem Before.nanosOfDay_lt {t u : TimeOfDay} (before : t.Before u) (noLeap : ¬ t.IsLeap) :
    t.nanosOfDay < u.nanosOfDay := by
  have ⟨_, minutes, seconds⟩ := t.fields_mem
  rw [IsLeap] at noLeap
  rw [Before] at before
  rw [nanosOfDay, nanosOfDay]
  omega

theorem start?_eq_some {hour minute second : Nat} {t : TimeOfDay}
    (found : start? hour minute second = some t) :
    t.seconds = (hour * 60 + minute) * 60 + second ∧ t.nanos = 0 := by
  obtain ⟨_, found⟩ := Option.dite_none_right_eq_some.mp found
  cases found
  exact ⟨rfl, rfl⟩

theorem start?_eq_none {hour minute second : Nat} (missing : start? hour minute second = none) :
    ¬ (hour < 24 ∧ minute < 60 ∧ second < 60) := by
  intro inside
  rw [start?, dif_pos inside] at missing
  cases missing

theorem seconds_of_nextSecond? {t next : TimeOfDay} (found : t.nextSecond? = some next) :
    next.seconds = t.seconds + 1 ∧ next.nanos = 0 := by
  have ⟨hours, minutes, _⟩ := t.fields_mem
  have here : t.seconds = (t.hour * 60 + t.minute) * 60 + t.second := rfl
  rw [nextSecond?, Option.or_eq_some_iff, Option.or_eq_some_iff] at found
  rcases found with second | ⟨noSecond, minute | ⟨noMinute, hour⟩⟩
  · obtain ⟨counted, whole⟩ := start?_eq_some second
    exact ⟨by omega, whole⟩
  · obtain ⟨counted, whole⟩ := start?_eq_some minute
    have last := start?_eq_none noSecond
    exact ⟨by omega, whole⟩
  · obtain ⟨counted, whole⟩ := start?_eq_some hour
    have lastSecond := start?_eq_none noSecond
    have lastMinute := start?_eq_none noMinute
    exact ⟨by omega, whole⟩

/-- The last second of a day has no next one on that day. -/
theorem seconds_of_nextSecond?_eq_none {t : TimeOfDay} (last : t.nextSecond? = none) :
    t.seconds = 86399 := by
  have ⟨hours, minutes, seconds⟩ := t.fields_mem
  rw [nextSecond?, Option.or_eq_none_iff, Option.or_eq_none_iff] at last
  obtain ⟨noSecond, noMinute, noHour⟩ := last
  have lastSecond := start?_eq_none noSecond
  have lastMinute := start?_eq_none noMinute
  have lastHour := start?_eq_none noHour
  rw [TimeOfDay.seconds]
  omega

end TimeOfDay

/-! ## Dates and times -/

namespace DateTime

/-- A date and time comes before another one. -/
def Before (d e : DateTime) : Prop :=
  d.date.Before e.date ∨ d.date = e.date ∧ d.time.Before e.time

instance (d e : DateTime) : Decidable (d.Before e) :=
  inferInstanceAs (Decidable (d.date.Before e.date ∨ d.date = e.date ∧ d.time.Before e.time))

/-- The start of the next second, which is the second after a leap second too. -/
def nextSecond? (d : DateTime) : Option DateTime :=
  match d.time.nextSecond? with
  | some time => some ⟨d.date, time⟩
  | none => d.date.next?.map fun date => ⟨date, .midnight⟩

/-- Seconds since the start of the first day, with the days before it counted down. -/
def seconds (d : DateTime) : Int :=
  (d.date.dayNumber - epoch.dayNumber) * 86400 + d.time.seconds

/-- Nanoseconds since the start of the first day. -/
def nanos (d : DateTime) : Int :=
  (d.date.dayNumber - epoch.dayNumber) * 86400000000000 + d.time.nanosOfDay

theorem nanos_midnight (date : Date) :
    (⟨date, .midnight⟩ : DateTime).nanos =
      (date.dayNumber - epoch.dayNumber) * 86400000000000 := by
  have none : TimeOfDay.midnight.nanosOfDay = 0 := rfl
  rw [nanos, none]
  exact Int.add_zero _

/-- The nanoseconds are those of the whole seconds and then those of the time. -/
theorem nanos_eq (d : DateTime) : d.nanos = d.seconds * 1000000000 + d.time.nanos := by
  rw [nanos, seconds, TimeOfDay.nanosOfDay_eq]
  omega

theorem seconds_of_nextSecond? {d next : DateTime} (found : d.nextSecond? = some next) :
    next.seconds = d.seconds + 1 ∧ next.time.nanos = 0 := by
  rw [nextSecond?] at found
  split at found
  · rename_i time step
    cases found
    obtain ⟨counted, whole⟩ := TimeOfDay.seconds_of_nextSecond? step
    refine ⟨?_, whole⟩
    simp only [seconds, counted]
    omega
  · rename_i last
    obtain ⟨date, step, rfl⟩ := Option.map_eq_some_iff.mp found
    have first : TimeOfDay.midnight.seconds = 0 := rfl
    refine ⟨?_, rfl⟩
    simp only [seconds, TimeOfDay.seconds_of_nextSecond?_eq_none last,
      Date.dayNumber_of_next? step, first]
    omega

theorem Before.nanos_lt {d e : DateTime} (before : d.Before e) (noLeap : ¬ d.time.IsLeap) :
    d.nanos < e.nanos := by
  rw [nanos, nanos]
  rcases before with days | ⟨same, times⟩
  · have inDay := d.time.nanosOfDay_lt.2 noLeap
    have less := days.dayNumber_lt
    omega
  · have less := times.nanosOfDay_lt noLeap
    rw [same]
    omega

end DateTime

end SheetFill
