import SheetFill.Proofs.Calendar.Seconds
import SheetFill.Proofs.Text.Numerals
import SheetFill.Proofs.Xml.Unescape
import SheetFill.Value.Basic

/-!
# Dates that are written and read again

A date is written in one of two forms, and read in the first of four that fits. A field of two
digits is read back by every reader of fields (`TakesTwo`), a year by the reader of signed years
alone (`year?_yearText`): a time stamp wants a year of four digits. What is read is the date that
was written, with its time cut to whole seconds, unless it is in a leap second that does not follow
second 59: such a one is written like the second after it, and read as that one
(`readDates_written`).
-/

namespace SheetFill

/-! ## Whole seconds -/

/-- A time without its fraction of a second. A leap second stays one. -/
def TimeOfDay.wholeSecond (t : TimeOfDay) : TimeOfDay :=
  { t with
    nanos := t.nanos / 1000000000 * 1000000000
    nanos_lt := Nat.lt_of_le_of_lt (Nat.div_mul_le_self ..) t.nanos_lt }

/-- The time that the text of a time shows: the start of the second with the number there, or of a
leap second if that is second 60. -/
def TimeOfDay.shown (t : TimeOfDay) : TimeOfDay :=
  (start? t.hour t.minute (t.second + t.nanos / 1000000000)).getD t.wholeSecond

/-- A date and a time without its fraction of a second. -/
def DateTime.wholeSecond (d : DateTime) : DateTime := { d with time := d.time.wholeSecond }

/-- The date and time that a text shows. -/
def DateTime.shown (d : DateTime) : DateTime := { d with time := d.time.shown }

theorem Calendar.daysInMonth_le (year : Int) (month : Nat) : daysInMonth year month ≤ 31 := by
  unfold daysInMonth
  split
  · split <;> omega
  all_goals omega

theorem Date.of?_fields (d : Date) : Date.of? d.year d.month d.day = some d :=
  dif_pos ⟨d.year_mem, d.month_mem, d.day_mem⟩

namespace TimeOfDay

/-- The second that is written is read as the one that it shows. -/
theorem of?_written (t : TimeOfDay) :
    of? t.hour t.minute (t.second + t.nanos / 1000000000) 0 = some t.shown := by
  have ⟨hours, minutes, seconds⟩ := t.fields_mem
  have nanos := t.nanos_lt
  by_cases early : t.second + t.nanos / 1000000000 < 60
  · have noLeap : t.second + t.nanos / 1000000000 ≠ 60 := by omega
    have inside := And.intro hours (And.intro minutes early)
    rw [shown, start?, dif_pos inside]
    simp only [of?, if_neg noLeap]
    exact dif_pos ⟨inside, by split <;> decide⟩
  · have last : t.second = 59 := by omega
    have leap : t.nanos / 1000000000 = 1 := by omega
    rw [shown, start?, dif_neg fun inside => early inside.2.2]
    simp only [of?, wholeSecond, last, leap, Nat.reduceAdd, if_true, Nat.zero_add, Nat.one_mul]
    exact dif_pos ⟨⟨hours, minutes, by decide⟩, by decide⟩

/-- Only a leap second after another second than 59 is shown as a second that it is not. -/
theorem shown_eq_wholeSecond_iff {t : TimeOfDay} :
    t.shown = t.wholeSecond ↔ (t.IsLeap → t.second = 59) := by
  have ⟨hours, minutes, seconds⟩ := t.fields_mem
  have nanos := t.nanos_lt
  rw [shown, start?, IsLeap]
  split
  · have start : midnight.nanos = 0 := rfl
    rw [Option.getD_some, wholeSecond, TimeOfDay.mk.injEq, start]
    omega
  · exact iff_of_true rfl fun _ => by omega

/-- A leap second after another second than 59 is shown as the second that follows. -/
theorem nextSecond?_of_isLeap {t : TimeOfDay} (leap : t.IsLeap) (early : t.second ≠ 59) :
    t.nextSecond? = some t.shown := by
  have ⟨hours, minutes, seconds⟩ := t.fields_mem
  have nanos := t.nanos_lt
  have once : t.nanos / 1000000000 = 1 := by
    rw [IsLeap] at leap
    omega
  have inMinute : t.second + 1 < 60 := by omega
  rw [nextSecond?, shown, once, start?, dif_pos ⟨hours, minutes, inMinute⟩, Option.some_or,
    Option.getD_some]

end TimeOfDay

namespace DateText

open Text (trim trimStart)
open Text.Numeral (padded readFrom)

/-- A text does not go on with a digit. -/
def NoDigit (rest : List Char) : Prop := ∀ c ∈ rest.head?, c.isDigit = false

theorem noDigit_nil : NoDigit [] := fun _ mem => by cases mem

theorem noDigit_cons {c : Char} (other : c.isDigit = false) (rest : List Char) :
    NoDigit (c :: rest) := by
  intro d mem
  cases mem
  exact other

/-! ## Numbers -/

section Numbers

variable {least most : Nat} {digits rest : List Char}

/-- A run of digits is read as a whole if it is not too short or too long. -/
theorem number?_append (isDigit : ∀ c ∈ digits, c.isDigit = true)
    (atLeast : least ≤ digits.length) (atMost : digits.length ≤ most) (stop : NoDigit rest) :
    number? least most (digits ++ rest) = some (readFrom 0 digits, rest) := by
  have run : ((digits ++ rest).takeWhile Char.isDigit).take most = digits := by
    rw [Xml.takeWhile_append_of_stop isDigit stop, List.take_of_length_le atMost]
  simp only [number?, run]
  rw [if_neg (Nat.not_lt.mpr atLeast), List.drop_left]

theorem number?_padded {width n : Nat} (positive : 0 < width) (small : n < Nat.pow 10 width)
    (atLeast : least ≤ width) (atMost : width ≤ most) (stop : NoDigit rest) :
    number? least most (padded width n ++ rest) = some (n, rest) := by
  have length : (padded width n).length = width := by
    rw [Text.Numeral.length_padded]
    exact Nat.max_eq_left (Text.Numeral.length_write_le positive small)
  rw [number?_append (fun _ => Text.Numeral.isDigit_of_mem_padded) (by omega) (by omega) stop,
    Text.Numeral.readFrom_padded]

theorem number?_of_noDigit (positive : 0 < least) (stop : NoDigit rest) :
    number? least most rest = none := by
  have none : rest.takeWhile Char.isDigit = [] :=
    Xml.takeWhile_append_of_stop (fun c (mem : c ∈ []) => by cases mem) stop
  simp only [number?, none]
  rw [if_pos (by simpa using positive)]

/-- A number that is written has no blanks in front. -/
theorem trimStart_padded (width n : Nat) (rest : List Char) :
    trimStart (padded width n ++ rest) = padded width n ++ rest := by
  obtain ⟨c, digits, written⟩ := List.exists_cons_of_ne_nil (Text.Numeral.padded_ne_nil width n)
  have noBlank : Text.isBlank c = false :=
    Text.Numeral.isBlank_of_isDigit
      (Text.Numeral.isDigit_of_mem_padded (written ▸ List.mem_cons_self ..))
  rw [written, trimStart, List.cons_append, List.dropWhile_cons, noBlank]
  rfl

end Numbers

/-- A reader of fields takes a number of two digits. -/
def TakesTwo (field : List Char → Option (Nat × List Char)) : Prop :=
  ∀ n < 100, ∀ rest, NoDigit rest → field (padded 2 n ++ rest) = some (n, rest)

theorem takesTwo_number : TakesTwo (number? 2 2) := fun _ small _ =>
  number?_padded (by decide) small (by decide) (by decide)

theorem takesTwo_field : TakesTwo field? := by
  intro n small rest stop
  rw [field?, trimStart_padded]
  exact number?_padded (by decide) small (by decide) (by decide) stop

/-! ## Years -/

section Years

variable {rest : List Char}

theorem year?_padded (width n : Nat) :
    year? (padded width n ++ rest) =
      (number? 1 4 (padded width n ++ rest)).map fun (n, rest) => ((n : Int), rest) := by
  obtain ⟨c, digits, written⟩ := List.exists_cons_of_ne_nil (Text.Numeral.padded_ne_nil width n)
  have isDigit : c.isDigit = true :=
    Text.Numeral.isDigit_of_mem_padded (written ▸ List.mem_cons_self ..)
  have minus : c ≠ '-' := by
    rintro rfl
    exact absurd isDigit (by decide)
  have plus : c ≠ '+' := by
    rintro rfl
    exact absurd isDigit (by decide)
  rw [year?, trimStart_padded, written, List.cons_append]
  split
  · rename_i same
    exact absurd (List.cons.inj same).1 minus
  · rename_i same
    exact absurd (List.cons.inj same).1 plus
  · rfl

theorem number?_yearText {least : Nat} {y : Int} (atLeast : least ≤ 4) (short : 0 ≤ y ∧ y ≤ 9999)
    (stop : NoDigit rest) :
    ((number? least 4 (Date.yearText y ++ rest)).map fun (n, rest) => ((n : Int), rest)) =
      some (y, rest) := by
  have small : y.natAbs < 10000 := by omega
  have same : (y.natAbs : Int) = y := Int.natAbs_of_nonneg short.1
  rw [Date.yearText, if_pos short, number?_padded (by decide) small atLeast (Nat.le_refl 4) stop]
  simp only [Option.map_some, same]

/-- A year is read back, in four digits without a sign and in any number of them after one. -/
theorem year?_yearText (y : Int) (stop : NoDigit rest) :
    year? (Date.yearText y ++ rest) = some (y, rest) := by
  by_cases short : 0 ≤ y ∧ y ≤ 9999
  · have padded : Date.yearText y = padded 4 y.natAbs := if_pos short
    rw [padded, year?_padded, ← padded]
    exact number?_yearText (by decide) short stop
  · have signed : number? 1 (padded 4 y.natAbs ++ rest).length (padded 4 y.natAbs ++ rest) =
        some (y.natAbs, rest) := by
      have some := List.length_pos_iff.mpr (Text.Numeral.padded_ne_nil 4 y.natAbs)
      have all : (padded 4 y.natAbs).length ≤ (padded 4 y.natAbs ++ rest).length := by
        rw [List.length_append]
        exact Nat.le_add_right ..
      rw [number?_append (fun _ => Text.Numeral.isDigit_of_mem_padded) some all stop,
        Text.Numeral.readFrom_padded]
    rw [Date.yearText, if_neg short]
    split
    · rename_i negative
      have same : -(y.natAbs : Int) = y := by omega
      show (number? 1 (padded 4 y.natAbs ++ rest).length (padded 4 y.natAbs ++ rest)).map _ = _
      simp only [signed, Option.map_some, same]
    · rename_i positive
      have same : (y.natAbs : Int) = y := by omega
      show (number? 1 (padded 4 y.natAbs ++ rest).length (padded 4 y.natAbs ++ rest)).map _ = _
      simp only [signed, Option.map_some, same]

/-- A year of exactly four digits, the only one that a time stamp has. -/
def fullYear? (cs : List Char) : Option (Int × List Char) :=
  (number? 4 4 cs).map fun (n, rest) => ((n : Int), rest)

theorem fullYear?_yearText_of_long {y : Int} (long : ¬(0 ≤ y ∧ y ≤ 9999)) :
    fullYear? (Date.yearText y ++ rest) = none := by
  rw [fullYear?, Date.yearText, if_neg long, List.cons_append,
    number?_of_noDigit (by decide) (noDigit_cons (by split <;> rfl) _)]
  rfl

end Years

/-! ## Dates and times -/

section Fields

variable {field : List Char → Option (Nat × List Char)} {rest : List Char}

theorem text_append (d : Date) :
    d.text ++ rest = Date.yearText d.year ++
      '-' :: (padded 2 d.month ++ '-' :: (padded 2 d.day ++ rest)) := by
  simp only [Date.text, List.append_assoc, List.cons_append]

theorem dateWith?_text {year : List Char → Option (Int × List Char)} (d : Date)
    (readsYear : ∀ rest, NoDigit rest → year (Date.yearText d.year ++ rest) = some (d.year, rest))
    (takes : TakesTwo field) (stop : NoDigit rest) :
    dateWith? year field (d.text ++ rest) = some (d, rest) := by
  have month : d.month < 100 := by
    have := d.month_mem
    omega
  have day : d.day < 100 := by
    have := d.day_mem
    have := Calendar.daysInMonth_le d.year d.month
    omega
  have dash : ∀ rest, NoDigit ('-' :: rest) := noDigit_cons rfl
  simp only [dateWith?, text_append, readsYear _ (dash _), mark?, takes _ month _ (dash _),
    takes _ day _ stop, Date.of?_fields, Option.bind_eq_bind, Option.bind_some, if_true]

theorem timeWith?_text (t : TimeOfDay) (takes : TakesTwo field) :
    timeWith? field t.text = some (t.shown, []) := by
  have ⟨hours, minutes, seconds⟩ := t.fields_mem
  have second : t.second + t.nanos / 1000000000 < 100 := by
    have := t.nanos_lt
    omega
  have colon : ∀ rest, NoDigit (':' :: rest) := noDigit_cons rfl
  have last := takes _ second [] noDigit_nil
  rw [List.append_nil] at last
  simp only [timeWith?, TimeOfDay.text, List.append_assoc, List.cons_append,
    takes t.hour (by omega) _ (colon _), takes t.minute (by omega) _ (colon _), last, mark?,
    fraction?, TimeOfDay.of?_written, Option.bind_eq_bind, Option.bind_some, if_true]

end Fields

/-! ## The four forms -/

theorem mark?_eq_some_iff {c : Char} {cs rest : List Char} :
    mark? c cs = some rest ↔ cs = c :: rest := by
  cases cs with
  | nil => simp [mark?]
  | cons d cs => by_cases same : d = c <;> simp [mark?, same]

section Forms

variable {sep : Char}

/-- A date alone is read by the first form. -/
theorem dateAlone?_text (d : Date) : dateAlone? d.text = some ⟨d, .midnight⟩ := by
  have read := dateWith?_text d (fun _ => year?_yearText d.year) takesTwo_field noDigit_nil
  rw [List.append_nil] at read
  simp only [dateAlone?, date?, read, Option.bind_eq_bind, Option.bind_some, List.isEmpty_nil,
    if_true]

theorem date?_textWith (d : DateTime) (other : sep.isDigit = false) :
    date? (d.textWith sep) = some (d.date, sep :: d.time.text) :=
  dateWith?_text d.date (fun _ => year?_yearText d.date.year) takesTwo_field (noDigit_cons other _)

theorem dateAlone?_textWith (d : DateTime) (other : sep.isDigit = false) :
    dateAlone? (d.textWith sep) = none := by
  simp [dateAlone?, date?_textWith d other]

/-- Without an offset there is no time stamp: the text either ends before one or has a year that is
not of four digits. -/
theorem timeStamp?_textWith (d : DateTime) (other : sep.isDigit = false) :
    timeStamp? (d.textWith sep) = none := by
  rw [Option.eq_none_iff_forall_ne_some]
  intro found read
  simp only [timeStamp?, Option.bind_eq_bind, Option.bind_eq_some_iff] at read
  obtain ⟨⟨date, afterDate⟩, readDate, afterMark, between, ⟨time, afterTime⟩, readTime, _, offset,
    -⟩ := read
  -- Its reader of years is `fullYear?`.
  change dateWith? fullYear? (number? 2 2) (d.textWith sep) = _ at readDate
  by_cases short : 0 ≤ d.date.year ∧ d.date.year ≤ 9999
  · have written : dateWith? fullYear? (number? 2 2) (d.textWith sep) =
        some (d.date, sep :: d.time.text) :=
      dateWith?_text d.date (fun _ => number?_yearText (Nat.le_refl 4) short) takesTwo_number
        (noDigit_cons other _)
    obtain ⟨-, rfl⟩ := Prod.mk.inj (Option.some.inj (written.symm.trans readDate))
    have timeNext : afterMark = d.time.text := by
      simp only [Option.or_eq_some_iff, mark?_eq_some_iff, List.cons.injEq] at between
      rcases between with ⟨-, same⟩ | ⟨-, ⟨-, same⟩ | ⟨-, -, same⟩⟩ <;> exact same.symm
    rw [timeNext, timeWith?_text d.time takesTwo_number] at readTime
    obtain ⟨-, rfl⟩ := Prod.mk.inj (Option.some.inj readTime)
    cases offset
  · rw [DateTime.textWith, text_append, dateWith?, fullYear?_yearText_of_long short] at readDate
    cases readDate

theorem dateAndTime?_textWith {between : List Char → Option (List Char)} (d : DateTime)
    (other : sep.isDigit = false) (passes : between (sep :: d.time.text) = some d.time.text) :
    dateAndTime? between (d.textWith sep) = some d.shown := by
  simp only [dateAndTime?, date?_textWith d other, passes, time?,
    timeWith?_text d.time takesTwo_field, Option.bind_eq_bind, Option.bind_some, List.isEmpty_nil,
    if_true, DateTime.shown]

theorem dateAndTime?_textWith_of_none {between : List Char → Option (List Char)} (d : DateTime)
    (other : sep.isDigit = false) (stops : between (sep :: d.time.text) = none) :
    dateAndTime? between (d.textWith sep) = none := by
  simp [dateAndTime?, date?_textWith d other, stops]

end Forms

/-! ## Blanks at the ends -/

theorem trimStart_yearText (y : Int) : trimStart (Date.yearText y) = Date.yearText y := by
  have padded := trimStart_padded 4 y.natAbs []
  rw [List.append_nil] at padded
  rw [Date.yearText]
  split
  · exact padded
  · split <;> rfl

theorem trimEnd_padded (width n : Nat) : Text.trimEnd (padded width n) = padded width n :=
  Text.dropEndWhile_of_none fun _ mem =>
    Text.Numeral.isBlank_of_isDigit (Text.Numeral.isDigit_of_mem_padded mem)

/-- What starts with a year and ends in a number has no blanks at its ends. -/
theorem trim_yearText_append {mark : Char} (noBlank : Text.isBlank mark = false) (y : Int)
    (front : List Char) (width n : Nat) :
    trim ((Date.yearText y ++ '-' :: front) ++ mark :: padded width n) =
      (Date.yearText y ++ '-' :: front) ++ mark :: padded width n := by
  have start : trimStart (Date.yearText y ++ '-' :: front) = Date.yearText y ++ '-' :: front := by
    rw [trimStart, Text.dropWhile_append_cons rfl, ← trimStart, trimStart_yearText]
  rw [Text.trim_append_cons noBlank, start, trimEnd_padded]

theorem trim_text (d : Date) : trim d.text = d.text := trim_yearText_append rfl ..

theorem trim_textWith (d : DateTime) (sep : Char) : trim (d.textWith sep) = d.textWith sep := by
  have regroup : d.textWith sep = (Date.yearText d.date.year ++ '-' :: (padded 2 d.date.month ++
      '-' :: (padded 2 d.date.day ++ sep :: (padded 2 d.time.hour ++
        ':' :: padded 2 d.time.minute)))) ++
      ':' :: padded 2 (d.time.second + d.time.nanos / 1000000000) := by
    simp only [DateTime.textWith, Date.text, TimeOfDay.text, List.append_assoc, List.cons_append]
  rw [regroup]
  exact trim_yearText_append rfl ..

end DateText

/-! ## Reading what was written -/

namespace DateTime

open DateText

theorem read?_isoText (d : DateTime) : read? d.isoText = some d.shown := by
  have between : mark? 'T' ('T' :: d.time.text) = some d.time.text := rfl
  have other : 'T'.isDigit = false := rfl
  simp only [read?, isoText, String.toList_ofList, trim_textWith, dateAlone?_textWith d other,
    timeStamp?_textWith d other, dateAndTime?_textWith d other between, Option.none_or,
    Option.some_or]

/-- A time of midnight, which is left out, is read by default; any other goes with a blank. -/
theorem read?_displayText (d : DateTime) : read? d.displayText = some d.shown := by
  rw [read?, displayText, String.toList_ofList]
  split
  · rename_i midnight
    have shown : d.shown = ⟨d.date, .midnight⟩ := by
      rw [DateTime.shown, midnight]
      rfl
    simp only [trim_text, dateAlone?_text, Option.some_or, shown]
  · have mark : mark? 'T' (' ' :: d.time.text) = none := rfl
    have between : some (Text.trimStart (' ' :: d.time.text)) = some d.time.text := by
      rw [TimeOfDay.text, List.append_assoc]
      exact congrArg some (trimStart_padded 2 d.time.hour _)
    have other : ' '.isDigit = false := rfl
    have last := @dateAndTime?_textWith ' ' (fun cs => some (Text.trimStart cs)) d other between
    simp only [trim_textWith, dateAlone?_textWith d other, timeStamp?_textWith d other,
      dateAndTime?_textWith_of_none d other mark, last, Option.none_or]

theorem shown_eq_wholeSecond_iff {d : DateTime} :
    d.shown = d.wholeSecond ↔ (d.time.IsLeap → d.time.second = 59) := by
  rw [← TimeOfDay.shown_eq_wholeSecond_iff, shown, wholeSecond, DateTime.mk.injEq]
  exact and_iff_right rfl

theorem nextSecond?_of_isLeap {d : DateTime} (leap : d.time.IsLeap) (early : d.time.second ≠ 59) :
    d.nextSecond? = some d.shown := by
  rw [nextSecond?, TimeOfDay.nextSecond?_of_isLeap leap early, shown]

end DateTime

/-- Every date comes back from its text, and from its JSON text, as the second that they show. This
is the date in whole seconds, unless it is in a leap second that does not follow second 59, which
comes back as the start of the next second. -/
theorem Value.readDates_written (d : DateTime) :
    (Value.text (Value.date d).display).readDates = .date d.shown ∧
      (Value.ofJson (Value.date d).toJson).readDates = .date d.shown ∧
      (d.shown = d.wholeSecond ↔ (d.time.IsLeap → d.time.second = 59)) ∧
      (d.time.IsLeap → d.time.second ≠ 59 → d.nextSecond? = some d.shown) := by
  refine ⟨?_, ?_, DateTime.shown_eq_wholeSecond_iff, DateTime.nextSecond?_of_isLeap⟩
  · rw [display, readDates, DateTime.read?_displayText]
    rfl
  · rw [toJson, ofJson, readDates, DateTime.read?_isoText]
    rfl

/-- A leap second within a minute: 20:19:23 and a whole second more. -/
def DateTime.leapWithinMinute : DateTime :=
  ⟨⟨2015, 6, 30, by decide, by decide, by decide⟩,
    ⟨20, 19, 23, 1000000000, by decide, by decide⟩⟩

/-- A leap second within a minute does not come back as one. -/
theorem Value.readDates_leapWithinMinute :
    ¬ ((Value.text (Value.date .leapWithinMinute).display).readDates =
        .date DateTime.leapWithinMinute.wholeSecond ∧
      (Value.ofJson (Value.date .leapWithinMinute).toJson).readDates =
        .date DateTime.leapWithinMinute.wholeSecond) := by
  rintro ⟨same, -⟩
  rw [display, readDates, DateTime.read?_displayText] at same
  exact absurd (Value.date.inj same) (by decide)

example : DateTime.read? "-0044-03-15 23:59:60" =
    some ⟨⟨-44, 3, 15, by decide, by decide, by decide⟩,
      ⟨23, 59, 59, 1000000000, by decide, by decide⟩⟩ := by
  decide +kernel

end SheetFill
