import SheetFill.Calendar.DateTime
import SheetFill.Text.Blank

/-!
# Reading dates

`DateTime.read?` reads four forms of a date, blanks at the ends aside. The first form that fits the
whole text wins:

* a date alone, `2013-06-01`, which is midnight;
* a time stamp with an offset, `2013-06-01T08:30:00+02:00`, with every field in full; the date and
  the time are those written, and the offset is dropped;
* a date and a time with `T` between them, `2013-06-01T8:30:00.25`;
* the same with any number of blanks in place of `T`.

Outside of time stamps a field may have fewer digits than usual and blanks in front, and a year may
have a sign and then any number of digits. A fraction has at least one digit, and digits after the
ninth are passed over.
-/

namespace SheetFill.DateText

open Text

/-- A number of at least `least` and at most `most` digits at the start of a text, and the rest. -/
def number? (least most : Nat) (cs : List Char) : Option (Nat × List Char) :=
  let digits := (cs.takeWhile Char.isDigit).take most
  if digits.length < least then none
  else some (Numeral.readFrom 0 digits, cs.drop digits.length)

/-- The rest of a text that starts with a given character. -/
def mark? (c : Char) : List Char → Option (List Char)
  | [] => none
  | d :: cs => if d = c then some cs else none

/-- A field of one or two digits, after blanks. -/
def field? (cs : List Char) : Option (Nat × List Char) := number? 1 2 (trimStart cs)

/-- A year, after blanks: up to four digits, or any number of them after a sign. -/
def year? (cs : List Char) : Option (Int × List Char) :=
  match trimStart cs with
  | '-' :: rest => (number? 1 rest.length rest).map fun (n, rest) => (-(n : Int), rest)
  | '+' :: rest => (number? 1 rest.length rest).map fun (n, rest) => ((n : Int), rest)
  | rest => (number? 1 4 rest).map fun (n, rest) => ((n : Int), rest)

/-- A fraction of a second in nanoseconds: a point and digits, or nothing. -/
def fraction? : List Char → Option (Nat × List Char)
  | '.' :: cs => do
      let (n, rest) ← number? 1 9 cs
      let places := cs.length - rest.length
      some (n * Nat.pow 10 (9 - places), rest.dropWhile Char.isDigit)
  | cs => some (0, cs)

/-- A date whose fields are read by `year` and `field`. -/
def dateWith? (year : List Char → Option (Int × List Char))
    (field : List Char → Option (Nat × List Char)) (cs : List Char) :
    Option (Date × List Char) := do
  let (y, cs) ← year cs
  let cs ← mark? '-' cs
  let (m, cs) ← field cs
  let cs ← mark? '-' cs
  let (d, cs) ← field cs
  let date ← Date.of? y m d
  some (date, cs)

/-- A time whose fields are read by `field`. -/
def timeWith? (field : List Char → Option (Nat × List Char)) (cs : List Char) :
    Option (TimeOfDay × List Char) := do
  let (h, cs) ← field cs
  let cs ← mark? ':' cs
  let (m, cs) ← field cs
  let cs ← mark? ':' cs
  let (s, cs) ← field cs
  let (nanos, cs) ← fraction? cs
  let time ← TimeOfDay.of? h m s nanos
  some (time, cs)

/-- A date with short fields. -/
def date? : List Char → Option (Date × List Char) := dateWith? year? field?

/-- A time with short fields. -/
def time? : List Char → Option (TimeOfDay × List Char) := timeWith? field?

/-- The rest after an offset: `Z`, or a sign and an offset of less than a day. -/
def offset? : List Char → Option (List Char)
  | [] => none
  | sign :: cs =>
      if sign = 'Z' ∨ sign = 'z' then some cs
      else if sign = '+' ∨ sign = '-' ∨ sign = '\u2212' then do
        let (hours, cs) ← number? 2 2 cs
        let cs ← mark? ':' cs
        let (minutes, cs) ← number? 2 2 cs
        if hours < 24 ∧ minutes < 60 then some cs else none
      else none

/-- A date alone. -/
def dateAlone? (cs : List Char) : Option DateTime := do
  let (date, rest) ← date? cs
  if rest.isEmpty then some ⟨date, .midnight⟩ else none

/-- A time stamp with an offset, every field in full. -/
def timeStamp? (cs : List Char) : Option DateTime := do
  let fullYear := fun cs => (number? 4 4 cs).map fun (n, rest) => ((n : Int), rest)
  let (date, cs) ← dateWith? fullYear (number? 2 2) cs
  let cs ← (mark? 'T' cs).or ((mark? 't' cs).or (mark? ' ' cs))
  let (time, cs) ← timeWith? (number? 2 2) cs
  let rest ← offset? cs
  if rest.isEmpty then some ⟨date, time⟩ else none

/-- A date and a time, `between` reading what stands between them. -/
def dateAndTime? (between : List Char → Option (List Char)) (cs : List Char) : Option DateTime := do
  let (date, cs) ← date? cs
  let cs ← between cs
  let (time, rest) ← time? cs
  if rest.isEmpty then some ⟨date, time⟩ else none

end SheetFill.DateText

namespace SheetFill

/-- The date that a text spells, in any of the four forms. -/
def DateTime.read? (text : String) : Option DateTime :=
  let cs := Text.trim text.toList
  (DateText.dateAlone? cs).or <| (DateText.timeStamp? cs).or <|
    (DateText.dateAndTime? (DateText.mark? 'T') cs).or
      (DateText.dateAndTime? (fun cs => some (Text.trimStart cs)) cs)

end SheetFill
