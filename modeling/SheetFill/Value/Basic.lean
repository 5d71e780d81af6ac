import SheetFill.DataPath
import SheetFill.Calendar.DateText
import SheetFill.Json.Basic

/-!
# The data of a template

The data that fills a template is a value: a scalar, a sequence or a mapping. A mapping has its keys
in the order of their characters, each key once. A path leads from a value to another one or to
nothing (`resolve`): a key goes to a field of a mapping, an index to an element of a sequence, and a
key that meets a sequence goes to the field of every element, with null where an element has none.
-/

namespace SheetFill

/-- A value of the data. -/
inductive Value where
  /-- Nothing, said on purpose. -/
  | null
  /-- A truth value. -/
  | bool (b : Bool)
  /-- A number. -/
  | number (x : Binary64)
  /-- A text. -/
  | text (s : String)
  /-- A date and time, as a calendar and a clock on the wall show them. -/
  | date (d : DateTime)
  /-- An ordered list. -/
  | sequence (items : List Value)
  /-- Values by key, in the order of the keys. -/
  | mapping (entries : List (String × Value))
deriving Inhabited

namespace Value

/-! ## Mappings -/

/-- Entries with one put in its place, or in place of an old one with its key. -/
def insertEntry (key : String) (value : Value) : List (String × Value) → List (String × Value)
  | [] => [(key, value)]
  | (k, v) :: rest =>
      if key = k then (key, value) :: rest
      else if Text.precedes key.toList k.toList then (key, value) :: (k, v) :: rest
      else (k, v) :: insertEntry key value rest

/-- The mapping with the given entries; the last one with a key counts. -/
def ofEntries (entries : List (String × Value)) : Value :=
  .mapping (entries.foldl (fun sorted entry => insertEntry entry.1 entry.2 sorted) [])

/-- The value of a key among entries. -/
def lookup (key : String) : List (String × Value) → Option Value
  | [] => none
  | (k, v) :: rest => if k = key then some v else lookup key rest

/-- The field of a mapping. -/
def get? (v : Value) (key : String) : Option Value :=
  match v with
  | .mapping entries => lookup key entries
  | _ => none

/-- The name of the kind of a value. -/
def kindName : Value → String
  | .null => "null"
  | .bool _ => "boolean"
  | .number _ => "number"
  | .text _ => "text"
  | .date _ => "date"
  | .sequence _ => "sequence"
  | .mapping _ => "mapping"

/-! ## Paths -/

mutual

/-- What a path leads to from a value. -/
def resolve : Value → List PathStep → Option Value
  | v, [] => some v
  | .sequence items, .index i :: rest => resolveAt items i rest
  | .sequence items, .key k :: rest => some (.sequence (resolveEach items (.key k :: rest)))
  | .mapping entries, .key k :: rest => resolveField entries k rest
  | .mapping entries, .index i :: rest => resolveField entries (Text.Numeral.text i) rest
  | .null, _ :: _ => none
  | .bool _, _ :: _ => none
  | .number _, _ :: _ => none
  | .text _, _ :: _ => none
  | .date _, _ :: _ => none

/-- What a path leads to from the element at a place. -/
def resolveAt : List Value → Nat → List PathStep → Option Value
  | [], _, _ => none
  | v :: _, 0, path => v.resolve path
  | _ :: items, i + 1, path => resolveAt items i path

/-- What a path leads to from each element, null where it leads nowhere. -/
def resolveEach : List Value → List PathStep → List Value
  | [], _ => []
  | v :: items, path => (v.resolve path).getD .null :: resolveEach items path

/-- What a path leads to from the field with a given key. -/
def resolveField : List (String × Value) → String → List PathStep → Option Value
  | [], _, _ => none
  | (k, v) :: rest, key, path => if k = key then v.resolve path else resolveField rest key path

end

theorem resolveEach_eq (items : List Value) (path : List PathStep) :
    resolveEach items path = items.map fun v => (v.resolve path).getD .null := by
  induction items with
  | nil => simp [resolveEach]
  | cons v items ih => simp [resolveEach, ih]

/-! ## Dates in texts -/

mutual

/-- The value with every text in it that spells a date turned into that date. Keys stay texts. -/
def readDates : Value → Value
  | .text s => ((DateTime.read? s).map Value.date).getD (.text s)
  | .sequence items => .sequence (readDatesEach items)
  | .mapping entries => .mapping (readDatesFields entries)
  | .null => .null
  | .bool b => .bool b
  | .number x => .number x
  | .date d => .date d

/-- The elements of a sequence with their dates read. -/
def readDatesEach : List Value → List Value
  | [] => []
  | v :: items => v.readDates :: readDatesEach items

/-- The entries of a mapping with their dates read. -/
def readDatesFields : List (String × Value) → List (String × Value)
  | [] => []
  | (k, v) :: rest => (k, v.readDates) :: readDatesFields rest

end

/-! ## JSON -/

mutual

/-- The value of JSON data. -/
def ofJson : Json → Value
  | .null => .null
  | .bool b => .bool b
  | .number x => .number x
  | .string s => .text s
  | .array items => .sequence (ofJsonEach items)
  | .object fields => ofEntries (ofJsonFields fields)

/-- The values of the items of an array. -/
def ofJsonEach : List Json → List Value
  | [] => []
  | j :: items => ofJson j :: ofJsonEach items

/-- The values of the fields of an object. -/
def ofJsonFields : List (String × Json) → List (String × Value)
  | [] => []
  | (k, j) :: fields => (k, ofJson j) :: ofJsonFields fields

end

mutual

/-- The value as JSON data; dates are texts there. -/
def toJson : Value → Json
  | .null => .null
  | .bool b => .bool b
  | .number x => .number x
  | .text s => .string s
  | .date d => .string d.isoText
  | .sequence items => .array (toJsonEach items)
  | .mapping entries => .object (toJsonFields entries)

/-- The elements of a sequence as JSON data. -/
def toJsonEach : List Value → List Json
  | [] => []
  | v :: items => v.toJson :: toJsonEach items

/-- The entries of a mapping as JSON data. -/
def toJsonFields : List (String × Value) → List (String × Json)
  | [] => []
  | (k, v) :: rest => (k, v.toJson) :: toJsonFields rest

end

/-! ## Texts -/

/-- A number as a reader expects it: a whole number of moderate size without a fraction. -/
def numberText (x : Binary64) : String :=
  match x.moderateWhole? with
  | some n => (if n < 0 then "-" else "") ++ Text.Numeral.text n.natAbs
  | none => if x.isInfinite then (if x.isNegative then "-" else "") ++ "Infinity" else x.cellText

mutual

/-- The text of a value inside other text: nothing for null, the elements of a sequence with commas
between them, and JSON text for a mapping. -/
def display : Value → String
  | .null => ""
  | .bool b => if b then "true" else "false"
  | .number x => numberText x
  | .text s => s
  | .date d => d.displayText
  | .sequence items => String.intercalate "," (displayEach items)
  | .mapping entries => (toJson (.mapping entries)).text

/-- The texts of the elements of a sequence. -/
def displayEach : List Value → List String
  | [] => []
  | v :: items => v.display :: displayEach items

end

end Value

end SheetFill
