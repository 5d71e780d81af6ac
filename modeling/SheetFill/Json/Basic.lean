import SheetFill.Number.Decimal

/-!
# JSON

A JSON value and its text: no blanks, fields in the order given, and escapes only for quotes,
backslashes and control characters. Whole numbers of moderate size are written as integers, other
numbers by `Binary64.jsonText`, and what is no finite number as `null`.
-/

namespace SheetFill

/-- A JSON value. -/
inductive Json where
  /-- The literal `null`. -/
  | null
  /-- The literals `true` and `false`. -/
  | bool (b : Bool)
  /-- A number. -/
  | number (x : Binary64)
  /-- A string. -/
  | string (text : String)
  /-- An array. -/
  | array (items : List Json)
  /-- An object, its fields in order. -/
  | object (fields : List (String × Json))
deriving Inhabited

namespace Json

/-- A character inside the quotes of a string. -/
def escapedChar (c : Char) : List Char :=
  if c = '"' then ['\\', '"']
  else if c = '\\' then ['\\', '\\']
  else if c = '\n' then ['\\', 'n']
  else if c = '\r' then ['\\', 'r']
  else if c = '\t' then ['\\', 't']
  else if c.toNat = 8 then ['\\', 'b']
  else if c.toNat = 12 then ['\\', 'f']
  else if c.toNat < 0x20 then
    ['\\', 'u', '0', '0', Text.Numeral.hexDigit (c.toNat / 16),
      Text.Numeral.hexDigit (c.toNat % 16)]
  else [c]

/-- A string in quotes. -/
def stringText (text : String) : String :=
  String.ofList ('"' :: text.toList.flatMap escapedChar ++ ['"'])

/-- A number. -/
def numberText (x : Binary64) : String :=
  match x.moderateWhole? with
  | some n => (if n < 0 then "-" else "") ++ Text.Numeral.text n.natAbs
  | none => if x.isFinite then x.jsonText else "null"

mutual

/-- The text of a value. -/
def text : Json → String
  | .null => "null"
  | .bool b => if b then "true" else "false"
  | .number x => numberText x
  | .string s => stringText s
  | .array items => "[" ++ String.intercalate "," (itemTexts items) ++ "]"
  | .object fields => "\x7b" ++ String.intercalate "," (fieldTexts fields) ++ "\x7d"

/-- The texts of the items of an array. -/
def itemTexts : List Json → List String
  | [] => []
  | item :: items => item.text :: itemTexts items

/-- The texts of the fields of an object. -/
def fieldTexts : List (String × Json) → List String
  | [] => []
  | (key, value) :: fields => (stringText key ++ ":" ++ value.text) :: fieldTexts fields

end

/-- The last field of an object with a given key. -/
def get? (j : Json) (key : String) : Option Json :=
  match j with
  | .object fields => (fields.reverse.find? fun field => field.1 == key).map (·.2)
  | _ => none

end Json

end SheetFill
