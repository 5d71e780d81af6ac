import SheetFill.Json.Token

/-!
# Reading JSON

A value is read from tokens with the open arrays and objects around it on a stack. There may be at
most `depth` of them at a time. The first fault in the text counts.
-/

namespace SheetFill.Json

/-- An array or object that is being read, with what it holds so far, last first. -/
inductive Frame where
  /-- An array. -/
  | array (done : List Json)
  /-- An object that waits for the value of a key. -/
  | object (done : List (String × Json)) (key : String)

/-- The fault of tokens that do not start with a key and a colon; `atEnd` is the cause if there are
none, and `atClose` if the object ends there. -/
def keyFault (atEnd atClose : Cause) (tokens : List PlacedToken) : Fault :=
  match tokens with
  | [] => .atEnd atEnd
  | [⟨.string _, _⟩] => .atEnd .endInObject
  | ⟨.string _, _⟩ :: ⟨_, text⟩ :: _ => .within text .noColon
  | ⟨.bad true fault, _⟩ :: _ => fault
  | ⟨.closeObject, text⟩ :: _ => .within text atClose
  | ⟨_, text⟩ :: _ => .within text .keyNotString

mutual

/-- Read a value inside the open frames, and then all that follows it. -/
def readValue (depth : Nat) (frames : List Frame) (tokens : List PlacedToken) : Except Fault Json :=
  match tokens with
  | [] => .error (.atEnd .endInValue)
  | ⟨.openArray, text⟩ :: rest =>
      if depth ≤ frames.length then .error (.within text .tooDeep)
      else match rest with
        | [] => .error (.atEnd .endInArray)
        | ⟨.closeArray, _⟩ :: rest => readAfter depth (.array []) frames rest
        | rest => readValue depth (.array [] :: frames) rest
  | ⟨.openObject, text⟩ :: rest =>
      if depth ≤ frames.length then .error (.within text .tooDeep)
      else match rest with
        | ⟨.closeObject, _⟩ :: rest => readAfter depth (.object []) frames rest
        | ⟨.string key, _⟩ :: ⟨.colon, _⟩ :: rest => readValue depth (.object [] key :: frames) rest
        | rest => .error (keyFault .endInObject .keyNotString rest)
  | ⟨.string text, _⟩ :: rest => readAfter depth (.string text) frames rest
  | ⟨.literal value, _⟩ :: rest => readAfter depth value frames rest
  | ⟨.number x, _⟩ :: rest => readAfter depth (.number x) frames rest
  | ⟨.bad _ fault, _⟩ :: _ => .error fault
  | ⟨_, text⟩ :: _ => .error (.within text .noValue)
termination_by tokens.length
decreasing_by all_goals (simp only [List.length_cons]; omega)

/-- Read what follows a value inside the open frames. -/
def readAfter (depth : Nat) (value : Json) (frames : List Frame) (tokens : List PlacedToken) :
    Except Fault Json :=
  match frames, tokens with
  | [], [] => .ok value
  | [], ⟨_, text⟩ :: _ => .error (.within text .trailingText)
  | .array _ :: _, [] => .error (.atEnd .endInArray)
  | .array done :: outer, ⟨.comma, _⟩ :: rest =>
      match rest with
      | ⟨.closeArray, text⟩ :: _ => .error (.within text .trailingComma)
      | rest => readValue depth (.array (value :: done) :: outer) rest
  | .array done :: outer, ⟨.closeArray, _⟩ :: rest =>
      readAfter depth (.array (value :: done).reverse) outer rest
  | .array _ :: _, ⟨_, text⟩ :: _ => .error (.within text .noCommaInArray)
  | .object _ _ :: _, [] => .error (.atEnd .endInObject)
  | .object done key :: outer, ⟨.comma, _⟩ :: rest =>
      match rest with
      | ⟨.string next, _⟩ :: ⟨.colon, _⟩ :: rest =>
          readValue depth (.object ((key, value) :: done) next :: outer) rest
      | rest => .error (keyFault .endInValue .trailingComma rest)
  | .object done key :: outer, ⟨.closeObject, _⟩ :: rest =>
      readAfter depth (.object ((key, value) :: done).reverse) outer rest
  | .object _ _ :: _, ⟨_, text⟩ :: _ => .error (.within text .noCommaInObject)
termination_by tokens.length
decreasing_by all_goals (simp only [List.length_cons]; omega)

end

/-- Read a text that is one value with at most `depth` arrays and objects inside each other. -/
def read (rounding : Rounding) (depth : Nat) (text : String) : Except Fault Json :=
  readValue depth [] (tokens rounding text)

/-- The value that a text is, if it is one; its numbers are rounded once. -/
def read? (depth : Nat) (text : String) : Option Json := (read .nearest depth text).toOption

/-- The most arrays and objects inside each other in the text of data. -/
def maxDataDepth : Nat := 127

/-- Read the text of data, whose numbers have their stepwise values. -/
def readData (text : String) : Except Fault Json := read .stepwise maxDataDepth text

end SheetFill.Json
