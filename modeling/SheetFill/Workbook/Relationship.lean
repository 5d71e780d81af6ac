import SheetFill.Package.Basic

/-!
# Relationships

A part refers to others through a list of relationships, which is a part of its own. A relationship
has an identifier, a type, whose last step says what kind of part it leads to, and a target.
-/

namespace SheetFill

open Xml

/-- A relationship of a part. -/
structure Relationship where
  /-- The identifier. -/
  id : String
  /-- The type. -/
  type : String
  /-- The target as it is written. -/
  target : String
deriving DecidableEq

namespace Relationship

/-- What kind of part a relationship leads to. -/
def kind (r : Relationship) : String := PartPath.file r.type

/-- The value of a key among the attributes of a tag that can be read. -/
def value? (attributes : List (String × Option String)) (key : String) : Option String :=
  (attributes.find? fun pair => pair.1 == key).bind (·.2)

/-- The relationship that a tag describes; a tag without one of the three attributes is none. -/
def ofAttributes? (attributes : List (String × Option String)) : Option Relationship :=
  match value? attributes "Id", value? attributes "Type", value? attributes "Target" with
  | some id, some type, some target => some ⟨id, type, target⟩
  | _, _, _ => none

/-- Read the relationships of a part. Its text need not be a document. -/
def readAll (text : String) : Except PackageError (List Relationship) :=
  match startTags "Relationship" text with
  | .error e => .error (.badXml (.markup e))
  | .ok tags => .ok (tags.filterMap ofAttributes?)

end Relationship

/-- The relationships that a part of a package lists, if there is such a part. -/
def Package.relationships (p : Package) (path : String) :
    Except PackageError (List Relationship) :=
  match p.text? path with
  | .error e => .error e
  | .ok none => .ok []
  | .ok (some text) => Relationship.readAll text

end SheetFill
