import SheetFill.Package.PartPath
import SheetFill.Package.Pattern
import SheetFill.Xml.Reader

/-!
# Packages

A workbook is stored as a package: an ordered list of parts, each with a path and bytes. Parts that
are never written keep their bytes and their place. A folder may have an entry of its own, which has
no bytes once the package is stored.
-/

namespace SheetFill

open Xml

/-- Why a package cannot be filled. -/
inductive PackageError where
  /-- There are no bytes to read a package from. -/
  | empty
  /-- The bytes are no archive. -/
  | noArchive
  /-- The package has no worksheets. -/
  | noWorksheets
  /-- There is no part with this path. -/
  | missingPart (path : String)
  /-- The part with this path is no text. -/
  | notText (path : String)
  /-- The part with this path, which holds cells or strings, is no XML document. -/
  | badPart (path : String) (e : ReadError)
  /-- A part that describes the workbook is not the XML that it should be. -/
  | badXml (e : ReadError)
deriving DecidableEq

namespace PackageError

/-- What is wrong with bytes that are no archive. -/
def archiveMessage : String := "invalid Zip archive: Could not find EOCD"

/-- The wording of an error. -/
def message : PackageError → String
  | .empty => "Invalid XLSX format: template is empty"
  | .noArchive => "ZIP error: " ++ archiveMessage
  | .noWorksheets => "Invalid XLSX format: template has no worksheets"
  | .missingPart path => "Missing required part: " ++ path
  | .notText path => "Part is not valid UTF-8: " ++ path
  | .badPart path e => "Parse error: " ++ path ++ ": " ++ e.message
  | .badXml e => e.message

end PackageError

/-- A part of a package, or a folder. -/
structure Part where
  /-- Its path. -/
  path : String
  /-- Its bytes. -/
  content : ByteArray
  /-- Whether it is stored as a folder. -/
  isFolder : Bool

/-- A package. -/
structure Package where
  /-- Its parts, in the order of the archive. -/
  parts : List Part

/-- The text of bytes in UTF-8, without a byte order mark. -/
def decodeText? (bytes : ByteArray) : Option String :=
  (String.fromUTF8? bytes).map fun text =>
    match text.toList with
    | '\uFEFF' :: rest => String.ofList rest
    | _ => text

namespace Package

/-! ## Archives -/

/-- Whether a path in an archive is that of a folder. -/
def isFolderPath (path : String) : Bool := path.toList.getLast?.any fun c => c == '/' || c == '\\'

/-- The package from the paths and bytes of an archive. -/
def ofEntries (entries : List (String × ByteArray)) : Package :=
  ⟨entries.map fun (path, content) => ⟨path, content, isFolderPath path⟩⟩

/-- The paths and bytes of the archive that stores a package. -/
def toEntries (p : Package) : List (String × ByteArray) :=
  p.parts.map fun part => (part.path, if part.isFolder then ByteArray.empty else part.content)

/-- The package after it was stored and read again. -/
def reopen (p : Package) : Package := ofEntries p.toEntries

/-! ## Reading -/

/-- The part with a given path. -/
def part? (p : Package) (path : String) : Option Part := p.parts.find? (·.path == path)

/-- Whether there is a part with a given path. -/
def contains (p : Package) (path : String) : Bool := (p.part? path).isSome

/-- The paths that fit a pattern, without folders. -/
def list (p : Package) (pattern : String) : List String :=
  (p.parts.filter fun part => !part.isFolder && Pattern.fits pattern.toList part.path.toList).map
    Part.path

/-- The bytes of a part. -/
def bytes (p : Package) (path : String) : Except PackageError ByteArray :=
  match p.part? path with
  | some part => .ok part.content
  | none => .error (.missingPart path)

/-- The text of a part. -/
def text (p : Package) (path : String) : Except PackageError String :=
  match p.bytes path with
  | .error e => .error e
  | .ok content => match decodeText? content with
    | some text => .ok text
    | none => .error (.notText path)

/-- The text of a part that need not be there. -/
def text? (p : Package) (path : String) : Except PackageError (Option String) :=
  if p.contains path then (p.text path).map some else .ok none

/-- The document in a part with cells or strings. -/
def document (p : Package) (path : String) : Except PackageError Document :=
  match p.text path with
  | .error e => .error e
  | .ok text => (Document.read text).mapError (.badPart path)

/-! ## Writing -/

/-- Parts with the first one of a path changed, or with a new one at the end. -/
def writeIn (path : String) (content : ByteArray) : List Part → List Part
  | [] => [⟨path, content, false⟩]
  | part :: rest =>
      if part.path = path then { part with content := content } :: rest
      else part :: writeIn path content rest

/-- The package with a text as the content of a part. -/
def write (p : Package) (path text : String) : Package := ⟨writeIn path text.toUTF8 p.parts⟩

end Package

end SheetFill
