import SheetFill.Archive.Package
import SheetFill.Template.Fill

/-!
# Templates in files

A template is given by its bytes, by the path of a file or by an address on the web. Addresses are
told from paths by their scheme; they are refused, since nothing here reaches the network.
-/

namespace SheetFill

/-- Access to files. A failure is told in the words of the system. -/
structure FileAccess (m : Type → Type) where
  /-- The content of the file at a path. -/
  load : String → m (Except String ByteArray)
  /-- Write the file at a path. -/
  store : String → ByteArray → m (Except String Unit)

/-- Why a template cannot be taken from its location or its result put into a file. -/
inductive TemplateError where
  /-- The template cannot be read. -/
  | unreadable (location reason : String)
  /-- The template cannot be filled. -/
  | package (e : PackageError)
  /-- The file cannot be written. -/
  | unwritable (path reason : String)
deriving DecidableEq

/-- The wording of an error. -/
def TemplateError.message : TemplateError → String
  | .unreadable location reason => "Cannot read template from " ++ location ++ ": " ++ reason
  | .package e => e.message
  | .unwritable path reason => "Cannot write " ++ path ++ ": " ++ reason

/-- Where a template comes from. -/
inductive TemplateLocation where
  /-- It is at hand. -/
  | bytes (content : ByteArray)
  /-- A file. -/
  | file (path : String)
  /-- An address on the web. -/
  | web (address : String)

namespace TemplateLocation

/-- The location that a text names. -/
def ofText (text : String) : TemplateLocation :=
  let lower := text.toList.map Char.toLower
  if (Text.dropStart? "http://".toList lower).isSome ∨
      (Text.dropStart? "https://".toList lower).isSome then .web text
  else .file text

/-- What a location is called. -/
def label : TemplateLocation → String
  | .bytes content => "<" ++ Text.Numeral.text content.size ++ " bytes>"
  | .file path => path
  | .web address => address

/-- The bytes of a template. -/
def retrieve {m : Type → Type} [Monad m] (files : FileAccess m) :
    TemplateLocation → m (Except TemplateError ByteArray)
  | .bytes content => pure (.ok content)
  | .file path => do
      let content ← files.load path
      pure (content.mapError (.unreadable path))
  | .web address =>
      pure (.error (.unreadable address "URL templates need the \x60remote\x60 feature"))

end TemplateLocation

/-- Fill a template that is stored as an archive. -/
def fillArchive (template : ByteArray) (options : FillOptions) (data : Value) :
    Except PackageError (ByteArray × FillReport) := do
  let (filled, report) ← (← Package.ofArchive template).fill options data
  pure (filled.toArchive, report)

/-- Fill the template in a file and write the result to a file. -/
def fillFile {m : Type → Type} [Monad m] (files : FileAccess m) (template output : String)
    (options : FillOptions) (data : Value) : m (Except TemplateError (ByteArray × FillReport)) := do
  match ← (TemplateLocation.file template).retrieve files with
  | .error e => pure (.error e)
  | .ok content => match fillArchive content options data with
    | .error e => pure (.error (.package e))
    | .ok (filled, report) => match ← files.store output filled with
      | .error reason => pure (.error (.unwritable output reason))
      | .ok () => pure (.ok (filled, report))

end SheetFill
