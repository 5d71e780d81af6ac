import SheetFill.Archive.Checksum
import SheetFill.Archive.Deflated
import SheetFill.Package.Basic

/-!
# Packages as archives

A package is stored as an archive: for each part a header and its content, then a directory, which
repeats the headers and says where they stand, then the size and place of the directory. Contents
are read as they are or deflated, and written as they are.
-/

namespace SheetFill

namespace Archive

/-- What the directory says of a part. -/
structure Member where
  /-- The path. -/
  path : String
  /-- How the content is stored: 0 as it is, 8 deflated. -/
  method : Nat
  /-- The checksum of the content. -/
  sum : Nat
  /-- The size of the content in the archive. -/
  stored : Nat
  /-- The size of the content. -/
  size : Nat
  /-- Where the header of the part stands. -/
  place : Nat

/-! ## Reading -/

/-- The mark of a part. -/
def partMark : Nat := 0x04034B50

/-- The mark of an entry of the directory. -/
def memberMark : Nat := 0x02014B50

/-- The mark of the end of the directory. -/
def endMark : Nat := 0x06054B50

/-- The last place up to `place` where a number stands. -/
def findMark? (data : ByteArray) (mark : Nat) : Nat → Option Nat
  | 0 => if number? data 0 4 = some mark then some 0 else none
  | place + 1 =>
      if number? data (place + 1) 4 = some mark then some (place + 1)
      else findMark? data mark place

/-- Read entries of the directory from a place on. -/
def readMembers? (data : ByteArray) (place : Nat) : Nat → Option (List Member)
  | 0 => some []
  | count + 1 => do
      if (← number? data place 4) ≠ memberMark then none
      else
        let nameSize ← number? data (place + 28) 2
        let extraSize ← number? data (place + 30) 2
        let noteSize ← number? data (place + 32) 2
        let path ← String.fromUTF8? (← slice? data (place + 46) nameSize)
        let member : Member :=
          ⟨path, ← number? data (place + 10) 2, ← number? data (place + 16) 4,
            ← number? data (place + 20) 4, ← number? data (place + 24) 4,
            ← number? data (place + 42) 4⟩
        let rest ← readMembers? data (place + 46 + nameSize + extraSize + noteSize) count
        some (member :: rest)

/-- Read the content of a part. -/
def readContent? (data : ByteArray) (m : Member) : Option ByteArray := do
  if (← number? data m.place 4) ≠ partMark then none
  else
    let nameSize ← number? data (m.place + 26) 2
    let extraSize ← number? data (m.place + 28) 2
    let stored ← slice? data (m.place + 30 + nameSize + extraSize) m.stored
    let content ← match m.method with
      | 0 => some stored
      | 8 => inflate? stored
      | _ => none
    if content.size = m.size ∧ (checksum content).toNat = m.sum then some content else none

/-- The paths and contents of an archive. -/
def readEntries? (data : ByteArray) : Option (List (String × ByteArray)) := do
  let place ← findMark? data endMark data.size
  let count ← number? data (place + 10) 2
  let members ← readMembers? data (← number? data (place + 16) 4) count
  members.mapM fun m => (readContent? data m).map fun content => (m.path, content)

/-! ## Writing -/

/-- The bit that says that a path is in UTF-8. -/
def unicodeFlag : Nat := 0x0800

/-- What the header of a part and its entry in the directory have in common: the version of the
format, the flags, the method, the time and the day, the checksum, the sizes and the size of the
path. -/
def commonHeader (path : ByteArray) (content : ByteArray) : List UInt8 :=
  number 20 2 ++ number unicodeFlag 2 ++ number 0 2 ++ number 0 2 ++ number 0x21 2 ++
    number (checksum content).toNat 4 ++ number content.size 4 ++ number content.size 4 ++
    number path.size 2 ++ number 0 2

/-- Bytes after others. -/
def appendBytes (data : ByteArray) (bytes : List UInt8) : ByteArray :=
  bytes.foldl ByteArray.push data

/-- Write the parts after `data`, and their entries in the directory after `directory`. -/
def writeParts (data directory : ByteArray) : List (String × ByteArray) → ByteArray × ByteArray
  | [] => (data, directory)
  | (path, content) :: entries =>
      let name := path.toUTF8
      let header := commonHeader name content
      let place := data.size
      writeParts (appendBytes data (number partMark 4 ++ header) ++ name ++ content)
        (appendBytes directory (number memberMark 4 ++ number 20 2 ++ header ++ number 0 10 ++
          number place 4) ++ name)
        entries

/-- The archive with some paths and contents. -/
def writeEntries (entries : List (String × ByteArray)) : ByteArray :=
  let (data, directory) := writeParts ByteArray.empty ByteArray.empty entries
  appendBytes (data ++ directory)
    (number endMark 4 ++ number 0 4 ++ number entries.length 2 ++ number entries.length 2 ++
      number directory.size 4 ++ number data.size 4 ++ number 0 2)

end Archive

namespace Package

/-- The package that an archive stores. -/
def ofArchive (data : ByteArray) : Except PackageError Package :=
  if data.isEmpty then .error .empty
  else match Archive.readEntries? data with
    | some entries => .ok (ofEntries entries)
    | none => .error .noArchive

/-- The archive that stores a package. -/
def toArchive (p : Package) : ByteArray := Archive.writeEntries p.toEntries

end Package

end SheetFill
