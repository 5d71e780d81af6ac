import SheetFill.Xml.Escape
import SheetFill.Xml.Token

/-!
# The attributes of a tag

An attribute is a key, an equals sign and a value in quotes; blanks may stand around the sign and
need not stand after the value. The first character after blanks always belongs to the key. A list
of attributes goes on after a fault (`readItems`): at the character that should have been the equals
sign, at the first blank after the start of a value without quotes, or at the first blank after the
equals sign of a key that was used before, even if it stands in quotes. `readAttributes` takes no
fault; `lenientAttributes` passes over them.
-/

namespace SheetFill.Xml

/-- What a tag holds in place of an attribute: its key and its value as written, or a fault. -/
abbrev Item := Except AttributeError (List Char × List Char)

/-- A place in a tag. -/
structure Cursor where
  /-- How many bytes of the tag stand before it. -/
  place : Nat
  /-- The characters from there on. -/
  rest : List Char

/-- The place after all characters that satisfy `p`. -/
def Cursor.skip (p : Char → Bool) (c : Cursor) : Cursor :=
  ⟨c.place + Text.byteLength (c.rest.takeWhile p), c.rest.dropWhile p⟩

/-- The first character that does not satisfy `p`, unless the tag ends before it. -/
def Cursor.seek? (p : Char → Bool) (c : Cursor) : Option Cursor :=
  if (c.skip p).rest.isEmpty then none else some (c.skip p)

theorem Cursor.length_skip_le (p : Char → Bool) (c : Cursor) :
    (c.skip p).rest.length ≤ c.rest.length := (List.dropWhile_suffix p).length_le

theorem Cursor.length_of_seek? {p : Char → Bool} {c next : Cursor} (h : c.seek? p = some next) :
    next.rest.length ≤ c.rest.length := by
  unfold Cursor.seek? at h
  split at h
  · simp at h
  · rw [← Option.some.inj h]
    exact c.length_skip_le p

/-- The first blank, if there is one. -/
def Cursor.nextBlank? (c : Cursor) : Option Cursor := c.seek? (!isSpace ·)

/-- Whether a character may continue a key. -/
def inKey (c : Char) : Bool := c != '=' && !isSpace c

/-- The item of a key whose equals sign stands before `after`, and where reading goes on. -/
def valueItem (stop : Nat) (key : List Char) (after : Cursor) : Item × Option Cursor :=
  let value := after.skip isSpace
  match value.rest with
  | [] => (.error (.noValue stop), none)
  | q :: inside =>
      if q = '"' ∨ q = '\'' then
        let content := inside.takeWhile (· != q)
        match inside.dropWhile (· != q) with
        | [] => (.error (.unclosed stop q), none)
        | _ :: rest => (.ok (key, content), some ⟨value.place + 2 + Text.byteLength content, rest⟩)
      else (.error (.unquoted value.place), value.nextBlank?)

/-- Keys of a tag, with their places. -/
abbrev Keys := List (List Char × Nat)

/-- The item whose key starts with `c` at a given byte, the keys read so far, and where reading goes
on. The tag ends at `stop`. -/
def nextItem (stop : Nat) (seen : Keys) (place : Nat) (c : Char) (rest : List Char) :
    Item × Keys × Option Cursor :=
  let key := c :: rest.takeWhile inKey
  let sign := Cursor.skip isSpace ⟨place + Text.byteLength key, rest.dropWhile inKey⟩
  match sign.rest with
  | [] => (.error (.noEquals stop), seen, none)
  | d :: value =>
      if d = '=' then
        let after : Cursor := ⟨sign.place + 1, value⟩
        match seen.find? (·.1 == key) with
        | some (_, previous) => (.error (.duplicate place previous), seen, after.nextBlank?)
        | none =>
            let (item, next) := valueItem stop key after
            (item, seen ++ [(key, place)], next)
      else (.error (.noEquals sign.place), seen, some sign)

theorem length_of_valueItem {stop : Nat} {key : List Char} {after next : Cursor}
    (h : (valueItem stop key after).2 = some next) : next.rest.length ≤ after.rest.length := by
  unfold valueItem at h
  have blanks := after.length_skip_le isSpace
  simp only at h
  split at h
  · simp at h
  · rename_i q inside eq
    rw [eq, List.length_cons] at blanks
    split at h
    · split at h
      · simp at h
      · rename_i close
        have := (List.dropWhile_suffix (· != q) (l := inside)).length_le
        rw [close, List.length_cons] at this
        rw [← Option.some.inj h]
        simp only
        omega
    · exact Nat.le_trans (Cursor.length_of_seek? h) (after.length_skip_le isSpace)

theorem length_of_nextItem {stop : Nat} {seen : Keys} {place : Nat} {c : Char} {rest : List Char}
    {next : Cursor} (h : (nextItem stop seen place c rest).2.2 = some next) :
    next.rest.length ≤ rest.length := by
  unfold nextItem at h
  simp only at h
  have keys := (List.dropWhile_suffix inKey (l := rest)).length_le
  have blanks := Cursor.length_skip_le isSpace
    ⟨place + Text.byteLength (c :: rest.takeWhile inKey), rest.dropWhile inKey⟩
  simp only at blanks
  split at h
  · simp at h
  · rename_i d value eq
    split at h
    · rw [eq, List.length_cons] at blanks
      split at h
      · have := Cursor.length_of_seek? h
        simp only at this
        omega
      · have := length_of_valueItem h
        simp only at this
        omega
    · rw [← Option.some.inj h]
      omega

/-- The items of a tag from a given byte on. -/
def itemsFrom (stop : Nat) (seen : Keys) (place : Nat) (cs : List Char) : List Item :=
  match _start : cs.dropWhile isSpace with
  | [] => []
  | c :: rest =>
      let place := place + Text.byteLength (cs.takeWhile isSpace)
      let found := nextItem stop seen place c rest
      found.1 :: match _next : found.2.2 with
        | some next => itemsFrom stop found.2.1 next.place next.rest
        | none => []
termination_by cs.length
decreasing_by
  have blanks := (List.dropWhile_suffix isSpace (l := cs)).length_le
  rw [_start, List.length_cons] at blanks
  have := length_of_nextItem _next
  omega

/-- What stands in a tag after its name. -/
def readItems (tag : List Char) : List Item :=
  let name := tagName tag
  itemsFrom (Text.byteLength tag) [] (Text.byteLength name) (tag.drop name.length)

/-- An attribute with its escapes resolved. -/
def readItem (item : Item) : Except Error (String × String) :=
  match item with
  | .error e => .error (.badAttribute e)
  | .ok (key, value) =>
      match unescape value with
      | .error e => .error (.badEscape e)
      | .ok value => .ok (String.ofList key, String.ofList value)

/-- The attributes of a tag, or the first fault in them. -/
def readAttributes (tag : List Char) : Except Error (List (String × String)) :=
  (readItems tag).mapM readItem

/-- The attributes of a tag that can be read; the value is missing where an escape cannot be
resolved. -/
def lenientAttributes (tag : List Char) : List (String × Option String) :=
  (readItems tag).filterMap fun item =>
    match item with
    | .error _ => none
    | .ok (key, value) => some (String.ofList key, (unescape value).toOption.map String.ofList)

end SheetFill.Xml
