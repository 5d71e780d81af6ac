import SheetFill.Proofs.Xml.Unescape
import SheetFill.Xml.Attribute
import SheetFill.Xml.Writer

/-!
# Tags are read back

A written tag is a name and attributes, each with a blank in front. If the name and the keys are
ordinary, the tag ends where it was meant to end, whatever the attribute values are: a value has no
double quote, and the brackets in it stand in quotes. Name and attributes are then read back from
between the brackets.
-/

namespace SheetFill.Xml

/-! ## Ordinary names -/

/-- A character of an ordinary name: no blank, bracket, equals sign, slash, ampersand or quote. -/
def isNameChar (c : Char) : Bool :=
  !isSpace c && !(['<', '>', '=', '/', '&', '"', '\''].contains c)

/-- A name that cannot be taken for anything else in a tag. -/
structure OrdinaryName (name : String) : Prop where
  /-- There is a name. -/
  nonempty : name.toList ≠ []
  /-- It is no markup. -/
  chars : ∀ c ∈ name.toList, isNameChar c = true

/-- A name of an element. After an opening bracket it is taken for nothing else. -/
structure ElementName (name : String) : Prop extends OrdinaryName name where
  /-- It does not start like a comment, a CDATA section or an instruction. -/
  head : name.toList.head? ≠ some '!' ∧ name.toList.head? ≠ some '?'

/-- Attributes that can be written: ordinary keys, each of them once. -/
structure OrdinaryAttributes (attributes : List (String × String)) : Prop where
  /-- The keys are ordinary. -/
  keys : ∀ pair ∈ attributes, OrdinaryName pair.1
  /-- No key is used twice. -/
  distinct : (attributes.map (·.1)).Nodup

instance (name : String) : Decidable (OrdinaryName name) :=
  decidable_of_iff (name.toList ≠ [] ∧ name.toList.all isNameChar = true)
    ⟨fun h => ⟨h.1, List.all_eq_true.mp h.2⟩, fun h => ⟨h.nonempty, List.all_eq_true.mpr h.chars⟩⟩

instance (name : String) : Decidable (ElementName name) :=
  decidable_of_iff (OrdinaryName name ∧
      name.toList.head? ≠ some '!' ∧ name.toList.head? ≠ some '?')
    ⟨fun h => ⟨h.1, h.2⟩, fun h => ⟨h.toOrdinaryName, h.head⟩⟩

instance (attributes : List (String × String)) : Decidable (OrdinaryAttributes attributes) :=
  decidable_of_iff ((∀ pair ∈ attributes, OrdinaryName pair.1) ∧ (attributes.map (·.1)).Nodup)
    ⟨fun h => ⟨h.1, h.2⟩, fun h => ⟨h.keys, h.distinct⟩⟩

theorem isNameChar_eq {c : Char} (h : isNameChar c = true) :
    isSpace c = false ∧ c ≠ '<' ∧ c ≠ '>' ∧ c ≠ '=' ∧ c ≠ '/' ∧ c ≠ '&' ∧ c ≠ '"' ∧ c ≠ '\'' := by
  simpa [isNameChar, and_assoc] using h

theorem OrdinaryName.exists_cons {name : String} (h : OrdinaryName name) :
    ∃ c cs, name.toList = c :: cs := List.exists_cons_of_ne_nil h.nonempty

/-- Name and attributes, as they stand between brackets. -/
def tagChars (name : String) (attributes : List (String × String)) : List Char :=
  name.toList ++ attributes.flatMap attributeChars

theorem attributeChars_eq (pair : String × String) :
    attributeChars pair =
      ' ' :: (pair.1.toList ++ '=' :: '"' :: (escapeAttribute pair.2.toList ++ ['"'])) := by
  simp [attributeChars]

/-! ## The end of a tag -/

/-- Characters other than brackets and quotes belong to the tag. -/
theorem closeTag?_append {run cs inside rest : List Char}
    (plain : ∀ c ∈ run, c ≠ '>' ∧ c ≠ '"' ∧ c ≠ '\'') (h : closeTag? none cs = some (inside, rest)) :
    closeTag? none (run ++ cs) = some (run ++ inside, rest) := by
  induction run with
  | nil => exact h
  | cons c run ih =>
      obtain ⟨noClose, noQuote, noApostrophe⟩ := plain c (List.mem_cons_self ..)
      have tail := ih fun d mem => plain d (List.mem_cons_of_mem _ mem)
      rw [List.cons_append, closeTag?, if_neg (by simp [noClose])]
      simp [noQuote, noApostrophe, tail]

/-- A quoted run belongs to the tag up to its closing quote. -/
theorem closeTag?_quoted {run cs inside rest : List Char} (noQuote : '"' ∉ run)
    (h : closeTag? none cs = some (inside, rest)) :
    closeTag? (some '"') (run ++ '"' :: cs) = some (run ++ '"' :: inside, rest) := by
  induction run with
  | nil => simp [closeTag?, h]
  | cons c run ih =>
      rw [List.mem_cons, not_or] at noQuote
      rw [List.cons_append, closeTag?, if_neg (by simp)]
      simp [Ne.symm noQuote.1, ih noQuote.2]

theorem closeTag?_attributeChars {pair : String × String} {cs inside rest : List Char}
    (key : OrdinaryName pair.1) (h : closeTag? none cs = some (inside, rest)) :
    closeTag? none (attributeChars pair ++ cs) = some (attributeChars pair ++ inside, rest) := by
  have quoted : closeTag? none ('"' :: (escapeAttribute pair.2.toList ++ '"' :: cs)) =
      some ('"' :: (escapeAttribute pair.2.toList ++ '"' :: inside), rest) := by
    rw [closeTag?, if_neg (by decide)]
    simp [closeTag?_quoted (quote_notMem_escapeAttribute _) h]
  have plain : ∀ c ∈ ' ' :: (pair.1.toList ++ ['=']), c ≠ '>' ∧ c ≠ '"' ∧ c ≠ '\'' := by
    intro c mem
    rcases List.mem_cons.mp mem with rfl | mem
    · decide
    · rcases List.mem_append.mp mem with mem | mem
      · obtain ⟨-, -, noClose, -, -, -, noQuote, noApostrophe⟩ := isNameChar_eq (key.chars c mem)
        exact ⟨noClose, noQuote, noApostrophe⟩
      · rw [List.mem_singleton.mp mem]
        decide
  simpa [attributeChars_eq] using closeTag?_append plain quoted

theorem closeTag?_attributes {attributes : List (String × String)} {cs inside rest : List Char}
    (keys : ∀ pair ∈ attributes, OrdinaryName pair.1)
    (h : closeTag? none cs = some (inside, rest)) :
    closeTag? none (attributes.flatMap attributeChars ++ cs) =
      some (attributes.flatMap attributeChars ++ inside, rest) := by
  induction attributes with
  | nil => exact h
  | cons pair attributes ih =>
      rw [List.flatMap_cons, List.append_assoc, List.append_assoc]
      exact closeTag?_attributeChars (keys pair (List.mem_cons_self ..))
        (ih fun other mem => keys other (List.mem_cons_of_mem _ mem))

/-- A tag goes on to what closes it. -/
theorem closeTag?_tagChars {name : String} {attributes : List (String × String)}
    {cs inside rest : List Char} (ordinary : OrdinaryName name)
    (keys : ∀ pair ∈ attributes, OrdinaryName pair.1)
    (h : closeTag? none cs = some (inside, rest)) :
    closeTag? none (tagChars name attributes ++ cs) =
      some (tagChars name attributes ++ inside, rest) := by
  have plain : ∀ c ∈ name.toList, c ≠ '>' ∧ c ≠ '"' ∧ c ≠ '\'' := by
    intro c mem
    obtain ⟨-, -, noClose, -, -, -, noQuote, noApostrophe⟩ := isNameChar_eq (ordinary.chars c mem)
    exact ⟨noClose, noQuote, noApostrophe⟩
  rw [tagChars, List.append_assoc, List.append_assoc]
  exact closeTag?_append plain (closeTag?_attributes keys h)

/-- The last character of a tag is no slash, so it is not taken for an empty tag. -/
theorem tagChars_getLast? {name : String} (attributes : List (String × String))
    (ordinary : OrdinaryName name) : (tagChars name attributes).getLast? ≠ some '/' := by
  rcases List.eq_nil_or_concat attributes with rfl | ⟨others, pair, rfl⟩
  · intro last
    have mem : '/' ∈ name.toList := by
      rw [tagChars, List.flatMap_nil, List.append_nil] at last
      exact List.mem_of_getLast? last
    exact absurd rfl (isNameChar_eq (ordinary.chars '/' mem)).2.2.2.2.1
  · have last : tagChars name (others ++ [pair]) = (name.toList ++ others.flatMap attributeChars ++
        ' ' :: (pair.1.toList ++ '=' :: '"' :: escapeAttribute pair.2.toList)) ++ ['"'] := by
      simp [tagChars, attributeChars_eq]
    rw [List.concat_eq_append, last, List.getLast?_concat]
    decide

theorem tagStep_start {name : String} {attributes : List (String × String)} (rest : List Char)
    (ordinary : OrdinaryName name) (keys : ∀ pair ∈ attributes, OrdinaryName pair.1) :
    tagStep (tagChars name attributes ++ '>' :: rest) =
      .token (.start (tagChars name attributes)) rest := by
  have close : closeTag? none (tagChars name attributes ++ '>' :: rest) =
      some (tagChars name attributes ++ [], rest) := closeTag?_tagChars ordinary keys rfl
  rw [List.append_nil] at close
  unfold tagStep
  rw [close]
  simp only
  split
  · rename_i tag eq
    refine absurd ?_ (tagChars_getLast? attributes ordinary)
    rw [← List.head?_reverse, eq]
    rfl
  · rfl

theorem tagStep_empty {name : String} {attributes : List (String × String)} (rest : List Char)
    (ordinary : OrdinaryName name) (keys : ∀ pair ∈ attributes, OrdinaryName pair.1) :
    tagStep (tagChars name attributes ++ '/' :: '>' :: rest) =
      .token (.empty (tagChars name attributes)) rest := by
  have close : closeTag? none (tagChars name attributes ++ '/' :: '>' :: rest) =
      some (tagChars name attributes ++ ['/'], rest) := closeTag?_tagChars ordinary keys rfl
  unfold tagStep
  rw [close]
  simp [List.reverse_append]

/-! ## Name and attributes -/

/-- What follows a name in a tag starts with a blank. -/
theorem isSpace_of_head?_attributes {attributes : List (String × String)} :
    ∀ c ∈ (attributes.flatMap attributeChars).head?, isSpace c = true := by
  cases attributes with
  | nil => simp
  | cons pair attributes =>
      intro c mem
      obtain rfl : ' ' = c := by simpa [attributeChars] using mem
      rfl

theorem tagName_tagChars {name : String} {attributes : List (String × String)}
    (ordinary : OrdinaryName name) : tagName (tagChars name attributes) = name.toList := by
  refine takeWhile_append_of_stop (fun c mem => ?_) (fun c mem => ?_)
  · rw [(isNameChar_eq (ordinary.chars c mem)).1]
    rfl
  · rw [isSpace_of_head?_attributes c mem]
    rfl

theorem valueItem_quoted (stop place : Nat) (key value rest : List Char) (noQuote : '"' ∉ value) :
    ∃ next, valueItem stop key ⟨place, '"' :: (value ++ '"' :: rest)⟩ =
      (.ok (key, value), some ⟨next, rest⟩) := by
  have inside : ∀ c ∈ value, (c != '"') = true := by
    intro c mem
    rw [bne_iff_ne]
    rintro rfl
    exact noQuote mem
  have stops : ∀ c ∈ ('"' :: rest).head?, (c != '"') = false := by
    intro c mem
    obtain rfl := Option.some.inj mem
    rfl
  have skipped : Cursor.skip isSpace ⟨place, '"' :: (value ++ '"' :: rest)⟩ =
      ⟨place + 0, '"' :: (value ++ '"' :: rest)⟩ := rfl
  unfold valueItem
  rw [skipped]
  simp only [true_or, ite_true]
  rw [takeWhile_append_of_stop inside stops, dropWhile_append_of_stop inside stops]
  exact ⟨_, rfl⟩

theorem nextItem_attribute (stop place : Nat) {seen : Keys} {c : Char} {cs : List Char}
    {key : String} (value : String) (rest : List Char) (ordinary : OrdinaryName key) (start : key.toList = c :: cs)
    (fresh : ∀ pair ∈ seen, pair.1 ≠ key.toList) :
    ∃ next, nextItem stop seen place c
        (cs ++ '=' :: '"' :: (escapeAttribute value.toList ++ '"' :: rest)) =
      (.ok (key.toList, escapeAttribute value.toList), seen ++ [(key.toList, place)],
        some ⟨next, rest⟩) := by
  have inside : ∀ d ∈ cs, inKey d = true := by
    intro d mem
    obtain ⟨noSpace, -, -, noEquals, -⟩ :=
      isNameChar_eq (ordinary.chars d (start ▸ List.mem_cons_of_mem _ mem))
    simp [inKey, noSpace, noEquals]
  have stops : ∀ d ∈ ('=' :: '"' :: (escapeAttribute value.toList ++ '"' :: rest)).head?,
      inKey d = false := by
    intro d mem
    obtain rfl := Option.some.inj mem
    rfl
  have unseen : seen.find? (·.1 == key.toList) = none := by
    rw [List.find?_eq_none]
    intro pair mem
    simpa using fresh pair mem
  unfold nextItem
  rw [takeWhile_append_of_stop inside stops, dropWhile_append_of_stop inside stops, ← start]
  have skipped (place : Nat) (more : List Char) :
      Cursor.skip isSpace ⟨place, '=' :: more⟩ = ⟨place + 0, '=' :: more⟩ := rfl
  simp only [skipped, ite_true, unseen]
  obtain ⟨next, found⟩ := valueItem_quoted stop
    (place + Text.byteLength key.toList + 0 + 1) key.toList (escapeAttribute value.toList) rest
    (quote_notMem_escapeAttribute _)
  exact ⟨next, by rw [found]⟩

/-- A written attribute whose key was not read before is the next item. -/
theorem itemsFrom_attribute (stop place : Nat) {seen : Keys} {key : String} (value : String)
    (rest : List Char) (ordinary : OrdinaryName key)
    (fresh : ∀ old ∈ seen, old.1 ≠ key.toList) :
    ∃ found next, itemsFrom stop seen place (attributeChars (key, value) ++ rest) =
      .ok (key.toList, escapeAttribute value.toList) ::
        itemsFrom stop (seen ++ [(key.toList, found)]) next rest := by
  obtain ⟨c, cs, start⟩ := ordinary.exists_cons
  have noSpace : isSpace c = false :=
    (isNameChar_eq (ordinary.chars c (start ▸ List.mem_cons_self ..))).1
  have written : attributeChars (key, value) ++ rest =
      ' ' :: c :: (cs ++ '=' :: '"' :: (escapeAttribute value.toList ++ '"' :: rest)) := by
    simp [attributeChars_eq, start]
  have blank : isSpace ' ' = true := rfl
  rw [written, itemsFrom]
  split
  · rename_i none
    simp [noSpace, blank] at none
  · rename_i d more some
    have both : c = d ∧
        cs ++ '=' :: '"' :: (escapeAttribute value.toList ++ '"' :: rest) = more := by
      simpa [List.dropWhile_cons, noSpace, blank] using some
    obtain ⟨rfl, rfl⟩ := both
    obtain ⟨next, item⟩ := nextItem_attribute stop
      (place + Text.byteLength ((' ' :: c :: (cs ++ '=' :: '"' ::
        (escapeAttribute value.toList ++ '"' :: rest))).takeWhile isSpace))
      value rest ordinary start fresh
    refine ⟨place + Text.byteLength ((' ' :: c :: (cs ++ '=' :: '"' ::
      (escapeAttribute value.toList ++ '"' :: rest))).takeWhile isSpace), next,
      congr (congrArg List.cons (by rw [item])) ?_⟩
    split
    · rename_i after eq
      rw [item] at eq ⊢
      obtain rfl := Option.some.inj eq
      rfl
    · rename_i eq
      rw [item] at eq
      cases eq

/-- The items of written attributes, none of whose keys was read before. -/
theorem itemsFrom_attributes (stop : Nat) {attributes : List (String × String)} :
    ∀ {seen : Keys} (place : Nat), OrdinaryAttributes attributes →
      (∀ pair ∈ attributes, ∀ old ∈ seen, old.1 ≠ pair.1.toList) →
      itemsFrom stop seen place (attributes.flatMap attributeChars) =
        attributes.map fun pair => .ok (pair.1.toList, escapeAttribute pair.2.toList) := by
  induction attributes with
  | nil =>
      intro seen place _ _
      rw [List.flatMap_nil, itemsFrom]
      rfl
  | cons pair attributes ih =>
      intro seen place ordinary fresh
      have distinct := List.nodup_cons.mp ordinary.distinct
      have others : OrdinaryAttributes attributes :=
        ⟨fun other mem => ordinary.keys other (List.mem_cons_of_mem _ mem), distinct.2⟩
      obtain ⟨found, next, step⟩ := itemsFrom_attribute stop place pair.2
        (attributes.flatMap attributeChars) (ordinary.keys pair (List.mem_cons_self ..))
        (fresh pair (List.mem_cons_self ..))
      rw [List.flatMap_cons, step, List.map_cons]
      refine congrArg (_ :: ·) (ih next others fun other mem old before => ?_)
      rcases List.mem_append.mp before with before | now
      · exact fresh other (List.mem_cons_of_mem _ mem) old before
      · -- The key that was read just now is none of those that are left.
        rw [List.mem_singleton.mp now]
        intro same
        exact distinct.1 (List.mem_map.mpr ⟨other, mem, (String.toList_inj.mp same).symm⟩)

/-- Written attributes are read back, their values with the escapes resolved. -/
theorem readAttributes_tagChars {name : String} {attributes : List (String × String)}
    (ordinary : OrdinaryName name) (keys : OrdinaryAttributes attributes) :
    readAttributes (tagChars name attributes) = .ok attributes := by
  have items : readItems (tagChars name attributes) =
      attributes.map fun pair => .ok (pair.1.toList, escapeAttribute pair.2.toList) := by
    unfold readItems
    rw [tagName_tagChars ordinary]
    simp only [tagChars, List.drop_left]
    exact itemsFrom_attributes _ _ keys (by simp)
  have each : ∀ pair : String × String,
      readItem (.ok (pair.1.toList, escapeAttribute pair.2.toList)) = .ok pair := by
    intro pair
    simp [readItem, unescape_escapeAttribute]
  rw [readAttributes, items]
  clear items keys ordinary
  induction attributes with
  | nil => rfl
  | cons pair attributes ih =>
      rw [List.map_cons, List.mapM_cons, each, ih]
      rfl

end SheetFill.Xml
