import SheetFill.Proofs.Xml.Everywhere

/-!
# Documents that were read

What the reader accepts is close to what can be written. A CDATA section ends at the first mark that
ends one, so its content has no such mark, and the same holds for comments and instructions; a tag
with a key twice is refused. So only the names of a document that was read can keep it from being
written (`Document.writable_of_read`).

A document is its tokens and nothing else: what holds for all tags and other tokens of a text holds
everywhere in the document (`Document.obeys_of_read`), and the other way round for tags
(`Document.tag_of_read`). Both are inductions over the tokens, with all that one token can do to the
documents being built (`Builder.takes_of_step`).
-/

namespace SheetFill.Xml

/-! ## Tokens -/

/-- What the reader sees to in a token, whatever its names are. -/
def Token.Sound : Token → Prop
  | .start tag | .empty tag => ∀ c ∈ tag.head?, c ≠ '!' ∧ c ≠ '?'
  | .cdata chars => ¬ "]]>".toList <:+: chars
  | .comment chars => ¬ "-->".toList <:+: chars
  | .instruction content => content ≠ [] ∧ '>' ∉ content ∧ isDeclaration content = false
  | .declaration content => isDeclaration content = true ∧ '>' ∉ content
  | _ => True

theorem eq_append_of_breakOn? {mark cs before rest : List Char}
    (h : breakOn? mark cs = some (before, rest)) : cs = before ++ mark ++ rest := by
  induction cs generalizing before with
  | nil =>
      obtain ⟨after, found, same⟩ := Option.map_eq_some_iff.mp h
      cases same
      exact eq_append_of_dropStart? found
  | cons c cs ih =>
      rw [breakOn?] at h
      split at h
      · rename_i found
        cases h
        exact eq_append_of_dropStart? found
      · obtain ⟨⟨inner, after⟩, found, same⟩ := Option.map_eq_some_iff.mp h
        cases same
        rw [ih found]
        rfl

/-- A mark does not occur before its first occurrence. -/
theorem not_infix_of_breakOn? {mark cs before rest : List Char} (nonempty : mark ≠ [])
    (h : breakOn? mark cs = some (before, rest)) : ¬ mark <:+: before := by
  have absent : ¬ mark <:+: [] := fun inside => nonempty (List.infix_nil.mp inside)
  induction cs generalizing before with
  | nil =>
      obtain ⟨after, -, same⟩ := Option.map_eq_some_iff.mp h
      cases same
      exact absent
  | cons c cs ih =>
      rw [breakOn?] at h
      split at h
      · cases h
        exact absent
      · rename_i none
        obtain ⟨⟨inner, after⟩, found, same⟩ := Option.map_eq_some_iff.mp h
        cases same
        intro inside
        rcases List.infix_cons_iff.mp inside with ⟨more, start⟩ | later
        · have whole : c :: cs = mark ++ (more ++ mark ++ rest) := by
            rw [eq_append_of_breakOn? found, ← List.cons_append, ← List.cons_append, ← start]
            simp only [List.append_assoc]
          rw [whole, dropStart?_append] at none
          cases none
        · exact ih found later

theorem sound_of_instructionStep {cs rest : List Char} {t : Token}
    (h : instructionStep cs = .token t rest) : t.Sound := by
  have inside : ∀ c ∈ (upToBracket cs).1, c ≠ '>' := by
    intro c mem
    simpa using List.all_eq_true.mp List.all_takeWhile c mem
  rw [instructionStep] at h
  dsimp only at h
  split at h
  · rename_i c more reversed
    cases h
    have noClose : '>' ∉ (c :: more).reverse := by
      intro mem
      refine inside '>' ?_ rfl
      rw [← List.mem_reverse, reversed]
      exact List.mem_cons_of_mem _ (List.mem_reverse.mp mem)
    cases declared : isDeclaration (c :: more).reverse with
    | true => exact ⟨declared, noClose⟩
    | false => exact ⟨by simp, noClose, declared⟩
  · cases h

theorem sound_of_bangStep {cs rest : List Char} {t : Token} (h : bangStep cs = .token t rest) :
    t.Sound := by
  rw [bangStep.eq_def] at h
  split at h
  · cases h
  · split at h
    · rw [commentStep] at h
      split at h
      · rename_i found
        cases h
        obtain ⟨content, -, found⟩ := Option.bind_eq_some_iff.mp found
        exact not_infix_of_breakOn? (by decide) found
      · cases h
    · split at h
      · rw [cdataStep] at h
        split at h
        · rename_i found
          cases h
          obtain ⟨content, -, found⟩ := Option.bind_eq_some_iff.mp found
          exact not_infix_of_breakOn? (by decide) found
        · cases h
      · split at h
        · rw [doctypeStep] at h
          split at h
          · cases h
          · split at h
            · cases h
            · split at h
              · cases h
              · cases h
                trivial
        · cases h

theorem head?_of_closeTag? {c : Char} {cs inside rest : List Char}
    (h : closeTag? none (c :: cs) = some (inside, rest)) : ∀ d ∈ inside.head?, d = c := by
  rw [closeTag?] at h
  split at h
  · cases h
    intro d mem
    cases mem
  · obtain ⟨⟨inner, after⟩, -, same⟩ := Option.map_eq_some_iff.mp h
    cases same
    intro d mem
    exact (Option.some.inj mem).symm

/-- What follows an opening bracket gives a sound token. -/
theorem sound_of_markupStep {cs rest : List Char} {t : Token}
    (h : markupStep cs = .token t rest) : t.Sound := by
  rw [markupStep.eq_def] at h
  split at h
  · cases h
  · rename_i c cs
    split at h
    · cases h
      trivial
    · split at h
      · exact sound_of_instructionStep h
      · split at h
        · exact sound_of_bangStep h
        · rename_i noInstruction noBang
          rw [tagStep] at h
          split at h
          · cases h
          · rename_i inside after found
            have head := head?_of_closeTag? found
            split at h
            · rename_i tag reversed
              cases h
              have split : inside = tag.reverse ++ ['/'] := by
                rw [← List.reverse_reverse inside, reversed, List.reverse_cons]
              intro d mem
              have first : d ∈ inside.head? := by
                rw [split, List.head?_append, Option.mem_def.mp mem]
                rfl
              rw [head d first]
              exact ⟨noBang, noInstruction⟩
            · cases h
              intro d mem
              rw [head d mem]
              exact ⟨noBang, noInstruction⟩

theorem sound_of_mem_lex {cs : List Char} {t : Token} (mem : t ∈ (lex cs).tokens) : t.Sound := by
  fun_induction lex cs with
  | case1 => cases mem
  | case2 rest next after found ih =>
      rcases List.mem_cons.mp mem with rfl | mem
      · exact sound_of_markupStep found
      · exact ih mem
  | case3 => cases mem
  | case4 => cases mem
  | case5 c rest noBracket ih =>
      rcases List.mem_cons.mp mem with rfl | mem
      · trivial
      · exact ih mem

/-- Matching end tags drops tokens but makes no new ones. -/
theorem matchEnds_take (fault : Option Error) (opened : List (List Char)) (tokens : List Token) :
    (matchEnds fault opened tokens).tokens <+: tokens := by
  fun_induction matchEnds fault opened tokens with
  | case1 => exact List.nil_prefix
  | case2 opened tag tokens ih => exact List.cons_prefix_cons.mpr ⟨rfl, ih⟩
  | case3 => exact List.nil_prefix
  | case4 name tokens opened found ih => exact List.cons_prefix_cons.mpr ⟨rfl, ih⟩
  | case5 => exact List.nil_prefix
  | case6 opened t tokens noStart noClose ih => exact List.cons_prefix_cons.mpr ⟨rfl, ih⟩

theorem sound_of_mem_scan {text : String} {t : Token} (mem : t ∈ (scan text).tokens) : t.Sound :=
  sound_of_mem_lex ((matchEnds_take _ _ _).subset mem)

/-! ## Keys -/

/-- The key of an item that is no fault. -/
def itemKey? : Item → Option (List Char)
  | .ok (key, _) => some key
  | .error _ => none

theorem itemKey?_valueItem {stop : Nat} {key found : List Char} {after : Cursor}
    (mem : found ∈ itemKey? (valueItem stop key after).1) : found = key := by
  rw [valueItem] at mem
  dsimp only at mem
  split at mem
  · cases mem
  · split at mem
    · split at mem
      · cases mem
      · exact (Option.some.inj mem).symm
    · cases mem

/-- An item has a key that was not seen before, and that key is seen from then on. -/
theorem nextItem_keys (stop : Nat) (seen : Keys) (place : Nat) (c : Char) (rest : List Char) :
    let found := nextItem stop seen place c rest
    (∀ key ∈ itemKey? found.1, key ∉ seen.map (·.1) ∧ key ∈ found.2.1.map (·.1)) ∧
      seen.map (·.1) ⊆ found.2.1.map (·.1) := by
  have old : seen.map (·.1) ⊆ seen.map (·.1) := List.Subset.refl _
  have noKey : ∀ (e : AttributeError) (keys : Keys), ∀ key ∈ itemKey? (.error e),
      key ∉ seen.map (·.1) ∧ key ∈ keys.map (·.1) := by
    intro e keys key mem
    cases mem
  rw [nextItem]
  dsimp only
  split
  · exact ⟨noKey _ _, old⟩
  · split
    · split
      · exact ⟨noKey _ _, old⟩
      · rename_i absent
        refine ⟨fun key mem => ?_, by simp⟩
        rw [itemKey?_valueItem mem]
        refine ⟨fun used => ?_, by simp⟩
        obtain ⟨pair, listed, same⟩ := List.mem_map.mp used
        have unused := List.find?_eq_none.mp absent pair listed
        simp [same] at unused
    · exact ⟨noKey _ _, old⟩

theorem itemsFrom_keys (stop : Nat) (seen : Keys) (place : Nat) (cs : List Char) :
    ((itemsFrom stop seen place cs).filterMap itemKey?).Nodup ∧
      ∀ key ∈ (itemsFrom stop seen place cs).filterMap itemKey?, key ∉ seen.map (·.1) := by
  fun_induction itemsFrom stop seen place cs with
  | case1 => exact ⟨.nil, fun key mem => by cases mem⟩
  | case2 seen place cs c rest start place' found ih =>
      obtain ⟨first, grown⟩ := nextItem_keys stop seen place' c rest
      have others : ∀ items : List Item, (items.filterMap itemKey?).Nodup →
          (∀ key ∈ items.filterMap itemKey?, key ∉ found.2.1.map (·.1)) →
          ((found.1 :: items).filterMap itemKey?).Nodup ∧
            ∀ key ∈ (found.1 :: items).filterMap itemKey?, key ∉ seen.map (·.1) := by
        intro items distinct fresh
        have outside : ∀ key ∈ items.filterMap itemKey?, key ∉ seen.map (·.1) :=
          fun key mem used => fresh key mem (grown used)
        rw [List.filterMap_cons]
        cases own : itemKey? found.1 with
        | none => exact ⟨distinct, outside⟩
        | some key =>
            obtain ⟨new, taken⟩ := first key own
            refine ⟨List.nodup_cons.mpr ⟨fun mem => fresh key mem taken, distinct⟩, ?_⟩
            exact List.forall_mem_cons.mpr ⟨new, outside⟩
      split
      · rename_i next more
        obtain ⟨distinct, fresh⟩ := ih next more
        exact others _ distinct fresh
      · exact others [] .nil fun key mem => by cases mem

theorem exists_of_readItem {item : Item} {pair : String × String} (h : readItem item = .ok pair) :
    ∃ key value chars, item = .ok (key, value) ∧ unescape value = .ok chars ∧
      pair = (String.ofList key, String.ofList chars) := by
  cases item with
  | error e => cases h
  | ok item =>
      obtain ⟨key, value⟩ := item
      rw [readItem] at h
      cases read : unescape value with
      | error e =>
          rw [read] at h
          cases h
      | ok chars =>
          rw [read] at h
          exact ⟨key, value, chars, rfl, read, (Except.ok.inj h).symm⟩

theorem exists_of_mapM_cons {α β ε : Type} {f : α → Except ε β} {a : α} {as : List α} {bs : List β}
    (h : (a :: as).mapM f = .ok bs) :
    ∃ b rest, f a = .ok b ∧ as.mapM f = .ok rest ∧ bs = b :: rest := by
  rw [List.mapM_cons] at h
  cases first : f a with
  | error e =>
      rw [first] at h
      cases h
  | ok b =>
      rw [first] at h
      cases others : as.mapM f with
      | error e =>
          rw [others] at h
          cases h
      | ok rest =>
          rw [others] at h
          exact ⟨b, rest, rfl, rfl, (Except.ok.inj h).symm⟩

theorem map_of_mapM {items : List Item} {attributes : List (String × String)}
    (h : items.mapM readItem = .ok attributes) :
    attributes.map (·.1) = (items.filterMap itemKey?).map String.ofList ∧
      items.filterMap (fun item => match item with
        | .error _ => none
        | .ok (key, value) =>
            some (String.ofList key, (unescape value).toOption.map String.ofList)) =
        attributes.map fun pair => (pair.1, some pair.2) := by
  induction items generalizing attributes with
  | nil =>
      cases h
      exact ⟨rfl, rfl⟩
  | cons item items ih =>
      obtain ⟨pair, rest, first, others, rfl⟩ := exists_of_mapM_cons h
      obtain ⟨key, value, chars, rfl, read, rfl⟩ := exists_of_readItem first
      obtain ⟨keys, pairs⟩ := ih others
      refine ⟨congrArg _ keys, ?_⟩
      rw [List.filterMap_cons, List.map_cons, ← pairs]
      dsimp only
      rw [read]
      rfl

/-- A tag whose attributes can all be read has each key once. -/
theorem nodup_of_readAttributes {tag : List Char} {attributes : List (String × String)}
    (h : readAttributes tag = .ok attributes) : (attributes.map (·.1)).Nodup := by
  rw [(map_of_mapM h).1]
  exact List.pairwise_map.mpr ((itemsFrom_keys ..).1.imp fun different same =>
    different (String.ofList_injective same))

/-- Attributes that can all be read are read by those who pass over faults, too. -/
theorem lenientAttributes_of_readAttributes {tag : List Char} {attributes : List (String × String)}
    (h : readAttributes tag = .ok attributes) :
    lenientAttributes tag = attributes.map fun pair => (pair.1, some pair.2) :=
  (map_of_mapM h).2

/-! ## Building the tree -/

/-- A rule allows a token. -/
def Rule.Allows (rule : Rule) : Token → Prop
  | .start tag | .empty tag => ∀ attributes, readAttributes tag = .ok attributes →
      rule.tag (String.ofList (tagName tag)) attributes
  | .text _ => ∀ chars, rule.leaf (.text chars)
  | .cdata chars => rule.leaf (.cdata (String.ofList chars))
  | .comment chars => rule.leaf (.comment (String.ofList chars))
  | .instruction chars => rule.leaf (.instruction (String.ofList chars))
  | _ => True

/-- The tag that a token is. -/
def Token.tag? : Token → Option (List Char)
  | .start tag | .empty tag => some tag
  | _ => none

/-- A tag can be read, and the rule holds for it. -/
def Rule.Read (rule : Rule) (tag : List Char) : Prop :=
  ∃ attributes, readAttributes tag = .ok attributes ∧
    rule.tag (String.ofList (tagName tag)) attributes

/-- A token that is a node with nothing inside. -/
inductive Token.IsLeaf : Token → Node → Prop where
  /-- Text, with its entities resolved. -/
  | text {chars : List Char} (resolved : List Char) :
      IsLeaf (.text chars) (.text (String.ofList resolved))
  /-- Text that is taken as it is. -/
  | cdata (chars : List Char) : IsLeaf (.cdata chars) (.cdata (String.ofList chars))
  /-- A comment. -/
  | comment (chars : List Char) : IsLeaf (.comment chars) (.comment (String.ofList chars))
  /-- An instruction. -/
  | instruction (chars : List Char) :
      IsLeaf (.instruction chars) (.instruction (String.ofList chars))

theorem Token.IsLeaf.noTag {t : Token} {node : Node} (leaf : t.IsLeaf node) : t.tag? = none := by
  cases leaf <;> rfl

theorem Token.IsLeaf.obeys {t : Token} {node : Node} {rule : Rule} (leaf : t.IsLeaf node)
    (allowed : rule.Allows t) : node.Obeys rule := by
  cases leaf with
  | text resolved => exact allowed _
  | cdata chars => exact allowed
  | comment chars => exact allowed
  | instruction chars => exact allowed

/-- What a builder becomes when it takes in a token. -/
inductive Builder.Takes (b : Builder) : Token → Builder → Prop where
  /-- A start tag opens an element. -/
  | start {tag : List Char} {attributes : List (String × String)}
      (read : readAttributes tag = .ok attributes) :
      b.Takes (.start tag)
        { b with opened := ⟨String.ofList (tagName tag), attributes, []⟩ :: b.opened }
  /-- An empty tag is an element. -/
  | empty {tag : List Char} {attributes : List (String × String)} {next : Builder}
      (read : readAttributes tag = .ok attributes)
      (added : b.addElement ⟨String.ofList (tagName tag), attributes, []⟩ = .ok next) :
      b.Takes (.empty tag) next
  /-- An end tag closes the innermost element. -/
  | close {name : List Char} {o : OpenElement} {outer : List OpenElement} {next : Builder}
      (innermost : b.opened = o :: outer)
      (added : { b with opened := outer }.addElement ⟨o.name, o.attributes, o.done.reverse⟩ =
        .ok next) : b.Takes (.close name) next
  /-- A node goes to the innermost element. -/
  | leaf {t : Token} {node : Node} (isLeaf : t.IsLeaf node) : b.Takes t (b.addNode node)
  /-- The last declaration counts. -/
  | declaration {content : List Char} :
      b.Takes (.declaration content) { b with declaration := some (String.ofList content) }
  /-- Anything else is passed over. -/
  | pass {t : Token} (noTag : t.tag? = none) : b.Takes t b

theorem Builder.takes_of_step {b next : Builder} {t : Token} (h : b.step t = .ok next) :
    b.Takes t next := by
  cases t with
  | start tag =>
      rw [step] at h
      split at h
      · cases h
      · cases h
        exact .start ‹_›
  | empty tag =>
      rw [step] at h
      split at h
      · cases h
      · exact .empty ‹_› h
  | close name =>
      rw [step] at h
      split at h
      · cases h
        exact .pass rfl
      · exact .close ‹_› h
  | text chars =>
      rw [step] at h
      split at h
      · cases h
        exact .pass rfl
      · split at h
        · cases h
        · cases h
          exact .leaf (.text _)
  | cdata chars =>
      cases h
      exact .leaf (.cdata chars)
  | comment chars =>
      cases h
      exact .leaf (.comment chars)
  | instruction chars =>
      cases h
      exact .leaf (.instruction chars)
  | declaration content =>
      cases h
      exact .declaration
  | doctype =>
      cases h
      exact .pass rfl

/-- All that is built so far obeys a rule. -/
structure Builder.Obeys (rule : Rule) (b : Builder) : Prop where
  /-- The open elements do. -/
  opened : ∀ o ∈ b.opened, Element.Obeys rule ⟨o.name, o.attributes, o.done⟩
  /-- The root does. -/
  root : ∀ e ∈ b.root, e.Obeys rule

namespace Builder

variable {rule : Rule} {b next : Builder}

theorem obeys_addNode {node : Node} :
    (b.addNode node).Obeys rule ↔ b.Obeys rule ∧ (b.opened = [] ∨ node.Obeys rule) := by
  obtain ⟨declaration, opened, root⟩ := b
  cases opened with
  | nil => exact ⟨fun h => ⟨h, .inl rfl⟩, fun h => h.1⟩
  | cons o outer =>
      constructor
      · intro h
        obtain ⟨first, others⟩ := List.forall_mem_cons.mp h.opened
        rw [Element.obeys_iff] at first
        obtain ⟨new, done⟩ := List.forall_mem_cons.mp first.2
        refine ⟨⟨List.forall_mem_cons.mpr ⟨?_, others⟩, h.root⟩, .inr new⟩
        exact Element.obeys_iff.mpr ⟨first.1, done⟩
      · rintro ⟨h, none | new⟩
        · cases none
        · obtain ⟨first, others⟩ := List.forall_mem_cons.mp h.opened
          rw [Element.obeys_iff] at first
          refine ⟨List.forall_mem_cons.mpr ⟨?_, others⟩, h.root⟩
          exact Element.obeys_iff.mpr ⟨first.1, List.forall_mem_cons.mpr ⟨new, first.2⟩⟩

theorem obeys_addElement {e : Element} (h : b.addElement e = .ok next) :
    next.Obeys rule ↔ b.Obeys rule ∧ e.Obeys rule := by
  obtain ⟨declaration, opened, root⟩ := b
  rw [addElement] at h
  dsimp only at h
  split at h
  · cases h
    rw [obeys_addNode]
    refine and_congr_right fun _ => ⟨fun either => ?_, .inr⟩
    rcases either with none | new
    · cases none
    · exact new
  · cases h
    refine ⟨fun h => ⟨⟨h.opened, fun _ mem => by cases mem⟩, h.root e rfl⟩, fun h => ⟨h.1.opened, ?_⟩⟩
    intro other mem
    cases mem
    exact h.2
  · cases h

theorem obeys_pop {declaration : Option String} {o : OpenElement} {outer : List OpenElement}
    {root : Option Element} :
    Obeys rule ⟨declaration, o :: outer, root⟩ ↔ Obeys rule ⟨declaration, outer, root⟩ ∧
      Element.Obeys rule ⟨o.name, o.attributes, o.done.reverse⟩ := by
  have turned : Element.Obeys rule ⟨o.name, o.attributes, o.done.reverse⟩ ↔
      Element.Obeys rule ⟨o.name, o.attributes, o.done⟩ := by
    rw [Element.obeys_iff, Element.obeys_iff]
    simp only [List.mem_reverse]
  rw [turned]
  constructor
  · intro h
    obtain ⟨first, others⟩ := List.forall_mem_cons.mp h.opened
    exact ⟨⟨others, h.root⟩, first⟩
  · rintro ⟨h, first⟩
    exact ⟨List.forall_mem_cons.mpr ⟨first, h.opened⟩, h.root⟩

theorem obeys_noChildren {name : String} {attributes : List (String × String)} :
    Element.Obeys rule ⟨name, attributes, []⟩ ↔ rule.tag name attributes :=
  ⟨fun h => h.1, fun h => ⟨h, trivial⟩⟩

/-- A token that the rule allows keeps the rule. The other way round, nothing is lost: if the rule
holds afterwards, it held before and for the tag. -/
theorem obeys_step {t : Token} (h : b.step t = .ok next) :
    (b.Obeys rule → rule.Allows t → next.Obeys rule) ∧
      (next.Obeys rule → b.Obeys rule ∧ ∀ tag ∈ t.tag?, rule.Read tag) := by
  have readNone : t.tag? = none → ∀ tag ∈ t.tag?, rule.Read tag := by
    intro none tag mem
    rw [none] at mem
    cases mem
  cases takes_of_step h with
  | start read =>
      refine ⟨fun h allowed => ?_, fun h => ?_⟩
      · exact ⟨List.forall_mem_cons.mpr ⟨obeys_noChildren.mpr (allowed _ read), h.opened⟩, h.root⟩
      · obtain ⟨first, others⟩ := List.forall_mem_cons.mp h.opened
        refine ⟨⟨others, h.root⟩, fun found same => ?_⟩
        cases same
        exact ⟨_, read, obeys_noChildren.mp first⟩
  | empty read added =>
      rw [obeys_addElement added, obeys_noChildren]
      refine ⟨fun h allowed => ⟨h, allowed _ read⟩, fun h => ⟨h.1, fun found same => ?_⟩⟩
      cases same
      exact ⟨_, read, h.2⟩
  | close innermost added =>
      obtain ⟨declaration, opened, root⟩ := b
      cases innermost
      rw [obeys_addElement added, obeys_pop]
      exact ⟨fun h _ => h, fun h => ⟨h, readNone rfl⟩⟩
  | leaf isLeaf =>
      rw [obeys_addNode]
      exact ⟨fun h allowed => ⟨h, .inr (isLeaf.obeys allowed)⟩,
        fun h => ⟨h.1, readNone isLeaf.noTag⟩⟩
  | declaration =>
      exact ⟨fun h _ => ⟨h.opened, h.root⟩, fun h => ⟨⟨h.opened, h.root⟩, readNone rfl⟩⟩
  | pass noTag => exact ⟨fun h _ => h, fun h => ⟨h, readNone noTag⟩⟩

theorem obeys_steps {tokens : List Token} (h : b.steps tokens = .ok next) :
    (b.Obeys rule → (∀ t ∈ tokens, rule.Allows t) → next.Obeys rule) ∧
      (next.Obeys rule → b.Obeys rule ∧ ∀ tag ∈ tokens.filterMap Token.tag?, rule.Read tag) := by
  induction tokens generalizing b with
  | nil =>
      cases h
      exact ⟨fun h _ => h, fun h => ⟨h, fun _ mem => by cases mem⟩⟩
  | cons t tokens ih =>
      rw [steps] at h
      split at h
      · cases h
      · rename_i middle taken
        obtain ⟨forth, back⟩ := obeys_step taken
        obtain ⟨later, earlier⟩ := ih h
        refine ⟨fun h allowed => ?_, fun h => ?_⟩
        · obtain ⟨first, others⟩ := List.forall_mem_cons.mp allowed
          exact later (forth h first) others
        · obtain ⟨here, others⟩ := earlier h
          refine ⟨(back here).1, fun tag mem => ?_⟩
          obtain ⟨token, inside, same⟩ := List.mem_filterMap.mp mem
          rcases List.mem_cons.mp inside with rfl | inside
          · exact (back here).2 tag same
          · exact others tag (List.mem_filterMap.mpr ⟨token, inside, same⟩)

theorem obeys_start : start.Obeys rule := by
  constructor
  · intro o mem
    cases mem
  · intro e mem
    cases mem

theorem declaration_addNode (b : Builder) (node : Node) :
    (b.addNode node).declaration = b.declaration := by
  rw [addNode]
  split
  · rfl
  · rfl

theorem declaration_addElement {e : Element} (h : b.addElement e = .ok next) :
    next.declaration = b.declaration := by
  rw [addElement] at h
  split at h
  · cases h
    exact b.declaration_addNode _
  · cases h
    rfl
  · cases h

/-- Only a declaration changes the declaration. -/
theorem declaration_step {t : Token} (h : b.step t = .ok next) :
    next.declaration = b.declaration ∨
      ∃ content, t = .declaration content ∧ next.declaration = some (String.ofList content) := by
  cases takes_of_step h with
  | start read => exact .inl rfl
  | empty read added => exact .inl (declaration_addElement added)
  | close innermost added => exact .inl ((declaration_addElement added).trans rfl)
  | leaf isLeaf => exact .inl (b.declaration_addNode _)
  | declaration => exact .inr ⟨_, rfl, rfl⟩
  | pass noTag => exact .inl rfl

theorem declaration_of_steps {tokens : List Token} (h : b.steps tokens = .ok next)
    (sound : ∀ t ∈ tokens, t.Sound)
    (declared : ∀ content ∈ b.declaration, (Token.declaration content.toList).Sound) :
    ∀ content ∈ next.declaration, (Token.declaration content.toList).Sound := by
  induction tokens generalizing b with
  | nil =>
      cases h
      exact declared
  | cons t tokens ih =>
      rw [steps] at h
      split at h
      · cases h
      · rename_i middle taken
        obtain ⟨here, later⟩ := List.forall_mem_cons.mp sound
        refine ih h later fun content mem => ?_
        rcases declaration_step taken with same | ⟨written, rfl, same⟩
        · exact declared content (same ▸ mem)
        · rw [same] at mem
          cases mem
          rw [String.toList_ofList]
          exact here

end Builder

/-! ## Documents -/

/-- What the reader sees to everywhere in a document. -/
def sound : Rule :=
  ⟨fun name attributes => (∀ c ∈ name.toList.head?, c ≠ '!' ∧ c ≠ '?') ∧
    (attributes.map (·.1)).Nodup, Node.Writable⟩

/-- The rule that names and keys are ordinary. -/
def ordinaryNames : Rule :=
  ⟨fun name attributes => OrdinaryName name ∧ ∀ pair ∈ attributes, OrdinaryName pair.1,
    fun _ => True⟩

/-- The rule that the tags of a name have attributes among those given. -/
def tagsAmong (name : String) (tags : List (List (String × Option String))) : Rule :=
  ⟨fun other attributes => other = name →
    (attributes.map fun pair => (pair.1, some pair.2)) ∈ tags, fun _ => True⟩

theorem allows_of_sound {t : Token} (h : t.Sound) : sound.Allows t := by
  have head : ∀ tag : List Char, (∀ c ∈ tag.head?, c ≠ '!' ∧ c ≠ '?') →
      ∀ c ∈ (String.ofList (tagName tag)).toList.head?, c ≠ '!' ∧ c ≠ '?' := by
    intro tag h c mem
    rw [String.toList_ofList, tagName] at mem
    cases tag with
    | nil => cases mem
    | cons d tag =>
        rw [List.takeWhile_cons] at mem
        split at mem
        · exact h c mem
        · cases mem
  cases t with
  | start tag => exact fun _ read => ⟨head tag h, nodup_of_readAttributes read⟩
  | empty tag => exact fun _ read => ⟨head tag h, nodup_of_readAttributes read⟩
  | close name => trivial
  | text chars => exact fun _ => trivial
  | cdata chars =>
      show ¬ _ <:+: (String.ofList chars).toList
      rw [String.toList_ofList (l := chars)]
      exact h
  | comment chars =>
      show ¬ _ <:+: (String.ofList chars).toList
      rw [String.toList_ofList (l := chars)]
      exact h
  | instruction chars =>
      show (String.ofList chars).toList ≠ [] ∧ _ ∉ (String.ofList chars).toList ∧
        isDeclaration (String.ofList chars).toList = false
      rw [String.toList_ofList]
      exact h
  | declaration chars => trivial
  | doctype => trivial

theorem sound_and_ordinaryNames : (sound.and ordinaryNames).Implies writable where
  tag := by
    rintro name attributes ⟨⟨head, distinct⟩, ordinary, keys⟩
    refine ⟨⟨ordinary, ?_, ?_⟩, keys, distinct⟩
    · exact fun start => (head '!' start).1 rfl
    · exact fun start => (head '?' start).2 rfl
  leaf := fun _ h => h.1

namespace Document

variable {text : String} {d : Document} {rule : Rule}

/-- A document is what was built from all tokens of its text. -/
theorem exists_of_read (h : Document.read text = .ok d) :
    (scan text).fault = none ∧ Builder.start.steps (scan text).tokens =
      .ok ⟨d.declaration, [], some d.root⟩ := by
  rw [Document.read] at h
  split at h
  · cases h
  · rename_i b steps
    split at h
    · cases h
    · rename_i noFault
      obtain ⟨declaration, opened, root⟩ := b
      rw [Builder.finish] at h
      split at h
      · rename_i closed
        split at h
        · rename_i found
          cases h
          cases List.isEmpty_iff.mp closed
          cases found
          exact ⟨noFault, steps⟩
        · cases h
      · cases h

/-- What holds for all tokens of a text holds everywhere in its document. -/
theorem obeys_of_read (h : Document.read text = .ok d)
    (allowed : ∀ t ∈ (scan text).tokens, rule.Allows t) : d.root.Obeys rule :=
  ((Builder.obeys_steps (exists_of_read h).2).1 Builder.obeys_start allowed).root d.root rfl

/-- What holds everywhere in a document holds for all tags of its text. -/
theorem tag_of_read (h : Document.read text = .ok d) (obeys : d.root.Obeys rule) :
    ∀ tag ∈ (scan text).tokens.filterMap Token.tag?, rule.Read tag := by
  refine ((Builder.obeys_steps (exists_of_read h).2).2 ⟨fun _ mem => ?_, fun e mem => ?_⟩).2
  · cases mem
  · cases mem
    exact obeys

/-- A document that was read is sound. -/
theorem sound_of_read (h : Document.read text = .ok d) : d.root.Obeys sound :=
  obeys_of_read h fun _ mem => allows_of_sound (sound_of_mem_scan mem)

/-- A document with ordinary names that was read can be written. -/
theorem writable_of_read (h : Document.read text = .ok d) (names : d.root.Obeys ordinaryNames) :
    d.Writable where
  declaration := by
    refine Builder.declaration_of_steps (exists_of_read h).2 (fun t mem => sound_of_mem_scan mem) ?_
    intro content mem
    cases mem
  root :=
    Element.writable_iff_obeys.mpr (((sound_of_read h).and names).mono sound_and_ordinaryNames)

theorem startTags_eq (accepted : (scan text).fault = none) (name : String) :
    startTags name text = .ok (((scan text).tokens.filterMap Token.tag?).filterMap fun tag =>
      if tagName tag = name.toList then some (lenientAttributes tag) else none) := by
  rw [startTags, accepted, List.filterMap_filterMap]
  refine congrArg Except.ok (List.filterMap_congr fun t _ => ?_)
  cases t <;> rfl

/-- The tags of a name in the text of a document have attributes as in the document. -/
theorem startTags_of_read (h : Document.read text = .ok d) (obeys : d.root.Obeys rule)
    (name : String) :
    ∃ tags : List (List (String × String)),
      startTags name text = .ok (tags.map fun attributes =>
        attributes.map fun pair => (pair.1, some pair.2)) ∧
        ∀ attributes ∈ tags, rule.tag name attributes := by
  have read := tag_of_read h obeys
  rw [startTags_eq (exists_of_read h).1]
  generalize (scan text).tokens.filterMap Token.tag? = written at read ⊢
  induction written with
  | nil => exact ⟨[], rfl, fun _ mem => by cases mem⟩
  | cons tag written ih =>
      obtain ⟨first, others⟩ := List.forall_mem_cons.mp read
      obtain ⟨tags, same, allowed⟩ := ih others
      have same := Except.ok.inj same
      rw [List.filterMap_cons]
      by_cases named : tagName tag = name.toList
      · obtain ⟨attributes, read, obeys⟩ := first
        rw [named, String.ofList_toList] at obeys
        refine ⟨attributes :: tags, ?_, List.forall_mem_cons.mpr ⟨obeys, allowed⟩⟩
        rw [if_pos named, List.map_cons, ← same, lenientAttributes_of_readAttributes read]
      · refine ⟨tags, ?_, allowed⟩
        rw [if_neg named, ← same]

/-- All elements of a name in a document are among the tags that are read from its text. -/
theorem obeys_tagsAmong (h : Document.read text = .ok d) {name : String}
    {tags : List (List (String × Option String))} (found : startTags name text = .ok tags) :
    d.root.Obeys (tagsAmong name tags) := by
  rw [startTags, (exists_of_read h).1] at found
  have found := Except.ok.inj found
  have listed : ∀ tag attributes, (.start tag ∈ (scan text).tokens ∨ .empty tag ∈ (scan text).tokens) →
      readAttributes tag = .ok attributes → String.ofList (tagName tag) = name →
        (attributes.map fun pair => (pair.1, some pair.2)) ∈ tags := by
    intro tag attributes mem read named
    rw [← lenientAttributes_of_readAttributes read, ← found]
    have named : tagName tag = name.toList := by rw [← named, String.toList_ofList]
    rcases mem with mem | mem
    · exact List.mem_filterMap.mpr ⟨_, mem, if_pos named⟩
    · exact List.mem_filterMap.mpr ⟨_, mem, if_pos named⟩
  refine obeys_of_read h fun t mem => ?_
  cases t with
  | start tag => exact fun attributes read => listed tag attributes (.inl mem) read
  | empty tag => exact fun attributes read => listed tag attributes (.inr mem) read
  | text chars => exact fun _ => trivial
  | close name => trivial
  | cdata chars => trivial
  | comment chars => trivial
  | instruction chars => trivial
  | declaration chars => trivial
  | doctype => trivial

end Document

/-! ## Texts of documents -/

/-- The tags in the text of a document are those of its tokens. -/
theorem Document.startTags_toXml {d : Document} (h : d.Writable) (name : String) :
    startTags name d.toXml = .ok ((d.tokens.filterMap Token.tag?).filterMap fun tag =>
      if tagName tag = name.toList then some (lenientAttributes tag) else none) := by
  have scanned := scan_toXml h
  rw [startTags_eq (congrArg Scan.fault scanned), scanned]

/-- A text spells a document that obeys a rule. -/
def Spells (rule : Rule) (text : String) : Prop :=
  ∃ d, Document.read text = .ok d ∧ d.root.Obeys rule

theorem Spells.mono {rule other : Rule} (implies : rule.Implies other) {text : String} :
    Spells rule text → Spells other text
  | ⟨d, read, obeys⟩ => ⟨d, read, obeys.mono implies⟩

theorem writable_implies_ordinaryNames : writable.Implies ordinaryNames where
  tag _ _ h := ⟨h.1.toOrdinaryName, h.2.keys⟩
  leaf _ _ := trivial

/-- A document that was read with ordinary names obeys the rule of those that can be written. -/
theorem Document.obeys_writable_of_read {text : String} {d : Document}
    (h : Document.read text = .ok d) (names : d.root.Obeys ordinaryNames) :
    d.root.Obeys writable :=
  Element.writable_iff_obeys.mp (writable_of_read h names).root

/-- A document that was read can be written with another root. -/
theorem Document.writable_withRoot {text : String} {d : Document} (h : Document.read text = .ok d)
    (names : d.root.Obeys ordinaryNames) {root : Element} (new : root.Obeys writable) :
    Document.Writable { d with root := root } :=
  ⟨(writable_of_read h names).declaration, Element.writable_iff_obeys.mpr new⟩

/-- It can be read again then. -/
theorem spells_of_read {rule : Rule} {text : String} {d : Document}
    (h : Document.read text = .ok d) (implies : rule.Implies writable)
    (texts : ∀ chars, rule.leaf (.text chars)) (old : d.root.Obeys rule) {root : Element}
    (new : root.Obeys rule) : Spells rule { d with root := root }.toXml := by
  have names := (old.mono implies).mono writable_implies_ordinaryNames
  have written := Document.writable_withRoot h names (new.mono implies)
  exact ⟨Document.merged { d with root := root },
    Document.read_of_scan written (Document.scan_toXml written), new.merged texts⟩

end SheetFill.Xml
