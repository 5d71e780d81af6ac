import SheetFill.Proofs.SharedStrings.Part

/-!
# Rules for all of a tree

A rule asks something of every tag in a tree, of its name and its attributes, and of every node that
is no element. To be writable is such a rule (`Element.writable_iff_obeys`), and so is to have
ordinary names. The functions that change a tree keep a rule if what they put into it obeys the
rule, and they need not be told apart by rule.
-/

namespace SheetFill.Xml

/-- What is asked of the tags in a tree and of the nodes that are no elements. -/
structure Rule where
  /-- What is asked of the name and the attributes of a tag. -/
  tag : String → List (String × String) → Prop
  /-- What is asked of a node that is no element. -/
  leaf : Node → Prop

mutual

/-- A node obeys a rule everywhere. -/
def Node.Obeys (rule : Rule) : Node → Prop
  | .element e => e.Obeys rule
  | .text chars => rule.leaf (.text chars)
  | .cdata chars => rule.leaf (.cdata chars)
  | .comment chars => rule.leaf (.comment chars)
  | .instruction chars => rule.leaf (.instruction chars)

/-- An element obeys a rule everywhere. -/
def Element.Obeys (rule : Rule) : Element → Prop
  | ⟨name, attributes, children⟩ => rule.tag name attributes ∧ NodesObey rule children

/-- Nodes obey a rule everywhere. -/
def NodesObey (rule : Rule) : List Node → Prop
  | [] => True
  | node :: nodes => node.Obeys rule ∧ NodesObey rule nodes

end

section Decide

variable (rule : Rule) [∀ name attributes, Decidable (rule.tag name attributes)]
  [DecidablePred rule.leaf]

mutual

/-- Whether a node obeys a rule. -/
def Node.decObeys : (node : Node) → Decidable (node.Obeys rule)
  | .element e => e.decObeys
  | .text chars => inferInstanceAs (Decidable (rule.leaf (.text chars)))
  | .cdata chars => inferInstanceAs (Decidable (rule.leaf (.cdata chars)))
  | .comment chars => inferInstanceAs (Decidable (rule.leaf (.comment chars)))
  | .instruction chars => inferInstanceAs (Decidable (rule.leaf (.instruction chars)))

/-- Whether an element obeys a rule. -/
def Element.decObeys : (e : Element) → Decidable (e.Obeys rule)
  | ⟨name, attributes, children⟩ =>
      have : Decidable (NodesObey rule children) := decNodesObey children
      inferInstanceAs (Decidable (rule.tag name attributes ∧ NodesObey rule children))

/-- Whether nodes obey a rule. -/
def decNodesObey : (nodes : List Node) → Decidable (NodesObey rule nodes)
  | [] => isTrue trivial
  | node :: nodes =>
      have : Decidable (node.Obeys rule) := node.decObeys
      have : Decidable (NodesObey rule nodes) := decNodesObey nodes
      inferInstanceAs (Decidable (node.Obeys rule ∧ NodesObey rule nodes))

end

instance (e : Element) : Decidable (e.Obeys rule) := e.decObeys rule

end Decide

theorem nodesObey_iff {rule : Rule} {nodes : List Node} :
    NodesObey rule nodes ↔ ∀ node ∈ nodes, node.Obeys rule := by
  induction nodes with
  | nil =>
      refine ⟨fun _ node mem => ?_, fun _ => trivial⟩
      cases mem
  | cons node nodes ih =>
      rw [NodesObey, ih, List.forall_mem_cons]

theorem Element.obeys_iff {rule : Rule} {e : Element} :
    e.Obeys rule ↔ rule.tag e.name e.attributes ∧ ∀ node ∈ e.children, node.Obeys rule := by
  obtain ⟨name, attributes, children⟩ := e
  rw [Element.Obeys, nodesObey_iff]

/-! ## Rules that follow from others -/

/-- A rule asks no less than another one. -/
structure Rule.Implies (rule other : Rule) : Prop where
  /-- Of tags. -/
  tag : ∀ name attributes, rule.tag name attributes → other.tag name attributes
  /-- Of nodes that are no elements. -/
  leaf : ∀ node, rule.leaf node → other.leaf node

mutual

theorem Node.Obeys.mono {rule other : Rule} (implies : rule.Implies other) :
    ∀ {node : Node}, node.Obeys rule → node.Obeys other
  | .element _, h => Element.Obeys.mono implies h
  | .text _, h => implies.leaf _ h
  | .cdata _, h => implies.leaf _ h
  | .comment _, h => implies.leaf _ h
  | .instruction _, h => implies.leaf _ h

theorem Element.Obeys.mono {rule other : Rule} (implies : rule.Implies other) :
    ∀ {e : Element}, e.Obeys rule → e.Obeys other
  | ⟨_, _, _⟩, ⟨tag, inner⟩ => ⟨implies.tag _ _ tag, NodesObey.mono implies inner⟩

theorem NodesObey.mono {rule other : Rule} (implies : rule.Implies other) :
    ∀ {nodes : List Node}, NodesObey rule nodes → NodesObey other nodes
  | [], _ => trivial
  | _ :: _, ⟨first, rest⟩ => ⟨Node.Obeys.mono implies first, NodesObey.mono implies rest⟩

end

/-- Both of two rules. -/
def Rule.and (rule other : Rule) : Rule :=
  ⟨fun name attributes => rule.tag name attributes ∧ other.tag name attributes,
    fun node => rule.leaf node ∧ other.leaf node⟩

theorem Rule.and_implies_left (rule other : Rule) : (rule.and other).Implies rule :=
  ⟨fun _ _ h => h.1, fun _ h => h.1⟩

theorem Rule.and_implies_right (rule other : Rule) : (rule.and other).Implies other :=
  ⟨fun _ _ h => h.2, fun _ h => h.2⟩

mutual

theorem Node.Obeys.and {rule other : Rule} :
    ∀ {node : Node}, node.Obeys rule → node.Obeys other → node.Obeys (rule.and other)
  | .element _, h, h' => Element.Obeys.and h h'
  | .text _, h, h' => ⟨h, h'⟩
  | .cdata _, h, h' => ⟨h, h'⟩
  | .comment _, h, h' => ⟨h, h'⟩
  | .instruction _, h, h' => ⟨h, h'⟩

theorem Element.Obeys.and {rule other : Rule} :
    ∀ {e : Element}, e.Obeys rule → e.Obeys other → e.Obeys (rule.and other)
  | ⟨_, _, _⟩, ⟨tag, inner⟩, ⟨tag', inner'⟩ => ⟨⟨tag, tag'⟩, NodesObey.and inner inner'⟩

theorem NodesObey.and {rule other : Rule} :
    ∀ {nodes : List Node}, NodesObey rule nodes → NodesObey other nodes →
      NodesObey (rule.and other) nodes
  | [], _, _ => trivial
  | _ :: _, ⟨first, rest⟩, ⟨first', rest'⟩ => ⟨first.and first', rest.and rest'⟩

end

/-! ## Trees that can be written -/

/-- The rule of trees that can be written. -/
def writable : Rule :=
  ⟨fun name attributes => ElementName name ∧ OrdinaryAttributes attributes, Node.Writable⟩

mutual

theorem Node.writable_iff_obeys : ∀ {node : Node}, node.Writable ↔ node.Obeys writable
  | .element e => by rw [Node.Writable, Node.Obeys, Element.writable_iff_obeys]
  | .text _ => .rfl
  | .cdata _ => .rfl
  | .comment _ => .rfl
  | .instruction _ => .rfl

/-- To be writable is a rule. -/
theorem Element.writable_iff_obeys : ∀ {e : Element}, e.Writable ↔ e.Obeys writable
  | ⟨name, attributes, children⟩ => by
      rw [Element.Writable, Element.Obeys, writableNodes_iff_obey, ← and_assoc]
      rfl

theorem writableNodes_iff_obey : ∀ {nodes : List Node},
    WritableNodes nodes ↔ NodesObey writable nodes
  | [] => .rfl
  | node :: nodes => by
      rw [WritableNodes, NodesObey, Node.writable_iff_obeys, writableNodes_iff_obey]

end

/-! ## Changes that keep a rule -/

namespace Element

variable {rule : Rule} {e : Element}

theorem Obeys.tag (h : e.Obeys rule) : rule.tag e.name e.attributes := (obeys_iff.mp h).1

theorem Obeys.of_mem_elements {child : Element} (h : e.Obeys rule) (mem : child ∈ e.elements) :
    child.Obeys rule := by
  obtain ⟨node, mem, same⟩ := List.mem_filterMap.mp mem
  have inside := (obeys_iff.mp h).2 node mem
  cases node with
  | element e =>
      cases same
      exact inside
  | text chars => cases same
  | cdata chars => cases same
  | comment chars => cases same
  | instruction chars => cases same

theorem Obeys.of_child? {name : String} {child : Element} (h : e.Obeys rule)
    (found : e.child? name = some child) : child.Obeys rule :=
  h.of_mem_elements (List.mem_of_find?_eq_some found)

theorem Obeys.of_attributes (h : e.Obeys rule) {attributes : List (String × String)}
    (tag : rule.tag e.name attributes) : Obeys rule { e with attributes := attributes } :=
  obeys_iff.mpr ⟨tag, (obeys_iff.mp h).2⟩

theorem Obeys.of_children (h : e.Obeys rule) {children : List Node}
    (inside : ∀ node ∈ children, node.Obeys rule) : Obeys rule { e with children := children } :=
  obeys_iff.mpr ⟨h.tag, inside⟩

theorem Obeys.modifyChild (h : e.Obeys rule) (name : String) {f : Element → Element}
    (keeps : ∀ child, child.Obeys rule → (f child).Obeys rule) :
    (e.modifyChild name f).Obeys rule := by
  refine h.of_children fun node mem => ?_
  have inside := (obeys_iff.mp h).2
  rcases mem_modifyFirst mem with same | ⟨child, old, rfl⟩
  · exact inside node same
  · exact keeps child (inside _ old)

theorem Obeys.mapElements (h : e.Obeys rule) {f : Element → Element}
    (keeps : ∀ child, child.Obeys rule → (f child).Obeys rule) :
    (e.mapElements f).Obeys rule := by
  refine h.of_children fun node mem => ?_
  obtain ⟨old, source, rfl⟩ := List.mem_map.mp mem
  have inside := (obeys_iff.mp h).2 old source
  cases old with
  | element child => exact keeps child inside
  | text chars => exact inside
  | cdata chars => exact inside
  | comment chars => exact inside
  | instruction chars => exact inside

theorem Obeys.removeChildren (h : e.Obeys rule) (name : String) :
    (e.removeChildren name).Obeys rule :=
  h.of_children fun node mem => (obeys_iff.mp h).2 node (List.mem_filter.mp mem).1

theorem Obeys.push (h : e.Obeys rule) {node : Node} (new : node.Obeys rule) :
    (e.push node).Obeys rule := by
  refine h.of_children fun other mem => ?_
  rcases List.mem_append.mp mem with mem | mem
  · exact (obeys_iff.mp h).2 other mem
  · rw [List.mem_singleton.mp mem]
    exact new

end Element

/-! ## Merging texts -/

theorem nodesObey_append {rule : Rule} {before after : List Node} :
    NodesObey rule (before ++ after) ↔ NodesObey rule before ∧ NodesObey rule after := by
  rw [nodesObey_iff, nodesObey_iff, nodesObey_iff, List.forall_mem_append]

theorem nodesObey_textNodes {rule : Rule} (text : ∀ chars, rule.leaf (.text chars))
    (chars : String) : NodesObey rule (textNodes chars) := by
  rw [textNodes]
  split
  · trivial
  · exact ⟨text chars, trivial⟩

mutual

/-- Merging keeps a rule that allows all texts. -/
theorem Element.Obeys.merged {rule : Rule} (text : ∀ chars, rule.leaf (.text chars)) :
    ∀ {e : Element}, e.Obeys rule → e.merged.Obeys rule
  | ⟨_, _, children⟩, ⟨tag, inner⟩ => by
      rw [Element.merged]
      exact ⟨tag, nodesObey_mergeTexts text children "" inner⟩

theorem nodesObey_mergeTexts {rule : Rule} (text : ∀ chars, rule.leaf (.text chars)) :
    ∀ (nodes : List Node) (pending : String), NodesObey rule nodes →
      NodesObey rule (mergeTexts pending nodes)
  | [], pending, _ => nodesObey_textNodes text pending
  | .text _ :: nodes, _, ⟨_, rest⟩ => nodesObey_mergeTexts text nodes _ rest
  | .element _ :: nodes, pending, ⟨first, rest⟩ =>
      nodesObey_append.mpr ⟨nodesObey_textNodes text pending, Element.Obeys.merged text first,
        nodesObey_mergeTexts text nodes "" rest⟩
  | .cdata _ :: nodes, pending, ⟨first, rest⟩ =>
      nodesObey_append.mpr ⟨nodesObey_textNodes text pending, first,
        nodesObey_mergeTexts text nodes "" rest⟩
  | .comment _ :: nodes, pending, ⟨first, rest⟩ =>
      nodesObey_append.mpr ⟨nodesObey_textNodes text pending, first,
        nodesObey_mergeTexts text nodes "" rest⟩
  | .instruction _ :: nodes, pending, ⟨first, rest⟩ =>
      nodesObey_append.mpr ⟨nodesObey_textNodes text pending, first,
        nodesObey_mergeTexts text nodes "" rest⟩

end

end SheetFill.Xml
