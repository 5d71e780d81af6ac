import SheetFill.Xml.Tree

/-!
# Child elements and attributes

What the functions that read a tree see after one of those that change it: a child that was changed
is the changed one, all others are as they were, and an attribute has the value that it was given
last.
-/

namespace SheetFill.Xml

namespace Element

/-! ## Attributes -/

theorem find?_setIn_self (key value : String) (attributes : List (String × String)) :
    ((setIn key value attributes).find? fun pair => pair.1 == key) = some (key, value) := by
  induction attributes with
  | nil => simp [setIn]
  | cons pair attributes ih =>
      obtain ⟨k, v⟩ := pair
      rw [setIn]
      split
      · rename_i same
        simp [same]
      · rename_i different
        simp [different, ih]

theorem find?_setIn_of_ne {key other : String} (different : other ≠ key) (value : String)
    (attributes : List (String × String)) :
    ((setIn key value attributes).find? fun pair => pair.1 == other) =
      attributes.find? fun pair => pair.1 == other := by
  induction attributes with
  | nil => simp [setIn, Ne.symm different]
  | cons pair attributes ih =>
      obtain ⟨k, v⟩ := pair
      rw [setIn]
      split
      · rename_i same
        simp [same, Ne.symm different]
      · rw [List.find?_cons, List.find?_cons, ih]

@[simp] theorem attr?_setAttr_self (e : Element) (key value : String) :
    (e.setAttr key value).attr? key = some value := by
  rw [attr?, setAttr, find?_setIn_self]
  rfl

theorem attr?_setAttr_of_ne (e : Element) {key other : String} (different : other ≠ key)
    (value : String) : (e.setAttr key value).attr? other = e.attr? other := by
  rw [attr?, setAttr, find?_setIn_of_ne different]
  rfl

/-- An attribute that is set to its own value stays. -/
theorem setAttr_of_attr? {e : Element} {key value : String} (own : e.attr? key = some value) :
    e.setAttr key value = e := by
  obtain ⟨name, attributes, children⟩ := e
  refine congrArg (Element.mk name · children) ?_
  rw [attr?] at own
  induction attributes with
  | nil => cases own
  | cons pair attributes ih =>
      obtain ⟨k, v⟩ := pair
      rw [List.find?_cons] at own
      by_cases same : k = key
      · simp_all [setIn]
      · have later : (k == key) = false := beq_false_of_ne same
        rw [later] at own
        rw [setIn, if_neg same, ih own]

theorem attr?_removeAttr_self (e : Element) (key : String) : (e.removeAttr key).attr? key = none := by
  rw [attr?, removeAttr, Option.map_eq_none_iff, List.find?_eq_none]
  intro pair mem
  have kept := (List.mem_filter.mp mem).2
  simpa using kept

theorem attr?_removeAttr_of_ne (e : Element) {key other : String} (different : other ≠ key) :
    (e.removeAttr key).attr? other = e.attr? other := by
  rw [attr?, removeAttr, List.find?_filter]
  congr 2
  funext pair
  by_cases same : pair.1 = other
  · simp [same, different]
  · simp [same]

theorem filter_setIn_self (key value : String) (attributes : List (String × String)) :
    (setIn key value attributes).filter (fun pair => pair.1 != key) =
      attributes.filter fun pair => pair.1 != key := by
  induction attributes with
  | nil => simp [setIn]
  | cons pair attributes ih =>
      obtain ⟨k, v⟩ := pair
      rw [setIn]
      split
      · rename_i same
        simp [same]
      · rw [List.filter_cons, List.filter_cons, ih]

theorem filter_setIn_of_ne {key other : String} (different : other ≠ key) (value : String)
    (attributes : List (String × String)) :
    (setIn key value attributes).filter (fun pair => pair.1 != other) =
      setIn key value (attributes.filter fun pair => pair.1 != other) := by
  induction attributes with
  | nil => simp [setIn, Ne.symm different]
  | cons pair attributes ih =>
      obtain ⟨k, v⟩ := pair
      by_cases same : k = key
      · simp [setIn, same, Ne.symm different]
      · by_cases removed : k = other
        · subst removed
          simp [setIn, different, ih]
        · simp [setIn, same, removed, ih]

/-- An attribute that is removed leaves no trace of what it was set to. -/
theorem removeAttr_setAttr_self (e : Element) (key value : String) :
    (e.setAttr key value).removeAttr key = e.removeAttr key :=
  congrArg (Element.mk e.name · e.children) (filter_setIn_self key value e.attributes)

theorem removeAttr_setAttr_of_ne (e : Element) {key other : String} (different : other ≠ key)
    (value : String) : (e.setAttr key value).removeAttr other = (e.removeAttr other).setAttr key value :=
  congrArg (Element.mk e.name · e.children) (filter_setIn_of_ne different value e.attributes)

theorem removeAttr_comm (e : Element) (key other : String) :
    (e.removeAttr key).removeAttr other = (e.removeAttr other).removeAttr key := by
  refine congrArg (Element.mk e.name · e.children) ?_
  show List.filter _ (List.filter _ _) = List.filter _ (List.filter _ _)
  rw [List.filter_filter, List.filter_filter]
  exact List.filter_congr fun pair _ => Bool.and_comm ..

/-! ## Child elements -/

@[simp] theorem elements_children (name : String) (attributes : List (String × String))
    (children : List Element) :
    (⟨name, attributes, children.map Node.element⟩ : Element).elements = children := by
  rw [elements, List.filterMap_map]
  exact List.filterMap_some

theorem child?_of_noChild {e : Element} {name : String} (noChild : e.hasChild name = false) :
    e.child? name = none :=
  Option.isNone_iff_eq_none.mp (Option.isSome_eq_false_iff.mp noChild)

@[simp] theorem elements_setAttr (e : Element) (key value : String) :
    (e.setAttr key value).elements = e.elements := rfl

theorem elements_push (e : Element) (node : Node) :
    (e.push node).elements = e.elements ++ node.element?.toList := by
  rw [elements, push, List.filterMap_append]
  cases found : node.element? with
  | none => simp [elements, found]
  | some child => simp [elements, found]

theorem elements_mapElements (e : Element) (f : Element → Element) :
    (e.mapElements f).elements = e.elements.map f := by
  rw [elements, mapElements, elements]
  induction e.children with
  | nil => rfl
  | cons node nodes ih =>
      cases node with
      | element child => exact congrArg (f child :: ·) ih
      | text chars => exact ih
      | cdata chars => exact ih
      | comment chars => exact ih
      | instruction chars => exact ih

theorem mapElements_mapElements (e : Element) (f g : Element → Element) :
    (e.mapElements f).mapElements g = e.mapElements (g ∘ f) := by
  have node : mapNode g ∘ mapNode f = mapNode (g ∘ f) := by
    funext node
    cases node <;> rfl
  rw [mapElements, mapElements, List.map_map, node, mapElements]

/-- A change of the first child of a name is seen by those who look for it. -/
theorem child?_modifyChild (e : Element) {name : String} {f : Element → Element}
    (keeps : ∀ child, child.name = name → (f child).name = name) :
    (e.modifyChild name f).child? name = (e.child? name).map f := by
  rw [child?, child?, elements, elements, modifyChild]
  induction e.children with
  | nil => rfl
  | cons node nodes ih =>
      cases node with
      | element child =>
          rw [modifyFirst]
          split
          · rename_i same
            simp [Node.element?, same, keeps child same]
          · rename_i different
            simpa [Node.element?, different] using ih
      | text chars => exact ih
      | cdata chars => exact ih
      | comment chars => exact ih
      | instruction chars => exact ih

/-- A change of the first child of a name is not seen by those who look for another one. -/
theorem child?_modifyChild_of_ne (e : Element) {name other : String} (different : other ≠ name)
    {f : Element → Element} (keeps : ∀ child, child.name = name → (f child).name = name) :
    (e.modifyChild name f).child? other = e.child? other := by
  rw [child?, child?, elements, elements, modifyChild]
  induction e.children with
  | nil => rfl
  | cons node nodes ih =>
      cases node with
      | element child =>
          rw [modifyFirst]
          split
          · rename_i same
            simp [Node.element?, same, keeps child same, Ne.symm different]
          · simp only [List.filterMap_cons, Node.element?, List.find?_cons, ih]
      | text chars => exact ih
      | cdata chars => exact ih
      | comment chars => exact ih
      | instruction chars => exact ih

/-- A change of the first child of a name leaves the children of other names alone. -/
theorem filter_ne_modifyChild (e : Element) {name : String} {f : Element → Element}
    (keeps : ∀ child, child.name = name → (f child).name = name) :
    (e.modifyChild name f).elements.filter (fun child => child.name != name) =
      e.elements.filter fun child => child.name != name := by
  rw [elements, elements, modifyChild]
  induction e.children with
  | nil => rfl
  | cons node nodes ih =>
      cases node with
      | element child =>
          rw [modifyFirst]
          split
          · rename_i same
            simp [Node.element?, same, keeps child same]
          · rename_i different
            simpa [Node.element?, different] using ih
      | text chars => exact ih
      | cdata chars => exact ih
      | comment chars => exact ih
      | instruction chars => exact ih

/-- The first child of a name is the one that is changed. -/
theorem filter_eq_modifyChild (e : Element) {name : String} {f : Element → Element}
    (keeps : ∀ child, child.name = name → (f child).name = name) :
    (e.modifyChild name f).elements.filter (fun child => child.name == name) =
      (e.elements.filter fun child => child.name == name).modifyHead f := by
  rw [elements, elements, modifyChild]
  induction e.children with
  | nil => rfl
  | cons node nodes ih =>
      cases node with
      | element child =>
          rw [modifyFirst]
          split
          · rename_i same
            simp [Node.element?, same, keeps child same]
          · rename_i different
            simpa [Node.element?, different] using ih
      | text chars => exact ih
      | cdata chars => exact ih
      | comment chars => exact ih
      | instruction chars => exact ih

/-- Only what a change makes of the first child of a name matters. -/
theorem modifyChild_congr {e : Element} {name : String} {f g : Element → Element}
    (same : ∀ child, e.child? name = some child → f child = g child) :
    e.modifyChild name f = e.modifyChild name g := by
  obtain ⟨ownName, attributes, children⟩ := e
  refine congrArg (Element.mk ownName attributes ·) ?_
  rw [child?, elements] at same
  dsimp only at same ⊢
  induction children with
  | nil => rfl
  | cons node nodes ih =>
      cases node with
      | element child =>
          rw [modifyFirst, modifyFirst]
          split
          · rename_i named
            rw [same child (by simp [Node.element?, named])]
          · rename_i other
            rw [ih fun later found => same later (by simpa [Node.element?, other] using found)]
      | text chars => exact congrArg (_ :: ·) (ih same)
      | cdata chars => exact congrArg (_ :: ·) (ih same)
      | comment chars => exact congrArg (_ :: ·) (ih same)
      | instruction chars => exact congrArg (_ :: ·) (ih same)

theorem modifyFirst_id (name : String) (nodes : List Node) :
    modifyFirst name (fun child => child) nodes = nodes := by
  induction nodes with
  | nil => rfl
  | cons node nodes ih => cases node <;> simp [modifyFirst, ih]

/-- A change that does nothing to the first child of a name does nothing. -/
theorem modifyChild_of_fixed {e : Element} {name : String} {f : Element → Element}
    (fixed : ∀ child, e.child? name = some child → f child = child) :
    e.modifyChild name f = e := by
  rw [modifyChild_congr fixed, modifyChild, modifyFirst_id]
  cases e
  rfl

/-- Two changes of the first child of a name are one. -/
theorem modifyChild_modifyChild (e : Element) {name : String} {f : Element → Element}
    (keeps : ∀ child, child.name = name → (f child).name = name) (g : Element → Element) :
    (e.modifyChild name f).modifyChild name g = e.modifyChild name fun child => g (f child) := by
  refine congrArg (Element.mk e.name e.attributes ·) ?_
  show modifyFirst name g (modifyFirst name f e.children) = modifyFirst name _ e.children
  induction e.children with
  | nil => rfl
  | cons node nodes ih =>
      cases node with
      | element child =>
          rw [modifyFirst, modifyFirst]
          split
          · rename_i same
            rw [modifyFirst, if_pos (keeps child same)]
          · rename_i different
            rw [modifyFirst, if_neg different, ih]
      | text chars => exact congrArg (_ :: ·) ih
      | cdata chars => exact congrArg (_ :: ·) ih
      | comment chars => exact congrArg (_ :: ·) ih
      | instruction chars => exact congrArg (_ :: ·) ih

theorem elements_removeChildren (e : Element) (name : String) :
    (e.removeChildren name).elements = e.elements.filter fun child => child.name != name := by
  rw [elements, elements, removeChildren]
  induction e.children with
  | nil => rfl
  | cons node nodes ih =>
      cases node with
      | element child =>
          by_cases removed : child.name = name
          · simpa [Node.isNamed, Node.element?, removed] using ih
          · simpa [Node.isNamed, Node.element?, removed] using ih
      | text chars => exact ih
      | cdata chars => exact ih
      | comment chars => exact ih
      | instruction chars => exact ih

theorem child?_removeChildren_self (e : Element) (name : String) :
    (e.removeChildren name).child? name = none := by
  rw [child?, elements_removeChildren, List.find?_eq_none]
  intro child mem named
  have other := (List.mem_filter.mp mem).2
  rw [bne, named] at other
  cases other

theorem removeChildren_of_none {e : Element} {name : String} (none : e.child? name = none) :
    e.removeChildren name = e := by
  have kept : e.children.filter (fun node => !node.isNamed name) = e.children := by
    refine List.filter_eq_self.mpr fun node mem => ?_
    cases node with
    | element child =>
        have other := List.find?_eq_none.mp none child (List.mem_filterMap.mpr ⟨_, mem, rfl⟩)
        simpa [Node.isNamed] using other
    | _ => rfl
  rw [removeChildren, kept]
  cases e
  rfl

/-- Children of other names stay. -/
theorem filter_removeChildren (e : Element) {name other : String} (different : other ≠ name) :
    (e.removeChildren name).elements.filter (fun child => child.name == other) =
      e.elements.filter fun child => child.name == other := by
  rw [elements_removeChildren, List.filter_filter]
  refine List.filter_congr fun child _ => ?_
  by_cases found : child.name = other
  · simp [found, different]
  · simp [found]

theorem child?_removeChildren (e : Element) {name other : String} (different : other ≠ name) :
    (e.removeChildren name).child? other = e.child? other := by
  rw [child?, child?, ← List.head?_filter, ← List.head?_filter, e.filter_removeChildren different]

/-- A change of all children that keeps their names is seen in the first one of a name. -/
theorem child?_mapElements (e : Element) (name : String) {f : Element → Element}
    (keeps : ∀ child, (f child).name = child.name) :
    (e.mapElements f).child? name = (e.child? name).map f := by
  rw [child?, elements_mapElements, List.find?_map, child?]
  have same : ((fun child : Element => child.name == name) ∘ f) = fun child => child.name == name := by
    funext child
    rw [Function.comp_apply, keeps child]
  rw [same]

/-- A change of all children, which keeps their names and those of one name, commutes with a change
of the first child of that name. -/
theorem modifyChild_mapElements (e : Element) {name : String} {f g : Element → Element}
    (keeps : ∀ child, (g child).name = child.name)
    (fixes : ∀ child, child.name = name → g child = child)
    (named : ∀ child, child.name = name → (f child).name = name) :
    (e.mapElements g).modifyChild name f = (e.modifyChild name f).mapElements g := by
  refine congrArg (Element.mk e.name e.attributes ·) ?_
  show modifyFirst name f (e.children.map (mapNode g)) = (modifyFirst name f e.children).map _
  induction e.children with
  | nil => rfl
  | cons node nodes ih =>
      cases node with
      | element child =>
          rw [List.map_cons, mapNode, modifyFirst, modifyFirst, keeps child]
          split
          · rename_i same
            rw [List.map_cons, mapNode, fixes child same, fixes (f child) (named child same)]
          · rw [List.map_cons, mapNode, ih]
      | text chars => exact congrArg (_ :: ·) ih
      | cdata chars => exact congrArg (_ :: ·) ih
      | comment chars => exact congrArg (_ :: ·) ih
      | instruction chars => exact congrArg (_ :: ·) ih

end Element

end SheetFill.Xml
