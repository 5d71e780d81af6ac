import SheetFill.Proofs.SharedStrings.Part
import SheetFill.Proofs.Worksheet.Trace

/-!
# The indices of new strings

The table of strings is used in two ways: a caller asks for the index of a text or counts a cell
that points into the table, and a whole worksheet is filled. Filling a worksheet is a run of the two
operations (`run_fillSheet`), so whatever is done to a table is one run, and its answers are the
texts with the indices that were given for them.

At every moment of a run the written part and the answers agree (`InStep`): there is one item for
each entry of the template, in its order, then one for each new string. An answer names the item
that shows its text, and it does so for the rest of the run (`inStep_afterUses`).

The index of a text is found by a search in the list of new strings. A table that keeps a hash index
of them gives the same answers in any run (`IndexedTable.run_eq`).
-/

namespace SheetFill

open Xml

/-! ## Runs of operations -/

/-- What a caller does to the table of strings. -/
inductive TableOperation where
  /-- The index of a text is asked for. -/
  | intern (text : String)
  /-- A cell that points into the table is counted. -/
  | countUse
deriving DecidableEq

namespace StringTable

/-- The table after one operation. -/
def apply (table : StringTable) : TableOperation → StringTable
  | .intern text => (table.intern text).2
  | .countUse => table.countUse

/-- The table after some operations. -/
def run (table : StringTable) : List TableOperation → StringTable
  | [] => table
  | operation :: operations => (table.apply operation).run operations

/-- The texts that some operations ask for, with the indices that are given for them. -/
def answers (table : StringTable) : List TableOperation → List (String × Nat)
  | [] => []
  | .intern text :: operations =>
      (text, (table.intern text).1) :: (table.intern text).2.answers operations
  | .countUse :: operations => table.countUse.answers operations

@[simp] theorem run_nil (table : StringTable) : table.run [] = table := rfl

@[simp] theorem run_cons (table : StringTable) (operation : TableOperation)
    (operations : List TableOperation) :
    table.run (operation :: operations) = (table.apply operation).run operations := rfl

theorem run_append (table : StringTable) (before after : List TableOperation) :
    table.run (before ++ after) = (table.run before).run after := by
  induction before generalizing table with
  | nil => rfl
  | cons operation before ih => exact ih (table.apply operation)

theorem answers_append (table : StringTable) (before after : List TableOperation) :
    table.answers (before ++ after) =
      table.answers before ++ (table.run before).answers after := by
  induction before generalizing table with
  | nil => rfl
  | cons operation before ih => cases operation <;> simp [answers, ih, apply]

theorem growsTo_apply (table : StringTable) (operation : TableOperation) :
    table.GrowsTo (table.apply operation) := by
  cases operation with
  | intern text => exact table.growsTo_intern text
  | countUse => exact table.growsTo_countUse

theorem growsTo_run (table : StringTable) (operations : List TableOperation) :
    table.GrowsTo (table.run operations) := by
  induction operations generalizing table with
  | nil => exact .refl table
  | cons operation operations ih => exact (table.growsTo_apply operation).trans (ih _)

/-! ## Answers -/

/-- An answer is the place of its text in the table at the end of the run: the text is there from
the moment on at which the answer is given, and new strings do not move. -/
theorem place_of_mem_answers {table : StringTable} {operations : List TableOperation}
    {answer : String × Nat} (mem : answer ∈ table.answers operations) :
    answer.1 ∈ (table.run operations).added ∧
      answer.2 = table.entries.length + (table.run operations).added.idxOf answer.1 := by
  induction operations generalizing table with
  | nil => cases mem
  | cons operation operations ih =>
      have entries := (table.growsTo_apply operation).entries
      cases operation with
      | intern text =>
          rcases List.mem_cons.mp mem with rfl | mem
          · have later := (table.intern text).2.growsTo_run operations
            refine ⟨later.mem_added, ?_⟩
            rw [← later.intern_fst, intern, later.entries, (table.growsTo_intern text).entries]
            rfl
          · have place := ih mem
            rwa [(table.growsTo_intern text).entries] at place
      | countUse => exact ih mem

theorem added_apply (table : StringTable) (operation : TableOperation) :
    (table.apply operation).added = table.added ∨
      ∃ text, operation = .intern text ∧ text ∉ table.added ∧
        (table.apply operation).added = table.added ++ [text] := by
  cases operation with
  | countUse => exact .inl rfl
  | intern text =>
      simp only [apply, intern]
      split
      · exact .inl rfl
      · rename_i new
        exact .inr ⟨text, rfl, fun mem => new (List.idxOf_lt_length_iff.mpr mem), rfl⟩

/-- New strings are kept once. -/
theorem nodup_added_run {table : StringTable} (distinct : table.added.Nodup)
    (operations : List TableOperation) : (table.run operations).added.Nodup := by
  induction operations generalizing table with
  | nil => exact distinct
  | cons operation operations ih =>
      refine ih ?_
      rcases table.added_apply operation with same | ⟨text, -, fresh, longer⟩
      · rwa [same]
      · rw [longer]
        exact List.nodup_append.mpr ⟨distinct, List.pairwise_singleton _ _, by
          intro old mem new single
          rw [List.mem_singleton.mp single]
          exact fun same => fresh (same ▸ mem)⟩

/-- A string of the table was there at the start, or it was asked for. -/
theorem mem_added_run {table : StringTable} {operations : List TableOperation} {text : String}
    (mem : text ∈ (table.run operations).added) :
    text ∈ table.added ∨ ∃ index, (text, index) ∈ table.answers operations := by
  induction operations generalizing table with
  | nil => exact .inl mem
  | cons operation operations ih =>
      have later : text ∈ (table.apply operation).added → text ∈ table.added ∨
          ∃ index, (text, index) ∈ table.answers (operation :: operations) := by
        intro known
        rcases table.added_apply operation with same | ⟨asked, rfl, -, longer⟩
        · exact .inl (same ▸ known)
        · rw [longer] at known
          rcases List.mem_append.mp known with old | new
          · exact .inl old
          · rw [List.mem_singleton.mp new]
            exact .inr ⟨_, List.mem_cons_self ..⟩
      rcases ih mem with known | ⟨index, answer⟩
      · exact later known
      · refine .inr ⟨index, ?_⟩
        cases operation with
        | intern asked => exact List.mem_cons_of_mem _ answer
        | countUse => exact answer

end StringTable

/-! ## A hash index of the new strings -/

/-- A table with a hash index that has each new string with its index in the table, and no other
text. -/
structure IndexedTable where
  /-- The table. -/
  table : StringTable
  /-- The hash index. -/
  index : Std.HashMap String Nat
  /-- The hash index is that of the table. -/
  indexes : ∀ text, index[text]? =
    if text ∈ table.added then some (table.entries.length + table.added.idxOf text) else none

namespace IndexedTable

/-- The table of a template has no new strings yet. -/
def ofDocument (document : Option Document) (data : Value) : IndexedTable :=
  ⟨.ofDocument document data, ∅, fun _ => Std.HashMap.getElem?_empty⟩

/-- A text that is not in the hash index can be added to it and to the table. -/
theorem indexes_insert (indexed : IndexedTable) {text : String}
    (absent : indexed.index[text]? = none) (other : String) :
    (indexed.index.insert text
        (indexed.table.entries.length + indexed.table.added.length))[other]? =
      if other ∈ indexed.table.added ++ [text] then
        some (indexed.table.entries.length + (indexed.table.added ++ [text]).idxOf other)
      else none := by
  have new : text ∉ indexed.table.added := by
    intro old
    rw [indexed.indexes, if_pos old] at absent
    cases absent
  rw [Std.HashMap.getElem?_insert]
  by_cases same : text = other
  · subst same
    simp [new, List.idxOf_append]
  · have different : ¬ other = text := fun same' => same same'.symm
    by_cases old : other ∈ indexed.table.added
    · simp [same, old, List.idxOf_append, indexed.indexes]
    · simp [same, different, old, indexed.indexes]

/-- The index of a text, looked up in the hash index, and the table that has it. -/
def intern (indexed : IndexedTable) (text : String) : Nat × IndexedTable :=
  match found : indexed.index[text]? with
  | some place => (place, indexed)
  | none =>
      let place := indexed.table.entries.length + indexed.table.added.length
      (place, ⟨{ indexed.table with added := indexed.table.added ++ [text] },
        indexed.index.insert text place, indexed.indexes_insert found⟩)

/-- The table with one more cell that points into it. -/
def countUse (indexed : IndexedTable) : IndexedTable :=
  ⟨indexed.table.countUse, indexed.index, indexed.indexes⟩

/-- The answers to some operations, and the table after them. -/
def run (indexed : IndexedTable) : List TableOperation → List (String × Nat) × StringTable
  | [] => ([], indexed.table)
  | .intern text :: operations =>
      let after := (indexed.intern text).2.run operations
      ((text, (indexed.intern text).1) :: after.1, after.2)
  | .countUse :: operations => indexed.countUse.run operations

/-- What is looked up is what the table itself finds. -/
theorem intern_eq (indexed : IndexedTable) (text : String) :
    (indexed.intern text).1 = (indexed.table.intern text).1 ∧
      (indexed.intern text).2.table = (indexed.table.intern text).2 := by
  have known := indexed.indexes text
  rw [intern, StringTable.intern]
  split
  · rename_i place found
    rw [found] at known
    split at known
    · rename_i old
      rw [if_pos (List.idxOf_lt_length_iff.mpr old)]
      exact ⟨Option.some.inj known, rfl⟩
    · cases known
  · rename_i found
    rw [found] at known
    split at known
    · cases known
    · rename_i new
      rw [if_neg fun less => new (List.idxOf_lt_length_iff.mp less), List.idxOf_eq_length new]
      exact ⟨rfl, rfl⟩

/-- In any run a table with a hash index gives the answers of the table without it. -/
theorem run_eq (indexed : IndexedTable) (operations : List TableOperation) :
    indexed.run operations = (indexed.table.answers operations, indexed.table.run operations) := by
  induction operations generalizing indexed with
  | nil => rfl
  | cons operation operations ih =>
      cases operation with
      | intern text =>
          obtain ⟨place, table⟩ := indexed.intern_eq text
          rw [run, ih, place, table]
          rfl
      | countUse => exact ih indexed.countUse

end IndexedTable

namespace StringTable

/-! ## The part at every moment -/

/-- A table of the template with a given part, filled from data, agrees with the answers that were
given up to now. -/
structure InStep (document : Option Document) (data : Value) (table : StringTable)
    (given : List (String × Nat)) : Prop where
  /-- The part of the table lists items, and then the other elements of the template's part in their
  order. -/
  children : table.toPart.root.children = (sharedItems table.toPart ++
    (document.elim [] fun d => d.root.elements.filter fun e => e.name != "si")).map Node.element
  /-- There is an item for each entry of the template and for each new string. -/
  length : (sharedItems table.toPart).length =
    (document.elim [] sharedItems).length + table.added.length
  /-- The part says how many items it has. -/
  uniqueCount : table.toPart.root.attr? "uniqueCount" =
    some (Text.Numeral.text (sharedItems table.toPart).length)
  /-- An entry of the template stays at its index, and it stays as it is unless it has placeholders
  and other text. -/
  kept : ∀ (i : Nat) (item : Element), (document.elim [] sharedItems)[i]? = some item →
    (sharedItems table.toPart)[i]? =
      some (if table.kind? i = some .mixed then fillItem data item else item)
  /-- The item at the index of an entry shows the text of the entry. -/
  entryText : ∀ i < (document.elim [] sharedItems).length,
    (sharedItems table.toPart)[i]?.map visibleText = table.text? i
  /-- The new strings are the texts that were asked for, each once. -/
  added : table.added.Nodup ∧ ∀ text, text ∈ table.added ↔ ∃ index, (text, index) ∈ given
  /-- The indices that were given are those after the entries of the template, up to the number of
  new strings. -/
  bounds : ∀ answer ∈ given, (document.elim [] sharedItems).length ≤ answer.2 ∧
    answer.2 < (document.elim [] sharedItems).length + table.added.length
  /-- Equal texts have equal indices, and different texts have different ones. -/
  same : ∀ answer ∈ given, ∀ other ∈ given, answer.2 = other.2 ↔ answer.1 = other.1
  /-- The item with the index of a text shows that text. -/
  shown : ∀ answer ∈ given,
    (sharedItems table.toPart)[answer.2]?.map visibleText = some answer.1

end StringTable

theorem Entry.ofItem_eq (data : Value) (item : Element) :
    (Entry.ofItem data item).item =
      if (Entry.ofItem data item).kind = .mixed then fillItem data item else item := by
  rw [ofItem]
  split
  · rfl
  · split <;> rfl

namespace StringTable

section Moment

variable {document : Option Document} {data : Value} {table : StringTable}

theorem length_entries (grown : (ofDocument document data).GrowsTo table) :
    table.entries.length = (document.elim [] sharedItems).length := by
  rw [grown.entries_eq, List.length_map]
  cases document <;> rfl

theorem children_toPart (grown : (ofDocument document data).GrowsTo table) :
    table.toPart.root.children = (sharedItems table.toPart ++
      (document.elim [] fun d => d.root.elements.filter fun e => e.name != "si")).map
        Node.element := by
  have others : (document.elim [] fun d => d.root.elements.filter fun e => e.name != "si") =
      (table.document.getD emptyDocument).root.elements.filter fun e => e.name != "si" := by
    rw [grown.document]
    cases document <;> rfl
  rw [sharedItems_toPart grown, others]
  rfl

theorem uniqueCount_toPart (grown : (ofDocument document data).GrowsTo table) :
    table.toPart.root.attr? "uniqueCount" =
      some (Text.Numeral.text (sharedItems table.toPart).length) := by
  rw [sharedItems_toPart grown]
  exact Element.attr?_setAttr_self _ _ _

/-- An entry of the template is written at its index. -/
theorem getElem?_entry (grown : (ofDocument document data).GrowsTo table) {i : Nat}
    {item : Element} (found : (document.elim [] sharedItems)[i]? = some item) :
    (sharedItems table.toPart)[i]? =
      some (if table.kind? i = some .mixed then fillItem data item else item) := by
  have entry : table.entries[i]? = some (Entry.ofItem data item) := by
    have items : (document.map sharedItems).getD [] = document.elim [] sharedItems := by
      cases document <;> rfl
    rw [grown.entries_eq, items, List.getElem?_map, found]
    rfl
  have inside : i < (table.entries.map Entry.item).length := by
    rw [List.length_map]
    exact (List.getElem?_eq_some_iff.mp entry).1
  rw [sharedItems_toPart grown, List.getElem?_append_left inside, List.getElem?_map, entry,
    StringTable.kind?, entry]
  simp only [Option.map_some, Option.some.injEq]
  exact Entry.ofItem_eq data item

theorem map_visibleText_entry (grown : (ofDocument document data).GrowsTo table) {i : Nat}
    (inside : i < (document.elim [] sharedItems).length) :
    (sharedItems table.toPart)[i]?.map visibleText = table.text? i := by
  rw [← length_entries grown, ← table.entries.length_map Entry.item] at inside
  rw [sharedItems_toPart grown, List.getElem?_append_left inside, List.getElem?_map, text?,
    Option.map_map]
  rfl

/-- A new string is written at the index that it has. -/
theorem getElem?_added (grown : (ofDocument document data).GrowsTo table) {text : String}
    (mem : text ∈ table.added) :
    (sharedItems table.toPart)[(document.elim [] sharedItems).length +
      table.added.idxOf text]? = some (plainItem text) := by
  have inside := List.idxOf_lt_length_iff.mpr mem
  rw [sharedItems_toPart grown, ← length_entries grown, List.getElem?_append_right (by simp)]
  simp [List.getElem?_eq_getElem inside]

/-- A run that starts from the table of the template is in step with its answers. -/
theorem inStep_run (document : Option Document) (data : Value)
    (operations : List TableOperation) :
    InStep document data ((ofDocument document data).run operations)
      ((ofDocument document data).answers operations) := by
  have grown := (ofDocument document data).growsTo_run operations
  have place : ∀ answer ∈ (ofDocument document data).answers operations,
      answer.1 ∈ ((ofDocument document data).run operations).added ∧
        answer.2 = (document.elim [] sharedItems).length +
          ((ofDocument document data).run operations).added.idxOf answer.1 := by
    intro answer mem
    have place := place_of_mem_answers mem
    rwa [length_entries (.refl _)] at place
  have distinct : (ofDocument document data).added.Nodup := .nil
  refine ⟨children_toPart grown, ?_, uniqueCount_toPart grown, fun i item => getElem?_entry grown,
    fun i => map_visibleText_entry grown, ⟨nodup_added_run distinct operations,
      fun text => ⟨fun mem => ?_, fun ⟨index, answer⟩ => ?_⟩⟩, fun answer mem => ?_,
    fun answer mem other mem' => ?_, fun answer mem => ?_⟩
  · rw [sharedItems_toPart grown, List.length_append, List.length_map, List.length_map,
      length_entries grown]
  · rcases mem_added_run mem with old | asked
    · cases old
    · exact asked
  · exact (place _ answer).1
  · have inside := List.idxOf_lt_length_iff.mpr (place answer mem).1
    rw [(place answer mem).2]
    omega
  · rw [(place answer mem).2, (place other mem').2, Nat.add_left_cancel_iff]
    exact List.idxOf_inj (place answer mem).1
  · rw [(place answer mem).2, getElem?_added grown (place answer mem).1, Option.map_some,
      visibleText_plainItem]

end Moment

end StringTable

/-! ## Worksheets as runs -/

/-- What writing a cell does to the table of strings. -/
def PlacedCell.operations (cell : PlacedCell) : List TableOperation :=
  match cell.body with
  | .copied template => if template.attr? "t" = some "s" then [.countUse] else []
  | .filled _ (some (.text text)) => [.intern text, .countUse]
  | _ => []

/-- What writing an element of the filled sheet does to the table of strings. -/
def PlacedItem.operations : PlacedItem → List TableOperation
  | .row r => r.cells.flatMap PlacedCell.operations
  | .other _ => []

/-- What filling a worksheet does to the table of strings. -/
def sheetOperations (options : FillOptions) (data : Value) (table : StringTable)
    (template : Document) : List TableOperation :=
  let items := planRows table data 1 (sheetElements template)
  (SheetItem.layout options (SheetItem.log items) 0 items).flatMap PlacedItem.operations

theorem run_writeCell (table : StringTable) (row : Nat) (cell : PlacedCell) :
    (writeCell table row cell).2 = table.run cell.operations := by
  obtain ⟨column, body⟩ := cell
  rcases body with template | template | ⟨template, _ | _ | _ | text⟩
  · simp only [writeCell, PlacedCell.operations]
    split <;> rfl
  all_goals rfl

theorem run_writeCells (table : StringTable) (row : Nat) (cells : List PlacedCell) :
    (writeCells table row cells).2 = table.run (cells.flatMap PlacedCell.operations) := by
  induction cells generalizing table with
  | nil => rfl
  | cons cell cells ih =>
      rw [List.flatMap_cons, StringTable.run_append, ← run_writeCell table row cell]
      exact ih _

theorem run_writeItems (table : StringTable) (items : List PlacedItem) :
    (writeItems table items).2 = table.run (items.flatMap PlacedItem.operations) := by
  induction items generalizing table with
  | nil => rfl
  | cons item items ih =>
      cases item with
      | row r =>
          rw [List.flatMap_cons, StringTable.run_append, PlacedItem.operations,
            ← run_writeCells table r.number r.cells]
          exact ih _
      | other e => exact ih table

/-- Filling a worksheet does nothing to the table but the two operations. -/
theorem run_fillSheet (options : FillOptions) (data : Value) (table : StringTable)
    (template : Document) :
    (fillSheet options data table template).2 =
      table.run (sheetOperations options data table template) :=
  run_writeItems table _

/-! ## Any use of the table -/

/-- One use of the table of strings. -/
inductive TableUse where
  /-- An operation of a caller. -/
  | direct (operation : TableOperation)
  /-- A worksheet is filled. -/
  | sheet (options : FillOptions) (data : Value) (template : Document)

namespace StringTable

/-- The table after one use. -/
def use (table : StringTable) : TableUse → StringTable
  | .direct operation => table.apply operation
  | .sheet options data template => (fillSheet options data table template).2

/-- The table after some uses. -/
def afterUses (table : StringTable) : List TableUse → StringTable
  | [] => table
  | use :: uses => (table.use use).afterUses uses

/-- The operations of one use. -/
def useOperations (table : StringTable) : TableUse → List TableOperation
  | .direct operation => [operation]
  | .sheet options data template => sheetOperations options data table template

/-- The operations of some uses, one after another. -/
def operations (table : StringTable) : List TableUse → List TableOperation
  | [] => []
  | use :: uses => table.useOperations use ++ (table.use use).operations uses

theorem use_eq_run (table : StringTable) (use : TableUse) :
    table.use use = table.run (table.useOperations use) := by
  cases use with
  | direct operation => rfl
  | sheet options data template => exact run_fillSheet options data table template

theorem afterUses_eq_run (table : StringTable) (uses : List TableUse) :
    table.afterUses uses = table.run (table.operations uses) := by
  induction uses generalizing table with
  | nil => rfl
  | cons use uses ih =>
      rw [operations, run_append, ← use_eq_run]
      exact ih _

/-- At every moment of any use of a table, the part of the table is in step with the answers up to
then, and what an answer names then is what it names at the end. -/
theorem inStep_afterUses (document : Option Document) (data : Value) (uses : List TableUse)
    (moment : Nat) :
    let start := ofDocument document data
    let operations := start.operations uses
    let now := start.run (operations.take moment)
    let given := start.answers (operations.take moment)
    InStep document data now given ∧
      InStep document data (start.afterUses uses) (start.answers operations) ∧
      given <+: start.answers operations ∧
      ∀ answer ∈ given, (sharedItems (start.afterUses uses).toPart)[answer.2]? =
        (sharedItems now.toPart)[answer.2]? := by
  intro start operations now given
  have whole : start.afterUses uses = start.run operations := start.afterUses_eq_run uses
  have earlier : given <+: start.answers operations := by
    refine ⟨now.answers (operations.drop moment), ?_⟩
    rw [← answers_append, List.take_append_drop]
  have final : InStep document data (start.afterUses uses) (start.answers operations) := by
    rw [whole]
    exact inStep_run document data operations
  refine ⟨inStep_run document data _, final, earlier, fun answer mem => ?_⟩
  have grown : start.GrowsTo now := start.growsTo_run _
  have finished : start.GrowsTo (start.run operations) := start.growsTo_run _
  have place := place_of_mem_answers mem
  have place' := place_of_mem_answers (earlier.subset mem)
  rw [length_entries (.refl _)] at place place'
  rw [whole, place.2, getElem?_added grown place.1, ← place.2, place'.2,
    getElem?_added finished place'.1]

end StringTable

end SheetFill
