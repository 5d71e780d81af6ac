import SheetFill.Value.Basic

/-!
# Paths through sequences

A path that goes on with a key leads where that key leads from the end of its start
(`resolve_append`). If the start leads to a sequence, this is the field of every element, in order
and with null where an element has none (`resolve_fields`). So the fields of one element stand at
one place in all such sequences. Keys can be cut off from the end of any path (`resolve_append_keys`),
but an index cannot: behind a key that met a sequence it is a place in each element.
-/

namespace SheetFill

namespace Value

variable (key : String) (rest : List PathStep)

mutual

/-- A path that goes on with a key goes on from where its start leads to. Where the start leads
nowhere from an element of a sequence, it leads to null, and a key leads nowhere from there. -/
theorem resolve_append (v : Value) (start : List PathStep) :
    v.resolve (start ++ .key key :: rest) =
      (v.resolve start).bind (·.resolve (.key key :: rest)) := by
  cases start with
  | nil => cases v <;> rw [resolve] <;> rfl
  | cons step start =>
      rw [List.cons_append]
      cases v with
      | null =>
          rw [resolve, resolve]
          rfl
      | bool b =>
          rw [resolve, resolve]
          rfl
      | number x =>
          rw [resolve, resolve]
          rfl
      | text s =>
          rw [resolve, resolve]
          rfl
      | date d =>
          rw [resolve, resolve]
          rfl
      | sequence items =>
          cases step with
          | index i =>
              rw [resolve, resolve]
              exact resolveAt_append items i start
          | key k =>
              -- The path is the same for the elements: it is the value that gets smaller here.
              rw [resolve, resolve, Option.bind_some, resolve, resolveEach_append items k start,
                resolveEach_eq _ (.key key :: rest)]
      | mapping entries =>
          cases step with
          | key k =>
              rw [resolve, resolve]
              exact resolveField_append entries k start
          | index i =>
              rw [resolve, resolve]
              exact resolveField_append entries _ start

theorem resolveAt_append (items : List Value) (i : Nat) (start : List PathStep) :
    resolveAt items i (start ++ .key key :: rest) =
      (resolveAt items i start).bind (·.resolve (.key key :: rest)) := by
  cases items with
  | nil =>
      rw [resolveAt, resolveAt]
      rfl
  | cons v items =>
      cases i with
      | zero =>
          rw [resolveAt, resolveAt]
          exact resolve_append v start
      | succ i =>
          rw [resolveAt, resolveAt]
          exact resolveAt_append items i start

theorem resolveEach_append (items : List Value) (k : String) (start : List PathStep) :
    resolveEach items (.key k :: (start ++ .key key :: rest)) =
      (resolveEach items (.key k :: start)).map
        fun v => (v.resolve (.key key :: rest)).getD .null := by
  cases items with
  | nil => rw [resolveEach, resolveEach, List.map_nil]
  | cons v items =>
      rw [resolveEach, resolveEach, List.map_cons, resolveEach_append items k start]
      refine congrArg (· :: _) ?_
      have first := resolve_append v (.key k :: start)
      rw [List.cons_append] at first
      rw [first]
      cases v.resolve (.key k :: start) with
      | none =>
          rw [Option.bind_none, Option.getD_none, resolve]
          rfl
      | some found => rfl

theorem resolveField_append (entries : List (String × Value)) (k : String)
    (start : List PathStep) :
    resolveField entries k (start ++ .key key :: rest) =
      (resolveField entries k start).bind (·.resolve (.key key :: rest)) := by
  cases entries with
  | nil =>
      rw [resolveField, resolveField]
      rfl
  | cons entry entries =>
      obtain ⟨name, v⟩ := entry
      rw [resolveField, resolveField]
      split
      · exact resolve_append v start
      · exact resolveField_append entries k start

end

/-- The fields that the elements of a sequence have, in their order. -/
theorem resolve_fields {data : Value} {start : List PathStep} {items : List Value}
    (found : data.resolve start = some (.sequence items)) :
    data.resolve (start ++ .key key :: rest) =
      some (.sequence (items.map fun item => (item.resolve (.key key :: rest)).getD .null)) := by
  rw [resolve_append, found, Option.bind_some, resolve, resolveEach_eq]

/-- Keys at the end of a path lead on from where the path before them leads to, and nowhere if it
leads nowhere. -/
theorem resolve_append_keys (data : Value) (start : List PathStep) (keys : List String) :
    data.resolve (start ++ keys.map .key) =
      (data.resolve start).bind (·.resolve (keys.map .key)) := by
  cases keys with
  | nil =>
      have stays : ∀ v : Value, v.resolve [] = some v := by
        intro v
        cases v <;> rw [resolve]
      rw [List.map_nil, List.append_nil, funext stays]
      exact (Option.bind_fun_some _).symm
  | cons key keys => exact resolve_append key (keys.map .key) data start

/-- Two rows with a field each: behind the field, the index is a place in the field of each row. -/
example :
    let rows := sequence [mapping [("a", sequence [.bool true])], mapping [("a", .bool false)]]
    let start := [PathStep.key "a"]
    rows.resolve (start ++ [.index 0]) = some (sequence [.bool true, .null]) ∧
      (rows.resolve start).bind (·.resolve [.index 0]) = some (sequence [.bool true]) := by
  constructor
  · rfl
  · rfl

end Value

end SheetFill
