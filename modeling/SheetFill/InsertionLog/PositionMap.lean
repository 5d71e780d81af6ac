/-!
# Maps from positions

A finite map whose keys are positions. The entries stand in increasing order of position, each
position once, so two maps with the same contents are equal. `update` changes the entry of one
position; `sumWhere` adds up the amounts at the positions that satisfy a condition.
-/

namespace SheetFill

/-- A map from positions, in increasing order of position. -/
structure PositionMap (α : Type) where
  /-- Positions and what is recorded there. -/
  entries : List (Nat × α)
  /-- The positions increase. -/
  increasing : entries.Pairwise (fun a b => a.1 < b.1)
deriving DecidableEq

namespace PositionMap

variable {α : Type}

/-- The map without entries. -/
def empty : PositionMap α := ⟨[], List.Pairwise.nil⟩

/-- Whether the map has no entries. -/
def isEmpty (m : PositionMap α) : Bool := m.entries.isEmpty

/-- What is recorded at a position. -/
def get? (m : PositionMap α) (k : Nat) : Option α :=
  (m.entries.find? fun entry => entry.1 == k).map (·.2)

/-- Entries with the one at `k` changed by `f`, or put in its place. -/
def updateEntries (k : Nat) (f : Option α → α) : List (Nat × α) → List (Nat × α)
  | [] => [(k, f none)]
  | (j, a) :: rest =>
      if k < j then (k, f none) :: (j, a) :: rest
      else if k = j then (j, f (some a)) :: rest
      else (j, a) :: updateEntries k f rest

/-- An update adds no position but its own. -/
theorem fst_mem_updateEntries {k : Nat} {f : Option α → α} {entries : List (Nat × α)}
    {entry : Nat × α} (h : entry ∈ updateEntries k f entries) :
    entry.1 = k ∨ ∃ old ∈ entries, old.1 = entry.1 := by
  induction entries with
  | nil =>
      simp only [updateEntries, List.mem_singleton] at h
      exact Or.inl (by rw [h])
  | cons head rest ih =>
      obtain ⟨j, a⟩ := head
      simp only [updateEntries] at h
      split at h
      · rcases List.mem_cons.mp h with h | h
        · exact Or.inl (by rw [h])
        · exact Or.inr ⟨entry, h, rfl⟩
      · split at h
        · rcases List.mem_cons.mp h with h | h
          · exact Or.inr ⟨(j, a), List.mem_cons_self .., by rw [h]⟩
          · exact Or.inr ⟨entry, List.mem_cons_of_mem _ h, rfl⟩
        · rcases List.mem_cons.mp h with h | h
          · exact Or.inr ⟨(j, a), List.mem_cons_self .., by rw [h]⟩
          · rcases ih h with h | ⟨old, mem, eq⟩
            · exact Or.inl h
            · exact Or.inr ⟨old, List.mem_cons_of_mem _ mem, eq⟩

/-- An update keeps the order of the positions. -/
theorem pairwise_updateEntries (k : Nat) (f : Option α → α) {entries : List (Nat × α)}
    (h : entries.Pairwise (fun a b => a.1 < b.1)) :
    (updateEntries k f entries).Pairwise (fun a b => a.1 < b.1) := by
  induction entries with
  | nil => exact List.pairwise_singleton _ _
  | cons head rest ih =>
      obtain ⟨j, a⟩ := head
      rw [List.pairwise_cons] at h
      simp only [updateEntries]
      split
      · rename_i lt
        refine List.pairwise_cons.mpr ⟨fun entry mem => ?_, List.pairwise_cons.mpr h⟩
        rcases List.mem_cons.mp mem with mem | mem
        · rw [mem]; exact lt
        · exact Nat.lt_trans lt (h.1 entry mem)
      · split
        · exact List.pairwise_cons.mpr ⟨h.1, h.2⟩
        · refine List.pairwise_cons.mpr ⟨fun entry mem => ?_, ih h.2⟩
          rcases fst_mem_updateEntries mem with eq | ⟨old, mem, eq⟩
          · show j < entry.1
            omega
          · rw [← eq]; exact h.1 old mem

/-- The map with the entry at `k` changed by `f`, which is given what was recorded there. -/
def update (m : PositionMap α) (k : Nat) (f : Option α → α) : PositionMap α :=
  ⟨updateEntries k f m.entries, pairwise_updateEntries k f m.increasing⟩

/-- The amounts at the positions that satisfy `p`, added up. The sum is exact: whether it fits in
32 bits is asked apart from it (`FitWords`). -/
def sumWhere (m : PositionMap Nat) (p : Nat → Bool) : Nat :=
  ((m.entries.filter fun entry => p entry.1).map (·.2)).foldr (· + ·) 0

end PositionMap

end SheetFill
