import Mathlib.Data.List.Basic

/-!
# Folds over lists

A fold with `Nat.max` is a bound of its items and of the number that it starts with, and the lowest
one. A fold stays where it starts if every item leaves it there.
-/

namespace SheetFill

section Largest

variable {n start : Nat} {ns : List Nat}

theorem start_le_foldr_max (start : Nat) (ns : List Nat) : start ≤ ns.foldr Nat.max start := by
  induction ns with
  | nil => exact Nat.le_refl start
  | cons m ns ih => exact Nat.le_trans ih (Nat.le_max_right ..)

theorem le_foldr_max (mem : n ∈ ns) : n ≤ ns.foldr Nat.max start := by
  induction ns with
  | nil => cases mem
  | cons m ns ih =>
      rcases List.mem_cons.mp mem with rfl | mem
      · exact Nat.le_max_left ..
      · exact Nat.le_trans (ih mem) (Nat.le_max_right ..)

theorem foldr_max_le (low : start ≤ n) (bound : ∀ m ∈ ns, m ≤ n) :
    ns.foldr Nat.max start ≤ n := by
  induction ns with
  | nil => exact low
  | cons m ns ih =>
      rw [List.forall_mem_cons] at bound
      exact Nat.max_le.mpr ⟨bound.1, ih bound.2⟩

/-- The largest number is one of the list or the one to start with. -/
theorem foldr_max_eq_or_mem (start : Nat) (ns : List Nat) :
    ns.foldr Nat.max start = start ∨ ns.foldr Nat.max start ∈ ns := by
  induction ns with
  | nil => exact Or.inl rfl
  | cons m ns ih =>
      rw [List.foldr_cons]
      rcases Nat.le_total m (ns.foldr Nat.max start) with rest | here
      · rw [show Nat.max m _ = _ from Nat.max_eq_right rest]
        exact ih.imp_right (List.mem_cons_of_mem m)
      · rw [show Nat.max m _ = _ from Nat.max_eq_left here]
        exact Or.inr List.mem_cons_self

end Largest

section Fixed

variable {α β : Type} {items : List α} {start : β}

theorem foldr_of_fixed {f : α → β → β} (fixed : ∀ item ∈ items, f item start = start) :
    items.foldr f start = start := by
  induction items with
  | nil => rfl
  | cons item items ih =>
      rw [List.forall_mem_cons] at fixed
      rw [List.foldr_cons, ih fixed.2, fixed.1]

theorem foldl_of_fixed {f : β → α → β} (fixed : ∀ item ∈ items, f start item = start) :
    items.foldl f start = start := by
  rw [List.foldl_eq_foldr_reverse]
  exact foldr_of_fixed fun item mem => fixed item (List.mem_reverse.mp mem)

end Fixed

end SheetFill
