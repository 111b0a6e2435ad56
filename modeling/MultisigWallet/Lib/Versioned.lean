import Mathlib.Logic.Basic

/-!
# Copies of a shared cell

Several threads work on one **cell**. A thread does not hold the cell but a **copy** it took
at some time, and a store overwrites the cell with whatever the copy has become.

Of the values only a `part` matters here. `moves` counts the stores that changed it, and a
copy remembers the count it was taken at. While the count is the same, the copy and the cell
agree on the part, whatever was stored in between (`Agrees`).
-/

namespace Versioned

variable {α β : Type*}

/-- A value, and how often its part has changed. -/
structure Cell (α : Type*) where
  value : α
  moves : Nat

/-- A value, and the count of the cell when it was taken. -/
structure Copy (α : Type*) where
  value : α
  since : Nat

/-- Takes a copy. -/
def Cell.load (c : Cell α) : Copy α := ⟨c.value, c.moves⟩

variable (part : α → β)

/-- Overwrites the cell. -/
def Cell.store [DecidableEq β] (c : Cell α) (a : α) : Cell α :=
  ⟨a, if part a = part c.value then c.moves else c.moves + 1⟩

/-- The copy is of the past, and of the present if the part has not changed. -/
structure Agrees (c : Cell α) (k : Copy α) : Prop where
  since_le : k.since ≤ c.moves
  part_eq : k.since = c.moves → part k.value = part c.value

theorem agrees_load (c : Cell α) : Agrees part c c.load := ⟨Nat.le_refl _, fun _ => rfl⟩

variable [DecidableEq β] {part} {c : Cell α} {k : Copy α} {a : α}

theorem store_same (h : part a = part c.value) : (c.store part a).moves = c.moves := if_pos h

theorem store_moved (h : part a ≠ part c.value) : (c.store part a).moves = c.moves + 1 := if_neg h

/-- A store keeps every copy in agreement: it does not change the part, or the copies are of
the past from then on. -/
theorem Agrees.store (h : Agrees part c k) (a : α) : Agrees part (c.store part a) k := by
  by_cases hpart : part a = part c.value
  · refine ⟨?_, ?_⟩
    · rw [store_same hpart]
      exact h.since_le
    · rw [store_same hpart]
      intro hk
      exact (h.part_eq hk).trans hpart.symm
  · have hlt : k.since < (c.store part a).moves := by
      rw [store_moved hpart]
      exact Nat.lt_succ_of_le h.since_le
    exact ⟨Nat.le_of_lt hlt, fun hk => absurd hk (Nat.ne_of_lt hlt)⟩

end Versioned
