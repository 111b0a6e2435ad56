import Mathlib.Data.List.Destutter
import Mathlib.Data.List.DropRight

/-!
# Streaks

How often something happened in a row. A loop that counts its failures, and starts again at every
success, knows the length of the streak at the end of what happened so far (`atEnd`); it gives up
before the streaks are `Below` a bound no more.

Of changes, such a loop sees the list without its repetitions, `List.destutter`.
-/

namespace Streak

variable {α : Type*} (p : α → Bool)

/-- The length of the streak at the end. -/
def atEnd (l : List α) : ℕ := (l.rtakeWhile p).length

/-- All streaks are shorter than `n`. -/
def Below (n : ℕ) (l : List α) : Prop :=
  ∀ run, run <:+: l → (∀ a ∈ run, p a = true) → run.length < n

variable {p} {n : ℕ} {l : List α} {a : α}

@[simp] theorem atEnd_nil : atEnd p [] = 0 := rfl

theorem atEnd_concat_pos (h : p a = true) : atEnd p (l ++ [a]) = atEnd p l + 1 := by
  simp [atEnd, List.rtakeWhile_concat_pos p l a h]

theorem atEnd_concat_neg (h : p a = false) : atEnd p (l ++ [a]) = 0 := by
  simp [atEnd, List.rtakeWhile_concat_neg p l a (by simp [h])]

theorem length_le_atEnd {run : List α} (h : run <:+ l) (hrun : ∀ a ∈ run, p a = true) :
    run.length ≤ atEnd p l := by
  induction l using List.reverseRecOn generalizing run with
  | nil => simp [List.suffix_nil.mp h]
  | append_singleton l a ih =>
      rcases List.suffix_concat_iff.mp h with rfl | ⟨t, rfl, ht⟩
      · exact Nat.zero_le _
      · have ha : p a = true := hrun a (by simp)
        rw [atEnd_concat_pos ha, List.length_append]
        exact Nat.succ_le_succ (ih ht fun b hb => hrun b (List.mem_append_left _ hb))

theorem below_nil (h : 0 < n) : Below p n [] := by
  intro run hrun _
  rw [List.infix_nil.mp hrun]
  exact h

theorem below_concat : Below p n (l ++ [a]) ↔
    Below p n l ∧ atEnd p (l ++ [a]) < n := by
  constructor
  · intro h
    refine ⟨fun run hrun => h run (List.infix_concat_iff.mpr (.inr hrun)), ?_⟩
    refine h _ (List.rtakeWhile_suffix p _).isInfix fun b hb => ?_
    exact List.mem_rtakeWhile_imp hb
  · intro h run hrun hall
    rcases List.infix_concat_iff.mp hrun with hsuffix | hold
    · exact (length_le_atEnd hsuffix hall).trans_lt h.2
    · exact h.1 run hold hall

/-! ### Changes -/

variable [DecidableEq α]

theorem destutter'_concat (b : α) (l : List α) (a : α) :
    (l ++ [a]).destutter' (· ≠ ·) b =
      l.destutter' (· ≠ ·) b ++ if (b :: l).getLast? = some a then [] else [a] := by
  induction l generalizing b with
  | nil => by_cases h : b = a <;> simp [h]
  | cons c l ih =>
      by_cases h : b = c
      · subst h
        simp [ih]
      · rw [List.cons_append, List.destutter'_cons_pos _ h, List.destutter'_cons_pos _ h, ih]
        simp

/-- A value that is no change is left out. -/
theorem destutter_concat (l : List α) (a : α) :
    (l ++ [a]).destutter (· ≠ ·) =
      l.destutter (· ≠ ·) ++ if l.getLast? = some a then [] else [a] := by
  cases l with
  | nil => rfl
  | cons b l => exact destutter'_concat b l a

end Streak
