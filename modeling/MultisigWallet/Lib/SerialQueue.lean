import Mathlib.Data.List.Basic

/-!
# Serial queues

An object that guards its state with a serial queue does nothing when a method is called: the
call puts a **block** on the queue, and the queue runs its blocks one after the other in the order
they came, at times of its own. So the state lags behind the calls. It is always what some first
part of the calls makes of the state at the start, and what is left of them is on the queue
(`Ran`). An invariant of the state is therefore an induction over the calls alone
(`Ran.invariant`), whatever else happens between two blocks.
-/

universe u v

/-- A state, and the blocks that wait to change it, the next one first. -/
structure SerialQueue (σ : Type u) (β : Type v) where
  state : σ
  blocks : List β

namespace SerialQueue

variable {σ : Type u} {β : Type v} (perform : σ → β → σ)

/-- A call. -/
def async (q : SerialQueue σ β) (b : β) : SerialQueue σ β := ⟨q.state, q.blocks ++ [b]⟩

/-- The queue runs its next block, if it has one. -/
def runNext (q : SerialQueue σ β) : SerialQueue σ β :=
  match q.blocks with
  | [] => q
  | b :: blocks => ⟨perform q.state b, blocks⟩

/-- Of the blocks of the calls so far, `done` were run. -/
structure Ran (start : σ) (calls done : List β) (q : SerialQueue σ β) : Prop where
  calls : calls = done ++ q.blocks
  state : q.state = done.foldl perform start

variable {perform} {start : σ} {calls done : List β} {q : SerialQueue σ β}

theorem runNext_of_nil (h : q.blocks = []) : q.runNext perform = q := by
  rw [runNext, h]

theorem runNext_of_cons {b : β} {blocks : List β} (h : q.blocks = b :: blocks) :
    q.runNext perform = ⟨perform q.state b, blocks⟩ := by
  rw [runNext, h]

theorem ran_start (start : σ) : Ran perform start [] [] ⟨start, []⟩ := ⟨rfl, rfl⟩

theorem Ran.async (h : Ran perform start calls done q) (b : β) :
    Ran perform start (calls ++ [b]) done (q.async b) :=
  ⟨by rw [h.calls, List.append_assoc]; rfl, h.state⟩

theorem Ran.runNext (h : Ran perform start calls done q) :
    ∃ done', done <+: done' ∧ Ran perform start calls done' (q.runNext perform) := by
  cases hblocks : q.blocks with
  | nil =>
      rw [runNext_of_nil hblocks]
      exact ⟨done, List.prefix_refl done, h⟩
  | cons b blocks =>
      rw [runNext_of_cons hblocks]
      refine ⟨done ++ [b], List.prefix_append done [b], ?_, ?_⟩
      · rw [h.calls, hblocks, List.append_assoc, List.singleton_append]
      · rw [List.foldl_append, ← h.state]
        rfl

/-- What was called and is not on the queue was run. -/
theorem Ran.of_nil (h : Ran perform start calls done q) (hblocks : q.blocks = []) :
    done = calls := by
  rw [h.calls, hblocks, List.append_nil]

/-- What holds of the state at the start, and is kept by each block that is run. -/
theorem Ran.invariant {I : List β → σ → Prop} (hstart : I [] start)
    (hperform : ∀ done s b, I done s → I (done ++ [b]) (perform s b))
    (h : Ran perform start calls done q) : I done q.state := by
  rw [h.state]
  suffices ∀ before after s, I before s → I (before ++ after) (after.foldl perform s) from
    this [] done start hstart
  intro before after s hs
  induction after generalizing before s with
  | nil =>
      rw [List.append_nil]
      exact hs
  | cons b after ih =>
      rw [List.append_cons]
      exact ih (before ++ [b]) (perform s b) (hperform before s b hs)

end SerialQueue
