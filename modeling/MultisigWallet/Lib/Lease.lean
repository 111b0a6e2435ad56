import Mathlib.Data.List.Basic

/-!
# Leases

A record of what is acquired and released, in order, over any keys. Releasing is asked of somebody
who may refuse, so that a release is in the record whether it was done or not. The record is
**proper** if nothing is released that is not held.
-/

namespace Lease

inductive Event (κ : Type)
  | acquire (key : κ)
  | release (key : κ) (done : Bool)
  deriving DecidableEq, Repr

variable {κ : Type} [DecidableEq κ]

/-- What is held after an event. -/
def after (held : List κ) : Event κ → List κ
  | .acquire key => held ++ [key]
  | .release key true => held.filter (· ≠ key)
  | .release _ false => held

/-- What is held at the end of a record. -/
def held (log : List (Event κ)) : List κ := log.foldl after []

/-- A release is asked for only of a key that is held then. -/
def Proper (log : List (Event κ)) : Prop :=
  ∀ front key done rest, log = front ++ .release key done :: rest → key ∈ held front

@[simp] theorem held_nil : held ([] : List (Event κ)) = [] := rfl

theorem held_concat (log : List (Event κ)) (e : Event κ) :
    held (log ++ [e]) = after (held log) e := by
  rw [held, List.foldl_append]
  rfl

@[simp] theorem held_acquire (log : List (Event κ)) (key : κ) :
    held (log ++ [.acquire key]) = held log ++ [key] :=
  held_concat log _

@[simp] theorem held_refused (log : List (Event κ)) (key : κ) :
    held (log ++ [.release key false]) = held log :=
  held_concat log _

@[simp] theorem held_released (log : List (Event κ)) (key : κ) :
    held (log ++ [.release key true]) = (held log).filter (· ≠ key) :=
  held_concat log _

theorem proper_nil : Proper ([] : List (Event κ)) := by
  intro front key done rest h
  simp at h

/-- One event more. -/
theorem proper_concat {log : List (Event κ)} {e : Event κ} :
    Proper (log ++ [e]) ↔ Proper log ∧ ∀ key done, e = .release key done → key ∈ held log := by
  constructor
  · intro h
    refine ⟨?_, ?_⟩
    · intro front key done rest heq
      exact h front key done (rest ++ [e]) (by rw [heq, List.append_assoc, List.cons_append])
    · intro key done he
      exact h log key done [] (by rw [he])
  · intro h front key done rest heq
    obtain ⟨hlog, hlast⟩ := h
    rcases List.eq_nil_or_concat' rest with rfl | ⟨rest, last, rfl⟩
    · obtain ⟨rfl, hevent⟩ := List.append_inj' heq rfl
      exact hlast key done (List.singleton_injective hevent)
    · rw [← List.cons_append, ← List.append_assoc] at heq
      exact hlog front key done rest (List.append_inj' heq rfl).1

@[simp] theorem proper_acquire {log : List (Event κ)} {key : κ} :
    Proper (log ++ [.acquire key]) ↔ Proper log := by
  simp [proper_concat]

@[simp] theorem proper_release {log : List (Event κ)} {key : κ} {done : Bool} :
    Proper (log ++ [.release key done]) ↔ Proper log ∧ key ∈ held log := by
  rw [proper_concat]
  refine and_congr_right fun _ => ⟨fun h => h key done rfl, ?_⟩
  intro h key' done' heq
  obtain ⟨rfl, -⟩ := Event.release.inj heq
  exact h

end Lease
