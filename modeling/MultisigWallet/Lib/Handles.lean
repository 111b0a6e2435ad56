import Mathlib.Data.List.Induction
import MultisigWallet.Lib.Transition

/-!
# The use of handles

A handle is acquired, used any number of times and released. A record of what was done to handles
is **legal** if every handle in it is acquired once, used only while it is live and released at
most once; a handle that is part of another one is released before that one is. `within h p` says
that `h` is part of `p`.

Legality is a run of `step`, which keeps what is live and what was released. What it says about
the record is read off by `silent_after_release` and `acquired_before`.
-/

namespace Handles

inductive Event (κ : Type)
  | acquire (handle : κ)
  | use (handle : κ)
  | release (handle : κ)
  deriving DecidableEq, Repr

/-- The handle of an event. -/
def Event.handle {κ : Type} : Event κ → κ
  | .acquire handle => handle
  | .use handle => handle
  | .release handle => handle

/-- What was done to the handles of a record. -/
structure Ledger (κ : Type) where
  live : List κ := []
  released : List κ := []
  deriving DecidableEq, Repr

/-- How a record can be illegal. -/
inductive Misuse (κ : Type)
  /-- The handle was acquired before. -/
  | acquiredAgain (handle : κ)
  | notLive (handle : κ)
  /-- A part of the handle is live. -/
  | inUse (handle : κ)
  deriving DecidableEq, Repr

variable {κ : Type} [DecidableEq κ] (within : κ → κ → Bool)

/-- One event. -/
def step (l : Ledger κ) : Event κ → Except (Misuse κ) (Ledger κ)
  | .acquire h =>
      if h ∈ l.live ∨ h ∈ l.released then .error (.acquiredAgain h)
      else .ok { l with live := l.live ++ [h] }
  | .use h => if h ∈ l.live then .ok l else .error (.notLive h)
  | .release h =>
      if h ∉ l.live then .error (.notLive h)
      else if ∃ p ∈ l.live, within p h = true then .error (.inUse h)
      else .ok { live := l.live.filter (· ≠ h), released := l.released ++ [h] }

/-- A record of events that begins with no handle. -/
def Legal (record : List (Event κ)) : Prop := ∃ l, Transition.run (step within) {} record = .ok l

variable {within} {l l' : Ledger κ} {h p : κ} {record front rest : List (Event κ)} {e : Event κ}

/-! ### One event -/

theorem step_acquire_ok :
    step within l (.acquire h) = .ok l' ↔
      h ∉ l.live ∧ h ∉ l.released ∧ l' = { l with live := l.live ++ [h] } := by
  rw [step]
  by_cases hlive : h ∈ l.live
  · simp [hlive]
  · by_cases hreleased : h ∈ l.released
    · simp [hreleased]
    · simp [hlive, hreleased, eq_comm]

theorem step_use_ok : step within l (.use h) = .ok l' ↔ h ∈ l.live ∧ l' = l := by
  rw [step]
  by_cases hlive : h ∈ l.live
  · simp [hlive, eq_comm]
  · simp [hlive]

theorem step_release_ok :
    step within l (.release h) = .ok l' ↔
      h ∈ l.live ∧ (∀ p ∈ l.live, within p h = false) ∧
        l' = ⟨l.live.filter (· ≠ h), l.released ++ [h]⟩ := by
  rw [step]
  by_cases hlive : h ∈ l.live
  · by_cases hparts : ∃ p ∈ l.live, within p h = true
    · rw [if_neg (not_not.mpr hlive), if_pos hparts]
      obtain ⟨p, hp, hwithin⟩ := hparts
      constructor
      · intro heq
        cases heq
      · intro hok
        rw [hok.2.1 p hp] at hwithin
        cases hwithin
    · rw [if_neg (not_not.mpr hlive), if_neg hparts, Except.ok.injEq]
      have hnone : ∀ p ∈ l.live, within p h = false := by simpa using hparts
      exact ⟨fun heq => ⟨hlive, hnone, heq.symm⟩, fun hok => hok.2.2.symm⟩
  · simp [hlive]

/-! ### Records -/

/-- A handle that was released stays so, and is not live. -/
def Spent (h : κ) (l : Ledger κ) : Prop := h ∈ l.released ∧ h ∉ l.live

theorem spent_step (hs : Spent h l) (hstep : step within l e = .ok l') :
    Spent h l' ∧ e.handle ≠ h := by
  obtain ⟨hreleased, hlive⟩ := hs
  cases e with
  | acquire k =>
      obtain ⟨hk, hkr, rfl⟩ := step_acquire_ok.mp hstep
      have hne : k ≠ h := fun heq => hkr (heq ▸ hreleased)
      exact ⟨⟨hreleased, by simp [hlive, hne.symm]⟩, hne⟩
  | use k =>
      obtain ⟨hk, rfl⟩ := step_use_ok.mp hstep
      exact ⟨⟨hreleased, hlive⟩, fun heq => hlive (heq ▸ hk)⟩
  | release k =>
      obtain ⟨hk, -, rfl⟩ := step_release_ok.mp hstep
      exact ⟨⟨List.mem_append_left _ hreleased, fun hmem => hlive (List.mem_filter.mp hmem).1⟩,
        fun heq => hlive (heq ▸ hk)⟩

theorem spent_run (hs : Spent h l) (hrun : Transition.run (step within) l record = .ok l') :
    ∀ e ∈ record, e.handle ≠ h := by
  induction record generalizing l with
  | nil => exact fun e he => absurd he List.not_mem_nil
  | cons e record ih =>
      obtain ⟨m, hm, hrest⟩ := Transition.run_cons_ok.mp hrun
      obtain ⟨hs, hne⟩ := spent_step hs hm
      intro d hd
      rcases List.mem_cons.mp hd with rfl | hd
      · exact hne
      · exact ih hs hrest d hd

/-- Nothing is done to a handle after its release, and so it is released once. -/
theorem silent_after_release (hlegal : Legal within (front ++ .release h :: rest)) :
    ∀ e ∈ rest, e.handle ≠ h := by
  obtain ⟨l', hrun⟩ := hlegal
  obtain ⟨l, -, hrun⟩ := Transition.run_append_ok.mp hrun
  obtain ⟨m, hm, hrest⟩ := Transition.run_cons_ok.mp hrun
  obtain ⟨-, -, rfl⟩ := step_release_ok.mp hm
  exact spent_run ⟨by simp, by simp⟩ hrest

/-- What is live was acquired. -/
theorem acquired_of_live (hrun : Transition.run (step within) {} record = .ok l) (hl : h ∈ l.live) :
    .acquire h ∈ record := by
  induction record using List.reverseRecOn generalizing l with
  | nil =>
      obtain rfl : ({} : Ledger κ) = l := by simpa using hrun
      exact absurd hl List.not_mem_nil
  | append_singleton record e ih =>
      obtain ⟨m, hm, hlast⟩ := Transition.run_append_ok.mp hrun
      obtain ⟨n, hn, hnil⟩ := Transition.run_cons_ok.mp hlast
      obtain rfl : n = l := by simpa using hnil
      rw [List.mem_append]
      cases e with
      | acquire k =>
          obtain ⟨-, -, rfl⟩ := step_acquire_ok.mp hn
          rcases List.mem_append.mp hl with hl | hl
          · exact .inl (ih hm hl)
          · exact .inr (by rw [List.mem_singleton.mp hl]; exact List.mem_singleton_self _)
      | use k =>
          obtain ⟨-, rfl⟩ := step_use_ok.mp hn
          exact .inl (ih hm hl)
      | release k =>
          obtain ⟨-, -, rfl⟩ := step_release_ok.mp hn
          exact .inl (ih hm (List.mem_filter.mp hl).1)

/-- A handle is used and released only after it was acquired. -/
theorem acquired_before (hlegal : Legal within (front ++ e :: rest)) (he : e ≠ .acquire e.handle) :
    .acquire e.handle ∈ front := by
  obtain ⟨l', hrun⟩ := hlegal
  obtain ⟨l, hfront, hrun⟩ := Transition.run_append_ok.mp hrun
  obtain ⟨m, hm, -⟩ := Transition.run_cons_ok.mp hrun
  cases e with
  | acquire k => exact absurd rfl he
  | use k => exact acquired_of_live hfront (step_use_ok.mp hm).1
  | release k => exact acquired_of_live hfront (step_release_ok.mp hm).1

end Handles
