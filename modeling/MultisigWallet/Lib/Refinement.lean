import MultisigWallet.Lib.Transition

/-!
# Refinement, step by step

A machine **refines** another one if the two, started in related states, fail at the same step
with the same error or go on in related states. So a property of all runs of the simpler machine is
one of the other: `Refines.run` relates the ends of two runs of the same actions, and whether
there are any.

A relation that holds only along some actions is one with a guard.
-/

universe u v w x

namespace Refinement

variable {σ : Type u} {τ : Type v} {ε : Type w} {R : σ → τ → Prop}

/-- Two results are the same error, or related states. -/
inductive Agree (R : σ → τ → Prop) : Except ε σ → Except ε τ → Prop
  | error (e : ε) : Agree R (.error e) (.error e)
  | ok {s : σ} {t : τ} (h : R s t) : Agree R (.ok s) (.ok t)

theorem Agree.mono {R' : σ → τ → Prop} {r : Except ε σ} {r' : Except ε τ} (h : Agree R r r')
    (hR : ∀ s t, R s t → R' s t) : Agree R' r r' := by
  cases h with
  | error e => exact .error e
  | ok h => exact .ok (hR _ _ h)

/-- What the simpler machine can do, the other one does. -/
theorem Agree.of_ok {r : Except ε σ} {t : τ} (h : Agree R r (.ok t)) : ∃ s, r = .ok s ∧ R s t := by
  cases h with
  | ok h => exact ⟨_, rfl, h⟩

theorem Agree.ok_inv {s : σ} {r : Except ε τ} (h : Agree R (.ok s) r) : ∃ t, r = .ok t ∧ R s t := by
  cases h with
  | ok h => exact ⟨_, rfl, h⟩

/-- Computations that agree, continued by ones that agree on what they return. -/
theorem Agree.bind {σ τ ε α β : Type} {R : σ → τ → Prop} {R' : α → β → Prop} {r : Except ε σ}
    {r' : Except ε τ} {f : σ → Except ε α} {g : τ → Except ε β} (h : Agree R r r')
    (hf : ∀ s t, R s t → Agree R' (f s) (g t)) : Agree R' (r >>= f) (r' >>= g) := by
  cases h with
  | error e => exact .error e
  | ok h => exact hf _ _ h

/-- The machine `step` refines the machine `step'`, along actions that meet the guard. -/
def Refines {α : Type x} (step : σ → α → Except ε σ) (step' : τ → α → Except ε τ)
    (guard : α → Prop) (R : σ → τ → Prop) : Prop :=
  ∀ s t a, guard a → R s t → Agree R (step s a) (step' t a)

variable {α : Type x} {step : σ → α → Except ε σ} {step' : τ → α → Except ε τ} {guard : α → Prop}

theorem Refines.run (h : Refines step step' guard R) {s : σ} {t : τ} {as : List α}
    (has : ∀ a ∈ as, guard a) (hR : R s t) :
    Agree R (Transition.run step s as) (Transition.run step' t as) := by
  induction as generalizing s t with
  | nil => exact .ok hR
  | cons a as ih =>
      obtain ⟨ha, has⟩ := List.forall_mem_cons.mp has
      have hstep := h s t a ha hR
      unfold Transition.run
      generalize step s a = r at hstep
      generalize step' t a = r' at hstep
      cases hstep with
      | error e => exact .error e
      | ok hnext => exact ih has hnext

end Refinement
