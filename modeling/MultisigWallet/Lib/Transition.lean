import Mathlib.Order.Basic

/-!
# Runs of a partial step function

A **machine** here is a step function `step : σ → α → Except ε σ`: taken in a
state, an operation either returns the next state or stops the program with an
error. `run` takes a finite list of operations one after the other, and `Allowed`
says that every operation of the list meets a guard in the state it is taken in.

The rules are the two inductions every safety proof over such a machine needs:
what each step preserves holds in every state a run reaches (`run_invariant`),
also when only guarded steps preserve it (`run_invariant_of_allowed`), and what no
step of a run changes is the same at its end (`run_frame_of_allowed`). A run can be
followed through a view of its states (`run_view`) and without the operations that
change nothing there (`run_filter`).
-/

namespace Transition

universe u v w

variable {σ : Type u} {α : Type v} {ε : Type w}

/-- The operations `as`, taken in order from `s`. -/
def run (step : σ → α → Except ε σ) : σ → List α → Except ε σ
  | s, [] => .ok s
  | s, a :: as =>
      match step s a with
      | .ok t => run step t as
      | .error e => .error e

/-- Every operation of `as` meets `guard` in the state it is taken in. -/
def Allowed (step : σ → α → Except ε σ) (guard : σ → α → Prop) : σ → List α → Prop
  | _, [] => True
  | s, a :: as =>
      guard s a ∧
        match step s a with
        | .ok t => Allowed step guard t as
        | .error _ => True

variable {step : σ → α → Except ε σ} {guard : σ → α → Prop}

@[simp] theorem run_nil (s : σ) : run step s [] = .ok s := rfl

theorem run_cons_ok {s t : σ} {a : α} {as : List α} :
    run step s (a :: as) = .ok t ↔ ∃ u, step s a = .ok u ∧ run step u as = .ok t := by
  rw [run]
  cases h : step s a with
  | error e => simp
  | ok u => simp

theorem allowed_cons_of_ok {s u : σ} {a : α} {as : List α} (h : step s a = .ok u) :
    Allowed step guard s (a :: as) ↔ guard s a ∧ Allowed step guard u as := by
  rw [Allowed, h]

theorem allowed_cons_of_error {s : σ} {a : α} {as : List α} {e : ε}
    (h : step s a = .error e) : Allowed step guard s (a :: as) ↔ guard s a := by
  rw [Allowed, h, and_true]

instance Allowed.decidable [∀ s a, Decidable (guard s a)] :
    ∀ s as, Decidable (Allowed step guard s as)
  | _, [] => .isTrue trivial
  | s, a :: as =>
      match h : step s a with
      | .ok t =>
          have := Allowed.decidable t as
          decidable_of_iff _ (allowed_cons_of_ok h).symm
      | .error _ => decidable_of_iff _ (allowed_cons_of_error h).symm

/-- A run of `as ++ bs` is a run of `as` followed by a run of `bs`. -/
theorem run_append_ok {s t : σ} {as bs : List α} :
    run step s (as ++ bs) = .ok t ↔
      ∃ u, run step s as = .ok u ∧ run step u bs = .ok t := by
  induction as generalizing s with
  | nil => simp
  | cons a as ih =>
      rw [List.cons_append, run_cons_ok]
      constructor
      · rintro ⟨v, hv, hrest⟩
        obtain ⟨u, hu, hb⟩ := ih.mp hrest
        exact ⟨u, run_cons_ok.mpr ⟨v, hv, hu⟩, hb⟩
      · rintro ⟨u, hu, hb⟩
        obtain ⟨v, hv, hu⟩ := run_cons_ok.mp hu
        exact ⟨v, hv, ih.mpr ⟨u, hu, hb⟩⟩

/-- The second part of a run is allowed from where the first part ends. -/
theorem allowed_of_append {s t : σ} {as bs : List α} (h : Allowed step guard s (as ++ bs))
    (hrun : run step s as = .ok t) : Allowed step guard s as ∧ Allowed step guard t bs := by
  induction as generalizing s with
  | nil =>
      obtain rfl : s = t := by simpa using hrun
      exact ⟨trivial, h⟩
  | cons a as ih =>
      obtain ⟨u, hu, hrest⟩ := run_cons_ok.mp hrun
      rw [List.cons_append, allowed_cons_of_ok hu] at h
      obtain ⟨has, hbs⟩ := ih h.2 hrest
      exact ⟨(allowed_cons_of_ok hu).mpr ⟨h.1, has⟩, hbs⟩

/-- A run is allowed if each of its operations meets the guard where the run before it ends. -/
theorem allowed_of_forall_prefix {s : σ} {as : List α}
    (h : ∀ before a after t, as = before ++ a :: after → run step s before = .ok t → guard t a) :
    Allowed step guard s as := by
  induction as generalizing s with
  | nil => trivial
  | cons a as ih =>
      refine ⟨h [] a as s rfl rfl, ?_⟩
      cases hu : step s a with
      | error e => trivial
      | ok u =>
          refine ih fun before b after t has hrun => ?_
          exact h (a :: before) b after t (by rw [has, List.cons_append])
            (run_cons_ok.mpr ⟨u, hu, hrun⟩)

/-- What every guarded step preserves holds at the end of every run whose steps
all meet the guard. -/
theorem run_invariant_of_allowed {I : σ → Prop}
    (hstep : ∀ s a t, guard s a → I s → step s a = .ok t → I t) :
    ∀ {s t : σ} {as : List α}, I s → Allowed step guard s as → run step s as = .ok t → I t := by
  intro s t as
  induction as generalizing s with
  | nil =>
      intro hs _ hrun
      obtain rfl : s = t := by simpa using hrun
      exact hs
  | cons a as ih =>
      intro hs hall hrun
      obtain ⟨u, hu, hrest⟩ := run_cons_ok.mp hrun
      obtain ⟨hg, hall⟩ := (allowed_cons_of_ok hu).mp hall
      exact ih (hstep s a u hg hs hu) hall hrest

/-- What a guarded step does in a state with the invariant, every step of a run does. -/
theorem run_step_of_allowed {I : σ → Prop} {P : σ → α → σ → Prop}
    (hstep : ∀ s a t, guard s a → I s → step s a = .ok t → I t ∧ P s a t)
    {s t u : σ} {as bs : List α} {a : α} (hs : I s) (hall : Allowed step guard s (as ++ a :: bs))
    (hrun : run step s as = .ok t) (ha : step t a = .ok u) : P t a u := by
  obtain ⟨has, hbs⟩ := allowed_of_append hall hrun
  have ht : I t := run_invariant_of_allowed (fun s a t hg hi h => (hstep s a t hg hi h).1) hs has hrun
  exact (hstep t a u ((allowed_cons_of_ok ha).mp hbs).1 ht ha).2

/-- A guard on the operations alone. -/
theorem allowed_of_forall {s : σ} {as : List α} (h : ∀ a ∈ as, ∀ s, guard s a) :
    Allowed step guard s as := by
  induction as generalizing s with
  | nil => trivial
  | cons a as ih =>
      refine ⟨h a List.mem_cons_self s, ?_⟩
      cases step s a with
      | ok t => exact ih fun b hb => h b (List.mem_cons_of_mem a hb)
      | error e => trivial

/-- The guard that allows every step. -/
theorem allowed_true (s : σ) (as : List α) : Allowed step (fun _ _ => True) s as :=
  allowed_of_forall fun _ _ _ => trivial

/-- What every step preserves holds in every state a run reaches. -/
theorem run_invariant {I : σ → Prop}
    (hstep : ∀ s a t, I s → step s a = .ok t → I t)
    {s t : σ} {as : List α} (hs : I s) (hrun : run step s as = .ok t) : I t :=
  run_invariant_of_allowed (fun s a t _ => hstep s a t) hs (allowed_true s as) hrun

/-- If guarded steps return in states with the invariant, and keep it, allowed runs return. -/
theorem run_isOk_of_allowed {I : σ → Prop}
    (hstep : ∀ s a, guard s a → I s → ∃ t, step s a = .ok t ∧ I t) {s : σ} {as : List α} (hs : I s)
    (hall : Allowed step guard s as) : ∃ t, run step s as = .ok t ∧ I t := by
  induction as generalizing s with
  | nil => exact ⟨s, rfl, hs⟩
  | cons a as ih =>
      obtain ⟨u, hu, hIu⟩ := hstep s a hall.1 hs
      obtain ⟨t, ht, hIt⟩ := ih hIu ((allowed_cons_of_ok hu).mp hall).2
      exact ⟨t, run_cons_ok.mpr ⟨u, hu, ht⟩, hIt⟩

/-- What no guarded step changes is the same at both ends of a run whose steps all
meet the guard. -/
theorem run_frame_of_allowed {β : Type*} (f : σ → β)
    (hstep : ∀ s a t, guard s a → step s a = .ok t → f t = f s)
    {s t : σ} {as : List α} (hall : Allowed step guard s as)
    (hrun : run step s as = .ok t) : f t = f s :=
  run_invariant_of_allowed (I := fun u => f u = f s)
    (fun u a v hg hu huv => (hstep u a v hg huv).trans hu) rfl hall hrun

/-! ### Views and skipped operations -/

section View

variable {τ : Type u} {ε' : Type w} {step' : τ → α → Except ε' τ} {guard' : τ → α → Prop}

/-- A view of the states that moves by `step'` when they move by `step`. -/
theorem run_view (f : σ → τ) (hstep : ∀ s a t, step s a = .ok t → step' (f s) a = .ok (f t))
    {s t : σ} {as : List α} (hrun : run step s as = .ok t) : run step' (f s) as = .ok (f t) := by
  induction as generalizing s with
  | nil =>
      obtain rfl : s = t := by simpa using hrun
      rfl
  | cons a as ih =>
      obtain ⟨u, hu, hrest⟩ := run_cons_ok.mp hrun
      exact run_cons_ok.mpr ⟨f u, hstep s a u hu, ih hrest⟩

/-- A run that is allowed is allowed in the view. -/
theorem allowed_view (f : σ → τ) (hstep : ∀ s a t, step s a = .ok t → step' (f s) a = .ok (f t))
    (hguard : ∀ s a, guard s a → guard' (f s) a) {s t : σ} {as : List α}
    (hall : Allowed step guard s as) (hrun : run step s as = .ok t) :
    Allowed step' guard' (f s) as := by
  induction as generalizing s with
  | nil => trivial
  | cons a as ih =>
      obtain ⟨u, hu, hrest⟩ := run_cons_ok.mp hrun
      obtain ⟨hg, hall⟩ := (allowed_cons_of_ok hu).mp hall
      exact (allowed_cons_of_ok (hstep s a u hu)).mpr ⟨hguard s a hg, ih hall hrest⟩

end View

/-- Operations that change nothing can be left out of a run. -/
theorem run_filter {p : α → Bool} (hskip : ∀ s a, p a = false → step s a = .ok s) (s : σ)
    (as : List α) : run step s (as.filter p) = run step s as := by
  induction as generalizing s with
  | nil => rfl
  | cons a as ih =>
      cases ha : p a with
      | true =>
          rw [List.filter_cons_of_pos ha, run, run]
          cases step s a with
          | ok t => exact ih t
          | error e => rfl
      | false =>
          rw [List.filter_cons_of_neg (by simp [ha]), ih s, run, hskip s a ha]

/-- They do not matter to what is allowed either. -/
theorem allowed_filter {p : α → Bool} (hskip : ∀ s a, p a = false → step s a = .ok s) {s : σ}
    {as : List α} (hall : Allowed step guard s as) : Allowed step guard s (as.filter p) := by
  induction as generalizing s with
  | nil => trivial
  | cons a as ih =>
      cases ha : p a with
      | true =>
          rw [List.filter_cons_of_pos ha]
          refine ⟨hall.1, ?_⟩
          have hrest := hall.2
          cases h : step s a with
          | ok t =>
              rw [h] at hrest
              exact ih hrest
          | error e => trivial
      | false =>
          rw [List.filter_cons_of_neg (by simp [ha])]
          exact ih ((allowed_cons_of_ok (hskip s a ha)).mp hall).2

end Transition
