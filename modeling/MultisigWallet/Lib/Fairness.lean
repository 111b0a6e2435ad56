import MultisigWallet.Lib.Transition

/-!
# Fair schedules

Threads that share a state take **turns** in any order. A turn may find that its thread has nothing
to do or has to wait, and changes nothing. `Progresses` bounds what is to be done: every other turn
leaves less of it, and as long as something is left, one of the `fair` turns changes the state, so
that no two threads wait for each other for good.

A schedule is cut into **rounds** in which every fair turn is taken at least once. As many rounds
as there is work bring the machine to rest, whatever order the turns are taken in
(`Progresses.work_eq_zero`).
-/

namespace Transition

universe u v w

variable {σ : Type u} {α : Type v} {ε : Type w} {step : σ → α → Except ε σ} {work : σ → Nat}
  {turn : α → Prop} {fair : List α}

structure Progresses (step : σ → α → Except ε σ) (work : σ → Nat) (turn : α → Prop)
    (fair : List α) : Prop where
  decreases : ∀ s a t, turn a → step s a = .ok t → t = s ∨ work t < work s
  moves : ∀ s, work s ≠ 0 → ∃ a ∈ fair, step s a ≠ .ok s

/-- If turns leave the work as it is, none of them changed anything. -/
theorem Progresses.run (h : Progresses step work turn fair) {s t : σ} {as : List α}
    (has : ∀ a ∈ as, turn a) (hrun : run step s as = .ok t) :
    (t = s ∧ ∀ a ∈ as, step s a = .ok s) ∨ work t < work s := by
  induction as generalizing s with
  | nil =>
      obtain rfl := Except.ok.inj hrun
      exact .inl ⟨rfl, fun a ha => absurd ha List.not_mem_nil⟩
  | cons a as ih =>
      obtain ⟨ha, has⟩ := List.forall_mem_cons.mp has
      obtain ⟨u, hstep, hrest⟩ := run_cons_ok.mp hrun
      rcases h.decreases s a u ha hstep with rfl | hlt
      · refine (ih has hrest).imp_left fun hsame => ⟨hsame.1, ?_⟩
        exact List.forall_mem_cons.mpr ⟨hstep, hsame.2⟩
      · rcases ih has hrest with ⟨rfl, -⟩ | hlt'
        · exact .inr hlt
        · exact .inr (Nat.lt_trans hlt' hlt)

/-- A round does some of the work, if there is any. -/
theorem Progresses.round (h : Progresses step work turn fair) {s t : σ} {as : List α}
    (has : ∀ a ∈ as, turn a) (hfair : ∀ a ∈ fair, a ∈ as)
    (hrun : Transition.run step s as = .ok t) :
    work t ≤ work s - 1 := by
  rcases h.run has hrun with ⟨rfl, hsame⟩ | hlt
  · by_cases hwork : work t = 0
    · exact hwork ▸ Nat.zero_le _
    · obtain ⟨a, ha, hmoves⟩ := h.moves t hwork
      exact absurd (hsame a (hfair a ha)) hmoves
  · exact Nat.le_sub_one_of_lt hlt

/-- As many rounds as there is work bring the machine to rest. -/
theorem Progresses.work_eq_zero (h : Progresses step work turn fair) {s t : σ}
    {rounds : List (List α)} (hrounds : ∀ as ∈ rounds, (∀ a ∈ as, turn a) ∧ ∀ a ∈ fair, a ∈ as)
    (hwork : work s ≤ rounds.length) (hrun : Transition.run step s rounds.flatten = .ok t) :
    work t = 0 := by
  induction rounds generalizing s with
  | nil =>
      obtain rfl := Except.ok.inj hrun
      exact Nat.le_zero.mp hwork
  | cons as rounds ih =>
      obtain ⟨⟨has, hfair⟩, hrounds⟩ := List.forall_mem_cons.mp hrounds
      obtain ⟨u, hfirst, hrest⟩ := run_append_ok.mp hrun
      have hround := h.round has hfair hfirst
      rw [List.length_cons] at hwork
      exact ih hrounds (by omega) hrest

end Transition
