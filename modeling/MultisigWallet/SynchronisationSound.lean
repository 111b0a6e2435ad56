import MultisigWallet.Synchronisation

/-!
# MultisigWallet.SynchronisationSound

When there is one synchronisation loop at most, and none after `stopSyncLoop`. Neither call knows
of a block that has been dispatched and has not begun: another `startSyncLoop` dispatches a second
one, and `stopSyncLoop` finds nothing to stop. `NoneDispatched` is the guard against that, and
under it `syncLoopRepeater` is the one loop that is not stopped.
-/

namespace MultisigWallet

namespace SynchronisationService

variable {s s' : SynchronisationService}

/-! ### One loop -/

/-- A stopped loop stays stopped, and another one is stopped by `stop()` only. -/
theorem isStopped_advance (l : SyncLoop) : l.advance.1.isStopped = l.isStopped := by
  obtain ⟨state, point⟩ := l
  cases state <;> cases point <;> rfl

/-- A stopped loop does nothing any more. -/
theorem advance_stopped {l : SyncLoop} (h : l.isStopped = true) : l.advance.2 = [] := by
  obtain ⟨state, point⟩ := l
  cases state with
  | stopped => cases point <;> rfl
  | running => cases h
  | waiting => cases h

/-! ### The service -/

/-- All loops are stopped but the one that is assigned. -/
structure OneLoop (s : SynchronisationService) : Prop where
  assigned : ∀ i l, s.loops[i]? = some l → l.isStopped = false → s.syncLoopRepeater = some i
  dispatched : s.dispatched ≤ 1
  free : s.dispatched ≠ 0 → s.syncLoopRepeater = none

/-- A call is made when no block is waiting to begin. -/
def NoneDispatched (s : SynchronisationService) (a : Step) : Prop :=
  a.isCall = true → s.dispatched = 0

instance (s : SynchronisationService) (a : Step) : Decidable (NoneDispatched s a) :=
  inferInstanceAs (Decidable (_ → _))

theorem startSyncLoop_oneLoop (hnone : s.dispatched = 0) (h : OneLoop s) :
    OneLoop s.startSyncLoop := by
  unfold startSyncLoop
  split
  · rename_i hfree
    refine ⟨h.assigned, ?_, fun _ => Option.isNone_iff_eq_none.mp hfree⟩
    show s.dispatched + 1 ≤ 1
    omega
  · exact h

theorem stopSyncLoop_oneLoop (h : OneLoop s) : OneLoop s.stopSyncLoop := by
  unfold stopSyncLoop
  cases hrepeater : s.syncLoopRepeater with
  | none => exact h
  | some repeater =>
      refine ⟨fun i l hl hrunning => ?_, h.dispatched, fun _ => rfl⟩
      obtain ⟨l', hl', rfl⟩ := Option.map_eq_some_iff.mp ((List.getElem?_modify ..).symm.trans hl)
      by_cases hi : repeater = i
      · rw [if_pos hi] at hrunning
        cases hrunning
      · rw [if_neg hi] at hrunning
        have hassigned := h.assigned i l' hl' hrunning
        rw [hrepeater] at hassigned
        exact absurd (Option.some.inj hassigned) hi

theorem beginBlock_oneLoop (h : OneLoop s) : OneLoop s.beginBlock := by
  unfold beginBlock
  cases hdispatched : s.dispatched with
  | zero => exact h
  | succ n =>
      have hn : n = 0 := by
        have := h.dispatched
        omega
      refine ⟨fun i l hl hrunning => ?_, ?_, ?_⟩
      · rw [List.getElem?_append] at hl
        split at hl
        · have hassigned := h.assigned i l hl hrunning
          rw [h.free (by omega)] at hassigned
          cases hassigned
        · have hi : i - s.loops.length < 1 := (List.getElem?_eq_some_iff.mp hl).1
          exact congrArg some (by omega)
      · show n ≤ 1
        omega
      · show n ≠ 0 → _
        exact absurd hn

theorem advance_oneLoop (h : OneLoop s) (loop : Nat) : OneLoop (s.advance loop) := by
  unfold advance
  cases hloop : s.loops[loop]? with
  | none => exact h
  | some l =>
      refine ⟨fun i l' hl' hrunning => ?_, h.dispatched, h.free⟩
      rw [List.getElem?_set] at hl'
      split at hl'
      · rename_i hi
        subst hi
        split at hl'
        · obtain rfl := Option.some.inj hl'
          rw [isStopped_advance] at hrunning
          exact h.assigned _ l hloop hrunning
        · cases hl'
      · exact h.assigned i l' hl' hrunning

theorem step_oneLoop {a : Step} (hguard : NoneDispatched s a) (h : OneLoop s)
    (hstep : step s a = .ok s') : OneLoop s' := by
  cases a with
  | startSyncLoop =>
      obtain rfl := Except.ok.inj hstep
      exact startSyncLoop_oneLoop (hguard rfl) h
  | stopSyncLoop =>
      obtain rfl := Except.ok.inj hstep
      exact stopSyncLoop_oneLoop h
  | beginBlock =>
      obtain rfl := Except.ok.inj hstep
      exact beginBlock_oneLoop h
  | advance loop =>
      obtain rfl := Except.ok.inj hstep
      exact advance_oneLoop h loop

/-! ### After the last call -/

/-- Nothing runs, and nothing will begin to. -/
structure Silent (s : SynchronisationService) : Prop where
  stopped : ∀ l ∈ s.loops, l.isStopped = true
  dispatched : s.dispatched = 0

/-- `stopSyncLoop` stops everything when no block is waiting. -/
theorem stopSyncLoop_silent (hnone : s.dispatched = 0) (h : OneLoop s) :
    Silent s.stopSyncLoop := by
  have hafter := stopSyncLoop_oneLoop h
  have hfree : s.stopSyncLoop.syncLoopRepeater = none := by
    unfold stopSyncLoop
    cases hrepeater : s.syncLoopRepeater with
    | none => exact hrepeater
    | some repeater => rfl
  have hdispatched : s.stopSyncLoop.dispatched = s.dispatched := by
    unfold stopSyncLoop
    cases s.syncLoopRepeater with
    | none => rfl
    | some repeater => rfl
  refine ⟨fun l hl => ?_, hdispatched.trans hnone⟩
  obtain ⟨i, hi⟩ := List.mem_iff_getElem?.mp hl
  cases hrunning : l.isStopped with
  | true => rfl
  | false =>
      have hassigned := hafter.assigned i l hi hrunning
      rw [hfree] at hassigned
      cases hassigned

/-- What is not a call leaves a silent service as it is, and nothing is performed. -/
theorem step_silent {a : Step} (hcall : a.isCall = false) (h : Silent s)
    (hstep : step s a = .ok s') : Silent s' ∧ s'.performed = s.performed := by
  cases a with
  | startSyncLoop => cases hcall
  | stopSyncLoop => cases hcall
  | beginBlock =>
      obtain rfl := Except.ok.inj hstep
      have hsame : s.beginBlock = s := by
        unfold beginBlock
        rw [h.dispatched]
      rw [hsame]
      exact ⟨h, rfl⟩
  | advance loop =>
      obtain rfl := Except.ok.inj hstep
      unfold advance
      cases hloop : s.loops[loop]? with
      | none => exact ⟨h, rfl⟩
      | some l =>
          have hl := h.stopped l (List.mem_of_getElem? hloop)
          refine ⟨⟨fun l' hl' => ?_, h.dispatched⟩, ?_⟩
          · rcases List.mem_or_eq_of_mem_set hl' with hl' | rfl
            · exact h.stopped l' hl'
            · exact (isStopped_advance l).trans hl
          · show s.performed ++ l.advance.2 = s.performed
            rw [advance_stopped hl, List.append_nil]

theorem run_silent {as : List Step} (hcalls : ∀ a ∈ as, a.isCall = false) (h : Silent s)
    (hrun : Transition.run step s as = .ok s') : s'.performed = s.performed := by
  have hall : Transition.Allowed step (fun _ a => a.isCall = false) s as :=
    Transition.allowed_of_forall fun a ha _ => hcalls a ha
  have hboth : Silent s' ∧ s'.performed = s.performed :=
    Transition.run_invariant_of_allowed (I := fun t => Silent t ∧ t.performed = s.performed)
      (fun t a u hcall ht hu =>
        have hnext := step_silent hcall ht.1 hu
        ⟨hnext.1, hnext.2.trans ht.2⟩)
      ⟨h, rfl⟩ hall hrun
  exact hboth.2

/-! ### Runs -/

/-- A new service. -/
def new : SynchronisationService := {}

theorem new_oneLoop : OneLoop new := by
  refine ⟨fun i l hl => ?_, Nat.zero_le 1, fun _ => rfl⟩
  cases hl

/-- One loop runs at most. -/
def OneRunning (s : SynchronisationService) : Prop :=
  ∀ (i j : Nat) (l l' : SyncLoop), s.loops[i]? = some l → s.loops[j]? = some l' →
    l.isStopped = false → l'.isStopped = false → i = j

theorem OneLoop.oneRunning (h : OneLoop s) : OneRunning s := by
  intro i j l l' hl hl' hrunning hrunning'
  have hi := h.assigned i l hl hrunning
  have hj := h.assigned j l' hl' hrunning'
  exact Option.some.inj (hi.symm.trans hj)

/-- One loop runs at most, and once `stopSyncLoop` is the last call, nothing is performed. -/
structure LifeCycle (as : List Step) (s : SynchronisationService) : Prop where
  one : OneRunning s
  silent : ∀ before after t, as = before ++ .stopSyncLoop :: after →
    (∀ a ∈ after, a.isCall = false) →
    Transition.run step new (before ++ [.stopSyncLoop]) = .ok t → s.performed = t.performed

end SynchronisationService

end MultisigWallet
