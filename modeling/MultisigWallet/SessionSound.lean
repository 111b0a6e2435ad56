import MultisigWallet.IdentityAccessSound

/-!
# MultisigWallet.SessionSound

One session over any sequence of `start`, `renew` and `finish` calls, at any times.

`isActiveAt(_:)` builds the closed range from the start of the session to its end, and the end is
counted from the last renewal if there was one. The range is well formed as long as the session is
not renewed before it is started. `start(_:)` is documented to require a fresh session, but only a
finished and an active one are refused: an expired session starts again and keeps its old renewal
(`StartedOnce` rules that out).
-/

namespace MultisigWallet

namespace IdentityAccess

/-- The calls that change a session. -/
inductive SessionCall
  | start (time : Date)
  | renew (time : Date)
  | finish (time : Date)
  deriving DecidableEq, Repr

namespace Session

/-- What a call does. -/
def perform (s : Session) : SessionCall → Except Trap (Except Error Session)
  | .start time => s.start time
  | .renew time => s.renew time
  | .finish time => s.finish time

/-- One call; an error leaves the session as it is. -/
def step (s : Session) (call : SessionCall) : Except Trap Session := do
  match ← s.perform call with
  | .error _ => return s
  | .ok s => return s

variable {s t : Session} {call : SessionCall} {time : Date}

/-! ### The window -/

/-- The range that `isActiveAt(_:)` builds is well formed. -/
def WindowFormed (s : Session) : Prop :=
  ∀ startTime, s.startedAt = some startTime → s.endedAt = none →
    startTime ≤ s.updatedAt.getD startTime + s.duration

/-- `isActiveAt(_:)`, of a session that was started and is not finished. -/
theorem isActiveAt_started {startTime : Date} (hstarted : s.startedAt = some startTime)
    (hended : s.endedAt = none) (hformed : startTime ≤ s.updatedAt.getD startTime + s.duration) :
    s.isActiveAt time =
      .ok (decide (startTime ≤ time ∧ time ≤ s.updatedAt.getD startTime + s.duration)) := by
  unfold isActiveAt
  rw [hstarted, hended]
  simp only [closedRange, precondition, decide_eq_true hformed, if_true]
  rfl

theorem isActiveAt_ended (h : s.endedAt ≠ none) : s.isActiveAt time = .ok false := by
  unfold isActiveAt
  cases hended : s.endedAt with
  | none => exact absurd hended h
  | some date => rfl

theorem isActiveAt_unstarted (h : s.startedAt = none) : s.isActiveAt time = .ok false := by
  unfold isActiveAt
  rw [h]
  cases s.endedAt <;> rfl

/-- `isActiveAt(_:)` returns exactly if the range is well formed. -/
theorem isActiveAt_isOk (s : Session) (time : Date) :
    (∃ active, s.isActiveAt time = .ok active) ↔ s.WindowFormed := by
  constructor
  · intro h startTime hstarted hended
    obtain ⟨active, h⟩ := h
    unfold isActiveAt at h
    rw [hstarted, hended] at h
    obtain ⟨period, hperiod, -⟩ := bind_ok.mp h
    obtain ⟨checked, hformed, -⟩ := bind_ok.mp hperiod
    exact of_decide_eq_true (precondition_ok.mp hformed)
  · intro h
    cases hended : s.endedAt with
    | some date => exact ⟨false, isActiveAt_ended (by rw [hended]; exact Option.some_ne_none date)⟩
    | none =>
        cases hstarted : s.startedAt with
        | none => exact ⟨false, isActiveAt_unstarted hstarted⟩
        | some startTime =>
            exact ⟨_, isActiveAt_started hstarted hended (h startTime hstarted hended)⟩

/-! ### One call -/

/-- What a call came to. -/
inductive Stepped (s : Session) (call : SessionCall) (t : Session) : Prop
  | threw (heq : t = s)
  | started (time : Date) (hcall : call = .start time) (hended : s.endedAt = none)
      (hidle : s.isActiveAt time = .ok false) (heq : t = { s with startedAt := some time })
  | renewed (time : Date) (hcall : call = .renew time) (hactive : s.isActiveAt time = .ok true)
      (heq : t = { s with updatedAt := some time })
  | finished (time : Date) (hcall : call = .finish time) (hactive : s.isActiveAt time = .ok true)
      (heq : t = { s with endedAt := some time })

theorem step_cases (h : s.step call = .ok t) : Stepped s call t := by
  obtain ⟨result, hperform, h⟩ := bind_ok.mp h
  cases result with
  | error error => exact .threw (Except.ok.inj h).symm
  | ok u =>
      obtain rfl := Except.ok.inj h
      cases call with
      | start time =>
          simp only [perform, start] at hperform
          split at hperform
          · cases Except.ok.inj hperform
          · rename_i hended
            obtain ⟨active, hactive, hperform⟩ := bind_ok.mp hperform
            cases active with
            | true => cases Except.ok.inj hperform
            | false =>
                exact .started time rfl hended hactive
                  (Except.ok.inj (Except.ok.inj hperform)).symm
      | renew time =>
          obtain ⟨active, hactive, hperform⟩ := bind_ok.mp hperform
          cases active with
          | true => exact .renewed time rfl hactive (Except.ok.inj (Except.ok.inj hperform)).symm
          | false => cases Except.ok.inj hperform
      | finish time =>
          obtain ⟨active, hactive, hperform⟩ := bind_ok.mp hperform
          cases active with
          | true => exact .finished time rfl hactive (Except.ok.inj (Except.ok.inj hperform)).symm
          | false => cases Except.ok.inj hperform

/-- A call returns if the range is well formed. -/
theorem step_isOk (h : s.WindowFormed) (call : SessionCall) : ∃ t, s.step call = .ok t := by
  have hactive : ∀ time, ∃ active, s.isActiveAt time = .ok active := fun time =>
    (isActiveAt_isOk s time).mpr h
  have hperform : ∃ result, s.perform call = .ok result := by
    cases call with
    | start time =>
        simp only [perform, start]
        split
        · exact ⟨_, rfl⟩
        · obtain ⟨active, hactive⟩ := hactive time
          rw [hactive]
          cases active <;> exact ⟨_, rfl⟩
    | renew time =>
        obtain ⟨active, hactive⟩ := hactive time
        simp only [perform, renew, hactive]
        cases active <;> exact ⟨_, rfl⟩
    | finish time =>
        obtain ⟨active, hactive⟩ := hactive time
        simp only [perform, finish, hactive]
        cases active <;> exact ⟨_, rfl⟩
  obtain ⟨result, hresult⟩ := hperform
  simp only [step, hresult]
  cases result <;> exact ⟨_, rfl⟩

/-! ### Sessions that are started once -/

/-- A session that is started comes from `init`, is finished, or is in its window. -/
def StartedOnce (s : Session) : SessionCall → Prop
  | .start time => ∀ startTime ∈ s.startedAt, s.endedAt = none →
      startTime ≤ time ∧ time ≤ s.updatedAt.getD startTime + s.duration
  | _ => True

instance StartedOnce.decidable (s : Session) : ∀ call, Decidable (StartedOnce s call)
  | .start _ => inferInstanceAs (Decidable (∀ startTime ∈ s.startedAt, _))
  | .renew _ => .isTrue trivial
  | .finish _ => .isTrue trivial

/-- The renewals come after the start. -/
structure Ordered (s : Session) : Prop where
  unstarted : s.startedAt = none → s.updatedAt = none
  started : ∀ startTime updateTime, s.startedAt = some startTime → s.updatedAt = some updateTime →
    startTime ≤ updateTime

theorem Ordered.windowFormed (h : s.Ordered) : s.WindowFormed := by
  intro startTime hstarted _
  have hpos := s.duration_pos
  cases hupdated : s.updatedAt with
  | none => exact (lt_add_of_pos_right startTime hpos).le
  | some updateTime =>
      have hle := h.started startTime updateTime hstarted hupdated
      exact hle.trans (lt_add_of_pos_right updateTime hpos).le

theorem Ordered.step (h : s.Ordered) (hguard : StartedOnce s call) (hstep : s.step call = .ok t) :
    t.Ordered := by
  cases step_cases hstep with
  | threw heq => exact heq ▸ h
  | started time hcall hended hidle heq =>
      subst hcall heq
      -- an idle session that is allowed to start was never started
      have hfresh : s.startedAt = none := by
        cases hstarted : s.startedAt with
        | none => rfl
        | some startTime =>
            have hformed := h.windowFormed startTime hstarted hended
            rw [isActiveAt_started hstarted hended hformed,
              decide_eq_true (hguard startTime hstarted hended)] at hidle
            cases Except.ok.inj hidle
      refine ⟨fun hnone => absurd hnone (Option.some_ne_none time),
        fun startTime updateTime _ hupdated => ?_⟩
      rw [h.unstarted hfresh] at hupdated
      cases hupdated
  | renewed time hcall hactive heq =>
      subst heq
      refine ⟨fun hnone => ?_, fun startTime updateTime hstarted hupdated => ?_⟩
      · have hnone : s.startedAt = none := hnone
        rw [isActiveAt_unstarted hnone] at hactive
        cases Except.ok.inj hactive
      · have hstarted : s.startedAt = some startTime := hstarted
        obtain rfl := Option.some.inj hupdated
        exact (isActiveAt_true hstarted hactive).1
  | finished time hcall hactive heq => exact heq ▸ ⟨h.unstarted, h.started⟩

theorem step_ended (hended : s.endedAt ≠ none) (hstep : s.step call = .ok t) :
    t.endedAt ≠ none := by
  cases step_cases hstep with
  | threw heq => exact heq ▸ hended
  | started time hcall hopen hidle heq => exact absurd hopen hended
  | renewed time hcall hactive heq => exact heq ▸ hended
  | finished time hcall hactive heq => exact heq ▸ Option.some_ne_none time

/-- `start(_:)` throws exactly if the session is finished or active. -/
theorem start_throws : (∃ error, s.start time = .ok (.error error)) ↔
    s.endedAt ≠ none ∨ s.isActiveAt time = .ok true := by
  unfold start
  cases hended : s.endedAt with
  | some date => exact ⟨fun _ => .inl (Option.some_ne_none date), fun _ => ⟨_, rfl⟩⟩
  | none =>
      constructor
      · intro h
        obtain ⟨error, h⟩ := h
        obtain ⟨active, hactive, h⟩ := bind_ok.mp h
        cases active with
        | true => exact .inr hactive
        | false => cases Except.ok.inj h
      · intro h
        have hactive := h.resolve_left (not_not_intro rfl)
        exact ⟨.sessionWasActiveAlready, by rw [hactive]; rfl⟩

/-! ### Runs -/

/-- What is asked of a session over the calls `calls`. -/
structure Kept (s₀ : Session) (calls : List SessionCall) : Prop where
  /-- No call traps. -/
  returns : ∃ s, Transition.run step s₀ calls = .ok s
  /-- In no state reached does `isActiveAt(_:)` trap. -/
  answers : ∀ before after s time, calls = before ++ after →
    Transition.run step s₀ before = .ok s → s.WindowFormed ∧ ∃ active, s.isActiveAt time = .ok active
  /-- A finished session is never active again. -/
  staysFinished : ∀ before between after s t time, calls = before ++ (between ++ after) →
    Transition.run step s₀ before = .ok s → s.endedAt ≠ none →
    Transition.run step s between = .ok t → t.isActiveAt time = .ok false
  /-- A session that was started is not started again. -/
  startsOnce : ∀ before after time s, calls = before ++ .start time :: after →
    Transition.run step s₀ before = .ok s → s.startedAt ≠ none →
    ∃ error, s.start time = .ok (.error error)

theorem Kept.startedOnce {s₀ : Session} {calls : List SessionCall} (h : Kept s₀ calls) :
    Transition.Allowed step StartedOnce s₀ calls := by
  refine Transition.allowed_of_forall_prefix fun before call after s hcalls hrun => ?_
  cases call with
  | renew time => trivial
  | finish time => trivial
  | start time =>
      intro startTime hstarted hended
      have hne : s.startedAt ≠ none := hstarted ▸ Option.some_ne_none startTime
      have hthrows := start_throws.mp (h.startsOnce before after time s hcalls hrun hne)
      have hactive := hthrows.resolve_left (not_not_intro hended)
      exact isActiveAt_true hstarted hactive

theorem kept_of_startedOnce {s₀ : Session} {calls : List SessionCall} (hs : s₀.Ordered)
    (h : Transition.Allowed step StartedOnce s₀ calls) : Kept s₀ calls := by
  have hordered : ∀ before after s, calls = before ++ after →
      Transition.run step s₀ before = .ok s → s.Ordered := by
    intro before after s hcalls hrun
    subst hcalls
    exact Transition.run_invariant_of_allowed (fun s call t hguard hs hstep => hs.step hguard hstep)
      hs (Transition.allowed_of_append h hrun).1 hrun
  refine ⟨?_, fun before after s time hcalls hrun => ?_, ?_, ?_⟩
  · obtain ⟨s, hrun, -⟩ := Transition.run_isOk_of_allowed (I := Ordered)
      (fun s call hguard hs => by
        obtain ⟨t, ht⟩ := step_isOk hs.windowFormed call
        exact ⟨t, ht, hs.step hguard ht⟩) hs h
    exact ⟨s, hrun⟩
  · have hformed := (hordered before after s hcalls hrun).windowFormed
    exact ⟨hformed, (isActiveAt_isOk s time).mpr hformed⟩
  · intro before between after s t time _ _ hended hrun
    exact isActiveAt_ended (Transition.run_invariant (I := fun s => s.endedAt ≠ none)
      (fun s call t hs hstep => step_ended hs hstep) hended hrun)
  · intro before after time s hcalls hrun hne
    obtain ⟨startTime, hstarted⟩ := Option.ne_none_iff_exists'.mp hne
    have hs := hordered before (.start time :: after) s hcalls hrun
    subst hcalls
    have hguard : StartedOnce s (.start time) := (Transition.allowed_of_append h hrun).2.1
    refine start_throws.mpr (or_iff_not_imp_left.mpr fun hended => ?_)
    have hended := not_not.mp hended
    rw [isActiveAt_started hstarted hended (hs.windowFormed startTime hstarted hended),
      decide_eq_true (hguard startTime hstarted hended)]

/-- A new session is kept over a sequence of calls exactly if none of them is a start of a session
that was started, is not finished and is out of its window. -/
theorem kept_iff {id : SessionID} {duration : TimeInterval} {s₀ : Session}
    (h : create id duration = .ok s₀) (calls : List SessionCall) :
    Kept s₀ calls ↔ Transition.Allowed step StartedOnce s₀ calls := by
  have hs : s₀.Ordered := by
    unfold create at h
    split at h
    · obtain rfl := Except.ok.inj h
      exact ⟨fun _ => rfl, fun startTime updateTime hstarted => by cases hstarted⟩
    · cases h
  exact ⟨Kept.startedOnce, kept_of_startedOnce hs⟩

def tenTicks : Session := ⟨['s'], 10, by decide, none, none, none⟩

/-- A session that is started, renewed and finished, with two starts that are refused. -/
theorem kept_iff_tenTicks :
    Kept tenTicks [.start 0, .start 3, .renew 5, .finish 12, .start 20] :=
  (kept_iff (rfl : create ['s'] 10 = .ok tenTicks) _).mpr (by decide)

/-- Started, renewed, expired and started again: the end of the window is before its start. -/
theorem not_kept_restarted : ¬ Kept tenTicks [.start 0, .renew 5, .start 100] := by
  intro h
  obtain ⟨-, active, hactive⟩ := h.answers [.start 0, .renew 5, .start 100] []
    { tenTicks with startedAt := some 100, updatedAt := some 5 } 100 rfl rfl
  cases hactive

end Session

end IdentityAccess

end MultisigWallet
