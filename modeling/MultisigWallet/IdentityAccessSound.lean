import MultisigWallet.IdentityAccess
import MultisigWallet.Lib.Window
import Mathlib.Algebra.Order.Ring.Int

/-!
# MultisigWallet.IdentityAccessSound

What the gatekeeper promises of whole runs: how often credentials can be tried, and why a user
is authenticated. `Attempt` says all that an attempt to log in can do; both results are
invariants over it.
-/

namespace MultisigWallet

namespace IdentityAccess

variable {services : Services}

/-! ### Attempts -/

/-- The gatekeeper after access is allowed: it has a new session and no failed attempts. -/
def Gatekeeper.opened (g : Gatekeeper) (time : Date) (id : SessionID) : Gatekeeper where
  policy := g.policy
  session := some
    { id := id
      duration := g.policy.sessionDuration
      duration_pos := g.policy.sessionDuration_pos
      startedAt := some time }

theorem allowAccess_of_possible {g : Gatekeeper} {time : Date} (id : SessionID)
    (h : g.isAccessPossible time = true) : g.allowAccess time id = .ok (.ok (g.opened time id)) := by
  simp only [Gatekeeper.allowAccess, assertTrue, h, if_true, Session.create,
    g.policy.sessionDuration_pos, dif_pos]
  rfl

/-- All that `authenticate(at:_:)` can do. -/
inductive Attempt (s : Identity) (time : Date) (id : SessionID) (credentials : Option User) :
    Identity → Outcome → Prop
  | missing (hgatekeeper : s.gatekeeper = none) :
      Attempt s time id credentials s (.threw .gatekeeperNotFound)
  | blocked (g : Gatekeeper) (hgatekeeper : s.gatekeeper = some g)
      (hblocked : g.isAccessPossible time = false) : Attempt s time id credentials s .blocked
  | denied (g : Gatekeeper) (hgatekeeper : s.gatekeeper = some g)
      (hpossible : g.isAccessPossible time = true) (hcredentials : credentials = none) :
      Attempt s time id credentials
        { s with gatekeeper := some ⟨g.policy, none, g.failedAttemptCount + 1, some time⟩ } .denied
  | authenticated (g : Gatekeeper) (user : User) (hgatekeeper : s.gatekeeper = some g)
      (hpossible : g.isAccessPossible time = true) (hcredentials : credentials = some user) :
      Attempt s time id credentials
        ⟨some { user with sessionID := some id }, some (g.opened time id)⟩ (.authenticated user.id)
  /-- The new session is stored, and the user is not. -/
  | unstored (g : Gatekeeper) (user : User) (hgatekeeper : s.gatekeeper = some g)
      (hpossible : g.isAccessPossible time = true) (hcredentials : credentials = some user) :
      Attempt s time id credentials { s with gatekeeper := some (g.opened time id) }
        (.threw .service)

theorem authenticate_attempt {s s' : Identity} {time : Date} {id : SessionID} {stored : Bool}
    {credentials : Option User} {outcome : Outcome}
    (h : s.authenticate time id stored credentials = .ok (s', outcome)) :
    Attempt s time id credentials s' outcome := by
  unfold Identity.authenticate at h
  cases hg : s.gatekeeper with
  | none =>
      rw [hg] at h
      obtain ⟨rfl, rfl⟩ := Prod.mk.inj (Except.ok.inj h)
      exact .missing hg
  | some g =>
      simp only [hg] at h
      split at h
      · rename_i hpossible
        cases credentials with
        | none =>
            obtain ⟨g', hg', h⟩ := bind_ok.mp h
            obtain ⟨n, hn, hg'⟩ := bind_ok.mp hg'
            obtain rfl := Except.ok.inj hg'
            obtain ⟨-, rfl⟩ := addInt_ok.mp hn
            obtain ⟨rfl, rfl⟩ := Prod.mk.inj (Except.ok.inj h)
            exact .denied g hg hpossible rfl
        | some user =>
            simp only [allowAccess_of_possible id hpossible] at h
            cases stored with
            | true =>
                obtain ⟨rfl, rfl⟩ := Prod.mk.inj (Except.ok.inj h)
                exact .authenticated g user hg hpossible rfl
            | false =>
                obtain ⟨rfl, rfl⟩ := Prod.mk.inj (Except.ok.inj h)
                exact .unstored g user hg hpossible rfl
      · rename_i hblocked
        obtain ⟨rfl, rfl⟩ := Prod.mk.inj (Except.ok.inj h)
        exact .blocked g hg (by simpa using hblocked)

/-- The time of an attempt to log in. -/
def Call.attemptTime : Call → Option Date
  | authenticateUser _ time _ _ => some time
  | authenticateUserBiometrically _ time _ _ => some time
  | _ => none

/-- The identifier an attempt to log in has for a new session. -/
def Call.sessionID : Call → Option SessionID
  | authenticateUser _ _ id _ => some id
  | authenticateUserBiometrically _ _ id _ => some id
  | _ => none

theorem perform_attempt {s s' : Identity} {call : Call} {time : Date} {outcome : Outcome}
    (htime : call.attemptTime = some time) (h : call.perform services s = .ok (s', outcome)) :
    ∃ id credentials, call.sessionID = some id ∧ Attempt s time id credentials s' outcome ∧
      ∀ user ∈ credentials, s.user = some user := by
  cases call with
  | authenticateUser password time' id stored =>
      obtain rfl := Option.some.inj htime
      refine ⟨id, _, rfl, authenticate_attempt h, ?_⟩
      intro user huser
      exact (Option.filter_eq_some_iff.mp huser).1
  | authenticateUserBiometrically recognized time' id stored =>
      obtain rfl := Option.some.inj htime
      refine ⟨id, _, rfl, authenticate_attempt h, ?_⟩
      intro user huser
      cases recognized with
      | true => exact huser
      | false => cases huser
  | _ => cases htime

theorem step_ok {h h' : History} {call : Call} (hstep : step services h call = .ok h') :
    ∃ outcome, call.perform services h.identity = .ok (h'.identity, outcome) ∧
      h'.log = h.log ++ [(call, outcome)] := by
  obtain ⟨⟨identity, outcome⟩, hperform, hret⟩ := bind_ok.mp hstep
  obtain rfl := Except.ok.inj hret
  exact ⟨outcome, hperform, rfl⟩

/-- The log is of the calls of the run. -/
theorem run_log {h h' : History} {calls : List Call}
    (hrun : Transition.run (step services) h calls = .ok h') :
    h'.log.map Prod.fst = h.log.map Prod.fst ++ calls := by
  induction calls generalizing h with
  | nil =>
      obtain rfl := Except.ok.inj hrun
      simp
  | cons call calls ih =>
      obtain ⟨u, hstep, hrest⟩ := Transition.run_cons_ok.mp hrun
      obtain ⟨outcome, -, hlog⟩ := step_ok hstep
      rw [ih hrest, hlog]
      simp

/-! ### How often credentials can be tried -/

/-- Whether credentials were checked. -/
def Outcome.checked : Outcome → Bool
  | blocked => false
  | threw .gatekeeperNotFound => false
  | _ => true

/-- The times at which credentials were checked. -/
def checks (log : List (Call × Outcome)) : List Date :=
  (log.filter (·.2.checked)).filterMap (·.1.attemptTime)

theorem checks_append (log : List (Call × Outcome)) {call : Call} (outcome : Outcome)
    {time : Date} (htime : call.attemptTime = some time) :
    checks (log ++ [(call, outcome)]) =
      checks log ++ if outcome.checked then [time] else [] := by
  cases hchecked : outcome.checked <;>
    simp [checks, List.filter_append, hchecked, htime]

/-- A sublist of the times of all attempts. -/
theorem checks_sublist (log : List (Call × Outcome)) :
    (checks log).Sublist ((log.map Prod.fst).filterMap Call.attemptTime) := by
  rw [List.filterMap_map]
  exact List.filter_sublist.filterMap _

/-- While every check fails, the gatekeeper knows how many there were and the last one, and
the checks are spaced. -/
structure Limited (policy : AuthenticationPolicy) (h : History) : Prop where
  gatekeeper : ∃ session, h.identity.gatekeeper =
    some ⟨policy, session, (checks h.log).length, (checks h.log).getLast?⟩
  spaced : Window.Spaced policy.maxFailedAttempts.toNat policy.blockDuration (checks h.log)

theorem step_limited {policy : AuthenticationPolicy} {h h' : History} {call : Call} {time : Date}
    (htime : call.attemptTime = some time)
    (hfailed : ∀ e ∈ h'.log, e.2.checked = true → e.2 = .denied) (hh : Limited policy h)
    (hstep : step services h call = .ok h') : Limited policy h' := by
  obtain ⟨outcome, hperform, hlog⟩ := step_ok hstep
  have houtcome : outcome.checked = true → outcome = .denied :=
    hfailed (call, outcome) (by simp [hlog])
  have hchecks := checks_append h.log outcome htime
  rw [← hlog] at hchecks
  obtain ⟨session, hgatekeeper⟩ := hh.gatekeeper
  obtain ⟨id, credentials, -, hattempt, -⟩ := perform_attempt htime hperform
  generalize hs' : h'.identity = s' at hattempt
  cases hattempt with
  | missing hnone => simp [hgatekeeper] at hnone
  | blocked g _ _ =>
      have hsame : checks h'.log = checks h.log := by simpa [Outcome.checked] using hchecks
      refine ⟨⟨session, ?_⟩, ?_⟩
      · rw [hs', hsame]
        exact hgatekeeper
      · rw [hsame]
        exact hh.spaced
  | denied g hg hpossible _ =>
      obtain rfl := Option.some.inj (hg.symm.trans hgatekeeper)
      have hmore : checks h'.log = checks h.log ++ [time] := by
        simpa [Outcome.checked] using hchecks
      refine ⟨⟨none, ?_⟩, ?_⟩
      · rw [hs', hmore]
        simp
      · rw [hmore]
        refine hh.spaced.append ?_
        -- the gatekeeper let the attempt through
        cases hlast : (checks h.log).getLast? with
        | none => exact .inr (by simp)
        | some last =>
            simp only [Gatekeeper.isAccessPossible, hlast, Bool.or_eq_true,
              decide_eq_true_eq] at hpossible
            rcases hpossible with hcount | hexpired
            · exact .inl (by omega)
            · exact .inr (by simpa using hexpired)
  | authenticated _ _ _ _ _ => cases houtcome rfl
  | unstored _ _ _ _ _ => cases houtcome rfl

theorem step_blocked {h : History} {g : Gatekeeper} {call : Call} {time : Date}
    (hg : h.identity.gatekeeper = some g) (htime : call.attemptTime = some time)
    (hblocked : g.isAccessPossible time = false) :
    step services h call = .ok ⟨h.identity, h.log ++ [(call, .blocked)]⟩ := by
  have hauth : ∀ id stored credentials,
      h.identity.authenticate time id stored credentials = .ok (h.identity, .blocked) := by
    intro id stored credentials
    simp [Identity.authenticate, hg, hblocked]
  cases call with
  | authenticateUser password time' id stored =>
      obtain rfl := Option.some.inj htime
      simp only [step, Call.perform, Identity.authenticateUser, hauth]
      rfl
  | authenticateUserBiometrically recognized time' id stored =>
      obtain rfl := Option.some.inj htime
      simp only [step, Call.perform, Identity.authenticateUserBiometrically, hauth]
      rfl
  | _ => cases htime

/-- Password guessing is rate-limited. In every run of attempts from a fresh gatekeeper, at
times that do not go back, in which every check fails: at most `maxFailedAttempts` checks fall
into a window of the length of the block, from the last of these attempts on the checks are
that length apart, and a call that is blocked changes nothing. -/
theorem run_rateLimited {policy : AuthenticationPolicy} {user : Option User} {calls : List Call}
    {h : History} (hattempts : ∀ call ∈ calls, call.attemptTime.isSome = true)
    (hclock : (calls.filterMap Call.attemptTime).Pairwise (· ≤ ·))
    (hrun : Transition.run (step services) ⟨⟨user, some { policy := policy }⟩, []⟩ calls = .ok h)
    (hfailed : ∀ e ∈ h.log, e.2.checked = true → e.2 = .denied) :
    (∀ x, (checks h.log).countP (fun t => decide (x ≤ t ∧ t < x + policy.blockDuration)) ≤
        policy.maxFailedAttempts) ∧
      (∀ (i : Nat) t t', policy.maxFailedAttempts ≤ i + 1 → (checks h.log)[i]? = some t →
        (checks h.log)[i + 1]? = some t' → t + policy.blockDuration ≤ t') ∧
      ∀ (u : History) (g : Gatekeeper) (call : Call) (time : Date),
        u.identity.gatekeeper = some g → call.attemptTime = some time →
        g.isAccessPossible time = false →
          step services u call = .ok ⟨u.identity, u.log ++ [(call, .blocked)]⟩ := by
  -- the log only grows, so the checks so far have failed too
  have hinit : (∀ e ∈ ([] : List (Call × Outcome)), e.2.checked = true → e.2 = .denied) →
      Limited policy ⟨⟨user, some { policy := policy }⟩, []⟩ :=
    fun _ => ⟨⟨none, rfl⟩, Window.spaced_nil _ _⟩
  have hall : Transition.Allowed (step services) (fun _ call => call.attemptTime.isSome = true)
      ⟨⟨user, some { policy := policy }⟩, []⟩ calls :=
    Transition.allowed_of_forall fun call hcall _ => hattempts call hcall
  have hlimited : Limited policy h := by
    refine Transition.run_invariant_of_allowed
      (I := fun u => (∀ e ∈ u.log, e.2.checked = true → e.2 = .denied) → Limited policy u)
      ?_ hinit hall hrun hfailed
    intro u call v hguard hu hstep hfailed
    obtain ⟨time, htime⟩ := Option.isSome_iff_exists.mp hguard
    refine step_limited htime hfailed (hu ?_) hstep
    obtain ⟨outcome, -, hlog⟩ := step_ok hstep
    intro e he
    exact hfailed e (hlog ▸ List.mem_append_left _ he)
  have hsorted : (checks h.log).Pairwise (· ≤ ·) := by
    refine hclock.sublist ?_
    have hlog := run_log hrun
    simp only [List.map_nil, List.nil_append] at hlog
    rw [← hlog]
    exact checks_sublist h.log
  have hpos := policy.maxFailedAttempts_pos
  refine ⟨?_, ?_, ?_⟩
  · intro x
    have hcount : (checks h.log).countP (fun t => decide (x ≤ t ∧ t < x + policy.blockDuration)) ≤
        policy.maxFailedAttempts.toNat :=
      Window.countP_window_le (by omega) hsorted hlimited.spaced x
    omega
  · intro i t t' hi
    exact hlimited.spaced i t t' (by omega)
  · intro u g call time hg htime hblocked
    exact step_blocked hg htime hblocked

/-- A policy of two attempts. -/
def twoAttempts : AuthenticationPolicy := ⟨5, 2, 10, by decide, by decide, by decide⟩

/-- Passwords are not encrypted, and every character counts as a letter and as a digit. -/
def plainServices : Services := ⟨id, fun _ => true, fun _ => true⟩

/-- Three wrong passwords and one that is not looked at. -/
def guesses : List Call :=
  [0, 1, 3, 11].map fun time => .authenticateUser ['a'] time ['s'] true

theorem run_rateLimited_guesses :
    ∃ h, Transition.run (step plainServices) ⟨⟨none, some { policy := twoAttempts }⟩, []⟩ guesses =
        .ok h ∧ checks h.log = [0, 1, 11] ∧
      ∀ x, (checks h.log).countP (fun t => decide (x ≤ t ∧ t < x + 10)) ≤ (2 : Int) := by
  have heval : ((Transition.run (step plainServices)
      ⟨⟨none, some { policy := twoAttempts }⟩, []⟩ guesses).toOption.any fun h =>
        decide (checks h.log = [0, 1, 11] ∧
          ∀ e ∈ h.log, e.2.checked = true → e.2 = .denied)) = true := by
    decide +kernel
  obtain ⟨h, hrun, hh⟩ := exists_ok_of_any heval
  obtain ⟨hchecks, hfailed⟩ := of_decide_eq_true hh
  exact ⟨h, hrun, hchecks, (run_rateLimited (by decide) (by decide) hrun hfailed).1⟩

/-! ### Why a user is authenticated -/

/-- The session that both the user and the gatekeeper have, and the policy. -/
def Identity.liveSession (s : Identity) : Option (AuthenticationPolicy × Session) := do
  let g ← s.gatekeeper
  let session ← g.session
  if s.user.bind User.sessionID = some session.id then some (g.policy, session) else none

theorem liveSession_of_authenticated {s : Identity} {time : Date}
    (h : s.isUserAuthenticated time = .ok true) :
    ∃ policy session, s.liveSession = some (policy, session) ∧
      session.isActiveAt time = .ok true := by
  unfold Identity.isUserAuthenticated at h
  split at h
  · rename_i g id hg hid
    unfold Gatekeeper.hasAccess at h
    split at h
    · cases h
    · rename_i session hsession
      split at h
      · rename_i hsame
        refine ⟨g.policy, session, ?_, h⟩
        simp [Identity.liveSession, hg, hsession, hid, hsame]
      · cases h
  · cases h

theorem isActiveAt_true {session : Session} {s time : Date} (hstarted : session.startedAt = some s)
    (h : session.isActiveAt time = .ok true) :
    s ≤ time ∧ time ≤ session.updatedAt.getD s + session.duration := by
  unfold Session.isActiveAt at h
  rw [hstarted] at h
  cases hended : session.endedAt with
  | some date => simp [hended] at h
  | none =>
      simp only [hended] at h
      obtain ⟨period, hperiod, h⟩ := bind_ok.mp h
      obtain ⟨-, -, hperiod⟩ := bind_ok.mp hperiod
      obtain rfl := Except.ok.inj hperiod
      simpa using Except.ok.inj h

/-- An entry of the log that ends every session before it: a failed check, an update of the
password, a change of the policy, or a reset. -/
def endsSession : Call × Outcome → Bool
  | (_, .denied) => true
  | (.updatePrimaryUserPassword _ _, .returned) => true
  | (.configureSession _, .returned) => true
  | (.configureMaxPasswordAttempts _, .returned) => true
  | (.configureBlockDuration _, .returned) => true
  | (.resetGatekeeper, .returned) => true
  | (.reset _, .returned) => true
  | _ => false

/-- The time of a successful `useAccess(at:)`. -/
def usedAt : Call × Outcome → Option Date
  | (.useAccess time, .returned) => some time
  | _ => none

/-- The time of the last use in the log, or else `s`. -/
def lastUse (s : Date) (log : List (Call × Outcome)) : Date :=
  ((log.filterMap usedAt).getLast?).getD s

/-- `after` is what follows a login of time `s` that nothing has ended. -/
structure Login (log : List (Call × Outcome)) (s : Date) (after : List (Call × Outcome)) :
    Prop where
  mem : ∃ before call user, log = before ++ (call, .authenticated user) :: after ∧
    call.attemptTime = some s
  live : ∀ e ∈ after, endsSession e = false

/-- The identifiers of sessions that are stored. -/
def Identity.sessionIDs (s : Identity) : List SessionID :=
  (s.user.bind User.sessionID).toList ++
    (s.gatekeeper.bind Gatekeeper.session).toList.map Session.id

/-- What a call can do to the sessions. -/
inductive Effect (s : Identity) (call : Call) : Identity → Outcome → Prop
  | same {outcome : Outcome} (hlive : endsSession (call, outcome) = false)
      (hunused : usedAt (call, outcome) = none) : Effect s call s outcome
  | closed {s' : Identity} {outcome : Outcome} (hnone : s'.liveSession = none)
      (hids : s'.sessionIDs ⊆ s.sessionIDs) : Effect s call s' outcome
  | opened (g : Gatekeeper) (user : User) (time : Date) (id : SessionID)
      (htime : call.attemptTime = some time) (hid : call.sessionID = some id) :
      Effect s call ⟨some { user with sessionID := some id }, some (g.opened time id)⟩
        (.authenticated user.id)
  | unstored (g : Gatekeeper) (time : Date) (id : SessionID) (hid : call.sessionID = some id) :
      Effect s call { s with gatekeeper := some (g.opened time id) } (.threw .service)
  | renewed (g : Gatekeeper) (session : Session) (time : Date) (hg : s.gatekeeper = some g)
      (hsession : g.session = some session) (hcall : call = .useAccess time) :
      Effect s call
        { s with gatekeeper := some { g with session := some { session with updatedAt := some time } } }
        .returned

theorem effect_threw (s : Identity) (call : Call) (error : Error) :
    Effect s call s (.threw error) :=
  .same (by cases call <;> rfl) (by cases call <;> rfl)

theorem liveSession_of_no_user {s : Identity} (h : s.user.bind User.sessionID = none) :
    s.liveSession = none := by
  simp [Identity.liveSession, h]

theorem liveSession_of_no_session {s : Identity} (h : s.gatekeeper.bind Gatekeeper.session = none) :
    s.liveSession = none := by
  cases hg : s.gatekeeper with
  | none => simp [Identity.liveSession, hg]
  | some g =>
      have hsession : g.session = none := by simpa [hg] using h
      simp [Identity.liveSession, hg, hsession]

/-- A user that is stored anew has no session. -/
theorem effect_saveUser {s : Identity} {call : Call} (user : User) (stored : Bool)
    (outcome : Outcome) (huser : user.sessionID = none) :
    Effect s call (s.saveUser user stored outcome).1 (s.saveUser user stored outcome).2 := by
  cases stored with
  | false => exact effect_threw s call .service
  | true =>
      refine .closed (liveSession_of_no_user huser) ?_
      intro id hid
      simp only [Identity.sessionIDs, Identity.saveUser, if_true, Option.bind_some, huser,
        Option.toList_none, List.nil_append] at hid
      exact List.mem_append_right _ hid

/-- A gatekeeper that is changed has no session. -/
theorem effect_changeGatekeeper {s s' : Identity} {call : Call} {outcome : Outcome}
    {change : Gatekeeper → Except Error Gatekeeper}
    (hchange : ∀ g g', change g = .ok g' → g'.session = none)
    (h : s.changeGatekeeper change = (s', outcome)) : Effect s call s' outcome := by
  unfold Identity.changeGatekeeper at h
  split at h
  · rename_i hg
    obtain ⟨rfl, rfl⟩ := Prod.mk.inj h
    exact .closed (liveSession_of_no_session (by simp [hg])) (List.Subset.refl _)
  · rename_i g hg
    split at h
    · obtain ⟨rfl, rfl⟩ := Prod.mk.inj h
      exact effect_threw s call _
    · rename_i g' hg'
      obtain ⟨rfl, rfl⟩ := Prod.mk.inj h
      have hnone := hchange g g' hg'
      refine .closed (liveSession_of_no_session (by simp [hnone])) ?_
      intro id hid
      simp only [Identity.sessionIDs, Option.bind_some, hnone, Option.toList_none,
        List.map_nil, List.append_nil] at hid
      exact List.mem_append_left _ hid

theorem Attempt.effect {s s' : Identity} {call : Call} {time : Date} {id : SessionID}
    {credentials : Option User} {outcome : Outcome} (htime : call.attemptTime = some time)
    (hid : call.sessionID = some id) (h : Attempt s time id credentials s' outcome) :
    Effect s call s' outcome := by
  cases h with
  | missing _ => exact effect_threw s call .gatekeeperNotFound
  | blocked g _ _ => exact .same (by cases call <;> rfl) (by cases call <;> rfl)
  | denied g _ _ _ =>
      refine .closed (liveSession_of_no_session rfl) ?_
      intro id hid
      simp only [Identity.sessionIDs, Option.bind_some, Option.toList_none, List.map_nil,
        List.append_nil] at hid
      exact List.mem_append_left _ hid
  | authenticated g user _ _ _ => exact .opened g user time id htime hid
  | unstored g user _ _ _ => exact .unstored g time id hid

theorem renew_ok {session session' : Session} {time : Date}
    (h : session.renew time = .ok (.ok session')) :
    session' = { session with updatedAt := some time } := by
  obtain ⟨active, -, h⟩ := bind_ok.mp h
  cases active with
  | true => exact (Except.ok.inj (Except.ok.inj h)).symm
  | false => cases Except.ok.inj h

theorem useAccess_effect {s s' : Identity} {time : Date} {outcome : Outcome}
    (h : s.useAccess time = .ok (s', outcome)) : Effect s (.useAccess time) s' outcome := by
  unfold Identity.useAccess at h
  cases hg : s.gatekeeper with
  | none =>
      rw [hg] at h
      obtain ⟨rfl, rfl⟩ := Prod.mk.inj (Except.ok.inj h)
      exact .closed (liveSession_of_no_session (by simp [hg])) (List.Subset.refl _)
  | some g =>
      simp only [hg] at h
      obtain ⟨result, hresult, h⟩ := bind_ok.mp h
      cases result with
      | error error =>
          obtain ⟨rfl, rfl⟩ := Prod.mk.inj (Except.ok.inj h)
          exact effect_threw s _ error
      | ok g' =>
          obtain ⟨rfl, rfl⟩ := Prod.mk.inj (Except.ok.inj h)
          unfold Gatekeeper.useAccess at hresult
          split at hresult
          · cases Except.ok.inj hresult
          · rename_i hsession
            obtain rfl := Except.ok.inj (Except.ok.inj hresult)
            refine .closed (liveSession_of_no_session (by simp [hsession])) ?_
            simp [Identity.sessionIDs, hsession]
          · rename_i session _ hsession
            obtain ⟨renewed, hrenewed, hresult⟩ := bind_ok.mp hresult
            cases renewed with
            | error error => cases Except.ok.inj hresult
            | ok session' =>
                obtain rfl := renew_ok hrenewed
                obtain rfl := Except.ok.inj (Except.ok.inj hresult)
                exact .renewed g session time hg hsession rfl

theorem changePolicy_session {g g' : Gatekeeper} {policy : Except Error AuthenticationPolicy}
    (h : (do return g.changePolicy (← policy)) = Except.ok g') : g'.session = none := by
  obtain ⟨p, -, h⟩ := bind_ok.mp h
  obtain rfl := Except.ok.inj h
  rfl

/-- All that a call can do to the sessions. -/
theorem perform_effect {s s' : Identity} {call : Call} {outcome : Outcome}
    (h : call.perform services s = .ok (s', outcome)) : Effect s call s' outcome := by
  have hattempt : ∀ time, call.attemptTime = some time → Effect s call s' outcome := by
    intro time htime
    obtain ⟨id, credentials, hid, hattempt, -⟩ := perform_attempt htime h
    exact hattempt.effect htime hid
  cases call with
  | registerUser password id stored activated =>
      have h := Except.ok.inj h
      unfold Identity.registerUser at h
      split at h
      · obtain ⟨rfl, rfl⟩ := Prod.mk.inj h
        exact effect_threw s _ _
      · obtain ⟨rfl, rfl⟩ := Prod.mk.inj h
        exact effect_threw s _ _
      · obtain ⟨rfl, rfl⟩ := Prod.mk.inj h
        exact effect_saveUser _ stored _ rfl
  | updatePrimaryUserPassword password stored =>
      have h := Except.ok.inj h
      unfold Identity.updatePrimaryUserPassword at h
      split at h
      · obtain ⟨rfl, rfl⟩ := Prod.mk.inj h
        exact effect_threw s _ _
      · obtain ⟨rfl, rfl⟩ := Prod.mk.inj h
        exact effect_threw s _ _
      · obtain ⟨rfl, rfl⟩ := Prod.mk.inj h
        exact effect_saveUser _ stored _ rfl
  | authenticateUser password time id stored => exact hattempt time rfl
  | authenticateUserBiometrically recognized time id stored => exact hattempt time rfl
  | useAccess time => exact useAccess_effect h
  | configureSession duration =>
      exact effect_changeGatekeeper (fun g g' => changePolicy_session) (Except.ok.inj h)
  | configureMaxPasswordAttempts count =>
      exact effect_changeGatekeeper (fun g g' => changePolicy_session) (Except.ok.inj h)
  | configureBlockDuration duration =>
      exact effect_changeGatekeeper (fun g g' => changePolicy_session) (Except.ok.inj h)
  | resetGatekeeper =>
      refine effect_changeGatekeeper ?_ (Except.ok.inj h)
      intro g g' hg'
      obtain rfl := Except.ok.inj hg'
      rfl
  | reset removed =>
      have h := Except.ok.inj h
      unfold Identity.reset at h
      split at h
      · obtain ⟨rfl, rfl⟩ := Prod.mk.inj h
        refine .closed (liveSession_of_no_user rfl) ?_
        intro id hid
        cases hg : s.gatekeeper <;>
          simp [Identity.sessionIDs, hg, Gatekeeper.reset] at hid
      · obtain ⟨rfl, rfl⟩ := Prod.mk.inj h
        exact effect_threw s _ _

/-- The identifiers that the calls so far had for their sessions. -/
def usedIDs (log : List (Call × Outcome)) : List SessionID := log.filterMap (·.1.sessionID)

/-- The guard: identifiers of sessions are always fresh. -/
def FreshSession (h : History) (call : Call) : Prop := ∀ id ∈ call.sessionID, id ∉ usedIDs h.log

instance (h : History) (call : Call) : Decidable (FreshSession h call) :=
  inferInstanceAs (Decidable (∀ id ∈ call.sessionID, id ∉ usedIDs h.log))

theorem Login.append {log after : List (Call × Outcome)} {s : Date} {e : Call × Outcome}
    (h : Login log s after) (he : endsSession e = false) : Login (log ++ [e]) s (after ++ [e]) := by
  obtain ⟨before, call, user, rfl, htime⟩ := h.mem
  refine ⟨⟨before, call, user, by simp, htime⟩, ?_⟩
  intro e' he'
  rcases List.mem_append.mp he' with he' | he'
  · exact h.live e' he'
  · rw [List.mem_singleton.mp he']
    exact he

theorem lastUse_append (s : Date) (log : List (Call × Outcome)) (e : Call × Outcome) :
    lastUse s (log ++ [e]) = (usedAt e).getD (lastUse s log) := by
  cases he : usedAt e <;> simp [lastUse, List.filterMap_append, he]

/-- The session that is live is that of a login, and it was renewed when it was last used. -/
structure SessionInvariant (h : History) : Prop where
  ids : h.identity.sessionIDs ⊆ usedIDs h.log
  login : ∀ policy session, h.identity.liveSession = some (policy, session) →
    ∃ s after, Login h.log s after ∧ session.startedAt = some s ∧
      session.updatedAt.getD s = lastUse s after ∧ session.duration = policy.sessionDuration

theorem usedIDs_append (log : List (Call × Outcome)) (call : Call) (outcome : Outcome) :
    usedIDs (log ++ [(call, outcome)]) = usedIDs log ++ call.sessionID.toList := by
  cases hid : call.sessionID <;> simp [usedIDs, hid]

/-- The session of an identity whose gatekeeper has just opened one. -/
theorem liveSession_opened {user : Option User} {g : Gatekeeper} {time : Date} {id : SessionID}
    {policy : AuthenticationPolicy} {session : Session}
    (h : (⟨user, some (g.opened time id)⟩ : Identity).liveSession = some (policy, session)) :
    user.bind User.sessionID = some id ∧ session.startedAt = some time ∧
      session.updatedAt = none ∧ session.duration = policy.sessionDuration := by
  simp only [Identity.liveSession, Gatekeeper.opened, Option.bind_eq_bind, Option.bind_some] at h
  split at h
  · rename_i hid
    obtain ⟨rfl, rfl⟩ := Prod.mk.inj (Option.some.inj h)
    exact ⟨hid, rfl, rfl, rfl⟩
  · cases h

theorem step_session {h h' : History} {call : Call} (hfresh : FreshSession h call)
    (hh : SessionInvariant h) (hstep : step services h call = .ok h') : SessionInvariant h' := by
  obtain ⟨outcome, hperform, hlog⟩ := step_ok hstep
  have heffect := perform_effect hperform
  have hids := usedIDs_append h.log call outcome
  rw [← hlog] at hids
  generalize hs' : h'.identity = s' at heffect
  cases heffect with
  | same hlive hunused =>
      refine ⟨?_, ?_⟩
      · rw [hs', hids]
        exact List.Subset.trans hh.ids (List.subset_append_left _ _)
      · intro policy session hsession
        rw [hs'] at hsession
        obtain ⟨s, after, hlogin, hstarted, hupdated, hduration⟩ := hh.login policy session hsession
        -- the call neither ends the login nor uses the access
        refine ⟨s, after ++ [(call, outcome)], hlog ▸ hlogin.append hlive, hstarted, ?_, hduration⟩
        rw [lastUse_append, hunused]
        exact hupdated
  | closed hnone hsubset =>
      refine ⟨?_, ?_⟩
      · rw [hs', hids]
        exact List.Subset.trans hsubset
          (List.Subset.trans hh.ids (List.subset_append_left _ _))
      · intro policy session hsession
        rw [hs', hnone] at hsession
        cases hsession
  | opened g user time id htime hid =>
      refine ⟨?_, ?_⟩
      · rw [hs', hids, hid]
        intro id' hid'
        refine List.mem_append_right _ ?_
        simpa [Identity.sessionIDs, Gatekeeper.opened] using hid'
      · intro policy session hsession
        rw [hs'] at hsession
        obtain ⟨-, hstarted, hupdated, hduration⟩ := liveSession_opened hsession
        refine ⟨time, [], ⟨⟨h.log, call, user.id, hlog, htime⟩, by simp⟩, hstarted, ?_, hduration⟩
        rw [hupdated]
        rfl
  | unstored g time id hid =>
      refine ⟨?_, ?_⟩
      · rw [hs', hids, hid]
        intro id' hid'
        rcases List.mem_append.mp hid' with hid' | hid'
        · exact List.mem_append_left _ (hh.ids (List.mem_append_left _ hid'))
        · refine List.mem_append_right _ ?_
          simpa [Gatekeeper.opened] using hid'
      · -- the user still has the identifier of an earlier session
        intro policy session hsession
        rw [hs'] at hsession
        obtain ⟨huser, -⟩ := liveSession_opened hsession
        refine absurd (hh.ids ?_) (hfresh id hid)
        simp [Identity.sessionIDs, huser]
  | renewed g session time hg hsession hcall =>
      refine ⟨?_, ?_⟩
      · rw [hs', hids]
        intro id hid
        refine List.mem_append_left _ (hh.ids ?_)
        simpa [Identity.sessionIDs, hg, hsession] using hid
      · intro policy session' hlive
        rw [hs'] at hlive
        simp only [Identity.liveSession, Option.bind_eq_bind, Option.bind_some] at hlive
        split at hlive
        · rename_i huser
          obtain ⟨rfl, rfl⟩ := Prod.mk.inj (Option.some.inj hlive)
          have hbefore : h.identity.liveSession = some (g.policy, session) := by
            simp [Identity.liveSession, hg, hsession, huser]
          obtain ⟨s, after, hlogin, hstarted, -, hduration⟩ := hh.login _ _ hbefore
          subst hcall
          refine ⟨s, after ++ [(.useAccess time, .returned)], hlog ▸ hlogin.append rfl, hstarted,
            ?_, hduration⟩
          rw [lastUse_append]
          rfl
        · cases hlive

/-- Authenticated only because of a live login. In every run from an identity without sessions,
with fresh identifiers: if the user is authenticated at `time`, there is a successful login in
the run, not after `time`, such that no failed check, no update of the password, no change of
the policy and no reset follows it, and `time` is within the session's duration of the last use
after it, or of the login itself. -/
theorem run_authenticated {identity : Identity} {calls : List Call} {h : History} {time : Date}
    (hempty : identity.sessionIDs = [])
    (hall : Transition.Allowed (step services) FreshSession ⟨identity, []⟩ calls)
    (hrun : Transition.run (step services) ⟨identity, []⟩ calls = .ok h)
    (hauthenticated : h.identity.isUserAuthenticated time = .ok true) :
    ∃ s after g, Login h.log s after ∧ s ≤ time ∧ h.identity.gatekeeper = some g ∧
      time ≤ lastUse s after + g.policy.sessionDuration := by
  have hinit : SessionInvariant ⟨identity, []⟩ := by
    refine ⟨by simp [hempty], ?_⟩
    intro policy session hsession
    have hnone : identity.user.bind User.sessionID = none := by
      cases hid : identity.user.bind User.sessionID with
      | none => rfl
      | some id => simp [Identity.sessionIDs, hid] at hempty
    rw [liveSession_of_no_user hnone] at hsession
    cases hsession
  have hinv : SessionInvariant h := Transition.run_invariant_of_allowed
    (fun _ _ _ hfresh hu hstep => step_session hfresh hu hstep) hinit hall hrun
  obtain ⟨policy, session, hlive, hactive⟩ := liveSession_of_authenticated hauthenticated
  obtain ⟨s, after, hlogin, hstarted, hupdated, hduration⟩ := hinv.login policy session hlive
  obtain ⟨hs, htime⟩ := isActiveAt_true hstarted hactive
  obtain ⟨g, hg, hpolicy⟩ : ∃ g, h.identity.gatekeeper = some g ∧ g.policy = policy := by
    simp only [Identity.liveSession, Option.bind_eq_bind, Option.bind_eq_some_iff] at hlive
    obtain ⟨g, hg, session', -, hlive⟩ := hlive
    split at hlive
    · exact ⟨g, hg, (Prod.mk.inj (Option.some.inj hlive)).1⟩
    · cases hlive
  refine ⟨s, after, g, hlogin, hs, hg, ?_⟩
  rw [hpolicy, ← hduration, ← hupdated]
  exact htime

/-- A user registers, mistypes the password once, logs in and uses the app. -/
def firstLogin : List Call :=
  [.registerUser "abc123".toList ['u'] true true, .authenticateUser "abc124".toList 1 ['r'] true,
    .authenticateUser "abc123".toList 2 ['s'] true, .useAccess 4]

theorem run_authenticated_firstLogin :
    ∃ h s after g, Transition.run (step plainServices)
        ⟨⟨none, some { policy := twoAttempts }⟩, []⟩ firstLogin = .ok h ∧
      h.identity.isUserAuthenticated 8 = .ok true ∧
      Login h.log s after ∧ s ≤ 8 ∧ h.identity.gatekeeper = some g ∧
      8 ≤ lastUse s after + g.policy.sessionDuration := by
  have hall : Transition.Allowed (step plainServices) FreshSession
      ⟨⟨none, some { policy := twoAttempts }⟩, []⟩ firstLogin := by
    decide +kernel
  have heval : ((Transition.run (step plainServices)
      ⟨⟨none, some { policy := twoAttempts }⟩, []⟩ firstLogin).toOption.any fun h =>
        (h.identity.isUserAuthenticated 8).toOption.any id) = true := by
    decide +kernel
  obtain ⟨h, hrun, hh⟩ := exists_ok_of_any heval
  obtain ⟨authenticated, hauthenticated, rfl⟩ := exists_ok_of_any hh
  obtain ⟨s, after, g, hlive⟩ := run_authenticated rfl hall hrun hauthenticated
  exact ⟨h, s, after, g, hrun, hauthenticated, hlive⟩

end IdentityAccess

end MultisigWallet
