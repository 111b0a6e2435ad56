import MultisigWallet.EventRelay

/-!
# MultisigWallet.EventRelaySound

Who is notified of what. All that counts about a subscriber is the list of the classes it is
subscribed for, `subscriptions`: an event notifies it as often as the list has a matching class,
and every call does to the list what `follow` says. Unsubscribing takes the first class off the
list, so it is only clean when there is one class at most; `OnlySubscription` is that guard.
-/

namespace MultisigWallet

namespace EventRelay

variable {T S : Type} [DecidableEq S]

/-! ### The subscriptions of one subscriber -/

/-- The classes `subject` is subscribed for, in order. -/
def subscriptions (relay : EventRelay T S) (subject : S) : List T :=
  (relay.filter (·.ref = some subject)).map (·.type)

/-- What a call does to the subscriptions of `subject`. -/
def follow (subject : S) (types : List T) : Call T S → List T
  | .subscribe s event => if s = subject then types ++ [event] else types
  | .unsubscribe s => if s = subject then types.tail else types
  | .handleEvent _ => types
  | .deallocate s => if s = subject then [] else types

/-- The first entry that refers to the subscriber goes. -/
theorem unsubscribe_eq (relay : EventRelay T S) (s : S) :
    relay.unsubscribe s = relay.eraseP (·.ref = some s) := by
  rw [List.eraseP_eq_eraseIdx, unsubscribe]
  cases relay.findIdx? (·.ref = some s) <;> rfl

theorem subscriptions_unsubscribe (relay : EventRelay T S) (s subject : S) :
    (relay.unsubscribe s).subscriptions subject =
      if s = subject then (relay.subscriptions subject).tail else relay.subscriptions subject := by
  rw [unsubscribe_eq, subscriptions, subscriptions]
  induction relay with
  | nil => simp
  | cons e relay ih =>
      by_cases he : e.ref = some s
      · rw [List.eraseP_cons_of_pos (by simpa using he)]
        by_cases hs : s = subject
        · subst hs
          simp [he]
        · simp [he, hs]
      · rw [List.eraseP_cons_of_neg (by simpa using he)]
        by_cases hs : e.ref = some subject
        · have hne : s ≠ subject := fun h => he (h ▸ hs)
          simp only [hne, if_false] at ih ⊢
          simp [hs, ih]
        · simpa [hs] using ih

theorem subscriptions_deallocate (relay : EventRelay T S) (s subject : S) :
    (relay.deallocate s).subscriptions subject =
      if s = subject then [] else relay.subscriptions subject := by
  unfold subscriptions deallocate
  induction relay with
  | nil => simp
  | cons e relay ih =>
      by_cases he : e.ref = some s
      · by_cases hs : s = subject <;> simp_all
      · by_cases hs : s = subject <;> by_cases hes : e.ref = some subject <;> simp_all

variable [DecidableEq T] {domainEvent : T}

theorem subscriptions_handleEvent (relay : EventRelay T S) (event : T) (subject : S) :
    (relay.handleEvent domainEvent event).2.subscriptions subject = relay.subscriptions subject := by
  unfold subscriptions handleEvent removeWeakNils
  rw [List.filter_filter]
  congr 1
  refine List.filter_congr fun e _ => ?_
  cases e.ref <;> simp

theorem step_follow (subject : S) (relay : EventRelay T S) (call : Call T S)
    (relay' : EventRelay T S) (h : step domainEvent relay call = .ok relay') :
    relay'.subscriptions subject = follow subject (relay.subscriptions subject) call := by
  cases call with
  | subscribe s event =>
      obtain rfl := Except.ok.inj h
      by_cases hs : s = subject <;> simp [subscriptions, subscribe, follow, hs]
  | unsubscribe s =>
      obtain rfl := Except.ok.inj h
      exact subscriptions_unsubscribe relay s subject
  | handleEvent event =>
      obtain rfl := Except.ok.inj h
      exact subscriptions_handleEvent relay event subject
  | deallocate s =>
      obtain rfl := Except.ok.inj h
      exact subscriptions_deallocate relay s subject

/-- An event notifies a subscriber once for each matching subscription. -/
theorem count_handleEvent (relay : EventRelay T S) (event : T) (subject : S) :
    (relay.handleEvent domainEvent event).1.count subject =
      ((relay.subscriptions subject).filter (matchesEvent domainEvent · event)).length := by
  unfold handleEvent subscriptions removeWeakNils
  induction relay with
  | nil => rfl
  | cons e relay ih =>
      cases href : e.ref with
      | none => simpa [href] using ih
      | some s =>
          by_cases hm : matchesEvent domainEvent e.type event = true
          · by_cases hs : s = subject <;> simp_all
          · by_cases hs : s = subject <;> simp_all

/-! ### Runs -/

/-- A subscriber is unsubscribed when it has one subscription at most. -/
def OnlySubscription (relay : EventRelay T S) : Call T S → Prop
  | .unsubscribe s => (relay.subscriptions s).length ≤ 1
  | _ => True

instance : ∀ (relay : EventRelay T S) (call : Call T S), Decidable (OnlySubscription relay call)
  | relay, .unsubscribe s => inferInstanceAs (Decidable ((relay.subscriptions s).length ≤ 1))
  | _, .subscribe .. => .isTrue trivial
  | _, .handleEvent _ => .isTrue trivial
  | _, .deallocate _ => .isTrue trivial

/-- The calls that are about `subject`. -/
def Call.concerns (subject : S) : Call T S → Bool
  | .subscribe s _ => s = subject
  | .unsubscribe s => s = subject
  | .handleEvent _ => false
  | .deallocate s => s = subject

/-- The view of a run that `subject` has. -/
def followStep (subject : S) (types : List T) (call : Call T S) : Except Trap (List T) :=
  .ok (follow subject types call)

/-- The guard, in the view of `subject`. -/
def OneLeft (subject : S) (types : List T) (call : Call T S) : Prop :=
  call = .unsubscribe subject → types.length ≤ 1

omit [DecidableEq T] in
theorem followStep_skip (subject : S) (types : List T) (call : Call T S)
    (h : call.concerns subject = false) : followStep subject types call = .ok types := by
  cases call <;> simp_all [followStep, follow, Call.concerns]

theorem run_follow (subject : S) {relay relay' : EventRelay T S} {calls : List (Call T S)}
    (hrun : Transition.run (step domainEvent) relay calls = .ok relay') :
    Transition.run (followStep subject) (relay.subscriptions subject) calls =
      .ok (relay'.subscriptions subject) :=
  Transition.run_view (subscriptions · subject)
    (fun r call r' h => congrArg Except.ok (step_follow subject r call r' h).symm) hrun

theorem allowed_follow (subject : S) {relay relay' : EventRelay T S} {calls : List (Call T S)}
    (hall : Transition.Allowed (step domainEvent) OnlySubscription relay calls)
    (hrun : Transition.run (step domainEvent) relay calls = .ok relay') :
    Transition.Allowed (followStep subject) (OneLeft subject) (relay.subscriptions subject)
      calls := by
  refine Transition.allowed_view (subscriptions · subject)
    (fun r call r' h => congrArg Except.ok (step_follow subject r call r' h).symm) ?_ hall hrun
  rintro r call hguard rfl
  exact hguard

omit [DecidableEq T] in
/-- Unsubscribing the only subscription leaves none. -/
theorem follow_unsubscribe {subject : S} {types : List T}
    (h : OneLeft subject types (.unsubscribe subject)) :
    follow subject types (.unsubscribe subject) = [] := by
  have hone : types.length ≤ 1 := h rfl
  rw [follow, if_pos rfl, List.eq_nil_iff_length_eq_zero, List.length_tail]
  omega

omit [DecidableEq T] in
/-- Nobody subscribes `subject` again. -/
theorem run_follow_nil {subject : S} {types : List T} {calls : List (Call T S)}
    (hcalls : ∀ event, .subscribe subject event ∉ calls)
    (hrun : Transition.run (followStep subject) [] calls = .ok types) : types = [] := by
  have hstep : ∀ (types : List T) (call : Call T S) (types' : List T), call ∈ calls →
      types = [] → followStep subject types call = .ok types' → types' = [] := by
    rintro types call types' hcall rfl h
    obtain rfl := Except.ok.inj h
    cases call with
    | subscribe s event =>
        have hs : s ≠ subject := by
          rintro rfl
          exact hcalls event hcall
        simp [follow, hs]
    | unsubscribe s => simp [follow]
    | handleEvent event => rfl
    | deallocate s => simp [follow]
  exact Transition.run_invariant_of_allowed hstep rfl
    (Transition.allowed_of_forall fun call hcall _ => hcall) hrun

omit [DecidableEq T] in
theorem run_subscribe (subject : S) (types events : List T) :
    Transition.run (followStep subject) types (events.map (.subscribe subject)) =
      .ok (types ++ events) := by
  induction events generalizing types with
  | nil => simp
  | cons event events ih =>
      refine Transition.run_cons_ok.mpr ⟨types ++ [event], by simp [followStep, follow], ?_⟩
      rw [ih, List.append_assoc, List.singleton_append]

omit [DecidableEq T] in
/-- Subscribing anew leaves nothing of what there was before, if that was one class at most. -/
theorem run_resubscribe {subject : S} {types types' events : List T}
    (hall : Transition.Allowed (followStep subject) (OneLeft subject) types
      (resubscribe subject events))
    (hrun : Transition.run (followStep subject) types (resubscribe subject events) = .ok types') :
    types' = events := by
  obtain ⟨u, hu, hrest⟩ := Transition.run_cons_ok.mp hrun
  obtain rfl := Except.ok.inj hu
  rw [follow_unsubscribe hall.1, run_subscribe] at hrest
  exact (Except.ok.inj hrest).symm

omit [DecidableEq T] in
theorem run_resubscriptions {subject : S} {events : List T} (n : Nat) {types types' : List T}
    (hall : Transition.Allowed (followStep subject) (OneLeft subject) types
      (List.replicate (n + 1) (resubscribe subject events)).flatten)
    (hrun : Transition.run (followStep subject) types
      (List.replicate (n + 1) (resubscribe subject events)).flatten = .ok types') :
    types' = events := by
  induction n generalizing types with
  | zero =>
      rw [Nat.zero_add, List.replicate_one, List.flatten_singleton] at hall hrun
      exact run_resubscribe hall hrun
  | succ n ih =>
      rw [List.replicate_succ, List.flatten_cons] at hall hrun
      obtain ⟨u, hu, hrest⟩ := Transition.run_append_ok.mp hrun
      obtain ⟨-, hall⟩ := Transition.allowed_of_append hall hu
      exact ih hall hrest

/-- How many classes of a list without repetitions match an event. -/
theorem filter_matchesEvent_length {types : List T} (hnodup : types.Nodup) (event : T) :
    (types.filter (matchesEvent domainEvent · event)).length =
      (if event ∈ types then 1 else 0) +
        if domainEvent ∈ types ∧ domainEvent ≠ event then 1 else 0 := by
  induction types with
  | nil => simp
  | cons t types ih =>
      obtain ⟨ht, hnodup⟩ := List.nodup_cons.mp hnodup
      have ih := ih hnodup
      by_cases hevent : t = event
      · subst hevent
        by_cases hbase : t = domainEvent
        · subst hbase
          simp_all [matchesEvent]
        · have hne : domainEvent ≠ t := fun h => hbase h.symm
          simp_all [matchesEvent]
          omega
      · by_cases hbase : t = domainEvent
        · subst hbase
          have hne : event ≠ t := fun h => hevent h.symm
          simp_all [matchesEvent]
        · have hne : event ≠ t := fun h => hevent h.symm
          have hne' : domainEvent ≠ t := fun h => hbase h.symm
          simp_all [matchesEvent]

/-- If subscribers are only unsubscribed when they have one subscription at most, then an
unsubscribed one is not notified before it subscribes again, and one that keeps subscribing anew,
for classes of which no two match an event, is notified once of each event that matches. -/
theorem run_accounted {calls : List (Call T S)} {relay : EventRelay T S}
    (hall : Transition.Allowed (step domainEvent) OnlySubscription [] calls)
    (hrun : Transition.run (step domainEvent) [] calls = .ok relay) :
    (∀ subject before after, calls = before ++ .unsubscribe subject :: after →
        (∀ event, .subscribe subject event ∉ after) →
        ∀ event, subject ∉ (relay.handleEvent domainEvent event).1) ∧
      ∀ subject before after events n, calls = before ++ after →
        after.filter (·.concerns subject) =
          (List.replicate (n + 1) (resubscribe subject events)).flatten →
        events.Nodup → ∀ event, (events.any (matchesEvent domainEvent · event)) = true →
        ((relay.handleEvent domainEvent event).1.count subject = 1 ↔
          (domainEvent ∈ events → event ∈ events → event = domainEvent)) := by
  constructor
  · rintro subject before after rfl hafter event
    have hview := run_follow subject hrun
    obtain ⟨types, hbefore, hrest⟩ := Transition.run_append_ok.mp hview
    obtain ⟨-, hall⟩ := Transition.allowed_of_append (allowed_follow subject hall hrun) hbefore
    obtain ⟨types', htypes', hlast⟩ := Transition.run_cons_ok.mp hrest
    obtain rfl := Except.ok.inj htypes'
    rw [follow_unsubscribe hall.1] at hlast
    have hnone := run_follow_nil hafter hlast
    rw [← List.count_eq_zero, count_handleEvent, hnone]
    rfl
  · rintro subject before after events n rfl hpattern hnodup event hmatch
    have hview := run_follow subject hrun
    obtain ⟨types, hbefore, hrest⟩ := Transition.run_append_ok.mp hview
    obtain ⟨-, hall⟩ := Transition.allowed_of_append (allowed_follow subject hall hrun) hbefore
    rw [← Transition.run_filter (followStep_skip subject), hpattern] at hrest
    have hall := Transition.allowed_filter (followStep_skip subject) hall
    rw [hpattern] at hall
    rw [count_handleEvent, run_resubscriptions n hall hrest,
      filter_matchesEvent_length hnodup event]
    obtain ⟨t, ht, hmatch⟩ := List.any_eq_true.mp hmatch
    rcases of_decide_eq_true hmatch with rfl | rfl <;> grind

/-- A subscriber of one class of events that subscribes anew. -/
theorem run_accounted_resubscribed :
    ∃ relay, Transition.run (step EventType.domainEvent) []
        (resubscribe 0 [.accountsBalancesUpdated] ++ resubscribe 0 [.accountsBalancesUpdated]) =
          .ok relay ∧
      (relay.handleEvent .domainEvent .accountsBalancesUpdated).1.count 0 = 1 :=
  ⟨_, rfl, ((@run_accounted EventType Nat _ _ .domainEvent _ _ (by decide) rfl).2 0 []
    (resubscribe 0 [.accountsBalancesUpdated] ++ resubscribe 0 [.accountsBalancesUpdated])
    [.accountsBalancesUpdated] 1 rfl (by decide) (by decide) _ (by decide)).mpr (by decide)⟩

/-- The second `deployWallet` takes one of the eight subscriptions of the first off the relay,
and adds eight. A subscriber that unsubscribes after one `deployWallet` keeps seven. -/
theorem not_accounted_deployWallet :
    (∃ relay, Transition.run (step EventType.domainEvent) []
        (WalletApplicationService.deployWallet 0 ++ WalletApplicationService.deployWallet 0) =
          .ok relay ∧
      (relay.handleEvent .domainEvent (.wallet .deploymentFunded)).1.count 0 = 2) ∧
    ∃ relay, Transition.run (step EventType.domainEvent) []
        (WalletApplicationService.deployWallet 0 ++ [.unsubscribe 0]) = .ok relay ∧
      0 ∈ (relay.handleEvent .domainEvent (.wallet .deploymentFunded)).1 :=
  ⟨⟨_, rfl, by decide⟩, _, rfl, by decide⟩

end EventRelay

end MultisigWallet
