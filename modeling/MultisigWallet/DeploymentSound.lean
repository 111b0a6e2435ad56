import MultisigWallet.Deployment

/-!
# MultisigWallet.DeploymentSound

How the stored state of a wallet moves while the threads of a deployment interleave. A save
is in order if the state it stores is what `proceed()` or `cancel()` makes of the state that
was stored before (`Follows`).

Every thread proceeds or cancels the object it loaded, so a save is in order if no other
thread has moved the stored wallet to another state since. Nothing in the service sees to
that: stopping a loop is asynchronous, and a loop that is waiting for the network goes on with
its answer. `Fresh` is the condition on the schedule. `Outcome` says all a thread's step can
do.
-/

namespace MultisigWallet

namespace DeploymentDomainService

open Versioned (Agrees)

/-- `t` is the result of `proceed()` or `cancel()` in state `s`. -/
def Follows (s t : WalletState) : Prop := (∃ funded, s.proceed funded = t) ∨ s.cancel = t

/-- The wallet object a thread holds. -/
def copy? : Task → Option WalletCopy
  | .dispatched _ => none
  | .starting copy => some copy
  | .aborting copy => some copy
  | .aborted copy => some copy
  | .deploymentStarted copy => some copy
  | .walletFunded copy => some copy
  | .walletCreated copy => some copy
  | .polling _ _ _ _ copy => some copy

/-- Whether a closure that threw cancels the wallet. -/
def cancels (wallet : Wallet) : Failure → Bool
  | .network => false
  | .other => wallet.cancel.saved

/-- Whether a thread is about to save its wallet, given the answers it gets. -/
def saving (o : Outside) : Task → Bool
  | .dispatched _ => false
  | .starting copy => copy.value.state = .draft ∨ copy.value.state = .recoveryDraft
  | .aborting copy => copy.value.cancel.saved
  | .aborted _ => true
  | .deploymentStarted copy =>
      match o.creation with
      | .error failure => cancels copy.value failure
      | .ok _ => true
  | .walletFunded copy =>
      match o.startCreation with
      | .error failure => cancels copy.value failure
      | .ok () => copy.value.state ≠ .readyToUse
  | .walletCreated copy =>
      match o.notification with
      | .error failure => cancels copy.value failure
      | .ok () => false
  | .polling loop .main _ _ copy =>
      match iterate loop copy.value o with
      | .ok (.failed failure) => cancels copy.value failure
      | .ok (.done m) => m.saved
      | _ => false
  | .polling _ _ _ _ _ => false

/-- The guard: a thread that is about to save holds an object it loaded, or saved itself,
after the last change of the stored state. -/
def Fresh (w : World) : Step → Prop
  | .act task outside =>
      ∀ t ∈ w.tasks[task]?, saving outside t = true → ∀ k ∈ copy? t, k.since = w.row.moves
  | _ => True

instance (w : World) : (s : Step) → Decidable (Fresh w s)
  | .act task outside => inferInstanceAs (Decidable (∀ t ∈ w.tasks[task]?,
      saving outside t = true → ∀ k ∈ copy? t, k.since = w.row.moves))
  | .start => .isTrue trivial
  | .abortDeployment => .isTrue trivial
  | .publisher => .isTrue trivial
  | .repeaters => .isTrue trivial

/-! ### Moves of a wallet object -/

/-- A draft has no address and no creation transaction: `cancel()` forgets them. -/
def CleanDraft (wallet : Wallet) : Prop :=
  wallet.state = .draft → wallet.address = none ∧ wallet.creationTransactionHash = none

theorem proceed_ne_draft (s : WalletState) (funded : Bool) : s.proceed funded ≠ .draft := by
  cases s <;> cases funded <;> decide

theorem cancel_cancel (s : WalletState) : s.cancel.cancel = s.cancel := by
  cases s <;> rfl

/-- What a method of a wallet in state `s` may leave. -/
structure Legal (s : WalletState) (m : Moved) : Prop where
  saved : m.saved = true → Follows s m.wallet.state
  unsaved : m.saved = false → m.wallet.state = s

theorem proceed_ok {wallet : Wallet} {account : Option (Option Int)} {m : Moved}
    (h : wallet.proceed account = .ok m) :
    Legal wallet.state m ∧ m.wallet.state ≠ .draft ∧
      (m.saved = true → wallet.state ≠ .readyToUse) := by
  obtain ⟨funded, -, h⟩ := bind_ok.mp h
  obtain rfl := Except.ok.inj h
  refine ⟨⟨fun _ => .inl ⟨funded, rfl⟩, ?_⟩, proceed_ne_draft _ _, of_decide_eq_true⟩
  intro hsaved
  have hready : wallet.state = .readyToUse := by simpa using hsaved
  simp [hready, WalletState.proceed]

theorem cancel_state (wallet : Wallet) : wallet.cancel.wallet.state = wallet.state.cancel := by
  unfold Wallet.cancel
  split
  · rename_i h
    exact h.symm
  · rfl

theorem cancel_legal (wallet : Wallet) : Legal wallet.state wallet.cancel := by
  refine ⟨fun _ => .inr (cancel_state wallet).symm, ?_⟩
  unfold Wallet.cancel
  split
  · intro _
    rfl
  · intro hsaved
    cases hsaved

theorem cancel_clean {wallet : Wallet} (h : CleanDraft wallet) :
    CleanDraft wallet.cancel.wallet := by
  unfold Wallet.cancel
  split
  · exact h
  · intro _
    exact ⟨rfl, rfl⟩

theorem cancel_saved {wallet : Wallet} (h : wallet.cancel.saved = true) :
    wallet.state.cancel ≠ wallet.state := by
  unfold Wallet.cancel at h
  split at h
  · cases h
  · assumption

theorem resume_ok {wallet : Wallet} {account : Option (Option Int)} {m : Moved}
    (h : wallet.resume account = .ok m) (hclean : CleanDraft wallet) :
    Legal wallet.state m ∧ CleanDraft m.wallet ∧
      (m.saved = true → wallet.state = .draft ∨ wallet.state = .recoveryDraft) := by
  unfold Wallet.resume at h
  split at h
  · rename_i hdraft
    obtain ⟨-, -, h⟩ := bind_ok.mp h
    obtain ⟨hlegal, hne, -⟩ := proceed_ok h
    exact ⟨hdraft ▸ hlegal, fun hm => absurd hm hne, fun _ => .inl hdraft⟩
  · rename_i hdraft
    obtain ⟨hlegal, hne, -⟩ := proceed_ok h
    exact ⟨hlegal, fun hm => absurd hm hne, fun _ => .inr hdraft⟩
  · obtain rfl := Except.ok.inj h
    exact ⟨⟨nofun, fun _ => rfl⟩, hclean, nofun⟩

/-! ### All a step of a thread can do -/

/-- What holds of a thread between its steps. -/
structure TaskInvariant (row : Versioned.Cell Wallet) (t : Task) : Prop where
  agrees : ∀ k, copy? t = some k → Agrees Wallet.state row k
  clean : ∀ k, copy? t = some k → CleanDraft k.value
  /-- The second save of `abortDeployment()` stores what `cancel()` left. -/
  cancelled : ∀ k, t = .aborted k → k.value.state.cancel = k.value.state

/-- A handler at work: neither at the beginning of `start()` nor at the end of
`abortDeployment()`. -/
structure Working (t : Task) (k : WalletCopy) : Prop where
  copy : copy? t = some k
  not_starting : ∀ k', t ≠ .starting k'
  not_aborted : ∀ k', t ≠ .aborted k'

theorem Working.invariant {row : Versioned.Cell Wallet} {t : Task} {k : WalletCopy}
    (h : Working t k) (hagrees : Agrees Wallet.state row k) (hclean : CleanDraft k.value) :
    TaskInvariant row t := by
  refine ⟨?_, ?_, fun k' hk' => absurd hk' (h.not_aborted k')⟩
  · intro k' hk'
    obtain rfl := Option.some.inj (h.copy.symm.trans hk')
    exact hagrees
  · intro k' hk'
    obtain rfl := Option.some.inj (h.copy.symm.trans hk')
    exact hclean

theorem working_polling (loop : Loop) (phase : Phase) (repeater : Nat) (state : RepeaterState)
    (k : WalletCopy) : Working (.polling loop phase repeater state k) k :=
  ⟨rfl, fun _ => by simp, fun _ => by simp⟩

/-- The ways in which a step of the thread `task` can end. -/
inductive Outcome (o : Outside) (w : World) (task : Task) (w' : World) (task' : Option Task) :
    Prop
  | quiet (hrow : w'.row = w.row) (hsaves : w'.saves = w.saves)
      (haborted : w'.abortedToDraft = w.abortedToDraft)
      (hrest : ∀ t ∈ task', TaskInvariant w'.row t ∧ ∀ k, t ≠ .starting k)
  | saved (k : WalletCopy) (wallet : Wallet) (hk : copy? task = some k)
      (hsaving : saving o task = true)
      (hrow : w'.row = w.row.store Wallet.state wallet)
      (hsaves : w'.saves = w.saves ++ [(w.row.value.state, wallet.state)])
      (hfollows : Follows k.value.state wallet.state) (hclean : CleanDraft wallet)
      /- only `start()` takes a draft further -/
      (hdraft : k.value.state = .draft → wallet.state = .draft ∨ ∃ k', task = .starting k')
      (haborted : w'.abortedToDraft = w.abortedToDraft ∨
        wallet.state = .draft ∧ k.value.state ≠ .draft)
      (hrest : ∀ t ∈ task', TaskInvariant w'.row t ∧ ∀ k, t ≠ .starting k)

variable {w w₀ w' : World} {task : Task} {task' : Option Task} {k : WalletCopy} {m : Moved}
  {o : Outside}

/-- A thread that only takes a copy, or keeps the one it has. -/
theorem outcome_quiet (hrow : w'.row = w.row) (hsaves : w'.saves = w.saves)
    (haborted : w'.abortedToDraft = w.abortedToDraft)
    (hk : Agrees Wallet.state w.row k ∧ CleanDraft k.value)
    (hrest : ∀ t ∈ task', Working t k) : Outcome o w task w' task' := by
  refine .quiet hrow hsaves haborted ?_
  intro t ht
  rw [hrow]
  exact ⟨(hrest t ht).invariant hk.1 hk.2, (hrest t ht).not_starting⟩

/-- `perform` saves or leaves the row alone; either way the object it leaves agrees with the
row. -/
theorem perform_cases (w₀ : World) (hagrees : Agrees Wallet.state w₀.row k)
    (hlegal : Legal k.value.state m) :
    (m.saved = true ∧ (w₀.perform k m).1.row = w₀.row.store Wallet.state m.wallet ∧
        (w₀.perform k m).1.saves = w₀.saves ++ [(w₀.row.value.state, m.wallet.state)] ∨
      m.saved = false ∧ (w₀.perform k m).1.row = w₀.row ∧
        (w₀.perform k m).1.saves = w₀.saves) ∧
      (w₀.perform k m).1.abortedToDraft = w₀.abortedToDraft ∧
      (w₀.perform k m).2.value = m.wallet ∧
      Agrees Wallet.state (w₀.perform k m).1.row (w₀.perform k m).2 := by
  unfold World.perform
  cases hsaved : m.saved with
  | true =>
      refine ⟨.inl ⟨rfl, rfl, rfl⟩, rfl, rfl, ?_⟩
      exact Versioned.agrees_load Wallet.state _
  | false =>
      refine ⟨.inr ⟨rfl, rfl, rfl⟩, rfl, rfl, ⟨hagrees.since_le, ?_⟩⟩
      intro hsince
      exact (hlegal.unsaved hsaved).trans (hagrees.part_eq hsince)

/-- A thread that calls a method of its wallet. The blocks on the queues do not matter. -/
theorem outcome_perform (w₀ : World) (htask : TaskInvariant w.row task) (hk : copy? task = some k)
    (hrow₀ : w₀.row = w.row) (hsaves₀ : w₀.saves = w.saves)
    (haborted₀ : w₀.abortedToDraft = w.abortedToDraft) (hlegal : Legal k.value.state m)
    (hclean : CleanDraft m.wallet) (hsaving : m.saved = true → saving o task = true)
    (hdraft : k.value.state = .draft → m.wallet.state = .draft ∨ ∃ k', task = .starting k')
    (hrest : ∀ t ∈ task', Working t (w₀.perform k m).2) :
    Outcome o w task (w₀.perform k m).1 task' := by
  have hagrees : Agrees Wallet.state w₀.row k := by
    rw [hrow₀]
    exact htask.agrees k hk
  obtain ⟨hcases, haborted, hvalue, hagrees'⟩ := perform_cases w₀ hagrees hlegal
  have hcont : ∀ t ∈ task', TaskInvariant (w₀.perform k m).1.row t ∧ ∀ k, t ≠ .starting k := by
    intro t ht
    refine ⟨(hrest t ht).invariant hagrees' ?_, (hrest t ht).not_starting⟩
    rw [hvalue]
    exact hclean
  rcases hcases with ⟨hsaved, hrow, hsaves⟩ | ⟨-, hrow, hsaves⟩
  · rw [hrow₀] at hrow
    rw [hsaves₀, hrow₀] at hsaves
    exact .saved k m.wallet hk (hsaving hsaved) hrow hsaves (hlegal.saved hsaved) hclean hdraft
      (.inl (haborted.trans haborted₀)) hcont
  · exact .quiet (hrow.trans hrow₀) (hsaves.trans hsaves₀) (haborted.trans haborted₀) hcont

/-- Cancelling keeps a draft. -/
theorem cancel_draft {wallet : Wallet} (h : wallet.state = .draft) :
    wallet.cancel.wallet.state = .draft := by
  rw [cancel_state, h]
  rfl

theorem outcome_cancel (htask : TaskInvariant w.row task) (hk : copy? task = some k)
    (hrow₀ : w₀.row = w.row) (hsaves₀ : w₀.saves = w.saves)
    (haborted₀ : w₀.abortedToDraft = w.abortedToDraft)
    (hsaving : k.value.cancel.saved = true → saving o task = true)
    (hrest : ∀ t ∈ task', Working t (w₀.perform k k.value.cancel).2) :
    Outcome o w task (w₀.perform k k.value.cancel).1 task' :=
  outcome_perform w₀ htask hk hrow₀ hsaves₀ haborted₀ (cancel_legal k.value)
    (cancel_clean (htask.clean k hk)) hsaving (fun h => .inl (cancel_draft h)) hrest

theorem outcome_handleError (htask : TaskInvariant w.row task) (hk : copy? task = some k)
    {failure : Failure} (hsaving : cancels k.value failure = true → saving o task = true) :
    Outcome o w task (w.handleError k failure) none := by
  cases failure with
  | network =>
      refine outcome_quiet rfl rfl rfl ⟨htask.agrees k hk, htask.clean k hk⟩ ?_
      intro t ht
      cases ht
  | other =>
      refine outcome_cancel htask hk rfl rfl rfl hsaving ?_
      intro t ht
      cases ht

/-! ### Each thread -/

/-- A loop begins with the object the handler holds. -/
theorem outcome_startLoop (loop : Loop) (hrow₀ : w₀.row = w.row) (hsaves₀ : w₀.saves = w.saves)
    (haborted₀ : w₀.abortedToDraft = w.abortedToDraft)
    (hk : Agrees Wallet.state w.row k ∧ CleanDraft k.value) :
    Outcome o w task (startLoop w₀ loop k).1 (startLoop w₀ loop k).2 := by
  refine outcome_quiet hrow₀ hsaves₀ haborted₀ hk ?_
  intro t ht
  obtain rfl := Option.some.inj ht
  exact working_polling _ _ _ _ _

theorem handle_outcome {event : DomainEvent} (hclean : CleanDraft w.row.value)
    (h : handle w event = .ok (w', task')) : Outcome o w task w' task' := by
  have hload : Agrees Wallet.state w.row w.row.load ∧ CleanDraft w.row.load.value :=
    ⟨Versioned.agrees_load Wallet.state w.row, hclean⟩
  -- a handler that keeps the world and waits with its copy
  have hwait : ∀ t, Working t w.row.load → Outcome o w task w (some t) := by
    intro t ht
    refine outcome_quiet rfl rfl rfl hload ?_
    intro t' ht'
    obtain rfl := Option.some.inj ht'
    exact ht
  have hend : ∀ w', w'.row = w.row → w'.saves = w.saves →
      w'.abortedToDraft = w.abortedToDraft → Outcome o w task w' none := by
    intro w' hrow hsaves haborted
    refine outcome_quiet hrow hsaves haborted hload ?_
    intro t ht
    cases ht
  unfold handle at h
  cases event with
  | deploymentStarted =>
      obtain ⟨rfl, rfl⟩ := Prod.mk.inj (Except.ok.inj h)
      exact hwait _ ⟨rfl, fun _ => by simp, fun _ => by simp⟩
  | deploymentAborted =>
      obtain ⟨rfl, rfl⟩ := Prod.mk.inj (Except.ok.inj h)
      exact hend _ rfl rfl rfl
  | startedWaitingForFirstDeposit =>
      obtain ⟨rfl, rfl⟩ := Prod.mk.inj (Except.ok.inj h)
      exact outcome_startLoop _ rfl rfl rfl hload
  | startedWaitingForRemainingFeeAmount =>
      obtain ⟨rfl, rfl⟩ := Prod.mk.inj (Except.ok.inj h)
      exact outcome_startLoop _ rfl rfl rfl hload
  | deploymentFunded =>
      obtain ⟨rfl, rfl⟩ := Prod.mk.inj (Except.ok.inj h)
      exact hwait _ ⟨rfl, fun _ => by simp, fun _ => by simp⟩
  | creationStarted =>
      simp only at h
      split at h
      · obtain ⟨rfl, rfl⟩ := Prod.mk.inj (Except.ok.inj h)
        exact outcome_startLoop _ rfl rfl rfl hload
      · obtain ⟨rfl, rfl⟩ := Prod.mk.inj (Except.ok.inj h)
        exact outcome_startLoop _ rfl rfl rfl hload
  | walletCreated =>
      obtain ⟨rfl, rfl⟩ := Prod.mk.inj (Except.ok.inj h)
      exact hwait _ ⟨rfl, fun _ => by simp, fun _ => by simp⟩
  | walletCreationFailed => cases h
  | _ =>
      obtain ⟨rfl, rfl⟩ := Prod.mk.inj (Except.ok.inj h)
      exact hend _ rfl rfl rfl

/-- A thread that ends by proceeding from a state other than draft. -/
theorem outcome_proceed (htask : TaskInvariant w.row task) (hk : copy? task = some k)
    (hlegal : Legal k.value.state m) (hne : m.wallet.state ≠ .draft)
    (hstate : k.value.state ≠ .draft) (hsaving : m.saved = true → saving o task = true) :
    Outcome o w task (w.perform k m).1 none := by
  refine outcome_perform w htask hk rfl rfl rfl hlegal (fun h => absurd h hne) hsaving
    (fun h => absurd h hstate) ?_
  intro t ht
  cases ht

theorem configured_ok {wallet wallet' : Wallet} {response : SafeCreation}
    (h : configured wallet response = .ok wallet') :
    wallet'.state = wallet.state ∧ wallet.state ≠ .draft := by
  obtain ⟨wallet₁, h₁, h⟩ := bind_ok.mp h
  obtain ⟨wallet₂, h₂, h⟩ := bind_ok.mp h
  obtain rfl := Except.ok.inj h
  obtain ⟨rfl, hcan⟩ := Wallet.changeAddress_eq_ok h₁
  obtain rfl := Wallet.updateMinimumTransactionAmount_eq_ok h₂
  refine ⟨rfl, fun hdraft => ?_⟩
  rw [hdraft] at hcan
  cases hcan

theorem deploymentStarted_outcome (htask : TaskInvariant w.row (.deploymentStarted k))
    (h : deploymentStarted w k o = .ok w') : Outcome o w (.deploymentStarted k) w' none := by
  unfold deploymentStarted at h
  split at h
  · rename_i hcreation
    obtain rfl := Except.ok.inj h
    exact outcome_handleError htask rfl (by simp [saving, hcreation])
  · rename_i hcreation
    obtain ⟨wallet, hwallet, h⟩ := bind_ok.mp h
    obtain ⟨m, hm, h⟩ := bind_ok.mp h
    obtain rfl := Except.ok.inj h
    obtain ⟨hstate, hne⟩ := configured_ok hwallet
    obtain ⟨hlegal, hm, -⟩ := proceed_ok hm
    exact outcome_proceed htask rfl (hstate ▸ hlegal) hm hne (by simp [saving, hcreation])

/-- An object with an address, or with a creation transaction, is no draft. -/
theorem ne_draft_of_address {wallet : Wallet} {a : Address} (hclean : CleanDraft wallet)
    (h : wallet.address = some a) : wallet.state ≠ .draft := by
  intro hdraft
  rw [(hclean hdraft).1] at h
  cases h

theorem ne_draft_of_hash {wallet : Wallet} {hash : Str} (hclean : CleanDraft wallet)
    (h : wallet.creationTransactionHash = some hash) : wallet.state ≠ .draft := by
  intro hdraft
  rw [(hclean hdraft).2] at h
  cases h

theorem walletFunded_outcome (htask : TaskInvariant w.row (.walletFunded k))
    (h : walletFunded w k o = .ok w') : Outcome o w (.walletFunded k) w' none := by
  obtain ⟨a, ha, h⟩ := bind_ok.mp h
  have hne := ne_draft_of_address (htask.clean k rfl) (unwrap_ok.mp ha)
  split at h
  · rename_i hstart
    obtain rfl := Except.ok.inj h
    exact outcome_handleError htask rfl (by simp [saving, hstart])
  · rename_i hstart
    obtain ⟨m, hm, h⟩ := bind_ok.mp h
    obtain rfl := Except.ok.inj h
    obtain ⟨hlegal, hm, hready⟩ := proceed_ok hm
    exact outcome_proceed htask rfl hlegal hm hne (by simpa [saving, hstart] using hready)

theorem walletCreated_outcome (htask : TaskInvariant w.row (.walletCreated k))
    (h : walletCreated w k o = .ok w') : Outcome o w (.walletCreated k) w' none := by
  unfold walletCreated at h
  split at h
  · rename_i hnotification
    obtain rfl := Except.ok.inj h
    exact outcome_handleError htask rfl (by simp [saving, hnotification])
  · obtain ⟨_, -, h⟩ := bind_ok.mp h
    obtain ⟨_, -, h⟩ := bind_ok.mp h
    obtain rfl := Except.ok.inj h
    refine outcome_quiet rfl rfl rfl ⟨htask.agrees k rfl, htask.clean k rfl⟩ ?_
    intro t ht
    cases ht

/-- How an iteration comes to be done, with what it has read of the wallet. -/
inductive DoneBy (wallet : Wallet) (o : Outside) (m : Moved) : Prop
  | proceeded (hread : wallet.address.isSome = true ∨ wallet.creationTransactionHash.isSome = true)
      (hm : wallet.proceed o.account = .ok m)
  | hashKnown (hash : Str) (hread : wallet.address.isSome = true)
      (hcan : wallet.state.canChangeTransactionHash = true)
      (hm : m = ⟨{ wallet with creationTransactionHash := some hash }, true,
        some .walletTransactionHashIsKnown⟩)
  | cancelled (hread : wallet.creationTransactionHash.isSome = true) (hm : m = wallet.cancel)

theorem updateBalance_ok {wallet : Wallet} {out : Except Failure Int}
    (h : updateBalance wallet o = .ok out) : wallet.address.isSome = true := by
  obtain ⟨a, ha, -⟩ := bind_ok.mp h
  rw [unwrap_ok.mp ha]
  rfl

theorem iterate_doneBy {loop : Loop} {wallet : Wallet}
    (h : iterate loop wallet o = .ok (.done m)) : DoneBy wallet o m := by
  cases loop with
  | waitForFirstDeposit =>
      obtain ⟨out, hout, h⟩ := bind_ok.mp h
      cases out with
      | error failure => cases Except.ok.inj h
      | ok balance =>
          simp only at h
          split at h
          · obtain ⟨m', hm', h⟩ := bind_ok.mp h
            obtain rfl := Iteration.done.inj (Except.ok.inj h)
            exact .proceeded (.inl (updateBalance_ok hout)) hm'
          · cases Except.ok.inj h
  | waitForFunding =>
      obtain ⟨out, hout, h⟩ := bind_ok.mp h
      cases out with
      | error failure => cases Except.ok.inj h
      | ok balance =>
          obtain ⟨minimum, -, h⟩ := bind_ok.mp h
          split at h
          · obtain ⟨m', hm', h⟩ := bind_ok.mp h
            obtain rfl := Iteration.done.inj (Except.ok.inj h)
            exact .proceeded (.inl (updateBalance_ok hout)) hm'
          · cases Except.ok.inj h
  | waitForCreationTransactionHash =>
      obtain ⟨a, ha, h⟩ := bind_ok.mp h
      split at h
      · cases Except.ok.inj h
      · cases Except.ok.inj h
      · rename_i hash _
        obtain ⟨wallet', hwallet', h⟩ := bind_ok.mp h
        obtain rfl := Iteration.done.inj (Except.ok.inj h)
        obtain ⟨rfl, hcan⟩ := Wallet.assignCreationTransaction_eq_ok hwallet'
        exact .hashKnown hash (Option.isSome_iff_exists.mpr ⟨a, unwrap_ok.mp ha⟩) hcan rfl
  | waitForCreationTransactionCompletion =>
      obtain ⟨hash, hhash, h⟩ := bind_ok.mp h
      have hread := Option.isSome_iff_exists.mpr ⟨hash, unwrap_ok.mp hhash⟩
      split at h
      · cases Except.ok.inj h
      · cases Except.ok.inj h
      · obtain ⟨m', hm', h⟩ := bind_ok.mp h
        obtain rfl := Iteration.done.inj (Except.ok.inj h)
        exact .proceeded (.inr hread) hm'
      · obtain rfl := Iteration.done.inj (Except.ok.inj h)
        exact .cancelled hread rfl

theorem DoneBy.ne_draft {wallet : Wallet} (hclean : CleanDraft wallet) (h : DoneBy wallet o m) :
    wallet.state ≠ .draft := by
  have hread : wallet.address.isSome = true ∨ wallet.creationTransactionHash.isSome = true := by
    cases h with
    | proceeded hread hm => exact hread
    | hashKnown hash hread hcan hm => exact .inl hread
    | cancelled hread hm => exact .inr hread
  rcases hread with haddress | hhash
  · obtain ⟨a, ha⟩ := Option.isSome_iff_exists.mp haddress
    exact ne_draft_of_address hclean ha
  · obtain ⟨hash, hhash⟩ := Option.isSome_iff_exists.mp hhash
    exact ne_draft_of_hash hclean hhash

/-- An iteration that is done did not work on a draft. -/
theorem iterate_done {loop : Loop} {wallet : Wallet} (hclean : CleanDraft wallet)
    (h : iterate loop wallet o = .ok (.done m)) :
    Legal wallet.state m ∧ CleanDraft m.wallet ∧ wallet.state ≠ .draft := by
  have hdone := iterate_doneBy h
  have hne := hdone.ne_draft hclean
  cases hdone with
  | proceeded hread hm =>
      obtain ⟨hlegal, hne', -⟩ := proceed_ok hm
      exact ⟨hlegal, fun hdraft => absurd hdraft hne', hne⟩
  | hashKnown hash hread hcan hm =>
      subst hm
      -- only while the deployment is finalised, a state that `cancel()` keeps
      have hstate : wallet.state = .finalizingDeployment := by
        cases hs : wallet.state <;> rw [hs] at hcan <;> first | rfl | cases hcan
      refine ⟨⟨fun _ => .inr ?_, fun _ => rfl⟩, fun hdraft => absurd hdraft hne, hne⟩
      rw [hstate]
      rfl
  | cancelled hread hm =>
      subst hm
      exact ⟨cancel_legal wallet, cancel_clean hclean, hne⟩

theorem runMain_outcome {loop : Loop} {repeater : Nat} {state : RepeaterState}
    (htask : TaskInvariant w.row (.polling loop .main repeater state k))
    (h : runMain w loop repeater state k o = .ok (w', task')) :
    Outcome o w (.polling loop .main repeater state k) w' task' := by
  obtain ⟨iteration, hiteration, h⟩ := bind_ok.mp h
  cases iteration with
  | failed failure =>
      obtain ⟨rfl, rfl⟩ := Prod.mk.inj (Except.ok.inj h)
      exact outcome_handleError htask rfl (by simp [saving, hiteration])
  | again =>
      obtain ⟨rfl, rfl⟩ := Prod.mk.inj (Except.ok.inj h)
      refine outcome_quiet rfl rfl rfl ⟨htask.agrees k rfl, htask.clean k rfl⟩ ?_
      intro t ht
      obtain rfl := Option.some.inj ht
      exact working_polling _ _ _ _ _
  | done m =>
      obtain ⟨rfl, rfl⟩ := Prod.mk.inj (Except.ok.inj h)
      obtain ⟨hlegal, hclean, hne⟩ := iterate_done (htask.clean k rfl) hiteration
      refine outcome_perform { w with repeatersQueue := w.repeatersQueue ++ [.remove repeater] }
        htask rfl rfl rfl rfl hlegal hclean (by simp [saving, hiteration])
        (fun h => absurd h hne) ?_
      intro t ht
      obtain rfl := Option.some.inj ht
      exact working_polling _ _ _ _ _

theorem afterLoop_outcome (loop : Loop)
    (hk : Agrees Wallet.state w.row k ∧ CleanDraft k.value) :
    Outcome o w task (afterLoop w loop k).1 (afterLoop w loop k).2 := by
  have hend : Outcome o w task w none := by
    refine outcome_quiet rfl rfl rfl hk ?_
    intro t ht
    cases ht
  cases loop with
  | waitForCreationTransactionHash => exact outcome_startLoop _ rfl rfl rfl hk
  | waitForFirstDeposit => exact hend
  | waitForFunding => exact hend
  | waitForCreationTransactionCompletion => exact hend

theorem poll_outcome {loop : Loop} {phase : Phase} {repeater : Nat} {state : RepeaterState}
    (htask : TaskInvariant w.row (.polling loop phase repeater state k))
    (h : poll w loop phase repeater state k o = .ok (w', task')) :
    Outcome o w (.polling loop phase repeater state k) w' task' := by
  have hcopy : Agrees Wallet.state w.row k ∧ CleanDraft k.value :=
    ⟨htask.agrees k rfl, htask.clean k rfl⟩
  -- the loop goes on in another phase
  have hnext : ∀ phase' state',
      Outcome o w (.polling loop phase repeater state k) w
        (some (.polling loop phase' repeater state' k)) := by
    intro phase' state'
    refine outcome_quiet rfl rfl rfl hcopy ?_
    intro t ht
    obtain rfl := Option.some.inj ht
    exact working_polling _ _ _ _ _
  cases phase with
  | entering =>
      obtain ⟨rfl, rfl⟩ := Prod.mk.inj (Except.ok.inj h)
      exact hnext _ _
  | main => exact runMain_outcome htask h
  | returned =>
      simp only [poll, Except.ok.injEq] at h
      split at h
      · obtain ⟨rfl, rfl⟩ := Prod.mk.inj h
        exact afterLoop_outcome loop hcopy
      · obtain ⟨rfl, rfl⟩ := Prod.mk.inj h
        exact hnext _ _
  | idling =>
      obtain ⟨rfl, rfl⟩ := Prod.mk.inj (Except.ok.inj h)
      exact hnext _ _
  | waiting =>
      simp only [poll, Except.ok.injEq] at h
      split at h
      · obtain ⟨rfl, rfl⟩ := Prod.mk.inj h
        exact afterLoop_outcome loop hcopy
      · obtain ⟨rfl, rfl⟩ := Prod.mk.inj h
        exact hnext _ _

/-- `cancel()` in `abortDeployment()`. Only a wallet that was no draft becomes one. -/
theorem abort_outcome (htask : TaskInvariant w.row (.aborting k)) :
    Outcome o w (.aborting k) (abort w k).1 (abort w k).2 := by
  obtain ⟨hcases, haborted, hvalue, hagrees⟩ :=
    perform_cases w (htask.agrees k rfl) (cancel_legal k.value)
  have hrest : ∀ t ∈ (abort w k).2,
      TaskInvariant (abort w k).1.row t ∧ ∀ k', t ≠ .starting k' := by
    intro t ht
    obtain rfl : t = .aborted (w.perform k k.value.cancel).2 := (Option.some.inj ht).symm
    refine ⟨⟨?_, ?_, ?_⟩, fun _ => by simp⟩
    · intro k' hk'
      obtain rfl := Option.some.inj hk'
      exact hagrees
    · intro k' hk'
      obtain rfl := Option.some.inj hk'
      rw [hvalue]
      exact cancel_clean (htask.clean k rfl)
    · intro k' hk'
      obtain rfl := Task.aborted.inj hk'
      rw [hvalue, cancel_state, cancel_cancel]
  rcases hcases with ⟨hsaved, hrow, hsaves⟩ | ⟨hsaved, hrow, hsaves⟩
  · refine .saved k k.value.cancel.wallet rfl hsaved hrow hsaves ((cancel_legal _).saved hsaved)
      (cancel_clean (htask.clean k rfl)) (fun h => .inl (cancel_draft h)) ?_ hrest
    by_cases hdraft : k.value.cancel.wallet.state = .draft
    · refine .inr ⟨hdraft, ?_⟩
      intro hk
      apply cancel_saved hsaved
      rw [hk]
      rfl
    · refine .inl ?_
      simp [abort, haborted, hdraft]
  · refine .quiet hrow hsaves ?_ hrest
    simp [abort, haborted, hsaved]

/-- All a step of a thread can do. -/
theorem act_outcome (htask : TaskInvariant w.row task) (hclean : CleanDraft w.row.value)
    (h : act w task o = .ok (w', task')) : Outcome o w task w' task' := by
  cases task with
  | dispatched event => exact handle_outcome hclean h
  | starting k =>
      obtain ⟨m, hm, h⟩ := bind_ok.mp h
      obtain ⟨rfl, rfl⟩ := Prod.mk.inj (Except.ok.inj h)
      obtain ⟨hlegal, hm, hdraft⟩ := resume_ok hm (htask.clean k rfl)
      refine outcome_perform w htask rfl rfl rfl rfl hlegal hm (by simpa [saving] using hdraft)
        (fun _ => .inr ⟨k, rfl⟩) ?_
      intro t ht
      cases ht
  | aborting k =>
      obtain ⟨rfl, rfl⟩ := Prod.mk.inj (Except.ok.inj h)
      exact abort_outcome htask
  | aborted k =>
      obtain ⟨rfl, rfl⟩ := Prod.mk.inj (Except.ok.inj h)
      refine .saved k k.value rfl rfl rfl rfl (.inr (htask.cancelled k rfl))
        (htask.clean k rfl) .inl (.inl rfl) ?_
      intro t ht
      cases ht
  | deploymentStarted k =>
      obtain ⟨w₁, hw₁, h⟩ := bind_ok.mp h
      obtain ⟨rfl, rfl⟩ := Prod.mk.inj (Except.ok.inj h)
      exact deploymentStarted_outcome htask hw₁
  | walletFunded k =>
      obtain ⟨w₁, hw₁, h⟩ := bind_ok.mp h
      obtain ⟨rfl, rfl⟩ := Prod.mk.inj (Except.ok.inj h)
      exact walletFunded_outcome htask hw₁
  | walletCreated k =>
      obtain ⟨w₁, hw₁, h⟩ := bind_ok.mp h
      obtain ⟨rfl, rfl⟩ := Prod.mk.inj (Except.ok.inj h)
      exact walletCreated_outcome htask hw₁
  | polling loop phase repeater state k => exact poll_outcome htask h

/-! ### Runs -/

/-- What holds of the process in every state. -/
structure ProcessInvariant (w : World) : Prop where
  tasks : ∀ t ∈ w.tasks, TaskInvariant w.row t
  clean : CleanDraft w.row.value
  saves : ∀ save ∈ w.saves, Follows save.1 save.2
  /-- An aborted wallet is a draft, and a `start()` that loaded it before does not know. -/
  aborted : w.abortedToDraft = true → w.row.value.state = .draft ∧
    ∀ k, .starting k ∈ w.tasks → k.since ≠ w.row.moves

theorem TaskInvariant.store {row : Versioned.Cell Wallet} {t : Task} (h : TaskInvariant row t)
    (wallet : Wallet) : TaskInvariant (row.store Wallet.state wallet) t :=
  ⟨fun k hk => (h.agrees k hk).store wallet, h.clean, h.cancelled⟩

/-- A new thread that has just loaded its wallet. -/
theorem taskInvariant_load {row : Versioned.Cell Wallet} {t : Task} (hclean : CleanDraft row.value)
    (hcopy : copy? t = some row.load) (habort : ∀ k, t ≠ .aborted k) : TaskInvariant row t := by
  refine ⟨?_, ?_, fun k hk => absurd hk (habort k)⟩
  · intro k hk
    obtain rfl := Option.some.inj (hcopy.symm.trans hk)
    exact Versioned.agrees_load Wallet.state row
  · intro k hk
    obtain rfl := Option.some.inj (hcopy.symm.trans hk)
    exact hclean

theorem start_invariant (hw : ProcessInvariant w) : ProcessInvariant (start w) := by
  refine ⟨?_, hw.clean, hw.saves, nofun⟩
  intro t ht
  rcases List.mem_append.mp ht with ht | ht
  · exact hw.tasks t ht
  · obtain rfl := List.mem_singleton.mp ht
    exact taskInvariant_load hw.clean rfl (fun _ => by simp)

theorem abortDeployment_invariant (hw : ProcessInvariant w) :
    ProcessInvariant (abortDeployment w) := by
  refine ⟨?_, hw.clean, hw.saves, ?_⟩
  · intro t ht
    rcases List.mem_append.mp ht with ht | ht
    · exact hw.tasks t ht
    · obtain rfl := List.mem_singleton.mp ht
      exact taskInvariant_load hw.clean rfl (fun _ => by simp)
  · intro haborted
    obtain ⟨hdraft, hstarting⟩ := hw.aborted haborted
    refine ⟨hdraft, ?_⟩
    intro k hk
    rcases List.mem_append.mp hk with hk | hk
    · exact hstarting k hk
    · cases List.mem_singleton.mp hk

/-- A handler that holds nothing yet. -/
theorem taskInvariant_dispatched (row : Versioned.Cell Wallet) (event : DomainEvent) :
    TaskInvariant row (.dispatched event) := by
  have hcopy : ∀ k, copy? (.dispatched event) ≠ some k := fun k => Option.some_ne_none k |>.symm
  refine ⟨?_, ?_, ?_⟩
  · exact fun k hk => absurd hk (hcopy k)
  · exact fun k hk => absurd hk (hcopy k)
  · intro k hk
    cases hk

/-- What the queues do to the threads does not matter: it adds handlers that hold nothing, and
it stops loops. -/
theorem queue_invariant (hw : ProcessInvariant w) (hrow : w'.row = w.row)
    (hsaves : w'.saves = w.saves) (haborted : w'.abortedToDraft = w.abortedToDraft)
    (htasks : ∀ t ∈ w'.tasks, (∃ event, t = .dispatched event) ∨
      ∃ repeaters, ∃ t' ∈ w.tasks, t = stopped repeaters t') : ProcessInvariant w' := by
  have hstopped : ∀ repeaters t, copy? (stopped repeaters t) = copy? t := by
    intro repeaters t
    cases t <;> rfl
  have hkept : ∀ repeaters t t', stopped repeaters t = t' →
      (∀ loop phase repeater state k, t' ≠ .polling loop phase repeater state k) → t = t' := by
    intro repeaters t t' h hne
    cases t with
    | polling loop phase repeater state k => exact absurd h.symm (hne _ _ _ _ _)
    | _ => exact h
  refine ⟨?_, hrow ▸ hw.clean, hsaves ▸ hw.saves, ?_⟩
  · intro t ht
    rw [hrow]
    rcases htasks t ht with ⟨event, rfl⟩ | ⟨repeaters, t', ht', rfl⟩
    · exact taskInvariant_dispatched w.row event
    · have hinv := hw.tasks t' ht'
      refine ⟨?_, ?_, ?_⟩
      · rw [hstopped]
        exact hinv.agrees
      · rw [hstopped]
        exact hinv.clean
      · intro k hk
        exact hinv.cancelled k (hkept _ _ _ hk (by simp))
  · rw [haborted, hrow]
    intro h
    obtain ⟨hdraft, hstarting⟩ := hw.aborted h
    refine ⟨hdraft, ?_⟩
    intro k hk
    rcases htasks _ hk with ⟨event, hevent⟩ | ⟨repeaters, t', ht', hstop⟩
    · cases hevent
    · obtain rfl := hkept _ _ _ hstop.symm (by simp)
      exact hstarting k ht'

theorem stopped_nil (t : Task) : stopped [] t = t := by
  cases t <;> simp [stopped]

/-- The threads that are there go on. -/
theorem kept_tasks (w : World) : ∀ t ∈ w.tasks, (∃ event, t = .dispatched event) ∨
    ∃ repeaters, ∃ t' ∈ w.tasks, t = stopped repeaters t' :=
  fun t ht => .inr ⟨[], t, ht, (stopped_nil t).symm⟩

theorem publisherBlock_invariant (hw : ProcessInvariant w) :
    ProcessInvariant (publisherBlock w) := by
  unfold publisherBlock
  split
  · exact hw
  · exact queue_invariant hw rfl rfl rfl (kept_tasks w)
  · exact queue_invariant hw rfl rfl rfl (kept_tasks w)
  · refine queue_invariant hw rfl rfl rfl ?_
    intro t ht
    rcases List.mem_append.mp ht with ht | ht
    · exact kept_tasks w t ht
    · obtain ⟨event, -, rfl⟩ := List.mem_map.mp ht
      exact .inl ⟨event, rfl⟩

theorem repeatersBlock_invariant (hw : ProcessInvariant w) :
    ProcessInvariant (repeatersBlock w) := by
  unfold repeatersBlock
  split
  · exact hw
  · exact queue_invariant hw rfl rfl rfl (kept_tasks w)
  · exact queue_invariant hw rfl rfl rfl (kept_tasks w)
  · refine queue_invariant hw rfl rfl rfl ?_
    intro t ht
    obtain ⟨t', ht', rfl⟩ := List.mem_map.mp ht
    exact .inr ⟨_, t', ht', rfl⟩

/-- A fresh object is in the state that is stored, so what a method makes of the one it makes
of the other. -/
theorem act_invariant {i : Nat} (hfresh : Fresh w (.act i o)) (hw : ProcessInvariant w)
    (htask : w.tasks[i]? = some task) (h : act w task o = .ok (w', task')) :
    ProcessInvariant { w' with tasks := w.tasks.eraseIdx i ++ task'.toList } := by
  have hmem : task ∈ w.tasks := List.mem_of_getElem? htask
  have hinv := hw.tasks task hmem
  -- a `start()` among the threads was there before
  have hbefore : (∀ t ∈ task', TaskInvariant w'.row t ∧ ∀ k, t ≠ .starting k) →
      ∀ k, .starting k ∈ w.tasks.eraseIdx i ++ task'.toList → .starting k ∈ w.tasks := by
    intro hrest k hk
    rcases List.mem_append.mp hk with hk | hk
    · exact List.mem_of_mem_eraseIdx hk
    · exact absurd rfl ((hrest _ (Option.mem_toList.mp hk)).2 k)
  cases act_outcome hinv hw.clean h with
  | quiet hrow hsaves haborted hrest =>
      refine ⟨?_, ?_, ?_, ?_⟩
      · intro t ht
        rcases List.mem_append.mp ht with ht | ht
        · rw [hrow]
          exact hw.tasks t (List.mem_of_mem_eraseIdx ht)
        · exact (hrest t (Option.mem_toList.mp ht)).1
      · rw [hrow]
        exact hw.clean
      · rw [hsaves]
        exact hw.saves
      · intro habort
        rw [haborted] at habort
        obtain ⟨hdraft, hstarting⟩ := hw.aborted habort
        rw [hrow]
        exact ⟨hdraft, fun k hk => hstarting k (hbefore hrest k hk)⟩
  | saved k wallet hk hsaving hrow hsaves hfollows hclean hdraft haborted hrest =>
      have hsince : k.since = w.row.moves := hfresh task htask hsaving k hk
      have hstate : k.value.state = w.row.value.state := (hinv.agrees k hk).part_eq hsince
      refine ⟨?_, ?_, ?_, ?_⟩
      · intro t ht
        rcases List.mem_append.mp ht with ht | ht
        · rw [hrow]
          exact (hw.tasks t (List.mem_of_mem_eraseIdx ht)).store wallet
        · exact (hrest t (Option.mem_toList.mp ht)).1
      · rw [hrow]
        exact hclean
      · rw [hsaves]
        intro save hsave
        rcases List.mem_append.mp hsave with hsave | hsave
        · exact hw.saves save hsave
        · obtain rfl := List.mem_singleton.mp hsave
          exact hstate ▸ hfollows
      · intro habort
        rw [hrow]
        rcases haborted with haborted | ⟨hto, hfrom⟩
        · -- the wallet was a draft already, and the thread is no `start()`
          rw [haborted] at habort
          obtain ⟨hrowDraft, hstarting⟩ := hw.aborted habort
          have hto : wallet.state = .draft := by
            rcases hdraft (hstate.trans hrowDraft) with hto | ⟨k', rfl⟩
            · exact hto
            · obtain rfl := Option.some.inj hk
              exact absurd hsince (hstarting k' hmem)
          refine ⟨hto, ?_⟩
          intro k' hk'
          rw [Versioned.store_same (hto.trans hrowDraft.symm)]
          exact hstarting k' (hbefore hrest k' hk')
        · -- the wallet has just become one, so every other object is of the past
          refine ⟨hto, ?_⟩
          intro k' hk'
          have hle := ((hw.tasks _ (hbefore hrest k' hk')).agrees k' rfl).since_le
          have hne : wallet.state ≠ w.row.value.state := by
            rw [hto, ← hstate]
            exact hfrom.symm
          rw [Versioned.store_moved hne]
          omega

theorem step_invariant {s : Step} (hfresh : Fresh w s) (hw : ProcessInvariant w)
    (h : step w s = .ok w') : ProcessInvariant w' := by
  cases s with
  | start =>
      obtain rfl := Except.ok.inj h
      exact start_invariant hw
  | abortDeployment =>
      obtain rfl := Except.ok.inj h
      exact abortDeployment_invariant hw
  | publisher =>
      obtain rfl := Except.ok.inj h
      exact publisherBlock_invariant hw
  | repeaters =>
      obtain rfl := Except.ok.inj h
      exact repeatersBlock_invariant hw
  | act i o =>
      simp only [step] at h
      split at h
      · obtain rfl := Except.ok.inj h
        exact hw
      · rename_i task htask
        obtain ⟨⟨w₁, task'⟩, hact, h⟩ := bind_ok.mp h
        obtain rfl := Except.ok.inj h
        exact act_invariant hfresh hw htask hact

/-- The process has just been launched on the wallet. -/
def launched (wallet : Wallet) : World where
  row := ⟨wallet, 0⟩

/-- In every run in which a thread never saves an object that another one's change of the
stored state has overtaken: each save stores what `proceed()` or `cancel()` makes of the state
stored before it, and after `abortDeployment()` has made the wallet a draft it stays one until
the next `start()`. -/
theorem run_follows {wallet : Wallet} {steps : List Step} (hclean : CleanDraft wallet)
    (hall : Transition.Allowed step Fresh (launched wallet) steps)
    (hrun : Transition.run step (launched wallet) steps = .ok w) :
    (∀ save ∈ w.saves, Follows save.1 save.2) ∧
      (w.abortedToDraft = true → w.row.value.state = .draft) := by
  have hinit : ProcessInvariant (launched wallet) :=
    ⟨fun _ h => absurd h List.not_mem_nil, hclean, fun _ h => absurd h List.not_mem_nil, nofun⟩
  have hw : ProcessInvariant w := Transition.run_invariant_of_allowed
    (fun _ _ _ hfresh hw hstep => step_invariant hfresh hw hstep) hinit hall hrun
  exact ⟨hw.saves, fun h => (hw.aborted h).1⟩

/-! ### A deposit that arrives during an abort -/

/-- A wallet that waits for its first deposit. -/
def waitingWallet : Wallet where
  id := ['w']
  state := .waitingForFirstDeposit
  owners := ⟨[], OwnerList.roles_nodup_nil⟩
  address := some ⟨"0xa56ae0569c2826a06087161ede0b54f525eaa783".toList⟩
  minimumDeploymentTransactionAmount := some 100

/-- The network is down. -/
def offline : Outside where
  creation := .error .network
  balance := .error .network
  startCreation := .error .network
  transactionHash := .error .network
  receipt := .error .network
  notification := .error .network
  account := none

/-- The deposit is there. -/
def deposited : Outside := { offline with balance := .ok 100, account := some (some 100) }

/-- From the launch until the loop for the first deposit waits for the network. -/
def untilWaiting : List Step :=
  [.start, .act 0 offline] ++ List.replicate 10 .publisher ++ [.act 0 offline, .act 0 offline]

/-- The deposit arrives, and the deployment is aborted afterwards. -/
theorem run_follows_sequential :
    ∃ w, Transition.run step (launched waitingWallet)
        (untilWaiting ++ [.act 0 deposited, .abortDeployment, .act 1 offline, .act 1 offline,
          .act 0 offline]) = .ok w ∧
      w.saves = [(.waitingForFirstDeposit, .creationStarted), (.creationStarted, .draft),
        (.draft, .draft)] ∧ w.abortedToDraft = true ∧
      (∀ save ∈ w.saves, Follows save.1 save.2) ∧ w.row.value.state = .draft := by
  have hall : Transition.Allowed step Fresh (launched waitingWallet)
      (untilWaiting ++ [.act 0 deposited, .abortDeployment, .act 1 offline, .act 1 offline,
        .act 0 offline]) := by
    decide +kernel
  have heval : ((Transition.run step (launched waitingWallet)
      (untilWaiting ++ [.act 0 deposited, .abortDeployment, .act 1 offline, .act 1 offline,
        .act 0 offline])).toOption.any fun w =>
      w.saves = [(.waitingForFirstDeposit, .creationStarted), (.creationStarted, .draft),
        (.draft, .draft)] ∧ w.abortedToDraft = true) = true := by
    decide +kernel
  obtain ⟨w, hrun, hw⟩ := exists_ok_of_any heval
  obtain ⟨hsaves, haborted⟩ := of_decide_eq_true hw
  have hclean : CleanDraft waitingWallet := by simp [CleanDraft, waitingWallet]
  obtain ⟨hfollows, hdraft⟩ := run_follows hclean hall hrun
  exact ⟨w, hrun, hsaves, haborted, hfollows, hdraft haborted⟩

/-- The deployment is aborted while the loop waits, and then the deposit arrives: the loop
stores what it makes of the wallet it loaded before. -/
theorem not_follows_interleaved :
    ∃ w, Transition.run step (launched waitingWallet)
        (untilWaiting ++ [.abortDeployment, .act 1 offline, .act 1 offline, .act 0 deposited])
          = .ok w ∧
      ¬ (∀ save ∈ w.saves, Follows save.1 save.2) ∧
      w.abortedToDraft = true ∧ w.row.value.state = .creationStarted := by
  have heval : ((Transition.run step (launched waitingWallet)
      (untilWaiting ++ [.abortDeployment, .act 1 offline, .act 1 offline,
        .act 0 deposited])).toOption.any fun w =>
      (.draft, .creationStarted) ∈ w.saves ∧ w.abortedToDraft = true ∧
        w.row.value.state = .creationStarted) = true := by
    decide +kernel
  obtain ⟨w, hrun, hw⟩ := exists_ok_of_any heval
  obtain ⟨hsave, haborted, hstate⟩ := of_decide_eq_true hw
  refine ⟨w, hrun, ?_, haborted, hstate⟩
  intro hfollows
  rcases hfollows _ hsave with ⟨funded, h⟩ | h
  · cases h
  · cases h

end DeploymentDomainService

end MultisigWallet
