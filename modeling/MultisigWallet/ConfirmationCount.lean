import MultisigWallet.DeploymentSound
import MultisigWallet.RecoveryServiceSound

/-!
# MultisigWallet.ConfirmationCount

Where a wallet gets its confirmation count from. A wallet that is created gets it from
`DraftState.resume()`, which counts the extension in; the deployment leaves count and owners
alone, whatever its threads do to each other. A wallet that is recovered gets it from the
builder of its transaction, and keeps it unless the contract is asked again.
-/

namespace MultisigWallet

/-- The count is two with a browser extension and one without. -/
def Wallet.InStep (w : Wallet) : Prop :=
  w.confirmationCount = if w.owner .browserExtension = none then 1 else 2

instance (w : Wallet) : Decidable w.InStep :=
  inferInstanceAs (Decidable (w.confirmationCount = _))

/-- Only count and extension matter. -/
theorem Wallet.InStep.congr {w w' : Wallet} (h : w.InStep)
    (hcount : w'.confirmationCount = w.confirmationCount)
    (howner : w'.owner .browserExtension = w.owner .browserExtension) : w'.InStep := by
  rw [Wallet.InStep, hcount, howner]
  exact h

/-! ### Creation -/

namespace DeploymentDomainService

/-- A wallet object as the deployment makes them: a draft without an address, or in step. -/
structure Counted (w : Wallet) : Prop where
  clean : CleanDraft w
  inStep : w.state ≠ .draft → w.InStep

variable {wallet wallet' : Wallet} {m : Moved} {account : Option (Option Int)}

theorem Counted.proceed (h : Counted wallet) (hne : wallet.state ≠ .draft)
    (hm : wallet.proceed account = .ok m) : Counted m.wallet := by
  obtain ⟨funded, -, hm⟩ := bind_ok.mp hm
  obtain rfl := Except.ok.inj hm
  exact ⟨fun hdraft => absurd hdraft (proceed_ne_draft _ _), fun _ => (h.inStep hne).congr rfl rfl⟩

theorem Counted.cancel (h : Counted wallet) : Counted wallet.cancel.wallet := by
  refine ⟨cancel_clean h.clean, ?_⟩
  unfold Wallet.cancel
  split
  · exact h.inStep
  · rename_i hcancel
    intro _
    refine (h.inStep ?_).congr rfl rfl
    intro hdraft
    rw [hdraft] at hcancel
    exact hcancel rfl

/-- `DraftState.resume()` sets the count, and the other states leave it alone. -/
theorem Counted.resume (h : Counted wallet) (hm : wallet.resume account = .ok m) :
    Counted m.wallet := by
  unfold Wallet.resume at hm
  split at hm
  · obtain ⟨-, -, hm⟩ := bind_ok.mp hm
    obtain ⟨funded, -, hm⟩ := bind_ok.mp hm
    obtain rfl := Except.ok.inj hm
    exact ⟨fun hdraft => absurd hdraft (proceed_ne_draft _ _), fun _ => rfl⟩
  · rename_i hstate
    exact h.proceed (by rw [hstate]; decide) hm
  · obtain rfl := Except.ok.inj hm
    exact h

theorem Counted.configured {response : SafeCreation} (h : Counted wallet)
    (hconfigured : configured wallet response = .ok wallet') :
    Counted wallet' ∧ wallet'.state ≠ .draft := by
  have hne : wallet.state ≠ .draft := (configured_ok hconfigured).2
  obtain ⟨wallet₁, h₁, hconfigured⟩ := bind_ok.mp hconfigured
  obtain ⟨wallet₂, h₂, hconfigured⟩ := bind_ok.mp hconfigured
  obtain rfl := Except.ok.inj hconfigured
  obtain rfl := Wallet.updateMinimumTransactionAmount_eq_ok h₂
  obtain ⟨rfl, -⟩ := Wallet.changeAddress_eq_ok h₁
  exact ⟨⟨fun hdraft => absurd hdraft hne, fun _ => (h.inStep hne).congr rfl rfl⟩, hne⟩

/-- An iteration that is done leaves a wallet that is in step. -/
theorem Counted.iterate {loop : Loop} {o : Outside} (h : Counted wallet)
    (hdone : iterate loop wallet o = .ok (.done m)) : Counted m.wallet := by
  obtain ⟨-, hclean, hne⟩ := iterate_done h.clean hdone
  cases iterate_doneBy hdone with
  | proceeded hread hm => exact h.proceed hne hm
  | hashKnown hash hread hcan hm =>
      subst hm
      exact ⟨hclean, fun _ => (h.inStep hne).congr rfl rfl⟩
  | cancelled hread hm =>
      subst hm
      exact h.cancel

/-! ### Threads -/

variable {w w' : World} {k : WalletCopy} {task : Task} {task' : Option Task} {o : Outside}

/-- What is stored is in step, and so is the object of the thread. -/
structure Holds (w : World) (task : Option Task) : Prop where
  row : Counted w.row.value
  copy : ∀ t ∈ task, ∀ k, copy? t = some k → Counted k.value

theorem Holds.ended (h : Counted w.row.value) : Holds w none := by
  refine ⟨h, ?_⟩
  intro t ht
  cases ht

/-- A thread that goes on with the object `k`. -/
theorem Holds.working {t : Task} (h : Counted w.row.value) (hk : Counted k.value)
    (ht : copy? t = some k) : Holds w (some t) := by
  refine ⟨h, ?_⟩
  intro t' ht' k' hk'
  obtain rfl := Option.some.inj ht'
  obtain rfl := Option.some.inj (ht.symm.trans hk')
  exact hk

theorem perform_counted (h : Counted w.row.value) (hm : Counted m.wallet) :
    Counted (w.perform k m).1.row.value ∧ Counted (w.perform k m).2.value := by
  unfold World.perform
  cases m.saved with
  | true => exact ⟨hm, hm⟩
  | false => exact ⟨h, hm⟩

theorem handleError_counted (h : Counted w.row.value) (hk : Counted k.value) (failure : Failure) :
    Counted (w.handleError k failure).row.value := by
  cases failure with
  | network => exact h
  | other => exact (perform_counted h hk.cancel).1

theorem handle_holds {event : DomainEvent} (h : Counted w.row.value)
    (hhandle : handle w event = .ok (w', task')) : Holds w' task' := by
  have hload : Counted w.row.load.value := h
  cases event with
  | creationStarted =>
      simp only [handle] at hhandle
      split at hhandle
      all_goals
        obtain ⟨rfl, rfl⟩ := Prod.mk.inj (Except.ok.inj hhandle)
        exact .working h hload rfl
  | walletCreationFailed => cases hhandle
  | deploymentStarted | startedWaitingForFirstDeposit | startedWaitingForRemainingFeeAmount
  | deploymentFunded | walletCreated =>
      obtain ⟨rfl, rfl⟩ := Prod.mk.inj (Except.ok.inj hhandle)
      exact .working h hload rfl
  | _ =>
      obtain ⟨rfl, rfl⟩ := Prod.mk.inj (Except.ok.inj hhandle)
      exact .ended h

theorem deploymentStarted_holds (h : Counted w.row.value) (hk : Counted k.value)
    (hstarted : deploymentStarted w k o = .ok w') : Counted w'.row.value := by
  unfold deploymentStarted at hstarted
  split at hstarted
  · obtain rfl := Except.ok.inj hstarted
    exact handleError_counted h hk _
  · obtain ⟨wallet, hwallet, hstarted⟩ := bind_ok.mp hstarted
    obtain ⟨m, hm, hstarted⟩ := bind_ok.mp hstarted
    obtain rfl := Except.ok.inj hstarted
    obtain ⟨hcounted, hne⟩ := hk.configured hwallet
    exact (perform_counted h (hcounted.proceed hne hm)).1

theorem walletFunded_holds (h : Counted w.row.value) (hk : Counted k.value)
    (hfunded : walletFunded w k o = .ok w') : Counted w'.row.value := by
  obtain ⟨a, ha, hfunded⟩ := bind_ok.mp hfunded
  have hne := ne_draft_of_address hk.clean (unwrap_ok.mp ha)
  split at hfunded
  · obtain rfl := Except.ok.inj hfunded
    exact handleError_counted h hk _
  · obtain ⟨m, hm, hfunded⟩ := bind_ok.mp hfunded
    obtain rfl := Except.ok.inj hfunded
    exact (perform_counted h (hk.proceed hne hm)).1

theorem walletCreated_holds (h : Counted w.row.value) (hk : Counted k.value)
    (hcreated : walletCreated w k o = .ok w') : Counted w'.row.value := by
  unfold walletCreated at hcreated
  split at hcreated
  · obtain rfl := Except.ok.inj hcreated
    exact handleError_counted h hk _
  · obtain ⟨_, -, hcreated⟩ := bind_ok.mp hcreated
    obtain ⟨_, -, hcreated⟩ := bind_ok.mp hcreated
    obtain rfl := Except.ok.inj hcreated
    exact h

theorem runMain_holds {loop : Loop} {repeater : Nat} {state : RepeaterState}
    (h : Counted w.row.value) (hk : Counted k.value)
    (hmain : runMain w loop repeater state k o = .ok (w', task')) : Holds w' task' := by
  obtain ⟨iteration, hiteration, hmain⟩ := bind_ok.mp hmain
  cases iteration with
  | failed failure =>
      obtain ⟨rfl, rfl⟩ := Prod.mk.inj (Except.ok.inj hmain)
      exact .ended (handleError_counted h hk failure)
  | again =>
      obtain ⟨rfl, rfl⟩ := Prod.mk.inj (Except.ok.inj hmain)
      exact .working h hk rfl
  | done m =>
      obtain ⟨rfl, rfl⟩ := Prod.mk.inj (Except.ok.inj hmain)
      have hperform := perform_counted (k := k)
        (w := { w with repeatersQueue := w.repeatersQueue ++ [.remove repeater] }) h
        (hk.iterate hiteration)
      exact .working hperform.1 hperform.2 rfl

theorem afterLoop_holds (loop : Loop) (h : Counted w.row.value) (hk : Counted k.value) :
    Holds (afterLoop w loop k).1 (afterLoop w loop k).2 := by
  cases loop with
  | waitForCreationTransactionHash => exact .working h hk rfl
  | _ => exact .ended h

theorem poll_holds {loop : Loop} {phase : Phase} {repeater : Nat} {state : RepeaterState}
    (h : Counted w.row.value) (hk : Counted k.value)
    (hpoll : poll w loop phase repeater state k o = .ok (w', task')) : Holds w' task' := by
  cases phase with
  | main => exact runMain_holds h hk hpoll
  | entering | idling =>
      obtain ⟨rfl, rfl⟩ := Prod.mk.inj (Except.ok.inj hpoll)
      exact .working h hk rfl
  | returned | waiting =>
      simp only [poll, Except.ok.injEq] at hpoll
      split at hpoll
      · obtain ⟨rfl, rfl⟩ := Prod.mk.inj hpoll
        exact afterLoop_holds loop h hk
      · obtain ⟨rfl, rfl⟩ := Prod.mk.inj hpoll
        exact .working h hk rfl

/-- A step of a thread stores and keeps only wallets in step. -/
theorem act_holds (h : Holds w (some task)) (hact : act w task o = .ok (w', task')) :
    Holds w' task' := by
  have hcopy : ∀ k, copy? task = some k → Counted k.value := h.copy task rfl
  cases task with
  | dispatched event => exact handle_holds h.row hact
  | starting k =>
      obtain ⟨m, hm, hact⟩ := bind_ok.mp hact
      obtain ⟨rfl, rfl⟩ := Prod.mk.inj (Except.ok.inj hact)
      exact .ended (perform_counted h.row ((hcopy k rfl).resume hm)).1
  | aborting k =>
      obtain ⟨rfl, rfl⟩ := Prod.mk.inj (Except.ok.inj hact)
      have hperform := perform_counted (k := k) h.row (hcopy k rfl).cancel
      exact .working hperform.1 hperform.2 rfl
  | aborted k =>
      obtain ⟨rfl, rfl⟩ := Prod.mk.inj (Except.ok.inj hact)
      exact .ended (hcopy k rfl)
  | deploymentStarted k =>
      obtain ⟨w₁, hw₁, hact⟩ := bind_ok.mp hact
      obtain ⟨rfl, rfl⟩ := Prod.mk.inj (Except.ok.inj hact)
      exact .ended (deploymentStarted_holds h.row (hcopy k rfl) hw₁)
  | walletFunded k =>
      obtain ⟨w₁, hw₁, hact⟩ := bind_ok.mp hact
      obtain ⟨rfl, rfl⟩ := Prod.mk.inj (Except.ok.inj hact)
      exact .ended (walletFunded_holds h.row (hcopy k rfl) hw₁)
  | walletCreated k =>
      obtain ⟨w₁, hw₁, hact⟩ := bind_ok.mp hact
      obtain ⟨rfl, rfl⟩ := Prod.mk.inj (Except.ok.inj hact)
      exact .ended (walletCreated_holds h.row (hcopy k rfl) hw₁)
  | polling loop phase repeater state k => exact poll_holds h.row (hcopy k rfl) hact

/-! ### Runs of a deployment -/

/-- All wallets of the process are in step. -/
structure CountInvariant (w : World) : Prop where
  row : Counted w.row.value
  copies : ∀ t ∈ w.tasks, ∀ k, copy? t = some k → Counted k.value

/-- A step that adds a thread with what is stored. -/
theorem CountInvariant.loaded {t : Task} (h : CountInvariant w) (hrow : w'.row = w.row)
    (htasks : w'.tasks = w.tasks ++ [t]) (ht : copy? t = some w.row.load) : CountInvariant w' := by
  refine ⟨hrow ▸ h.row, ?_⟩
  rw [htasks]
  intro t' ht' k hk
  rcases List.mem_append.mp ht' with ht' | ht'
  · exact h.copies t' ht' k hk
  · obtain rfl := List.mem_singleton.mp ht'
    obtain rfl := Option.some.inj (ht.symm.trans hk)
    exact h.row

theorem copy?_stopped (repeaters : List Nat) (t : Task) : copy? (stopped repeaters t) = copy? t := by
  cases t <;> rfl

theorem publisherBlock_count (h : CountInvariant w) : CountInvariant (publisherBlock w) := by
  unfold publisherBlock
  split
  · exact h
  · exact ⟨h.row, h.copies⟩
  · exact ⟨h.row, h.copies⟩
  · refine ⟨h.row, ?_⟩
    intro t ht k hk
    rcases List.mem_append.mp ht with ht | ht
    · exact h.copies t ht k hk
    · obtain ⟨event, -, rfl⟩ := List.mem_map.mp ht
      cases hk

theorem repeatersBlock_count (h : CountInvariant w) : CountInvariant (repeatersBlock w) := by
  unfold repeatersBlock
  split
  · exact h
  · exact ⟨h.row, h.copies⟩
  · exact ⟨h.row, h.copies⟩
  · refine ⟨h.row, ?_⟩
    intro t ht k hk
    obtain ⟨t', ht', rfl⟩ := List.mem_map.mp ht
    exact h.copies t' ht' k ((copy?_stopped _ t').symm.trans hk)

theorem step_count {s : Step} (h : CountInvariant w) (hstep : step w s = .ok w') :
    CountInvariant w' := by
  cases s with
  | start =>
      obtain rfl := Except.ok.inj hstep
      exact h.loaded rfl rfl rfl
  | abortDeployment =>
      obtain rfl := Except.ok.inj hstep
      exact h.loaded rfl rfl rfl
  | publisher =>
      obtain rfl := Except.ok.inj hstep
      exact publisherBlock_count h
  | repeaters =>
      obtain rfl := Except.ok.inj hstep
      exact repeatersBlock_count h
  | act i o =>
      simp only [step] at hstep
      split at hstep
      · obtain rfl := Except.ok.inj hstep
        exact h
      · rename_i task htask
        obtain ⟨⟨w₁, task'⟩, hact, hstep⟩ := bind_ok.mp hstep
        obtain rfl := Except.ok.inj hstep
        have htask : Holds w (some task) :=
          ⟨h.row, fun t ht => Option.some.inj ht ▸ h.copies task (List.mem_of_getElem? htask)⟩
        obtain ⟨hrow, hcopy⟩ := act_holds htask hact
        refine ⟨hrow, ?_⟩
        intro t ht k hk
        rcases List.mem_append.mp ht with ht | ht
        · exact h.copies t (List.mem_of_mem_eraseIdx ht) k hk
        · exact hcopy t (Option.mem_toList.mp ht) k hk

/-- A wallet on its way from the draft: what the processes leave that deploy it, one after the
other, in whatever order their threads get their turns. -/
inductive Deployed : Wallet → Prop
  | draft {wallet : Wallet} (hstate : wallet.state = .draft) (haddress : wallet.address = none)
      (hhash : wallet.creationTransactionHash = none) : Deployed wallet
  | run {wallet : Wallet} {steps : List Step} {w : World} (hwallet : Deployed wallet)
      (hrun : Transition.run step (launched wallet) steps = .ok w) : Deployed w.row.value

theorem Deployed.counted (h : Deployed wallet) : Counted wallet := by
  induction h with
  | draft hstate haddress hhash =>
      exact ⟨fun _ => ⟨haddress, hhash⟩, fun hne => absurd hstate hne⟩
  | run hwallet hrun ih =>
      have hlaunched : CountInvariant (launched _) := 
        ⟨ih, fun _ ht => absurd ht List.not_mem_nil⟩
      exact (Transition.run_invariant (fun _ _ _ h hstep => step_count h hstep) hlaunched hrun).row

end DeploymentDomainService

/-! ### Recovery -/

namespace RecoveryDomainService

variable {lib : ThirdParty} {metadata : SafeContractMetadata} {answers : ContractAnswers}
  {d : Device} {w : Wallet} {m : Moved} {tx : Transaction} {α : Type}
  {post : α → Device → Prop}

/-- Every save, return and stop leaves a wallet in step. -/
abbrev Counts (m : Saving α) (d : Device) (post : α → Device → Prop) : Prop :=
  Journal.Does m d post (fun _ d' => d'.wallet.InStep) fun _ d' => d'.wallet.InStep

theorem inStep_prepareForRecovery (w : Wallet) : w.reset.prepareForRecovery.InStep := by
  have hnone : (w.owners.only .thisDevice).first .browserExtension = none := by
    rw [OwnerList.first, List.find?_eq_none]
    intro o ho
    have hrole : o.role = .thisDevice := of_decide_eq_true (List.mem_filter.mp ho).2
    rw [hrole]
    decide
  show (1 : Int) = if (w.owners.only .thisDevice).first .browserExtension = none then 1 else 2
  rw [if_pos hnone]

theorem inStep_proceed (h : w.InStep) {account : Option (Option Int)}
    (hm : w.proceed account = .ok m) : m.wallet.InStep := by
  obtain ⟨funded, -, hm⟩ := bind_ok.mp hm
  obtain rfl := Except.ok.inj hm
  exact h.congr rfl rfl

theorem inStep_cancel (h : w.InStep) : w.cancel.wallet.InStep := by
  unfold Wallet.cancel
  split
  · exact h
  · exact h.congr rfl rfl

theorem counts_perform {point : SavePoint} (h : d.wallet.InStep) (hm : m.wallet.InStep) :
    Counts (Saving.perform point m) d fun w d' => w.InStep ∧ d'.wallet.InStep := by
  unfold Saving.perform
  split
  · exact Journal.Does.modify_bind hm (Journal.Does.pure ⟨hm, hm⟩)
  · exact Journal.Does.pure ⟨hm, h⟩

theorem counts_removeTransaction (h : d.wallet.InStep) :
    Counts removeTransaction d fun _ d' => d'.wallet.InStep := by
  refine Journal.Does.get_bind ?_
  split
  · exact Journal.Does.modify h h
  · exact Journal.Does.pure h

theorem counts_cancelRecovery (h : d.wallet.InStep) :
    Counts cancelRecovery d fun _ d' => d'.wallet.InStep := by
  refine (counts_removeTransaction h).bind ?_
  intro _ d' _
  exact Journal.Does.get_bind (Journal.Does.modify (inStep_prepareForRecovery _)
    (inStep_prepareForRecovery _))

theorem counts_cancel {point : SavePoint} (h : d.wallet.InStep) (hw : w.InStep) :
    Counts (do
      let _ ← Saving.perform point w.cancel
      cancelRecovery) d fun _ d' => d'.wallet.InStep := by
  refine (counts_perform h (inStep_cancel hw)).bind ?_
  rintro _ d' ⟨-, h'⟩
  exact counts_cancelRecovery h'

theorem counts_postProcessing (h : d.wallet.InStep) :
    Counts (postProcessing lib answers) d fun _ d' => d'.wallet.InStep := by
  have herr : ∀ {β : Type} {x : Except Trap β}, ∀ e, x = .error e → d.wallet.InStep :=
    fun _ _ => h
  refine Journal.Does.get_bind ?_
  refine Journal.Does.lift_bind (fun _ _ => ?_) herr
  refine Journal.Does.lift_bind (fun _ _ => ?_) herr
  refine Journal.Does.lift_bind (fun recovered _ => ?_) herr
  cases recovered with
  | false => exact counts_cancel h h
  | true =>
      refine Journal.Does.lift_bind (fun paperWallet _ => ?_) herr
      refine Journal.Does.modify_bind h ?_
      refine Journal.Does.lift_bind (fun derived _ => ?_) fun _ _ => h
      refine Journal.Does.modify_bind h ?_
      refine Journal.Does.lift_bind (fun m hm => ?_) fun _ _ => h
      refine Journal.Does.bind (counts_perform h (inStep_proceed h hm)) ?_
      rintro w d' ⟨hw, h'⟩
      refine Journal.Does.lift_bind (fun w' hw' => ?_) fun _ _ => h'
      obtain rfl := Wallet.removeOwner_eq_ok hw'
      have hremoved : Wallet.InStep { w with owners := w.owners.remove .unknown } :=
        hw.congr rfl (OwnerList.first_remove _ (by decide))
      exact Journal.Does.modify hremoved hremoved

theorem counts_handleTransactionProgress (h : d.wallet.InStep) (hw : w.InStep) :
    Counts (handleTransactionProgress lib tx w answers) d fun _ d' => d'.wallet.InStep := by
  unfold handleTransactionProgress
  split
  · refine Journal.Does.lift_bind (fun m hm => ?_) fun _ _ => h
    refine (counts_perform h (inStep_proceed hw hm)).bind ?_
    rintro _ d' ⟨-, h'⟩
    exact counts_postProcessing h'
  · split
    · refine Journal.Does.lift_bind (fun m hm => ?_) fun _ _ => h
      refine (counts_perform h (inStep_proceed hw hm)).bind ?_
      rintro w' d' ⟨hw', h'⟩
      exact counts_cancel h' hw'
    · exact Journal.Does.pure h

/-- The wallet object of a subscription is in step, too. -/
def Subscribed (subscription : Option Wallet) (d' : Device) : Prop :=
  d'.wallet.InStep ∧ ∀ w ∈ subscription, w.InStep

theorem subscribed_none (h : d.wallet.InStep) : Subscribed none d :=
  ⟨h, fun w hw => absurd hw (Option.not_mem_none w)⟩

theorem counts_subscribe (h : d.wallet.InStep) :
    Counts subscribeForTransactionProcessing d Subscribed := by
  refine Journal.Does.get_bind (Journal.Does.lift_bind (fun t _ => ?_) fun _ _ => h)
  split
  · exact Journal.Does.pure ⟨h, fun w hw => Option.some.inj hw ▸ h⟩
  · exact Journal.Does.pure (subscribed_none h)

theorem counts_submit {clock : Clock} (h : d.wallet.InStep) :
    Counts (submitRecoveryTransaction lib answers clock) d Subscribed := by
  refine Journal.Does.get_bind (Journal.Does.lift_bind (fun t _ => ?_) fun _ _ => h)
  refine Journal.Does.lift_bind (fun request _ => ?_) fun _ _ => h
  split
  · exact Journal.Does.pure (subscribed_none h)
  · refine Journal.Does.lift_bind (fun t₁ _ => ?_) fun _ _ => h
    refine Journal.Does.lift_bind (fun t₂ _ => ?_) fun _ _ => h
    refine Journal.Does.modify_bind h ?_
    refine Journal.Does.lift_bind (fun m hm => ?_) fun _ _ => h
    refine Journal.Does.bind (counts_perform h (inStep_proceed h hm)) ?_
    rintro w d' ⟨hw, h'⟩
    exact Journal.Does.modify_bind hw (counts_subscribe hw)

theorem counts_resume {clock : Clock} (h : d.wallet.InStep) :
    Counts (resume lib answers clock) d Subscribed := by
  refine Journal.Does.get_bind (Journal.Does.lift_bind (fun tx _ => ?_) fun _ _ => h)
  split
  · exact counts_submit h
  · refine (counts_postProcessing h).bind ?_
    intro _ d' h'
    exact Journal.Does.pure (subscribed_none h')
  · exact counts_subscribe h
  · refine (counts_handleTransactionProgress h h).bind ?_
    intro _ d' h'
    exact Journal.Does.pure (subscribed_none h')
  · exact Journal.Does.fail h

/-! ### Before there is a transaction -/

/-- The stored wallet is in step, or it is not ready to use and has no transaction that could
make it so. -/
def Settled (d : Device) : Prop :=
  d.wallet.InStep ∨ d.transaction = none ∧ d.wallet.state ≠ .readyToUse

abbrev Settles (m : Saving α) (d : Device) (post : α → Device → Prop) : Prop :=
  Journal.Does m d post (fun _ d' => Settled d') fun _ d' => Settled d'

theorem Settled.inStep (h : Settled d) (htx : d.transaction = some tx) : d.wallet.InStep := by
  rcases h with h | ⟨hnone, -⟩
  · exact h
  · exact nomatch htx.symm.trans hnone

theorem Settled.ready (h : Settled d) (hready : d.wallet.state = .readyToUse) :
    d.wallet.InStep := by
  rcases h with h | ⟨-, hne⟩
  · exact h
  · exact absurd hready hne

/-- A wallet saved over another one, with the same state, count and extension. -/
theorem Settled.resaved {d' : Device} (h : Settled d) (htx : d'.transaction = d.transaction)
    (hstate : d'.wallet.state = d.wallet.state)
    (hcount : d'.wallet.confirmationCount = d.wallet.confirmationCount)
    (howner : d'.wallet.owner .browserExtension = d.wallet.owner .browserExtension) :
    Settled d' := by
  rcases h with h | ⟨hnone, hne⟩
  · exact .inl (h.congr hcount howner)
  · exact .inr ⟨htx.trans hnone, hstate ▸ hne⟩

theorem settles_of_counts {m : Saving α} (h : Counts m d post) : Settles m d post :=
  h.weaken (fun _ _ hpost => hpost) (fun _ _ => .inl) fun _ _ => .inl

theorem settles_resume {clock : Clock} (h : Settled d) :
    Settles (resume lib answers clock) d
      fun subscription d' => Settled d' ∧ ∀ w ∈ subscription, w.InStep := by
  cases htx : d.transaction with
  | none =>
      refine Journal.Does.get_bind (Journal.Does.lift_bind (fun tx hunwrap => ?_) fun _ _ => h)
      exact nomatch htx.symm.trans (unwrap_ok.mp hunwrap)
  | some tx =>
      refine (settles_of_counts (counts_resume (h.inStep htx))).weaken ?_ (fun _ _ => id)
        fun _ _ => id
      intro subscription d' h'
      exact ⟨.inl h'.1, h'.2⟩

theorem settles_updatePendingTransaction {succeeded : Bool} {date : Date} {clock : Clock}
    (h : Settled d) :
    Settles (updatePendingTransaction succeeded date clock) d fun _ d' => Settled d' := by
  refine Journal.Does.get_bind ?_
  split
  · exact Journal.Does.pure h
  · rename_i htx
    split
    · refine Journal.Does.lift_bind (fun t _ => ?_) fun _ _ => h
      exact Journal.Does.modify (.inl (h.inStep htx)) (.inl (h.inStep htx))
    · exact Journal.Does.pure h

theorem settles_transactionStatusUpdated (h : Settled d) (hw : w.InStep) :
    Settles (transactionStatusUpdated lib w answers) d fun _ d' => Settled d' := by
  refine Journal.Does.get_bind ?_
  split
  · exact Journal.Does.pure h
  · rename_i htx
    split
    · exact Journal.Does.pure h
    · refine (settles_of_counts
        (counts_handleTransactionProgress (h.inStep htx) hw)).bind ?_
      intro _ d' h'
      exact Journal.Does.pure (.inl h')

theorem settles_removeTransaction (h : Settled d) :
    Settles removeTransaction d fun _ d' => d' = { d with transaction := none } := by
  have hremoved : Settled { d with transaction := none } := h.imp_right fun h => ⟨rfl, h.2⟩
  refine Journal.Does.get_bind ?_
  split
  · exact Journal.Does.modify hremoved rfl
  · rename_i hnone
    exact Journal.Does.pure (eq_removed hnone)

theorem settles_cancelRecovery (h : Settled d) :
    Settles cancelRecovery d fun _ d' => Settled d' := by
  refine (settles_removeTransaction h).bind ?_
  rintro _ _ rfl
  exact Journal.Does.get_bind (Journal.Does.modify (.inl (inStep_prepareForRecovery _))
    (.inl (inStep_prepareForRecovery _)))

theorem settles_pullWalletData (htx : d.transaction = none) (hne : d.wallet.state ≠ .readyToUse) :
    Settles (pullWalletData lib answers) d fun _ d' => Settled d' := by
  have h : Settled d := .inr ⟨htx, hne⟩
  have herr : ∀ {β : Type} {x : Except Trap β}, ∀ e, x = .error e → Settled d := fun _ _ => h
  refine Journal.Does.get_bind (Journal.Does.lift_bind (fun _ _ => ?_) herr)
  split
  · refine Journal.Does.lift_bind (fun existingOwnerAddresses _ => ?_) herr
    refine Journal.Does.lift_bind (fun confirmationCount _ => ?_) herr
    refine Journal.Does.lift_bind (fun w hw => ?_) herr
    have hstate := (RecoveryTransactionBuilder.addUnknownOwners_same hw).state
    split
    · exact Journal.Does.modify (.inr ⟨htx, hstate ▸ hne⟩) (.inr ⟨htx, hstate ▸ hne⟩)
    · exact Journal.Does.pure h
  · exact Journal.Does.pure h

/-- The contract's threshold is taken over as the count, but nothing comes of it before a
transaction is built. -/
theorem settles_changeAddress {address : Address} (h : Settled d) (htx : d.transaction = none) :
    Settles (changeAddress lib metadata address answers) d fun _ d' => Settled d' := by
  unfold changeAddress
  split
  · split
    · refine Journal.Does.get_bind (Journal.Does.lift_bind (fun w hw => ?_) fun _ _ => h)
      obtain ⟨rfl, hcan⟩ := Wallet.changeAddress_eq_ok hw
      have hne : d.wallet.state ≠ .readyToUse := by
        intro hready
        rw [hready] at hcan
        cases hcan
      exact Journal.Does.modify_bind (.inr ⟨htx, hne⟩) (settles_pullWalletData htx hne)
    · exact Journal.Does.pure h
  · exact Journal.Does.pure h

theorem settles_saveAccount {account : ExternallyOwnedAccount} (h : Settled d) :
    Settles (saveAccount account) d fun _ d' => d'.wallet = d.wallet ∧ Settled d' := by
  refine Journal.Does.get_bind ?_
  split
  · have h' : Settled { d with
        accounts := d.accounts ++ [(account.address, account.privateKey)] } :=
      h.resaved rfl rfl rfl rfl
    exact Journal.Does.modify h' ⟨rfl, h'⟩
  · exact Journal.Does.pure ⟨rfl, h⟩

theorem settles_provide {eoa : Option EOAPair} (h : Settled d) :
    Settles (provide lib eoa) d fun _ d' => Settled d' := by
  cases eoa with
  | none => exact Journal.Does.pure h
  | some pair =>
      have herr : ∀ {β : Type} {x : Except Trap β}, ∀ e, x = .error e → Settled d :=
        fun _ _ => h
      refine Journal.Does.get_bind ?_
      refine Journal.Does.lift_bind (fun recoveryOwner _ => ?_) herr
      refine Journal.Does.lift_bind (fun derivedOwner _ => ?_) herr
      split
      · refine (settles_saveAccount h).bind ?_
        rintro _ d₁ ⟨hwallet₁, h₁⟩
        refine (settles_saveAccount h₁).bind ?_
        rintro _ d₂ ⟨hwallet₂, h₂⟩
        refine Journal.Does.lift_bind (fun w₁ hw₁ => ?_) fun _ _ => h₂
        refine Journal.Does.lift_bind (fun w₂ hw₂ => ?_) fun _ _ => h₂
        obtain rfl := Wallet.addOwner_eq_ok hw₁
        obtain rfl := Wallet.addOwner_eq_ok hw₂
        have hwallet := hwallet₂.trans hwallet₁
        have howner : ((d.wallet.owners.add ⟨pair.primary.address, .paperWallet⟩).add
            ⟨pair.derived.address, .paperWalletDerived⟩).first .browserExtension =
            d.wallet.owner .browserExtension := by
          rw [OwnerList.first_add _ (by simp), OwnerList.first_add _ (by simp)]
          rfl
        have h' : Settled (d₂.saveWallet { d.wallet with
            owners := (d.wallet.owners.add ⟨pair.primary.address, .paperWallet⟩).add
              ⟨pair.derived.address, .paperWalletDerived⟩ }) := by
          refine h₂.resaved rfl ?_ ?_ ?_
          all_goals rw [hwallet]
          · rfl
          · rfl
          · exact howner
        exact Journal.Does.modify h' h'
      · exact Journal.Does.pure h

/-! ### The builder's count -/

/-- The queries of the builder. -/
def queries (answers : ContractAnswers) : Option (Data × Data) :=
  answers.owners.bind fun owners => answers.threshold.map fun threshold => (owners, threshold)

/-- The extension is not an owner on chain already when the transaction is built. -/
def NewExtension (lib : ThirdParty) (metadata : SafeContractMetadata) (d : Device)
    (id : TransactionID) (answers : ContractAnswers) (now : Date) : Prop :=
  ∀ pulled, RecoveryTransactionBuilder.pullData lib d.wallet metadata.multiSendContractAddress id
    (queries answers) now = .ok pulled → ¬ RecoveryTransactionBuilder.AlreadyOwner lib pulled

theorem build_inStep {tokens : List Token} {id : TransactionID} {now : Date}
    {b : RecoveryTransactionBuilder} (hnew : NewExtension lib metadata d id answers now)
    (h : build lib metadata d tokens id answers now = .ok (some b)) : b.wallet.InStep := by
  have hbuilt := build_built h
  obtain ⟨pulled, datas, called, hpulled, hcalled, hwallet, -⟩ := build_steps h
  obtain ⟨hsame, -, hold, hscheme⟩ := RecoveryTransactionBuilder.pullData_same hpulled
  have hcount : b.wallet.confirmationCount = pulled.newScheme.confirmations := by
    rw [hwallet]
    rcases RecoveryTransactionBuilder.callsData_wallet hcalled with
      hcount | ⟨hcount, hschemes | halready⟩
    · rw [hcount]
      rfl
    · rw [hcount, ← hold, hschemes]
    · exact absurd halready (hnew pulled hpulled)
  rw [Wallet.InStep, hcount, hscheme, RecoveryTransactionBuilder.newWalletScheme,
    hbuilt.wallet.owner .browserExtension (by decide), hsame.owner .browserExtension (by decide)]

/-- The transaction is saved before the wallet, so what is stored in between does not count. -/
theorem settles_createRecoveryTransaction {tokens : List Token} {id : TransactionID} {now : Date}
    (h : Settled d) (hnew : NewExtension lib metadata d id answers now) :
    Journal.Does (createRecoveryTransaction lib metadata tokens id answers now) d
      (fun _ d' => Settled d') (fun _ _ => True) fun _ d' => Settled d' := by
  have hremoved : Settled { d with transaction := none } := h.imp_right fun h => ⟨rfl, h.2⟩
  refine Journal.Does.bind ((settles_removeTransaction h).weaken (fun _ _ hpost => hpost)
    (fun _ _ _ => trivial) fun _ _ hd => hd) ?_
  rintro _ _ rfl
  refine Journal.Does.get_bind (Journal.Does.lift_bind (fun built hbuilt => ?_)
    fun _ _ => hremoved)
  split
  · exact Journal.Does.pure hremoved
  · rename_i b
    have hb : b.wallet.InStep := build_inStep hnew hbuilt
    exact Journal.Does.modify_bind trivial (Journal.Does.modify trivial (.inl hb))

/-! ### Runs of a recovery -/

/-- The count is left to the builder: the contract is not asked for its threshold once there is
a transaction, the app is not killed while it creates one, and the extension is new then. -/
def CountKept (lib : ThirdParty) (metadata : SafeContractMetadata) (p : Process)
    (s : Step × Option Nat) : Prop :=
  match s.1 with
  | .changeAddress _ _ => p.device.transaction = none
  | .createRecoveryTransaction _ id answers now =>
      s.2 = none ∧ NewExtension lib metadata p.device id answers now
  | _ => True

/-- What is stored is settled, and the objects that subscriptions hold are in step. -/
structure CountInvariant (p : Process) : Prop where
  settled : Settled p.device
  held : ∀ w ∈ p.subscriptions ++ p.dispatched, w.InStep

variable {p p' : Process}

theorem CountInvariant.launched (h : Settled d) : CountInvariant { device := d } := by
  refine ⟨h, ?_⟩
  intro w hw
  exact absurd hw List.not_mem_nil

/-- A call that leaves the subscriptions alone. -/
theorem unsubscribed_count {call : Saving PUnit} {crash : SavePoint → Device → Prop}
    (h : CountInvariant p)
    (hcall : Journal.Does call p.device (fun _ d' => Settled d') crash fun _ d' => Settled d') :
    Journal.Does (do
      call
      return { p with device := ← Journal.get }) p.device (fun p' _ => CountInvariant p') crash
      fun _ d' => Settled d' := by
  refine hcall.bind ?_
  intro _ d' hd'
  exact Journal.Does.get_bind (Journal.Does.pure ⟨hd', h.held⟩)

/-- Wherever the process is killed, what it leaves is settled. -/
theorem killable {m : Saving α} (killed : Option Nat) (h : Settles m d post) :
    Journal.Does m d post (fun _ d' => killed ≠ none → Settled d') fun _ d' => Settled d' :=
  h.weaken (fun _ _ hpost => hpost) (fun _ _ hd _ => hd) fun _ _ hd => hd

/-- Only the save in the middle of a creation may be unsettled. -/
theorem act_count {s : Step × Option Nat} (hkept : CountKept lib metadata p s)
    (h : CountInvariant p) :
    Journal.Does (act lib metadata p s.1) p.device (fun p' _ => CountInvariant p')
      (fun _ d' => s.2 ≠ none → Settled d') fun _ d' => Settled d' := by
  obtain ⟨s, killed⟩ := s
  cases s with
  | changeAddress address answers =>
      exact unsubscribed_count h (killable killed (settles_changeAddress h.settled hkept))
  | provide eoa => exact unsubscribed_count h (killable killed (settles_provide h.settled))
  | createRecoveryTransaction tokens id answers now =>
      refine unsubscribed_count h ((settles_createRecoveryTransaction h.settled hkept.2).weaken
        (fun _ _ hpost => hpost) ?_ fun _ _ hd => hd)
      intro _ _ _ hkilled
      exact absurd hkept.1 hkilled
  | updatePendingTransaction succeeded date clock =>
      exact unsubscribed_count h (killable killed (settles_updatePendingTransaction h.settled))
  | cancelRecovery => exact unsubscribed_count h (killable killed (settles_cancelRecovery h.settled))
  | resume answers clock =>
      refine Journal.Does.bind (killable killed (settles_resume h.settled)) ?_
      rintro subscription d' ⟨hd', hsubscription⟩
      refine Journal.Does.get_bind (Journal.Does.pure ⟨hd', ?_⟩)
      intro w hw
      simp only [List.mem_append, Option.mem_toList] at hw
      rcases hw with (hw | hw) | hw
      · exact h.held w (List.mem_append_left _ hw)
      · exact hsubscription w hw
      · exact h.held w (List.mem_append_right _ hw)
  | publishStatusUpdated =>
      refine Journal.Does.pure ⟨h.settled, ?_⟩
      intro w hw
      simp only [List.mem_append] at hw
      refine h.held w (List.mem_append.mpr ?_)
      tauto
  | transactionStatusUpdated handler answers =>
      simp only [act]
      split
      · exact Journal.Does.pure h
      · rename_i w hw
        have hinStep := h.held w (List.mem_append_right _ (List.mem_of_getElem? hw))
        refine Journal.Does.bind (killable killed
          (settles_transactionStatusUpdated h.settled hinStep)) ?_
        intro unsubscribes d' hd'
        refine Journal.Does.get_bind (Journal.Does.pure ⟨hd', ?_⟩)
        intro w' hw'
        rcases List.mem_append.mp hw' with hw' | hw'
        · refine h.held w' (List.mem_append_left _ ?_)
          cases unsubscribes with
          | true => exact absurd hw' List.not_mem_nil
          | false => exact hw'
        · exact h.held w' (List.mem_append_right _ (List.mem_of_mem_eraseIdx hw'))

theorem step_count {s : Step × Option Nat} (hkept : CountKept lib metadata p s)
    (h : CountInvariant p) (hstep : step lib metadata p s = .ok p') : CountInvariant p' := by
  have hact := act_count hkept h
  obtain ⟨s, killed⟩ := s
  cases killed with
  | some saves =>
      obtain rfl := Except.ok.inj hstep
      rcases hact.after saves with hafter | ⟨e, -, hafter⟩
      · rw [hafter]
        exact .launched h.settled
      · exact .launched (hafter nofun)
  | none =>
      rcases step_unkilled hstep with ⟨e, hresult, rfl⟩ | hresult
      · exact .launched (hact.stops e hresult)
      · exact hact.returns _ hresult

/-- In every run of a recovery that leaves the count to the builder, a wallet that is ready to
use is in step. -/
theorem run_count {steps : List (Step × Option Nat)} (hstart : Starting p)
    (hall : Transition.Allowed (step lib metadata) (CountKept lib metadata) p steps)
    (hrun : Transition.run (step lib metadata) p steps = .ok p')
    (hready : p'.device.wallet.state = .readyToUse) : p'.device.wallet.InStep := by
  have hinit : CountInvariant p := by
    refine ⟨.inr ⟨hstart.transaction, by rw [hstart.state]; decide⟩, ?_⟩
    rw [hstart.subscriptions, hstart.dispatched]
    intro w hw
    exact absurd hw List.not_mem_nil
  have h : CountInvariant p' := Transition.run_invariant_of_allowed
    (fun _ _ _ hkept h hstep => step_count hkept h hstep) hinit hall hrun
  exact h.settled.ready hready

end RecoveryDomainService

end MultisigWallet
