import MultisigWallet.DeploymentSound
import MultisigWallet.EncryptionSound
import MultisigWallet.SetUp

/-!
# MultisigWallet.SetUpSound

What the wallet knows in each state of its deployment. The address and the minimum amount are
set together when the relay has answered, and forgotten together when the deployment is
cancelled, so a wallet that waits for the deposit or for the contract has both and a draft has
neither. Every save of every call keeps that; `Journal.Does` carries it through the calls.
-/

namespace MultisigWallet

/-- The states between the answer of the relay and the end of the deployment. -/
def WalletState.isAwaitingContract : WalletState → Bool
  | waitingForFirstDeposit => true
  | notEnoughFunds => true
  | creationStarted => true
  | finalizingDeployment => true
  | _ => false

namespace SetUp

open DeploymentDomainService

/-- What the wallet knows while it waits for its contract. -/
def HasDeploymentData (w : Wallet) : Prop :=
  w.address.isSome = true ∧ w.minimumDeploymentTransactionAmount.isSome = true

/-- The data of the deployment is there when it is needed, and not before. -/
structure DataInvariant (w : Wallet) : Prop where
  awaiting : w.state.isAwaitingContract = true → HasDeploymentData w
  draft : w.state = .draft → w.address = none ∧ w.minimumDeploymentTransactionAmount = none ∧
    w.creationTransactionHash = none

/-- A trap on data of the deployment that is missing. -/
def MissingData (e : Trap) : Prop :=
  e = .unwrappedNil "wallet.address" ∨
    e = .unwrappedNil "wallet.minimumDeploymentTransactionAmount" ∨
    e = .preconditionFailure "Minimum balance must be set before waiting for first deposit"

/-- The wallet of every store that is written. -/
def Saved (_ : SavePoint) (d : Device) : Prop := DataInvariant d.wallet

/-! ### Moves of the wallet -/

variable {w w' : Wallet} {m : Moved} {o : Outside} {account : Option (Option Int)}

/-- States that say nothing about the data. -/
theorem dataInvariant_of_state (hawait : w.state.isAwaitingContract = false)
    (hdraft : w.state ≠ .draft) : DataInvariant w :=
  ⟨fun h => absurd h (by simp [hawait]), fun h => absurd h hdraft⟩

theorem DataInvariant.congr (h : DataInvariant w) (hstate : w'.state = w.state)
    (haddress : w'.address = w.address)
    (hminimum : w'.minimumDeploymentTransactionAmount = w.minimumDeploymentTransactionAmount)
    (hhash : w'.creationTransactionHash = w.creationTransactionHash) : DataInvariant w' := by
  refine ⟨?_, ?_⟩
  · intro hawait
    rw [HasDeploymentData, haddress, hminimum]
    exact h.awaiting (hstate ▸ hawait)
  · intro hdraft
    rw [haddress, hminimum, hhash]
    exact h.draft (hstate ▸ hdraft)

/-- Only `proceed()` of a wallet that is deploying makes it wait for a contract; the other
states it leaves for one of those were among them. -/
theorem isAwaitingContract_proceed {s : WalletState} {funded : Bool}
    (h : (s.proceed funded).isAwaitingContract = true) :
    s = .deploying ∨ s.isAwaitingContract = true := by
  revert h
  cases s <;> cases funded <;> decide

theorem dataInvariant_proceed (h : DataInvariant w)
    (hdeploying : w.state = .deploying → HasDeploymentData w) (hm : w.proceed account = .ok m) :
    DataInvariant m.wallet := by
  obtain ⟨funded, -, hm⟩ := bind_ok.mp hm
  obtain rfl := Except.ok.inj hm
  refine ⟨?_, fun hdraft => absurd hdraft (proceed_ne_draft _ _)⟩
  intro hawait
  rcases isAwaitingContract_proceed hawait with hs | hs
  · exact hdeploying hs
  · exact h.awaiting hs

theorem dataInvariant_reset {s : WalletState} (h : s.isAwaitingContract = false) :
    DataInvariant { w.reset with state := s } :=
  ⟨fun hawait => absurd hawait (by simp [h]), fun _ => ⟨rfl, rfl, rfl⟩⟩

theorem isAwaitingContract_cancel {s : WalletState} (h : s.cancel ≠ s) :
    s.cancel.isAwaitingContract = false := by
  revert h
  cases s <;> decide

theorem dataInvariant_cancel (h : DataInvariant w) : DataInvariant w.cancel.wallet := by
  unfold Wallet.cancel
  split
  · exact h
  · rename_i hne
    exact dataInvariant_reset (isAwaitingContract_cancel hne)

/-- The relay's answer sets both. -/
theorem configured_data {response : SafeCreation} (h : configured w response = .ok w') :
    HasDeploymentData w' ∧ w'.state = w.state := by
  obtain ⟨w₁, h₁, h⟩ := bind_ok.mp h
  obtain ⟨w₂, h₂, h⟩ := bind_ok.mp h
  obtain rfl := (Wallet.changeAddress_eq_ok h₁).1
  obtain rfl := Wallet.updateMinimumTransactionAmount_eq_ok h₂
  obtain rfl := Except.ok.inj h
  exact ⟨⟨rfl, rfl⟩, rfl⟩

theorem unwrap_error {α : Type} {what : String} {x : Option α} {e : Trap}
    (h : unwrap what x = .error e) : x = none ∧ e = .unwrappedNil what := by
  cases x with
  | none => exact ⟨rfl, (Except.error.inj h).symm⟩
  | some a => cases h

theorem bind_error {α β : Type} {x : Except Trap α} {f : α → Except Trap β} {e : Trap}
    (h : (x >>= f) = .error e) : x = .error e ∨ ∃ a, x = .ok a ∧ f a = .error e := by
  cases x with
  | error e' => exact .inl (congrArg Except.error (Except.error.inj h))
  | ok a => exact .inr ⟨a, rfl, h⟩

theorem configured_error {response : SafeCreation} {e : Trap}
    (h : configured w response = .error e) : e = .wallet .invalidState := by
  rcases bind_error h with h | ⟨w₁, -, h⟩
  · unfold Wallet.changeAddress at h
    split at h
    · exact nomatch h
    · exact (Except.error.inj h).symm
  · rcases bind_error h with h | ⟨w₂, -, h⟩
    · unfold Wallet.updateMinimumTransactionAmount at h
      split at h
      · exact nomatch h
      · exact (Except.error.inj h).symm
    · exact nomatch h

/-- A wallet that has the amount does not trap on it. -/
theorem proceed_error {e : Trap} (hminimum : w.state = .waitingForFirstDeposit →
    w.minimumDeploymentTransactionAmount.isSome = true) (h : w.proceed account = .error e) :
    e = .unwrappedNil "accountRepository.find(id: accountID)" := by
  have hfunded : w.isFunded account = .error e := by
    rcases bind_error h with hfunded | ⟨funded, -, h⟩
    · exact hfunded
    · exact nomatch h
  unfold Wallet.isFunded at hfunded
  split at hfunded
  · rename_i hstate
    obtain ⟨minimum, hsome⟩ := Option.isSome_iff_exists.mp (hminimum hstate)
    rw [hsome] at hfunded
    cases haccount : account with
    | none =>
        rw [haccount] at hfunded
        exact (Except.error.inj hfunded).symm
    | some balance =>
        rw [haccount] at hfunded
        cases hfunded
  · cases hfunded

/-! ### Iterations -/

/-- The state a loop runs in. -/
def loopState : Loop → WalletState
  | .waitForFirstDeposit => .waitingForFirstDeposit
  | .waitForFunding => .notEnoughFunds
  | .waitForCreationTransactionHash => .finalizingDeployment
  | .waitForCreationTransactionCompletion => .finalizingDeployment

theorem isAwaitingContract_loopState (loop : Loop) :
    (loopState loop).isAwaitingContract = true := by
  cases loop <;> rfl

variable {loop : Loop}

theorem dataInvariant_iterate (h : DataInvariant w) (hstate : w.state = loopState loop)
    (hiterate : iterate loop w o = .ok (.done m)) : DataInvariant m.wallet := by
  cases iterate_doneBy hiterate with
  | proceeded hread hm =>
      refine dataInvariant_proceed h (fun hdeploying => ?_) hm
      rw [hstate] at hdeploying
      cases loop <;> cases hdeploying
  | hashKnown hash hread hcan hm =>
      subst hm
      refine ⟨h.awaiting, fun hdraft => ?_⟩
      have hdraft : w.state = .draft := hdraft
      rw [hdraft] at hcan
      cases hcan
  | cancelled hread hm =>
      subst hm
      exact dataInvariant_cancel h

theorem updateBalance_error {e : Trap} (haddress : w.address.isSome = true)
    (h : updateBalance w o = .error e) :
    e = .unwrappedNil "accountRepository.find(id: accountID)" := by
  rcases bind_error h with h | ⟨a, -, h⟩
  · rw [(unwrap_error h).1] at haddress
    cases haddress
  · split at h
    · exact nomatch h
    · rcases bind_error h with h | ⟨b, -, h⟩
      · exact (unwrap_error h).2
      · exact nomatch h

theorem not_missingData_account :
    ¬ MissingData (.unwrappedNil "accountRepository.find(id: accountID)") := by
  simp [MissingData]

/-- No iteration traps on data of the deployment. -/
theorem iterate_error {e : Trap} (hdata : HasDeploymentData w)
    (h : iterate loop w o = .error e) : ¬ MissingData e := by
  -- the minimum amount is there, so only the account can be missing
  have hproceed : ∀ {e'}, w.proceed o.account = .error e' → ¬ MissingData e' := fun he' =>
    proceed_error (fun _ => hdata.2) he' ▸ not_missingData_account
  cases loop with
  | waitForFirstDeposit =>
      rcases bind_error h with h | ⟨out, -, h⟩
      · exact updateBalance_error hdata.1 h ▸ not_missingData_account
      · cases out with
        | error failure => exact nomatch h
        | ok balance =>
            simp only at h
            split at h
            · rcases bind_error h with h | ⟨m', -, h⟩
              · exact hproceed h
              · exact nomatch h
            · exact nomatch h
  | waitForFunding =>
      rcases bind_error h with h | ⟨out, -, h⟩
      · exact updateBalance_error hdata.1 h ▸ not_missingData_account
      · cases out with
        | error failure => exact nomatch h
        | ok balance =>
            rcases bind_error h with h | ⟨minimum, -, h⟩
            · have hminimum := hdata.2
              rw [(unwrap_error h).1] at hminimum
              cases hminimum
            · split at h
              · rcases bind_error h with h | ⟨m', -, h⟩
                · exact hproceed h
                · exact nomatch h
              · exact nomatch h
  | waitForCreationTransactionHash =>
      rcases bind_error h with h | ⟨a, -, h⟩
      · have haddress := hdata.1
        rw [(unwrap_error h).1] at haddress
        cases haddress
      · split at h
        · exact nomatch h
        · exact nomatch h
        · rcases bind_error h with h | ⟨w', -, h⟩
          · unfold Wallet.assignCreationTransaction at h
            split at h
            · exact nomatch h
            · obtain rfl := Except.error.inj h
              simp [MissingData]
          · exact nomatch h
  | waitForCreationTransactionCompletion =>
      rcases bind_error h with h | ⟨hash, -, h⟩
      · rw [(unwrap_error h).2]
        simp [MissingData]
      · split at h
        · exact nomatch h
        · exact nomatch h
        · rcases bind_error h with h | ⟨m', -, h⟩
          · exact hproceed h
          · exact nomatch h
        · exact nomatch h

/-! ### Handlers -/

variable {d : Device}

variable {err : Trap → Device → Prop} {α : Type}

/-- Every save of a call keeps the invariant. -/
abbrev Keeps (err : Trap → Device → Prop) (call : Saving α) (d : Device) (post : α → Device → Prop) :
    Prop :=
  Journal.Does call d post Saved err

theorem does_perform (hm : DataInvariant m.wallet) :
    Keeps err (Saving.perform .other m) d fun w' d' =>
      w' = m.wallet ∧ (m.saved = true → d'.wallet = m.wallet) ∧ (m.saved = false → d' = d) := by
  unfold Saving.perform
  split
  · rename_i hsaved
    refine Journal.Does.modify_bind hm (Journal.Does.pure ⟨rfl, fun _ => rfl, fun h => ?_⟩)
    rw [hsaved] at h
    cases h
  · rename_i hsaved
    exact Journal.Does.pure ⟨rfl, fun h => absurd h hsaved, fun _ => rfl⟩

/-- The store after a method of the wallet that may have saved it. -/
theorem dataInvariant_performed {d' : Device} (h : DataInvariant d.wallet)
    (hm : DataInvariant m.wallet) (hsaved : m.saved = true → d'.wallet = m.wallet)
    (hunsaved : m.saved = false → d' = d) : DataInvariant d'.wallet := by
  cases hcase : m.saved with
  | true => exact hsaved hcase ▸ hm
  | false => exact hunsaved hcase ▸ h

/-- `proceed()` or `cancel()` at the end of a handler. -/
theorem does_performed (h : DataInvariant d.wallet) (hm : DataInvariant m.wallet) :
    Keeps err (do
      let _ ← Saving.perform .other m
      return ()) d fun _ d' => DataInvariant d'.wallet := by
  refine (does_perform hm).bind ?_
  rintro w' d' ⟨-, hsaved, hunsaved⟩
  exact Journal.Does.pure (dataInvariant_performed h hm hsaved hunsaved)

theorem does_handleError (h : DataInvariant d.wallet) (failure : Failure) :
    Keeps err (Serial.handleError d.wallet failure) d fun _ d' => DataInvariant d'.wallet := by
  cases failure with
  | network => exact Journal.Does.pure h
  | other => exact does_performed h (dataInvariant_cancel h)

/-- A loop that finds the hash stores it and leaves the state as it is. -/
theorem iterate_hash (h : iterate .waitForCreationTransactionHash w o = .ok (.done m)) :
    m.saved = true ∧ m.wallet.state = w.state := by
  obtain ⟨a, -, h⟩ := bind_ok.mp h
  split at h
  · exact nomatch Except.ok.inj h
  · exact nomatch Except.ok.inj h
  · obtain ⟨w', hw', h⟩ := bind_ok.mp h
    obtain rfl := Iteration.done.inj (Except.ok.inj h)
    obtain ⟨rfl, -⟩ := Wallet.assignCreationTransaction_eq_ok hw'
    exact ⟨rfl, rfl⟩

/-- By induction on the answers: an iteration that goes on does not save. -/
theorem does_repeatLoop (loop : Loop) (answers : List Outside) (h : DataInvariant d.wallet)
    (hstate : d.wallet.state = loopState loop) :
    Keeps (fun e _ => ¬ MissingData e) (Serial.repeatLoop loop answers) d fun ending d' =>
      DataInvariant d'.wallet ∧ (ending = .stopped → loop = .waitForCreationTransactionHash →
        d'.wallet.state = .finalizingDeployment) := by
  have hdata : HasDeploymentData d.wallet :=
    h.awaiting (hstate ▸ isAwaitingContract_loopState loop)
  induction answers with
  | nil => exact Journal.Does.pure ⟨h, fun hleft => nomatch hleft⟩
  | cons o answers ih =>
      rw [Serial.repeatLoop]
      refine Journal.Does.get_bind (Journal.Does.lift_bind ?_ fun e he => iterate_error hdata he)
      intro iteration hiteration
      cases iteration with
      | failed failure =>
          refine (does_handleError h failure).bind ?_
          intro _ d' h'
          exact Journal.Does.pure ⟨h', fun hleft => nomatch hleft⟩
      | again => exact ih
      | done m =>
          have hm := dataInvariant_iterate h hstate hiteration
          refine (does_perform hm).bind ?_
          rintro w' d' ⟨-, hsaved, hunsaved⟩
          refine Journal.Does.pure ⟨dataInvariant_performed h hm hsaved hunsaved, ?_⟩
          rintro - rfl
          obtain ⟨hsave, hkeep⟩ := iterate_hash hiteration
          rw [hsaved hsave, hkeep, hstate]
          rfl

theorem does_creationStarted (hashAnswers answers : List Outside) (h : DataInvariant d.wallet)
    (hstate : d.wallet.state = .finalizingDeployment) :
    Keeps (fun e _ => ¬ MissingData e) (Serial.creationStarted hashAnswers answers) d
      fun _ d' => DataInvariant d'.wallet := by
  have hhash : Keeps (fun e _ => ¬ MissingData e)
      (Serial.waitForCreationTransactionHash hashAnswers) d fun ending d' =>
        DataInvariant d'.wallet ∧ (ending = .stopped →
          d'.wallet.state = .finalizingDeployment) := by
    refine Journal.Does.get_bind ?_
    split
    · exact Journal.Does.pure ⟨h, fun _ => hstate⟩
    · refine (does_repeatLoop .waitForCreationTransactionHash hashAnswers h hstate).weaken ?_ (fun _ _ => id) fun _ _ => id
      rintro ending d' ⟨h', hending⟩
      exact ⟨h', fun hstopped => hending hstopped rfl⟩
  refine hhash.bind ?_
  rintro ending d' ⟨h', hending⟩
  cases ending with
  | left => exact Journal.Does.pure h'
  | stopped =>
      refine (does_repeatLoop .waitForCreationTransactionCompletion answers h' (hending rfl)).bind ?_
      rintro _ d'' ⟨h'', -⟩
      exact Journal.Does.pure h''

theorem does_deploymentStarted (h : DataInvariant d.wallet) :
    Keeps (fun e _ => ¬ MissingData e) (Serial.deploymentStarted o) d
      fun _ d' => DataInvariant d'.wallet := by
  refine Journal.Does.get_bind ?_
  split
  · exact does_handleError h _
  · refine Journal.Does.lift_bind ?_ ?_
    · intro w hw
      obtain ⟨hdata, hstate⟩ := configured_data hw
      have hdeploying : DataInvariant w := by
        have hcan := (configured_ok hw).2
        refine ⟨fun _ => hdata, fun hdraft => ?_⟩
        exact absurd (hstate ▸ hdraft) hcan
      refine Journal.Does.lift_bind ?_ ?_
      · intro m hm
        exact does_performed h (dataInvariant_proceed hdeploying (fun _ => hdata) hm)
      · intro e he
        exact proceed_error (fun _ => hdata.2) he ▸ not_missingData_account
    · intro e he
      rw [configured_error he]
      simp [MissingData]

theorem does_walletFunded (h : DataInvariant d.wallet)
    (hstate : d.wallet.state = .creationStarted) :
    Keeps (fun e _ => ¬ MissingData e) (Serial.walletFunded o) d
      fun _ d' => DataInvariant d'.wallet := by
  have hdata : HasDeploymentData d.wallet := h.awaiting (by rw [hstate]; rfl)
  refine Journal.Does.get_bind (Journal.Does.lift_bind ?_ ?_)
  · intro a ha
    split
    · exact does_handleError h _
    · refine Journal.Does.lift_bind ?_ ?_
      · intro m hm
        exact does_performed h (dataInvariant_proceed h (fun _ => hdata) hm)
      · intro e he
        exact proceed_error (fun _ => hdata.2) he ▸ not_missingData_account
  · intro e he
    have haddress := hdata.1
    rw [(unwrap_error he).1] at haddress
    cases haddress

/-- The handler of a finished wallet changes the accounts only. -/
theorem does_walletCreated (h : DataInvariant d.wallet) :
    Keeps (fun e _ => ¬ MissingData e) (Serial.walletCreated o) d
      fun _ d' => DataInvariant d'.wallet := by
  refine Journal.Does.get_bind ?_
  split
  · exact does_handleError h _
  · refine Journal.Does.lift_bind ?_ ?_
    · intro paperWallet _
      refine Journal.Does.modify_bind h (Journal.Does.lift_bind ?_ ?_)
      · intro derived _
        exact Journal.Does.modify h h
      · intro e he
        rw [(unwrap_error he).2]
        simp [MissingData]
    · intro e he
      rw [(unwrap_error he).2]
      simp [MissingData]

/-- Each handler starts in the state whose entry published its event. -/
theorem does_handle (event : DomainEvent) (hashAnswers answers : List Outside)
    (h : DataInvariant d.wallet) :
    Keeps (fun e _ => ¬ MissingData e) (Serial.handle event o hashAnswers answers) d
      fun _ d' => DataInvariant d'.wallet := by
  refine Journal.Does.get_bind ?_
  split
  · rename_i hevent
    have hloop : ∀ loop : Loop, d.wallet.state = loopState loop →
        Keeps (fun e _ => ¬ MissingData e) (do
          let _ ← Serial.repeatLoop loop answers
          return ()) d fun _ d' => DataInvariant d'.wallet := by
      intro loop hstate
      refine (does_repeatLoop loop answers h hstate).bind ?_
      rintro _ d' ⟨h', -⟩
      exact Journal.Does.pure h'
    cases hstate : d.wallet.state <;> rw [hstate] at hevent <;> cases hevent
    case isTrue.draft.refl => exact Journal.Does.pure h
    case isTrue.deploying.refl => exact does_deploymentStarted h
    case isTrue.waitingForFirstDeposit.refl => exact hloop .waitForFirstDeposit hstate
    case isTrue.notEnoughFunds.refl => exact hloop .waitForFunding hstate
    case isTrue.creationStarted.refl => exact does_walletFunded h hstate
    case isTrue.finalizingDeployment.refl => exact does_creationStarted hashAnswers answers h hstate
    case isTrue.readyToUse.refl => exact does_walletCreated h
    case isTrue.recoveryInProgress.refl => exact Journal.Does.pure h
  · exact Journal.Does.pure h

/-! ### Calls -/

variable {lib : ThirdParty} {metadata : SafeContractMetadata}

theorem does_start (h : DataInvariant d.wallet) :
    Keeps (fun _ _ => True) (Serial.start account) d fun _ _ => True := by
  refine Journal.Does.get_bind (Journal.Does.lift_bind ?_ fun _ _ => trivial)
  intro m hm
  have hresumed : DataInvariant m.wallet := by
    unfold Wallet.resume at hm
    split at hm
    · rename_i hdraft
      obtain ⟨-, -, hm⟩ := bind_ok.mp hm
      have hcounted : ∀ n, DataInvariant (d.wallet.changeConfirmationCount n) := fun _ =>
        h.congr rfl rfl rfl rfl
      refine dataInvariant_proceed (hcounted _) (fun hdeploying => ?_) hm
      exact absurd (hdraft.symm.trans hdeploying) (by decide)
    · rename_i hdraft
      refine dataInvariant_proceed h (fun hdeploying => ?_) hm
      exact absurd (hdraft.symm.trans hdeploying) (by decide)
    · obtain rfl := Except.ok.inj hm
      exact h
  exact (does_performed h hresumed).weaken (fun _ _ _ => trivial) (fun _ _ => id) fun _ _ => id

theorem does_abortDeployment (h : DataInvariant d.wallet) :
    Keeps (fun _ _ => True) Serial.abortDeployment d fun _ _ => True := by
  have hcancel := dataInvariant_cancel h
  refine Journal.Does.get_bind ((does_perform hcancel).bind ?_)
  rintro w d' ⟨rfl, -⟩
  exact Journal.Does.modify hcancel trivial

theorem does_prepareForCreation :
    Keeps (fun _ _ => True) Serial.prepareForCreation d fun _ _ => True := by
  have hprepared : DataInvariant d.wallet.reset.prepareForCreation := by
    unfold Wallet.prepareForCreation
    split
    · rename_i hdraft
      refine ⟨fun hawait => ?_, fun _ => ⟨rfl, rfl, rfl⟩⟩
      rw [hdraft] at hawait
      cases hawait
    · exact ⟨nofun, fun _ => ⟨rfl, rfl, rfl⟩⟩
  exact Journal.Does.get_bind (Journal.Does.modify hprepared trivial)

theorem does_prepareForRecovery :
    Keeps (fun _ _ => True) RecoveryDomainService.prepareForRecovery d fun _ _ => True := by
  have hprepared : DataInvariant d.wallet.reset.prepareForRecovery :=
    dataInvariant_of_state rfl WalletState.noConfusion
  exact Journal.Does.get_bind (Journal.Does.modify hprepared trivial)

theorem does_changeOwners (change : Wallet → Except Trap Wallet) (h : DataInvariant d.wallet)
    (hchange : ∀ w', change d.wallet = .ok w' → ∃ owners, w' = { d.wallet with owners := owners }) :
    Keeps (fun _ _ => True) (Serial.changeOwners change) d fun _ _ => True := by
  refine Journal.Does.get_bind (Journal.Does.lift_bind ?_ fun _ _ => trivial)
  intro w' hw'
  obtain ⟨owners, rfl⟩ := hchange w' hw'
  exact Journal.Does.modify (h.congr rfl rfl rfl rfl) trivial

theorem addUnknownOwners_frame : ∀ {addresses : List Address} {w w' : Wallet},
    RecoveryTransactionBuilder.addUnknownOwners w addresses = .ok w' →
      ∃ owners, w' = { w with owners := owners }
  | [], w, w', h => ⟨w.owners, (Except.ok.inj h).symm⟩
  | a :: addresses, w, w', h => by
      obtain ⟨w₁, h₁, h⟩ := bind_ok.mp h
      obtain rfl := Wallet.addOwner_eq_ok h₁
      obtain ⟨owners, rfl⟩ := addUnknownOwners_frame h
      exact ⟨owners, rfl⟩

/-- Only a wallet whose state says nothing about the data changes its address. -/
theorem dataInvariant_of_canChangeAddress (h : w.state.canChangeAddress = true) :
    DataInvariant w := by
  cases hstate : w.state <;> rw [hstate] at h <;> cases h
  · exact dataInvariant_of_state (by rw [hstate]; rfl) (by rw [hstate]; decide)
  · exact dataInvariant_of_state (by rw [hstate]; rfl) (by rw [hstate]; decide)

theorem does_pullWalletData {answers : ContractAnswers} (h : DataInvariant d.wallet) :
    Keeps (fun _ _ => True) (RecoveryDomainService.pullWalletData lib answers) d
      fun _ _ => True := by
  refine Journal.Does.get_bind (Journal.Does.lift_bind ?_ fun _ _ => trivial)
  intro _ _
  split
  · refine Journal.Does.lift_bind ?_ fun _ _ => trivial
    intro existingOwnerAddresses _
    refine Journal.Does.lift_bind ?_ fun _ _ => trivial
    intro confirmationCount _
    refine Journal.Does.lift_bind ?_ fun _ _ => trivial
    intro w' hw'
    obtain ⟨owners, rfl⟩ := addUnknownOwners_frame hw'
    split
    · exact Journal.Does.modify (h.congr rfl rfl rfl rfl) trivial
    · exact Journal.Does.pure trivial
  · exact Journal.Does.pure trivial

theorem does_changeAddress {address : Address} {answers : ContractAnswers} :
    Keeps (fun _ _ => True) (RecoveryDomainService.changeAddress lib metadata address answers) d
      fun _ _ => True := by
  unfold RecoveryDomainService.changeAddress
  split
  · split
    · refine Journal.Does.get_bind (Journal.Does.lift_bind ?_ fun _ _ => trivial)
      intro w' hw'
      obtain ⟨rfl, hcan⟩ := Wallet.changeAddress_eq_ok hw'
      have hchanged : DataInvariant { d.wallet with address := some address } :=
        dataInvariant_of_canChangeAddress hcan
      exact Journal.Does.modify_bind hchanged (does_pullWalletData hchanged)
    · exact Journal.Does.pure trivial
  · exact Journal.Does.pure trivial

theorem does_call (call : Call) (h : DataInvariant d.wallet) :
    Keeps (fun _ _ => True) (perform lib metadata call) d fun _ _ => True := by
  cases call with
  | addOwner owner =>
      exact does_changeOwners (·.addOwner owner) h fun w' hw' => ⟨_, Wallet.addOwner_eq_ok hw'⟩
  | removeOwner role =>
      exact does_changeOwners (·.removeOwner role) h fun w' hw' => ⟨_, Wallet.removeOwner_eq_ok hw'⟩
  | start account => exact does_start h
  | handle event outside hashAnswers answers =>
      exact (does_handle event hashAnswers answers h).weaken (fun _ _ _ => trivial)
        (fun _ _ => id) fun _ _ _ => trivial
  | abortDeployment => exact does_abortDeployment h
  | prepareForCreation => exact does_prepareForCreation
  | prepareForRecovery => exact does_prepareForRecovery
  | changeAddress address answers => exact does_changeAddress

/-! ### Runs -/

theorem dataInvariant_new (id : WalletID) (owner : Address) :
    DataInvariant (Wallet.new id owner) :=
  ⟨nofun, fun _ => ⟨rfl, rfl, rfl⟩⟩

theorem step_dataInvariant {d' : Device} {call : Call × Nat} (h : DataInvariant d.wallet)
    (hstep : step lib metadata d call = .ok d') : DataInvariant d'.wallet := by
  obtain rfl := Except.ok.inj hstep
  rcases (does_call call.1 h).after call.2 with hafter | ⟨e, -, hafter⟩
  · rw [hafter]
    exact h
  · exact hafter

/-- In every run from a new wallet, calls that trap or that the process does not survive
included, the data of the deployment is there in the states that need it and not in a draft,
and no handler of the state the wallet is in traps because it is missing. -/
theorem run_deploymentData {id : WalletID} {owner : Address} {accounts : List (Address × Data)}
    {calls : List (Call × Nat)}
    (hrun : Transition.run (step lib metadata)
      { wallet := Wallet.new id owner, accounts := accounts } calls = .ok d) :
    DataInvariant d.wallet ∧ ∀ event o hashAnswers answers e,
      (Serial.handle event o hashAnswers answers d).result = .error e → ¬ MissingData e := by
  have h : DataInvariant d.wallet :=
    Transition.run_invariant (fun _ _ _ hs hstep => step_dataInvariant hs hstep)
      (dataInvariant_new id owner) hrun
  exact ⟨h, fun event o hashAnswers answers e he =>
    (does_handle event hashAnswers answers h).stops e he⟩

/-! ### A deployment up to the deposit -/

/-- The relay answers with the address and the payment of the contract. -/
def answered : Outside :=
  { offline with
    creation := .ok ⟨EncryptionService.confirmationRecipient, 100, Address.two, none⟩ }

/-- The owners are set up, the deployment is started, and the relay answers. Every call is
carried through to its end. -/
def untilAnswered : List (Call × Nat) :=
  [(.addOwner ⟨Address.two, .paperWallet⟩, 9), (.addOwner ⟨Address.zero, .paperWalletDerived⟩, 9),
    (.start none, 9), (.handle .deploymentStarted answered [] [], 9)]

theorem run_deploymentData_answered :
    ∃ d, Transition.run (step reference EncryptionService.noMetadata)
        { wallet := Wallet.new ['w'] EncryptionService.confirmationSender } untilAnswered = .ok d ∧
      d.wallet.state = .waitingForFirstDeposit ∧ HasDeploymentData d.wallet ∧
      ∀ e, (Serial.handle .startedWaitingForFirstDeposit deposited [] [deposited] d).result =
        .error e → ¬ MissingData e := by
  have heval : ((Transition.run (step reference EncryptionService.noMetadata)
      { wallet := Wallet.new ['w'] EncryptionService.confirmationSender }
      untilAnswered).toOption.any fun d => d.wallet.state = .waitingForFirstDeposit) = true := by
    decide +kernel
  obtain ⟨d, hrun, hd⟩ := exists_ok_of_any heval
  have hstate : d.wallet.state = .waitingForFirstDeposit := of_decide_eq_true hd
  obtain ⟨hdata, hhandle⟩ := run_deploymentData hrun
  exact ⟨d, hrun, hstate, hdata.awaiting (hstate ▸ rfl), hhandle _ _ _ _⟩

end SetUp

end MultisigWallet
