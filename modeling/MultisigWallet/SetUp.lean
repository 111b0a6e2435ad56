import MultisigWallet.RecoveryService

/-!
# MultisigWallet.SetUp

Setting up the selected wallet, one call at a time. `Deployment` is about the threads of
`DeploymentDomainService`; here a handler runs from its first line to its last before the
next call begins, and what is of interest is what the wallet is like then.

A polling loop takes a list of answers, one for each iteration; when the list is at its end
the process is gone. `Call` lists the calls that lead a wallet from `init(id:owner:)` to use
and back, those that cross over to recovery among them.
-/

namespace MultisigWallet

/-- `Wallet.prepareForCreation()`. -/
def Wallet.prepareForCreation (w : Wallet) : Wallet :=
  if w.state = .draft then w
  else { w with state := .draft, owners := w.owners.only .thisDevice, confirmationCount := 1 }

/-- `Wallet.init(id:owner:)`. -/
def Wallet.new (id : WalletID) (owner : Address) : Wallet where
  id := id
  owners := (⟨[], OwnerList.roles_nodup_nil⟩ : OwnerList).add ⟨owner, .thisDevice⟩

/-- The event that is published when the wallet enters a state, by the state it enters. -/
def WalletState.entryEvent : WalletState → Option DomainEvent
  | draft => some .deploymentAborted
  | readyToUse => some .walletCreated
  | state => state.resumeEvent

namespace DeploymentDomainService.Serial

/-! ### Handlers -/

/-- The end of `handleError(_:)` for a closure that threw; `wallet` is the closure's. -/
def handleError (wallet : Wallet) : Failure → Saving Unit
  | .network => pure ()
  | .other => do
      let _ ← Saving.perform .other wallet.cancel
      return ()

/-- `deploymentStarted(_:)`. -/
def deploymentStarted (o : Outside) : Saving Unit := do
  let d ← Journal.get
  match o.creation with
  | .error failure => handleError d.wallet failure
  | .ok response => do
      let wallet ← Journal.lift (configured d.wallet response)
      let m ← Journal.lift (wallet.proceed o.account)
      let _ ← Saving.perform .other m
      return ()

/-- `walletFunded(_:)`. -/
def walletFunded (o : Outside) : Saving Unit := do
  let d ← Journal.get
  let _ ← Journal.lift (unwrap "wallet.address" d.wallet.address)
  match o.startCreation with
  | .error failure => handleError d.wallet failure
  | .ok () => do
      let m ← Journal.lift (d.wallet.proceed o.account)
      let _ ← Saving.perform .other m
      return ()

/-- How a loop ended: it stopped itself, or its handler is done. -/
inductive LoopEnd
  | stopped
  | left
  deriving DecidableEq, Repr

/-- `repeat(delay:closure:)` in `handleError(_:)`. -/
def repeatLoop (loop : Loop) : List Outside → Saving LoopEnd
  | [] => return .left
  | o :: answers => do
      let d ← Journal.get
      match ← Journal.lift (iterate loop d.wallet o) with
      | .failed failure => do
          handleError d.wallet failure
          return .left
      | .again => repeatLoop loop answers
      | .done m => do
          let _ ← Saving.perform .other m
          return .stopped

/-- `waitForCreationTransactionHash(_:)`. -/
def waitForCreationTransactionHash (answers : List Outside) : Saving LoopEnd := do
  let d ← Journal.get
  match d.wallet.creationTransactionHash with
  | some _ => return .stopped
  | none => repeatLoop .waitForCreationTransactionHash answers

/-- `creationStarted(_:)`. -/
def creationStarted (hashAnswers answers : List Outside) : Saving Unit := do
  match ← waitForCreationTransactionHash hashAnswers with
  | .left => return ()
  | .stopped => do
      let _ ← repeatLoop .waitForCreationTransactionCompletion answers
      return ()

/-- `walletCreated(_:)`. The keys are removed after the notification. -/
def walletCreated (o : Outside) : Saving Unit := do
  let d ← Journal.get
  match o.notification with
  | .error failure => handleError d.wallet failure
  | .ok () => do
      let paperWallet ← Journal.lift
        (unwrap "wallet.owner(role: .paperWallet)" (d.wallet.owner .paperWallet))
      Saving.accountRemoval paperWallet.address
      let derived ← Journal.lift
        (unwrap "wallet.owner(role: .paperWalletDerived)" (d.wallet.owner .paperWalletDerived))
      Saving.accountRemoval derived.address

/-- The handler of an event, with the answers it gets. -/
def handler (event : DomainEvent) (o : Outside) (hashAnswers answers : List Outside) :
    Saving Unit :=
  match event with
  | .deploymentStarted => deploymentStarted o
  | .startedWaitingForFirstDeposit => do
      let _ ← repeatLoop .waitForFirstDeposit answers
      return ()
  | .startedWaitingForRemainingFeeAmount => do
      let _ ← repeatLoop .waitForFunding answers
      return ()
  | .deploymentFunded => walletFunded o
  | .creationStarted => creationStarted hashAnswers answers
  | .walletCreated => walletCreated o
  -- there is no loop to stop
  | _ => return ()

/-- A handler runs on the wallet in the state whose entry published its event. -/
def handle (event : DomainEvent) (o : Outside) (hashAnswers answers : List Outside) :
    Saving Unit := do
  let d ← Journal.get
  if d.wallet.state.entryEvent = some event then handler event o hashAnswers answers
  else return ()

/-! ### Calls -/

/-- `start()`. -/
def start (account : Option (Option Int)) : Saving Unit := do
  let d ← Journal.get
  let m ← Journal.lift (d.wallet.resume account)
  let _ ← Saving.perform .other m
  return ()

/-- `abortDeployment()`. -/
def abortDeployment : Saving Unit := do
  let d ← Journal.get
  let wallet ← Saving.perform .other d.wallet.cancel
  Saving.wallet .other wallet

/-- `prepareForCreation()`. -/
def prepareForCreation : Saving Unit := do
  let d ← Journal.get
  Saving.wallet .other d.wallet.reset.prepareForCreation

/-- `mutateSelectedWallet(_:)` with a change of the owners. -/
def changeOwners (change : Wallet → Except Trap Wallet) : Saving Unit := do
  let d ← Journal.get
  let wallet ← Journal.lift (change d.wallet)
  Saving.wallet .other wallet

end DeploymentDomainService.Serial

namespace SetUp

open DeploymentDomainService

/-- A call that changes the selected wallet, with what the outside world contributes. -/
inductive Call
  | addOwner (owner : Owner)
  | removeOwner (role : OwnerRole)
  | start (account : Option (Option Int))
  | handle (event : DomainEvent) (outside : Outside) (hashAnswers answers : List Outside)
  | abortDeployment
  | prepareForCreation
  | prepareForRecovery
  | changeAddress (address : Address) (answers : ContractAnswers)

variable (lib : ThirdParty) (metadata : SafeContractMetadata)

def perform : Call → Saving Unit
  | .addOwner owner => Serial.changeOwners (·.addOwner owner)
  | .removeOwner role => Serial.changeOwners (·.removeOwner role)
  | .start account => Serial.start account
  | .handle event outside hashAnswers answers => Serial.handle event outside hashAnswers answers
  | .abortDeployment => Serial.abortDeployment
  | .prepareForCreation => Serial.prepareForCreation
  | .prepareForRecovery => RecoveryDomainService.prepareForRecovery
  | .changeAddress address answers => RecoveryDomainService.changeAddress lib metadata address answers

/-- One call, of which the first `saves` saves are made. A call that traps or that the process
does not survive leaves what it had saved. -/
def step (d : Device) (call : Call × Nat) : Except Trap Device :=
  .ok ((perform lib metadata call.1 d).after d call.2)

end SetUp

/-! ### Creation -/

namespace EthereumApplicationService

/-- `eoaRepository.save(_:)` of an account that may be there. -/
def save (account : ExternallyOwnedAccount) : Saving Unit := do
  let d ← Journal.get
  if (d.privateKey account.address).isSome then Journal.fail .store else Saving.account account

/-- `generateExternallyOwnedAccount()`; `account` is what the encryption service generates. -/
def generateExternallyOwnedAccount (account : ExternallyOwnedAccount) : Saving Unit := save account

/-- `generateDerivedExternallyOwnedAccount(address:)`; `derived` is what the encryption service
derives from the account at `address`. -/
def generateDerivedExternallyOwnedAccount (address : Address) (derived : ExternallyOwnedAccount) :
    Saving Unit := do
  let d ← Journal.get
  let _ ← Journal.lift (unwrap "eoaRepository.find(by: Address(address))" (d.privateKey address))
  save derived

end EthereumApplicationService

/-- A creation: what is stored, and whether the handler of `WalletCreated` has returned since
the wallet got ready to use. The latter is not stored. -/
structure Creation where
  device : Device
  handled : Bool := false
  deriving DecidableEq, Repr

namespace Creation

open DeploymentDomainService

/-- What happens next in a creation. -/
inductive Step
  | call (call : SetUp.Call)
  | generateExternallyOwnedAccount (account : ExternallyOwnedAccount)
  | generateDerivedExternallyOwnedAccount (address : Address) (derived : ExternallyOwnedAccount)

namespace Step

/-- The step is one of the screens on which the recovery phrase is made. -/
def savesPhrase : Step → Bool
  | call (.addOwner owner) => owner.role = .paperWallet || owner.role = .paperWalletDerived
  | call _ => false
  | generateExternallyOwnedAccount _ => true
  | generateDerivedExternallyOwnedAccount _ _ => true

/-- Whether the notification service accepts, if the step is to handle `WalletCreated`. -/
def accepted? : Step → Option Bool
  | call (.handle .walletCreated outside _ _) => some outside.notification.isOk
  | _ => none

end Step

variable (lib : ThirdParty) (metadata : SafeContractMetadata)

def act : Step → Saving Unit
  | .call call => SetUp.perform lib metadata call
  | .generateExternallyOwnedAccount account =>
      EthereumApplicationService.generateExternallyOwnedAccount account
  | .generateDerivedExternallyOwnedAccount address derived =>
      EthereumApplicationService.generateDerivedExternallyOwnedAccount address derived

/-- A step to its end, or until it traps. -/
def step (c : Creation) (s : Step) : Except Trap Creation :=
  let o := act lib metadata s c.device
  let device := o.final c.device
  let handles := s.accepted?.isSome && c.device.wallet.state.isReadyToUse &&
    o.result.toOption.isSome
  .ok ⟨device, device.wallet.state.isReadyToUse && (c.handled || handles)⟩

/-- Recovery phrases are made on the screens of the set-up, and the notification service
accepts when `WalletCreated` is handled. -/
def Notified (c : Creation) (s : Step) : Prop :=
  c.device.wallet.state = .readyToUse →
    s.savesPhrase = false ∧ (c.handled = false → ∀ accepted ∈ s.accepted?, accepted = true)

instance (c : Creation) (s : Step) : Decidable (Notified c s) :=
  inferInstanceAs (Decidable (_ → _ ∧ (_ → ∀ accepted ∈ s.accepted?, accepted = true)))

end Creation

end MultisigWallet
