import MultisigWallet.Lib.Transition
import MultisigWallet.Lib.Versioned
import MultisigWallet.Wallet

/-!
# MultisigWallet.Deployment

`DeploymentDomainService` as the threads of a process. `start()` and `abortDeployment()` are
called from outside, an event that is published runs its handlers on other threads, and four
of the handlers poll the network in a loop. All of them load the selected wallet from the
repository, which hands out a fresh object, and work on that object until they are done.

A step of the model is what one thread does between two points where another one may get in
its way: loading is one step, what follows the answer of the network (up to saving and
publishing) is another. The event publisher and the list of repeaters each have a serial
queue, whose next block runs in a step of its own.
-/

namespace MultisigWallet

/-! ### Wallet states -/

/-- The events of the wallet's states. -/
inductive DomainEvent
  | deploymentStarted
  | startedWaitingForFirstDeposit
  | deploymentAborted
  | walletTransactionHashIsKnown
  | startedWaitingForRemainingFeeAmount
  | creationStarted
  | deploymentFunded
  | walletCreated
  | walletCreationFailed
  | recoveryStarted
  | recoveryAborted
  | walletRecovered
  | walletRecoveryFailed
  deriving DecidableEq, Repr

namespace WalletState

/-- The state `proceed()` sets; `funded` says whether the balance reaches the minimum. -/
def proceed (funded : Bool) : WalletState → WalletState
  | draft => deploying
  | deploying => waitingForFirstDeposit
  | waitingForFirstDeposit => if funded then creationStarted else notEnoughFunds
  | notEnoughFunds => creationStarted
  | creationStarted => finalizingDeployment
  | finalizingDeployment => readyToUse
  | readyToUse => readyToUse
  | recoveryDraft => recoveryInProgress
  | recoveryInProgress => recoveryPostProcessing
  | recoveryPostProcessing => readyToUse

/-- The state `cancel()` leaves. -/
def cancel : WalletState → WalletState
  | deploying => draft
  | waitingForFirstDeposit => draft
  | notEnoughFunds => draft
  | creationStarted => draft
  | recoveryInProgress => recoveryDraft
  | recoveryPostProcessing => recoveryDraft
  | state => state

/-- The event `resume()` publishes; a draft publishes none, because it proceeds. -/
def resumeEvent : WalletState → Option DomainEvent
  | deploying => some .deploymentStarted
  | waitingForFirstDeposit => some .startedWaitingForFirstDeposit
  | notEnoughFunds => some .startedWaitingForRemainingFeeAmount
  | creationStarted => some .deploymentFunded
  | finalizingDeployment => some .creationStarted
  | recoveryInProgress => some .recoveryStarted
  | _ => none

/-- The event `proceed()` publishes: that of the new state, or that of the end. -/
def proceedEvent (funded : Bool) : WalletState → Option DomainEvent
  | finalizingDeployment => some .walletCreated
  | recoveryPostProcessing => some .walletRecovered
  | readyToUse => none
  | state => (state.proceed funded).resumeEvent

/-- The event `cancel()` publishes. -/
def cancelEvent : WalletState → Option DomainEvent
  | deploying => some .deploymentAborted
  | waitingForFirstDeposit => some .deploymentAborted
  | notEnoughFunds => some .deploymentAborted
  | creationStarted => some .deploymentAborted
  | finalizingDeployment => some .walletCreationFailed
  | recoveryInProgress => some .recoveryAborted
  | recoveryPostProcessing => some .walletRecoveryFailed
  | _ => none

end WalletState

/-- What a method of the wallet leaves: the wallet, whether it saved it, and the event it
published then. -/
structure Moved where
  wallet : Wallet
  saved : Bool
  event : Option DomainEvent

namespace Wallet

/-- The comparison the first deposit is for. `account` is `accountRepository.find(id:)`, of
which the balance is read. Only one state makes it. -/
def isFunded (w : Wallet) (account : Option (Option Int)) : Except Trap Bool :=
  match w.state with
  | .waitingForFirstDeposit =>
      match w.minimumDeploymentTransactionAmount with
      | none => .error (.preconditionFailure
          "Minimum balance must be set before waiting for first deposit")
      | some minimumBalance => do
          let balance ← unwrap "accountRepository.find(id: accountID)" account
          return decide (minimumBalance ≤ balance.getD 0)
  | _ => .ok false

/-- `proceed()`. -/
def proceed (w : Wallet) (account : Option (Option Int)) : Except Trap Moved := do
  let funded ← w.isFunded account
  return ⟨{ w with state := w.state.proceed funded }, w.state ≠ .readyToUse,
    w.state.proceedEvent funded⟩

/-- `cancel()`. -/
def cancel (w : Wallet) : Moved :=
  if w.state.cancel = w.state then ⟨w, false, w.state.cancelEvent⟩
  else ⟨{ w.reset with state := w.state.cancel }, true, w.state.cancelEvent⟩

/-- `hasAllRoles`. -/
def hasAllRoles (w : Wallet) : Bool :=
  (w.owner .thisDevice).isSome && (w.owner .paperWallet).isSome &&
    (w.owner .paperWalletDerived).isSome

/-- `resume()`. -/
def resume (w : Wallet) (account : Option (Option Int)) : Except Trap Moved :=
  match w.state with
  | .draft => do
      precondition (w.hasAllRoles && decide (w.owners.storage.length ≤ 4))
        "Wallet is misconfigured. Must have all roles set up."
      let confirmations := if w.owner .browserExtension = none then 1 else 2
      (w.changeConfirmationCount confirmations).proceed account
  | .recoveryDraft => w.proceed account
  | state => .ok ⟨w, false, state.resumeEvent⟩

/-- `assignCreationTransaction(hash:)`. -/
def assignCreationTransaction (w : Wallet) (hash : Option Str) : Except Trap Wallet :=
  if w.state.canChangeTransactionHash then .ok { w with creationTransactionHash := hash }
  else .error (.wallet .invalidState)

/-- `changeAddress(_:)`. -/
def changeAddress (w : Wallet) (address : Option Address) : Except Trap Wallet :=
  if w.state.canChangeAddress then .ok { w with address := address }
  else .error (.wallet .invalidState)

/-- `updateMinimumTransactionAmount(_:)`. -/
def updateMinimumTransactionAmount (w : Wallet) (newValue : Int) : Except Trap Wallet :=
  if w.state.canChangeAddress then
    .ok { w with minimumDeploymentTransactionAmount := some newValue }
  else .error (.wallet .invalidState)

theorem assignCreationTransaction_eq_ok {w w' : Wallet} {hash : Option Str}
    (h : w.assignCreationTransaction hash = .ok w') :
    w' = { w with creationTransactionHash := hash } ∧
      w.state.canChangeTransactionHash = true := by
  unfold assignCreationTransaction at h
  split at h
  · rename_i hcan
    exact ⟨(Except.ok.inj h).symm, hcan⟩
  · cases h

theorem changeAddress_eq_ok {w w' : Wallet} {a : Option Address}
    (h : w.changeAddress a = .ok w') :
    w' = { w with address := a } ∧ w.state.canChangeAddress = true := by
  unfold changeAddress at h
  split at h
  · rename_i hcan
    exact ⟨(Except.ok.inj h).symm, hcan⟩
  · cases h

theorem updateMinimumTransactionAmount_eq_ok {w w' : Wallet} {n : Int}
    (h : w.updateMinimumTransactionAmount n = .ok w') :
    w' = { w with minimumDeploymentTransactionAmount := some n } := by
  unfold updateMinimumTransactionAmount at h
  split at h
  · exact (Except.ok.inj h).symm
  · cases h

end Wallet

/-! ### The process -/

/-- A polling loop, by the method that starts it. -/
inductive Loop
  | waitForFirstDeposit
  | waitForFunding
  | waitForCreationTransactionHash
  | waitForCreationTransactionCompletion
  deriving DecidableEq, Repr

/-- `Repeater.State`. -/
inductive RepeaterState
  | stopped
  | running
  | waiting
  deriving DecidableEq, Repr

/-- Where `Repeater.start()` is. -/
inductive Phase
  /-- Before `state = .running`. -/
  | entering
  /-- In `main`, waiting for the network. -/
  | main
  /-- Before `if isStopped`. -/
  | returned
  /-- Before `state = .waiting`. -/
  | idling
  /-- Before `while !isStopped`. -/
  | waiting
  deriving DecidableEq, Repr

/-- A wallet object in a thread. -/
abbrev WalletCopy := Versioned.Copy Wallet

/-- A thread, with the wallet object it holds. -/
inductive Task
  /-- A handler that has not loaded its wallet yet. -/
  | dispatched (event : DomainEvent)
  /-- `start()` before `wallet.resume()`. -/
  | starting (copy : WalletCopy)
  /-- `abortDeployment()` before `cancel()`, and before the second save. -/
  | aborting (copy : WalletCopy)
  | aborted (copy : WalletCopy)
  | deploymentStarted (copy : WalletCopy)
  | walletFunded (copy : WalletCopy)
  | walletCreated (copy : WalletCopy)
  | polling (loop : Loop) (phase : Phase) (repeater : Nat) (state : RepeaterState)
      (copy : WalletCopy)

/-- A block on the publisher's queue. -/
inductive PublisherBlock
  | unsubscribe
  | subscribe (event : DomainEvent)
  | publish (event : DomainEvent)
  deriving DecidableEq, Repr

/-- A block on the queue of `Repeaters`. -/
inductive RepeatersBlock
  | add (repeater : Nat)
  | remove (repeater : Nat)
  | stopAll
  deriving DecidableEq, Repr

/-- The process. The last two fields are not part of it: they record every save as the state
before and the state after, and whether `abortDeployment()` has made the wallet a draft and
`start()` has not been called since. -/
structure World where
  /-- The selected wallet, as it is stored. -/
  row : Versioned.Cell Wallet
  tasks : List Task := []
  publisher : List PublisherBlock := []
  subscriptions : List DomainEvent := []
  repeatersQueue : List RepeatersBlock := []
  repeaters : List Nat := []
  nextRepeater : Nat := 0
  saves : List (WalletState × WalletState) := []
  abortedToDraft : Bool := false

/-- How a request fails: as a network or client error, or in another way. -/
inductive Failure
  | network
  | other
  deriving DecidableEq, Repr

/-- `SafeCreationRequest.Response`, validated, with the version of its master copy. -/
structure SafeCreation where
  safeAddress : Address
  payment : Int
  masterCopyAddress : Address
  version : Option Str
  deriving DecidableEq, Repr

/-- What the outside world answers in a step. -/
structure Outside where
  /-- `createSafeCreationTransaction(request:)` and the validation of its response. -/
  creation : Except Failure SafeCreation
  /-- `eth_getBalance(account:)`. -/
  balance : Except Failure Int
  /-- `startSafeCreation(address:)`. -/
  startCreation : Except Failure Unit
  /-- `safeCreationTransactionHash(address:)`. -/
  transactionHash : Except Failure (Option Str)
  /-- `eth_getTransactionReceipt(transaction:)`; whether the transaction succeeded. -/
  receipt : Except Failure (Option Bool)
  /-- `notifyWalletCreated(walletID:)`. -/
  notification : Except Failure Unit
  /-- `accountRepository.find(id:)` for the Ether account. -/
  account : Option (Option Int)

namespace World

/-- `walletRepository.save(_:)`. -/
def save (w : World) (wallet : Wallet) : World :=
  { w with
    row := w.row.store Wallet.state wallet
    saves := w.saves ++ [(w.row.value.state, wallet.state)] }

/-- `eventPublisher.publish(_:)`. -/
def publish (w : World) (event : Option DomainEvent) : World :=
  { w with publisher := w.publisher ++ event.toList.map .publish }

/-- A method of the wallet object `copy` was called; the object is what was saved. -/
def perform (w : World) (copy : WalletCopy) (m : Moved) : World × WalletCopy :=
  if m.saved then
    let w := w.save m.wallet
    (w.publish m.event, w.row.load)
  else (w.publish m.event, ⟨m.wallet, copy.since⟩)

/-- The end of `handleError(_:)` for a closure that threw. -/
def handleError (w : World) (copy : WalletCopy) : Failure → World
  | .network => w
  | .other => (w.perform copy copy.value.cancel).1

end World

namespace DeploymentDomainService

/-! ### Handlers -/

/-- `repeat(delay:closure:)` up to the loop. -/
def startLoop (w : World) (loop : Loop) (copy : WalletCopy) : World × Option Task :=
  ({ w with
      repeatersQueue := w.repeatersQueue ++ [.add w.nextRepeater]
      nextRepeater := w.nextRepeater + 1 },
    some (.polling loop .entering w.nextRepeater .stopped copy))

/-- A handler up to its first request: `handleError(_:)` loads the wallet. -/
def handle (w : World) (event : DomainEvent) : Except Trap (World × Option Task) :=
  let copy := w.row.load
  match event with
  | .deploymentStarted => .ok (w, some (.deploymentStarted copy))
  | .deploymentAborted => .ok ({ w with repeatersQueue := w.repeatersQueue ++ [.stopAll] }, none)
  | .startedWaitingForFirstDeposit => .ok (startLoop w .waitForFirstDeposit copy)
  | .startedWaitingForRemainingFeeAmount => .ok (startLoop w .waitForFunding copy)
  | .deploymentFunded => .ok (w, some (.walletFunded copy))
  | .creationStarted =>
      match copy.value.creationTransactionHash with
      | none => .ok (startLoop w .waitForCreationTransactionHash copy)
      | some _ =>
          .ok (startLoop (w.publish (some .walletTransactionHashIsKnown))
            .waitForCreationTransactionCompletion copy)
  | .walletCreated => .ok (w, some (.walletCreated copy))
  | .walletCreationFailed => .error .exit
  -- nothing else is subscribed to
  | _ => .ok (w, none)

/-- The wallet that `deploymentStarted(_:)` proceeds with. -/
def configured (wallet : Wallet) (response : SafeCreation) : Except Trap Wallet := do
  let wallet ← wallet.changeAddress (some response.safeAddress)
  let wallet ← wallet.updateMinimumTransactionAmount response.payment
  return { wallet with
    masterCopyAddress := some response.masterCopyAddress
    contractVersion := response.version }

/-- `deploymentStarted(_:)` from the answer of the relay on. -/
def deploymentStarted (w : World) (copy : WalletCopy) (o : Outside) : Except Trap World :=
  match o.creation with
  | .error failure => .ok (w.handleError copy failure)
  | .ok response => do
      let wallet ← configured copy.value response
      let m ← wallet.proceed o.account
      return (w.perform copy m).1

/-- `walletFunded(_:)` from the answer of the relay on. -/
def walletFunded (w : World) (copy : WalletCopy) (o : Outside) : Except Trap World := do
  let _ ← unwrap "wallet.address" copy.value.address
  match o.startCreation with
  | .error failure => return w.handleError copy failure
  | .ok () =>
      let m ← copy.value.proceed o.account
      return (w.perform copy m).1

/-- `walletCreated(_:)` from the answer of the notification service on. -/
def walletCreated (w : World) (copy : WalletCopy) (o : Outside) : Except Trap World :=
  match o.notification with
  | .error failure => .ok (w.handleError copy failure)
  | .ok () => do
      let _ ← unwrap "wallet.owner(role: .paperWallet)" (copy.value.owner .paperWallet)
      let _ ← unwrap "wallet.owner(role: .paperWalletDerived)"
        (copy.value.owner .paperWalletDerived)
      return w

/-! ### Loops -/

/-- What an iteration comes to: an error, another iteration, or a change of the wallet for
which the loop is stopped. -/
inductive Iteration
  | failed (failure : Failure)
  | again
  | done (m : Moved)

/-- `updateBalance(for:)`. -/
def updateBalance (wallet : Wallet) (o : Outside) : Except Trap (Except Failure Int) := do
  let _ ← unwrap "wallet.address" wallet.address
  match o.balance with
  | .error failure => return .error failure
  | .ok balance =>
      let _ ← unwrap "accountRepository.find(id: accountID)" o.account
      return .ok balance

/-- The closure of a loop. -/
def iterate (loop : Loop) (wallet : Wallet) (o : Outside) : Except Trap Iteration :=
  match loop with
  | .waitForFirstDeposit => do
      match ← updateBalance wallet o with
      | .error failure => return .failed failure
      | .ok balance =>
          if balance > 0 then return .done (← wallet.proceed o.account) else return .again
  | .waitForFunding => do
      match ← updateBalance wallet o with
      | .error failure => return .failed failure
      | .ok balance => do
          let minimum ← unwrap "wallet.minimumDeploymentTransactionAmount"
            wallet.minimumDeploymentTransactionAmount
          if balance ≥ minimum then return .done (← wallet.proceed o.account) else return .again
  | .waitForCreationTransactionHash => do
      let _ ← unwrap "wallet.address" wallet.address
      match o.transactionHash with
      | .error failure => return .failed failure
      | .ok none => return .again
      | .ok (some hash) =>
          let wallet ← wallet.assignCreationTransaction (some hash)
          return .done ⟨wallet, true, some .walletTransactionHashIsKnown⟩
  | .waitForCreationTransactionCompletion => do
      let _ ← unwrap "wallet.creationTransactionHash" wallet.creationTransactionHash
      match o.receipt with
      | .error failure => return .failed failure
      | .ok none => return .again
      | .ok (some true) => return .done (← wallet.proceed o.account)
      | .ok (some false) => return .done wallet.cancel

/-- `main` of a loop. A loop that is done stops itself before it changes the wallet. -/
def runMain (w : World) (loop : Loop) (repeater : Nat) (state : RepeaterState) (copy : WalletCopy)
    (o : Outside) : Except Trap (World × Option Task) := do
  match ← iterate loop copy.value o with
  | .failed failure => return (w.handleError copy failure, none)
  | .again => return (w, some (.polling loop .returned repeater state copy))
  | .done m =>
      let queue := w.repeatersQueue ++ [RepeatersBlock.remove repeater]
      let (w, copy) := { w with repeatersQueue := queue }.perform copy m
      return (w, some (.polling loop .returned repeater .stopped copy))

/-- After a loop: the handler of `creationStarted` has a second one. -/
def afterLoop (w : World) (loop : Loop) (copy : WalletCopy) : World × Option Task :=
  match loop with
  | .waitForCreationTransactionHash => startLoop w .waitForCreationTransactionCompletion copy
  | _ => (w, none)

/-- The next step of `Repeater.start()`. -/
def poll (w : World) (loop : Loop) (phase : Phase) (repeater : Nat) (state : RepeaterState)
    (copy : WalletCopy) (o : Outside) : Except Trap (World × Option Task) :=
  match phase with
  | .entering => .ok (w, some (.polling loop .main repeater .running copy))
  | .main => runMain w loop repeater state copy o
  | .returned =>
      .ok (if state = .stopped then afterLoop w loop copy
        else (w, some (.polling loop .idling repeater state copy)))
  | .idling => .ok (w, some (.polling loop .waiting repeater .waiting copy))
  | .waiting =>
      .ok (if state = .stopped then afterLoop w loop copy
        else (w, some (.polling loop .entering repeater state copy)))

/-! ### Steps -/

/-- `cancel()` in `abortDeployment()`. -/
def abort (w : World) (copy : WalletCopy) : World × Option Task :=
  let m := copy.value.cancel
  let (w, copy) := w.perform copy m
  ({ w with abortedToDraft := w.abortedToDraft || (m.saved && m.wallet.state = .draft) },
    some (.aborted copy))

/-- The next step of a thread, and what is left of it. -/
def act (w : World) (task : Task) (o : Outside) : Except Trap (World × Option Task) :=
  match task with
  | .dispatched event => handle w event
  | .starting copy => do
      let m ← copy.value.resume o.account
      return ((w.perform copy m).1, none)
  | .aborting copy => .ok (abort w copy)
  | .aborted copy => .ok (w.save copy.value, none)
  | .deploymentStarted copy => do return (← deploymentStarted w copy o, none)
  | .walletFunded copy => do return (← walletFunded w copy o, none)
  | .walletCreated copy => do return (← walletCreated w copy o, none)
  | .polling loop phase repeater state copy => poll w loop phase repeater state copy o

/-- The events `start()` subscribes to, in order. -/
def subscribed : List DomainEvent :=
  [.deploymentStarted, .startedWaitingForFirstDeposit, .startedWaitingForRemainingFeeAmount,
    .deploymentFunded, .creationStarted, .walletCreated, .walletCreationFailed, .deploymentAborted]

/-- `start()` up to `wallet.resume()`. -/
def start (w : World) : World :=
  { w with
    publisher := w.publisher ++ .unsubscribe :: subscribed.map .subscribe
    tasks := w.tasks ++ [.starting w.row.load]
    abortedToDraft := false }

/-- `abortDeployment()` up to `cancel()`. -/
def abortDeployment (w : World) : World := { w with tasks := w.tasks ++ [.aborting w.row.load] }

/-- The next block of the publisher's queue. -/
def publisherBlock (w : World) : World :=
  match w.publisher with
  | [] => w
  | .unsubscribe :: publisher => { w with publisher := publisher, subscriptions := [] }
  | .subscribe event :: publisher =>
      { w with publisher := publisher, subscriptions := w.subscriptions ++ [event] }
  | .publish event :: publisher =>
      { w with
        publisher := publisher
        tasks := w.tasks ++ (w.subscriptions.filter (· = event)).map .dispatched }

/-- `stop()`, if the thread is the loop of one of the repeaters. -/
def stopped (repeaters : List Nat) : Task → Task
  | .polling loop phase repeater state copy =>
      .polling loop phase repeater (if repeater ∈ repeaters then .stopped else state) copy
  | task => task

/-- The next block of the queue of `Repeaters`. -/
def repeatersBlock (w : World) : World :=
  match w.repeatersQueue with
  | [] => w
  | .add repeater :: queue =>
      { w with repeatersQueue := queue, repeaters := w.repeaters ++ [repeater] }
  | .remove repeater :: queue =>
      { w with repeatersQueue := queue, repeaters := w.repeaters.filter (· ≠ repeater) }
  | .stopAll :: queue =>
      { w with
        repeatersQueue := queue
        repeaters := []
        tasks := w.tasks.map (stopped w.repeaters) }

/-- What happens next in the process. -/
inductive Step
  | start
  | abortDeployment
  | publisher
  | repeaters
  /-- A thread, by its number, goes on with the answer it waits for. -/
  | act (task : Nat) (outside : Outside)

/-- One step of the process. -/
def step (w : World) : Step → Except Trap World
  | .start => .ok (start w)
  | .abortDeployment => .ok (abortDeployment w)
  | .publisher => .ok (publisherBlock w)
  | .repeaters => .ok (repeatersBlock w)
  | .act task outside =>
      match w.tasks[task]? with
      | none => .ok w
      | some t => do
          let (w', t') ← act w t outside
          return { w' with tasks := w.tasks.eraseIdx task ++ t'.toList }

end DeploymentDomainService

end MultisigWallet
