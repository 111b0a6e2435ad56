import MultisigWallet.BrowserExtension
import MultisigWallet.Deployment
import MultisigWallet.Lib.Journal
import MultisigWallet.Recovery

/-!
# MultisigWallet.RecoveryService

`RecoveryDomainService`: preparing a wallet for recovery, building the recovery transaction,
submitting it, and finishing or cancelling the recovery when it has been processed.

The service keeps nothing in memory that it could not read back, apart from a subscription
while the transaction is pending. Wallet and transaction are saved one after the other,
though, so what a process leaves behind depends on the save after which it dies. Every
function is therefore a `Journal` over what the device stores.

`assert` is compiled out of a release build and is not modelled.
-/

namespace MultisigWallet

/-! ### What the device stores -/

/-- The part of the repositories a set-up works on. -/
structure Device where
  /-- The selected wallet. -/
  wallet : Wallet
  /-- `find(type: .walletRecovery, wallet:)`. The previous transaction is removed before the
  next one is saved, so there is one at most. -/
  transaction : Option Transaction := none
  /-- The externally owned accounts, addresses with their private keys. -/
  accounts : List (Address × Data) := []
  /-- Not stored: whenever a save made the wallet ready to use, the status the recovery
  transaction had then. -/
  readied : List (Option TransactionStatus) := []
  deriving DecidableEq, Repr

/-- Which save it was. The first three are not the last ones of what they belong to. -/
inductive SavePoint
  /-- The transaction, in `submitRecoveryTransaction()`. -/
  | transactionSubmitted
  /-- The wallet, in `proceed()` on behalf of a transaction that failed. -/
  | failureProceeded
  /-- The wallet, in `cancel()`, before the transaction is removed. -/
  | recoveryCancelled
  | other
  deriving DecidableEq, Repr

/-- A function that saves to the device and may trap. -/
abbrev Saving := Journal SavePoint Device Trap

namespace Device

/-- `walletRepository.save(_:)`. -/
def saveWallet (d : Device) (wallet : Wallet) : Device :=
  { d with
    wallet := wallet
    readied :=
      if wallet.state = .readyToUse ∧ d.wallet.state ≠ .readyToUse then
        d.readied ++ [d.transaction.map (·.status)]
      else d.readied }

/-- `externallyOwnedAccountRepository.find(by:)`, of which only the private key is read. -/
def privateKey (d : Device) (address : Address) : Option Data :=
  (d.accounts.find? (·.1 = address)).map (·.2)

/-- `externallyOwnedAccountRepository.remove(address:)`; removing nothing is harmless. -/
def removeAccount (d : Device) (address : Address) : Device :=
  { d with accounts := d.accounts.filter (·.1 ≠ address) }

end Device

namespace Saving

/-- `walletRepository.save(_:)`. -/
def wallet (point : SavePoint) (w : Wallet) : Saving Unit :=
  Journal.modify point fun d => d.saveWallet w

/-- `transactionRepository.save(_:)` and `remove(_:)`. -/
def transaction (point : SavePoint) (tx : Option Transaction) : Saving Unit :=
  Journal.modify point fun d => { d with transaction := tx }

/-- `externallyOwnedAccountRepository.save(_:)`. -/
def account (eoa : ExternallyOwnedAccount) : Saving Unit :=
  Journal.modify .other fun d => { d with accounts := d.accounts ++ [(eoa.address, eoa.privateKey)] }

/-- `externallyOwnedAccountRepository.remove(address:)`. -/
def accountRemoval (address : Address) : Saving Unit :=
  Journal.modify .other fun d => d.removeAccount address

/-- A method of a wallet object: what it saves, and the object it leaves. -/
def perform (point : SavePoint) (m : Moved) : Saving Wallet :=
  if m.saved then do
    Saving.wallet point m.wallet
    return m.wallet
  else return m.wallet

end Saving

/-! ### Wallet -/

/-- `removeAll { $0.role != role }`. -/
def OwnerList.only (l : OwnerList) (role : OwnerRole) : OwnerList where
  storage := l.storage.filter (·.role = role)
  roles_nodup := l.roles_nodup_filter _

/-- `Wallet.prepareForRecovery()`. -/
def Wallet.prepareForRecovery (w : Wallet) : Wallet :=
  { w with state := .recoveryDraft, owners := w.owners.only .thisDevice, confirmationCount := 1 }

namespace WalletState

def isReadyToUse : WalletState → Bool
  | readyToUse => true
  | _ => false

def isRecoveryInProgress : WalletState → Bool
  | recoveryInProgress => true
  | recoveryPostProcessing => true
  | _ => false

def isFinalizingRecovery : WalletState → Bool
  | recoveryPostProcessing => true
  | _ => false

end WalletState

/-- What node and relay answer the service; `none` when a call throws. -/
structure ContractAnswers where
  /-- `masterCopyAddress()` of the proxy contract, asked in `validate(address:)` and again in
  `pullWalletData()`. -/
  masterCopy : Option (Option Address)
  masterCopyAgain : Option (Option Address)
  /-- `version(masterCopyAddress:)` of the metadata. -/
  version : Option Str
  /-- `getOwners()`. -/
  owners : Option Data
  /-- `getThreshold()`. -/
  threshold : Option Data
  /-- `estimateTransaction(request:)`. -/
  estimate : EstimationRelay
  /-- `submitTransaction(request:)`. -/
  submit : SubmitTransactionRequest → Option TransactionHash

namespace RecoveryDomainService

variable (lib : ThirdParty) (metadata : SafeContractMetadata)

/-! ### Getting ready -/

/-- `prepareForRecovery()`. -/
def prepareForRecovery : Saving Unit := do
  let d ← Journal.get
  Saving.wallet .other d.wallet.reset.prepareForRecovery

/-- `isValidMasterCopy(address:)`. -/
def isValidMasterCopy (address : Address) : Bool := (metadata.find address).isSome

/-- `pullWalletData()`. A wallet without a master copy is not saved. -/
def pullWalletData (answers : ContractAnswers) : Saving Unit := do
  let d ← Journal.get
  let _ ← Journal.lift (unwrap "wallet.address" d.wallet.address)
  match answers.owners, answers.threshold with
  | some owners, some threshold =>
      let existingOwnerAddresses ← Journal.lift (SafeOwnerManagerContractProxy.getOwners lib owners)
      let confirmationCount ← Journal.lift (SafeOwnerManagerContractProxy.getThreshold threshold)
      let wallet ← Journal.lift
        (RecoveryTransactionBuilder.addUnknownOwners d.wallet existingOwnerAddresses)
      let wallet := wallet.changeConfirmationCount confirmationCount
      match answers.masterCopyAgain with
      | some (some masterCopy) =>
          Saving.wallet .other
            { wallet with masterCopyAddress := some masterCopy, contractVersion := answers.version }
      | _ => pure ()
  | _, _ => pure ()

/-- `change(address:)`. Errors are posted to the error stream. -/
def changeAddress (address : Address) (answers : ContractAnswers) : Saving Unit :=
  match answers.masterCopy with
  | some (some masterCopy) =>
      if isValidMasterCopy metadata masterCopy then do
        let d ← Journal.get
        let wallet ← Journal.lift (d.wallet.changeAddress (some address))
        Saving.wallet .other wallet
        pullWalletData lib answers
      else pure ()
  | _ => pure ()

/-- `owner(from:)`. -/
def owner (account : ExternallyOwnedAccount) : Except Trap Owner := do
  let address ← Address.ofString lib (lowercased account.address.value)
  return ⟨address, .unknown⟩

/-- `save(_:)`. -/
def saveAccount (account : ExternallyOwnedAccount) : Saving Unit := do
  let d ← Journal.get
  if (d.privateKey account.address).isNone then Saving.account account else pure ()

/-- `provide(recoveryPhrase:)`; `eoa` is what the phrase derives, if it is valid. -/
def provide (eoa : Option EOAPair) : Saving Unit :=
  match eoa with
  | none => pure ()
  | some ⟨recoveryAccount, derivedAccount⟩ => do
      let d ← Journal.get
      let recoveryOwner ← Journal.lift (owner lib recoveryAccount)
      let derivedOwner ← Journal.lift (owner lib derivedAccount)
      if recoveryOwner ∈ d.wallet.owners.storage ∧ derivedOwner ∈ d.wallet.owners.storage then do
        saveAccount recoveryAccount
        saveAccount derivedAccount
        let wallet ← Journal.lift (d.wallet.addOwner ⟨recoveryAccount.address, .paperWallet⟩)
        let wallet ← Journal.lift (wallet.addOwner ⟨derivedAccount.address, .paperWalletDerived⟩)
        Saving.wallet .other wallet
      else pure ()

/-! ### The recovery transaction -/

/-- `estimate()`, of which the request is built from the wallet as it is stored. -/
def estimate (b : RecoveryTransactionBuilder) (stored : Wallet) (relay : EstimationRelay) :
    Except Trap (Option EstimateTransactionResponse) := do
  let recipient ← unwrap "address(from: transaction.ethTo.value)"
    (EncryptionService.address lib b.transaction.ethTo.value)
  let sender ← unwrap "transaction.sender" b.transaction.sender
  let operation ← unwrap "transaction.operation" b.transaction.operation
  let request ← EstimateTransactionRequest.new lib sender recipient
    (stringOfInt b.transaction.ethValue) b.transaction.ethData operation
    (stored.feePaymentTokenAddress.map (·.value))
  return relay request

/-- `calculateFees(basedOn:)`, with the tokens of the token list. -/
def calculateFees (b : RecoveryTransactionBuilder) (tokens : List Token)
    (response : EstimateTransactionResponse) (now : Date) :
    Except Trap RecoveryTransactionBuilder := do
  let feeToken := (tokens.find? (·.id = response.gasToken)).getD Token.Ether
  let estimate : TransactionFeeEstimate :=
    ⟨response.safeTxGas, response.dataGas, response.operationalGas, ⟨response.gasPrice, feeToken⟩⟩
  let tx ← b.transaction.change (.fee (some estimate.totalSubmittedToBlockchain)) now
  let tx ← tx.change (.feeEstimate (some estimate)) now
  let nonce ← response.nextNonce
  let tx ← tx.change (.nonce (some (stringOfInt nonce))) now
  return { b with transaction := tx }

/-- `seal()`. -/
def sealTransaction (b : RecoveryTransactionBuilder) (stored : Wallet) (now : Date) :
    Except Trap RecoveryTransactionBuilder := do
  let hash ← EncryptionService.hash lib metadata [stored] b.transaction
  let tx ← b.transaction.change (.hash (some hash)) now
  let tx ← tx.proceed now now
  return { b with transaction := tx }

/-- The signature of the owner with `role`. -/
def signWith (b : RecoveryTransactionBuilder) (d : Device) (role : OwnerRole) (now : Date) :
    Except Trap RecoveryTransactionBuilder := do
  let owner ← unwrap "wallet.owner(role:)" (b.wallet.owner role)
  let privateKey ← unwrap "externallyOwnedAccountRepository.find(by:)" (d.privateKey owner.address)
  let signature ← EncryptionService.sign lib metadata [d.wallet] b.transaction privateKey
  let tx ← b.transaction.addSignature ⟨owner.address, signature⟩ now
  return { b with transaction := tx }

/-- `sign()`: with the second key, too, if the contract asks for two confirmations. -/
def sign (b : RecoveryTransactionBuilder) (d : Device) (now : Date) :
    Except Trap RecoveryTransactionBuilder := do
  let b ← signWith lib metadata b d .paperWallet now
  if b.oldScheme.confirmations = 2 then signWith lib metadata b d .paperWalletDerived now
  else return b

/-- `RecoveryTransactionBuilder.main()` up to `save()`; `none` when it returns before. -/
def build (d : Device) (tokens : List Token) (id : TransactionID) (answers : ContractAnswers)
    (now : Date) : Except Trap (Option RecoveryTransactionBuilder) := do
  let queries := answers.owners.bind fun owners => answers.threshold.map fun threshold =>
    (owners, threshold)
  let b ← RecoveryTransactionBuilder.pullData lib d.wallet metadata.multiSendContractAddress id
    queries now
  if b.isSupportedSafeOwners && b.isSupportedScheme then do
    let b ← b.buildData lib now
    match ← estimate lib b d.wallet answers.estimate with
    | none => return none
    | some response => do
        let b ← calculateFees b tokens response now
        let b ← sealTransaction lib metadata b d.wallet now
        let b ← sign lib metadata b d now
        return some b
  else return none

/-- The first lines of `createRecoveryTransaction()` and of `cancelRecovery()`. -/
def removeTransaction : Saving Unit := do
  let d ← Journal.get
  match d.transaction with
  | some _ => Saving.transaction .other none
  | none => pure ()

/-- `createRecoveryTransaction()`. -/
def createRecoveryTransaction (tokens : List Token) (id : TransactionID) (answers : ContractAnswers)
    (now : Date) : Saving Unit := do
  removeTransaction
  let d ← Journal.get
  match ← Journal.lift (build lib metadata d tokens id answers now) with
  | none => pure ()
  | some b => do
      Saving.transaction .other (some b.transaction)
      Saving.wallet .other b.wallet

/-- `isRecoveryTransactionReadyToSubmit()`. -/
def isRecoveryTransactionReadyToSubmit (d : Device) (accounts : Accounts) : Bool :=
  match d.transaction with
  | none => false
  | some tx =>
      match (accounts tx.accountID).join with
      | none => false
      | some balance =>
          match tx.feeEstimate with
          | none => false
          | some estimate => decide (estimate.totalDisplayedToUser.amount ≤ balance)

/-! ### Submitting and finishing -/

/-- `cancelRecovery()`. -/
def cancelRecovery : Saving Unit := do
  removeTransaction
  let d ← Journal.get
  Saving.wallet .other d.wallet.reset.prepareForRecovery

/-- The two queries of `postProcessing()` and its comparisons; whether none of them throws. -/
def isRecovered (wallet : Wallet) (answers : ContractAnswers) : Except Trap Bool := do
  match answers.owners with
  | none => return false
  | some owners => do
      let remoteOwners ← SafeOwnerManagerContractProxy.getOwners lib owners
      let remoteOwners := (remoteOwners.map fun a => lowercased a.value).insertionSort (· ≤ ·)
      let localOwners := ((wallet.owners.storage.filter (·.role ≠ .unknown)).map
        fun o => lowercased o.address.value).insertionSort (· ≤ ·)
      if localOwners = remoteOwners then
        match answers.threshold with
        | none => return false
        | some threshold => do
            let remoteThreshold ← SafeOwnerManagerContractProxy.getThreshold threshold
            return decide (wallet.confirmationCount = remoteThreshold)
      else return false

/-- `postProcessing()`. The keys of the recovery phrase go first. -/
def postProcessing (answers : ContractAnswers) : Saving Unit := do
  let d ← Journal.get
  let _ ← Journal.lift (unwrap "find(type: .walletRecovery, wallet: wallet.id)" d.transaction)
  let _ ← Journal.lift (unwrap "wallet.address" d.wallet.address)
  if ← Journal.lift (isRecovered lib d.wallet answers) then do
    let paperWallet ← Journal.lift
      (unwrap "wallet.owner(role: .paperWallet)" (d.wallet.owner .paperWallet))
    Saving.accountRemoval paperWallet.address
    let derived ← Journal.lift
      (unwrap "wallet.owner(role: .paperWalletDerived)" (d.wallet.owner .paperWalletDerived))
    Saving.accountRemoval derived.address
    let m ← Journal.lift (d.wallet.proceed none)
    let wallet ← Saving.perform .other m
    let wallet ← Journal.lift (wallet.removeOwner .unknown)
    Saving.wallet .other wallet
  else do
    let _ ← Saving.perform .recoveryCancelled d.wallet.cancel
    cancelRecovery

/-- `handleTransactionProgress(_:_:)`; `wallet` is the caller's object. -/
def handleTransactionProgress (tx : Transaction) (wallet : Wallet) (answers : ContractAnswers) :
    Saving Unit :=
  if tx.status = .success then do
    let m ← Journal.lift (wallet.proceed none)
    let _ ← Saving.perform .other m
    postProcessing lib answers
  else if tx.status = .failed then do
    let m ← Journal.lift (wallet.proceed none)
    let wallet ← Saving.perform .failureProceeded m
    let _ ← Saving.perform .recoveryCancelled wallet.cancel
    cancelRecovery
  else pure ()

/-- `subscribeForTransactionProcessing()`: the wallet object the subscription holds. -/
def subscribeForTransactionProcessing : Saving (Option Wallet) := do
  let d ← Journal.get
  let tx ← Journal.lift (unwrap "find(type: .walletRecovery, wallet: wallet.id)" d.transaction)
  if tx.status = .pending then return some d.wallet else return none

/-- `submitRecoveryTransaction()`. -/
def submitRecoveryTransaction (answers : ContractAnswers) (clock : Clock) :
    Saving (Option Wallet) := do
  let d ← Journal.get
  let tx ← Journal.lift (unwrap "find(type: .walletRecovery, wallet: wallet.id)" d.transaction)
  let request ← Journal.lift (WalletApplicationService.submissionRequest lib tx)
  match answers.submit request with
  | none => return none
  | some hash => do
      let tx ← Journal.lift (tx.setHash hash (clock 0))
      let tx ← Journal.lift (tx.proceed (clock 1) (clock 2))
      Saving.transaction .transactionSubmitted (some tx)
      let m ← Journal.lift (d.wallet.proceed none)
      let wallet ← Saving.perform .other m
      Saving.wallet .other wallet
      subscribeForTransactionProcessing

/-- The branches of `resume()`. -/
inductive Branch
  | submit
  | postProcess
  | subscribe
  | handleProgress
  deriving DecidableEq, Repr

/-- The branch `resume()` takes; `none` stands for its `preconditionFailure`. -/
def branch (state : WalletState) (status : TransactionStatus) : Option Branch :=
  if !state.isReadyToUse && !state.isRecoveryInProgress && status = .signing then some .submit
  else if state.isFinalizingRecovery && status = .success then some .postProcess
  else if state.isRecoveryInProgress && status = .pending then some .subscribe
  else if state.isRecoveryInProgress && (status = .success || status = .failed) then
    some .handleProgress
  else none

/-- `resume()`: the wallet object of a new subscription, if there is one. -/
def resume (answers : ContractAnswers) (clock : Clock) : Saving (Option Wallet) := do
  let d ← Journal.get
  let tx ← Journal.lift (unwrap "find(type: .walletRecovery, wallet: wallet.id)" d.transaction)
  match branch d.wallet.state tx.status with
  | some .submit => submitRecoveryTransaction lib answers clock
  | some .postProcess => do
      postProcessing lib answers
      return none
  | some .subscribe => subscribeForTransactionProcessing
  | some .handleProgress => do
      handleTransactionProgress lib tx d.wallet answers
      return none
  | none => Journal.fail (.preconditionFailure "Invalid wallet and transaction state")

/-- The handler of `TransactionStatusUpdated`, with the wallet object it holds; whether the
service unsubscribes. -/
def transactionStatusUpdated (wallet : Wallet) (answers : ContractAnswers) : Saving Bool := do
  let d ← Journal.get
  match d.transaction with
  | none => return true
  | some tx =>
      if tx.status = .pending then return false
      else do
        handleTransactionProgress lib tx wallet answers
        return true

/-- `updatePendingTransactions()`, on the recovery transaction: `succeeded` is the status of
its receipt, and `date` that of its block. -/
def updatePendingTransaction (succeeded : Bool) (date : Date) (clock : Clock) : Saving Unit := do
  let d ← Journal.get
  match d.transaction with
  | none => pure ()
  | some tx =>
      if tx.status = .pending then do
        let tx ← Journal.lift (if succeeded then tx.succeed (clock 0) (clock 1)
          else tx.fail (clock 0) (clock 1))
        Saving.transaction .other (some ((tx.timestampProcessed date).timestampUpdated (clock 2)))
      else pure ()

/-! ### The process -/

/-- The app: what is stored, and the wallet objects its subscriptions hold. An event that is
published calls the handlers there are then; unsubscribing does not call them back. -/
structure Process where
  device : Device
  subscriptions : List Wallet := []
  dispatched : List Wallet := []
  deriving DecidableEq, Repr

/-- What happens next in the app, with what the outside world contributes. -/
inductive Step
  | changeAddress (address : Address) (answers : ContractAnswers)
  | provide (eoa : Option EOAPair)
  | createRecoveryTransaction (tokens : List Token) (id : TransactionID)
      (answers : ContractAnswers) (now : Date)
  | resume (answers : ContractAnswers) (clock : Clock)
  | updatePendingTransaction (succeeded : Bool) (date : Date) (clock : Clock)
  /-- `TransactionStatusUpdated` is published. -/
  | publishStatusUpdated
  /-- One of the handlers it called runs. -/
  | transactionStatusUpdated (handler : Nat) (answers : ContractAnswers)
  | cancelRecovery

/-- What a step saves, and what is in memory when it returns. -/
def act (p : Process) : Step → Saving Process
  | .changeAddress address answers => do
      changeAddress lib metadata address answers
      return { p with device := ← Journal.get }
  | .provide eoa => do
      provide lib eoa
      return { p with device := ← Journal.get }
  | .createRecoveryTransaction tokens id answers now => do
      createRecoveryTransaction lib metadata tokens id answers now
      return { p with device := ← Journal.get }
  | .resume answers clock => do
      let subscription ← resume lib answers clock
      return { p with
        device := ← Journal.get
        subscriptions := p.subscriptions ++ subscription.toList }
  | .updatePendingTransaction succeeded date clock => do
      updatePendingTransaction succeeded date clock
      return { p with device := ← Journal.get }
  | .publishStatusUpdated => return { p with dispatched := p.dispatched ++ p.subscriptions }
  | .transactionStatusUpdated handler answers =>
      match p.dispatched[handler]? with
      | none => return p
      | some wallet => do
          let unsubscribes ← transactionStatusUpdated lib wallet answers
          return {
            device := ← Journal.get
            subscriptions := if unsubscribes then [] else p.subscriptions
            dispatched := p.dispatched.eraseIdx handler }
  | .cancelRecovery => do
      cancelRecovery
      return { p with device := ← Journal.get }

/-- A step of a process that may be killed after some number of saves. A process that is
killed, or traps, leaves what it had saved to the next one. -/
def step (p : Process) (s : Step × Option Nat) : Except Trap Process :=
  let o := act lib metadata p s.1 p.device
  match s.2, o.result with
  | some saves, _ => .ok { device := o.after p.device saves }
  | none, .error _ => .ok { device := o.final p.device }
  | none, .ok p => .ok p

/-- The save after which the process is killed. -/
def killedAfter (p : Process) (s : Step × Option Nat) : Option SavePoint :=
  s.2.bind fun saves =>
    (((act lib metadata p s.1 p.device).saves.take saves).getLast?).map (·.1)

/-- The process is not killed after a save that another one has to follow. -/
def Spared (p : Process) (s : Step × Option Nat) : Prop :=
  ∀ point, killedAfter lib metadata p s = some point → point = .other

instance (p : Process) (s : Step × Option Nat) : Decidable (Spared lib metadata p s) :=
  inferInstanceAs (Decidable (∀ point ∈ killedAfter lib metadata p s, point = .other))

end RecoveryDomainService

end MultisigWallet
