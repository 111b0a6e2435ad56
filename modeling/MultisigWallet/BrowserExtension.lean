import MultisigWallet.OwnerLinkedList
import MultisigWallet.WalletApplication

/-!
# MultisigWallet.BrowserExtension

The services that replace, connect and disconnect a wallet's browser extension:
`ReplaceBrowserExtensionDomainService` with its two subclasses, and the application services
over them.

A flow works on one stored transaction. Its call data is written as dummy data when the fee
is estimated and as the real call when the new extension is paired; the two share a field.
The three services are one, with the overridden members given as functions of `Flow`.

As before, what the outside world contributes to a call is an argument: the answer of the
node to each owner query (`none` when the query throws), the relay, the notification service,
and what third-party code reads off a code or a phrase.
-/

namespace MultisigWallet

/-- `ReplaceBrowserExtensionDomainService` and its subclasses. -/
inductive Flow
  | replace
  | connect
  | disconnect
  deriving DecidableEq, Repr

inductive ReplaceBrowserExtensionDomainServiceError
  | insufficientBalance
  | browserExtensionNotConnected
  | browserExtensionAlreadyExists
  | recoveryPhraseInvalid
  | recoveryPhraseHasNoOwnership
  deriving DecidableEq, Repr

inductive FeeCalculationError
  | insufficientBalance
  | extensionNotFound
  | extensionExists
  deriving DecidableEq, Repr

/-- What a call can throw. -/
inductive Thrown
  | domain (error : ReplaceBrowserExtensionDomainServiceError)
  | fee (error : FeeCalculationError)
  /-- `WalletApplicationServiceError.validationFailed`. -/
  | validationFailed
  /-- An error of the relay, of the node or of the notification service. -/
  | network
  deriving DecidableEq, Repr

/-- An account the recovery phrase derives, as far as signing reads it. -/
structure ExternallyOwnedAccount where
  address : Address
  privateKey : Data
  deriving DecidableEq, Repr

structure EOAPair where
  primary : ExternallyOwnedAccount
  derived : ExternallyOwnedAccount
  deriving DecidableEq, Repr

/-- `accountRepository.find(id:)`, of which only the balance is read. -/
abbrev Accounts := AccountID → Option (Option Int)

/-- `transactionRelayService.estimateTransaction(request:)`; `none` when it throws. -/
abbrev EstimationRelay := EstimateTransactionRequest → Option EstimateTransactionResponse

namespace ReplaceBrowserExtensionDomainService

/-! ### The wallet and its contract -/

def requiredWallet (r : Repositories) : Except Trap Wallet := unwrap "wallet" r.selected

/-- `requiredWallet.address!`. -/
def walletAddress (r : Repositories) : Except Trap Address := do
  let wallet ← requiredWallet r
  unwrap "requiredWallet.address" wallet.address

/-- `contractProxy`, which is its contract's address. -/
def contractProxy (r : Repositories) : Except Trap Address := walletAddress r

/-- `transaction(_:)`. -/
def transaction (r : Repositories) (id : TransactionID) : Except Trap Transaction :=
  match r.find id with
  | some tx => .ok tx
  | none => .error (.preconditionFailure "transaction not found")

variable (lib : ThirdParty)

/-- `try? contractProxy.getOwners()`, on what the node answers. -/
def getOwners (r : Repositories) (answer : Option Data) : Except Trap (Option (List Address)) := do
  let _ ← contractProxy r
  match answer with
  | none => return none
  | some data => return some (← SafeOwnerManagerContractProxy.getOwners lib data)

/-- `remoteOwnersList()`. -/
def remoteOwnersList (r : Repositories) (answer : Option Data) :
    Except Trap (Option OwnerLinkedList) := do
  match ← getOwners lib r answer with
  | none => return none
  | some remoteOwners =>
      if remoteOwners.isEmpty then return none
      else return some (← ({} : OwnerLinkedList).addAll remoteOwners)

/-! ### Creating and estimating -/

def transactionType : Flow → TransactionType
  | .replace => .replaceBrowserExtension
  | .connect => .connectBrowserExtension
  | .disconnect => .disconnectBrowserExtension

/-- `createTransaction()`, where the repository's `nextID()` is `id`. -/
def createTransaction (flow : Flow) (r : Repositories) (id : TransactionID) (clock : Clock) :
    Except Trap Repositories := do
  let wallet ← requiredWallet r
  let tokenID := (wallet.feePaymentTokenAddress.map (·.value)).getD Token.Ether.id
  let tx := Transaction.new id (transactionType flow) wallet.id ⟨tokenID, wallet.id⟩ (clock 0)
    (clock 1)
  let tx ← tx.change (.amount (some (.ether 0))) (clock 2)
  let address ← walletAddress r
  let tx ← tx.change (.sender (some address)) (clock 3)
  return r.save tx

/-- The address before the one owner of a list made for the dummy data. -/
def addressBeforeZero : Except Trap Address := do
  let remoteList ← ({} : OwnerLinkedList).add .zero
  remoteList.addressBefore .zero

/-- `dummyTransactionData()`: the first owner on chain is swapped for the wallet itself, the
wallet is added as an owner, or the extension is removed. -/
def dummyTransactionData (flow : Flow) (r : Repositories) (answer : Option Data) :
    Except Trap Data :=
  match flow with
  | .replace => do
      let linkedList ← remoteOwnersList lib r answer
      match linkedList, linkedList.bind (·.firstAddress) with
      | some linkedList, some toSwap => do
          let prevOwner ← linkedList.addressBefore toSwap
          let new ← walletAddress r
          return SafeOwnerManagerContractProxy.swapOwner lib prevOwner toSwap new
      | _, _ => do
          let prevOwner ← addressBeforeZero
          return SafeOwnerManagerContractProxy.swapOwner lib prevOwner .zero .zero
  | .connect => do
      let dummyAddress := (r.selected.bind (·.address)).getD .two
      let _ ← contractProxy r
      return SafeOwnerManagerContractProxy.addOwner lib dummyAddress 2
  | .disconnect => do
      let linkedList ← remoteOwnersList lib r answer
      match linkedList, WalletApplicationService.address r .browserExtension with
      | some linkedList, some toDelete =>
          if linkedList.contains toDelete then do
            let prevOwner ← linkedList.addressBefore toDelete
            return SafeOwnerManagerContractProxy.removeOwner lib prevOwner toDelete 1
          else do
            let prevOwner ← addressBeforeZero
            return SafeOwnerManagerContractProxy.removeOwner lib prevOwner .zero 1
      | _, _ => do
          let prevOwner ← addressBeforeZero
          return SafeOwnerManagerContractProxy.removeOwner lib prevOwner .zero 1

/-- `addDummyData(to:)`. -/
def addDummyData (flow : Flow) (r : Repositories) (id : TransactionID) (answer : Option Data)
    (clock : Clock) : Except Trap Repositories := do
  let tx ← transaction r id
  let address ← walletAddress r
  let tx ← tx.change (.recipient (some address)) (clock 0)
  let tx ← tx.change (.operation (some .call)) (clock 1)
  let data ← dummyTransactionData lib flow r answer
  let tx ← tx.change (.data (some data)) (clock 2)
  return r.save tx

/-- `stepBackToDraft(_:)`. -/
def stepBackToDraft (r : Repositories) (id : TransactionID) : Except Trap Repositories := do
  let tx ← unwrap "find(id:)" (r.find id)
  if tx.status = .signing then
    let tx ← tx.stepBack
    return r.save tx
  else return r

/-- `estimationRequest(for:)`. -/
def estimationRequest (r : Repositories) (tx : Transaction) :
    Except Trap EstimateTransactionRequest := do
  let sender ← unwrap "tx.sender" tx.sender
  let operation ← unwrap "tx.operation" tx.operation
  let wallet ← requiredWallet r
  EstimateTransactionRequest.new lib sender tx.ethTo (stringOfInt tx.ethValue) tx.ethData operation
    (wallet.feePaymentTokenAddress.map (·.value))

/-- `estimateNetworkFee(for:)`. -/
def estimateNetworkFee (r : Repositories) (id : TransactionID) (relay : EstimationRelay)
    (clock : Clock) : Except Trap (Except Thrown TokenAmount × Repositories) := do
  let tx ← transaction r id
  let request ← estimationRequest lib r tx
  match relay request with
  | none => return (.error .network, r)
  | some response =>
      let feeToken := (r.tokens.find? (·.id = response.gasToken)).getD Token.Ether
      let estimate : TransactionFeeEstimate :=
        ⟨response.safeTxGas, response.dataGas, response.operationalGas,
          ⟨response.gasPrice, feeToken⟩⟩
      let tx ← tx.change (.fee (some estimate.totalSubmittedToBlockchain)) (clock 0)
      let tx ← tx.change (.feeEstimate (some estimate)) (clock 1)
      let nonce ← response.nextNonce
      let tx ← tx.change (.nonce (some (stringOfInt nonce))) (clock 2)
      return (.ok estimate.totalDisplayedToUser, r.save tx)

/-! ### Validating -/

/-- `accountBalance(for:)`. -/
def accountBalance (r : Repositories) (id : TransactionID) (accounts : Accounts) :
    Except Trap TokenAmount := do
  let tx ← transaction r id
  let balance ← unwrap "accountRepository.find(id: tx.accountID)" (accounts tx.accountID)
  let token := (r.tokens.find? (·.id = tx.accountID.tokenID)).getD Token.Ether
  return ⟨balance.getD 0, token⟩

/-- `resultingBalance(for:change:)`. -/
def resultingBalance (r : Repositories) (id : TransactionID) (accounts : Accounts)
    (amount : TokenAmount) : Except Trap TokenAmount := do
  let balance ← accountBalance r id accounts
  return ⟨balance.amount + amount.amount, balance.token⟩

/-- `validateOwners()`. -/
def validateOwners (flow : Flow) (r : Repositories) : Except Trap (Except Thrown Unit) := do
  let wallet ← requiredWallet r
  match flow with
  | .connect =>
      return if (wallet.owner .browserExtension).isNone then .ok ()
        else .error (.domain .browserExtensionAlreadyExists)
  | _ =>
      return if (wallet.owner .browserExtension).isSome then .ok ()
        else .error (.domain .browserExtensionNotConnected)

/-- `validate(transactionID:)`. The gas is added as `Int`. -/
def validate (flow : Flow) (r : Repositories) (id : TransactionID) (accounts : Accounts) :
    Except Trap (Except Thrown Unit) := do
  let tx ← transaction r id
  precondition tx.fee.isSome "fee must be set during estimation"
  precondition tx.feeEstimate.isSome "fee estimate must be set during estimation"
  let estimate ← unwrap "tx.feeEstimate" tx.feeEstimate
  let gas ← addInt estimate.dataGas estimate.gas
  let gas ← addInt gas estimate.operationalGas
  let totalFee : TokenAmount := ⟨-gas * estimate.gasPrice.amount, estimate.gasPrice.token⟩
  let resulting ← resultingBalance r id accounts totalFee
  if resulting.amount ≥ 0 then validateOwners flow r
  else return .error (.domain .insufficientBalance)

/-- `validateNewOwnerAddress(_:)`. -/
def validateNewOwnerAddress (r : Repositories) (address : Str) (answer : Option Data) :
    Except Trap (Except Thrown Unit) := do
  match ← remoteOwnersList lib r answer with
  | none => return .error (.domain .browserExtensionAlreadyExists)
  | some list => do
      let address ← Address.ofString lib address
      return if list.contains address then .error (.domain .browserExtensionAlreadyExists)
        else .ok ()

/-! ### The call data -/

/-- The new owner in call data. The disconnecting service inherits the replacing one's. -/
def newOwnerOfData (flow : Flow) (data : Data) : Except Trap (Option Str) :=
  match flow with
  | .connect => do
      let arguments ← SafeOwnerManagerContractProxy.decodeAddOwnerArguments lib data
      return arguments.map fun (new, _) => new.value
  | _ =>
      .ok ((SafeOwnerManagerContractProxy.decodeSwapOwnerArguments lib data).map
        fun (_, _, new) => new.value)

/-- `newOwnerAddress(from:)`. -/
def newOwnerAddress (flow : Flow) (r : Repositories) (id : TransactionID) :
    Except Trap (Option Str) := do
  let tx ← transaction r id
  match tx.data with
  | none => return none
  | some data => do
      let _ ← contractProxy r
      newOwnerOfData lib flow data

/-- `realTransactionData(with:)`. The disconnecting service inherits the replacing one's. -/
def realTransactionData (flow : Flow) (r : Repositories) (newAddress : Str)
    (answer : Option Data) : Except Trap (Option Data) :=
  match flow with
  | .connect => do
      let _ ← contractProxy r
      let new ← Address.ofString lib newAddress
      return some (SafeOwnerManagerContractProxy.addOwner lib new 2)
  | _ => do
      let wallet ← requiredWallet r
      let owner ← unwrap "requiredWallet.owner(role: .browserExtension)"
        (wallet.owner .browserExtension)
      match ← remoteOwnersList lib r answer with
      | none => return none
      | some linkedList =>
          if linkedList.contains owner.address then do
            let prevOwner ← linkedList.addressBefore owner.address
            let new ← Address.ofString lib newAddress
            return some (SafeOwnerManagerContractProxy.swapOwner lib prevOwner owner.address new)
          else return none

/-- `DisconnectBrowserExtensionDomainService.realTransactionData()`. -/
def removalTransactionData (r : Repositories) (answer : Option Data) :
    Except Trap (Option Data) :=
  match WalletApplicationService.address r .browserExtension with
  | none => .ok none
  | some extensionAddress => do
      match ← remoteOwnersList lib r answer with
      | none => return none
      | some linkedList =>
          if linkedList.contains extensionAddress then do
            let prevOwner ← linkedList.addressBefore extensionAddress
            return some (SafeOwnerManagerContractProxy.removeOwner lib prevOwner extensionAddress 1)
          else return none

/-- The transaction goes back to draft and gets the data that is computed then. -/
def updateData (r : Repositories) (id : TransactionID)
    (data : Repositories → Except Trap (Option Data)) (clock : Clock) :
    Except Trap Repositories := do
  let r ← stepBackToDraft r id
  let tx ← transaction r id
  let data ← data r
  let tx ← tx.change (.data data) (clock 0)
  return r.save tx

/-- `update(transaction:newOwnerAddress:)`. -/
def update (flow : Flow) (r : Repositories) (id : TransactionID) (newOwnerAddress : Str)
    (answer : Option Data) (clock : Clock) : Except Trap Repositories :=
  updateData r id (fun r => realTransactionData lib flow r newOwnerAddress answer) clock

/-- `DisconnectBrowserExtensionDomainService.update(transaction:)`. -/
def updateRemoval (r : Repositories) (id : TransactionID) (answer : Option Data) (clock : Clock) :
    Except Trap Repositories :=
  updateData r id (fun r => removalTransactionData lib r answer) clock

/-! ### Signing -/

variable (metadata : SafeContractMetadata)

/-- `updateHash(transactionID:)`. -/
def updateHash (r : Repositories) (id : TransactionID) (clock : Clock) :
    Except Trap Repositories := do
  let tx ← transaction r id
  let hash ← EncryptionService.hash lib metadata r.wallets tx
  let tx ← tx.change (.hash (some hash)) (clock 0)
  return r.save tx

/-- `contractOwners` lists both accounts; letter case does not count. -/
def areOwners (eoa : EOAPair) (contractOwners : List Address) : Bool :=
  contractOwners.any (fun a => lowercased a.value = lowercased eoa.primary.address.value) &&
    contractOwners.any fun a => lowercased a.value = lowercased eoa.derived.address.value

/-- The two checks of `sign(transactionID:with:)`; `eoa` is `signingEOA(from: phrase)`. -/
def checkedEOA (r : Repositories) (eoa : Option EOAPair) (answer : Option Data) :
    Except Trap (Except Thrown EOAPair) :=
  match eoa with
  | none => .ok (.error (.domain .recoveryPhraseInvalid))
  | some eoa => do
      match ← getOwners lib r answer with
      | none => return .error .network
      | some contractOwners =>
          return if areOwners eoa contractOwners then .ok eoa
            else .error (.domain .recoveryPhraseHasNoOwnership)

/-- `sign(tx:with:)`. -/
def signTransaction (r : Repositories) (tx : Transaction) (eoa : ExternallyOwnedAccount)
    (now : Date) : Except Trap Transaction := do
  let data ← EncryptionService.sign lib metadata r.wallets tx eoa.privateKey
  tx.addSignature ⟨eoa.address, data⟩ now

/-- `sign(transactionID:with:)`, past its checks. -/
def signWithEOA (r : Repositories) (id : TransactionID) (eoa : EOAPair) (clock : Clock) :
    Except Trap Repositories := do
  let r ← updateHash lib metadata r id clock
  let tx ← transaction r id
  let tx ← tx.proceed (clock 1) (clock 2)
  let tx ← signTransaction lib metadata r tx eoa.primary (clock 3)
  let tx ← signTransaction lib metadata r tx eoa.derived (clock 4)
  return r.save tx

/-- `sign(transactionID:with:)`. -/
def sign (r : Repositories) (id : TransactionID) (eoa : Option EOAPair) (answer : Option Data)
    (clock : Clock) : Except Trap (Except Thrown Unit × Repositories) := do
  match ← checkedEOA lib r eoa answer with
  | .error e => return (.error e, r)
  | .ok eoa => return (.ok (), ← signWithEOA lib metadata r id eoa clock)

end ReplaceBrowserExtensionDomainService

/-! ### Pairing -/

/-- What third-party code reads off a code that was scanned. -/
structure PairingCode where
  /-- `ethereumService.address(browserExtensionCode:)`. -/
  extensionAddress : Option Str
  /-- The code decodes as a `BrowserExtensionCode`. -/
  decodes : Bool
  deriving DecidableEq, Repr

namespace WalletApplicationService

/-- `deletePair(with:)`; `deleted` is the notification service's answer. -/
def deletePair (r : Repositories) (deleted : Bool) : Except Trap (Except Thrown Unit) := do
  let _ ← unwrap "selectedWallet" r.selected
  return if deleted then .ok () else .error .network

/-- `createPair(from:)`; `paired` is the notification service's answer. -/
def createPair (lib : ThirdParty) (r : Repositories) (code : PairingCode) (paired : Bool) :
    Except Trap (Except Thrown Unit) :=
  if code.decodes ∧ code.extensionAddress.isSome then do
    let deviceOwnerAddress ← unwrap "ownerAddress(of: .thisDevice)" (address r .thisDevice)
    let deviceOwnerAddress ← Address.ofString lib deviceOwnerAddress.value
    let _ ← unwrap "ethereumService.sign(message:by:)" (r.privateKey deviceOwnerAddress)
    return if paired then .ok () else .error .network
  else .ok (.error .validationFailed)

end WalletApplicationService

/-! ### The application services -/

structure RBEFeeCalculationData where
  currentBalance : TokenAmount
  networkFee : TokenAmount
  balance : TokenAmount
  deriving DecidableEq, Repr

structure RBEEstimationResult where
  feeCalculation : Option RBEFeeCalculationData
  error : Option Thrown
  deriving DecidableEq, Repr

namespace OwnerModificationApplicationService

open ReplaceBrowserExtensionDomainService

variable (lib : ThirdParty) (metadata : SafeContractMetadata)

/-- `create()`. -/
def create (flow : Flow) (r : Repositories) (id : TransactionID) (clock : Clock) :
    Except Trap Repositories :=
  createTransaction flow r id clock

/-- `estimate(transaction:)`. -/
def estimate (flow : Flow) (r : Repositories) (id : TransactionID) (answer : Option Data)
    (relay : EstimationRelay) (accounts : Accounts) (clock : Clock) :
    Except Trap (RBEEstimationResult × Repositories) := do
  let r ← addDummyData lib flow r id answer clock
  match ← estimateNetworkFee lib r id relay fun i => clock (3 + i) with
  | (.error e, r) => return (⟨none, some e⟩, r)
  | (.ok fee, r) =>
      let negativeFee : TokenAmount := ⟨-fee.amount, fee.token⟩
      let balance ← accountBalance r id accounts
      let remaining ← resultingBalance r id accounts negativeFee
      return (⟨some ⟨balance, negativeFee, remaining⟩,
        if remaining.amount < 0 then some (.fee .insufficientBalance) else none⟩, r)

/-- `start(transaction:)`. -/
def start (flow : Flow) (r : Repositories) (id : TransactionID) (accounts : Accounts) :
    Except Trap (Except Thrown Unit) := do
  match ← validate flow r id accounts with
  | .error (.domain .browserExtensionNotConnected) => return .error (.fee .extensionNotFound)
  | .error (.domain .insufficientBalance) => return .error (.fee .insufficientBalance)
  | .error (.domain .browserExtensionAlreadyExists) => return .error (.fee .extensionExists)
  | result => return result

/-- The extension that was paired by an earlier `connect(transaction:code:)` is forgotten. -/
def deleteOldPair (r : Repositories) (oldPairAddress : Option Str) (deleted : Bool) :
    Except Trap (Except Thrown Unit) :=
  match oldPairAddress with
  | none => .ok (.ok ())
  | some _ => WalletApplicationService.deletePair r deleted

/-- `connect(transaction:code:)` up to the update: the address of the extension that is now
paired. -/
def pairedAddress (flow : Flow) (r : Repositories) (id : TransactionID) (code : PairingCode)
    (answer : Option Data) (deleted paired : Bool) : Except Trap (Except Thrown Str) := do
  let newAddress ← unwrap "address(browserExtensionCode: code)" code.extensionAddress
  match ← validateNewOwnerAddress lib r newAddress answer with
  | .error e => return .error e
  | .ok () =>
      let oldPairAddress ← newOwnerAddress lib flow r id
      match ← deleteOldPair r oldPairAddress deleted with
      | .error e => return .error e
      | .ok () =>
          match ← WalletApplicationService.createPair lib r code paired with
          | .error e => return .error e
          | .ok () => return .ok newAddress

/-- `connect(transaction:code:)`. The contract is asked for its owners twice. -/
def connect (flow : Flow) (r : Repositories) (id : TransactionID) (code : PairingCode)
    (validation update : Option Data) (deleted paired : Bool) (clock : Clock) :
    Except Trap (Except Thrown Unit × Repositories) := do
  match ← pairedAddress lib flow r id code validation deleted paired with
  | .error e => return (.error e, r)
  | .ok newAddress =>
      return (.ok (), ← ReplaceBrowserExtensionDomainService.update lib flow r id newAddress
        update clock)

/-- `sign(transaction:withPhrase:)` of the replacing service. -/
def signReplacement (r : Repositories) (id : TransactionID) (eoa : Option EOAPair)
    (answer : Option Data) (relay : EstimationRelay) (clock : Clock) :
    Except Trap (Except Thrown Unit × Repositories) := do
  let r ← stepBackToDraft r id
  match ← estimateNetworkFee lib r id relay clock with
  | (.error e, r) => return (.error e, r)
  | (.ok _, r) => sign lib metadata r id eoa answer fun i => clock (3 + i)

/-- `sign(transaction:withPhrase:)` of the disconnecting service: the real data is written
first. -/
def signRemoval (r : Repositories) (id : TransactionID) (eoa : Option EOAPair)
    (update answer : Option Data) (relay : EstimationRelay) (clock : Clock) :
    Except Trap (Except Thrown Unit × Repositories) := do
  let r ← updateRemoval lib r id update clock
  signReplacement lib metadata r id eoa answer relay fun i => clock (1 + i)

end OwnerModificationApplicationService

end MultisigWallet
