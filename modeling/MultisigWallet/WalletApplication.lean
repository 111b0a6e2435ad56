import MultisigWallet.ContractProxy
import MultisigWallet.Lib.Rows
import MultisigWallet.Lib.Transition
import MultisigWallet.Message
import Mathlib.Data.List.Sort

/-!
# MultisigWallet.WalletApplication

The part of `WalletApplicationService` that moves transactions: creating and editing a
draft, estimating, receiving push messages and submitting to the relay.

A repository hands out copies of what it stores, and a change to a copy is lost until the
copy is saved. The state of the service is therefore `Repositories`, and every function
returns the repositories it leaves behind.

What the outside world contributes is an argument: the identifier a repository picks, the
readings of the clock (`clock i` is the `i`-th reading of a call) and the answers of the
relay. A call that throws returns `none` in place of its result.
-/

namespace MultisigWallet

/-- What the repositories hold, as far as transactions are concerned. -/
structure Repositories where
  transactions : List Transaction
  wallets : List Wallet
  /-- The portfolio's selection. -/
  selectedWallet : Option WalletID
  /-- The tokens of the token list. -/
  tokens : List Token
  /-- Addresses with their private keys. -/
  externallyOwnedAccounts : List (Address × Data)
  deriving DecidableEq

/-- The readings of the clock during one call. -/
abbrev Clock := Nat → Date

namespace Repositories

/-! ### The transaction repository -/

/-- `save(_:)`: `INSERT OR REPLACE` gives a replaced row a new place at the end. -/
def save (r : Repositories) (tx : Transaction) : Repositories :=
  { r with transactions := r.transactions.filter (·.id ≠ tx.id) ++ [tx] }

def remove (r : Repositories) (tx : Transaction) : Repositories :=
  { r with transactions := r.transactions.filter (·.id ≠ tx.id) }

/-- `find(id:)`. -/
def find (r : Repositories) (id : TransactionID) : Option Transaction :=
  r.transactions.find? (·.id = id)

/-- `find(hash:)`. -/
def findHash (r : Repositories) (hash : Data) : Option Transaction :=
  r.transactions.find? (·.hash = some hash)

/-- `find(hash:status:)`. -/
def findHashStatus (r : Repositories) (hash : Data) (status : TransactionStatus) :
    Option Transaction :=
  r.transactions.find? fun tx => tx.hash = some hash ∧ tx.status = status

/-! ### The other repositories -/

/-- `walletRepository.find(address:)`: the spelling of the address counts. -/
def walletAt (r : Repositories) (address : Address) : Option Wallet :=
  r.wallets.find? (·.address = some address)

/-- `walletRepository.selectedWallet()`. -/
def selected (r : Repositories) : Option Wallet :=
  r.selectedWallet.bind (findWallet r.wallets)

/-- `externallyOwnedAccountRepository.find(by:)`, of which only the private key is read. -/
def privateKey (r : Repositories) (address : Address) : Option Data :=
  (r.externallyOwnedAccounts.find? (·.1 = address)).map (·.2)

/-! ### Rows -/

@[simp] theorem save_wallets (r : Repositories) (tx : Transaction) :
    (r.save tx).wallets = r.wallets := rfl

@[simp] theorem save_selectedWallet (r : Repositories) (tx : Transaction) :
    (r.save tx).selectedWallet = r.selectedWallet := rfl

theorem find_save (r : Repositories) (tx : Transaction) : (r.save tx).find tx.id = some tx :=
  Rows.find?_replaced Transaction.id r.transactions rfl

theorem filter_fresh {r : Repositories} {id : TransactionID}
    (hfresh : ∀ t ∈ r.transactions, t.id ≠ id) :
    r.transactions.filter (·.id ≠ id) = r.transactions :=
  List.filter_eq_self.mpr fun t ht => by simpa using hfresh t ht

theorem filter_append_self (l : List Transaction) (tx : Transaction) :
    (l.filter (·.id ≠ tx.id) ++ [tx]).filter (·.id ≠ tx.id) = l.filter (·.id ≠ tx.id) := by
  simp [List.filter_append, List.filter_filter]

theorem remove_save {r : Repositories} {tx tx' : Transaction} (hid : tx'.id = tx.id) :
    (r.save tx).remove tx' = r.remove tx := by
  simp only [save, remove, hid, filter_append_self]

theorem save_save {r : Repositories} {tx tx' : Transaction} (hid : tx'.id = tx.id) :
    (r.save tx).save tx' = r.save tx' := by
  simp only [save, hid, filter_append_self]

/-- Removing a row that is not there. -/
theorem remove_fresh {r : Repositories} {tx : Transaction}
    (hfresh : ∀ t ∈ r.transactions, t.id ≠ tx.id) : r.remove tx = r := by
  simp only [remove, filter_fresh hfresh]

theorem mem_save {r : Repositories} {tx t : Transaction} (h : t ∈ (r.save tx).transactions) :
    t ∈ r.transactions ∨ t = tx := by
  rcases List.mem_append.mp h with h | h
  · exact .inl (List.mem_of_mem_filter h)
  · exact .inr (List.mem_singleton.mp h)

theorem id_of_find {r : Repositories} {id : TransactionID} {tx : Transaction}
    (h : r.find id = some tx) : tx.id = id := by
  simpa using List.find?_some h

end Repositories

/-! ### `TransactionDomainService` -/

/-- `newDraftTransaction(in:)`, where the repository's `nextID()` is `id`. -/
def newDraftTransaction (r : Repositories) (wallet : Wallet) (id : TransactionID) (clock : Clock) :
    Except Trap Repositories := do
  let tx := Transaction.new id .transfer wallet.id ⟨Token.Ether.id, wallet.id⟩ (clock 0) (clock 1)
  let sender ← unwrap "wallet.address" wallet.address
  let tx ← tx.change (.sender (some sender)) (clock 2)
  return r.save tx

/-! ### Requests to the relay -/

structure EstimateTransactionRequest where
  safe : Str
  toAddress : Str
  value : Str
  data : Str
  operation : WalletOperation
  gasToken : Option Str
  deriving DecidableEq, Repr

/-- `EstimateTransactionRequest.Response`. -/
structure EstimateTransactionResponse where
  safeTxGas : Int
  dataGas : Int
  operationalGas : Int
  gasPrice : Int
  lastUsedNonce : Option Int
  gasToken : Str
  deriving DecidableEq, Repr

structure SubmitTransactionRequest where
  safe : Str
  toAddress : Str
  value : Str
  data : Str
  operation : WalletOperation
  signatures : List EthSignature
  safeTxGas : Str
  dataGas : Str
  gasPrice : Str
  gasToken : Str
  nonce : Str
  deriving DecidableEq, Repr

/-- `nextNonce`. -/
def EstimateTransactionResponse.nextNonce (response : EstimateTransactionResponse) :
    Except Trap Int :=
  match response.lastUsedNonce with
  | some nonce => addInt nonce 1
  | none => .ok 0

/-- `ethData`. -/
def Transaction.ethData (tx : Transaction) : Str :=
  match tx.data with
  | some data => hexMark ++ Bytes.toHex data
  | none => []

variable (lib : ThirdParty)

/-- `EstimateTransactionRequest.init`. Data that is present and empty does not pass. -/
def EstimateTransactionRequest.new (safe toAddress : Address) (value data : Str)
    (operation : WalletOperation) (gasToken : Option Str) :
    Except Trap EstimateTransactionRequest := do
  precondition (lib.bigInt value 10).isSome "value must be a valid integer base 10, as String"
  precondition (data.isEmpty || !(lib.dataEthHex data).isEmpty)
    "data must be a valid base 16 number, as String"
  return ⟨safe.value, toAddress.value, value, data, operation, gasToken⟩

/-- `SubmitTransactionRequest.init(transaction:signatures:)`. -/
def SubmitTransactionRequest.ofTransaction (tx : Transaction) (signatures : List EthSignature) :
    Except Trap SubmitTransactionRequest := do
  let sender ← unwrap "transaction.sender" tx.sender
  let safe ← unwrap "address(from: transaction.sender!.value)"
    (EncryptionService.address lib sender.value)
  let toAddress ← unwrap "address(from: transaction.ethTo.value)"
    (EncryptionService.address lib tx.ethTo.value)
  let operation ← unwrap "transaction.operation" tx.operation
  let estimate ← unwrap "transaction.feeEstimate" tx.feeEstimate
  let nonce ← unwrap "transaction.nonce" tx.nonce
  return {
    safe := safe.value
    toAddress := toAddress.value
    value := stringOfInt tx.ethValue
    data := tx.ethData
    operation
    signatures
    safeTxGas := stringOfInt estimate.gas
    dataGas := stringOfInt estimate.dataGas
    gasPrice := stringOfInt estimate.gasPrice.amount
    gasToken := estimate.gasPrice.token.id
    nonce }

/-- `EthereumApplicationService.address(hash:signature:)`. -/
def EthereumApplicationService.address (hash : Data) (signature : EthSignature) :
    Except Trap (Option Address) := do
  match ← EncryptionService.addressOfSigner lib hash signature with
  | none => return none
  | some value => return some (← Address.ofString lib value)

namespace WalletApplicationService

/-! ### Owners and tokens -/

/-- `address(of:)`: an owner of the *selected* wallet. -/
def address (r : Repositories) (role : OwnerRole) : Option Address := do
  let wallet ← r.selected
  let owner ← wallet.owner role
  return owner.address

/-- `token(id:)`. -/
def token (r : Repositories) (id : TokenID) : Option Token :=
  if id = Token.Ether.id then some Token.Ether else r.tokens.find? (·.id = id)

/-! ### Editing and estimating -/

/-- `createNewDraftTransaction()`. -/
def createNewDraftTransaction (r : Repositories) (id : TransactionID) (clock : Clock) :
    Except Trap Repositories := do
  let wallet ← unwrap "selectedWallet()" r.selected
  newDraftTransaction r wallet id clock

/-- `updateTransaction(_:amount:token:recipient:)`. -/
def updateTransaction (r : Repositories) (id : TransactionID) (amount : Int) (tokenID : TokenID)
    (recipient : Str) (clock : Clock) : Except Trap Repositories := do
  let tx ← unwrap "find(id:)" (r.find id)
  let token ← unwrap "tokenListItemRepository.find(id:)" (r.tokens.find? (·.id = tokenID))
  let tx ← tx.change (.amount (some ⟨amount, token⟩)) (clock 0)
  let recipient ← Address.ofString lib recipient
  let tx ← tx.change (.recipient (some recipient)) (clock 1)
  if token ≠ Token.Ether then
    let data ← ERC20TokenContractProxy.transfer lib recipient amount
    let tx ← tx.change (.data (some data)) (clock 2)
    return r.save tx
  else
    return r.save tx

variable (metadata : SafeContractMetadata)

/-- `updateTransaction(_:withFeeEsimate:nonce:)`. -/
def updateWithFeeEstimate (r : Repositories) (tx : Transaction)
    (feeEstimate : TransactionFeeEstimate) (nonce : Str) (clock : Clock) :
    Except Trap Repositories := do
  let gas ← addInt feeEstimate.gas feeEstimate.dataGas
  let fee := gas * feeEstimate.gasPrice.amount
  let tx ← tx.change (.feeEstimate (some feeEstimate)) (clock 0)
  let tx ← tx.change (.fee (some ⟨fee, feeEstimate.gasPrice.token⟩)) (clock 1)
  let tx ← tx.change (.nonce (some nonce)) (clock 2)
  let tx ← tx.change (.operation (some .call)) (clock 3)
  let hash ← EncryptionService.hash lib metadata r.wallets tx
  let tx ← tx.change (.hash (some hash)) (clock 4)
  let tx ← tx.proceed (clock 5) (clock 6)
  return r.save tx

/-- `estimateTransactionIfNeeded(_:)`; the relay answers `none` when the call throws. -/
def estimateTransactionIfNeeded (r : Repositories) (id : TransactionID)
    (relay : EstimateTransactionRequest → Option EstimateTransactionResponse) (clock : Clock) :
    Except Trap (Option Unit × Repositories) := do
  let tx ← unwrap "find(id:)" (r.find id)
  if tx.feeEstimate.isNone ∨ (tx.type = .connectBrowserExtension ∧ tx.status = .draft) then
    let recipient ← unwrap "address(from: tx.ethTo.value)"
      (EncryptionService.address lib tx.ethTo.value)
    let sender ← unwrap "tx.sender" tx.sender
    let wallet ← unwrap "selectedWallet" r.selected
    let request ← EstimateTransactionRequest.new lib sender recipient (stringOfInt tx.ethValue)
      tx.ethData .call (wallet.feePaymentTokenAddress.map (·.value))
    match relay request with
    | none => return (none, r)
    | some response =>
        let token ← unwrap "token(id: estimationResponse.gasToken)" (token r response.gasToken)
        let nonce ← response.nextNonce
        let feeEstimate : TransactionFeeEstimate :=
          ⟨response.safeTxGas, response.dataGas, response.operationalGas,
            ⟨response.gasPrice, token⟩⟩
        return (some (), ← updateWithFeeEstimate lib metadata r tx feeEstimate (stringOfInt nonce)
          clock)
  else return (some (), r)

variable {lib metadata} in
/-- The transaction is estimated, or nothing is changed. -/
theorem estimateTransactionIfNeeded_cases {r r' : Repositories} {id : TransactionID}
    {relay : EstimateTransactionRequest → Option EstimateTransactionResponse} {clock : Clock}
    {out : Option Unit}
    (h : estimateTransactionIfNeeded lib metadata r id relay clock = .ok (out, r')) :
    ∃ tx, r.find id = some tx ∧
      (r' = r ∨ out = some () ∧ ∃ estimate nonce,
        updateWithFeeEstimate lib metadata r tx estimate nonce clock = .ok r') := by
  unfold estimateTransactionIfNeeded at h
  obtain ⟨tx, htx, h⟩ := bind_ok.mp h
  refine ⟨tx, unwrap_ok.mp htx, ?_⟩
  split at h
  · obtain ⟨recipient, -, h⟩ := bind_ok.mp h
    obtain ⟨sender, -, h⟩ := bind_ok.mp h
    obtain ⟨wallet, -, h⟩ := bind_ok.mp h
    obtain ⟨request, -, h⟩ := bind_ok.mp h
    split at h
    · obtain ⟨-, rfl⟩ := Prod.mk.inj (Except.ok.inj h)
      exact .inl rfl
    · obtain ⟨token, -, h⟩ := bind_ok.mp h
      obtain ⟨nonce, -, h⟩ := bind_ok.mp h
      obtain ⟨r'', hr'', h⟩ := bind_ok.mp h
      obtain ⟨rfl, rfl⟩ := Prod.mk.inj (Except.ok.inj h)
      exact .inr ⟨rfl, _, _, hr''⟩
  · obtain ⟨-, rfl⟩ := Prod.mk.inj (Except.ok.inj h)
    exact .inl rfl

/-! ### Receiving messages -/

/-- The check all three handlers make: the signature of `hash` is by the browser extension
of the selected wallet. Returns the address the wallet has for it. -/
def extensionSigner (r : Repositories) (hash : Data) (signature : EthSignature) :
    Except Trap (Option Address) := do
  match ← EthereumApplicationService.address lib hash signature with
  | none => return none
  | some sender =>
      match address r .browserExtension with
      | none => return none
      | some extensionAddress =>
          if lowercased sender.value = lowercased extensionAddress.value then
            return some extensionAddress
          else return none

/-- `transaction(from:hash:)`. -/
def transaction (r : Repositories) (message : TransactionDecisionMessage) (hash : Data) :
    Except Trap (Option Transaction) := do
  match r.findHashStatus message.hash .signing with
  | none => return none
  | some tx =>
      match ← extensionSigner lib r hash message.signature with
      | none => return none
      | some _ => return some tx

/-- `handle(message: TransactionConfirmedMessage)`. -/
def handleConfirmed (r : Repositories) (message : TransactionDecisionMessage) (clock : Clock) :
    Except Trap (Option TransactionID × Repositories) := do
  match ← transaction lib r message message.hash with
  | none => return (none, r)
  | some tx =>
      let extensionAddress ← unwrap "address(of: .browserExtension)" (address r .browserExtension)
      let data ← EncryptionService.dataFromSignature lib message.signature
      let tx ← tx.addSignature ⟨extensionAddress, data⟩ (clock 0)
      return (some tx.id, r.save tx)

/-- The text a rejection signs. -/
def rejectionPayload (hash : Data) : Data :=
  asciiData "GNO" ++ asciiData "0x" ++ (Bytes.toHex hash).map (fun c => UInt8.ofNat c.toNat) ++
    asciiData Message.rejectTransaction

/-- `handle(message: TransactionRejectedMessage)`. -/
def handleRejected (r : Repositories) (message : TransactionDecisionMessage) (clock : Clock) :
    Except Trap (Option TransactionID × Repositories) := do
  let hash := lib.hashSHA3_256 (rejectionPayload message.hash)
  match ← transaction lib r message hash with
  | none => return (none, r)
  | some tx =>
      let tx ← tx.reject (clock 0) (clock 1)
      return (some tx.id, r.save tx)

/-- `estimation(_:)`. -/
def estimation (message : SendTransactionMessage) : TransactionFeeEstimate :=
  ⟨message.txGas, message.dataGas, message.operationalGas,
    ⟨message.gasPrice, ⟨[], [], 18, message.gasToken, []⟩⟩⟩

/-- `fee(_:)`. The gas is added as `Int`. -/
def fee (message : SendTransactionMessage) : Except Trap TokenAmount := do
  let gas ← addInt (estimation message).gas (estimation message).dataGas
  return ⟨gas * (estimation message).gasPrice.amount, (estimation message).gasPrice.token⟩

/-- `update(transaction:with:)`. -/
def update (tx : Transaction) (message : SendTransactionMessage) (clock : Clock) :
    Except Trap Transaction := do
  let tx ← tx.change (.recipient (some message.toAddress)) (clock 0)
  let tx ← tx.change (.data (some message.data)) (clock 1)
  let tx ← tx.change (.amount (some (.ether message.value))) (clock 2)
  let tx ← tx.change (.operation (some message.operation)) (clock 3)
  let tx ← tx.change (.feeEstimate (some (estimation message))) (clock 4)
  let fee ← fee message
  let tx ← tx.change (.fee (some fee)) (clock 5)
  let tx ← tx.change (.nonce (some (stringOfInt message.nonce))) (clock 6)
  match ← ERC20TokenContractProxy.decodedTransfer lib message.data with
  | none => return tx
  | some (recipient, amount) =>
      let tx ← tx.change (.recipient (some recipient)) (clock 7)
      tx.change (.amount (some ⟨amount, ⟨[], [], 18, message.toAddress, []⟩⟩)) (clock 8)

/-- `handle(message: SendTransactionMessage)`. The draft is saved before anything about the
message is checked, and removed again when a check fails. -/
def handleSend (r : Repositories) (message : SendTransactionMessage) (nextID : TransactionID)
    (clock : Clock) : Except Trap (Option TransactionID × Repositories) := do
  match r.findHash message.hash with
  | some tx => return (if tx.status = .signing then some tx.id else none, r)
  | none =>
      match r.walletAt message.safe with
      | none => return (none, r)
      | some wallet =>
          let r ← newDraftTransaction r wallet nextID clock
          let tx ← unwrap "find(id: transactionID)" (r.find nextID)
          let tx ← update lib tx message fun i => clock (3 + i)
          let hash ← EncryptionService.hash lib metadata r.wallets tx
          if hash = message.hash then
            let tx ← tx.change (.hash (some hash)) (clock 12)
            match ← extensionSigner lib r message.hash message.signature with
            | none => return (none, r.remove tx)
            | some extensionAddress =>
                let tx ← tx.proceed (clock 13) (clock 14)
                let data ← EncryptionService.dataFromSignature lib message.signature
                let address ← Address.ofString lib extensionAddress.value
                let tx ← tx.addSignature ⟨address, data⟩ (clock 15)
                return (some nextID, r.save tx)
          else return (none, r.remove tx)

/-- `receive(message:)`. -/
def receive (r : Repositories) (userInfo : UserInfo) (nextID : TransactionID) (clock : Clock) :
    Except Trap (Option TransactionID × Repositories) :=
  match Message.create lib userInfo with
  | none => .ok (none, r)
  | some (.transactionConfirmed message) => handleConfirmed lib r message clock
  | some (.transactionRejected message) => handleRejected lib r message clock
  | some (.sendTransaction message) => handleSend lib metadata r message nextID clock

/-! ### Submitting -/

/-- `requestConfirmationMessage(for:hash:)`: the fields of the message. -/
structure ConfirmationRequest where
  hash : Str
  safe : Str
  toAddress : Str
  value : Str
  data : Str
  operation : Str
  txGas : Str
  dataGas : Str
  operationalGas : Str
  gasPrice : Str
  gasToken : Str
  nonce : Str
  deriving DecidableEq, Repr

def requestConfirmationMessage (tx : Transaction) (hash : Data) :
    Except Trap ConfirmationRequest := do
  let sender ← unwrap "transaction.sender" tx.sender
  let safe ← unwrap "address(from: transaction.sender!.value)"
    (EncryptionService.address lib sender.value)
  let toAddress ← unwrap "address(from: transaction.ethTo.value)"
    (EncryptionService.address lib tx.ethTo.value)
  let operation ← unwrap "transaction.operation" tx.operation
  let estimate ← unwrap "transaction.feeEstimate" tx.feeEstimate
  let nonce ← unwrap "transaction.nonce" tx.nonce
  return {
    hash := lib.addHexPrefix (Bytes.toHex hash)
    safe := safe.value
    toAddress := toAddress.value
    value := stringOfInt tx.ethValue
    data := tx.ethData
    operation := stringOfInt operation.rawValue
    txGas := stringOfInt estimate.gas
    dataGas := stringOfInt estimate.dataGas
    operationalGas := stringOfInt estimate.operationalGas
    gasPrice := stringOfInt estimate.gasPrice.amount
    gasToken := estimate.gasPrice.token.address.value
    nonce }

/-- `notifyBrowserExtension(message:)`, whatever the message; `sent` is the notification
service's answer. -/
def notifyBrowserExtension (r : Repositories) (sent : Bool) : Except Trap (Option Unit) :=
  match address r .browserExtension with
  | none => .ok (some ())
  | some _ => do
      let sender ← unwrap "ownerAddress(of: .thisDevice)" (address r .thisDevice)
      let sender ← Address.ofString lib sender.value
      let _ ← unwrap "ethereumService.sign(message:by:)" (r.privateKey sender)
      return if sent then some () else none

/-- `transactionHasEnoughSignaturesToSubmit(_:)`. -/
def transactionHasEnoughSignaturesToSubmit (r : Repositories) (tx : Transaction) :
    Except Trap Bool := do
  let wallet ← unwrap "walletRepository.find(id: tx.walletID)" (findWallet r.wallets tx.walletID)
  return decide ((tx.signatures.length : Int) ≥ wallet.confirmationCount - 1)

/-- `requestTransactionConfirmationIfNeeded(_:)`. -/
def requestTransactionConfirmationIfNeeded (r : Repositories) (id : TransactionID) (sent : Bool) :
    Except Trap (Option Unit) := do
  let tx ← unwrap "find(id:)" (r.find id)
  if ← transactionHasEnoughSignaturesToSubmit r tx then return some ()
  match address r .browserExtension with
  | none => return some ()
  | some extensionAddress =>
      if tx.isSignedBy extensionAddress then return some ()
      let hash ← unwrap "tx.hash" tx.hash
      let _ ← requestConfirmationMessage lib tx hash
      notifyBrowserExtension lib r sent

/-- The assertion of `signTransaction(_:)`: the extension, if there is one, has signed. -/
def assertSignedByExtension (r : Repositories) (tx : Transaction) : Except Trap Unit :=
  match address r .browserExtension with
  | none => .ok ()
  | some extensionAddress =>
      if tx.isSignedBy extensionAddress then .ok () else .error .unsignedTransaction

/-- `signTransaction(_:)`. -/
def signTransaction (r : Repositories) (tx : Transaction) (clock : Clock) :
    Except Trap Transaction := do
  assertSignedByExtension r tx
  let myAddress ← unwrap "address(of: .thisDevice)" (address r .thisDevice)
  if tx.isSignedBy myAddress then return tx
  let privateKey ← unwrap "externallyOwnedAccountRepository.find(by: myAddress)"
    (r.privateKey myAddress)
  let data ← EncryptionService.sign lib metadata r.wallets tx privateKey
  tx.addSignature ⟨myAddress, data⟩ (clock 0)

/-- The signatures in the order in which the relay gets them. -/
def sortedSignatures (tx : Transaction) : List Signature :=
  tx.signatures.insertionSort fun s t => lowercased s.address.value ≤ lowercased t.address.value

/-- The request `submitTransaction(_: Transaction)` makes. -/
def submissionRequest (tx : Transaction) : Except Trap SubmitTransactionRequest :=
  SubmitTransactionRequest.ofTransaction lib tx
    ((sortedSignatures tx).map fun s => EncryptionService.ethSignature lib s.data)

/-- `proceedTransaction(_:)`; the relay answers `none` when the call throws. -/
def proceedTransaction (r : Repositories) (tx : Transaction)
    (relay : SubmitTransactionRequest → Option TransactionHash) (clock : Clock) :
    Except Trap (Option Transaction × Repositories) := do
  let request ← submissionRequest lib tx
  match relay request with
  | none => return (none, r)
  | some hash =>
      let tx ← tx.setHash hash (clock 1)
      let tx ← tx.proceed (clock 2) (clock 3)
      return (some tx, r.save tx)

/-- Transactions that are signed by their own service before they are submitted. -/
def isSignedElsewhere (tx : Transaction) : Bool :=
  tx.type = .replaceBrowserExtension ∨ tx.type = .disconnectBrowserExtension

/-- A draft is submitted after a request to confirm it. -/
def requestConfirmationOfDraft (r : Repositories) (tx : Transaction) (sent : Bool) :
    Except Trap (Option Unit) :=
  if tx.status = .draft then requestTransactionConfirmationIfNeeded lib r tx.id sent
  else .ok (some ())

/-- The part of `submitTransaction(_: String)` that comes before the relay: the transaction
to hand over, or `none` when the call throws. -/
def prepareSubmission (r : Repositories) (id : TransactionID) (sent : Bool) (clock : Clock) :
    Except Trap (Option Transaction) := do
  let tx ← unwrap "find(id:)" (r.find id)
  match ← requestConfirmationOfDraft lib r tx sent with
  | none => return none
  | some () =>
      if isSignedElsewhere tx then return some tx
      else return some (← signTransaction lib metadata r tx clock)

/-- `transactionSentMessage(for:)`, of which only the unwrapping is kept. -/
def transactionSentMessage (tx : Transaction) : Except Trap Unit := do
  let sender ← unwrap "transaction.sender" tx.sender
  let _ ← unwrap "address(from: transaction.sender!.value)"
    (EncryptionService.address lib sender.value)
  let _ ← unwrap "address(from: transaction.ethTo.value)"
    (EncryptionService.address lib tx.ethTo.value)
  let _ ← unwrap "transaction.hash" tx.hash
  let _ ← unwrap "transaction.transactionHash" tx.transactionHash
  return ()

/-- `submitTransaction(_: String)`. -/
def submitTransaction (r : Repositories) (id : TransactionID) (sent : Bool)
    (relay : SubmitTransactionRequest → Option TransactionHash) (clock : Clock) :
    Except Trap (Option Unit × Repositories) := do
  match ← prepareSubmission lib metadata r id sent clock with
  | none => return (none, r)
  | some tx =>
      match ← proceedTransaction lib r tx relay clock with
      | (none, r) => return (none, r)
      | (some tx, r) =>
          if isSignedElsewhere tx then return (some (), r)
          transactionSentMessage lib tx
          let _ ← notifyBrowserExtension lib r sent
          return (some (), r)

/-! ### The machine of public calls -/

/-- A call of the service, with what the outside world contributes to it. -/
inductive Call
  | receive (userInfo : UserInfo) (nextID : TransactionID) (clock : Clock)
  | createNewDraftTransaction (nextID : TransactionID) (clock : Clock)
  | updateTransaction (id : TransactionID) (amount : Int) (token : TokenID) (recipient : Str)
      (clock : Clock)
  | estimateTransactionIfNeeded (id : TransactionID)
      (relay : EstimateTransactionRequest → Option EstimateTransactionResponse) (clock : Clock)
  | submitTransaction (id : TransactionID) (sent : Bool)
      (relay : SubmitTransactionRequest → Option TransactionHash) (clock : Clock)

/-- The repositories, and every transaction that was handed to the relay so far. -/
structure ServiceState where
  repositories : Repositories
  submitted : List Transaction

/-- One call of the service. -/
def step (s : ServiceState) : Call → Except Trap ServiceState
  | .receive userInfo nextID clock => do
      let (_, r) ← receive lib metadata s.repositories userInfo nextID clock
      return { s with repositories := r }
  | .createNewDraftTransaction nextID clock => do
      return { s with repositories := ← createNewDraftTransaction s.repositories nextID clock }
  | .updateTransaction id amount token recipient clock => do
      return { s with
        repositories := ← updateTransaction lib s.repositories id amount token recipient clock }
  | .estimateTransactionIfNeeded id relay clock => do
      let (_, r) ← estimateTransactionIfNeeded lib metadata s.repositories id relay clock
      return { s with repositories := r }
  | .submitTransaction id sent relay clock => do
      let handed ← prepareSubmission lib metadata s.repositories id sent clock
      let (_, r) ← submitTransaction lib metadata s.repositories id sent relay clock
      return ⟨r, s.submitted ++ handed.toList⟩

end WalletApplicationService

end MultisigWallet
