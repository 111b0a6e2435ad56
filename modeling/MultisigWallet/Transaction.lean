import MultisigWallet.Base
import MultisigWallet.Lib.Transition

/-!
# MultisigWallet.Transaction

The `Transaction` entity and its status machine.

The source keeps the status as one of seven objects, subclasses of a base class
whose guards (`canChangeParameters`, …) are `false` and whose transitions are
`preconditionFailure`s. An object is determined by its code, so the model stores
the code and gives each guard and each transition as a function of it: the arms
below are the overrides, the last arm is the base class.

Every call of `Date()` is an argument. A mutator that reads the clock twice takes
two dates, in the order in which it reads them.
-/

namespace MultisigWallet

/-- `TransactionType`. -/
inductive TransactionType
  | transfer
  | walletRecovery
  | replaceRecoveryPhrase
  | replaceBrowserExtension
  | connectBrowserExtension
  | disconnectBrowserExtension
  deriving DecidableEq, Repr

/-- `WalletOperation`. -/
inductive WalletOperation
  | call
  | delegateCall
  | create
  deriving DecidableEq, Repr

/-- `WalletOperation.rawValue`. -/
def WalletOperation.rawValue : WalletOperation → Int
  | call => 0
  | delegateCall => 1
  | create => 2

/-- `WalletOperation(rawValue:)`. -/
def WalletOperation.ofRawValue (n : Int) : Option WalletOperation :=
  if n = 0 then some .call
  else if n = 1 then some .delegateCall
  else if n = 2 then some .create
  else none

/-- An owner's signature of a transaction. -/
structure Signature where
  address : Address
  data : Data
  deriving DecidableEq, Repr

/-- A blockchain transaction hash. -/
structure TransactionHash where
  value : Str
  deriving DecidableEq, Repr

/-- `TransactionFeeEstimate`. -/
structure TransactionFeeEstimate where
  gas : Int
  dataGas : Int
  operationalGas : Int
  gasPrice : TokenAmount
  deriving DecidableEq, Repr

namespace TransactionFeeEstimate

/-- What the user is shown: operational gas included. -/
def totalDisplayedToUser (e : TransactionFeeEstimate) : TokenAmount :=
  ⟨e.gasPrice.amount * (e.gas + e.dataGas + e.operationalGas), e.gasPrice.token⟩

/-- What is submitted: operational gas left out. -/
def totalSubmittedToBlockchain (e : TransactionFeeEstimate) : TokenAmount :=
  ⟨e.gasPrice.amount * (e.gas + e.dataGas), e.gasPrice.token⟩

end TransactionFeeEstimate

/-- The `Transaction` entity. `status` is the code of the private status object. -/
structure Transaction where
  id : TransactionID
  type : TransactionType
  walletID : WalletID
  accountID : AccountID
  status : TransactionStatus := .draft
  sender : Option Address := none
  recipient : Option Address := none
  amount : Option TokenAmount := none
  fee : Option TokenAmount := none
  signatures : List Signature := []
  createdDate : Option Date := none
  updatedDate : Option Date := none
  rejectedDate : Option Date := none
  submittedDate : Option Date := none
  processedDate : Option Date := none
  transactionHash : Option TransactionHash := none
  hash : Option Data := none
  feeEstimate : Option TransactionFeeEstimate := none
  data : Option Data := none
  operation : Option WalletOperation := none
  nonce : Option Str := none
  deriving DecidableEq, Repr

namespace TransactionStatus

/-! ### Guards of the status objects -/

/-- `canChangeParameters`. -/
def canChangeParameters : TransactionStatus → Bool
  | draft => true
  | _ => false

/-- `canChangeBlockchainHash`. -/
def canChangeBlockchainHash : TransactionStatus → Bool
  | draft => true
  | signing => true
  | _ => false

/-- `canChangeSignatures`. -/
def canChangeSignatures : TransactionStatus → Bool
  | draft => true
  | signing => true
  | _ => false

/-- The base class's answer to a transition a status does not override. -/
def illegalTransition (verb : String) (status : TransactionStatus) : Except Trap Transaction :=
  .error (.preconditionFailure
    ("Illegal state transition: " ++ verb ++ " transaction from " ++ status.description))

end TransactionStatus

namespace Transaction

/-! ### Timestamps -/

/-- `timestampCreated(at:)`. -/
def timestampCreated (tx : Transaction) (date : Date) : Transaction :=
  { tx with createdDate := some date }

/-- `timestampUpdated(at:)`. -/
def timestampUpdated (tx : Transaction) (date : Date) : Transaction :=
  { tx with updatedDate := some date }

/-- `timestampRejected(at:)`. -/
def timestampRejected (tx : Transaction) (date : Date) : Transaction :=
  { tx with rejectedDate := some date }

/-- `timestampSubmitted(at:)`. -/
def timestampSubmitted (tx : Transaction) (date : Date) : Transaction :=
  { tx with submittedDate := some date }

/-- `timestampProcessed(at:)`. -/
def timestampProcessed (tx : Transaction) (date : Date) : Transaction :=
  { tx with processedDate := some date }

/-- `init(id:type:walletID:accountID:)`. -/
def new (id : TransactionID) (type : TransactionType) (walletID : WalletID)
    (accountID : AccountID) (created updated : Date) : Transaction :=
  (({ id := id, type := type, walletID := walletID, accountID := accountID } :
    Transaction).timestampCreated created).timestampUpdated updated

/-! ### Editing a draft -/

/-- The argument of one of the nine `change(...)` overloads. -/
inductive Edit
  | amount (amount : Option TokenAmount)
  | sender (sender : Option Address)
  | recipient (recipient : Option Address)
  | fee (fee : Option TokenAmount)
  | feeEstimate (feeEstimate : Option TransactionFeeEstimate)
  | data (data : Option Data)
  | operation (operation : Option WalletOperation)
  | nonce (nonce : Option Str)
  | hash (hash : Option Data)
  deriving DecidableEq, Repr

/-- The assignment an overload of `change(...)` makes. -/
def assign (tx : Transaction) : Edit → Transaction
  | .amount v => { tx with amount := v }
  | .sender v => { tx with sender := v }
  | .recipient v => { tx with recipient := v }
  | .fee v => { tx with fee := v }
  | .feeEstimate v => { tx with feeEstimate := v }
  | .data v => { tx with data := v }
  | .operation v => { tx with operation := v }
  | .nonce v => { tx with nonce := v }
  | .hash v => { tx with hash := v }

/-- `assertCanChangeParameters()`. -/
def assertCanChangeParameters (tx : Transaction) : Except Trap Unit :=
  if tx.status.canChangeParameters then .ok ()
  else .error (.transaction (.invalidStatusForEditing tx.status))

/-- `change(...)`: all nine overloads assert, assign and timestamp. -/
def change (tx : Transaction) (edit : Edit) (now : Date) : Except Trap Transaction := do
  tx.assertCanChangeParameters
  return (tx.assign edit).timestampUpdated now

/-- `set(hash:)`. -/
def setHash (tx : Transaction) (hash : TransactionHash) (now : Date) : Except Trap Transaction :=
  if tx.status.canChangeBlockchainHash then
    .ok ({ tx with transactionHash := some hash }.timestampUpdated now)
  else .error (.transaction (.invalidStatusForSetHash tx.status))

/-! ### Signatures -/

/-- `assertSignaturesEditable()`. -/
def assertSignaturesEditable (tx : Transaction) : Except Trap Unit :=
  if tx.status.canChangeSignatures then .ok ()
  else .error (.transaction (.invalidStatusForSigning tx.status))

/-- `add(signature:)`. The test for a duplicate compares address and bytes. -/
def addSignature (tx : Transaction) (signature : Signature) (now : Date) :
    Except Trap Transaction := do
  tx.assertSignaturesEditable
  if signature ∈ tx.signatures then return tx
  return { tx with signatures := tx.signatures ++ [signature] }.timestampUpdated now

/-- `remove(signature:)`. -/
def removeSignature (tx : Transaction) (signature : Signature) (now : Date) :
    Except Trap Transaction := do
  tx.assertSignaturesEditable
  if signature ∈ tx.signatures then
    return { tx with signatures := tx.signatures.erase signature }.timestampUpdated now
  return tx

/-- `isSignedBy(_:)`. -/
def isSignedBy (tx : Transaction) (address : Address) : Bool :=
  tx.signatures.any (fun s => s.address = address)

/-! ### Changing the status -/

/-- `change(status:)`. -/
def changeStatus (tx : Transaction) (status : TransactionStatus) : Transaction :=
  { tx with status := status }

/-- `resetParameters()`. -/
def resetParameters (tx : Transaction) : Transaction :=
  { tx with
    transactionHash := none
    createdDate := none
    updatedDate := none
    rejectedDate := none
    submittedDate := none
    processedDate := none
    signatures := [] }

/-- `try! assertNotNil(value, error)`. -/
def assertNotNil {α : Type} (value : Option α) (error : TransactionError) : Except Trap Unit :=
  if value.isSome then .ok () else .error (.transaction error)

/-- `discard()`. -/
def discard (tx : Transaction) (now : Date) : Except Trap Transaction :=
  match tx.status with
  | .discarded => tx.status.illegalTransition "discard"
  | _ => .ok ((tx.timestampUpdated now).changeStatus .discarded)

/-- `reset()`. -/
def reset (tx : Transaction) : Except Trap Transaction :=
  match tx.status with
  | .rejected => .ok (tx.resetParameters.changeStatus .draft)
  | .discarded => .ok (tx.resetParameters.changeStatus .draft)
  | status => status.illegalTransition "reset"

/-- `reject()`. -/
def reject (tx : Transaction) (d₁ d₂ : Date) : Except Trap Transaction :=
  match tx.status with
  | .signing => .ok (((tx.changeStatus .rejected).timestampRejected d₁).timestampUpdated d₂)
  | status => status.illegalTransition "reject"

/-- `succeed()`. -/
def succeed (tx : Transaction) (d₁ d₂ : Date) : Except Trap Transaction :=
  match tx.status with
  | .pending => .ok (((tx.changeStatus .success).timestampProcessed d₁).timestampUpdated d₂)
  | status => status.illegalTransition "succeed"

/-- `fail()`. -/
def fail (tx : Transaction) (d₁ d₂ : Date) : Except Trap Transaction :=
  match tx.status with
  | .pending => .ok (((tx.changeStatus .failed).timestampProcessed d₁).timestampUpdated d₂)
  | status => status.illegalTransition "fail"

/-- `proceed()`. A draft checks the four parameters a signature covers and reads the
clock once (`d₁`); a signing transaction checks the blockchain hash and reads it
twice. -/
def proceed (tx : Transaction) (d₁ d₂ : Date) : Except Trap Transaction :=
  match tx.status with
  | .draft => do
      assertNotNil tx.sender .senderNotSet
      assertNotNil tx.recipient .recipientNotSet
      assertNotNil tx.amount .amountNotSet
      assertNotNil tx.fee .feeNotSet
      return (tx.changeStatus .signing).timestampUpdated d₁
  | .signing => do
      assertNotNil tx.transactionHash .transactionHashNotSet
      return ((tx.changeStatus .pending).timestampSubmitted d₁).timestampUpdated d₂
  | status => status.illegalTransition "proceed"

/-- `stepBack()`. -/
def stepBack (tx : Transaction) : Except Trap Transaction :=
  match tx.status with
  | .signing => .ok (tx.changeStatus .draft)
  | .pending => .ok (tx.changeStatus .signing)
  | status => status.illegalTransition "step back"

/-! ### What a transaction sends to the chain -/

/-- `isERC20Transfer`. -/
def isERC20Transfer (tx : Transaction) : Bool :=
  match tx.amount with
  | some amount => decide (amount.token.id ≠ Token.Ether.id)
  | none => false

/-- `ethTo`. -/
def ethTo (tx : Transaction) : Address :=
  (if tx.isERC20Transfer then tx.amount.map (·.token.address) else tx.recipient).getD Address.zero

/-- `ethValue`. -/
def ethValue (tx : Transaction) : Int :=
  (if tx.isERC20Transfer then some 0 else tx.amount.map (·.amount)).getD 0

/-! ### The machine of public operations -/

/-- A call of one of the public mutators, with the dates it reads. -/
inductive Op
  | change (edit : Edit) (now : Date)
  | setHash (hash : TransactionHash) (now : Date)
  | addSignature (signature : Signature) (now : Date)
  | removeSignature (signature : Signature) (now : Date)
  | timestampCreated (date : Date)
  | timestampUpdated (date : Date)
  | timestampRejected (date : Date)
  | timestampSubmitted (date : Date)
  | timestampProcessed (date : Date)
  | proceed (d₁ d₂ : Date)
  | stepBack
  | reject (d₁ d₂ : Date)
  | succeed (d₁ d₂ : Date)
  | fail (d₁ d₂ : Date)
  | discard (now : Date)
  | reset
  deriving DecidableEq, Repr

/-- One public call. -/
def step (tx : Transaction) : Op → Except Trap Transaction
  | .change edit now => tx.change edit now
  | .setHash hash now => tx.setHash hash now
  | .addSignature signature now => tx.addSignature signature now
  | .removeSignature signature now => tx.removeSignature signature now
  | .timestampCreated date => .ok (tx.timestampCreated date)
  | .timestampUpdated date => .ok (tx.timestampUpdated date)
  | .timestampRejected date => .ok (tx.timestampRejected date)
  | .timestampSubmitted date => .ok (tx.timestampSubmitted date)
  | .timestampProcessed date => .ok (tx.timestampProcessed date)
  | .proceed d₁ d₂ => tx.proceed d₁ d₂
  | .stepBack => tx.stepBack
  | .reject d₁ d₂ => tx.reject d₁ d₂
  | .succeed d₁ d₂ => tx.succeed d₁ d₂
  | .fail d₁ d₂ => tx.fail d₁ d₂
  | .discard now => tx.discard now
  | .reset => tx.reset

end Transaction

end MultisigWallet
