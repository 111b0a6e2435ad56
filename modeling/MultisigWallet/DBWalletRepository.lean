import MultisigWallet.Lib.Separated
import MultisigWallet.Message
import MultisigWallet.SetUp

/-!
# MultisigWallet.DBWalletRepository

How wallets are stored. The owners are written into one text column, address and role joined by
a colon and the owners by commas. Reading adds the owners it finds in the text to a new draft,
through `addOwner(_:)`, before the stored state is set.

The database returns what was bound: a column is the value itself, or `none` for `NULL`.
-/

namespace MultisigWallet

/-! ### Text formats -/

/-- `OwnerRole.rawValue`. -/
def OwnerRole.rawValue : OwnerRole → Str
  | thisDevice => "thisDevice".toList
  | browserExtension => "browserExtension".toList
  | paperWallet => "paperWallet".toList
  | paperWalletDerived => "paperWalletDerived".toList
  | unknown => "unknown".toList

/-- `OwnerRole.init?(rawValue:)`. -/
def OwnerRole.ofRawValue (value : Str) : Option OwnerRole :=
  [thisDevice, browserExtension, paperWallet, paperWalletDerived, unknown].find?
    (·.rawValue = value)

/-- `WalletState.State.rawValue`. -/
def WalletState.rawValue : WalletState → Int
  | draft => 0
  | deploying => 1
  | notEnoughFunds => 2
  | creationStarted => 3
  | finalizingDeployment => 4
  | readyToUse => 5
  | recoveryDraft => 6
  | recoveryInProgress => 7
  | recoveryPostProcessing => 8
  | waitingForFirstDeposit => 9

/-- `WalletState.State.init?(rawValue:)`. -/
def WalletState.ofRawValue (value : Int) : Option WalletState :=
  [draft, deploying, notEnoughFunds, creationStarted, finalizingDeployment, readyToUse,
    recoveryDraft, recoveryInProgress, recoveryPostProcessing, waitingForFirstDeposit].find?
    (·.rawValue = value)

namespace OwnerList

def separator : Str := [',']

def keyValueSeparator : Str := [':']

/-- One owner of `serializedValue`. -/
def serializedOwner (owner : Owner) : Str :=
  owner.address.value ++ keyValueSeparator ++ owner.role.rawValue

/-- `serializedValue`. -/
def serialized (owners : List Owner) : Str :=
  List.intercalate separator (owners.map serializedOwner)

/-- One owner of `init(serializedValue:)`; `none` is left out. -/
def deserializedOwner (lib : ThirdParty) (keyValue : Str) : Except Trap (Option Owner) :=
  match Separated.components keyValueSeparator keyValue with
  | [address, role] =>
      match OwnerRole.ofRawValue role with
      | none => .ok none
      | some role => do return some ⟨← Address.ofString lib address, role⟩
  | _ => .ok none

/-- `init(serializedValue:)`. -/
def ofSerialized (lib : ThirdParty) (serializedValue : Str) : Except Trap (List Owner) := do
  let owners ← (Separated.components separator serializedValue).mapM (deserializedOwner lib)
  return owners.reduceOption

end OwnerList

/-- `owners.forEach { addOwner($0) }`. -/
def Wallet.addOwners (w : Wallet) : List Owner → Except Trap Wallet
  | [] => .ok w
  | owner :: owners => do
      let w ← w.addOwner owner
      w.addOwners owners

namespace DBWalletRepository

/-- A row of `tbl_wallets`. -/
structure Row where
  id : Str
  state : Int
  owners : Str
  address : Option Str
  feePaymentTokenAddress : Option Str
  minimumDeploymentTransactionAmount : Option Str
  creationTransactionHash : Option Str
  confirmationCount : Int
  masterCopyAddress : Option Str
  contractVersion : Option Str
  deriving DecidableEq, Repr

/-- `insertionBindings(_:)`. -/
def insertionBindings (w : Wallet) : Row where
  id := w.id
  state := w.state.rawValue
  owners := OwnerList.serialized w.owners.storage
  address := w.address.map (·.value)
  feePaymentTokenAddress := w.feePaymentTokenAddress.map (·.value)
  minimumDeploymentTransactionAmount := w.minimumDeploymentTransactionAmount.map stringOfInt
  creationTransactionHash := w.creationTransactionHash
  confirmationCount := w.confirmationCount
  masterCopyAddress := w.masterCopyAddress.map (·.value)
  contractVersion := w.contractVersion

variable (lib : ThirdParty)

/-- `Address.init?(serializedValue:)`. -/
def address : Option Str → Except Trap (Option Address)
  | none => .ok none
  | some value => do return some (← Address.ofString lib value)

/-- `Wallet.init(id:state:owners:…)`, on the columns of a row. -/
def wallet (row : Row) (state : WalletState) : Except Trap Wallet := do
  let minimumDeploymentAmount := row.minimumDeploymentTransactionAmount.bind (lib.bigInt · 10)
  let owners ← OwnerList.ofSerialized lib row.owners
  let walletAddress ← address lib row.address
  let feePaymentTokenAddress ← address lib row.feePaymentTokenAddress
  let masterCopyAddress ← address lib row.masterCopyAddress
  let w ← ({ id := row.id, owners := ⟨[], OwnerList.roles_nodup_nil⟩ } : Wallet).addOwners owners
  return { w with
    state := state
    address := walletAddress
    feePaymentTokenAddress := feePaymentTokenAddress
    minimumDeploymentTransactionAmount := minimumDeploymentAmount
    creationTransactionHash := row.creationTransactionHash
    confirmationCount := row.confirmationCount
    masterCopyAddress := masterCopyAddress
    contractVersion := row.contractVersion }

/-- `objectFromResultSet(_:)`. -/
def objectFromResultSet (row : Row) : Except Trap (Option Wallet) :=
  match WalletState.ofRawValue row.state with
  | none => .ok none
  | some state => do return some (← wallet lib row state)

/-- `save(_:)`: `INSERT OR REPLACE`. -/
def save (table : List Row) (w : Wallet) : List Row :=
  table.filter (·.id ≠ w.id) ++ [insertionBindings w]

/-- `find(id:)`. -/
def find (table : List Row) (id : WalletID) : Except Trap (Option Wallet) :=
  match table.find? (·.id = id) with
  | none => .ok none
  | some row => objectFromResultSet lib row

end DBWalletRepository

/-! ### Calls -/

/-- The methods that change a wallet. The last four move it from state to state. -/
inductive WalletCall
  | addOwner (owner : Owner)
  | removeOwner (role : OwnerRole)
  | prepareForCreation
  | prepareForRecovery
  | changeConfirmationCount (newValue : Int)
  | changeAddress (address : Option Address)
  | changeFeePaymentToken (newValue : Address)
  | changeMasterCopy (newValue : Option Address)
  | changeContractVersion (newValue : Option Str)
  | updateMinimumTransactionAmount (newValue : Int)
  | assignCreationTransaction (hash : Option Str)
  | reset
  | resume (account : Option (Option Int))
  | proceed (account : Option (Option Int))
  | cancel

/-- One of them. -/
def WalletCall.step (w : Wallet) : WalletCall → Except Trap Wallet
  | .addOwner owner => w.addOwner owner
  | .removeOwner role => w.removeOwner role
  | .prepareForCreation => .ok w.prepareForCreation
  | .prepareForRecovery => .ok w.prepareForRecovery
  | .changeConfirmationCount newValue => .ok (w.changeConfirmationCount newValue)
  | .changeAddress address => w.changeAddress address
  | .changeFeePaymentToken newValue => .ok { w with feePaymentTokenAddress := some newValue }
  | .changeMasterCopy newValue => .ok { w with masterCopyAddress := newValue }
  | .changeContractVersion newValue => .ok { w with contractVersion := newValue }
  | .updateMinimumTransactionAmount newValue => w.updateMinimumTransactionAmount newValue
  | .assignCreationTransaction hash => w.assignCreationTransaction hash
  | .reset => .ok w.reset
  | .resume account => do return (← w.resume account).wallet
  | .proceed account => do return (← w.proceed account).wallet
  | .cancel => .ok w.cancel.wallet

end MultisigWallet
