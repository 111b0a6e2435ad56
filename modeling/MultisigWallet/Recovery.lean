import MultisigWallet.Encryption
import MultisigWallet.OwnerLinkedList

/-!
# MultisigWallet.Recovery

`RecoveryTransactionBuilder`: the transaction that hands a wallet over to this device.

The builder reads the contract's owners and threshold, compares the scheme on chain with
the scheme of the local wallet, and walks the owners that are neither of the two recovery
owners (the *modifiable* ones) in contract order: the first is swapped for this device,
the second is swapped for the browser extension, removed, or, if there is none, the
extension is added. The previous-owner arguments are taken from an `OwnerLinkedList`.
-/

namespace MultisigWallet

/-! ### `WalletScheme` -/

structure WalletScheme where
  confirmations : Int
  owners : Nat
  deriving DecidableEq, Repr

namespace WalletScheme

def withoutExtension : WalletScheme := ⟨1, 3⟩

def withExtension : WalletScheme := ⟨2, 4⟩

end WalletScheme

/-! ### The builder -/

/-- `RecoveryTransactionBuilder`, once the data is pulled. -/
structure RecoveryTransactionBuilder where
  wallet : Wallet
  oldScheme : WalletScheme
  newScheme : WalletScheme
  ownerList : OwnerLinkedList
  modifiableOwners : List Owner
  multiSendContractAddress : Address
  transaction : Transaction

namespace RecoveryTransactionBuilder

/-- `isOwner`s of role `unknown`: what the contract listed. -/
def unknownOwners (w : Wallet) : List Owner := w.owners.storage.filter (·.role = .unknown)

/-- `oldWalletScheme()`. -/
def oldWalletScheme (w : Wallet) : WalletScheme := ⟨w.confirmationCount, (unknownOwners w).length⟩

/-- `newWalletScheme()`. -/
def newWalletScheme (w : Wallet) : WalletScheme :=
  ⟨if w.owner .browserExtension = none then 1 else 2,
   (w.owners.storage.filter (·.role ≠ .unknown)).length⟩

/-- `readonlyAddresses()`. -/
def readonlyAddresses (w : Wallet) : List Str :=
  (w.owners.storage.filter fun o => o.role = .paperWallet ∨ o.role = .paperWalletDerived).map
    fun o => lowercased o.address.value

/-- `mutableOwners()`. -/
def mutableOwners (w : Wallet) : List Owner :=
  w.owners.storage.filter fun o =>
    o.role = .unknown ∧ lowercased o.address.value ∉ readonlyAddresses w

/-- The owners the contract lists, added to the wallet as unknown ones. -/
def addUnknownOwners (w : Wallet) : List Address → Except Trap Wallet
  | [] => .ok w
  | a :: as => do
      let w ← w.addOwner ⟨a, .unknown⟩
      addUnknownOwners w as

/-- `init(multiSendContractAddress:)` and `pullData()`, on the selected wallet and on the
data the contract answers `getOwners()` and `getThreshold()` with. A query that fails
leaves the builder's fields unset, and the next read of one of them traps. -/
def pullData (lib : ThirdParty) (wallet : Wallet) (multiSendContractAddress : Address)
    (transactionID : TransactionID) (answers : Option (Data × Data)) (now : Date) :
    Except Trap RecoveryTransactionBuilder := do
  let address ← unwrap "wallet.address" wallet.address
  let accountID : AccountID := ⟨Token.Ether.id, wallet.id⟩
  let transaction := Transaction.new transactionID .walletRecovery wallet.id accountID now now
  let transaction ← transaction.change (.sender (some address)) now
  let transaction ← transaction.change (.amount (some (.ether 0))) now
  let wallet ← wallet.removeOwner .unknown
  match answers with
  | none => .error (.unwrappedNil "modifiableOwners")
  | some (owners, threshold) => do
      let remoteOwners ← SafeOwnerManagerContractProxy.getOwners lib owners
      let wallet ← addUnknownOwners wallet remoteOwners
      let remoteThreshold ← SafeOwnerManagerContractProxy.getThreshold threshold
      let wallet := wallet.changeConfirmationCount remoteThreshold
      let ownerList ← ({} : OwnerLinkedList).addAll ((unknownOwners wallet).map (·.address))
      return {
        wallet := wallet
        oldScheme := oldWalletScheme wallet
        newScheme := newWalletScheme wallet
        ownerList := ownerList
        modifiableOwners := mutableOwners wallet
        multiSendContractAddress := multiSendContractAddress
        transaction := transaction }

/-- `isSupportedSafeOwners()`. -/
def isSupportedSafeOwners (b : RecoveryTransactionBuilder) : Bool :=
  [1, 2].contains b.modifiableOwners.length

/-- `isSupportedScheme()`. -/
def isSupportedScheme (b : RecoveryTransactionBuilder) : Bool :=
  let supportedSchemes : List WalletScheme := [.withoutExtension, .withExtension]
  supportedSchemes.contains b.oldScheme && supportedSchemes.contains b.newScheme

/-! ### The calls -/

/-- `swapOwnerData(role:)`: the next modifiable owner is swapped for the owner with `role`,
unless it is that owner already. -/
def swapOwnerData (lib : ThirdParty) (b : RecoveryTransactionBuilder) (role : OwnerRole) :
    Except Trap (Data × RecoveryTransactionBuilder) :=
  match b.modifiableOwners with
  | [] => .error .removeFirst
  | ownerToReplace :: modifiableOwners => do
      let b := { b with modifiableOwners := modifiableOwners }
      let addressBefore ← b.ownerList.addressBefore ownerToReplace.address
      let newOwner ← unwrap "wallet.owner(role: role)" (b.wallet.owner role)
      if newOwner.address.normalized ≠ ownerToReplace.address.normalized then
        let data := SafeOwnerManagerContractProxy.swapOwner lib addressBefore ownerToReplace.address
          newOwner.address
        return (data, { b with
          ownerList := b.ownerList.replace ownerToReplace.address newOwner.address })
      else return ([], b)

/-- `addOwnerData(role:)`. -/
def addOwnerData (lib : ThirdParty) (b : RecoveryTransactionBuilder) (role : OwnerRole) :
    Except Trap (Data × RecoveryTransactionBuilder) := do
  let newOwner ← unwrap "wallet.owner(role: role)" (b.wallet.owner role)
  if b.ownerList.contains newOwner.address then return ([], b)
  else
    let data := SafeOwnerManagerContractProxy.addOwner lib newOwner.address
      b.newScheme.confirmations.toNat
    let ownerList ← b.ownerList.add newOwner.address
    return (data, { b with
      ownerList := ownerList
      wallet := b.wallet.changeConfirmationCount b.newScheme.confirmations })

/-- `removeOwnerData()`. -/
def removeOwnerData (lib : ThirdParty) (b : RecoveryTransactionBuilder) :
    Except Trap (Data × RecoveryTransactionBuilder) :=
  match b.modifiableOwners with
  | [] => .error .removeFirst
  | ownerToRemove :: modifiableOwners => do
      let b := { b with modifiableOwners := modifiableOwners }
      let addressBefore ← b.ownerList.addressBefore ownerToRemove.address
      let data := SafeOwnerManagerContractProxy.removeOwner lib addressBefore ownerToRemove.address
        b.newScheme.confirmations.toNat
      return (data, { b with
        ownerList := b.ownerList.remove ownerToRemove.address
        wallet := b.wallet.changeConfirmationCount b.newScheme.confirmations })

/-- `multiSendData(_:)`. -/
def multiSendData (lib : ThirdParty) (address : Address) (transactionData : List Data) : Data :=
  MultiSendContractProxy.multiSend lib ((transactionData.filter (· ≠ [])).map fun data =>
    { operation := .call, toAddress := address, value := 0, data := data })

/-- `buildTransactionData(_:)`: nothing, one call of the wallet contract, or several through
the multi-send contract. -/
def buildTransactionData (lib : ThirdParty) (b : RecoveryTransactionBuilder) (data : List Data)
    (now : Date) : Except Trap RecoveryTransactionBuilder := do
  let address ← unwrap "wallet.address" b.wallet.address
  match data.filter (· ≠ []) with
  | [] => do
      let tx ← b.transaction.change (.recipient (some address)) now
      let tx ← tx.change (.operation (some .call)) now
      let tx ← tx.change (.data none) now
      return { b with transaction := tx }
  | [call] => do
      let tx ← b.transaction.change (.recipient (some address)) now
      let tx ← tx.change (.operation (some .call)) now
      let tx ← tx.change (.data (some call)) now
      return { b with transaction := tx }
  | input => do
      let multiSend ← unwrap "encryptionService.address(from: multiSendContractProxy.contract.value)"
        (EncryptionService.address lib b.multiSendContractAddress.value)
      let tx ← b.transaction.change (.recipient (some multiSend)) now
      let tx ← tx.change (.data (some (multiSendData lib address input))) now
      let tx ← tx.change (.operation (some .delegateCall)) now
      return { b with transaction := tx }

/-- The calls for a pair of schemes, in order. -/
def callsData (lib : ThirdParty) (b : RecoveryTransactionBuilder) :
    Except Trap (List Data × RecoveryTransactionBuilder) :=
  if b.oldScheme = .withoutExtension ∧ b.newScheme = .withoutExtension then do
    let (swap, b) ← b.swapOwnerData lib .thisDevice
    return ([swap], b)
  else if b.oldScheme = .withoutExtension ∧ b.newScheme = .withExtension then do
    let (swap, b) ← b.swapOwnerData lib .thisDevice
    let (add, b) ← b.addOwnerData lib .browserExtension
    return ([swap, add], b)
  else if b.oldScheme = .withExtension ∧ b.newScheme = .withoutExtension then do
    let (swap, b) ← b.swapOwnerData lib .thisDevice
    let (remove, b) ← b.removeOwnerData lib
    return ([swap, remove], b)
  else if b.oldScheme = .withExtension ∧ b.newScheme = .withExtension then do
    let (swap, b) ← b.swapOwnerData lib .thisDevice
    let (swapExtension, b) ← b.swapOwnerData lib .browserExtension
    return ([swap, swapExtension], b)
  else .error (.preconditionFailure "Unreachable")

/-- `buildData()`. -/
def buildData (lib : ThirdParty) (b : RecoveryTransactionBuilder) (now : Date) :
    Except Trap RecoveryTransactionBuilder := do
  let (data, b) ← b.callsData lib
  b.buildTransactionData lib data now

end RecoveryTransactionBuilder

end MultisigWallet
