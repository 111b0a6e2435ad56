import MultisigWallet.BrowserExtension
import MultisigWallet.Lib.Transition
import Mathlib.Data.List.Sort

/-!
# MultisigWallet.PostProcessing

What the three browser-extension services do once their transactions have been processed by
the blockchain. Submitted transactions are listed by a monitor; each service goes through the
whole list, oldest entry first, takes care of its own type, and stops at the first error.

Wallets are read from the database and written back whole, so what a service changes on a
wallet object is lost unless it saves the object.
-/

namespace MultisigWallet

/-! ### Repositories -/

/-- `walletRepository.save(_:)`. -/
def Repositories.saveWallet (r : Repositories) (wallet : Wallet) : Repositories :=
  { r with wallets := r.wallets.filter (·.id ≠ wallet.id) ++ [wallet] }

/-- `RBETransactionMonitorEntry`. -/
structure RBETransactionMonitorEntry where
  transactionID : TransactionID
  createdDate : Date
  deriving DecidableEq, Repr

/-- What post-processing works on. -/
structure Monitored where
  repositories : Repositories
  /-- `transactionMonitorRepository`. -/
  entries : List RBETransactionMonitorEntry
  deriving DecidableEq

/-- `CommunicationDomainService.deletePair(walletID:other:)`; `deleted` is the notification
service's answer for the address of a device. -/
def CommunicationDomainService.deletePair (r : Repositories) (walletID : WalletID) (address : Str)
    (deleted : Str → Bool) : Except Trap (Except Thrown Unit) := do
  let wallet ← unwrap "walletRepository.find(id: walletID)" (findWallet r.wallets walletID)
  let device ← unwrap "wallet.owner(role: .thisDevice)" (wallet.owner .thisDevice)
  let _ ← unwrap "externallyOwnedAccountRepository.find(by: deviceOwnerAddress)"
    (r.privateKey device.address)
  return if deleted address then .ok () else .error .network

namespace ReplaceBrowserExtensionDomainService

variable (lib : ThirdParty)

/-! ### The monitor -/

/-- `registerPostProcessing(for:timestamp:)`. -/
def registerPostProcessing (s : Monitored) (id : TransactionID) (timestamp : Date) : Monitored :=
  { s with entries := s.entries.filter (·.transactionID ≠ id) ++ [⟨id, timestamp⟩] }

/-- `unregisterPostProcessing(for:)`. -/
def unregisterPostProcessing (s : Monitored) (id : TransactionID) : Monitored :=
  { s with entries := s.entries.filter (·.transactionID ≠ id) }

/-! ### The owner of a wallet -/

/-- `removeOldOwner(from:)`: the pair is deleted first, which may throw. -/
def removeOldOwner (r : Repositories) (wallet : Wallet) (deleted : Str → Bool) :
    Except Trap (Except Thrown Wallet) :=
  match wallet.owner .browserExtension with
  | none => .ok (.ok wallet)
  | some oldOwner => do
      match ← CommunicationDomainService.deletePair r wallet.id oldOwner.address.value deleted with
      | .error e => return .error e
      | .ok () => return .ok (← wallet.removeOwner oldOwner.role)

/-- `encryptionService.address(from: newOwner) ?? Address(newOwner)`. -/
def formattedAddress (newOwner : Str) : Except Trap Address :=
  match EncryptionService.address lib newOwner with
  | some address => .ok address
  | none => Address.ofString lib newOwner

/-- `add(newOwner:to:)`: the wallet is saved. -/
def add (s : Monitored) (newOwner : Str) (wallet : Wallet) : Except Trap (Wallet × Monitored) := do
  let address ← formattedAddress lib newOwner
  let wallet ← wallet.addOwner ⟨address, .browserExtension⟩
  return (wallet, { s with repositories := s.repositories.saveWallet wallet })

/-- `processSuccess(with:in:)`. The replacing service leaves the confirmation count alone; the
disconnecting one inherits this, and does not use it. -/
def processSuccess (flow : Flow) (s : Monitored) (newOwner : Str) (wallet : Wallet)
    (deleted : Str → Bool) : Except Trap (Except Thrown Unit × Monitored) :=
  match flow with
  | .connect => do
      let (wallet, s) ← add lib s newOwner wallet
      let wallet := wallet.changeConfirmationCount 2
      return (.ok (), { s with repositories := s.repositories.saveWallet wallet })
  | _ => do
      match ← removeOldOwner s.repositories wallet deleted with
      | .error e => return (.error e, s)
      | .ok wallet => do
          let (_, s) ← add lib s newOwner wallet
          return (.ok (), s)

/-! ### Transactions -/

/-- `postProcess(transactionID:)` of the replacing and the connecting service, past its first
guard. `notifyWalletCreated(walletID:)` changes nothing, and its errors are dropped. -/
def postProcessNewOwner (flow : Flow) (s : Monitored) (tx : Transaction) (wallet : Wallet)
    (deleted : Str → Bool) : Except Trap (Except Thrown Unit × Monitored) := do
  match ← newOwnerAddress lib flow s.repositories tx.id with
  | none => return (.ok (), unregisterPostProcessing s tx.id)
  | some newOwner =>
      if tx.status = .success then do
        match ← processSuccess lib flow s newOwner wallet deleted with
        | (.error e, s) => return (.error e, s)
        | (.ok (), s) => return (.ok (), unregisterPostProcessing s tx.id)
      else do
        match ← CommunicationDomainService.deletePair s.repositories tx.walletID newOwner deleted with
        | .error e => return (.error e, s)
        | .ok () => return (.ok (), unregisterPostProcessing s tx.id)

/-- `postProcess(transactionID:)` of the disconnecting service, past its guard. -/
def postProcessRemoval (s : Monitored) (tx : Transaction) (wallet : Wallet)
    (deleted : Str → Bool) : Except Trap (Except Thrown Unit × Monitored) :=
  if tx.status = .success then do
    match ← removeOldOwner s.repositories wallet deleted with
    | .error e => return (.error e, s)
    | .ok wallet =>
        let wallet := wallet.changeConfirmationCount 1
        let s := { s with repositories := s.repositories.saveWallet wallet }
        return (.ok (), unregisterPostProcessing s tx.id)
  else return (.ok (), unregisterPostProcessing s tx.id)

/-- `postProcess(transactionID:)`. -/
def postProcess (flow : Flow) (s : Monitored) (id : TransactionID) (deleted : Str → Bool) :
    Except Trap (Except Thrown Unit × Monitored) :=
  match s.repositories.find id with
  | none => .ok (.ok (), s)
  | some tx =>
      if tx.type = transactionType flow ∧ (tx.status = .success ∨ tx.status = .failed) then
        match findWallet s.repositories.wallets tx.walletID with
        | none => .ok (.ok (), s)
        | some wallet =>
            match flow with
            | .disconnect => postProcessRemoval s tx wallet deleted
            | _ => postProcessNewOwner lib flow s tx wallet deleted
      else .ok (.ok (), s)

/-- The loop of `postProcessTransactions()`. -/
def postProcessEntries (flow : Flow) (deleted : TransactionID → Str → Bool) :
    List RBETransactionMonitorEntry → Monitored → Except Trap (Except Thrown Unit × Monitored)
  | [], s => .ok (.ok (), s)
  | entry :: entries, s => do
      match ← postProcess lib flow s entry.transactionID (deleted entry.transactionID) with
      | (.error e, s) => return (.error e, s)
      | (.ok (), s) => postProcessEntries flow deleted entries s

/-- `postProcessTransactions()`. -/
def postProcessTransactions (flow : Flow) (s : Monitored)
    (deleted : TransactionID → Str → Bool) : Except Trap (Except Thrown Unit × Monitored) :=
  let allEntries := s.entries.insertionSort fun a b => a.createdDate ≤ b.createdDate
  postProcessEntries lib flow deleted allEntries s

/-! ### Steps -/

/-- What happens next: a service visits a transaction, or another part of the app stores one
or has one monitored. -/
inductive Visit
  | postProcess (flow : Flow) (id : TransactionID) (deleted : Str → Bool)
  | save (tx : Transaction)
  | register (id : TransactionID) (timestamp : Date)

/-- One of them. A call that throws leaves what it has changed so far. -/
def visit (s : Monitored) : Visit → Except Trap Monitored
  | .postProcess flow id deleted => do
      let (_, s) ← postProcess lib flow s id deleted
      return s
  | .save tx => .ok { s with repositories := s.repositories.save tx }
  | .register id timestamp => .ok (registerPostProcessing s id timestamp)

end ReplaceBrowserExtensionDomainService

namespace SynchronisationService

/-- The services of `flows` one after the other, up to an error. -/
def postProcessFlows (lib : ThirdParty) (deleted : Flow → TransactionID → Str → Bool) :
    List Flow → Monitored → Except Trap Monitored
  | [], s => .ok s
  | flow :: flows, s => do
      match ← ReplaceBrowserExtensionDomainService.postProcessTransactions lib flow s
        (deleted flow) with
      | (.error _, s) => return s
      | (.ok (), s) => postProcessFlows lib deleted flows s

/-- `postProcessTransactions()`. It stops when the file system gets out of reach, which is after
`accessible` of the services. -/
def postProcessTransactions (lib : ThirdParty) (s : Monitored) (accessible : Nat)
    (deleted : Flow → TransactionID → Str → Bool) : Except Trap Monitored :=
  postProcessFlows lib deleted ([.replace, .connect, .disconnect].take accessible) s

end SynchronisationService

end MultisigWallet
