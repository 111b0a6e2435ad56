import MultisigWallet.BrowserExtension
import MultisigWallet.Lib.Lease

/-!
# MultisigWallet.ExtensionPairing

`connect(transaction:code:)` with what it asks of the notification service, and the calls of
`estimate` and `connect` on one transaction in any order.

The phone keeps no list of the extensions it has paired. `connect` takes the extension to forget out
of the call data, where the one before has put it.
-/

namespace MultisigWallet

namespace OwnerModificationApplicationService

open ReplaceBrowserExtensionDomainService

/-! ### What is asked of the notification service -/

/-- A computation that asks the notification service. What has been asked stays when the app
stops. -/
abbrev Asking (α : Type) := ExceptT Trap (StateM (List (Lease.Event Str))) α

namespace Asking

/-- One request, behind the others. -/
def ask (event : Lease.Event Str) : Asking Unit :=
  ExceptT.mk fun log => (.ok (), log ++ [event])

/-- The result, and all requests. -/
def runFrom {α : Type} (x : Asking α) (log : List (Lease.Event Str)) :
    Except Trap α × List (Lease.Event Str) :=
  Id.run (x.run.run log)

variable (lib : ThirdParty)

/-- `deletePair(with:)`. Letter case does not count in an address. -/
def deletePair (r : Repositories) (address : Str) (deleted : Bool) :
    Asking (Except Thrown Unit) := do
  let result ← WalletApplicationService.deletePair r deleted
  ask (.release (lowercased address) deleted)
  return result

/-- `deleteOldPair`. -/
def deleteOldPair (r : Repositories) (oldPairAddress : Option Str) (deleted : Bool) :
    Asking (Except Thrown Unit) :=
  match oldPairAddress with
  | none => return .ok ()
  | some address => deletePair r address deleted

/-- `createPair(from:)`, of the extension at `address`. -/
def createPair (r : Repositories) (code : PairingCode) (address : Str) (paired : Bool) :
    Asking (Except Thrown Unit) := do
  match ← (WalletApplicationService.createPair lib r code paired : Except Trap _) with
  | .error e => return .error e
  | .ok () =>
      ask (.acquire (lowercased address))
      return .ok ()

/-- The end of `pairedAddress`, which is all of it that asks. -/
def renewPair (r : Repositories) (code : PairingCode) (newAddress : Str)
    (oldPairAddress : Option Str) (deleted paired : Bool) : Asking (Except Thrown Str) := do
  match ← deleteOldPair r oldPairAddress deleted with
  | .error e => return .error e
  | .ok () =>
      match ← createPair lib r code newAddress paired with
      | .error e => return .error e
      | .ok () => return .ok newAddress

/-- `pairedAddress`. -/
def pairedAddress (flow : Flow) (r : Repositories) (id : TransactionID) (code : PairingCode)
    (answer : Option Data) (deleted paired : Bool) : Asking (Except Thrown Str) := do
  let newAddress ← unwrap "address(browserExtensionCode: code)" code.extensionAddress
  match ← (validateNewOwnerAddress lib r newAddress answer : Except Trap _) with
  | .error e => return .error e
  | .ok () =>
      let oldPairAddress ← newOwnerAddress lib flow r id
      renewPair lib r code newAddress oldPairAddress deleted paired

/-- `connect(transaction:code:)`. -/
def connect (flow : Flow) (r : Repositories) (id : TransactionID) (code : PairingCode)
    (validation update : Option Data) (deleted paired : Bool) (clock : Clock) :
    Asking (Except Thrown Unit × Repositories) := do
  match ← pairedAddress lib flow r id code validation deleted paired with
  | .error e => return (.error e, r)
  | .ok newAddress =>
      return (.ok (), ← ReplaceBrowserExtensionDomainService.update lib flow r id newAddress
        update clock)

/-! ### Running -/

variable {lib} {log : List (Lease.Event Str)}

@[simp] theorem runFrom_pure {α : Type} (a : α) : (pure a : Asking α).runFrom log = (.ok a, log) :=
  rfl

@[simp] theorem runFrom_lift {α : Type} (x : Except Trap α) :
    (liftM x : Asking α).runFrom log = (x, log) := rfl

@[simp] theorem runFrom_ask (event : Lease.Event Str) :
    (ask event).runFrom log = (.ok (), log ++ [event]) := rfl

theorem runFrom_bind {α β : Type} (x : Asking α) (f : α → Asking β) :
    (x >>= f).runFrom log =
      match x.runFrom log with
      | (.ok a, log) => (f a).runFrom log
      | (.error e, log) => (.error e, log) := by
  simp only [runFrom, ExceptT.run_bind, StateT.run_bind, Id.run_bind]
  rcases Id.run (x.run.run log) with ⟨result, log'⟩
  cases result <;> rfl

/-- What is asked does not matter to the result. -/
theorem fst_runFrom_bind {α β : Type} (x : Asking α) (f : α → Asking β) :
    ((x >>= f).runFrom log).1 =
      ((x.runFrom log).1 >>= fun a => ((f a).runFrom (x.runFrom log).2).1) := by
  rw [runFrom_bind]
  cases x.runFrom log with
  | mk result log' => cases result <;> rfl

theorem fst_deletePair (r : Repositories) (address : Str) (deleted : Bool) :
    ((deletePair r address deleted).runFrom log).1 =
      WalletApplicationService.deletePair r deleted := by
  rw [deletePair, fst_runFrom_bind, runFrom_lift]
  cases WalletApplicationService.deletePair r deleted <;> rfl

theorem fst_deleteOldPair (r : Repositories) (oldPairAddress : Option Str) (deleted : Bool) :
    ((deleteOldPair r oldPairAddress deleted).runFrom log).1 =
      OwnerModificationApplicationService.deleteOldPair r oldPairAddress deleted := by
  cases oldPairAddress with
  | none => rfl
  | some address => exact fst_deletePair r address deleted

theorem fst_createPair (r : Repositories) (code : PairingCode) (address : Str) (paired : Bool) :
    ((createPair lib r code address paired).runFrom log).1 =
      WalletApplicationService.createPair lib r code paired := by
  rw [createPair, fst_runFrom_bind, runFrom_lift]
  cases WalletApplicationService.createPair lib r code paired with
  | error trap => rfl
  | ok result => cases result <;> rfl

theorem fst_pairedAddress (flow : Flow) (r : Repositories) (id : TransactionID)
    (code : PairingCode) (answer : Option Data) (deleted paired : Bool) :
    ((pairedAddress lib flow r id code answer deleted paired).runFrom log).1 =
      OwnerModificationApplicationService.pairedAddress lib flow r id code answer deleted
        paired := by
  rw [pairedAddress, fst_runFrom_bind, runFrom_lift]
  refine bind_congr fun newAddress => ?_
  rw [fst_runFrom_bind, runFrom_lift]
  refine bind_congr fun validated => ?_
  cases validated with
  | error e => rfl
  | ok _ =>
      rw [fst_runFrom_bind, runFrom_lift]
      refine bind_congr fun oldPairAddress => ?_
      rw [renewPair, fst_runFrom_bind, fst_deleteOldPair]
      refine bind_congr fun deletion => ?_
      cases deletion with
      | error e => rfl
      | ok _ =>
          rw [fst_runFrom_bind, fst_createPair]
          refine bind_congr fun creation => ?_
          cases creation <;> rfl

/-- Without what is asked, it is the call of the application service. -/
theorem fst_connect (flow : Flow) (r : Repositories) (id : TransactionID) (code : PairingCode)
    (validation update : Option Data) (deleted paired : Bool) (clock : Clock) :
    ((connect lib flow r id code validation update deleted paired clock).runFrom log).1 =
      OwnerModificationApplicationService.connect lib flow r id code validation update deleted
        paired clock := by
  rw [connect, fst_runFrom_bind, fst_pairedAddress]
  refine bind_congr fun paired => ?_
  cases paired with
  | error e => rfl
  | ok newAddress =>
      rw [fst_runFrom_bind, runFrom_lift]
      rfl

end Asking

end OwnerModificationApplicationService

/-! ### The calls on one transaction -/

namespace ExtensionPairing

open OwnerModificationApplicationService ReplaceBrowserExtensionDomainService

/-- A code that was scanned. What is read off it as an address is one. -/
abbrev ScannedCode :=
  {code : PairingCode // ∀ a, code.extensionAddress = some a → (⟨a⟩ : Address).WellFormed}

/-- A call on the transaction, with what the outside world contributes to it. -/
inductive Call
  | estimate (answer : Option Data) (relay : EstimationRelay) (accounts : Accounts) (clock : Clock)
  | connect (code : ScannedCode) (validation update : Option Data) (deleted paired : Bool)
      (clock : Clock)

/-- The repositories, and all that was asked of the notification service for the transaction. -/
structure State where
  repositories : Repositories
  log : List (Lease.Event Str)

variable (lib : ThirdParty) (flow : Flow) (id : TransactionID)

/-- What a call leaves, and all requests up to its end. -/
def request (s : State) : Call → Except Trap Repositories × List (Lease.Event Str)
  | .estimate answer relay accounts clock =>
      ((estimate lib flow s.repositories id answer relay accounts clock).map Prod.snd, s.log)
  | .connect code validation update deleted paired clock =>
      let ended := (Asking.connect lib flow s.repositories id code.1 validation update deleted paired
        clock).runFrom s.log
      (ended.1.map Prod.snd, ended.2)

def step (s : State) (call : Call) : Except Trap State :=
  (request lib flow id s call).1.map fun r => ⟨r, (request lib flow id s call).2⟩

/-- What `newOwnerAddress(from:)` reads off the transaction. -/
def recorded (r : Repositories) : Option Str := (newOwnerAddress lib flow r id).toOption.join

/-- `connect` gets past its validation. -/
def isValidated (r : Repositories) (code : PairingCode) (answer : Option Data) : Bool :=
  code.extensionAddress.any fun address =>
    (validateNewOwnerAddress lib r address answer).toOption.any fun result =>
      result.toOption.isSome

/-- The owners that are answered list the wallet's extension. -/
def listsExtension (r : Repositories) (answer : Option Data) : Bool :=
  (remoteOwnersList lib r answer).toOption.join.any fun list =>
    (WalletApplicationService.address r .browserExtension).any list.contains

/-- The guard. An estimation is made while no extension is paired; a connection past its validation
finds no new owner in the call data, or a paired one; and the owners that a replacement is written
with list the extension that is replaced. -/
def KeepsRecord (s : State) : Call → Prop
  | .estimate _ _ _ _ => Lease.held s.log = []
  | .connect code validation update deleted paired _ =>
      isValidated lib s.repositories code.1 validation = true →
        (∀ address ∈ recorded lib flow id s.repositories, lowercased address ∈ Lease.held s.log) ∧
        (flow ≠ .connect → code.1.decodes = true → paired = true →
          (recorded lib flow id s.repositories).isNone = true ∨ deleted = true →
          listsExtension lib s.repositories update = true)

instance KeepsRecord.decidable (s : State) (call : Call) :
    Decidable (KeepsRecord lib flow id s call) :=
  match call with
  | .estimate _ _ _ _ => inferInstanceAs (Decidable (_ = _))
  | .connect _ _ _ _ _ _ => inferInstanceAs (Decidable (_ → _ ∧ (_ → _ → _ → _ → _)))

/-- At most one extension is paired, and the call data names it. -/
structure RecordsHeld (s : State) : Prop where
  atMostOne : (Lease.held s.log).length ≤ 1
  readBack : ∀ key ∈ Lease.held s.log, ∃ address,
    newOwnerAddress lib flow s.repositories id = .ok (some address) ∧ lowercased address = key

end ExtensionPairing

end MultisigWallet
