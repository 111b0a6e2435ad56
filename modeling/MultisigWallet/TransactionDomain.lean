import MultisigWallet.WalletApplication

/-!
# MultisigWallet.TransactionDomain

Looking up the pending transactions at the node. Statuses are saved one by one while the loop
goes on; that something has changed is announced once, after the loop. An error of the node
leaves the loop by throwing.

An event is announced by counting it: who subscribes, and what they do, is not part of this
module.
-/

namespace MultisigWallet

/-- What the node answers about one transaction. The outer `none` is an error, the inner one an
answer of `nil`. -/
structure NodeAnswer where
  /-- `eth_getTransactionReceipt(transaction:)`, of which the status is read. -/
  receipt : Option (Option TransactionStatus)
  /-- `eth_getBlockByHash(hash:)` for the receipt's block, of which the timestamp is read. -/
  block : Option (Option Date)
  deriving DecidableEq, Repr

/-- The repositories and the number of `TransactionStatusUpdated` events published so far. -/
structure Announcements where
  repositories : Repositories
  published : Nat
  deriving DecidableEq

namespace TransactionDomainService

/-- `timestamp(transaction:from:)`, with the transaction after its transition. -/
def timestamp (r : Repositories) (tx : Transaction) (block : Date) (now : Date) : Repositories :=
  r.save ((tx.timestampProcessed block).timestampUpdated now)

/-- What the loop does with a transaction whose receipt and block it got. -/
def process (r : Repositories) (tx : Transaction) (status : TransactionStatus) (block : Option Date)
    (clock : Clock) : Except Trap Repositories := do
  let tx ← if status = .success then tx.succeed (clock 0) (clock 1) else tx.fail (clock 0) (clock 1)
  let block ← unwrap "block" block
  return timestamp r tx block (clock 2)

/-- The loop of `updatePendingTransactions()`. Returns whether there are updates, or `none` when
the node's error is thrown. -/
def updateEach (node : TransactionID → NodeAnswer) :
    List Transaction → Bool → Repositories → Clock → Except Trap (Option Bool × Repositories)
  | [], hasUpdates, r, _ => .ok (some hasUpdates, r)
  | tx :: transactions, hasUpdates, r, clock => do
      let _ ← unwrap "tx.transactionHash" tx.transactionHash
      match (node tx.id).receipt, (node tx.id).block with
      | none, _ => return (none, r)
      | some none, _ => updateEach node transactions hasUpdates r clock
      | some (some _), none => return (none, r)
      | some (some status), some block => do
          let r ← process r tx status block clock
          updateEach node transactions true r fun i => clock (i + 3)

/-- The transactions the loop goes through. -/
def pendingTransactions (r : Repositories) : List Transaction :=
  r.transactions.filter (·.status = .pending)

/-- `updatePendingTransactions()`. An error is logged by the caller. -/
def updatePendingTransactions (s : Announcements) (node : TransactionID → NodeAnswer)
    (clock : Clock) : Except Trap Announcements := do
  let (hasUpdates, r) ← updateEach node (pendingTransactions s.repositories) false s.repositories
    clock
  return ⟨r, if hasUpdates = some true then s.published + 1 else s.published⟩

/-- A call of `updatePendingTransactions()`. -/
structure Call where
  node : TransactionID → NodeAnswer
  clock : Clock

/-- One call. -/
def step (s : Announcements) (call : Call) : Except Trap Announcements :=
  updatePendingTransactions s call.node call.clock

end TransactionDomainService

end MultisigWallet
