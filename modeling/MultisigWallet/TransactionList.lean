import MultisigWallet.DBTransactionRepository

/-!
# MultisigWallet.TransactionList

The list of transactions that the user sees: what `TransactionDomainService` takes out of the
repository, in which order, and how it is cut into groups.

What a day is depends on the calendar of the device. `Calendar` is what the grouping relies on: a
later moment is on no earlier day, and a day begins on itself.
-/

namespace MultisigWallet

/-- `TransactionGroup.GroupType`. -/
inductive GroupType
  | pending
  | processed
  deriving DecidableEq, Repr

/-- `TransactionGroup`. -/
structure TransactionGroup where
  type : GroupType
  date : Option Date
  transactions : List Transaction
  deriving DecidableEq

/-- One calendar, by the beginning of the day of a moment. -/
structure Calendar where
  /-- `dateForGrouping`. -/
  dateForGrouping : Date → Date
  monotone : ∀ d e, d ≤ e → dateForGrouping d ≤ dateForGrouping e
  idempotent : ∀ d, dateForGrouping (dateForGrouping d) = dateForGrouping d

/-- `allEventDates`: the dates that are there. -/
def Transaction.allEventDates (tx : Transaction) : List Date :=
  [tx.processedDate, tx.submittedDate, tx.rejectedDate, tx.updatedDate, tx.createdDate].reduceOption

namespace TransactionDomainService

/-- The loop of the comparison, over what is left of both lists of dates. -/
def precedesFrom (lhs rhs : Transaction) : List Date → List Date → Bool
  | [], _ :: _ => true
  | _ :: _, [] => false
  | left :: lDates, right :: rDates =>
      if left = right then precedesFrom lhs rhs lDates rDates else decide (left > right)
  | [], [] =>
      if lhs.status = rhs.status then decide (lhs.id < rhs.id)
      else decide (lhs.status.rawValue < rhs.status.rawValue)

/-- The comparison that `allTransactions()` sorts by. -/
def precedes (lhs rhs : Transaction) : Bool :=
  precedesFrom lhs rhs lhs.allEventDates rhs.allEventDates

/-- The filter of `allTransactions()`. -/
def isListed (tx : Transaction) : Bool :=
  decide (tx.status ≠ .draft) && decide (tx.status ≠ .signing) &&
    decide (tx.status ≠ .discarded) && decide (tx.status ≠ .rejected)

/-- `allTransactions()`, of the stored transactions. -/
def allTransactions (stored : List Transaction) : List Transaction :=
  (stored.filter isListed).insertionSort fun lhs rhs => precedes rhs lhs = false

/-- What the loop of `grouppedTransactions()` does with a processed transaction. The last group is
there when it is written to. -/
def addToGroups (calendar : Calendar) (groups : List TransactionGroup) (tx : Transaction) :
    Except Trap (List TransactionGroup) := do
  precondition tx.allEventDates.head?.isSome "Transaction must be timestamped"
  let date ← unwrap "tx.allEventDates.first" tx.allEventDates.head?
  let txDate := calendar.dateForGrouping date
  let groups :=
    if groups.getLast?.bind (·.date) ≠ some txDate then groups ++ [⟨.processed, some txDate, []⟩]
    else groups
  return groups.modifyLast fun group => { group with transactions := group.transactions ++ [tx] }

/-- The loop of `grouppedTransactions()`, with the pending group and the other groups so far. -/
def groupEach (calendar : Calendar) : List Transaction → TransactionGroup → List TransactionGroup →
    Except Trap (TransactionGroup × List TransactionGroup)
  | [], pendingGroup, groups => .ok (pendingGroup, groups)
  | tx :: txs, pendingGroup, groups =>
      if tx.status = .pending then
        groupEach calendar txs
          { pendingGroup with transactions := pendingGroup.transactions ++ [tx] } groups
      else do
        let groups ← addToGroups calendar groups tx
        groupEach calendar txs pendingGroup groups

/-- `grouppedTransactions()`, of the stored transactions. -/
def grouppedTransactions (calendar : Calendar) (stored : List Transaction) :
    Except Trap (List TransactionGroup) := do
  let (pendingGroup, groups) ←
    groupEach calendar (allTransactions stored) ⟨.pending, none, []⟩ []
  return ([pendingGroup] ++ groups).filter fun group => !group.transactions.isEmpty

end TransactionDomainService

end MultisigWallet
