import MultisigWallet.Lib.Chunks
import MultisigWallet.TransactionList
import Mathlib.Data.List.Nodup
import Mathlib.Data.List.ReduceOption
import Mathlib.Data.List.Sort
import Mathlib.Data.Prod.Lex

/-!
# MultisigWallet.TransactionListSound

The comparison of the list is the lexicographic order of a key: the dates, later ones first, then the
status, then the id. A list that is sorted by it has its processed transactions by processing date,
so their days never increase, and neighbours of one day are all the transactions of that day.
-/

namespace MultisigWallet

namespace TransactionDomainService

open OrderDual (toDual)

/-! ### The order -/

/-- What the comparison looks at, after the dates. -/
def tieKey (tx : Transaction) : Int ×ₗ Str := toLex (tx.status.rawValue, tx.id)

/-- What the comparison looks at. -/
def orderKey (tx : Transaction) : List Dateᵒᵈ ×ₗ (Int ×ₗ Str) :=
  toLex (tx.allEventDates.map toDual, tieKey tx)

theorem rawValue_inj {s t : TransactionStatus} (h : s.rawValue = t.rawValue) : s = t := by
  cases s <;> cases t <;> first | rfl | cases h

theorem tieKey_lt_iff (lhs rhs : Transaction) :
    tieKey lhs < tieKey rhs ↔
      lhs.status.rawValue < rhs.status.rawValue ∨ lhs.status = rhs.status ∧ lhs.id < rhs.id := by
  rw [tieKey, tieKey, Prod.Lex.toLex_lt_toLex]
  exact or_congr Iff.rfl (and_congr ⟨rawValue_inj, congrArg TransactionStatus.rawValue⟩ Iff.rfl)

/-- Two dates are compared, or the rest of the dates if they are equal. -/
theorem toDual_cons_lt_iff (left right : Date) (lDates rDates : List Dateᵒᵈ) :
    toDual left :: lDates < toDual right :: rDates ↔
      right < left ∨ left = right ∧ lDates < rDates := by
  rw [List.cons_lt_cons_iff, OrderDual.toDual_lt_toDual, toDual.injective.eq_iff]

/-- The loop compares lexicographically: a list that ends comes first, and a later date. -/
theorem precedesFrom_iff (lhs rhs : Transaction) (lDates rDates : List Date) :
    precedesFrom lhs rhs lDates rDates = true ↔
      toLex (lDates.map toDual, tieKey lhs) < toLex (rDates.map toDual, tieKey rhs) := by
  rw [Prod.Lex.toLex_lt_toLex]
  induction lDates generalizing rDates with
  | nil =>
      cases rDates with
      | nil =>
          rw [precedesFrom]
          by_cases hs : lhs.status = rhs.status
          · simp [tieKey_lt_iff, hs]
          · simp [tieKey_lt_iff, hs]
      | cons right rDates => simp [precedesFrom]
  | cons left lDates ih =>
      cases rDates with
      | nil => simp [precedesFrom]
      | cons right rDates =>
          simp only [precedesFrom, List.map_cons, toDual_cons_lt_iff, List.cons.injEq]
          by_cases hd : left = right
          · simp [hd, ih]
          · simp [hd, toDual.injective.eq_iff]

theorem precedes_iff (lhs rhs : Transaction) :
    precedes lhs rhs = true ↔ orderKey lhs < orderKey rhs :=
  precedesFrom_iff lhs rhs lhs.allEventDates rhs.allEventDates

theorem not_precedes_iff (lhs rhs : Transaction) :
    precedes rhs lhs = false ↔ orderKey lhs ≤ orderKey rhs := by
  rw [← Bool.not_eq_true, precedes_iff, not_lt]

/-- The comparison orders these transactions strictly and totally. -/
structure StrictTotalOn (txs : List Transaction) : Prop where
  irrefl : ∀ tx ∈ txs, precedes tx tx = false
  trans : ∀ a ∈ txs, ∀ b ∈ txs, ∀ c ∈ txs,
    precedes a b = true → precedes b c = true → precedes a c = true
  total : ∀ a ∈ txs, ∀ b ∈ txs, a ≠ b → precedes a b = true ∨ precedes b a = true

/-- The ids decide what the rest leaves open. -/
theorem id_eq_of_orderKey_eq {a b : Transaction} (h : orderKey a = orderKey b) : a.id = b.id := by
  have htie : tieKey a = tieKey b := congrArg (fun key => (ofLex key).2) h
  exact congrArg (fun key => (ofLex key).2) htie

theorem strictTotalOn {txs : List Transaction} (hids : (txs.map (·.id)).Nodup) :
    StrictTotalOn txs where
  irrefl tx _ := (not_precedes_iff tx tx).mpr le_rfl
  trans a _ b _ c _ hab hbc :=
    (precedes_iff a c).mpr (lt_trans ((precedes_iff a b).mp hab) ((precedes_iff b c).mp hbc))
  total a ha b hb hne := by
    rw [precedes_iff, precedes_iff]
    refine lt_or_gt_of_ne fun hkey => hne ?_
    exact List.inj_on_of_nodup_map hids ha hb (id_eq_of_orderKey_eq hkey)

/-! ### The sorted list -/

theorem pairwise_allTransactions (stored : List Transaction) :
    (allTransactions stored).Pairwise fun a b => orderKey a ≤ orderKey b := by
  have htotal : Std.Total fun lhs rhs : Transaction => precedes rhs lhs = false :=
    ⟨fun a b => by
      simp only [not_precedes_iff]
      exact le_total _ _⟩
  have htrans : IsTrans Transaction fun lhs rhs => precedes rhs lhs = false :=
    ⟨fun a b c hab hbc => by
      rw [not_precedes_iff] at hab hbc ⊢
      exact le_trans hab hbc⟩
  refine (List.pairwise_insertionSort _ _).imp ?_
  intro a b hab
  exact (not_precedes_iff a b).mp hab

theorem allTransactions_perm (stored : List Transaction) :
    (allTransactions stored).Perm (stored.filter isListed) :=
  List.perm_insertionSort _ _

/-- What the list shows, by status. -/
theorem isListed_iff (tx : Transaction) :
    isListed tx = true ↔ tx.status = .pending ∨ tx.status = .success ∨ tx.status = .failed := by
  cases h : tx.status <;> simp [isListed, h]

theorem allEventDates_of_processed {tx : Transaction} {date : Date}
    (h : tx.processedDate = some date) :
    ∃ dates, tx.allEventDates = date :: dates :=
  ⟨_, by rw [Transaction.allEventDates, h, List.reduceOption_cons_of_some]⟩

/-- A transaction that comes first was not processed before the other. -/
theorem processedDate_le {a b : Transaction} {d e : Date} (ha : a.processedDate = some d)
    (hb : b.processedDate = some e) (h : orderKey a ≤ orderKey b) : e ≤ d := by
  obtain ⟨ds, hds⟩ := allEventDates_of_processed ha
  obtain ⟨es, hes⟩ := allEventDates_of_processed hb
  rw [orderKey, orderKey, hds, hes, Prod.Lex.toLex_le_toLex] at h
  simp only [List.map_cons, toDual_cons_lt_iff, List.cons.injEq, toDual.injective.eq_iff] at h
  rcases h with (hlt | ⟨heq, -⟩) | ⟨⟨heq, -⟩, -⟩
  · exact le_of_lt hlt
  · exact le_of_eq heq.symm
  · exact le_of_eq heq.symm

/-! ### The loop -/

/-- The day a processed transaction belongs to. -/
def processingDay (calendar : Calendar) (tx : Transaction) : Date :=
  calendar.dateForGrouping (tx.processedDate.getD 0)

/-- A chunk of the processed transactions, as a group. -/
def groupOfChunk (chunk : Date × List Transaction) : TransactionGroup :=
  ⟨.processed, some chunk.1, chunk.2⟩

theorem getLast?_groupOfChunk (chunks : List (Date × List Transaction)) :
    (chunks.map groupOfChunk).getLast?.bind (·.date) = chunks.getLast?.map Prod.fst := by
  rw [List.getLast?_map]
  cases chunks.getLast? <;> rfl

theorem modifyLast_groupOfChunk (chunks : List (Date × List Transaction)) (tx : Transaction) :
    (chunks.map groupOfChunk).modifyLast
        (fun group => { group with transactions := group.transactions ++ [tx] }) =
      (chunks.modifyLast fun c => (c.1, c.2 ++ [tx])).map groupOfChunk := by
  rcases List.eq_nil_or_concat' chunks with rfl | ⟨front, chunk, rfl⟩
  · rfl
  · simp [List.modifyLast_concat, groupOfChunk]

/-- The last group gets the transaction, or a new one, as with chunks. -/
theorem addToGroups_eq {calendar : Calendar} {tx : Transaction} (h : tx.processedDate.isSome)
    (chunks : List (Date × List Transaction)) :
    addToGroups calendar (chunks.map groupOfChunk) tx =
      .ok ((Chunks.add (processingDay calendar) chunks tx).map groupOfChunk) := by
  obtain ⟨date, hdate⟩ := Option.isSome_iff_exists.mp h
  obtain ⟨dates, hdates⟩ := allEventDates_of_processed hdate
  have hday : processingDay calendar tx = calendar.dateForGrouping date := by
    rw [processingDay, hdate, Option.getD_some]
  have hrun : addToGroups calendar (chunks.map groupOfChunk) tx =
      .ok ((if chunks.getLast?.map Prod.fst ≠ some (processingDay calendar tx) then
          chunks.map groupOfChunk ++ [⟨.processed, some (processingDay calendar tx), []⟩]
        else chunks.map groupOfChunk).modifyLast
          fun group => { group with transactions := group.transactions ++ [tx] }) := by
    rw [hday, ← getLast?_groupOfChunk]
    simp only [addToGroups, hdates, List.head?_cons, Option.isSome_some, precondition, if_true,
      unwrap_some]
    rfl
  rw [hrun, Chunks.add]
  by_cases hlast : chunks.getLast?.map Prod.fst = some (processingDay calendar tx)
  · rw [if_neg (not_not_intro hlast), if_pos hlast, modifyLast_groupOfChunk]
  · rw [if_pos hlast, if_neg hlast, List.modifyLast_concat]
    simp [groupOfChunk]

/-- The loop puts the pending transactions aside and cuts the others into chunks by day. -/
theorem groupEach_eq (calendar : Calendar) {txs : List Transaction}
    (h : ∀ tx ∈ txs, tx.status ≠ .pending → tx.processedDate.isSome)
    (pendingGroup : TransactionGroup) (chunks : List (Date × List Transaction)) :
    groupEach calendar txs pendingGroup (chunks.map groupOfChunk) =
      .ok ({ pendingGroup with
              transactions := pendingGroup.transactions ++ txs.filter (·.status = .pending) },
        ((txs.filter (·.status ≠ .pending)).foldl (Chunks.add (processingDay calendar)) chunks).map
          groupOfChunk) := by
  induction txs generalizing pendingGroup chunks with
  | nil => simp [groupEach]
  | cons tx txs ih =>
      have hrest : ∀ tx ∈ txs, tx.status ≠ .pending → tx.processedDate.isSome :=
        fun tx htx => h tx (List.mem_cons_of_mem _ htx)
      rw [groupEach]
      by_cases hp : tx.status = .pending
      · rw [if_pos hp, ih hrest]
        simp [hp]
      · rw [if_neg hp, addToGroups_eq (h tx List.mem_cons_self hp)]
        refine (ih hrest pendingGroup _).trans ?_
        simp [hp]

/-! ### The partition -/

/-- The transactions with a status that is shown. -/
def IsShown (tx : Transaction) : Prop :=
  tx.status = .pending ∨ tx.status = .success ∨ tx.status = .failed

/-- The groups are a partition of the transactions that are shown: the pending ones first, then day
after day back in time. -/
structure FaithfulPartition (calendar : Calendar) (stored : List Transaction)
    (groups : List TransactionGroup) : Prop where
  nonempty : ∀ group ∈ groups, group.transactions ≠ []
  pending_first : ∀ i group, groups[i]? = some group → group.type = .pending → i = 0
  pending : ∀ group ∈ groups, group.type = .pending →
    group.date = none ∧ ∀ tx ∈ group.transactions, tx.status = .pending
  processed : ∀ group ∈ groups, group.type = .processed →
    ∃ day, group.date = some day ∧ calendar.dateForGrouping day = day ∧
      ∀ tx ∈ group.transactions, (tx.status = .success ∨ tx.status = .failed) ∧
        ∃ date, tx.processedDate = some date ∧ calendar.dateForGrouping date = day
  days : (groups.filter (·.type = .processed)).Pairwise fun group next =>
    ∃ day nextDay, group.date = some day ∧ next.date = some nextDay ∧ nextDay < day
  nodup : (groups.flatMap (·.transactions)).Nodup
  once : ∀ tx ∈ stored, IsShown tx →
    ∃! i : ℕ, ∃ group : TransactionGroup, groups[i]? = some group ∧ tx ∈ group.transactions
  only : ∀ group ∈ groups, ∀ tx ∈ group.transactions, tx ∈ stored ∧ IsShown tx
  ordered : ((groups.filter (·.type = .processed)).flatMap (·.transactions)).Pairwise fun tx next =>
    ∃ date nextDate, tx.processedDate = some date ∧ next.processedDate = some nextDate ∧
      nextDate ≤ date

/-- In a list of lists without a duplicate, an element is in one list only. -/
theorem existsUnique_of_nodup_flatMap {groups : List TransactionGroup}
    (h : (groups.flatMap (·.transactions)).Nodup) {tx : Transaction}
    (htx : tx ∈ groups.flatMap (·.transactions)) :
    ∃! i : ℕ, ∃ group : TransactionGroup, groups[i]? = some group ∧ tx ∈ group.transactions := by
  obtain ⟨group, hgroup, hmem⟩ := List.mem_flatMap.mp htx
  obtain ⟨i, hi⟩ := List.mem_iff_getElem?.mp hgroup
  refine ⟨i, ⟨group, hi, hmem⟩, ?_⟩
  intro j ⟨other, hj, hother⟩
  have hdisjoint := (List.nodup_flatMap.mp h).2
  rw [List.pairwise_iff_getElem] at hdisjoint
  obtain ⟨hjlt, rfl⟩ := List.getElem?_eq_some_iff.mp hj
  obtain ⟨hilt, rfl⟩ := List.getElem?_eq_some_iff.mp hi
  rcases lt_trichotomy j i with hlt | heq | hgt
  · exact absurd hmem (hdisjoint j i hjlt hilt hlt hother)
  · exact heq
  · exact absurd hother (hdisjoint i j hilt hjlt hgt hmem)

/-- The pending group, if there is something in it. -/
def pendingGroups (stored : List Transaction) : List TransactionGroup :=
  [⟨.pending, none, (allTransactions stored).filter (·.status = .pending)⟩].filter
    fun group => !group.transactions.isEmpty

/-- The processed transactions, in chunks by day. -/
def processedChunks (calendar : Calendar) (stored : List Transaction) :
    List (Date × List Transaction) :=
  Chunks.ofList (processingDay calendar) ((allTransactions stored).filter (·.status ≠ .pending))

/-- The transactions that have been processed carry a processing date. -/
def Timestamped (stored : List Transaction) : Prop :=
  ∀ tx ∈ stored, tx.status = .success ∨ tx.status = .failed → tx.processedDate.isSome

theorem mem_allTransactions {stored : List Transaction} {tx : Transaction} :
    tx ∈ allTransactions stored ↔ tx ∈ stored ∧ IsShown tx := by
  rw [(allTransactions_perm stored).mem_iff, List.mem_filter, isListed_iff, IsShown]

theorem keyed_processedChunks (calendar : Calendar) (stored : List Transaction) :
    Chunks.Keyed (processingDay calendar) (processedChunks calendar stored) :=
  Chunks.keyed_ofList _

/-- What is shown and not pending is processed. -/
theorem processed_of_mem {stored : List Transaction} {tx : Transaction}
    (h : tx ∈ (allTransactions stored).filter (·.status ≠ .pending)) :
    tx ∈ stored ∧ (tx.status = .success ∨ tx.status = .failed) := by
  obtain ⟨hmem, hstatus⟩ := List.mem_filter.mp h
  obtain ⟨hstored, hshown⟩ := mem_allTransactions.mp hmem
  exact ⟨hstored, hshown.resolve_left (of_decide_eq_true hstatus)⟩

theorem flatMap_processedChunks (calendar : Calendar) (stored : List Transaction) :
    ((processedChunks calendar stored).map groupOfChunk).flatMap (·.transactions) =
      (allTransactions stored).filter (·.status ≠ .pending) := by
  rw [List.flatMap_map]
  exact Chunks.flatMap_ofList _

theorem grouppedTransactions_eq (calendar : Calendar) {stored : List Transaction}
    (h : Timestamped stored) :
    grouppedTransactions calendar stored =
      .ok (pendingGroups stored ++ (processedChunks calendar stored).map groupOfChunk) := by
  have hdates : ∀ tx ∈ allTransactions stored, tx.status ≠ .pending → tx.processedDate.isSome := by
    intro tx htx hstatus
    obtain ⟨hstored, hshown⟩ := mem_allTransactions.mp htx
    exact h tx hstored (hshown.resolve_left hstatus)
  have hloop := groupEach_eq calendar hdates ⟨.pending, none, []⟩ []
  have hchunks : ((processedChunks calendar stored).map groupOfChunk).filter
      (fun group => !group.transactions.isEmpty) =
        (processedChunks calendar stored).map groupOfChunk := by
    rw [List.filter_eq_self]
    intro group hgroup
    obtain ⟨chunk, hchunk, rfl⟩ := List.mem_map.mp hgroup
    simpa [groupOfChunk] using (keyed_processedChunks calendar stored chunk hchunk).1
  rw [List.map_nil] at hloop
  rw [grouppedTransactions, hloop, ← hchunks]
  exact congrArg Except.ok (List.filter_append ..)

theorem mem_pendingGroups {stored : List Transaction} {group : TransactionGroup}
    (h : group ∈ pendingGroups stored) :
    group = ⟨.pending, none, (allTransactions stored).filter (·.status = .pending)⟩ ∧
      group.transactions ≠ [] := by
  obtain ⟨hgroup, hne⟩ := List.mem_filter.mp h
  exact ⟨List.mem_singleton.mp hgroup, by simpa using hne⟩

/-- All pending transactions are in the pending group. -/
theorem flatMap_pendingGroups (stored : List Transaction) :
    (pendingGroups stored).flatMap (·.transactions) =
      (allTransactions stored).filter (·.status = .pending) := by
  rw [pendingGroups]
  cases h : (allTransactions stored).filter (·.status = .pending) with
  | nil => rfl
  | cons tx txs => simp

/-- The groups hold what the list holds. -/
theorem flatMap_groups_perm (calendar : Calendar) (stored : List Transaction) :
    ((pendingGroups stored ++ (processedChunks calendar stored).map groupOfChunk).flatMap
      (·.transactions)).Perm (allTransactions stored) := by
  rw [List.flatMap_append, flatMap_pendingGroups, flatMap_processedChunks]
  have hperm := List.filter_append_perm (fun tx : Transaction => decide (tx.status = .pending))
    (allTransactions stored)
  simpa using hperm

/-- The processed groups are the ones that come from chunks. -/
theorem filter_processed (calendar : Calendar) (stored : List Transaction) :
    (pendingGroups stored ++ (processedChunks calendar stored).map groupOfChunk).filter
        (·.type = .processed) = (processedChunks calendar stored).map groupOfChunk := by
  have hpending : (pendingGroups stored).filter (·.type = .processed) = [] := by
    rw [List.filter_eq_nil_iff]
    intro group hgroup
    simp [(mem_pendingGroups hgroup).1]
  have hchunks : ((processedChunks calendar stored).map groupOfChunk).filter (·.type = .processed) =
      (processedChunks calendar stored).map groupOfChunk := by
    rw [List.filter_eq_self]
    intro group hgroup
    obtain ⟨chunk, -, rfl⟩ := List.mem_map.mp hgroup
    rfl
  rw [List.filter_append, hpending, hchunks, List.nil_append]

/-- The processed transactions come by processing date, the latest first. -/
theorem pairwise_processedDate {stored : List Transaction} (h : Timestamped stored) :
    ((allTransactions stored).filter (·.status ≠ .pending)).Pairwise fun tx next =>
      ∃ date nextDate, tx.processedDate = some date ∧ next.processedDate = some nextDate ∧
        nextDate ≤ date := by
  refine ((pairwise_allTransactions stored).filter _).imp_of_mem ?_
  intro tx next htx hnext hkey
  obtain ⟨hmem, hstatus⟩ := processed_of_mem htx
  obtain ⟨hmemNext, hstatusNext⟩ := processed_of_mem hnext
  obtain ⟨date, hdate⟩ := Option.isSome_iff_exists.mp (h tx hmem hstatus)
  obtain ⟨nextDate, hnextDate⟩ := Option.isSome_iff_exists.mp (h next hmemNext hstatusNext)
  exact ⟨date, nextDate, hdate, hnextDate, processedDate_le hdate hnextDate hkey⟩

/-- A later processing date is on no earlier day, so no day has two chunks. -/
theorem pairwise_processedChunks (calendar : Calendar) {stored : List Transaction}
    (h : Timestamped stored) :
    (processedChunks calendar stored).Pairwise fun chunk next => next.1 < chunk.1 := by
  refine Chunks.pairwise_ofList ((pairwise_processedDate h).imp ?_)
  intro tx next ⟨date, nextDate, hdate, hnextDate, hle⟩
  rw [processingDay, processingDay, hdate, hnextDate]
  exact calendar.monotone nextDate date hle

/-- What a chunk holds has been processed on its day. -/
theorem mem_processedChunks {calendar : Calendar} {stored : List Transaction} (h : Timestamped stored)
    {chunk : Date × List Transaction} (hchunk : chunk ∈ processedChunks calendar stored)
    {tx : Transaction} (htx : tx ∈ chunk.2) :
    (tx.status = .success ∨ tx.status = .failed) ∧
      ∃ date, tx.processedDate = some date ∧ calendar.dateForGrouping date = chunk.1 := by
  have hall : tx ∈ (allTransactions stored).filter (·.status ≠ .pending) := by
    rw [← flatMap_processedChunks calendar]
    exact List.mem_flatMap.mpr ⟨groupOfChunk chunk, List.mem_map_of_mem hchunk, htx⟩
  obtain ⟨hstored, hstatus⟩ := processed_of_mem hall
  obtain ⟨date, hdate⟩ := Option.isSome_iff_exists.mp (h tx hstored hstatus)
  refine ⟨hstatus, date, hdate, ?_⟩
  rw [← (keyed_processedChunks calendar stored chunk hchunk).2 tx htx, processingDay, hdate,
    Option.getD_some]

theorem nodup_allTransactions {stored : List Transaction} (hids : (stored.map (·.id)).Nodup) :
    (allTransactions stored).Nodup :=
  (allTransactions_perm stored).nodup_iff.mpr (List.Nodup.of_map _ hids |>.filter _)

theorem faithfulPartition (calendar : Calendar) {stored : List Transaction}
    (hids : (stored.map (·.id)).Nodup) (h : Timestamped stored) :
    FaithfulPartition calendar stored
      (pendingGroups stored ++ (processedChunks calendar stored).map groupOfChunk) := by
  have hperm := flatMap_groups_perm calendar stored
  have hnodup := hperm.nodup_iff.mpr (nodup_allTransactions hids)
  constructor
  case nonempty =>
    intro group hgroup
    rcases List.mem_append.mp hgroup with hgroup | hgroup
    · exact (mem_pendingGroups hgroup).2
    · obtain ⟨chunk, hchunk, rfl⟩ := List.mem_map.mp hgroup
      exact (keyed_processedChunks calendar stored chunk hchunk).1
  case pending_first =>
    intro i group hi htype
    have hlength : (pendingGroups stored).length ≤ 1 := List.length_filter_le _ _
    by_cases hlt : i < (pendingGroups stored).length
    · omega
    · rw [List.getElem?_append_right (not_lt.mp hlt)] at hi
      obtain ⟨chunk, -, rfl⟩ := List.mem_map.mp (List.mem_of_getElem? hi)
      cases htype
  case pending =>
    intro group hgroup htype
    rcases List.mem_append.mp hgroup with hgroup | hgroup
    · rw [(mem_pendingGroups hgroup).1]
      exact ⟨rfl, fun tx htx => of_decide_eq_true (List.mem_filter.mp htx).2⟩
    · obtain ⟨chunk, -, rfl⟩ := List.mem_map.mp hgroup
      cases htype
  case processed =>
    intro group hgroup htype
    rcases List.mem_append.mp hgroup with hgroup | hgroup
    · rw [(mem_pendingGroups hgroup).1] at htype
      cases htype
    · obtain ⟨chunk, hchunk, rfl⟩ := List.mem_map.mp hgroup
      refine ⟨chunk.1, rfl, ?_, fun tx htx => mem_processedChunks h hchunk htx⟩
      obtain ⟨tx, htx⟩ :=
        List.exists_mem_of_ne_nil _ (keyed_processedChunks calendar stored chunk hchunk).1
      obtain ⟨-, date, -, hday⟩ := mem_processedChunks h hchunk htx
      rw [← hday, calendar.idempotent]
  case days =>
    rw [filter_processed, List.pairwise_map]
    exact (pairwise_processedChunks calendar h).imp fun hlt => ⟨_, _, rfl, rfl, hlt⟩
  case nodup => exact hnodup
  case once =>
    intro tx htx hshown
    exact existsUnique_of_nodup_flatMap hnodup
      (hperm.mem_iff.mpr (mem_allTransactions.mpr ⟨htx, hshown⟩))
  case only =>
    intro group hgroup tx htx
    exact mem_allTransactions.mp (hperm.mem_iff.mp (List.mem_flatMap.mpr ⟨group, hgroup, htx⟩))
  case ordered =>
    rw [filter_processed, flatMap_processedChunks]
    exact pairwise_processedDate h

/-- The list is a partition of what is stored, in an order that is strict and total. -/
theorem grouppedTransactions_faithful (calendar : Calendar) {stored : List Transaction}
    (hids : (stored.map (·.id)).Nodup) (h : Timestamped stored) :
    StrictTotalOn stored ∧
      ∃ groups, grouppedTransactions calendar stored = .ok groups ∧
        FaithfulPartition calendar stored groups :=
  ⟨strictTotalOn hids, _, grouppedTransactions_eq calendar h, faithfulPartition calendar hids h⟩

/-- Days of 86400 seconds. -/
def utcDays : Calendar where
  dateForGrouping date := date / 86400 * 86400
  monotone _ _ h := Int.mul_le_mul_of_nonneg_right (Int.ediv_le_ediv (by decide) h) (by decide)
  idempotent date := by rw [Int.mul_ediv_cancel _ (by decide)]

def listedTransaction (id : TransactionID) (status : TransactionStatus)
    (processedDate : Option Date) : Transaction :=
  { id, type := .transfer, walletID := ['w'], accountID := ⟨['t'], ['w']⟩, status,
    createdDate := some 86000, processedDate }

/-- Two transactions of the second day, in the wrong order and with a pending one and a draft between
them, and one of the first day. -/
def storedTransactions : List Transaction :=
  [listedTransaction ['a'] .failed (some 80000), listedTransaction ['b'] .success (some 90000),
    listedTransaction ['c'] .pending none, listedTransaction ['d'] .draft none,
    listedTransaction ['e'] .success (some 100000)]

example : (grouppedTransactions utcDays storedTransactions).toOption.map
    (·.map fun group => (group.date, group.transactions.map (·.id))) =
      some [(none, [['c']]), (some 86400, [['e'], ['b']]), (some 0, [['a']])] := by
  decide

theorem grouppedTransactions_faithful_twoDays :
    StrictTotalOn storedTransactions ∧
      ∃ groups, grouppedTransactions utcDays storedTransactions = .ok groups ∧
        FaithfulPartition utcDays storedTransactions groups :=
  grouppedTransactions_faithful utcDays (by decide) (by unfold Timestamped; decide)

end TransactionDomainService

end MultisigWallet
