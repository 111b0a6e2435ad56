import MultisigWallet.TokenListSound
import Mathlib.Algebra.Group.Nat.Defs

/-!
# MultisigWallet.TokenListMergeSound

What a merge leaves in the repository. The three passes come down to one row for each item of the
list (`mergedRow`), next to the whitelisted items that the list does not have. The rest follows
from where a row comes from: a stored item that keeps its status, a new item that gets the next
place, or the item of the list as it is.

A second merge of the list finds exactly these rows and puts them in the place of themselves.
-/

namespace MultisigWallet

namespace TokenListMerger

open TokenTable DBTokenListItemRepository

variable {table table' : TokenTable} {tokenList : List TokenListItem} {item t : TokenListItem}

/-! ### The next place -/

/-- The place that an item new to the whitelist gets. -/
def nextPlace (table : TokenTable) : Int :=
  ((whitelisted table).getLast?.bind (·.sortingId)).getD (-1) + 1

/-- Every item that is shown has a place. -/
def Placed (table : TokenTable) : Prop :=
  ∀ i ∈ table, i.status = .whitelisted → i.sortingId ≠ none

theorem nextPlace_eq (hplaced : Placed table) {i : TokenListItem} {n : Int} (hi : i ∈ table)
    (hwhite : i.status = .whitelisted) (hn : i.sortingId = some n)
    (hmax : ∀ j ∈ table, j.status = .whitelisted → ∀ m, j.sortingId = some m → m ≤ n) :
    nextPlace table = n + 1 := by
  have hlt : n < nextPlace table := lt_new_place hplaced hi hwhite hn
  obtain ⟨last, hlast⟩ := Option.isSome_iff_exists.mp
    (List.getLast?_isSome.mpr (List.ne_nil_of_mem (mem_whitelisted.mpr ⟨hi, hwhite⟩)))
  obtain ⟨hmem, hshown⟩ := mem_whitelisted.mp (List.mem_of_getLast? hlast)
  obtain ⟨k, hk⟩ := Option.ne_none_iff_exists'.mp (hplaced last hmem hshown)
  have hle := hmax last hmem hshown k hk
  have hnext : nextPlace table = k + 1 := by
    rw [nextPlace, hlast, Option.bind_some, hk, Option.getD_some]
  omega

/-- A row that is not shown, for a token that is not, does not change what is shown. -/
theorem whitelisted_replaceRow (hitem : item.status ≠ .whitelisted)
    (hold : ∀ i ∈ table, i.id = item.id → i.status ≠ .whitelisted) :
    whitelisted (replaceRow table item) = whitelisted table := by
  unfold whitelisted replaceRow
  have hlast : [item].filter (·.status = .whitelisted) = [] := by simp [hitem]
  rw [List.filter_append, hlast, List.append_nil, List.filter_filter]
  congr 1
  refine List.filter_congr fun i hi => ?_
  by_cases hid : i.id = item.id
  · simp [hold i hi hid]
  · simp [hid]

/-- The next place is the first one, or behind that of an item that is shown. -/
theorem nextPlace_cases (table : TokenTable) :
    nextPlace table = 0 ∨ ∃ i ∈ table, i.status = .whitelisted ∧
      ∃ m, i.sortingId = some m ∧ nextPlace table = m + 1 := by
  unfold nextPlace
  cases hlast : (whitelisted table).getLast? with
  | none => exact .inl rfl
  | some last =>
      obtain ⟨hmem, hwhite⟩ := mem_whitelisted.mp (List.mem_of_getLast? hlast)
      cases hm : last.sortingId with
      | none => exact .inl (by rw [Option.bind_some, hm]; rfl)
      | some m => exact .inr ⟨last, hmem, hwhite, m, hm, by rw [Option.bind_some, hm]; rfl⟩

theorem nextPlace_room {n : Nat} (hn : n ≤ 2 ^ 63)
    (hroom : ∀ i ∈ table, i.status = .whitelisted → ∀ m, i.sortingId = some m →
      -2 ^ 63 ≤ m ∧ m + n < 2 ^ 63) :
    -2 ^ 63 ≤ nextPlace table ∧ nextPlace table + n ≤ 2 ^ 63 := by
  rcases nextPlace_cases table with hfirst | ⟨i, hi, hwhite, m, hm, hnext⟩
  · omega
  · have := hroom i hi hwhite m hm
    omega

/-- An item that was not shown is saved if its place is an `Int`. -/
theorem save_new_returns (hfind : (find table item.id).any (·.status = .whitelisted) = false)
    (hstatus : item.status = .whitelisted) (hfits : isInt (nextPlace table) = true) :
    save table item =
      .ok (replaceRow table (item.updateSortingId (some (nextPlace table)))) := by
  have hadd : addInt (((whitelisted table).getLast?.bind (·.sortingId)).getD (-1)) 1 =
      .ok (nextPlace table) := addInt_ok.mpr ⟨hfits, rfl⟩
  unfold save prepareToSave
  rw [if_neg (by rw [hfind]; exact Bool.false_ne_true), if_pos hstatus]
  show ((addInt (((whitelisted table).getLast?.bind (·.sortingId)).getD (-1)) 1).bind _).bind _ = _
  rw [hadd]
  rfl

/-! ### Saving what remains -/

/-- The rows for `items`, from the next place on. -/
def savedRows : Int → List TokenListItem → List TokenListItem
  | _, [] => []
  | place, t :: ts =>
      if t.status = .whitelisted then t.updateSortingId (some place) :: savedRows (place + 1) ts
      else t :: savedRows place ts

/-- No token of `items` is shown. -/
def NoneShown (table : TokenTable) (items : List TokenListItem) : Prop :=
  ∀ t ∈ items, ∀ i ∈ table, i.id = t.id → i.status ≠ .whitelisted

theorem NoneShown.find (h : NoneShown table (t :: tokenList)) (hether : t.id ≠ Token.Ether.id) :
    (find table t.id).any (·.status = .whitelisted) = false := by
  rw [Bool.eq_false_iff]
  intro hfind
  obtain ⟨i, hi, hid, hwhite⟩ := exists_of_find_whitelisted hether hfind
  exact h t List.mem_cons_self i hi hid hwhite

theorem NoneShown.replaceRow (h : NoneShown table (t :: tokenList)) (hid : item.id = t.id)
    (hids : ((t :: tokenList).map (·.id)).Nodup) : NoneShown (replaceRow table item) tokenList := by
  intro t' ht' i hi hi'
  rcases mem_replaceRow.mp hi with ⟨hi, -⟩ | rfl
  · exact h t' (List.mem_cons_of_mem t ht') i hi hi'
  · refine absurd ?_ (List.nodup_cons.mp hids).1
    exact List.mem_map.mpr ⟨t', ht', hi'.symm.trans hid⟩

theorem Placed.replaceRow (h : Placed table) (hitem : item.status = .whitelisted → item.sortingId ≠ none) :
    Placed (replaceRow table item) := by
  intro i hi hwhite
  rcases mem_replaceRow.mp hi with ⟨hi, -⟩ | rfl
  · exact h i hi hwhite
  · exact hitem hwhite

theorem nextPlace_new (hplaced : Placed table) (hstatus : t.status = .whitelisted) :
    nextPlace (replaceRow table (t.updateSortingId (some (nextPlace table)))) =
      nextPlace table + 1 := by
  have hplaced' : Placed (replaceRow table (t.updateSortingId (some (nextPlace table)))) :=
    hplaced.replaceRow fun _ => Option.some_ne_none _
  refine nextPlace_eq hplaced' (mem_replaceRow.mpr (.inr rfl)) hstatus rfl fun j hj hwhite m hm => ?_
  rcases mem_replaceRow.mp hj with ⟨hj, -⟩ | rfl
  · exact (lt_new_place hplaced hj hwhite hm).le
  · exact (Option.some.inj hm).ge

theorem nextPlace_regular (hnone : NoneShown table (t :: tokenList))
    (hstatus : t.status ≠ .whitelisted) : nextPlace (replaceRow table t) = nextPlace table := by
  unfold nextPlace
  rw [whitelisted_replaceRow hstatus (hnone t List.mem_cons_self)]

theorem saveAll_savedRows {items : List TokenListItem} (hplaced : Placed table)
    (hids : (items.map (·.id)).Nodup) (hether : ∀ t ∈ items, t.id ≠ Token.Ether.id)
    (hnone : NoneShown table items) (h : saveAll table items = .ok table') :
    table' = (savedRows (nextPlace table) items).foldl replaceRow table := by
  induction items generalizing table with
  | nil => exact (Except.ok.inj h).symm
  | cons t ts ih =>
      obtain ⟨saved, hsave, hrest⟩ := bind_ok.mp h
      have hfind := hnone.find (hether t List.mem_cons_self)
      have hids' := (List.nodup_cons.mp hids).2
      have hether' : ∀ t ∈ ts, t.id ≠ Token.Ether.id := fun x hx =>
        hether x (List.mem_cons_of_mem t hx)
      by_cases hstatus : t.status = .whitelisted
      · -- it goes behind the others, and the next one behind it
        obtain rfl : saved = replaceRow table (t.updateSortingId (some (nextPlace table))) :=
          save_new hfind hstatus hsave
        rw [savedRows, if_pos hstatus, List.foldl_cons, ← nextPlace_new hplaced hstatus]
        exact ih (hplaced.replaceRow fun _ => Option.some_ne_none _) hids' hether'
          (hnone.replaceRow rfl hids) hrest
      · obtain rfl := Except.ok.inj ((save_regular hfind hstatus).symm.trans hsave)
        rw [savedRows, if_neg hstatus, List.foldl_cons, ← nextPlace_regular hnone hstatus]
        exact ih (hplaced.replaceRow fun hwhite => absurd hwhite hstatus) hids' hether'
          (hnone.replaceRow rfl hids) hrest

/-- Saving returns while there are places left. -/
theorem saveAll_returns {items : List TokenListItem} (hplaced : Placed table)
    (hids : (items.map (·.id)).Nodup) (hether : ∀ t ∈ items, t.id ≠ Token.Ether.id)
    (hnone : NoneShown table items) (hlow : -2 ^ 63 ≤ nextPlace table)
    (hroom : nextPlace table + items.length ≤ 2 ^ 63) :
    ∃ table', saveAll table items = .ok table' := by
  induction items generalizing table with
  | nil => exact ⟨table, rfl⟩
  | cons t ts ih =>
      have hfind := hnone.find (hether t List.mem_cons_self)
      have hids' := (List.nodup_cons.mp hids).2
      have hether' : ∀ t ∈ ts, t.id ≠ Token.Ether.id := fun x hx =>
        hether x (List.mem_cons_of_mem t hx)
      rw [List.length_cons] at hroom
      by_cases hstatus : t.status = .whitelisted
      · have hfits : isInt (nextPlace table) = true := by
          rw [isInt, Bool.and_eq_true, decide_eq_true_eq, decide_eq_true_eq]
          omega
        have hsave := save_new_returns hfind hstatus hfits
        have hnext := nextPlace_new hplaced hstatus
        rw [saveAll, hsave]
        exact ih (hplaced.replaceRow fun _ => Option.some_ne_none _) hids' hether'
          (hnone.replaceRow rfl hids) (by omega) (by omega)
      · have hsave := save_regular hfind hstatus
        have hnext := nextPlace_regular hnone hstatus
        rw [saveAll, hsave]
        exact ih (hplaced.replaceRow fun hwhite => absurd hwhite hstatus) hids' hether'
          (hnone.replaceRow rfl hids) (by omega) (by omega)

/-- Items that are not shown, for tokens that are not, are saved as they are. -/
theorem saveAll_regular {items : List TokenListItem} (hids : (items.map (·.id)).Nodup)
    (hether : ∀ t ∈ items, t.id ≠ Token.Ether.id) (hnone : NoneShown table items)
    (hstatus : ∀ t ∈ items, t.status ≠ .whitelisted) :
    saveAll table items = .ok (items.foldl replaceRow table) := by
  induction items generalizing table with
  | nil => rfl
  | cons t ts ih =>
      have hsave := save_regular (hnone.find (hether t List.mem_cons_self))
        (hstatus t List.mem_cons_self)
      rw [saveAll, hsave]
      exact ih (List.nodup_cons.mp hids).2 (fun x hx => hether x (List.mem_cons_of_mem t hx))
        (hnone.replaceRow rfl hids) fun x hx => hstatus x (List.mem_cons_of_mem t hx)

/-! ### The rows of a merge -/

/-- The row for an item of the list. -/
def mergedRow (table : TokenTable) (place : Int) (t : TokenListItem) : TokenListItem :=
  match itemToUpdate table t with
  | some item => updatedItem item t
  | none => if t.status = .whitelisted then t.updateSortingId (some place) else t

/-- `t` is shown from now on. -/
def NewlyWhitelisted (table : TokenTable) (t : TokenListItem) : Prop :=
  t.status = .whitelisted ∧ ∀ i ∈ table, i.id = t.id → i.status = .regular

instance (table : TokenTable) (t : TokenListItem) : Decidable (NewlyWhitelisted table t) :=
  inferInstanceAs (Decidable (_ ∧ _))

theorem newlyWhitelisted_iff :
    NewlyWhitelisted table t ↔ t.status = .whitelisted ∧ itemToUpdate table t = none := by
  unfold NewlyWhitelisted
  rw [← Option.isNone_iff_eq_none, itemToUpdate_isNone]
  refine and_congr_right fun _ => forall₂_congr fun i _ => ?_
  rw [or_comm, ← imp_iff_not_or]

/-- The rows for the list, from the next place on. -/
def mergedRows (table : TokenTable) : Int → List TokenListItem → List TokenListItem
  | _, [] => []
  | place, t :: ts =>
      mergedRow table place t ::
        mergedRows table (if NewlyWhitelisted table t then place + 1 else place) ts

theorem mergedRow_some {place : Int} (h : itemToUpdate table t = some item) :
    mergedRow table place t = updatedItem item t := by
  rw [mergedRow, h]

theorem mergedRow_new {place : Int} (h : NewlyWhitelisted table t) :
    mergedRow table place t = t.updateSortingId (some place) := by
  obtain ⟨hwhite, hnone⟩ := newlyWhitelisted_iff.mp h
  rw [mergedRow, hnone]
  exact if_pos hwhite

theorem mergedRow_same {place : Int} (h : itemToUpdate table t = none)
    (hstatus : t.status ≠ .whitelisted) : mergedRow table place t = t := by
  rw [mergedRow, h]
  exact if_neg hstatus

/-- Where a row of a merge comes from. -/
theorem mergedRow_cases (table : TokenTable) (place : Int) (t : TokenListItem) :
    (∃ item, itemToUpdate table t = some item ∧ mergedRow table place t = updatedItem item t) ∨
      (NewlyWhitelisted table t ∧ mergedRow table place t = t.updateSortingId (some place)) ∨
      (itemToUpdate table t = none ∧ t.status ≠ .whitelisted ∧ mergedRow table place t = t) := by
  cases hitem : itemToUpdate table t with
  | some item => exact .inl ⟨item, rfl, mergedRow_some hitem⟩
  | none =>
      by_cases hstatus : t.status = .whitelisted
      · have hnew := newlyWhitelisted_iff.mpr ⟨hstatus, hitem⟩
        exact .inr (.inl ⟨hnew, mergedRow_new hnew⟩)
      · exact .inr (.inr ⟨rfl, hstatus, mergedRow_same hitem hstatus⟩)

theorem mergedRow_info (table : TokenTable) (place : Int) (t : TokenListItem) :
    (mergedRow table place t).token = t.token ∧
      (mergedRow table place t).canPayTransactionFee = t.canPayTransactionFee := by
  rcases mergedRow_cases table place t with ⟨item, -, hrow⟩ | ⟨-, hrow⟩ | ⟨-, -, hrow⟩
  · rw [hrow]
    exact ⟨rfl, rfl⟩
  · rw [hrow]
    exact ⟨rfl, rfl⟩
  · rw [hrow]
    exact ⟨rfl, rfl⟩

theorem id_mergedRow (table : TokenTable) (place : Int) (t : TokenListItem) :
    (mergedRow table place t).id = t.id :=
  congrArg Token.id (mergedRow_info table place t).1

theorem ids_mergedRows (table : TokenTable) (place : Int) (tokenList : List TokenListItem) :
    (mergedRows table place tokenList).map (·.id) = tokenList.map (·.id) := by
  induction tokenList generalizing place with
  | nil => rfl
  | cons t ts ih => rw [mergedRows, List.map_cons, List.map_cons, ih, id_mergedRow]

theorem exists_place_of_mem {place : Int} (h : item ∈ mergedRows table place tokenList) :
    ∃ t ∈ tokenList, ∃ n, item = mergedRow table n t := by
  induction tokenList generalizing place with
  | nil => cases h
  | cons t ts ih =>
      rcases List.mem_cons.mp h with rfl | h
      · exact ⟨t, List.mem_cons_self, place, rfl⟩
      · obtain ⟨t', ht', hn⟩ := ih h
        exact ⟨t', List.mem_cons_of_mem t ht', hn⟩

theorem exists_mergedRow_mem (table : TokenTable) (place : Int) (h : t ∈ tokenList) :
    ∃ n, mergedRow table n t ∈ mergedRows table place tokenList := by
  induction tokenList generalizing place with
  | nil => cases h
  | cons t' ts ih =>
      rcases List.mem_cons.mp h with rfl | h
      · exact ⟨place, List.mem_cons_self⟩
      · obtain ⟨n, hn⟩ := ih _ h
        exact ⟨n, List.mem_cons_of_mem _ hn⟩

/-- The items that are new to the whitelist get one place after the other. -/
theorem mergedRow_place {place : Int} {k : Nat}
    (h : (tokenList.filter (NewlyWhitelisted table ·))[k]? = some t) :
    t.updateSortingId (some (place + k)) ∈ mergedRows table place tokenList := by
  induction tokenList generalizing place k with
  | nil => cases h
  | cons t' ts ih =>
      rw [mergedRows, List.mem_cons]
      by_cases hnew : NewlyWhitelisted table t'
      · rw [List.filter_cons, if_pos (decide_eq_true hnew)] at h
        rw [if_pos hnew]
        cases k with
        | zero =>
            obtain rfl := Option.some.inj h
            have hplace : place + ((0 : Nat) : Int) = place := by omega
            rw [hplace, mergedRow_new hnew]
            exact .inl rfl
        | succ k =>
            have hplace : place + 1 + (k : Int) = place + ((k + 1 : Nat) : Int) := by omega
            rw [← hplace]
            exact .inr (ih h)
      · rw [List.filter_cons, if_neg (by simpa using hnew)] at h
        rw [if_neg hnew]
        exact .inr (ih h)

/-- The passes of the merge make these rows. -/
theorem savedRows_perm (table : TokenTable) (place : Int) (tokenList : List TokenListItem) :
    (updatedItems table tokenList ++ savedRows place (remainingTokenItems table tokenList)).Perm
      (mergedRows table place tokenList) := by
  induction tokenList generalizing place with
  | nil => exact List.Perm.refl _
  | cons t ts ih =>
      rw [mergedRows]
      cases hitem : itemToUpdate table t with
      | some item =>
          have hnot : ¬ NewlyWhitelisted table t := by
            rw [newlyWhitelisted_iff, hitem]
            rintro ⟨-, hnone⟩
            cases hnone
          rw [if_neg hnot, mergedRow_some hitem]
          have hupdated : updatedItems table (t :: ts) = updatedItem item t :: updatedItems table ts :=
            List.filterMap_cons_some (by rw [hitem]; rfl)
          have hremaining : remainingTokenItems table (t :: ts) = remainingTokenItems table ts :=
            List.filter_cons_of_neg (by simp [hitem])
          rw [hupdated, hremaining]
          exact (ih place).cons _
      | none =>
          have hupdated : updatedItems table (t :: ts) = updatedItems table ts :=
            List.filterMap_cons_none (by rw [hitem]; rfl)
          have hremaining : remainingTokenItems table (t :: ts) = t :: remainingTokenItems table ts :=
            List.filter_cons_of_pos (by simp [hitem])
          rw [hupdated, hremaining, savedRows]
          by_cases hstatus : t.status = .whitelisted
          · have hnew := newlyWhitelisted_iff.mpr ⟨hstatus, hitem⟩
            rw [if_pos hstatus, if_pos hnew, mergedRow_new hnew]
            exact List.perm_middle.trans ((ih (place + 1)).cons _)
          · have hnot : ¬ NewlyWhitelisted table t := fun hnew => hstatus hnew.1
            rw [if_neg hstatus, if_neg hnot, mergedRow_same hitem hstatus]
            exact List.perm_middle.trans ((ih place).cons _)

/-- The whitelisted items that the list does not have. -/
def keptItems (table : TokenTable) (tokenList : List TokenListItem) : TokenTable :=
  table.filter fun i => i.status = .whitelisted ∧ i.id ∉ tokenList.map (·.id)

theorem mem_of_mem_remaining (h : t ∈ remainingTokenItems table tokenList) : t ∈ tokenList :=
  List.mem_of_mem_filter h

theorem ids_remaining (table : TokenTable) (h : (tokenList.map (·.id)).Nodup) :
    ((remainingTokenItems table tokenList).map (·.id)).Nodup :=
  h.sublist (List.filter_sublist.map _)

/-- After the second pass no remaining token is shown. -/
theorem remaining_noneShown {updated : TokenTable} (hperm : (updated.map key).Perm
      ((deleteStoredTokenItemsThatAreNotInList table tokenList).map key)) :
    NoneShown updated (remainingTokenItems table tokenList) := by
  intro t ht i hi hid hwhite
  obtain ⟨j, hj, hkey⟩ := exists_key hperm hi
  obtain ⟨hjid, hjstatus, -⟩ := Key.mk.inj hkey
  rcases itemToUpdate_isNone.mp (List.mem_filter.mp ht).2 j (List.mem_of_mem_filter hj) with
    hregular | hne
  · rw [hjstatus, hwhite] at hregular
    cases hregular
  · exact hne (hjid.trans hid)

/-- A merge of different tokens, row by row. -/
theorem merge_rows (ho : table.Ordered) (hids : (tokenList.map (·.id)).Nodup)
    (hether : ∀ t ∈ tokenList, t.id ≠ Token.Ether.id)
    (h : mergeStoredTokenItems table tokenList = .ok table') :
    ∃ place, (∀ i ∈ table, i.status = .whitelisted → ∀ m, i.sortingId = some m → m < place) ∧
      table'.Perm (keptItems table tokenList ++ mergedRows table place tokenList) := by
  obtain ⟨updated, hupdated, h⟩ := bind_ok.mp h
  rw [remainingTokenItems_deleted] at h
  have hstored : (deleteStoredTokenItemsThatAreNotInList table tokenList).Ordered := ho.filter _
  obtain ⟨hsaved, hperm⟩ := saveAll_updatedItems hstored.ids hether
  have hfold := Except.ok.inj (hupdated.symm.trans hsaved)
  rw [← hfold] at hperm
  have hshown : ∀ i ∈ table, i.status = .whitelisted → ∀ m, i.sortingId = some m →
      m < nextPlace updated := by
    intro i hi hwhite m hm
    obtain ⟨j, hj, -, hwhite', hm'⟩ := at_of_keys hperm.symm (at_deleted.mpr ⟨i, hi, rfl, hwhite, hm⟩)
    exact lt_new_place (hstored.of_keys hperm).placed hj hwhite' hm'
  have hrows := saveAll_savedRows (hstored.of_keys hperm).placed
    (ids_remaining table hids) (fun t ht => hether t (mem_of_mem_remaining ht))
    (remaining_noneShown hperm) h
  -- all passes together, as one list of replaced rows
  have hmerged := savedRows_perm table (nextPlace updated) tokenList
  have hmergedIds := hmerged.map (·.id)
  rw [ids_mergedRows] at hmergedIds
  rw [updatedItems_deleted] at hfold
  have hall : table' = (updatedItems table tokenList ++ savedRows (nextPlace updated)
      (remainingTokenItems table tokenList)).foldl replaceRow
        (deleteStoredTokenItemsThatAreNotInList table tokenList) := by
    rw [List.foldl_append, ← hfold]
    exact hrows
  refine ⟨nextPlace updated, hshown, ?_⟩
  rw [hall]
  refine (List.Perm.of_eq (Rows.foldl_replaced TokenListItem.id (hmergedIds.nodup_iff.mpr hids))).trans ?_
  refine List.Perm.append (List.Perm.of_eq ?_) hmerged
  unfold keptItems deleteStoredTokenItemsThatAreNotInList
  rw [List.filter_filter]
  refine List.filter_congr fun i _ => ?_
  rw [Bool.eq_iff_iff]
  simp only [Bool.and_eq_true, decide_eq_true_eq]
  rw [hmergedIds.mem_iff]
  tauto

/-- A merge returns while there are places left for the list. -/
theorem mergeStoredTokenItems_returns (ho : table.Ordered) (hids : (tokenList.map (·.id)).Nodup)
    (hether : ∀ t ∈ tokenList, t.id ≠ Token.Ether.id) (hlength : tokenList.length ≤ 2 ^ 63)
    (hroom : ∀ i ∈ table, i.status = .whitelisted → ∀ m, i.sortingId = some m →
      -2 ^ 63 ≤ m ∧ m + tokenList.length < 2 ^ 63) :
    ∃ table', mergeStoredTokenItems table tokenList = .ok table' := by
  have hstored : (deleteStoredTokenItemsThatAreNotInList table tokenList).Ordered := ho.filter _
  obtain ⟨hsaved, hperm⟩ := saveAll_updatedItems hstored.ids hether
  have hremaining : (remainingTokenItems table tokenList).length ≤ tokenList.length :=
    List.length_filter_le _ _
  obtain ⟨updated, hupdated⟩ : ∃ updated,
      saveAll (deleteStoredTokenItemsThatAreNotInList table tokenList)
        (updatedItems (deleteStoredTokenItemsThatAreNotInList table tokenList) tokenList) =
          .ok updated := ⟨_, hsaved⟩
  rw [← Except.ok.inj (hupdated.symm.trans hsaved)] at hperm
  have hroom' : ∀ i ∈ updated, i.status = .whitelisted → ∀ m, i.sortingId = some m →
      -2 ^ 63 ≤ m ∧ m + tokenList.length < 2 ^ 63 := by
    intro i hi hwhite m hm
    obtain ⟨j, hj, -, hwhite', hm'⟩ := at_of_keys hperm ⟨i, hi, rfl, hwhite, hm⟩
    exact hroom j (List.mem_of_mem_filter hj) hwhite' m hm'
  obtain ⟨hlow, hhigh⟩ := nextPlace_room hlength hroom'
  obtain ⟨table', hsave⟩ := saveAll_returns (hstored.of_keys hperm).placed
    (ids_remaining table hids) (fun t ht => hether t (mem_of_mem_remaining ht))
    (remaining_noneShown hperm) hlow (by omega)
  rw [← remainingTokenItems_deleted] at hsave
  exact ⟨table', bind_ok.mpr ⟨_, hupdated, hsave⟩⟩

/-! ### The law -/

/-- What a merge leaves. -/
structure Merged (table : TokenTable) (tokenList : List TokenListItem) (table' : TokenTable) :
    Prop where
  ids : (table'.map (·.id)).Nodup
  whitelisted : ∀ i ∈ table, i.status = .whitelisted →
    ∃ i' ∈ table', i'.id = i.id ∧ i'.status = .whitelisted ∧ i'.sortingId = i.sortingId
  blacklisted : ∀ i ∈ table, i.status = .blacklisted →
    (i.id ∈ table'.map (·.id) ↔ i.id ∈ tokenList.map (·.id)) ∧
      ∀ i' ∈ table', i'.id = i.id → i'.status = .blacklisted
  regular : ∀ i ∈ table, i.status = .regular →
    (i.id ∈ table'.map (·.id) ↔ i.id ∈ tokenList.map (·.id)) ∧
      ∀ i' ∈ table', ∀ t ∈ tokenList, i'.id = i.id → t.id = i.id → i'.status = t.status
  incoming : ∀ t ∈ tokenList, ∃ i' ∈ table', i'.token = t.token ∧
    i'.canPayTransactionFee = t.canPayTransactionFee ∧
      (t.id ∉ table.map (·.id) → i'.status = t.status)
  /-- The items new to the whitelist, in the order of the list. -/
  places : ∃ place, (∀ i ∈ table, i.status = .whitelisted → ∀ m, i.sortingId = some m → m < place) ∧
    ∀ (k : Nat) t, (tokenList.filter (NewlyWhitelisted table ·))[k]? = some t →
      ∃ i' ∈ table', i'.token = t.token ∧ i'.status = .whitelisted ∧
        i'.sortingId = some (place + k)
  only : ∀ i' ∈ table', (i' ∈ table ∧ i'.status = .whitelisted) ∨ i'.id ∈ tokenList.map (·.id)

theorem itemToUpdate_some (h : itemToUpdate table t = some item) :
    item ∈ table ∧ item.id = t.id ∧ item.status ≠ .regular := by
  obtain ⟨hmem, hstatus⟩ := List.mem_filter.mp (List.mem_of_find?_eq_some h)
  refine ⟨hmem, by simpa using List.find?_some h, fun hregular => ?_⟩
  rw [hregular] at hstatus
  cases hstatus

theorem itemToUpdate_eq (hids : (table.map (·.id)).Nodup) (hitem : item ∈ table)
    (hid : item.id = t.id) (hstatus : item.status ≠ .regular) :
    itemToUpdate table t = some item := by
  cases hfound : itemToUpdate table t with
  | none =>
      rcases itemToUpdate_isNone.mp (Option.isNone_iff_eq_none.mpr hfound) item hitem with hregular | hne
      · exact absurd hregular hstatus
      · exact absurd hid hne
  | some other =>
      obtain ⟨hother, hotherId, -⟩ := itemToUpdate_some hfound
      rw [eq_of_id hids hother hitem (hotherId.trans hid.symm)]

section Law

variable {place : Int} (ho : table.Ordered) (hids : (tokenList.map (·.id)).Nodup)
  (hperm : table'.Perm (keptItems table tokenList ++ mergedRows table place tokenList))

include hperm

theorem mem_merged {i' : TokenListItem} :
    i' ∈ table' ↔ i' ∈ keptItems table tokenList ∨ i' ∈ mergedRows table place tokenList := by
  rw [hperm.mem_iff, List.mem_append]

omit hperm in
theorem mem_keptItems {i : TokenListItem} :
    i ∈ keptItems table tokenList ↔
      i ∈ table ∧ i.status = .whitelisted ∧ i.id ∉ tokenList.map (·.id) := by
  simp only [keptItems, List.mem_filter, decide_eq_true_eq]

include ho hids in
theorem merged_ids : (table'.map (·.id)).Nodup := by
  rw [(hperm.map (·.id)).nodup_iff, List.map_append, ids_mergedRows, List.nodup_append]
  refine ⟨ho.ids.sublist (List.filter_sublist.map _), hids, ?_⟩
  intro id hid id' hid' heq
  obtain ⟨i, hi, rfl⟩ := List.mem_map.mp hid
  exact (mem_keptItems.mp hi).2.2 (heq ▸ hid')

/-- The token of an item of the list has a row. -/
theorem merged_of_mem (ht : t ∈ tokenList) : ∃ n, mergedRow table n t ∈ table' := by
  obtain ⟨n, hn⟩ := exists_mergedRow_mem table place ht
  exact ⟨n, (mem_merged hperm).mpr (.inr hn)⟩

include ho in
/-- The row of a stored token that is not whitelisted is for an item of the list. -/
theorem merged_of_stored {i i' : TokenListItem} (hi : i ∈ table) (hstatus : i.status ≠ .whitelisted)
    (hi' : i' ∈ table') (hid : i'.id = i.id) :
    ∃ t ∈ tokenList, t.id = i.id ∧ ∃ n, i' = mergedRow table n t := by
  rcases (mem_merged hperm).mp hi' with hkept | hrow
  · obtain ⟨hmem, hwhite, -⟩ := mem_keptItems.mp hkept
    rw [eq_of_id ho.ids hmem hi hid] at hwhite
    exact absurd hwhite hstatus
  · obtain ⟨t, ht, n, rfl⟩ := exists_place_of_mem hrow
    exact ⟨t, ht, (id_mergedRow table n t).symm.trans hid, n, rfl⟩

include ho in
theorem merged_mem_iff {i : TokenListItem} (hi : i ∈ table) (hstatus : i.status ≠ .whitelisted) :
    i.id ∈ table'.map (·.id) ↔ i.id ∈ tokenList.map (·.id) := by
  constructor
  · intro hmem
    obtain ⟨i', hi', hid⟩ := List.mem_map.mp hmem
    obtain ⟨t, ht, htid, -⟩ := merged_of_stored ho hperm hi hstatus hi' hid
    exact List.mem_map.mpr ⟨t, ht, htid⟩
  · intro hmem
    obtain ⟨t, ht, hid⟩ := List.mem_map.mp hmem
    obtain ⟨n, hn⟩ := merged_of_mem hperm ht
    exact List.mem_map.mpr ⟨_, hn, (id_mergedRow table n t).trans hid⟩

include ho hids in
theorem merged_of_rows
    (hplace : ∀ i ∈ table, i.status = .whitelisted → ∀ m, i.sortingId = some m → m < place) :
    Merged table tokenList table' where
  ids := merged_ids ho hids hperm
  whitelisted i hi hwhite := by
    by_cases hmem : i.id ∈ tokenList.map (·.id)
    · obtain ⟨t, ht, hid⟩ := List.mem_map.mp hmem
      obtain ⟨n, hn⟩ := merged_of_mem hperm ht
      have hstored := itemToUpdate_eq ho.ids hi hid.symm (by rw [hwhite]; decide)
      rw [mergedRow_some hstored] at hn
      exact ⟨updatedItem i t, hn, hid, hwhite, rfl⟩
    · exact ⟨i, (mem_merged hperm).mpr (.inl (mem_keptItems.mpr ⟨hi, hwhite, hmem⟩)), rfl, hwhite, rfl⟩
  blacklisted i hi hblack := by
    have hstatus : i.status ≠ .whitelisted := by rw [hblack]; decide
    refine ⟨merged_mem_iff ho hperm hi hstatus, fun i' hi' hid => ?_⟩
    obtain ⟨t, -, htid, n, rfl⟩ := merged_of_stored ho hperm hi hstatus hi' hid
    rw [mergedRow_some (itemToUpdate_eq ho.ids hi htid.symm (by rw [hblack]; decide))]
    exact hblack
  regular i hi hregular := by
    have hstatus : i.status ≠ .whitelisted := by rw [hregular]; decide
    refine ⟨merged_mem_iff ho hperm hi hstatus, fun i' hi' t ht hid htid => ?_⟩
    obtain ⟨t', ht', htid', n, rfl⟩ := merged_of_stored ho hperm hi hstatus hi' hid
    obtain rfl : t' = t := List.inj_on_of_nodup_map hids ht' ht (htid'.trans htid.symm)
    rcases mergedRow_cases table n t' with ⟨item, hitem, -⟩ | ⟨-, hrow⟩ | ⟨-, -, hrow⟩
    · obtain ⟨hmem, hitemId, hne⟩ := itemToUpdate_some hitem
      rw [eq_of_id ho.ids hmem hi (hitemId.trans htid)] at hne
      exact absurd hregular hne
    · rw [hrow]
      rfl
    · rw [hrow]
  incoming t ht := by
    obtain ⟨n, hn⟩ := merged_of_mem hperm ht
    obtain ⟨htoken, hfee⟩ := mergedRow_info table n t
    refine ⟨_, hn, htoken, hfee, fun hnew => ?_⟩
    rcases mergedRow_cases table n t with ⟨item, hitem, -⟩ | ⟨-, hrow⟩ | ⟨-, -, hrow⟩
    · obtain ⟨hmem, hid, -⟩ := itemToUpdate_some hitem
      exact absurd (List.mem_map.mpr ⟨item, hmem, hid⟩) hnew
    · rw [hrow]
      rfl
    · rw [hrow]
  places := by
    refine ⟨place, hplace, fun k t ht => ?_⟩
    have hmem := (mem_merged hperm).mpr (.inr (mergedRow_place ht))
    have hnew : NewlyWhitelisted table t :=
      of_decide_eq_true (List.mem_filter.mp (List.mem_of_getElem? ht)).2
    exact ⟨_, hmem, rfl, hnew.1, rfl⟩
  only i' hi' := by
    rcases (mem_merged hperm).mp hi' with hkept | hrow
    · obtain ⟨hmem, hwhite, -⟩ := mem_keptItems.mp hkept
      exact .inl ⟨hmem, hwhite⟩
    · obtain ⟨t, ht, n, rfl⟩ := exists_place_of_mem hrow
      exact .inr (List.mem_map.mpr ⟨t, ht, (id_mergedRow table n t).symm⟩)

/-! ### The same list again -/

/-- An item of the list that keeps no status is stored as it is, and is not shown. -/
theorem remaining_mem (h : t ∈ remainingTokenItems table' tokenList) :
    t ∈ table' ∧ t.status = .regular := by
  obtain ⟨ht, hnone⟩ := List.mem_filter.mp h
  obtain ⟨n, hn⟩ := merged_of_mem hperm ht
  have hregular : (mergedRow table n t).status = .regular :=
    (itemToUpdate_isNone.mp hnone _ hn).resolve_right fun hne => hne (id_mergedRow table n t)
  rcases mergedRow_cases table n t with ⟨item, hitem, hrow⟩ | ⟨hnew, hrow⟩ | ⟨-, -, hrow⟩
  · rw [hrow] at hregular
    exact absurd hregular (itemToUpdate_some hitem).2.2
  · rw [hrow] at hregular
    exact absurd (hnew.1.symm.trans hregular) (by decide)
  · rw [hrow] at hn hregular
    exact ⟨hn, hregular⟩

include ho hids in
/-- An item that keeps its status is updated to itself. -/
theorem updated_mem (h : item ∈ updatedItems table' tokenList) : item ∈ table' := by
  obtain ⟨t, ht, hitem⟩ := List.mem_filterMap.mp h
  obtain ⟨stored, hstored, rfl⟩ := Option.map_eq_some_iff.mp hitem
  obtain ⟨hmem, hid, -⟩ := itemToUpdate_some hstored
  obtain ⟨n, hn⟩ := merged_of_mem hperm ht
  obtain rfl := eq_of_id (merged_ids ho hids hperm) hmem hn (hid.trans (id_mergedRow table n t).symm)
  obtain ⟨htoken, hfee⟩ := mergedRow_info table n t
  have hsame : updatedItem (mergedRow table n t) t = mergedRow table n t := by
    rw [updatedItem, ← htoken, ← hfee]
  rw [hsame]
  exact hmem

include ho hids in
theorem merge_again (hether : ∀ t ∈ tokenList, t.id ≠ Token.Ether.id) :
    ∃ again, mergeStoredTokenItems table' tokenList = .ok again ∧ again.Perm table' := by
  have hids' := merged_ids ho hids hperm
  have hdeleted : deleteStoredTokenItemsThatAreNotInList table' tokenList = table' := by
    refine List.filter_eq_self.mpr fun i hi => decide_eq_true ?_
    rcases (mem_merged hperm).mp hi with hkept | hrow
    · exact .inl (mem_keptItems.mp hkept).2.1
    · obtain ⟨t, ht, n, rfl⟩ := exists_place_of_mem hrow
      exact .inr (List.mem_map.mpr ⟨t, ht, (id_mergedRow table n t).symm⟩)
  obtain ⟨hupdated, hkeys⟩ := saveAll_updatedItems hids' hether
  have hnone : NoneShown ((updatedItems table' tokenList).foldl replaceRow table')
      (remainingTokenItems table' tokenList) := by
    intro t ht i hi hid hwhite
    obtain ⟨hmem, hregular⟩ := remaining_mem hperm ht
    obtain ⟨j, hj, hkey⟩ := exists_key hkeys hi
    obtain ⟨hjid, hjstatus, -⟩ := Key.mk.inj hkey
    obtain rfl := eq_of_id hids' hj hmem (hjid.trans hid)
    exact absurd (hregular.symm.trans (hjstatus.trans hwhite)) (by decide)
  have hremaining := saveAll_regular (ids_remaining table' hids)
    (fun t ht => hether t (mem_of_mem_remaining ht)) hnone
    (fun t ht => by
      rw [(remaining_mem hperm ht).2]
      decide)
  have hstored : ∀ item ∈ updatedItems table' tokenList ++ remainingTokenItems table' tokenList,
      item ∈ table' := by
    intro item hitem
    rcases List.mem_append.mp hitem with hitem | hitem
    · exact updated_mem ho hids hperm hitem
    · exact (remaining_mem hperm hitem).1
  refine ⟨_, ?_, Rows.foldl_replaced_perm TokenListItem.id hids' hstored⟩
  rw [mergeStoredTokenItems, hdeleted, hupdated, List.foldl_append]
  exact hremaining

end Law

namespace Sample

/-- A token under its name. -/
def named (address name : Char) : Token := ⟨[name], [name], 18, ⟨[address]⟩, []⟩

/-- `a` is shown, `d` is hidden by the user. -/
def stored : TokenTable :=
  [⟨named 'a' 'a', .whitelisted, true, some 0⟩, ⟨named 'b' 'b', .regular, true, none⟩,
    ⟨named 'c' 'c', .regular, true, none⟩, ⟨named 'd' 'd', .blacklisted, false, none⟩]

/-- The server shows `b` and `d`, does not know `c` any more, and has the new token `e`. -/
def latest : List TokenListItem :=
  [⟨named 'a' 'x', .regular, true, none⟩, ⟨named 'b' 'x', .whitelisted, true, none⟩,
    ⟨named 'd' 'x', .whitelisted, true, none⟩, ⟨named 'e' 'e', .whitelisted, false, none⟩]

def after : TokenTable :=
  [⟨named 'a' 'x', .whitelisted, true, some 0⟩, ⟨named 'd' 'x', .blacklisted, true, none⟩,
    ⟨named 'b' 'x', .whitelisted, true, some 1⟩, ⟨named 'e' 'e', .whitelisted, false, some 2⟩]

end Sample

end TokenListMerger

end MultisigWallet
