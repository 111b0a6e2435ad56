import MultisigWallet.Lib.Rows
import MultisigWallet.Lib.Transition
import MultisigWallet.TokenList

/-!
# MultisigWallet.TokenListSound

When the display order of the tokens is well defined. `TokenTable.Ordered` is the invariant: the
whitelisted items have different sorting identifiers and the other items have none.

Saving keeps it as long as a whitelisted item is saved with its sorting identifier or is new to
the whitelist. The three ways around that are a token that is whitelisted twice, because
`whitelist(_:)` makes a new item; a list that has one token twice; and an arrangement that gives
two tokens one place. `TokenCall.Orderly` excludes exactly these.
-/

namespace MultisigWallet

namespace TokenTable

/-- The display order is well defined. -/
structure Ordered (table : TokenTable) : Prop where
  ids : (table.map (·.id)).Nodup
  placed : ∀ i ∈ table, i.status = .whitelisted → i.sortingId ≠ none
  hidden : ∀ i ∈ table, i.status ≠ .whitelisted → i.sortingId = none
  distinct : ∀ i ∈ table, ∀ j ∈ table, i.status = .whitelisted → j.status = .whitelisted →
    i.sortingId = j.sortingId → i.id = j.id

/-- `id` is shown at the place `n`. -/
def At (table : TokenTable) (id : TokenID) (n : Int) : Prop :=
  ∃ i ∈ table, i.id = id ∧ i.status = .whitelisted ∧ i.sortingId = some n

theorem eq_of_id {table : TokenTable} (h : (table.map (·.id)).Nodup) {i j : TokenListItem}
    (hi : i ∈ table) (hj : j ∈ table) (hid : i.id = j.id) : i = j :=
  List.inj_on_of_nodup_map h hi hj hid

theorem ordered_nil : Ordered [] := by
  constructor <;> simp

/-- What the order depends on. -/
structure Key where
  id : TokenID
  status : TokenListItemStatus
  sortingId : Option Int

def key (i : TokenListItem) : Key := ⟨i.id, i.status, i.sortingId⟩

/-- A row with the same key, if the keys are the same. -/
theorem exists_key {table table' : TokenTable} (hperm : (table'.map key).Perm (table.map key))
    {i : TokenListItem} (hi : i ∈ table') : ∃ j ∈ table, key j = key i :=
  List.mem_map.mp (hperm.mem_iff.mp (List.mem_map_of_mem hi))

theorem ids_of_keys {table table' : TokenTable} (hperm : (table'.map key).Perm (table.map key))
    (hids : (table.map (·.id)).Nodup) : (table'.map (·.id)).Nodup := by
  have hids' := hperm.map Key.id
  rw [List.map_map, List.map_map] at hids'
  exact hids'.nodup_iff.mpr hids

theorem Ordered.of_keys {table table' : TokenTable} (h : table.Ordered)
    (hperm : (table'.map key).Perm (table.map key)) : table'.Ordered where
  ids := ids_of_keys hperm h.ids
  placed i hi hwhite := by
    obtain ⟨j, hj, hkey⟩ := exists_key hperm hi
    obtain ⟨-, hstatus, hplace⟩ := Key.mk.inj hkey
    exact hplace ▸ h.placed j hj (hstatus.trans hwhite)
  hidden i hi hwhite := by
    obtain ⟨j, hj, hkey⟩ := exists_key hperm hi
    obtain ⟨-, hstatus, hplace⟩ := Key.mk.inj hkey
    exact hplace ▸ h.hidden j hj (hstatus ▸ hwhite)
  distinct i hi j hj hwhite hwhite' heq := by
    obtain ⟨i', hi', hkey⟩ := exists_key hperm hi
    obtain ⟨j', hj', hkey'⟩ := exists_key hperm hj
    obtain ⟨hid, hstatus, hplace⟩ := Key.mk.inj hkey
    obtain ⟨hid', hstatus', hplace'⟩ := Key.mk.inj hkey'
    rw [← hid, ← hid']
    exact h.distinct i' hi' j' hj' (hstatus.trans hwhite) (hstatus'.trans hwhite')
      (by rw [hplace, hplace', heq])

theorem at_of_keys {table table' : TokenTable} (hperm : (table'.map key).Perm (table.map key))
    {id : TokenID} {n : Int} (h : table'.At id n) : table.At id n := by
  obtain ⟨i, hi, rfl, hwhite, hn⟩ := h
  obtain ⟨j, hj, hkey⟩ := exists_key hperm hi
  obtain ⟨hid, hstatus, hplace⟩ := Key.mk.inj hkey
  exact ⟨j, hj, hid, hstatus.trans hwhite, hplace.trans hn⟩

theorem Ordered.filter {table : TokenTable} (h : table.Ordered) (p : TokenListItem → Bool) :
    Ordered (table.filter p) where
  ids := h.ids.sublist (List.filter_sublist.map _)
  placed i hi := h.placed i (List.mem_of_mem_filter hi)
  hidden i hi := h.hidden i (List.mem_of_mem_filter hi)
  distinct i hi j hj := h.distinct i (List.mem_of_mem_filter hi) j (List.mem_of_mem_filter hj)

/-- A place has one token. -/
theorem Ordered.at_inj {table : TokenTable} (h : table.Ordered) {a b : TokenID} {n : Int}
    (ha : table.At a n) (hb : table.At b n) : a = b := by
  obtain ⟨i, hi, rfl, hwhite, hn⟩ := ha
  obtain ⟨j, hj, rfl, hwhite', hn'⟩ := hb
  exact h.distinct i hi j hj hwhite hwhite' (hn.trans hn'.symm)

/-- A token has one place. -/
theorem Ordered.at_unique {table : TokenTable} (h : table.Ordered) {id : TokenID} {m n : Int}
    (hm : table.At id m) (hn : table.At id n) : m = n := by
  obtain ⟨i, hi, hid, -, hm⟩ := hm
  obtain ⟨j, hj, hid', -, hn⟩ := hn
  rw [eq_of_id h.ids hi hj (hid.trans hid'.symm), hn] at hm
  exact (Option.some.inj hm).symm

end TokenTable

@[simp] theorem TokenListItem.id_updateSortingId (i : TokenListItem) (n : Option Int) :
    (i.updateSortingId n).id = i.id := rfl

@[simp] theorem TokenListItem.status_updateSortingId (i : TokenListItem) (n : Option Int) :
    (i.updateSortingId n).status = i.status := rfl

@[simp] theorem TokenListItem.sortingId_updateSortingId (i : TokenListItem) (n : Option Int) :
    (i.updateSortingId n).sortingId = n := rfl

namespace DBTokenListItemRepository

open TokenTable

variable {table table' : TokenTable} {item : TokenListItem} {id : TokenID}

/-! ### Rows -/

theorem mem_replaceRow {i : TokenListItem} :
    i ∈ replaceRow table item ↔ (i ∈ table ∧ i.id ≠ item.id) ∨ i = item := by
  simp [replaceRow]

theorem ids_replaceRow (h : (table.map (·.id)).Nodup) :
    ((replaceRow table item).map (·.id)).Nodup :=
  Rows.nodup_replaced TokenListItem.id h rfl

/-- What `find(id:)` says of a token, and what is in the table. -/
theorem find_whitelisted (h : (table.map (·.id)).Nodup) {i : TokenListItem} (hi : i ∈ table)
    (hid : i.id = id) (hwhite : i.status = .whitelisted) :
    (find table id).any (·.status = .whitelisted) = true := by
  unfold find
  split
  · rfl
  · cases hfind : table.find? (·.id = id) with
    | none => exact absurd (List.find?_eq_none.mp hfind i hi) (by simpa using hid)
    | some j =>
        have hj : j.id = id := by simpa using List.find?_some hfind
        rw [eq_of_id h (List.mem_of_find?_eq_some hfind) hi (hj.trans hid.symm)]
        simpa using hwhite

theorem exists_of_find_whitelisted (hether : id ≠ Token.Ether.id)
    (h : (find table id).any (·.status = .whitelisted) = true) :
    ∃ i ∈ table, i.id = id ∧ i.status = .whitelisted := by
  rw [find, if_neg hether] at h
  cases hfind : table.find? (·.id = id) with
  | none => simp [hfind] at h
  | some i =>
      exact ⟨i, List.mem_of_find?_eq_some hfind, by simpa using List.find?_some hfind,
        by simpa [hfind] using h⟩

/-- The row of an item that has the right sorting identifier. -/
theorem Ordered.replaceRow (h : table.Ordered)
    (hplaced : item.status = .whitelisted → item.sortingId ≠ none ∧
      ∀ i ∈ table, i.id ≠ item.id → i.status = .whitelisted → i.sortingId ≠ item.sortingId)
    (hhidden : item.status ≠ .whitelisted → item.sortingId = none) :
    (replaceRow table item).Ordered where
  ids := ids_replaceRow h.ids
  placed i hi hwhite := by
    rcases mem_replaceRow.mp hi with ⟨hi, -⟩ | rfl
    · exact h.placed i hi hwhite
    · exact (hplaced hwhite).1
  hidden i hi hwhite := by
    rcases mem_replaceRow.mp hi with ⟨hi, -⟩ | rfl
    · exact h.hidden i hi hwhite
    · exact hhidden hwhite
  distinct i hi j hj hwhite hwhite' heq := by
    rcases mem_replaceRow.mp hi with ⟨himem, hne⟩ | hieq
    · rcases mem_replaceRow.mp hj with ⟨hjmem, -⟩ | rfl
      · exact h.distinct i himem j hjmem hwhite hwhite' heq
      · exact absurd heq ((hplaced hwhite').2 i himem hne hwhite)
    · rcases mem_replaceRow.mp hj with ⟨hjmem, hne⟩ | hjeq
      · rw [hieq] at heq hwhite
        exact absurd heq.symm ((hplaced hwhite).2 j hjmem hne hwhite')
      · rw [hieq, hjeq]

theorem at_replaceRow (hne : id ≠ item.id) {n : Int} :
    (replaceRow table item).At id n ↔ table.At id n := by
  constructor
  · rintro ⟨i, hi, rfl, hrest⟩
    rcases mem_replaceRow.mp hi with ⟨hi, -⟩ | rfl
    · exact ⟨i, hi, rfl, hrest⟩
    · exact absurd rfl hne
  · rintro ⟨i, hi, rfl, hrest⟩
    exact ⟨i, mem_replaceRow.mpr (.inl ⟨hi, hne⟩), rfl, hrest⟩

/-! ### The order of the column -/

theorem columnLE_total (a b : Option Int) : columnLE a b = true ∨ columnLE b a = true := by
  cases a <;> cases b <;> simp [columnLE, le_total]

theorem columnLE_trans {a b c : Option Int} (hab : columnLE a b = true) (hbc : columnLE b c = true) :
    columnLE a c = true := by
  cases a <;> cases b <;> cases c <;> simp_all [columnLE]
  omega

theorem whitelisted_sorted (table : TokenTable) :
    (whitelisted table).Pairwise fun a b => columnLE a.sortingId b.sortingId := by
  have : Std.Total fun a b : TokenListItem => columnLE a.sortingId b.sortingId = true :=
    ⟨fun a b => columnLE_total a.sortingId b.sortingId⟩
  have : IsTrans TokenListItem fun a b => columnLE a.sortingId b.sortingId = true :=
    ⟨fun _ _ _ => columnLE_trans⟩
  exact List.pairwise_insertionSort _ _

theorem mem_whitelisted {i : TokenListItem} :
    i ∈ whitelisted table ↔ i ∈ table ∧ i.status = .whitelisted := by
  unfold whitelisted
  rw [List.mem_insertionSort, List.mem_filter]
  simp

/-- A new place is behind all others. -/
theorem lt_new_place (hplaced : ∀ i ∈ table, i.status = .whitelisted → i.sortingId ≠ none)
    {i : TokenListItem} {m : Int} (hi : i ∈ table) (hwhite : i.status = .whitelisted)
    (hm : i.sortingId = some m) :
    m < ((whitelisted table).getLast?.bind (·.sortingId)).getD (-1) + 1 := by
  have hmem := mem_whitelisted.mpr ⟨hi, hwhite⟩
  obtain ⟨last, hlast⟩ := List.getLast?_isSome.mpr (List.ne_nil_of_mem hmem) |> Option.isSome_iff_exists.mp
  obtain ⟨front, hfront⟩ := List.getLast?_eq_some_iff.mp hlast
  have hlastMem := mem_whitelisted.mp (List.mem_of_getLast? hlast)
  have hle : columnLE i.sortingId last.sortingId = true := by
    have hsorted := whitelisted_sorted table
    rw [hfront, List.mem_append, List.mem_singleton] at hmem
    rw [hfront, List.pairwise_append] at hsorted
    rcases hmem with hmem | rfl
    · exact hsorted.2.2 i hmem last List.mem_cons_self
    · simp [columnLE, hm]
  obtain ⟨k, hk⟩ := Option.ne_none_iff_exists'.mp (hplaced last hlastMem.1 hlastMem.2)
  rw [hm, hk] at hle
  have hmk : m ≤ k := by simpa [columnLE] using hle
  rw [hlast]
  simp only [Option.bind_some, hk, Option.getD_some]
  omega

/-! ### Saving -/

/-- An item that is not shown is saved without a place. -/
theorem save_hidden (hstatus : item.status ≠ .whitelisted) (hid : item.sortingId = none) :
    save table item = .ok (replaceRow table item) := by
  have hnone : item.updateSortingId none = item := by
    cases item
    simp_all [TokenListItem.updateSortingId]
  unfold save prepareToSave
  rw [if_pos hstatus, if_neg hstatus]
  split
  · simp [hnone, bind, Except.bind, pure, Except.pure]
  · simp [bind, Except.bind, pure, Except.pure]

/-- An item that is not shown and was not is saved as it is. -/
theorem save_regular (hfind : (find table item.id).any (·.status = .whitelisted) = false)
    (hstatus : item.status ≠ .whitelisted) : save table item = .ok (replaceRow table item) := by
  unfold save prepareToSave
  rw [if_neg (by rw [hfind]; exact Bool.false_ne_true), if_neg hstatus]
  rfl

/-- An item that was shown is saved with the place it brings. -/
theorem save_kept (hfind : (find table item.id).any (·.status = .whitelisted) = true)
    (hstatus : item.status = .whitelisted) : save table item = .ok (replaceRow table item) := by
  unfold save prepareToSave
  simp [hfind, hstatus, bind, Except.bind, pure, Except.pure]

/-- An item that was not shown is put behind the others. -/
theorem save_new (hfind : (find table item.id).any (·.status = .whitelisted) = false)
    (hstatus : item.status = .whitelisted) (h : save table item = .ok table') :
    table' = replaceRow table (item.updateSortingId
      (some (((whitelisted table).getLast?.bind (·.sortingId)).getD (-1) + 1))) := by
  unfold save prepareToSave at h
  simp only [hfind, hstatus, if_true, Bool.false_eq_true, if_false] at h
  obtain ⟨saved, hsaved, h⟩ := bind_ok.mp h
  obtain ⟨n, hn, hsaved⟩ := bind_ok.mp hsaved
  rw [← Except.ok.inj h, ← Except.ok.inj hsaved, ← (addInt_ok.mp hn).2]

/-- A new item keeps the order. -/
theorem Ordered.save_new (ho : table.Ordered)
    (hfind : (find table item.id).any (·.status = .whitelisted) = false)
    (hstatus : item.status = .whitelisted) (h : save table item = .ok table') :
    table'.Ordered := by
  rw [DBTokenListItemRepository.save_new hfind hstatus h]
  refine Ordered.replaceRow ho (fun _ => ⟨by simp, ?_⟩)
    fun hne => absurd hstatus hne
  intro i hi _ hwhite heq
  have hlt := lt_new_place ho.placed hi hwhite heq
  exact lt_irrefl _ hlt

/-! ### Rearranging -/

/-- Where the loop puts `id`: at its last place in the list, or where it was. -/
def place (id : TokenID) : Nat → List Token → Option Int → Option Int
  | _, [], sortingId => sortingId
  | index, token :: tokens, sortingId =>
      place id (index + 1) tokens (if token.id = id then some (index : Int) else sortingId)

/-- An item after the loop. -/
def moved (index : Nat) (tokens : List Token) (i : TokenListItem) : TokenListItem :=
  if i.status = .whitelisted then i.updateSortingId (place i.id index tokens i.sortingId) else i

@[simp] theorem id_moved (index : Nat) (tokens : List Token) (i : TokenListItem) :
    (moved index tokens i).id = i.id := by
  unfold moved
  split <;> rfl

@[simp] theorem status_moved (index : Nat) (tokens : List Token) (i : TokenListItem) :
    (moved index tokens i).status = i.status := by
  unfold moved
  split <;> rfl

theorem place_ne_none {index : Nat} {tokens : List Token} {sortingId : Option Int}
    (h : sortingId ≠ none) : place id index tokens sortingId ≠ none := by
  induction tokens generalizing index sortingId with
  | nil => exact h
  | cons token tokens ih =>
      rw [place]
      split
      · exact ih (by simp)
      · exact ih h

/-- A row replaced is a row changed, up to the order of the rows. -/
theorem replaceRow_perm (h : (table.map (·.id)).Nodup) (hitem : ∃ i ∈ table, i.id = item.id) :
    (replaceRow table item).Perm (table.map fun i => if i.id = item.id then item else i) := by
  induction table with
  | nil => simp at hitem
  | cons i table ih =>
      obtain ⟨hnot, hrest⟩ := List.nodup_cons.mp h
      by_cases hid : i.id = item.id
      · -- no other row has the identifier
        have hother : ∀ j ∈ table, j.id ≠ item.id := fun j hj heq =>
          hnot (List.mem_map.mpr ⟨j, hj, heq.trans hid.symm⟩)
        have hfilter : table.filter (·.id ≠ item.id) = table :=
          List.filter_eq_self.mpr fun j hj => by simpa using hother j hj
        have hmap : (table.map fun i => if i.id = item.id then item else i) = table := by
          refine (List.map_congr_left fun j hj => ?_).trans (List.map_id table)
          rw [if_neg (hother j hj)]
          rfl
        rw [replaceRow, List.filter_cons_of_neg (by simpa using hid), hfilter, List.map_cons,
          if_pos hid, hmap]
        exact List.perm_append_singleton item table
      · obtain ⟨j, hj, hjid⟩ := hitem
        have hj : j ∈ table := (List.mem_cons.mp hj).resolve_left fun heq => hid (heq ▸ hjid)
        rw [replaceRow, List.filter_cons_of_pos (by simpa using hid), List.map_cons, if_neg hid,
          List.cons_append]
        exact (ih hrest ⟨j, hj, hjid⟩).cons i

/-- A token whose item is where the loop wants it, or that has none, changes nothing. -/
theorem map_moved_skip {index : Nat} {token : Token} {tokens : List Token}
    (h : ∀ i ∈ table, i.status = .whitelisted → i.id = token.id → i.sortingId = some (index : Int)) :
    table.map (moved index (token :: tokens)) = table.map (moved (index + 1) tokens) := by
  refine List.map_congr_left fun i hi => ?_
  unfold moved
  split
  · rename_i hwhite
    rw [place]
    split
    · rename_i hid
      rw [h i hi hwhite hid.symm]
    · rfl
  · rfl

/-- Otherwise its item gets the place. -/
theorem map_moved_step (hids : (table.map (·.id)).Nodup) (hitem : item ∈ table)
    (hwhite : item.status = .whitelisted) {index : Nat} {token : Token} {tokens : List Token}
    (hid : item.id = token.id) :
    table.map (moved index (token :: tokens)) =
      (table.map fun i => if i.id = item.id then item.updateSortingId (some (index : Int)) else i).map
        (moved (index + 1) tokens) := by
  rw [List.map_map]
  refine List.map_congr_left fun i hi => ?_
  simp only [Function.comp]
  by_cases heq : i.id = item.id
  · obtain rfl := eq_of_id hids hi hitem heq
    have hstatus : (i.updateSortingId (some (index : Int))).status = .whitelisted := hwhite
    rw [if_pos rfl, moved, if_pos hwhite, moved, if_pos hstatus, place, if_pos hid.symm]
    rfl
  · have hother : ¬ token.id = i.id := fun h => heq (h.symm.trans hid.symm)
    rw [if_neg heq]
    unfold moved
    rw [place, if_neg hother]

/-- The items in memory and those in the table change alike. -/
theorem mem_map_shown {shown : List TokenListItem} (hids : (table.map (·.id)).Nodup)
    (hshown : ∀ i, i ∈ shown ↔ i ∈ table ∧ i.status = .whitelisted) (hitem : item ∈ table)
    (hwhite : item.status = .whitelisted) {n : Option Int} (i : TokenListItem) :
    i ∈ (shown.map fun i => if i.id = item.id then item.updateSortingId n else i) ↔
      i ∈ (table.map fun i => if i.id = item.id then item.updateSortingId n else i) ∧
        i.status = .whitelisted := by
  rw [List.mem_map, List.mem_map]
  constructor
  · rintro ⟨j, hj, rfl⟩
    obtain ⟨hj, hjwhite⟩ := (hshown j).mp hj
    refine ⟨⟨j, hj, rfl⟩, ?_⟩
    split
    · exact hwhite
    · exact hjwhite
  · rintro ⟨⟨j, hj, rfl⟩, hjwhite⟩
    refine ⟨j, (hshown j).mpr ⟨hj, ?_⟩, rfl⟩
    by_cases heq : j.id = item.id
    · rw [eq_of_id hids hj hitem heq]
      exact hwhite
    · rw [if_neg heq] at hjwhite
      exact hjwhite

/-- The loop moves the shown items to their last places. -/
theorem rearrangeFrom_perm {shown : List TokenListItem} (hids : (table.map (·.id)).Nodup)
    (hshown : ∀ i, i ∈ shown ↔ i ∈ table ∧ i.status = .whitelisted) {index : Nat}
    {tokens : List Token} (h : rearrangeFrom table shown index tokens = .ok table') :
    table'.Perm (table.map (moved index tokens)) := by
  induction tokens generalizing table shown index with
  | nil =>
      have hmap : table.map (moved index []) = table := by
        refine (List.map_congr_left fun i _ => ?_).trans (List.map_id table)
        unfold moved
        split <;> rfl
      rw [rearrangeFrom] at h
      rw [hmap, Except.ok.inj h]
  | cons token tokens ih =>
      rw [rearrangeFrom] at h
      split at h
      · rename_i hnone
        rw [map_moved_skip fun i hi hwhite hid =>
          absurd (List.find?_eq_none.mp hnone i ((hshown i).mpr ⟨hi, hwhite⟩)) (by simp [hid])]
        exact ih hids hshown h
      · rename_i item hsome
        obtain ⟨hitem, hwhite⟩ := (hshown item).mp (List.mem_of_find?_eq_some hsome)
        have hid : item.id = token.id := by simpa using List.find?_some hsome
        split at h
        · rename_i hplace
          rw [map_moved_skip fun i hi _ hi' => by
            rw [eq_of_id hids hi hitem (hi'.trans hid.symm), hplace]]
          exact ih hids hshown h
        · have hfind : (find table (item.updateSortingId (some (index : Int))).id).any
              (·.status = .whitelisted) = true := find_whitelisted hids hitem rfl hwhite
          have hrow : ∃ i ∈ table, i.id = (item.updateSortingId (some (index : Int))).id :=
            ⟨item, hitem, rfl⟩
          have hperm := replaceRow_perm hids hrow
          simp only [save_kept hfind hwhite] at h
          rw [map_moved_step hids hitem hwhite hid]
          refine (ih (ids_replaceRow hids) (fun i => ?_) h).trans (hperm.map _)
          rw [hperm.mem_iff]
          exact mem_map_shown hids hshown hitem hwhite i

/-- An arrangement keeps the order exactly if it does not give two tokens one place. -/
def PlacesApart (table : TokenTable) (tokens : List Token) : Prop :=
  ∀ i ∈ table, ∀ j ∈ table, i.status = .whitelisted → j.status = .whitelisted →
    place i.id 0 tokens i.sortingId = place j.id 0 tokens j.sortingId → i.id = j.id

instance (table : TokenTable) (tokens : List Token) : Decidable (PlacesApart table tokens) :=
  inferInstanceAs (Decidable (∀ i ∈ table, ∀ j ∈ table, i.status = .whitelisted →
    j.status = .whitelisted → place i.id 0 tokens i.sortingId = place j.id 0 tokens j.sortingId →
      i.id = j.id))

theorem ordered_rearrange (ho : table.Ordered) {tokens : List Token}
    (h : rearrange table tokens = .ok table') : table'.Ordered ↔ PlacesApart table tokens := by
  have hperm := rearrangeFrom_perm ho.ids (fun i => mem_whitelisted) h
  constructor
  · intro ho' i hi j hj hwhite hwhite' hplace
    have hmem : ∀ {i}, i ∈ table → moved 0 tokens i ∈ table' := fun hi =>
      hperm.mem_iff.mpr (List.mem_map_of_mem hi)
    have hid := ho'.distinct _ (hmem hi) _ (hmem hj) (by simpa using hwhite) (by simpa using hwhite')
      (by simpa [moved, hwhite, hwhite'] using hplace)
    simpa using hid
  · intro hapart
    have hmap : (table.map (moved 0 tokens)).map (·.id) = table.map (·.id) := by
      rw [List.map_map]
      exact List.map_congr_left fun i _ => id_moved 0 tokens i
    refine Ordered.of_keys ⟨by rw [hmap]; exact ho.ids, ?_, ?_, ?_⟩ (hperm.map key)
    · intro i hi hwhite
      obtain ⟨j, hj, rfl⟩ := List.mem_map.mp hi
      rw [status_moved] at hwhite
      simpa [moved, hwhite] using
        place_ne_none (ho.placed j hj hwhite)
    · intro i hi hwhite
      obtain ⟨j, hj, rfl⟩ := List.mem_map.mp hi
      rw [status_moved] at hwhite
      simpa [moved, hwhite] using ho.hidden j hj hwhite
    · intro i hi j hj hwhite hwhite' heq
      obtain ⟨i, hi', rfl⟩ := List.mem_map.mp hi
      obtain ⟨j, hj', rfl⟩ := List.mem_map.mp hj
      rw [status_moved] at hwhite hwhite'
      rw [id_moved, id_moved]
      exact hapart i hi' j hj' hwhite hwhite'
        (by simpa [moved, hwhite, hwhite'] using heq)

/-! ### Listing one token -/

theorem whitelist_ok {token : Token} (h : whitelist table token = .ok table') :
    ∃ item : TokenListItem, item.id = token.id ∧ item.status = .whitelisted ∧
      item.sortingId = none ∧ save table item = .ok table' := by
  obtain ⟨existing, -, h⟩ := bind_ok.mp h
  exact ⟨_, rfl, rfl, rfl, h⟩

theorem blacklist_ok {token : Token} (h : blacklist table token = .ok table') :
    ∃ item : TokenListItem, item.id = token.id ∧ item.status ≠ .whitelisted ∧
      item.sortingId = none ∧ table' = replaceRow table item := by
  obtain ⟨existing, -, h⟩ := bind_ok.mp h
  have hstatus : (relisted existing token .blacklisted).status ≠ .whitelisted := by
    simp [relisted]
  rw [save_hidden hstatus rfl] at h
  exact ⟨_, rfl, hstatus, rfl, (Except.ok.inj h).symm⟩

/-- Whitelisting keeps the order exactly if the token was not shown. -/
theorem ordered_whitelist (ho : table.Ordered) {token : Token}
    (h : whitelist table token = .ok table') :
    table'.Ordered ↔ (find table token.id).any (·.status = .whitelisted) = false := by
  obtain ⟨item, hid, hstatus, hplace, hsave⟩ := whitelist_ok h
  rw [← hid]
  constructor
  · intro ho'
    by_contra hfind
    -- the item was shown, and is saved without a place
    rw [save_kept (Bool.not_eq_false _ ▸ hfind) hstatus] at hsave
    obtain rfl := Except.ok.inj hsave
    exact ho'.placed item (mem_replaceRow.mpr (.inr rfl)) hstatus hplace
  · intro hfind
    exact Ordered.save_new ho hfind hstatus hsave

theorem at_whitelist (ho : table.Ordered) {token : Token}
    (hfind : (find table token.id).any (·.status = .whitelisted) = false)
    (h : whitelist table token = .ok table') {n : Int} (hn : table.At id n) : table'.At id n := by
  obtain ⟨item, hid, hstatus, -, hsave⟩ := whitelist_ok h
  rw [← hid] at hfind
  rw [save_new hfind hstatus hsave]
  refine (at_replaceRow fun heq => ?_).mpr hn
  obtain ⟨i, hi, hi', hwhite, -⟩ := hn
  rw [TokenListItem.id_updateSortingId] at heq
  rw [find_whitelisted ho.ids hi (hi'.trans heq) hwhite] at hfind
  cases hfind

theorem ordered_blacklist (ho : table.Ordered) {token : Token}
    (h : blacklist table token = .ok table') : table'.Ordered := by
  obtain ⟨item, -, hstatus, hplace, rfl⟩ := blacklist_ok h
  exact Ordered.replaceRow ho (fun hwhite => absurd hwhite hstatus) fun _ => hplace

theorem at_blacklist {token : Token} (h : blacklist table token = .ok table') {n : Int}
    (hn : table'.At id n) : table.At id n := by
  obtain ⟨item, -, hstatus, -, rfl⟩ := blacklist_ok h
  obtain ⟨i, hi, rfl, hwhite, hplace⟩ := hn
  rcases mem_replaceRow.mp hi with ⟨hi, -⟩ | rfl
  · exact ⟨i, hi, rfl, hwhite, hplace⟩
  · exact absurd hwhite hstatus

end DBTokenListItemRepository

/-! ### Merging -/

namespace TokenListMerger

open TokenTable DBTokenListItemRepository

variable {table table' : TokenTable} {tokenList : List TokenListItem}

/-- Items with the keys of stored ones are saved as they are. -/
theorem save_keys (hids : (table.map (·.id)).Nodup) {item : TokenListItem}
    (hether : item.id ≠ Token.Ether.id) (hitem : ∃ i ∈ table, key i = key item) :
    save table item = .ok (replaceRow table item) ∧
      ((replaceRow table item).map key).Perm (table.map key) := by
  obtain ⟨i, hi, hkey⟩ := hitem
  obtain ⟨hid, hstatus, -⟩ := Key.mk.inj hkey
  constructor
  · by_cases hwhite : item.status = .whitelisted
    · exact save_kept (find_whitelisted hids hi hid (hstatus.trans hwhite)) hwhite
    · refine save_regular (Bool.eq_false_iff.mpr fun hfind => ?_) hwhite
      obtain ⟨j, hj, hjid, hjwhite⟩ := exists_of_find_whitelisted hether hfind
      obtain rfl := eq_of_id hids hj hi (hjid.trans hid.symm)
      exact hwhite (hstatus.symm.trans hjwhite)
  · refine ((replaceRow_perm hids ⟨i, hi, hid⟩).map key).trans ?_
    rw [List.map_map]
    refine (List.Perm.of_eq (List.map_congr_left fun j hj => ?_))
    simp only [Function.comp]
    split
    · rename_i hj'
      rw [eq_of_id hids hj hi (hj'.trans hid.symm), hkey]
    · rfl

theorem saveAll_keys (hids : (table.map (·.id)).Nodup) {items : List TokenListItem}
    (hether : ∀ item ∈ items, item.id ≠ Token.Ether.id)
    (hitems : ∀ item ∈ items, ∃ i ∈ table, key i = key item) :
    saveAll table items = .ok (items.foldl replaceRow table) ∧
      ((items.foldl replaceRow table).map key).Perm (table.map key) := by
  induction items generalizing table with
  | nil => exact ⟨rfl, List.Perm.refl _⟩
  | cons item items ih =>
      obtain ⟨hsave, hperm⟩ :=
        save_keys hids (hether item List.mem_cons_self) (hitems item List.mem_cons_self)
      obtain ⟨hrest, hpermRest⟩ := ih (ids_of_keys hperm hids)
        (fun item' hitem' => hether item' (List.mem_cons_of_mem item hitem'))
        (fun item' hitem' => by
          obtain ⟨i, hi, hkey⟩ := hitems item' (List.mem_cons_of_mem item hitem')
          rw [← hkey]
          exact exists_key hperm.symm hi)
      refine ⟨?_, hpermRest.trans hperm⟩
      rw [saveAll, hsave]
      exact hrest

/-- The updated items have the keys of stored ones. -/
theorem exists_key_of_mem_updatedItems {item : TokenListItem}
    (h : item ∈ updatedItems table tokenList) : ∃ i ∈ table, key i = key item := by
  obtain ⟨latest, -, hitem⟩ := List.mem_filterMap.mp h
  obtain ⟨i, hi, rfl⟩ := Option.map_eq_some_iff.mp hitem
  have hid : i.id = latest.id := by
    simpa using List.find?_some (p := fun j : TokenListItem => decide (j.id = latest.id)) hi
  refine ⟨i, List.mem_of_mem_filter (List.mem_of_find?_eq_some hi), ?_⟩
  simp only [key, updatedItem, hid]
  rfl

theorem itemToUpdate_isNone {latest : TokenListItem} :
    (itemToUpdate table latest).isNone = true ↔
      ∀ i ∈ table, i.status = .regular ∨ i.id ≠ latest.id := by
  rw [Option.isNone_iff_eq_none, itemToUpdate, List.find?_eq_none]
  constructor
  · intro h i hi
    cases hstatus : i.status with
    | regular => exact .inl rfl
    | whitelisted =>
        exact .inr (by simpa using h i (List.mem_filter.mpr ⟨hi, by simp [hstatus]⟩))
    | blacklisted =>
        exact .inr (by simpa using h i (List.mem_filter.mpr ⟨hi, by simp [hstatus]⟩))
  · intro h i hi
    obtain ⟨hi, hstatus⟩ := List.mem_filter.mp hi
    rcases h i hi with hregular | hid
    · simp [hregular] at hstatus
    · simpa using hid

/-- What is deleted first does not matter for the items of the list. -/
theorem itemToUpdate_deleted {latest : TokenListItem} (hlatest : latest ∈ tokenList) :
    itemToUpdate (deleteStoredTokenItemsThatAreNotInList table tokenList) latest =
      itemToUpdate table latest := by
  unfold itemToUpdate deleteStoredTokenItemsThatAreNotInList
  rw [List.find?_filter, List.find?_filter, List.find?_filter]
  congr 1
  funext i
  by_cases hid : i.id = latest.id
  · have hmem : i.id ∈ tokenList.map (·.id) := hid ▸ List.mem_map_of_mem hlatest
    simp [hmem]
  · simp [hid]

theorem remainingTokenItems_deleted (table : TokenTable) (tokenList : List TokenListItem) :
    remainingTokenItems (deleteStoredTokenItemsThatAreNotInList table tokenList) tokenList =
      remainingTokenItems table tokenList :=
  List.filter_congr fun latest hlatest => by rw [itemToUpdate_deleted hlatest]

theorem updatedItems_deleted (table : TokenTable) (tokenList : List TokenListItem) :
    updatedItems (deleteStoredTokenItemsThatAreNotInList table tokenList) tokenList =
      updatedItems table tokenList :=
  List.filterMap_congr fun latest hlatest => by rw [itemToUpdate_deleted hlatest]

/-- The updated items are of the list. -/
theorem id_of_mem_updatedItems {item : TokenListItem} (h : item ∈ updatedItems table tokenList) :
    ∃ latest ∈ tokenList, latest.id = item.id := by
  obtain ⟨latest, hlatest, hitem⟩ := List.mem_filterMap.mp h
  obtain ⟨i, -, rfl⟩ := Option.map_eq_some_iff.mp hitem
  exact ⟨latest, hlatest, rfl⟩

/-- The second pass changes the keys of no item. -/
theorem saveAll_updatedItems (hids : (table.map (·.id)).Nodup)
    (hether : ∀ t ∈ tokenList, t.id ≠ Token.Ether.id) :
    saveAll table (updatedItems table tokenList) =
        .ok ((updatedItems table tokenList).foldl replaceRow table) ∧
      (((updatedItems table tokenList).foldl replaceRow table).map key).Perm (table.map key) := by
  refine saveAll_keys hids (fun item hitem => ?_) fun item => exists_key_of_mem_updatedItems
  obtain ⟨latest, hlatest, hid⟩ := id_of_mem_updatedItems hitem
  exact hid ▸ hether latest hlatest

/-- Whoever is shown stays when the others are deleted. -/
theorem at_deleted {id : TokenID} {n : Int} :
    (deleteStoredTokenItemsThatAreNotInList table tokenList).At id n ↔ table.At id n := by
  constructor
  · rintro ⟨i, hi, hrest⟩
    exact ⟨i, List.mem_of_mem_filter hi, hrest⟩
  · rintro ⟨i, hi, hid, hwhite, hn⟩
    exact ⟨i, List.mem_filter.mpr ⟨hi, by simp [hwhite]⟩, hid, hwhite, hn⟩

/-- No token follows itself in the list with both entries shown by default. -/
def NoneTwice : List TokenListItem → Prop
  | [] => True
  | t :: ts =>
      (t.status = .whitelisted → ∀ next ∈ ts.find? (·.id = t.id), next.status ≠ .whitelisted) ∧
        NoneTwice ts

instance NoneTwice.decidable : ∀ ts, Decidable (NoneTwice ts)
  | [] => .isTrue trivial
  | t :: ts =>
      have := NoneTwice.decidable ts
      inferInstanceAs (Decidable ((t.status = .whitelisted →
        ∀ next ∈ ts.find? (·.id = t.id), next.status ≠ .whitelisted) ∧ NoneTwice ts))

/-- No token that is shown already comes next in the list as one shown by default. -/
def Awaits (table : TokenTable) (ts : List TokenListItem) : Prop :=
  ∀ i ∈ table, i.status = .whitelisted → ∀ next ∈ ts.find? (·.id = i.id),
    next.status ≠ .whitelisted

/-- Saving the remaining tokens keeps the order and what is shown already. -/
theorem saveAll_remaining {ts : List TokenListItem} (ho : table.Ordered)
    (hether : ∀ t ∈ ts, t.id ≠ Token.Ether.id) (hplaces : ∀ t ∈ ts, t.sortingId = none)
    (htwice : NoneTwice ts) (hawaits : Awaits table ts) (h : saveAll table ts = .ok table') :
    table'.Ordered ∧ ∀ id n, (∀ t ∈ ts, t.id ≠ id) → table.At id n → table'.At id n := by
  induction ts generalizing table with
  | nil =>
      obtain rfl : table = table' := Except.ok.inj h
      exact ⟨ho, fun _ _ _ hn => hn⟩
  | cons t ts ih =>
      obtain ⟨htwice, htwiceRest⟩ := htwice
      obtain ⟨saved, hsave, hrest⟩ := bind_ok.mp h
      have hether' : ∀ t ∈ ts, t.id ≠ Token.Ether.id := fun x hx =>
        hether x (List.mem_cons_of_mem t hx)
      have hplaces' : ∀ t ∈ ts, t.sortingId = none := fun x hx =>
        hplaces x (List.mem_cons_of_mem t hx)
      -- the row that is written, and the order then
      obtain ⟨hsaved, item, hid, hwhite, rfl⟩ : saved.Ordered ∧ ∃ item : TokenListItem,
          item.id = t.id ∧ (item.status = .whitelisted → t.status = .whitelisted) ∧
            saved = replaceRow table item := by
        by_cases hstatus : t.status = .whitelisted
        · have hfind : (find table t.id).any (·.status = .whitelisted) = false := by
            rw [← Bool.not_eq_true]
            intro hfind
            obtain ⟨i, hi, hid, hwhite⟩ :=
              exists_of_find_whitelisted (hether t List.mem_cons_self) hfind
            exact hawaits i hi hwhite t (List.find?_cons_of_pos (by simpa using hid.symm)) hstatus
          exact ⟨Ordered.save_new ho hfind hstatus hsave, _, TokenListItem.id_updateSortingId t _,
            fun _ => hstatus, save_new hfind hstatus hsave⟩
        · have hplace := hplaces t List.mem_cons_self
          rw [save_hidden hstatus hplace] at hsave
          obtain rfl := Except.ok.inj hsave
          exact ⟨Ordered.replaceRow ho (fun hwhite => absurd hwhite hstatus) fun _ => hplace, t, rfl,
            fun hwhite => hwhite, rfl⟩
      have hawaits' : Awaits (replaceRow table item) ts := by
        intro i hi hshown next hnext
        rcases mem_replaceRow.mp hi with ⟨hi, hne⟩ | rfl
        · refine hawaits i hi hshown next ?_
          rw [List.find?_cons_of_neg (by rw [decide_eq_true_eq, ← hid]; exact hne.symm)]
          exact hnext
        · exact htwice (hwhite hshown) next (by rw [← hid]; exact hnext)
      obtain ⟨ho', hat⟩ := ih hsaved hether' hplaces' htwiceRest hawaits' hrest
      refine ⟨ho', fun id n hother hn => hat id n (fun x hx => hother x (List.mem_cons_of_mem t hx)) ?_⟩
      have hne := hother t List.mem_cons_self
      exact (at_replaceRow (by rw [hid]; exact hne.symm)).mpr hn

/-- A merge keeps the order and the places, if no token of the list is new and shown twice. -/
theorem ordered_merge (ho : table.Ordered)
    (hether : ∀ t ∈ tokenList, t.id ≠ Token.Ether.id)
    (hplaces : ∀ t ∈ tokenList, t.sortingId = none)
    (htwice : NoneTwice (remainingTokenItems table tokenList))
    (h : mergeStoredTokenItems table tokenList = .ok table') :
    table'.Ordered ∧ ∀ id n, table.At id n → table'.At id n := by
  obtain ⟨updated, hupdated, h⟩ := bind_ok.mp h
  have hstored : (deleteStoredTokenItemsThatAreNotInList table tokenList).Ordered := ho.filter _
  obtain ⟨hsaved, hperm⟩ := saveAll_updatedItems hstored.ids hether
  rw [Except.ok.inj (hsaved.symm.trans hupdated)] at hperm
  rw [remainingTokenItems_deleted] at h
  have hnotShown : ∀ i ∈ table, i.status = .whitelisted →
      ∀ t ∈ remainingTokenItems table tokenList, t.id ≠ i.id := by
    intro i hi hwhite t ht heq
    rcases itemToUpdate_isNone.mp (List.mem_filter.mp ht).2 i hi with hregular | hne
    · rw [hwhite] at hregular
      cases hregular
    · exact hne heq.symm
  have hawaits : Awaits updated (remainingTokenItems table tokenList) := by
    intro i hi hwhite next hnext
    obtain ⟨j, hj, hkey⟩ := exists_key hperm hi
    obtain ⟨hid, hstatus, -⟩ := Key.mk.inj hkey
    have hnextId : next.id = i.id := by
      simpa using List.find?_some (p := fun t : TokenListItem => decide (t.id = i.id)) hnext
    exact absurd (hnextId.trans hid.symm) (hnotShown j (List.mem_of_mem_filter hj)
      (hstatus.trans hwhite) next (List.mem_of_find?_eq_some hnext))
  obtain ⟨ho', hat⟩ := saveAll_remaining (hstored.of_keys hperm)
    (fun t ht => hether t (List.mem_of_mem_filter ht))
    (fun t ht => hplaces t (List.mem_of_mem_filter ht)) htwice hawaits h
  refine ⟨ho', fun id n hn => hat id n ?_ (at_of_keys hperm.symm (at_deleted.mpr hn))⟩
  obtain ⟨i, hi, rfl, hwhite, -⟩ := hn
  exact hnotShown i hi hwhite

end TokenListMerger

/-! ### The order that is shown -/

namespace TokenCall

open TokenTable DBTokenListItemRepository

variable {table table' : TokenTable} {a b : TokenID}

/-- The whitelisted tokens, in the order they are shown in. -/
def shown (table : TokenTable) : List TokenID := (whitelisted table).map (·.id)

theorem at_of_mem_shown (ho : table.Ordered) (h : a ∈ shown table) : ∃ n, table.At a n := by
  obtain ⟨i, hi, rfl⟩ := List.mem_map.mp h
  obtain ⟨hi, hwhite⟩ := mem_whitelisted.mp hi
  obtain ⟨n, hn⟩ := Option.ne_none_iff_exists'.mp (ho.placed i hi hwhite)
  exact ⟨n, i, hi, rfl, hwhite, hn⟩

theorem nodup_whitelisted (ho : table.Ordered) : ((whitelisted table).map (·.id)).Nodup := by
  have hperm : (whitelisted table).Perm (table.filter (·.status = .whitelisted)) :=
    List.perm_insertionSort _ _
  exact (hperm.map (·.id)).nodup_iff.mpr (ho.filter _).ids

/-- A token is shown before another one if its place is. -/
theorem pair_sublist_iff (ho : table.Ordered) {m n : Int} (hm : table.At a m) (hn : table.At b n) :
    [a, b].Sublist (shown table) ↔ m < n := by
  have hsorted := whitelisted_sorted table
  constructor
  · intro h
    obtain ⟨pair, hpair, heq⟩ := List.sublist_map_iff.mp h
    obtain ⟨i, j, rfl⟩ : ∃ i j, pair = [i, j] :=
      List.length_eq_two.mp (by simpa using (congrArg List.length heq).symm)
    obtain ⟨rfl, rfl⟩ : a = i.id ∧ b = j.id := by simpa using heq
    have hplace : ∀ {i : TokenListItem} {k : Int}, i ∈ whitelisted table → table.At i.id k →
        i.sortingId = some k := by
      intro i k hi hk
      obtain ⟨i', hi', hid, -, hplace⟩ := hk
      rwa [eq_of_id ho.ids hi' (mem_whitelisted.mp hi).1 hid] at hplace
    have hne : i.id ≠ j.id := by
      have hnodup := (nodup_whitelisted ho).sublist (hpair.map (·.id))
      simpa using hnodup
    have hle := hsorted.sublist hpair
    rw [List.pairwise_pair, hplace (hpair.subset (by simp)) hm, hplace (hpair.subset (by simp)) hn] at hle
    have hle : m ≤ n := by simpa [columnLE] using hle
    exact lt_of_le_of_ne hle fun heq => hne (ho.at_inj hm (heq ▸ hn))
  · intro hlt
    obtain ⟨i, hi, rfl, hwhite, hi'⟩ := hm
    obtain ⟨j, hj, rfl, hwhite', hj'⟩ := hn
    obtain ⟨front, back, hsplit⟩ := List.append_of_mem (mem_whitelisted.mpr ⟨hi, hwhite⟩)
    have hmem := mem_whitelisted.mpr ⟨hj, hwhite'⟩
    rw [hsplit, List.mem_append, List.mem_cons] at hmem
    rw [hsplit, List.pairwise_append] at hsorted
    rcases hmem with hmem | rfl | hmem
    · have hle := hsorted.2.2 j hmem i List.mem_cons_self
      rw [hi', hj'] at hle
      exact absurd hlt (not_lt.mpr (by simpa [columnLE] using hle))
    · rw [hi'] at hj'
      exact absurd hlt (by simp [Option.some.inj hj'])
    · have hpair : [i, j].Sublist (whitelisted table) := by
        rw [hsplit]
        exact (List.cons_sublist_cons.mpr (List.singleton_sublist.mpr hmem)).trans
          (List.sublist_append_right front (i :: back))
      exact hpair.map (·.id)

/-- A call that leaves the order well defined. -/
def Orderly (table : TokenTable) : TokenCall → Prop
  | .merge tokenList _ =>
      TokenListMerger.NoneTwice
        (TokenListMerger.remainingTokenItems table (tokenList.map (·.item)))
  | .whitelist token => (find table token.id).any (·.status = .whitelisted) = false
  | .blacklist _ => True
  | .changePaymentToken token =>
      token.isEther = true ∨ (find table token.id).any (·.status = .whitelisted) = false
  | .rearrange tokens => PlacesApart table tokens

instance (table : TokenTable) : (c : TokenCall) → Decidable (Orderly table c)
  | .merge tokenList _ => inferInstanceAs (Decidable
      (TokenListMerger.NoneTwice
        (TokenListMerger.remainingTokenItems table (tokenList.map (·.item)))))
  | .whitelist token => inferInstanceAs (Decidable
      ((find table token.id).any (·.status = .whitelisted) = false))
  | .blacklist _ => .isTrue trivial
  | .changePaymentToken token => inferInstanceAs (Decidable
      (token.isEther = true ∨ (find table token.id).any (·.status = .whitelisted) = false))
  | .rearrange tokens => inferInstanceAs (Decidable (PlacesApart table tokens))

/-- Whether the call is one of those that do not change the order of the others. -/
def keepsOrder : TokenCall → Bool
  | .rearrange _ => false
  | _ => true

/-- A merge of what the server sends. -/
theorem ordered_merge_listed {tokenList : List ListedToken} (ho : table.Ordered)
    (hether : ∀ t ∈ tokenList, t.token.id ≠ Token.Ether.id)
    (htwice : TokenListMerger.NoneTwice
      (TokenListMerger.remainingTokenItems table (tokenList.map (·.item))))
    (h : TokenListMerger.mergeStoredTokenItems table (tokenList.map (·.item)) = .ok table') :
    table'.Ordered ∧ ∀ id n, table.At id n → table'.At id n := by
  refine TokenListMerger.ordered_merge ho (fun item hitem => ?_) (fun item hitem => ?_) htwice h
  · obtain ⟨t, ht, rfl⟩ := List.mem_map.mp hitem
    exact hether t ht
  · obtain ⟨t, -, rfl⟩ := List.mem_map.mp hitem
    rfl

theorem ordered_step {c : TokenCall} (ho : table.Ordered) (hc : c.Orderly table)
    (h : c.step table = .ok table') : table'.Ordered := by
  cases c with
  | merge tokenList noEther => exact (ordered_merge_listed ho noEther hc h).1
  | whitelist token => exact (ordered_whitelist ho h).mpr hc
  | blacklist token => exact ordered_blacklist ho h
  | changePaymentToken token =>
      simp only [step, WalletApplicationService.changePaymentToken] at h
      split at h
      · rw [← Except.ok.inj h]
        exact ho
      · rename_i hether
        exact (ordered_whitelist ho h).mpr (hc.resolve_left hether)
  | rearrange tokens => exact (ordered_rearrange ho h).mpr hc

/-- Tokens that are shown before and after the call stay where they are. -/
theorem place_step {c : TokenCall} (ho : table.Ordered) (hc : c.Orderly table)
    (hkeeps : c.keepsOrder = true) (h : c.step table = .ok table') {m n : Int}
    (hm : table.At a m) (hn : table'.At a n) : m = n := by
  have ho' := ordered_step ho hc h
  cases c with
  | merge tokenList noEther =>
      exact ho'.at_unique ((ordered_merge_listed ho noEther hc h).2 a m hm) hn
  | whitelist token => exact ho'.at_unique (at_whitelist ho hc h hm) hn
  | blacklist token => exact ho.at_unique hm (at_blacklist h hn)
  | changePaymentToken token =>
      simp only [step, WalletApplicationService.changePaymentToken] at h
      split at h
      · rw [← Except.ok.inj h] at hn
        exact ho.at_unique hm hn
      · rename_i hether
        exact ho'.at_unique (at_whitelist ho (hc.resolve_left hether) h hm) hn
  | rearrange tokens => cases hkeeps

namespace Sample

/-- A token with a short address. -/
def token (name : Char) : Token := ⟨[name], [name], 18, ⟨[name]⟩, []⟩

def listed (name : Char) (isDefault : Bool) : ListedToken := ⟨token name, isDefault, true⟩

/-- The server shows `g` and `r`, and offers `m`. -/
def merged : TokenCall := .merge [listed 'g' true, listed 'r' true, listed 'm' false] (by decide)

/-- A list that has `g` twice. -/
def mergedTwice : TokenCall := .merge [listed 'g' true, listed 'g' true] (by decide)

end Sample

end TokenCall

end MultisigWallet
