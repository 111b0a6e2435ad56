import MultisigWallet.AccountUpdate
import MultisigWallet.DBTransactionRepositorySound
import MultisigWallet.Reference
import Mathlib.Data.List.Dedup

/-!
# MultisigWallet.AccountUpdateSound

What a refresh leaves of the balances, seen through `stored`: the balance that is stored under an
identifier. Identifiers of parts without a colon are split into the parts they were made of
(`Readable`), so the refresh asks for the accounts of the selected wallet and no others. The loop
over them changes only what the node reported (`updateBalances_effect`), wherever it stops.
-/

namespace MultisigWallet

/-! ### Identifiers -/

/-- An identifier that can be a part of another: it is not empty and has no colon. The identifiers of
wallets are UUIDs; those of tokens are addresses (`Address.WellFormed.readable`). -/
def Readable (id : Str) : Prop := id ≠ [] ∧ ':' ∉ id

instance (id : Str) : Decidable (Readable id) := inferInstanceAs (Decidable (_ ∧ _))

theorem Address.WellFormed.readable {a : Address} (h : a.WellFormed) : Readable a.value := by
  obtain ⟨s, ha, -, hs⟩ := h
  rw [ha]
  refine ⟨List.append_ne_nil_of_left_ne_nil (by decide) s, fun hmem => ?_⟩
  rcases List.mem_append.mp hmem with hmem | hmem
  · exact absurd hmem (by decide)
  · exact absurd (hs _ hmem) (by decide)

namespace AccountID

variable {id : AccountID}

theorem components_value (ht : Readable id.tokenID) (hw : Readable id.walletID) :
    (Separated.components [':'] id.value).filter (· ≠ []) = [id.tokenID, id.walletID] := by
  have hvalue : id.value = id.tokenID ++ [':'] ++ id.walletID := by
    rw [value, List.append_assoc, List.singleton_append]
  rw [hvalue, Separated.components_append (List.cons_ne_nil _ _) (Separated.clear_of_not_mem ht.2),
    (Separated.components_eq_singleton (List.cons_ne_nil _ _)).mpr
      (Separated.not_infix_of_not_mem hw.2)]
  simp [ht.1, hw.1]

theorem ofString_value (ht : Readable id.tokenID) (hw : Readable id.walletID) :
    ofString id.value = .ok id := by
  rw [ofString, components_value ht hw]

theorem tokenIDOf_value (ht : Readable id.tokenID) (hw : Readable id.walletID) :
    tokenIDOf id.value = .ok id.tokenID := by
  rw [tokenIDOf, part, components_value ht hw]
  rfl

theorem walletIDOf_value (ht : Readable id.tokenID) (hw : Readable id.walletID) :
    walletIDOf id.value = .ok id.walletID := by
  rw [walletIDOf, part, components_value ht hw]
  rfl

theorem value_inj {id' : AccountID} (ht : Readable id.tokenID) (hw : Readable id.walletID)
    (ht' : Readable id'.tokenID) (hw' : Readable id'.walletID) (h : id.value = id'.value) :
    id = id' := by
  have heq := ofString_value ht hw
  rw [h, ofString_value ht' hw'] at heq
  exact (Except.ok.inj heq).symm

end AccountID

/-! ### The table -/

namespace AccountTable

/-- Every identifier can be split. -/
def IsReadable (table : AccountTable) : Prop :=
  ∀ row ∈ table.rows, ∃ id : AccountID,
    Readable id.tokenID ∧ Readable id.walletID ∧ row.id = id.value

/-- The balance that is stored under an identifier, if there is such an account. -/
def stored (table : AccountTable) (id : Str) : Option (Option Int) :=
  (table.rows.find? (·.id = id)).map (·.balance)

variable {table : AccountTable} {id : Str}

theorem stored_isSome : (table.stored id).isSome = true ↔ ∃ row ∈ table.rows, row.id = id := by
  rw [stored, Option.isSome_map, List.find?_isSome]
  simp only [decide_eq_true_eq]

theorem stored_save (account : Account) (id : Str) :
    (DBAccountRepository.save table account).stored id =
      if id = account.id then some account.balance else table.stored id := by
  unfold stored DBAccountRepository.save Rows.replaced
  split
  · rename_i heq
    rw [heq, Rows.find?_replaced Account.id table.rows rfl]
    rfl
  · rename_i hne
    rw [Rows.find?_replaced_of_ne Account.id table.rows rfl hne]

theorem IsReadable.save (h : table.IsReadable) {i : AccountID} (ht : Readable i.tokenID)
    (hw : Readable i.walletID) {account : Account} (ha : account.id = i.value) :
    (DBAccountRepository.save table account).IsReadable := by
  intro row hrow
  rcases List.mem_append.mp hrow with hrow | hrow
  · exact h row (List.mem_of_mem_filter hrow)
  · rw [List.mem_singleton.mp hrow]
    exact ⟨i, ht, hw, ha⟩

theorem accountFromResultSet_eq {row : Account} {id : AccountID} (ht : Readable id.tokenID)
    (hw : Readable id.walletID) (hrow : row.id = id.value) :
    DBAccountRepository.accountFromResultSet row = .ok row := by
  rw [DBAccountRepository.accountFromResultSet, hrow, AccountID.ofString_value ht hw]
  show Except.ok (Account.new id.tokenID id.walletID row.balance) = .ok row
  rw [Account.new, ← hrow]

/-- `find(id:)` of an account that is there. -/
theorem find_eq (h : table.IsReadable) {balance : Option Int}
    (hid : table.stored id = some balance) :
    DBAccountRepository.find table id = .ok (some ⟨id, balance⟩) := by
  obtain ⟨row, hfind, rfl⟩ := Option.map_eq_some_iff.mp hid
  obtain ⟨i, ht, hw, hrow⟩ := h row (List.mem_of_find?_eq_some hfind)
  have hid' : row.id = id := by simpa using List.find?_some hfind
  subst hid'
  rw [DBAccountRepository.find, hfind]
  show (DBAccountRepository.accountFromResultSet row >>= fun account => pure (some account)) = _
  rw [accountFromResultSet_eq ht hw hrow]
  rfl

/-- `all()`. -/
theorem all_eq (h : table.IsReadable) : DBAccountRepository.all table = .ok table.rows := by
  have hrow : ∀ row ∈ table.rows, DBAccountRepository.accountFromResultSet row = .ok (id row) := by
    intro row hrow
    obtain ⟨i, ht, hw, hi⟩ := h row hrow
    exact accountFromResultSet_eq ht hw hi
  rw [DBAccountRepository.all, mapM_eq_ok hrow, List.map_id]

end AccountTable

/-- What a filter that does not trap leaves. -/
theorem exists_filterEach_ok {α : Type} {p : α → Except Trap Bool} {as : List α}
    (h : ∀ a ∈ as, ∃ b, p a = .ok b) :
    ∃ kept, filterEach p as = .ok kept ∧ ∀ a, a ∈ kept ↔ a ∈ as ∧ p a = .ok true := by
  induction as with
  | nil => exact ⟨[], rfl, fun a => by simp⟩
  | cons a as ih =>
      obtain ⟨⟨b, hb⟩, has⟩ := List.forall_mem_cons.mp h
      obtain ⟨kept, hkept, hmem⟩ := ih has
      refine ⟨if b then a :: kept else kept, ?_, fun c => ?_⟩
      · rw [filterEach, hb, hkept]
        rfl
      · have hhead : c = a → (p c = .ok true ↔ b = true) := by
          intro hc
          rw [hc, hb, Except.ok.injEq]
        cases b with
        | true =>
            rw [if_pos rfl, List.mem_cons, List.mem_cons, hmem, or_and_right]
            exact or_congr_left ⟨fun hc => ⟨hc, (hhead hc).mpr rfl⟩, fun hc => hc.1⟩
        | false =>
            rw [if_neg Bool.false_ne_true, List.mem_cons, hmem, or_and_right, or_iff_right]
            intro hc
            exact Bool.false_ne_true ((hhead hc.1).mp hc.2)

/-! ### The accounts of the selected wallet -/

namespace AccountUpdateDomainService

variable {lib : ThirdParty} {input : RefreshInput} {node : BalanceNode} {wallet : Wallet}
  {table : AccountTable} {t : TokenID}

theorem mem_watchedIDs : t ∈ watchedIDs input ↔
    ∃ item ∈ input.tokenItems, item.id = t ∧
      (item.status = .whitelisted ∨ item.canPayTransactionFee = true) := by
  simp only [watchedIDs, DBTokenListItemRepository.whitelisted,
    DBTokenListItemRepository.paymentTokens, List.mem_append, List.mem_map, List.mem_insertionSort,
    List.mem_filter, decide_eq_true_eq]
  constructor
  · intro h
    rcases h with ⟨item, hitem, hid⟩ | ⟨item, hitem, hid⟩
    · exact ⟨item, hitem.1, hid, .inl hitem.2⟩
    · exact ⟨item, hitem.1, hid, .inr hitem.2⟩
  · intro h
    obtain ⟨item, hitem, hid, hstatus | hpays⟩ := h
    · exact .inl ⟨item, ⟨hitem, hstatus⟩, hid⟩
    · exact .inr ⟨item, ⟨hitem, hpays⟩, hid⟩

/-- The accounts of the selected wallet are those whose identifier was made with the wallet's. -/
theorem exists_allSelectedWalletAccountsIds (hwallet : selectedWallet input = some wallet)
    (hid : Readable wallet.id) (h : table.IsReadable) :
    ∃ ids, allSelectedWalletAccountsIds input table = .ok ids ∧
      ∀ id, id ∈ ids ↔ (∃ t, Readable t ∧ id = AccountID.value ⟨t, wallet.id⟩) ∧
        (table.stored id).isSome = true := by
  have hsplit : ∀ account ∈ table.rows, ∃ b, (do
      return decide ((← AccountID.walletIDOf account.id) = wallet.id)) = Except.ok b := by
    intro account haccount
    obtain ⟨i, ht, hw, hrow⟩ := h account haccount
    rw [hrow, AccountID.walletIDOf_value ht hw]
    exact ⟨_, rfl⟩
  obtain ⟨kept, hkept, hmem⟩ := exists_filterEach_ok hsplit
  refine ⟨kept.map Account.id, ?_, fun id => ?_⟩
  · rw [allSelectedWalletAccountsIds, hwallet]
    exact bind_ok.mpr ⟨table.rows, AccountTable.all_eq h, bind_ok.mpr ⟨kept, hkept, rfl⟩⟩
  · rw [AccountTable.stored_isSome, List.mem_map]
    constructor
    · intro hin
      obtain ⟨account, haccount, hin⟩ := hin
      obtain ⟨hrows, hwalletID⟩ := (hmem account).mp haccount
      obtain ⟨i, ht, hw, hrow⟩ := h account hrows
      rw [hrow, AccountID.walletIDOf_value ht hw] at hwalletID
      have heq : i.walletID = wallet.id := of_decide_eq_true (Except.ok.inj hwalletID)
      exact ⟨⟨i.tokenID, ht, by rw [← hin, hrow, ← heq]⟩, account, hrows, hin⟩
    · intro hin
      obtain ⟨⟨t, ht, hvalue⟩, account, haccount, hin⟩ := hin
      refine ⟨account, (hmem account).mpr ⟨haccount, ?_⟩, hin⟩
      rw [hin, hvalue, AccountID.walletIDOf_value ht hid]
      exact congrArg Except.ok (decide_eq_true rfl)

/-! ### The missing accounts -/

/-- What saving new accounts leaves of the table. -/
theorem foldl_save (hid : Readable wallet.id) {tokenIDs : List TokenID}
    (ht : ∀ t ∈ tokenIDs, Readable t) (h : table.IsReadable) :
    ∃ after, tokenIDs.foldl (fun table tokenID =>
        DBAccountRepository.save table (Account.new tokenID wallet.id none)) table = after ∧
      after.IsReadable ∧
      ∀ id, after.stored id =
        if ∃ t ∈ tokenIDs, id = AccountID.value ⟨t, wallet.id⟩ then some none
        else table.stored id := by
  induction tokenIDs generalizing table with
  | nil => exact ⟨table, rfl, h, fun id => by simp⟩
  | cons t tokenIDs ih =>
      obtain ⟨ht₀, ht⟩ := List.forall_mem_cons.mp ht
      have hsaved : (DBAccountRepository.save table (Account.new t wallet.id none)).IsReadable :=
        h.save (i := ⟨t, wallet.id⟩) ht₀ hid rfl
      obtain ⟨after, hafter, hreadable, hstored⟩ := ih ht hsaved
      refine ⟨after, hafter, hreadable, fun id => ?_⟩
      rw [hstored, AccountTable.stored_save]
      simp only [List.exists_mem_cons_iff]
      by_cases hrest : ∃ t ∈ tokenIDs, id = AccountID.value ⟨t, wallet.id⟩
      · rw [if_pos hrest, if_pos (.inr hrest)]
      · rw [if_neg hrest]
        exact if_congr (or_iff_left hrest).symm rfl rfl

/-- Whitelisted and payment tokens have an account without a balance where the wallet had none. -/
def Completed (input : RefreshInput) (wallet : Wallet) (before after : AccountTable) : Prop :=
  ∀ id, after.stored id =
    if (∃ t ∈ watchedIDs input, id = AccountID.value ⟨t, wallet.id⟩) ∧ before.stored id = none then
      some none
    else before.stored id

theorem readable_of_mem_watchedIDs (hitems : ∀ item ∈ input.tokenItems, Readable item.id)
    (ht : t ∈ watchedIDs input) : Readable t := by
  obtain ⟨item, hitem, rfl, -⟩ := mem_watchedIDs.mp ht
  exact hitems item hitem

theorem exists_addMissing (hwallet : selectedWallet input = some wallet) (hid : Readable wallet.id)
    (hitems : ∀ item ∈ input.tokenItems, Readable item.id) (h : table.IsReadable) :
    ∃ after, addMissingAccountsForWhitelistedAndPaymentTokenItems input table = .ok after ∧
      after.IsReadable ∧ Completed input wallet table after := by
  obtain ⟨ids, hids, hmem⟩ := exists_allSelectedWalletAccountsIds hwallet hid h
  have hsplit : ∀ id ∈ ids, ∃ t, AccountID.tokenIDOf id = .ok t := by
    intro id hin
    obtain ⟨⟨t, ht, hvalue⟩, -⟩ := (hmem id).mp hin
    rw [hvalue, AccountID.tokenIDOf_value ht hid]
    exact ⟨t, rfl⟩
  obtain ⟨tokens, htokens, hmemTokens⟩ := exists_mapM_ok hsplit
  have hwatched : ∀ t ∈ watchedIDs input, Readable t :=
    fun t ht => readable_of_mem_watchedIDs hitems ht
  -- a token is missing if nothing is stored for it
  have hmissing : ∀ t, t ∈ input.setOrder ((watchedIDs input).filter (· ∉ tokens)) ↔
      t ∈ watchedIDs input ∧ table.stored (AccountID.value ⟨t, wallet.id⟩) = none := by
    intro t
    rw [input.mem_setOrder, List.mem_filter, decide_eq_true_eq, ← Option.not_isSome_iff_eq_none]
    refine and_congr_right fun ht => not_congr ?_
    rw [hmemTokens]
    constructor
    · intro hin
      obtain ⟨id, hin, htoken⟩ := hin
      obtain ⟨⟨t', ht', hvalue⟩, hstored⟩ := (hmem id).mp hin
      rw [hvalue, AccountID.tokenIDOf_value ht' hid] at htoken
      obtain rfl : t' = t := Except.ok.inj htoken
      exact hvalue ▸ hstored
    · intro hstored
      exact ⟨_, (hmem _).mpr ⟨⟨t, hwatched t ht, rfl⟩, hstored⟩,
        AccountID.tokenIDOf_value (hwatched t ht) hid⟩
  obtain ⟨after, hafter, hreadable, hstored⟩ := foldl_save hid
    (fun t ht => hwatched t ((hmissing t).mp ht).1) h
  refine ⟨after, ?_, hreadable, fun id => ?_⟩
  · rw [addMissingAccountsForWhitelistedAndPaymentTokenItems, hwallet]
    exact bind_ok.mpr ⟨ids, hids, bind_ok.mpr ⟨tokens, htokens, congrArg Except.ok hafter⟩⟩
  · rw [hstored]
    refine if_congr ?_ rfl rfl
    simp only [hmissing]
    constructor
    · intro hin
      obtain ⟨t, ⟨ht, hnone⟩, rfl⟩ := hin
      exact ⟨⟨t, ht, rfl⟩, hnone⟩
    · intro hin
      obtain ⟨⟨t, ht, rfl⟩, hnone⟩ := hin
      exact ⟨t, ⟨ht, hnone⟩, rfl⟩

/-! ### The balances -/

/-- What the node says an address has of a token. -/
def reportedBalance (lib : ThirdParty) (node : BalanceNode) (tokenID : TokenID)
    (address : Address) : Option Int :=
  if tokenID = Token.Ether.id then node.eth_getBalance address
  else ERC20TokenContractProxy.balance lib node ⟨tokenID⟩ address

theorem find_of_mem_watchedIDs (ht : t ∈ watchedIDs input) :
    ∃ item, DBTokenListItemRepository.find input.tokenItems t = some item ∧
      item.token.address = ⟨t⟩ := by
  unfold DBTokenListItemRepository.find
  split
  · rename_i hEther
    exact ⟨_, rfl, hEther ▸ rfl⟩
  · obtain ⟨item, hitem, hid, -⟩ := mem_watchedIDs.mp ht
    have hfound : (input.tokenItems.find? (·.id = t)).isSome = true :=
      List.find?_isSome.mpr ⟨item, hitem, decide_eq_true hid⟩
    obtain ⟨found, hfind⟩ := Option.isSome_iff_exists.mp hfound
    have hid' : found.id = t := by simpa using List.find?_some hfind
    exact ⟨found, hfind, hid' ▸ rfl⟩

/-- What `find(id:)` returns for the wallet's identifier. -/
theorem findWallet_of_selected (hwallet : selectedWallet input = some wallet) :
    findWallet input.wallets wallet.id = some wallet := by
  obtain ⟨id, -, hfind⟩ := Option.bind_eq_some_iff.mp hwallet
  rw [id_of_findWallet hfind]
  exact hfind

/-- A wallet without an address is skipped. -/
theorem balance_skipped (hwallet : selectedWallet input = some wallet) (hid : Readable wallet.id)
    (ht : Readable t) (haddress : wallet.address = none) :
    balance lib input node (AccountID.value ⟨t, wallet.id⟩) = .ok .skipped := by
  refine bind_ok.mpr ⟨wallet.id, AccountID.walletIDOf_value ht hid, ?_⟩
  rw [findWallet_of_selected hwallet, Option.bind_some, haddress]
  rfl

/-- The node is asked for the balance that the wallet's address has of the account's token. -/
theorem balance_ofNode (hwallet : selectedWallet input = some wallet) (hid : Readable wallet.id)
    (ht : Readable t) (hwatched : t = Token.Ether.id ∨ t ∈ watchedIDs input) {address : Address}
    (haddress : wallet.address = some address) :
    balance lib input node (AccountID.value ⟨t, wallet.id⟩) =
      .ok (.ofNode (reportedBalance lib node t address)) := by
  refine bind_ok.mpr ⟨wallet.id, AccountID.walletIDOf_value ht hid, ?_⟩
  rw [findWallet_of_selected hwallet, Option.bind_some, haddress]
  refine bind_ok.mpr ⟨t, AccountID.tokenIDOf_value ht hid, ?_⟩
  unfold reportedBalance
  split
  · rfl
  · rename_i hEther
    obtain ⟨item, hfind, hitem⟩ := find_of_mem_watchedIDs (hwatched.resolve_left hEther)
    refine bind_ok.mpr ⟨item, unwrap_ok.mpr hfind, ?_⟩
    rw [hitem]
    rfl

/-! ### The loop -/

/-- What the loop over the accounts does to the table, wherever it stops. -/
structure LoopEffect (lib : ThirdParty) (input : RefreshInput) (node : BalanceNode) (ids : List Str)
    (before after : AccountTable) (returned : Bool) : Prop where
  readable : after.IsReadable
  stored : ∀ id, after.stored id = before.stored id ∨
    id ∈ ids ∧ ∃ b, balance lib input node id = .ok (.reported b) ∧ after.stored id = some (some b)
  complete : returned = true → ∀ id ∈ ids, balance lib input node id ≠ .ok .threw ∧
    ∀ b, balance lib input node id = .ok (.reported b) → after.stored id = some (some b)

/-- The account in front was skipped. -/
theorem LoopEffect.skipped {id : Str} {ids : List Str} {before after : AccountTable}
    {returned : Bool} (h : LoopEffect lib input node ids before after returned)
    (hid : balance lib input node id = .ok .skipped) :
    LoopEffect lib input node (id :: ids) before after returned where
  readable := h.readable
  stored i := (h.stored i).imp_right fun hi => ⟨List.mem_cons_of_mem id hi.1, hi.2⟩
  complete hreturned := by
    refine List.forall_mem_cons.mpr ⟨?_, h.complete hreturned⟩
    rw [hid]
    exact ⟨by simp, fun b hb => by simp at hb⟩

/-- The balance of the account in front was saved. What comes after that either leaves it or saves
the same. -/
theorem LoopEffect.saved {id : Str} {ids : List Str} {before after : AccountTable}
    {returned : Bool} {b : Int}
    (h : LoopEffect lib input node ids (DBAccountRepository.save before ⟨id, some b⟩) after returned)
    (hid : balance lib input node id = .ok (.reported b)) :
    LoopEffect lib input node (id :: ids) before after returned := by
  have hstored : after.stored id = some (some b) := by
    rcases h.stored id with hsame | ⟨-, b', hb', hnew⟩
    · rw [hsame, AccountTable.stored_save, if_pos rfl]
    · rw [hid, Except.ok.injEq, BalanceAnswer.reported.injEq] at hb'
      rw [hnew, hb']
  refine ⟨h.readable, fun i => ?_, fun hreturned => ?_⟩
  · by_cases hi : i = id
    · exact .inr ⟨hi ▸ List.mem_cons_self, b, hi ▸ hid, hi ▸ hstored⟩
    · have hrest := h.stored i
      rw [AccountTable.stored_save, if_neg hi] at hrest
      exact hrest.imp_right fun hin => ⟨List.mem_cons_of_mem id hin.1, hin.2⟩
  · refine List.forall_mem_cons.mpr ⟨⟨?_, fun b' hb' => ?_⟩, h.complete hreturned⟩
    · rw [hid]
      simp
    · rw [hid, Except.ok.injEq, BalanceAnswer.reported.injEq] at hb'
      rw [hstored, hb']

theorem exists_updateBalances {ids : List Str} (h : table.IsReadable)
    (hask : ∀ id ∈ ids, ∃ answer, balance lib input node id = .ok answer)
    (hids : ∀ id ∈ ids, (table.stored id).isSome = true) :
    ∃ after returned, updateBalances lib input node ids table = .ok (after, returned) ∧
      LoopEffect lib input node ids table after returned := by
  induction ids generalizing table with
  | nil =>
      exact ⟨table, true, rfl, h, fun id => .inl rfl,
        fun _ id hid => absurd hid List.not_mem_nil⟩
  | cons id ids ih =>
      obtain ⟨⟨answer, hanswer⟩, hask⟩ := List.forall_mem_cons.mp hask
      obtain ⟨hid, hids⟩ := List.forall_mem_cons.mp hids
      cases answer with
      | skipped =>
          obtain ⟨after, returned, hafter, heffect⟩ := ih h hask hids
          exact ⟨after, returned, bind_ok.mpr ⟨_, hanswer, hafter⟩, heffect.skipped hanswer⟩
      | threw =>
          refine ⟨table, false, bind_ok.mpr ⟨_, hanswer, rfl⟩, h, fun i => .inl rfl, fun hret => ?_⟩
          exact absurd hret Bool.false_ne_true
      | reported b =>
          obtain ⟨old, hold⟩ := Option.isSome_iff_exists.mp hid
          have hfind := AccountTable.find_eq h hold
          obtain ⟨row, hrow, hrowID⟩ := AccountTable.stored_isSome.mp hid
          obtain ⟨i, ht, hw, hi⟩ := h row hrow
          have hsaved : (DBAccountRepository.save table ⟨id, some b⟩).IsReadable :=
            h.save ht hw (hrowID ▸ hi)
          have hkept : ∀ j ∈ ids,
              ((DBAccountRepository.save table ⟨id, some b⟩).stored j).isSome = true := by
            intro j hj
            rw [AccountTable.stored_save]
            split
            · rfl
            · exact hids j hj
          obtain ⟨after, returned, hafter, heffect⟩ := ih hsaved hask hkept
          refine ⟨after, returned, bind_ok.mpr ⟨_, hanswer, ?_⟩, heffect.saved hanswer⟩
          exact bind_ok.mpr ⟨_, hfind, bind_ok.mpr ⟨_, rfl, hafter⟩⟩

/-! ### The refresh -/

/-- The tokens whose accounts the refresh of a wallet is about. -/
def Covered (input : RefreshInput) (wallet : Wallet) (table : AccountTable) (t : TokenID) : Prop :=
  t ∈ watchedIDs input ∨
    (t = Token.Ether.id ∧ (table.stored (AccountID.value ⟨t, wallet.id⟩)).isSome = true)

/-- The node reported a balance for the account with an identifier. -/
def Told (lib : ThirdParty) (input : RefreshInput) (node : BalanceNode) (wallet : Wallet)
    (table : AccountTable) (id : Str) (b : Int) : Prop :=
  ∃ t address, Covered input wallet table t ∧ id = AccountID.value ⟨t, wallet.id⟩ ∧
    wallet.address = some address ∧ reportedBalance lib node t address = some b

/-- What a refresh that returned has done. -/
structure Refreshed (lib : ThirdParty) (input : RefreshInput) (node : BalanceNode) (wallet : Wallet)
    (before after : AccountTable) : Prop where
  /-- There is an account for every whitelisted or payment token. -/
  exists_account : ∀ t ∈ watchedIDs input,
    (after.stored (AccountID.value ⟨t, wallet.id⟩)).isSome = true
  reported : ∀ t, Covered input wallet before t → ∀ address, wallet.address = some address →
    ∃ b, reportedBalance lib node t address = some b ∧
      after.stored (AccountID.value ⟨t, wallet.id⟩) = some (some b)
  /-- A wallet without an address keeps its balances; new accounts have none. -/
  skipped : ∀ t, Covered input wallet before t → wallet.address = none →
    after.stored (AccountID.value ⟨t, wallet.id⟩) =
      some ((before.stored (AccountID.value ⟨t, wallet.id⟩)).getD none)
  unchanged : ∀ id, (∀ t, Covered input wallet before t → id ≠ AccountID.value ⟨t, wallet.id⟩) →
    after.stored id = before.stored id
  otherWallets : ∀ i : AccountID, Readable i.tokenID → Readable i.walletID →
    i.walletID ≠ wallet.id → after.stored i.value = before.stored i.value

/-- What a refresh has done, wherever it was stopped. -/
structure PartlyRefreshed (lib : ThirdParty) (input : RefreshInput) (node : BalanceNode)
    (wallet : Wallet) (before after : AccountTable) : Prop where
  /-- No account is lost. -/
  kept : ∀ id old, before.stored id = some old → after.stored id = some old ∨
    ∃ b, Told lib input node wallet before id b ∧ after.stored id = some (some b)
  /-- A new account belongs to a whitelisted or payment token. -/
  added : ∀ id new, before.stored id = none → after.stored id = some new →
    (∃ t ∈ watchedIDs input, id = AccountID.value ⟨t, wallet.id⟩) ∧
      (new = none ∨ ∃ b, Told lib input node wallet before id b ∧ new = some b)

/-- The loop goes through the accounts of the selected wallet that hold Ether, a whitelisted or a
payment token. -/
theorem exists_updateBalancesFor (hwallet : selectedWallet input = some wallet)
    (hid : Readable wallet.id) (h : table.IsReadable) :
    ∃ ids after returned,
      updateBalancesForWhitelistedAndPaymentTokenAccounts lib input node table =
        .ok (after, returned) ∧
      LoopEffect lib input node ids table after returned ∧
      ∀ id, id ∈ ids ↔ (∃ t, Readable t ∧ id = AccountID.value ⟨t, wallet.id⟩ ∧
        (t = Token.Ether.id ∨ t ∈ watchedIDs input)) ∧ (table.stored id).isSome = true := by
  obtain ⟨all, hall, hmemAll⟩ := exists_allSelectedWalletAccountsIds hwallet hid h
  have hsplit : ∀ id ∈ all, ∃ b, (do
      let tokenID ← AccountID.tokenIDOf id
      return decide (tokenID = Token.Ether.id) || (watchedIDs input).contains tokenID) =
        Except.ok b := by
    intro id hin
    obtain ⟨⟨t, ht, hvalue⟩, -⟩ := (hmemAll id).mp hin
    rw [hvalue, AccountID.tokenIDOf_value ht hid]
    exact ⟨_, rfl⟩
  obtain ⟨ids, hids, hmem⟩ := exists_filterEach_ok hsplit
  have hmemIDs : ∀ id, id ∈ ids ↔ (∃ t, Readable t ∧ id = AccountID.value ⟨t, wallet.id⟩ ∧
      (t = Token.Ether.id ∨ t ∈ watchedIDs input)) ∧ (table.stored id).isSome = true := by
    intro id
    rw [hmem, hmemAll]
    constructor
    · intro hin
      obtain ⟨⟨⟨t, ht, rfl⟩, hstored⟩, hkept⟩ := hin
      rw [AccountID.tokenIDOf_value ht hid] at hkept
      have hcovered := Except.ok.inj hkept
      rw [Bool.or_eq_true, decide_eq_true_eq, List.contains_iff_mem] at hcovered
      exact ⟨⟨t, ht, rfl, hcovered⟩, hstored⟩
    · intro hin
      obtain ⟨⟨t, ht, rfl, hcovered⟩, hstored⟩ := hin
      refine ⟨⟨⟨t, ht, rfl⟩, hstored⟩, ?_⟩
      rw [AccountID.tokenIDOf_value ht hid]
      refine congrArg Except.ok ?_
      rw [Bool.or_eq_true, decide_eq_true_eq, List.contains_iff_mem]
      exact hcovered
  -- no question traps: the token is Ether or has an entry in the list
  have hask : ∀ id ∈ ids, ∃ answer, balance lib input node id = .ok answer := by
    intro id hin
    obtain ⟨⟨t, ht, hvalue, hcovered⟩, -⟩ := (hmemIDs id).mp hin
    rw [hvalue]
    cases haddress : wallet.address with
    | none => exact ⟨_, balance_skipped hwallet hid ht haddress⟩
    | some address => exact ⟨_, balance_ofNode hwallet hid ht hcovered haddress⟩
  obtain ⟨after, returned, hafter, heffect⟩ :=
    exists_updateBalances h hask fun id hin => ((hmemIDs id).mp hin).2
  refine ⟨ids, after, returned, ?_, heffect, hmemIDs⟩
  exact bind_ok.mpr ⟨all, hall, bind_ok.mpr ⟨ids, hids, hafter⟩⟩

section

variable {added : AccountTable}

theorem Completed.stored_covered (h : Completed input wallet table added)
    (ht : Covered input wallet table t) :
    added.stored (AccountID.value ⟨t, wallet.id⟩) =
      some ((table.stored (AccountID.value ⟨t, wallet.id⟩)).getD none) := by
  rw [h]
  cases hstored : table.stored (AccountID.value ⟨t, wallet.id⟩) with
  | some old => rw [if_neg fun hnone => Option.some_ne_none old hnone.2, Option.getD_some]
  | none =>
      refine if_pos ⟨?_, rfl⟩
      rcases ht with ht | ht
      · exact ⟨t, ht, rfl⟩
      · rw [hstored] at ht
        exact absurd ht.2 Bool.false_ne_true

theorem Completed.stored_of_ne (h : Completed input wallet table added) {id : Str}
    (hid : ∀ t ∈ watchedIDs input, id ≠ AccountID.value ⟨t, wallet.id⟩) :
    added.stored id = table.stored id := by
  rw [h]
  refine if_neg fun hnew => ?_
  obtain ⟨t, ht, hvalue⟩ := hnew.1
  exact hid t ht hvalue

/-- Only the Ether account and those of watched tokens are looked at. -/
theorem Completed.covered (h : Completed input wallet table added) (hid : Readable wallet.id)
    (hitems : ∀ item ∈ input.tokenItems, Readable item.id) (ht : Readable t)
    (hwatched : t = Token.Ether.id ∨ t ∈ watchedIDs input)
    (hstored : (added.stored (AccountID.value ⟨t, wallet.id⟩)).isSome = true) :
    Covered input wallet table t := by
  by_cases hmem : t ∈ watchedIDs input
  · exact .inl hmem
  · refine .inr ⟨hwatched.resolve_right hmem, ?_⟩
    rw [h.stored_of_ne] at hstored
    · exact hstored
    · intro t' ht' hvalue
      have heq := AccountID.value_inj ht hid (readable_of_mem_watchedIDs hitems ht') hid hvalue
      have htoken : t = t' := congrArg AccountID.tokenID heq
      exact hmem (htoken ▸ ht')

end

theorem Covered.readable (hitems : ∀ item ∈ input.tokenItems, Readable item.id)
    (ht : Covered input wallet table t) : Readable t := by
  rcases ht with ht | ⟨rfl, -⟩
  · exact readable_of_mem_watchedIDs hitems ht
  · decide

/-- An account the loop went through and got a balance for. -/
theorem told_of_balance (hwallet : selectedWallet input = some wallet) (hid : Readable wallet.id)
    (ht : Readable t) (hc : Covered input wallet table t) {b : Int}
    (hb : balance lib input node (AccountID.value ⟨t, wallet.id⟩) = .ok (.reported b)) :
    Told lib input node wallet table (AccountID.value ⟨t, wallet.id⟩) b := by
  cases haddress : wallet.address with
  | none =>
      rw [balance_skipped hwallet hid ht haddress] at hb
      simp at hb
  | some address =>
      have hwatched : t = Token.Ether.id ∨ t ∈ watchedIDs input := hc.symm.imp_left And.left
      rw [balance_ofNode hwallet hid ht hwatched haddress] at hb
      refine ⟨t, address, hc, rfl, haddress, ?_⟩
      cases hreported : reportedBalance lib node t address with
      | none => simp [hreported, BalanceAnswer.ofNode] at hb
      | some b' =>
          rw [hreported] at hb
          exact congrArg some (BalanceAnswer.reported.inj (Except.ok.inj hb))

/-- The refresh of a selected wallet, in its two steps. -/
theorem exists_refresh (hwallet : selectedWallet input = some wallet) (hid : Readable wallet.id)
    (hitems : ∀ item ∈ input.tokenItems, Readable item.id) (h : table.IsReadable) :
    ∃ added ids after returned,
      updateAccountsBalances lib input node false table = .ok (after, returned) ∧
      Completed input wallet table added ∧ LoopEffect lib input node ids added after returned ∧
      ∀ id, id ∈ ids ↔ ∃ t, Covered input wallet table t ∧ id = AccountID.value ⟨t, wallet.id⟩ := by
  obtain ⟨added, hadded, hreadable, hcompleted⟩ := exists_addMissing hwallet hid hitems h
  obtain ⟨ids, after, returned, hafter, heffect, hmem⟩ :=
    @exists_updateBalancesFor lib input node wallet added hwallet hid hreadable
  refine ⟨added, ids, after, returned, ?_, hcompleted, heffect, fun id => ?_⟩
  · exact bind_ok.mpr ⟨(), rfl, bind_ok.mpr ⟨added, hadded, hafter⟩⟩
  · rw [hmem]
    constructor
    · intro hin
      obtain ⟨⟨t, ht, rfl, hwatched⟩, hstored⟩ := hin
      exact ⟨t, hcompleted.covered hid hitems ht hwatched hstored, rfl⟩
    · intro hin
      obtain ⟨t, ht, rfl⟩ := hin
      refine ⟨⟨t, ht.readable hitems, rfl, ht.symm.imp_left And.left⟩, ?_⟩
      rw [hcompleted.stored_covered ht]
      rfl

section

variable {added after : AccountTable} {ids : List Str} {returned : Bool}

theorem PartlyRefreshed.of_loopEffect (hwallet : selectedWallet input = some wallet)
    (hid : Readable wallet.id) (hitems : ∀ item ∈ input.tokenItems, Readable item.id)
    (hadded : Completed input wallet table added)
    (heffect : LoopEffect lib input node ids added after returned)
    (hmem : ∀ id, id ∈ ids ↔
      ∃ t, Covered input wallet table t ∧ id = AccountID.value ⟨t, wallet.id⟩) :
    PartlyRefreshed lib input node wallet table after := by
  -- what the loop changed, it was told
  have hstored : ∀ id, after.stored id = added.stored id ∨
      ∃ b, Told lib input node wallet table id b ∧ after.stored id = some (some b) := by
    intro id
    refine (heffect.stored id).imp_right fun hnew => ?_
    obtain ⟨hin, b, hb, hnew⟩ := hnew
    obtain ⟨t, ht, rfl⟩ := (hmem id).mp hin
    exact ⟨b, told_of_balance hwallet hid (ht.readable hitems) ht hb, hnew⟩
  constructor
  · intro id old hold
    have hsame : added.stored id = some old := by
      rw [hadded, hold]
      exact if_neg fun hnone => Option.some_ne_none old hnone.2
    rw [← hsame]
    exact hstored id
  · intro id new hnone hnew
    by_cases hwatched : ∃ t ∈ watchedIDs input, id = AccountID.value ⟨t, wallet.id⟩
    · refine ⟨hwatched, ?_⟩
      rcases hstored id with hsame | ⟨b, htold, hreported⟩
      · rw [hnew, hadded, if_pos ⟨hwatched, hnone⟩] at hsame
        exact .inl (Option.some.inj hsame)
      · rw [hnew] at hreported
        exact .inr ⟨b, htold, Option.some.inj hreported⟩
    · -- Ether is covered only where it was stored, so nothing else is new
      exfalso
      have hsame : added.stored id = none := by
        rw [hadded, hnone]
        exact if_neg fun hnew => hwatched hnew.1
      rcases hstored id with hkept | ⟨b, ⟨t, address, ht, rfl, -⟩, -⟩
      · rw [hnew, hsame] at hkept
        exact Option.some_ne_none new hkept
      · rcases ht with ht | ht
        · exact hwatched ⟨t, ht, rfl⟩
        · rw [hnone] at ht
          exact Bool.false_ne_true ht.2

theorem Refreshed.of_loopEffect (hwallet : selectedWallet input = some wallet)
    (hid : Readable wallet.id) (hitems : ∀ item ∈ input.tokenItems, Readable item.id)
    (hadded : Completed input wallet table added)
    (heffect : LoopEffect lib input node ids added after true)
    (hmem : ∀ id, id ∈ ids ↔
      ∃ t, Covered input wallet table t ∧ id = AccountID.value ⟨t, wallet.id⟩) :
    Refreshed lib input node wallet table after := by
  have hreported : ∀ t, Covered input wallet table t → ∀ address, wallet.address = some address →
      ∃ b, reportedBalance lib node t address = some b ∧
        after.stored (AccountID.value ⟨t, wallet.id⟩) = some (some b) := by
    intro t ht address haddress
    obtain ⟨hthrew, hsaved⟩ := heffect.complete rfl _ ((hmem _).mpr ⟨t, ht, rfl⟩)
    rw [balance_ofNode hwallet hid (ht.readable hitems) (ht.symm.imp_left And.left) haddress]
      at hthrew hsaved
    cases hb : reportedBalance lib node t address with
    | none => exact absurd (by rw [hb]; rfl) hthrew
    | some b => exact ⟨b, rfl, hsaved b (by rw [hb]; rfl)⟩
  have hskipped : ∀ t, Covered input wallet table t → wallet.address = none →
      after.stored (AccountID.value ⟨t, wallet.id⟩) =
        some ((table.stored (AccountID.value ⟨t, wallet.id⟩)).getD none) := by
    intro t ht haddress
    rw [← hadded.stored_covered ht]
    refine (heffect.stored _).resolve_right fun hnew => ?_
    obtain ⟨-, b, hb, -⟩ := hnew
    rw [balance_skipped hwallet hid (ht.readable hitems) haddress] at hb
    simp at hb
  have hunchanged : ∀ id, (∀ t, Covered input wallet table t →
      id ≠ AccountID.value ⟨t, wallet.id⟩) → after.stored id = table.stored id := by
    intro id hne
    rw [← hadded.stored_of_ne fun t ht => hne t (.inl ht)]
    refine (heffect.stored id).resolve_right fun hnew => ?_
    obtain ⟨t, ht, hvalue⟩ := (hmem id).mp hnew.1
    exact hne t ht hvalue
  -- an account of another wallet has another identifier
  refine ⟨fun t ht => ?_, hreported, hskipped, hunchanged, fun i ht hw hne => ?_⟩
  · cases haddress : wallet.address with
    | none =>
        rw [hskipped t (.inl ht) haddress]
        rfl
    | some address =>
        obtain ⟨b, -, hstored⟩ := hreported t (.inl ht) address haddress
        rw [hstored]
        rfl
  · refine hunchanged i.value fun t hc hvalue => hne ?_
    exact congrArg AccountID.walletID
      (AccountID.value_inj ht hw (hc.readable hitems) hid hvalue)

end

/-- A refresh does not trap off the main thread. Without a selected wallet it does nothing; else it
touches the accounts of that wallet as the node's answers say, whether it returns or throws. -/
theorem updateAccountsBalances_law (hid : ∀ wallet ∈ selectedWallet input, Readable wallet.id)
    (hitems : ∀ item ∈ input.tokenItems, Readable item.id) (h : table.IsReadable) :
    ∃ after returned, updateAccountsBalances lib input node false table = .ok (after, returned) ∧
      (selectedWallet input = none → after = table ∧ returned = true) ∧
      ∀ wallet ∈ selectedWallet input,
        PartlyRefreshed lib input node wallet table after ∧
          (returned = true → Refreshed lib input node wallet table after) := by
  cases hwallet : selectedWallet input with
  | none =>
      have hadd : addMissingAccountsForWhitelistedAndPaymentTokenItems input table = .ok table := by
        rw [addMissingAccountsForWhitelistedAndPaymentTokenItems, hwallet]
      have hids : allSelectedWalletAccountsIds input table = .ok [] := by
        rw [allSelectedWalletAccountsIds, hwallet]
      refine ⟨table, true, ?_, fun _ => ⟨rfl, rfl⟩, fun wallet hmem => ?_⟩
      · exact bind_ok.mpr ⟨(), rfl, bind_ok.mpr ⟨table, hadd, bind_ok.mpr ⟨[], hids, rfl⟩⟩⟩
      · exact absurd hmem (Option.not_mem_none wallet)
  | some wallet =>
      have hreadable := hid wallet hwallet
      obtain ⟨added, ids, after, returned, hafter, hadded, heffect, hmem⟩ :=
        @exists_refresh lib input node wallet table hwallet hreadable hitems h
      refine ⟨after, returned, hafter, fun hnone => absurd hnone (Option.some_ne_none wallet),
        fun wallet' hwallet' => ?_⟩
      obtain rfl : wallet = wallet' := Option.some.inj hwallet'
      refine ⟨.of_loopEffect hwallet hreadable hitems hadded heffect hmem, fun hreturned => ?_⟩
      rw [hreturned] at heffect
      exact .of_loopEffect hwallet hreadable hitems hadded heffect hmem

/-! ### Two wallets -/

/-- A wallet without owners. -/
def walletAt (id : WalletID) (address : Option Address) : Wallet where
  id := id
  owners := ⟨[], List.nodup_nil⟩
  address := address

/-- A whitelisted and a payment token, and two wallets. The second one is selected. -/
def twoWallets : RefreshInput where
  selectedWalletID := some ['w']
  wallets := [walletAt ['v'] (some ⟨['1']⟩), walletAt ['w'] (some ⟨['2']⟩)]
  tokenItems :=
    [⟨⟨['G'], ['G'], 18, ⟨['g']⟩, []⟩, .whitelisted, false, some 0⟩,
      ⟨⟨['R'], ['R'], 18, ⟨['r']⟩, []⟩, .regular, true, none⟩]
  setOrder := List.dedup
  mem_setOrder := fun _ _ => List.mem_dedup
  nodup_setOrder := List.nodup_dedup

/-- The Ether account of the selected wallet and a token account of the other one. -/
def twoAccounts : AccountTable where
  rows := [.new Token.Ether.id ['w'] (some 1), .new ['g'] ['v'] (some 7)]
  nodup := by decide

/-- A node that always answers. -/
def answeringNode : BalanceNode where
  eth_getBalance := fun _ => some 5
  eth_call := fun _ _ => some [9]

theorem updateAccountsBalances_law_twoWallets :
    ∃ after, updateAccountsBalances reference twoWallets answeringNode false twoAccounts =
        .ok (after, true) ∧
      Refreshed reference twoWallets answeringNode (walletAt ['w'] (some ⟨['2']⟩)) twoAccounts
        after := by
  have hselected : selectedWallet twoWallets = some (walletAt ['w'] (some ⟨['2']⟩)) := by decide
  have hid : ∀ wallet ∈ selectedWallet twoWallets, Readable wallet.id := by
    intro wallet hwallet
    obtain rfl := Option.some.inj (hselected.symm.trans hwallet)
    decide
  have hitems : ∀ item ∈ twoWallets.tokenItems, Readable item.id := by decide
  have hreadable : twoAccounts.IsReadable :=
    List.forall_mem_cons.mpr ⟨⟨⟨Token.Ether.id, ['w']⟩, by decide, by decide, rfl⟩,
      List.forall_mem_singleton.mpr ⟨⟨['g'], ['v']⟩, by decide, by decide, rfl⟩⟩
  obtain ⟨after, returned, hafter, -, hlaw⟩ :=
    @updateAccountsBalances_law reference twoWallets answeringNode twoAccounts hid hitems hreadable
  have heval : (updateAccountsBalances reference twoWallets answeringNode false
      twoAccounts).toOption.map Prod.snd = some true := by decide +kernel
  rw [hafter] at heval
  obtain rfl : returned = true := Option.some.inj heval
  exact ⟨after, hafter, (hlaw _ hselected).2 rfl⟩

end AccountUpdateDomainService

end MultisigWallet
