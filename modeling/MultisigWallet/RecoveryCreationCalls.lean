import MultisigWallet.RecoveryCreationChecks

/-!
# MultisigWallet.RecoveryCreationCalls

When the builder can make its calls. Each of the owners to replace is looked up in the list of
owners, which starts with the contract's own entry: an owner with that address has nothing before
it. A first swap leaves the second owner in the list, so the two lookups are independent, and all
that is left is whether there are enough owners.
-/

namespace MultisigWallet

open RecoveryTransactionBuilder RecoveryDomainService

variable {lib : ThirdParty} {metadata : SafeContractMetadata} {w : Wallet}

/-! ### The calls -/

/-- The owners the calls are about can be told from the contract's own entry, and there are enough
of them: one for every confirmation the contract asks for. -/
structure Replaces (w : Wallet) (c : List Address × Int) : Prop where
  count : c.2.toNat ≤ (replaceable w c.1).length
  ordinary : ∀ a ∈ (replaceable w c.1).take c.2.toNat,
    a.normalized ≠ SafeOwnerManagerContractProxy.sentinelAddress

section Calls

variable {b b' : RecoveryTransactionBuilder} {role : OwnerRole} {data : Data} {o : Owner}
  {rest : List Owner} {t : List Address}

open SafeOwnerManagerContractProxy (sentinelAddress)

/-- The list of owners starts with the contract's entry. -/
def StartsWith (l : OwnerLinkedList) (t : List Address) : Prop := l.list = sentinelAddress :: t

theorem addressBefore_isOk {l : OwnerLinkedList} {a : Address} (hlist : StartsWith l t)
    (hmem : a.normalized ∈ t) :
    (∃ p, l.addressBefore a = .ok p) ↔ a.normalized ≠ sentinelAddress := by
  rw [← Links.before?_cons_isSome hmem, ← hlist, Option.isSome_iff_exists]
  exact exists_congr fun p => unwrap_ok

theorem swapOwnerData_isOk (lib : ThirdParty) (hmod : b.modifiableOwners = o :: rest)
    (hlist : StartsWith b.ownerList t) (hmem : o.address.normalized ∈ t)
    (howner : (b.wallet.owner role).isSome = true) :
    (∃ r, b.swapOwnerData lib role = .ok r) ↔ o.address.normalized ≠ sentinelAddress := by
  obtain ⟨newOwner, hnew⟩ := Option.isSome_iff_exists.mp howner
  rw [← addressBefore_isOk hlist hmem]
  unfold swapOwnerData
  rw [hmod]
  constructor
  · intro h
    obtain ⟨r, hr⟩ := h
    obtain ⟨p, hp, -⟩ := bind_ok.mp hr
    exact ⟨p, hp⟩
  · intro h
    obtain ⟨p, hp⟩ := h
    have hp : ({ b with modifiableOwners := rest } :
        RecoveryTransactionBuilder).ownerList.addressBefore o.address = .ok p := hp
    simp only [hp, hnew, unwrap_some, bind, Except.bind]
    split
    · exact ⟨_, rfl⟩
    · exact ⟨_, rfl⟩

theorem removeOwnerData_isOk (lib : ThirdParty) (hmod : b.modifiableOwners = o :: rest)
    (hlist : StartsWith b.ownerList t) (hmem : o.address.normalized ∈ t) :
    (∃ r, b.removeOwnerData lib = .ok r) ↔ o.address.normalized ≠ sentinelAddress := by
  rw [← addressBefore_isOk hlist hmem]
  unfold removeOwnerData
  rw [hmod]
  constructor
  · intro h
    obtain ⟨r, hr⟩ := h
    obtain ⟨p, hp, -⟩ := bind_ok.mp hr
    exact ⟨p, hp⟩
  · intro h
    obtain ⟨p, hp⟩ := h
    exact ⟨_, bind_ok.mpr ⟨p, hp, rfl⟩⟩

theorem addOwnerData_isOk (lib : ThirdParty) (hlist : StartsWith b.ownerList t)
    (howner : (b.wallet.owner role).isSome = true) : ∃ r, b.addOwnerData lib role = .ok r := by
  obtain ⟨newOwner, hnew⟩ := Option.isSome_iff_exists.mp howner
  have hlast : ∃ l, b.ownerList.add newOwner.address = .ok l := by
    unfold OwnerLinkedList.add
    rw [hlist, List.getLast?_cons]
    exact ⟨_, rfl⟩
  obtain ⟨l, hl⟩ := hlast
  unfold addOwnerData
  simp only [hnew, unwrap_some, hl, bind, Except.bind]
  split
  · exact ⟨_, rfl⟩
  · exact ⟨_, rfl⟩

/-- A swap takes the first of the owners to replace, and leaves the others in the list. -/
theorem swapOwnerData_rest (hmod : b.modifiableOwners = o :: rest)
    (hlist : StartsWith b.ownerList t) (hne : o.address.normalized ≠ sentinelAddress)
    (h : b.swapOwnerData lib role = .ok (data, b')) :
    b'.modifiableOwners = rest ∧
      ∃ t', StartsWith b'.ownerList t' ∧ ∀ y, [o.address.normalized, y].Sublist t → y ∈ t' := by
  unfold swapOwnerData at h
  rw [hmod] at h
  obtain ⟨p, -, h⟩ := bind_ok.mp h
  obtain ⟨newOwner, -, h⟩ := bind_ok.mp h
  split at h
  · obtain ⟨-, rfl⟩ := Prod.mk.inj (Except.ok.inj h)
    refine ⟨rfl, t.replace o.address.normalized newOwner.address.normalized, ?_,
      fun y hy => Links.mem_replace hy _⟩
    show List.replace b.ownerList.list _ _ = _
    rw [hlist, List.replace_cons, beq_eq_false_iff_ne.mpr hne]
  · obtain ⟨-, rfl⟩ := Prod.mk.inj (Except.ok.inj h)
    exact ⟨rfl, t, hlist, fun y hy => hy.subset (by simp)⟩

/-! ### All of the calls -/

theorem length_knownRoles (w : Wallet) :
    (knownRoles w.owners.storage).length = (newWalletScheme w).owners := List.length_map _

theorem owner_isSome_iff (hrole : role ≠ .unknown) :
    (w.owner role).isSome = true ↔ role ∈ knownRoles w.owners.storage := by
  rw [Wallet.owner, OwnerList.first, List.find?_isSome, knownRoles, List.mem_map]
  constructor
  · intro h
    obtain ⟨o, ho, heq⟩ := h
    have heq := of_decide_eq_true heq
    exact ⟨o, List.mem_filter.mpr ⟨ho, decide_eq_true (heq ▸ hrole)⟩, heq⟩
  · intro h
    obtain ⟨o, ho, heq⟩ := h
    exact ⟨o, List.mem_of_mem_filter ho, decide_eq_true heq⟩

/-- An owner is missing if not every role has one. -/
theorem owners_lt {roles : List OwnerRole} (hrole : role ∈ roles)
    (habsent : role ∉ knownRoles w.owners.storage)
    (hroles : ∀ r ∈ knownRoles w.owners.storage, r ∈ roles) :
    (newWalletScheme w).owners < roles.length := by
  have hsub : knownRoles w.owners.storage ⊆ roles.erase role := by
    intro r hr
    have hne : r ≠ role := fun heq => habsent (heq ▸ hr)
    exact (List.mem_erase_of_ne hne).mpr (hroles r hr)
  have hle := (List.subperm_of_subset w.owners.roles_nodup hsub).length_le
  rw [length_knownRoles, List.length_erase_of_mem hrole] at hle
  have hpos := List.length_pos_of_mem hrole
  omega

/-- A supported scheme has an owner in every role it is about. -/
theorem owner_of_supported
    (hnew : newWalletScheme w ∈ [WalletScheme.withoutExtension, .withExtension])
    (hrole : role ≠ .unknown)
    (hext : role = .browserExtension → newWalletScheme w = .withExtension) :
    (w.owner role).isSome = true := by
  rw [owner_isSome_iff hrole]
  by_contra habsent
  have hknown : OwnerRole.unknown ∉ knownRoles w.owners.storage := by
    intro hmem
    obtain ⟨o, ho, heq⟩ := List.mem_map.mp hmem
    exact of_decide_eq_true (List.mem_filter.mp ho).2 heq
  rcases List.mem_pair.mp hnew with hscheme | hscheme
  · -- three owners, and no extension among them
    have hnone : OwnerRole.browserExtension ∉ knownRoles w.owners.storage := by
      intro hmem
      obtain ⟨o, ho⟩ := Option.isSome_iff_exists.mp ((owner_isSome_iff (by decide)).mpr hmem)
      have hcount := congrArg WalletScheme.confirmations hscheme
      simp [newWalletScheme, ho, WalletScheme.withoutExtension] at hcount
    have hlt := @owners_lt w role [.thisDevice, .paperWallet, .paperWalletDerived]
      (by cases role <;> simp_all [WalletScheme.withoutExtension, WalletScheme.withExtension])
      habsent (fun r hr => by cases r <;> simp_all)
    rw [hscheme] at hlt
    exact absurd hlt (by decide)
  · have hlt := @owners_lt w role
      [.thisDevice, .browserExtension, .paperWallet, .paperWalletDerived]
      (by cases role <;> simp_all) habsent (fun r hr => by cases r <;> simp_all)
    rw [hscheme] at hlt
    exact absurd hlt (by decide)

/-- Two calls in a row. -/
theorem pair_isOk {x : Except Trap (Data × RecoveryTransactionBuilder)}
    {f : RecoveryTransactionBuilder → Except Trap (Data × RecoveryTransactionBuilder)} :
    (∃ r, (do
      let (d₁, b₁) ← x
      let (d₂, b₂) ← f b₁
      return ([d₁, d₂], b₂)) = .ok r) ↔ ∃ r, x = .ok r ∧ ∃ r', f r.2 = .ok r' := by
  rw [bind_isOk]
  refine exists_congr fun r => and_congr_right fun _ => ?_
  rw [bind_isOk]
  exact ⟨fun h => ⟨h.choose, h.choose_spec.1⟩, fun h => ⟨h.choose, h.choose_spec, _, rfl⟩⟩

section Checked

variable {address : Address} {c : List Address × Int} {x : Address} {xs : List Address}

theorem Checked.startsWith (h : Checked metadata w address c b) :
    StartsWith b.ownerList (c.1.map Address.normalized ++ [sentinelAddress]) := by
  rw [StartsWith, h.ownerList]
  rfl

/-- The owners to replace, in the order of the list. -/
theorem replaceable_sublist (w : Wallet) (owners : List Address) :
    ((replaceable w owners).map Address.normalized).Sublist
      (owners.map Address.normalized ++ [sentinelAddress]) :=
  (List.filter_sublist.map _).trans (List.sublist_append_left _ _)

theorem Checked.firstSwap (lib : ThirdParty) (h : Checked metadata w address c b)
    (hx : replaceable w c.1 = x :: xs) :
    (∃ r, b.swapOwnerData lib .thisDevice = .ok r) ↔ x.normalized ≠ sentinelAddress := by
  have hmod := h.modifiableOwners
  rw [hx, List.map_cons] at hmod
  have hmem : x.normalized ∈ c.1.map Address.normalized ++ [sentinelAddress] :=
    (replaceable_sublist w c.1).subset (by simp [hx])
  refine swapOwnerData_isOk lib hmod h.startsWith hmem ?_
  rw [h.wallet.same.owner _ (by decide)]
  exact owner_of_supported h.supported.new (by decide) (fun h => by cases h)

theorem Checked.afterSwap (h : Checked metadata w address c b) (hx : replaceable w c.1 = x :: xs)
    (hswap : b.swapOwnerData lib .thisDevice = .ok (data, b')) :
    b'.modifiableOwners = xs.map (⟨·, .unknown⟩) ∧ b'.wallet = b.wallet ∧
      ∃ t, StartsWith b'.ownerList t ∧ ∀ y ys, xs = y :: ys → y.normalized ∈ t := by
  have hne := (h.firstSwap lib hx).mp ⟨_, hswap⟩
  have hmod := h.modifiableOwners
  rw [hx, List.map_cons] at hmod
  obtain ⟨hrest, t, ht, hsublist⟩ := swapOwnerData_rest hmod h.startsWith hne hswap
  refine ⟨hrest, (swapOwnerData_wallet hswap).1, t, ht, ?_⟩
  intro y ys hxs
  have hfirst : [x.normalized, y.normalized].Sublist
      ((replaceable w c.1).map Address.normalized) := by
    rw [hx, hxs]
    exact (List.nil_sublist _).cons_cons _ |>.cons_cons _
  exact hsublist _ (hfirst.trans (replaceable_sublist w c.1))

theorem replaces_one (hx : replaceable w c.1 = x :: xs) (hc : c.2 = 1) :
    Replaces w c ↔ x.normalized ≠ sentinelAddress := by
  constructor
  · intro h
    exact h.ordinary x (by simp [hx, hc])
  · intro hne
    refine ⟨by simp [hx, hc], ?_⟩
    intro a ha
    have hax : a = x := by simpa [hx, hc] using ha
    rw [hax]
    exact hne

theorem replaces_two (hx : replaceable w c.1 = x :: xs) (hc : c.2 = 2) :
    Replaces w c ↔ x.normalized ≠ sentinelAddress ∧
      ∃ y ys, xs = y :: ys ∧ y.normalized ≠ sentinelAddress := by
  cases xs with
  | nil =>
      constructor
      · intro h
        have hcount := h.count
        rw [hx, hc] at hcount
        exact absurd hcount (by simp)
      · intro h
        obtain ⟨-, y, ys, hnil, -⟩ := h
        cases hnil
  | cons y ys =>
      constructor
      · intro h
        exact ⟨h.ordinary x (by simp [hx, hc]), y, ys, rfl, h.ordinary y (by simp [hx, hc])⟩
      · intro h
        obtain ⟨hfirst, y', ys', hcons, hsecond⟩ := h
        obtain ⟨rfl, rfl⟩ := List.cons.inj hcons
        refine ⟨by simp [hx, hc], ?_⟩
        intro a ha
        have ha : a = x ∨ a = y := by simpa [hx, hc] using ha
        rcases ha with rfl | rfl
        · exact hfirst
        · exact hsecond

/-- The second call takes the second owner to replace. -/
theorem Checked.secondCall
    {f : RecoveryTransactionBuilder → Except Trap (Data × RecoveryTransactionBuilder)}
    (h : Checked metadata w address c b) (hx : replaceable w c.1 = x :: xs) (hc : c.2 = 2)
    (hnil : ∀ b' r, b'.modifiableOwners = [] → f b' ≠ .ok r)
    (hcons : ∀ b' y ys t, b'.wallet = b.wallet →
      b'.modifiableOwners = (⟨y, .unknown⟩ : Owner) :: ys → StartsWith b'.ownerList t →
      y.normalized ∈ t → ((∃ r, f b' = .ok r) ↔ y.normalized ≠ sentinelAddress)) :
    (∃ r, b.swapOwnerData lib .thisDevice = .ok r ∧ ∃ r', f r.2 = .ok r') ↔ Replaces w c := by
  rw [replaces_two hx hc, ← h.firstSwap lib hx]
  constructor
  · intro hcalls
    obtain ⟨⟨data, b'⟩, hswap, hsecond⟩ := hcalls
    obtain ⟨hmod, hwallet, t, ht, hmem⟩ := h.afterSwap hx hswap
    refine ⟨⟨_, hswap⟩, ?_⟩
    cases xs with
    | nil =>
        obtain ⟨r', hr'⟩ := hsecond
        exact absurd hr' (hnil b' r' hmod)
    | cons y ys => exact ⟨y, ys, rfl, (hcons b' y _ t hwallet hmod ht (hmem y ys rfl)).mp hsecond⟩
  · intro hcalls
    obtain ⟨⟨⟨data, b'⟩, hswap⟩, y, ys, rfl, hne⟩ := hcalls
    obtain ⟨hmod, hwallet, t, ht, hmem⟩ := h.afterSwap hx hswap
    exact ⟨_, hswap, (hcons b' y _ t hwallet hmod ht (hmem y ys rfl)).mpr hne⟩

/-- The calls can be built exactly when there are owners for them to replace. -/
theorem Checked.callsData_isOk (lib : ThirdParty) (h : Checked metadata w address c b) :
    (∃ r, b.callsData lib = .ok r) ↔ Replaces w c := by
  obtain ⟨x, xs, hx⟩ : ∃ x xs, replaceable w c.1 = x :: xs := by
    refine List.exists_cons_of_ne_nil fun hnil => ?_
    have hlength := h.supported.replaceable
    simp [hnil] at hlength
  have howner : ∀ b' : RecoveryTransactionBuilder, b'.wallet = b.wallet →
      b.newScheme = .withExtension → (b'.wallet.owner .browserExtension).isSome = true := by
    intro b' hwallet hnew
    rw [hwallet, h.wallet.same.owner _ (by decide)]
    exact owner_of_supported h.supported.new (by decide) fun _ => h.newScheme ▸ hnew
  rcases List.mem_pair.mp h.supported.old with hold | hold
  · have hc : c.2 = 1 := congrArg WalletScheme.confirmations hold
    have hold : b.oldScheme = .withoutExtension := h.oldScheme.trans hold
    rw [replaces_one hx hc, ← h.firstSwap lib hx]
    rcases List.mem_pair.mp h.supported.new with hnew | hnew
    · have hnew : b.newScheme = .withoutExtension := h.newScheme.trans hnew
      rw [callsData, if_pos ⟨hold, hnew⟩, bind_isOk]
      exact exists_congr fun r => and_iff_left ⟨_, rfl⟩
    · have hnew : b.newScheme = .withExtension := h.newScheme.trans hnew
      rw [callsData, hold, hnew, if_neg (by decide), if_pos ⟨rfl, rfl⟩]
      refine (pair_isOk (f := (addOwnerData lib · .browserExtension))).trans ?_
      refine exists_congr fun r => and_iff_left_of_imp fun hswap => ?_
      obtain ⟨-, hwallet, t, ht, -⟩ := h.afterSwap hx hswap
      exact addOwnerData_isOk lib ht (howner r.2 hwallet hnew)
  · have hc : c.2 = 2 := congrArg WalletScheme.confirmations hold
    have hold : b.oldScheme = .withExtension := h.oldScheme.trans hold
    rcases List.mem_pair.mp h.supported.new with hnew | hnew
    · have hnew : b.newScheme = .withoutExtension := h.newScheme.trans hnew
      rw [callsData, hold, hnew, if_neg (by decide), if_neg (by decide), if_pos ⟨rfl, rfl⟩]
      refine (pair_isOk (f := removeOwnerData lib)).trans (h.secondCall hx hc ?_ ?_)
      · intro b' r hnil hr
        rw [removeOwnerData, hnil] at hr
        cases hr
      · intro b' y ys t _ hmod ht hmem
        exact removeOwnerData_isOk lib hmod ht hmem
    · have hnew : b.newScheme = .withExtension := h.newScheme.trans hnew
      rw [callsData, hold, hnew, if_neg (by decide), if_neg (by decide), if_neg (by decide),
        if_pos ⟨rfl, rfl⟩]
      refine (pair_isOk (f := (swapOwnerData lib · .browserExtension))).trans
        (h.secondCall (f := (swapOwnerData lib · .browserExtension)) hx hc ?_ ?_)
      · intro b' r hnil hr
        rw [swapOwnerData, hnil] at hr
        cases hr
      · intro b' y ys t hwallet hmod ht hmem
        exact swapOwnerData_isOk lib hmod ht hmem (howner b' hwallet hnew)

end Checked

/-! ### The transaction -/

theorem swapOwnerData_oldScheme (h : b.swapOwnerData lib role = .ok (data, b')) :
    b'.oldScheme = b.oldScheme := by
  obtain ⟨-, owners, l, rfl⟩ := swapOwnerData_fields h
  rfl

theorem addOwnerData_oldScheme (h : b.addOwnerData lib role = .ok (data, b')) :
    b'.oldScheme = b.oldScheme := by
  obtain ⟨-, ⟨rfl, -⟩ | ⟨l, rfl⟩⟩ := addOwnerData_fields h
  · rfl
  · rfl

theorem removeOwnerData_oldScheme (h : b.removeOwnerData lib = .ok (data, b')) :
    b'.oldScheme = b.oldScheme := by
  obtain ⟨-, owners, l, rfl⟩ := removeOwnerData_fields h
  rfl

theorem callsData_oldScheme {datas : List Data} (h : b.callsData lib = .ok (datas, b')) :
    b'.oldScheme = b.oldScheme := by
  cases callsData_called h with
  | swapped hschemes h => exact swapOwnerData_oldScheme h
  | added hschemes h₁ h₂ =>
      exact (addOwnerData_oldScheme h₂).trans (swapOwnerData_oldScheme h₁)
  | removed hschemes h₁ h₂ =>
      exact (removeOwnerData_oldScheme h₂).trans (swapOwnerData_oldScheme h₁)
  | swappedTwice hschemes h₁ h₂ =>
      exact (swapOwnerData_oldScheme h₂).trans (swapOwnerData_oldScheme h₁)

/-- The transaction that carries the calls. -/
structure Drafted (address : Address) (tx : Transaction) : Prop where
  opened : Opened address tx
  recipient : ∃ a, tx.recipient = some a ∧ a.WellFormed
  operation : ∃ operation, tx.operation = some operation
  data : tx.data ≠ some []

theorem buildTransactionData_drafted (lib : ThirdParty) {address : Address} {datas : List Data}
    (now : Date) (haddress : b.wallet.address = some address) (hwf : address.WellFormed)
    (hmulti : b.multiSendContractAddress.WellFormed) (hopened : Opened address b.transaction) :
    ∃ b', b.buildTransactionData lib datas now = .ok b' ∧ b'.wallet = b.wallet ∧
      b'.oldScheme = b.oldScheme ∧ Drafted address b'.transaction := by
  obtain ⟨multi, hformat, hmultiWf, -⟩ := EncryptionService.address_wellFormed lib hmulti
  have hfilter : ∀ d ∈ datas.filter (· ≠ []), d ≠ [] := fun d hd =>
    of_decide_eq_true (List.mem_filter.mp hd).2
  unfold buildTransactionData
  rw [haddress, hformat]
  generalize datas.filter (· ≠ []) = input at hfilter
  match input with
  | [] =>
      simp only [unwrap_some, Transaction.change_draft, hopened.status, Transaction.assign,
        Transaction.timestampUpdated, bind, Except.bind, pure, Except.pure]
      exact ⟨_, rfl, rfl, rfl, ⟨rfl, hopened.sender, hopened.amount⟩, ⟨address, rfl, hwf⟩,
        ⟨.call, rfl⟩, (Option.some_ne_none _).symm⟩
  | [call] =>
      simp only [unwrap_some, Transaction.change_draft, hopened.status, Transaction.assign,
        Transaction.timestampUpdated, bind, Except.bind, pure, Except.pure]
      exact ⟨_, rfl, rfl, rfl, ⟨rfl, hopened.sender, hopened.amount⟩, ⟨address, rfl, hwf⟩,
        ⟨.call, rfl⟩, fun h => hfilter call List.mem_cons_self (Option.some.inj h)⟩
  | c₁ :: c₂ :: calls =>
      have hdata : multiSendData lib address (c₁ :: c₂ :: calls) ≠ [] := by
        refine List.append_ne_nil_of_left_ne_nil ?_ _
        show (lib.hashSHA3_256 (asciiData "multiSend(bytes)")).take 4 ≠ []
        rw [lib.selector_multiSend]
        exact List.cons_ne_nil _ _
      simp only [unwrap_some, Transaction.change_draft, hopened.status, Transaction.assign,
        Transaction.timestampUpdated, bind, Except.bind, pure, Except.pure]
      exact ⟨_, rfl, rfl, rfl, ⟨rfl, hopened.sender, hopened.amount⟩, ⟨multi, rfl, hmultiWf⟩,
        ⟨.delegateCall, rfl⟩, fun h => hdata (Option.some.inj h)⟩

/-- The builder follows the configuration: its owners in known roles are the wallet's. -/
structure Follows (w : Wallet) (c : List Address × Int) (b : RecoveryTransactionBuilder) :
    Prop where
  owner : ∀ role, role ≠ .unknown → b.wallet.owner role = w.owner role
  oldScheme : b.oldScheme = ⟨c.2, c.1.length⟩

theorem Follows.of_eq {c : List Address × Int} (h : Follows w c b) (hwallet : b'.wallet = b.wallet)
    (hold : b'.oldScheme = b.oldScheme) : Follows w c b' :=
  ⟨fun role hrole => hwallet ▸ h.owner role hrole, hold.trans h.oldScheme⟩

/-- `buildData()`, for a wallet and a multi-send contract with addresses. -/
theorem Checked.buildData_isOk {address : Address} {c : List Address × Int} (lib : ThirdParty)
    (now : Date) (h : Checked metadata w address c b) (haddress : w.address = some address)
    (hwf : address.WellFormed) (hmulti : metadata.multiSendContractAddress.WellFormed) :
    ((∃ b', b.buildData lib now = .ok b') ↔ Replaces w c) ∧
      ∀ b', b.buildData lib now = .ok b' → Follows w c b' ∧ Drafted address b'.transaction := by
  have hbuild : ∀ r, b.callsData lib = .ok r →
      ∃ b', r.2.buildTransactionData lib r.1 now = .ok b' ∧ Follows w c b' ∧
        Drafted address b'.transaction := by
    intro r hr
    obtain ⟨-, -, hsame⟩ := callsData_frame hr
    obtain ⟨owners, count, hrest⟩ := h.wallet.same.rest
    have hcalled : r.2.wallet.address = some address := by
      rw [hsame.address, hrest]
      exact haddress
    obtain ⟨b', hb', hwallet, hold, hdrafted⟩ := buildTransactionData_drafted lib now hcalled hwf
      (by rw [hsame.multiSend, h.multiSend]; exact hmulti) (hsame.transaction ▸ h.transaction)
    refine ⟨b', hb', ⟨fun role hrole => ?_, ?_⟩, hdrafted⟩
    · rw [hwallet, ← h.wallet.same.owner role hrole]
      rcases callsData_wallet hr with hcount | ⟨hcount, -⟩
      · rw [hcount]
        rfl
      · rw [hcount]
    · rw [hold, callsData_oldScheme hr, h.oldScheme]
  refine ⟨?_, ?_⟩
  · rw [← h.callsData_isOk lib]
    refine bind_isOk.trans (exists_congr fun r => and_iff_left_of_imp fun hr => ?_)
    obtain ⟨b', hb', -⟩ := hbuild r hr
    exact ⟨b', hb'⟩
  · intro b' hb'
    obtain ⟨r, hr, hb'⟩ := bind_ok.mp hb'
    obtain ⟨b'', hb'', hfacts⟩ := hbuild r hr
    obtain rfl := Except.ok.inj (hb'.symm.trans hb'')
    exact hfacts

end Calls

end MultisigWallet
