import MultisigWallet.EncryptionSound
import MultisigWallet.Lib.Rows
import MultisigWallet.MultiSend
import MultisigWallet.OwnerLinkedListSound
import MultisigWallet.Recovery
import MultisigWallet.TransactionSound
import Mathlib.Data.List.Perm.Subperm

/-!
# MultisigWallet.RecoverySound

The recovery transaction against the contract it is sent to.

`Pulled` is what the builder knows after `pullData`, in the contract's terms. From there
each of the three call builders has one lemma that says what its data does when the
contract runs it, and that the builder's own linked list still agrees with the contract
afterwards (`Tracks`). The transaction as a whole runs its calls in order, whether it holds
none, one or several of them.

The result is an equivalence: the calls hand the wallet over exactly when the second
modifiable owner is not already this device (a swap for an owner the contract has would
revert) and the new addresses are ones the contract takes as owners.
-/

namespace MultisigWallet

namespace RecoveryTransactionBuilder

/-! ### The local wallet -/

/-- A wallet in recovery, with its local owners named. -/
structure RecoveringWallet where
  wallet : Wallet
  address : Address
  device : Address
  paper : Address
  derived : Address
  /-- the browser extension, if there is one -/
  extensionOwner : Option Address
  address_eq : wallet.address = some address
  owner_device : wallet.owner .thisDevice = some ⟨device, .thisDevice⟩
  owner_paper : wallet.owner .paperWallet = some ⟨paper, .paperWallet⟩
  owner_derived : wallet.owner .paperWalletDerived = some ⟨derived, .paperWalletDerived⟩
  owner_extension :
    wallet.owner .browserExtension = extensionOwner.map fun a => ⟨a, .browserExtension⟩
  wellFormed : ∀ a ∈ address :: device :: paper :: derived :: extensionOwner.toList, a.WellFormed
  distinct : ((device :: paper :: derived :: extensionOwner.toList).map Address.toNat).Nodup

namespace RecoveringWallet

variable (r : RecoveringWallet)

/-- `a` is the address of a local owner. -/
def IsLocalOwner (a : Nat) : Prop :=
  ∃ o ∈ r.wallet.owners.storage, o.role ≠ .unknown ∧ o.address.toNat = a

theorem isLocalOwner_iff (a : Nat) :
    r.IsLocalOwner a ↔ a = r.device.toNat ∨ a = r.paper.toNat ∨ a = r.derived.toNat ∨
      a ∈ r.extensionOwner.toList.map Address.toNat := by
  have hmem : ∀ {role o}, r.wallet.owner role = some o → o ∈ r.wallet.owners.storage := fun h =>
    (OwnerList.mem_of_first h).1
  constructor
  · rintro ⟨o, ho, hrole, rfl⟩
    -- every known role has one owner, the one the wallet looks up
    cases hr : o.role with
    | thisDevice =>
        rw [OwnerList.eq_of_first (by decide) r.owner_device ho hr]
        exact .inl rfl
    | paperWallet =>
        rw [OwnerList.eq_of_first (by decide) r.owner_paper ho hr]
        exact .inr (.inl rfl)
    | paperWalletDerived =>
        rw [OwnerList.eq_of_first (by decide) r.owner_derived ho hr]
        exact .inr (.inr (.inl rfl))
    | browserExtension =>
        have hext := r.owner_extension
        cases he : r.extensionOwner with
        | none =>
            rw [he] at hext
            exact absurd hr (by simpa using List.find?_eq_none.mp hext o ho)
        | some e =>
            rw [he] at hext
            rw [OwnerList.eq_of_first (by decide) hext ho hr]
            simp
    | unknown => exact absurd hr hrole
  · rintro (rfl | rfl | rfl | h)
    · exact ⟨_, hmem r.owner_device, by simp, rfl⟩
    · exact ⟨_, hmem r.owner_paper, by simp, rfl⟩
    · exact ⟨_, hmem r.owner_derived, by simp, rfl⟩
    · have hext := r.owner_extension
      cases he : r.extensionOwner with
      | none => simp [he] at h
      | some e =>
          rw [he] at hext h
          obtain rfl : a = e.toNat := by simpa using h
          exact ⟨_, hmem hext, by simp, rfl⟩

/-- The contract's owners that are not recovery owners, in link order. -/
def modifiable (m : OwnerManager) : List Nat :=
  m.owners.filter fun a => a ≠ r.paper.toNat ∧ a ≠ r.derived.toNat

end RecoveringWallet

/-- An owner as the contract lists it. -/
def remoteOwner (a : Nat) : Owner := ⟨Address.ofNat a, .unknown⟩

/-! ### Pulling the data -/

/-- The builder's linked list is the contract's. -/
def Tracks (l : OwnerLinkedList) (m : OwnerManager) : Prop :=
  l.list = (sentinelOwner :: (m.owners ++ [sentinelOwner])).map Address.ofNat

theorem Tracks.follows {l : OwnerLinkedList} {m : OwnerManager} (h : Tracks l m) :
    l.Follows m.chain := h

/-- The list built from the owners of a contract that has some. -/
theorem tracks_addAll {m : OwnerManager} (hne : m.owners ≠ []) :
    ∃ l, ({} : OwnerLinkedList).addAll ((m.owners.map remoteOwner).map (·.address)) = .ok l ∧
      Tracks l m := by
  have haddresses : (m.owners.map remoteOwner).map (·.address) = m.owners.map Address.ofNat := by
    rw [List.map_map]
    rfl
  have hnumbers : m.chain.owners = (m.owners.map Address.ofNat).map Address.toNat := by
    rw [List.map_map]
    exact ((List.map_congr_left fun n hn => Address.toNat_ofNat (m.ordinary n hn).2.2).trans
      (List.map_id m.owners)).symm
  rw [haddresses]
  refine OwnerLinkedList.follows_addAll (by simpa using hne) (fun a ha => ?_) hnumbers
  obtain ⟨n, -, rfl⟩ := List.mem_map.mp ha
  exact Address.wellFormed_ofNat n

theorem addUnknownOwners_ok {w w' : Wallet} {ns : List Nat}
    (h : addUnknownOwners w (ns.map Address.ofNat) = .ok w') :
    w'.owners.storage = w.owners.storage ++ ns.map remoteOwner ∧
      w' = { w with owners := w'.owners } := by
  induction ns generalizing w with
  | nil =>
      obtain rfl := Except.ok.inj h
      simp
  | cons n ns ih =>
      obtain ⟨w₁, h₁, h⟩ := bind_ok.mp h
      obtain rfl := Wallet.addOwner_eq_ok h₁
      obtain ⟨hstorage, hframe⟩ := ih h
      refine ⟨?_, hframe⟩
      rw [hstorage]
      simp [OwnerList.add, OwnerList.append, remoteOwner]

/-- What the builder knows once the data is pulled. -/
structure Pulled (r : RecoveringWallet) (m : OwnerManager) (multiSend : Address)
    (b : RecoveryTransactionBuilder) : Prop where
  address : b.wallet.address = some r.address
  owner : ∀ role, role ≠ .unknown → b.wallet.owner role = r.wallet.owner role
  oldScheme : b.oldScheme = ⟨m.threshold, m.owners.length⟩
  confirmations : b.newScheme.confirmations = if r.extensionOwner = none then 1 else 2
  tracks : m.owners ≠ [] → Tracks b.ownerList m
  modifiable : b.modifiableOwners = (r.modifiable m).map remoteOwner
  multiSend : b.multiSendContractAddress = multiSend
  draft : b.transaction.status = .draft
  amount : b.transaction.amount = some (.ether 0)

theorem length_owners_lt (m : OwnerManager) : m.owners.length < 2 ^ 256 := by
  have hsub : m.owners ⊆ List.range (2 ^ 160) := fun a ha =>
    List.mem_range.mpr (m.ordinary a ha).2.2
  have hle := (List.subperm_of_subset m.nodup hsub).length_le
  rw [List.length_range] at hle
  exact lt_of_le_of_lt hle (by decide)

/-- Looking an owner with a known role up is not disturbed by owners the contract lists. -/
theorem find_append_remote (l : List Owner) (ns : List Nat) {role : OwnerRole}
    (hrole : role ≠ .unknown) :
    (l.filter (·.role ≠ .unknown) ++ ns.map remoteOwner).find? (·.role = role) =
      l.find? (·.role = role) := by
  have hremote : (ns.map remoteOwner).find? (fun o => decide (o.role = role)) = none := by
    rw [List.find?_eq_none]
    intro o ho
    obtain ⟨n, -, rfl⟩ := List.mem_map.mp ho
    exact fun h => hrole (of_decide_eq_true h).symm
  rw [List.find?_append, hremote, Option.or_none]
  exact Rows.find?_removed_of_ne Owner.role l hrole

theorem filter_remote (ns : List Nat) (p : Owner → Bool) (q : Nat → Bool)
    (h : ∀ n ∈ ns, p (remoteOwner n) = q n) :
    (ns.map remoteOwner).filter p = (ns.filter q).map remoteOwner := by
  rw [List.filter_map]
  congr 1
  exact List.filter_congr h

/-- The addresses the builder does not touch are those of the recovery owners. -/
theorem lowercased_mem_readonly {r : RecoveringWallet} {w : Wallet} {ns : List Nat}
    (hstorage : w.owners.storage =
      r.wallet.owners.storage.filter (·.role ≠ .unknown) ++ ns.map remoteOwner)
    {a : Nat} (ha : a < 2 ^ 160) :
    lowercased (Address.ofNat a).value ∈ readonlyAddresses w ↔
      a = r.paper.toNat ∨ a = r.derived.toNat := by
  have hsame : ∀ {p : Address}, p.WellFormed →
      (lowercased p.value = lowercased (Address.ofNat a).value ↔ a = p.toNat) := by
    intro p hp
    have hiff := Address.normalized_eq_iff hp (Address.wellFormed_ofNat a)
    rw [Address.toNat_ofNat ha] at hiff
    simp only [Address.normalized, Address.mk.injEq] at hiff
    rw [hiff, eq_comm]
  have hpaper := r.wellFormed r.paper (by simp)
  have hderived := r.wellFormed r.derived (by simp)
  have hlookup : ∀ {role o}, r.wallet.owner role = some o → role ≠ .unknown →
      o ∈ r.wallet.owners.storage.filter (·.role ≠ .unknown) := by
    intro role o h hrole
    obtain ⟨hmem, ho⟩ := OwnerList.mem_of_first h
    exact List.mem_filter.mpr ⟨hmem, by simpa [ho] using hrole⟩
  unfold readonlyAddresses
  rw [hstorage, List.mem_map]
  constructor
  · rintro ⟨o, ho, heq⟩
    obtain ⟨ho, hrole⟩ := List.mem_filter.mp ho
    rcases List.mem_append.mp ho with ho | ho
    · have ho := List.mem_of_mem_filter ho
      rcases of_decide_eq_true hrole with hr | hr
      · rw [OwnerList.eq_of_first (by decide) r.owner_paper ho hr] at heq
        exact .inl ((hsame hpaper).mp heq)
      · rw [OwnerList.eq_of_first (by decide) r.owner_derived ho hr] at heq
        exact .inr ((hsame hderived).mp heq)
    · obtain ⟨n, -, rfl⟩ := List.mem_map.mp ho
      simp [remoteOwner] at hrole
  · rintro (h | h)
    · refine ⟨_, List.mem_filter.mpr ⟨List.mem_append.mpr
        (.inl (hlookup r.owner_paper (by decide))), by simp⟩, (hsame hpaper).mpr h⟩
    · refine ⟨_, List.mem_filter.mpr ⟨List.mem_append.mpr
        (.inl (hlookup r.owner_derived (by decide))), by simp⟩, (hsame hderived).mpr h⟩

theorem mutableOwners_eq {r : RecoveringWallet} {w : Wallet} {m : OwnerManager}
    (hstorage : w.owners.storage =
      r.wallet.owners.storage.filter (·.role ≠ .unknown) ++ m.owners.map remoteOwner)
    (hlt : ∀ a ∈ m.owners, a < 2 ^ 160) :
    mutableOwners w = (r.modifiable m).map remoteOwner := by
  have hremote : ∀ a ∈ m.owners,
      decide ((remoteOwner a).role = .unknown ∧
        lowercased (remoteOwner a).address.value ∉ readonlyAddresses w) =
      decide (a ≠ r.paper.toNat ∧ a ≠ r.derived.toNat) := by
    intro a ha
    have hiff := lowercased_mem_readonly hstorage (hlt a ha)
    rw [decide_eq_decide, ← not_or, ← hiff]
    exact and_iff_right rfl
  have hlocal : (r.wallet.owners.storage.filter (·.role ≠ .unknown)).filter (fun o =>
      decide (o.role = .unknown ∧ lowercased o.address.value ∉ readonlyAddresses w)) = [] := by
    rw [List.filter_eq_nil_iff]
    intro o ho hp
    have hknown := (List.mem_filter.mp ho).2
    simp [(of_decide_eq_true hp).1] at hknown
  rw [mutableOwners]
  rw [hstorage]
  rw [List.filter_append, hlocal, List.nil_append]
  exact filter_remote _ _ _ hremote

theorem pullData_ok {lib : ThirdParty} {r : RecoveringWallet} {m : OwnerManager}
    {multiSend : Address} {id : TransactionID} {now : Date} {b : RecoveryTransactionBuilder}
    (h : pullData lib r.wallet multiSend id (some (m.getOwners, m.getThreshold)) now = .ok b) :
    Pulled r m multiSend b := by
  unfold pullData at h
  rw [r.address_eq] at h
  obtain ⟨a, ha, h⟩ := bind_ok.mp h
  obtain rfl : r.address = a := Option.some.inj (unwrap_ok.mp ha)
  obtain ⟨tx₁, htx₁, h⟩ := bind_ok.mp h
  obtain ⟨tx₂, htx₂, h⟩ := bind_ok.mp h
  obtain ⟨w₁, hw₁, h⟩ := bind_ok.mp h
  obtain ⟨owners, howners, h⟩ := bind_ok.mp h
  obtain ⟨w₂, hw₂, h⟩ := bind_ok.mp h
  obtain ⟨t, ht, h⟩ := bind_ok.mp h
  obtain ⟨l, hl, h⟩ := bind_ok.mp h
  obtain rfl := Except.ok.inj h
  have hlt : ∀ a ∈ m.owners, a < 2 ^ 160 := fun a ha => (m.ordinary a ha).2.2
  -- the contract's answers
  obtain ⟨rfl, hint⟩ := EthereumContractProxy.decodeArrayAddress_words lib hlt
    (length_owners_lt m) howners
  have hthreshold : EthereumContractProxy.decodeUInt m.getThreshold = m.threshold := by
    rw [EthereumContractProxy.decodeUInt_eq, OwnerManager.getThreshold, ← List.append_nil (Abi.word _)]
    exact Abi.wordAt_word (lt_of_le_of_lt m.threshold_le (length_owners_lt m)) []
  have ht : t = m.threshold := by
    rw [SafeOwnerManagerContractProxy.getThreshold, hthreshold] at ht
    split at ht
    · exact (Except.ok.inj ht).symm
    · cases ht
  subst ht
  -- the wallet with the contract's owners
  obtain rfl := Wallet.removeOwner_eq_ok hw₁
  obtain ⟨hstorage, hframe⟩ := addUnknownOwners_ok hw₂
  have hstorage : w₂.owners.storage =
      r.wallet.owners.storage.filter (·.role ≠ .unknown) ++ m.owners.map remoteOwner := hstorage
  have hunknown : unknownOwners (w₂.changeConfirmationCount m.threshold) =
      m.owners.map remoteOwner := by
    rw [unknownOwners, Wallet.changeConfirmationCount, hstorage, List.filter_append,
      List.filter_filter, List.filter_eq_nil_iff.mpr, List.nil_append, List.filter_eq_self]
    · intro o ho
      obtain ⟨n, -, rfl⟩ := List.mem_map.mp ho
      exact decide_eq_true rfl
    · intro o _
      simp
  have howner : ∀ role, role ≠ .unknown →
      (w₂.changeConfirmationCount m.threshold).owner role = r.wallet.owner role := by
    intro role hrole
    simp only [Wallet.owner, OwnerList.first, Wallet.changeConfirmationCount, hstorage]
    exact find_append_remote _ _ hrole
  have hcreated := (Transaction.change_ok.mp htx₁).2
  have hdraft := (Transaction.change_ok.mp htx₂).1
  have hamount := (Transaction.change_ok.mp htx₂).2
  refine ⟨?_, howner, ?_, ?_, ?_, ?_, rfl, ?_, ?_⟩
  · rw [Wallet.changeConfirmationCount, hframe]
    exact r.address_eq
  · simp only [oldWalletScheme, hunknown, List.length_map]
    rfl
  · simp only [newWalletScheme, howner .browserExtension (by decide), r.owner_extension]
    cases r.extensionOwner <;> rfl
  · intro hne
    rw [hunknown] at hl
    obtain ⟨l', hl', htracks⟩ := tracks_addAll hne
    rw [hl] at hl'
    obtain rfl := Except.ok.inj hl'
    exact htracks
  · exact mutableOwners_eq (w := w₂.changeConfirmationCount m.threshold) hstorage hlt
  · subst hamount
    exact hdraft
  · subst hamount
    rfl

/-! ### The linked list and the contract -/

section Tracks

variable {l : OwnerLinkedList} {m m' : OwnerManager} {x : Nat}

/-- The previous-owner argument for `x` is the contract's link to `x`. -/
theorem Tracks.addressBefore (h : Tracks l m) (hx : x ∈ m.owners) :
    ∃ p < 2 ^ 160, l.addressBefore (Address.ofNat x) = .ok (Address.ofNat p) ∧
      Links.LinksTo (sentinelOwner :: m.owners) p x := by
  have hnumber := Address.toNat_ofNat (m.ordinary x hx).2.2
  obtain ⟨p, hp, hbefore, hlink⟩ :=
    h.follows.addressBefore (Address.wellFormed_ofNat x) (hnumber.symm ▸ hx)
  rw [hnumber] at hlink
  exact ⟨p, hp, hbefore, hlink⟩

/-- Replacing an owner in the list follows a swap in the contract. -/
theorem Tracks.replace (h : Tracks l m) (hx : x ∈ m.owners) {d : Address} (hd : d.WellFormed)
    (hswap : m'.owners = Links.swap m.owners x d.toNat) :
    Tracks (l.replace (Address.ofNat x) d) m' := by
  have hnumber := Address.toNat_ofNat (m.ordinary x hx).2.2
  have hswap : m'.chain.owners = Links.swap m.chain.owners (Address.ofNat x).toNat d.toNat := by
    rw [hnumber]
    exact hswap
  exact h.follows.replace (Address.wellFormed_ofNat x) hd (hnumber.symm ▸ hx) hswap

theorem Tracks.contains (h : Tracks l m) {a : Address} (ha : a.WellFormed) :
    l.contains a = true ↔ a.toNat = sentinelOwner ∨ a.toNat ∈ m.owners :=
  h.follows.contains ha

end Tracks

/-! ### The three call builders -/

/-- `m'` is `m` with `d` in the place of the owner `x`; nothing happens if `d` is `x`. -/
def SwapsTo (m : OwnerManager) (x d : Nat) (m' : OwnerManager) : Prop :=
  if d = x then m' = m
  else (IsOrdinary d ∧ d ∉ m.owners) ∧ m'.owners = Links.swap m.owners x d ∧
    m'.threshold = m.threshold

section Calls

variable {lib : ThirdParty} {b : RecoveryTransactionBuilder} {m m' : OwnerManager} {x : Nat}
  {rest : List Owner} {role : OwnerRole} {d : Address}

theorem SwapsTo.mem_owners {d : Nat} (h : SwapsTo m x d m') (hx : x ∈ m.owners) (a : Nat) :
    a ∈ m'.owners ↔ a = d ∨ (a ∈ m.owners ∧ a ≠ x) := by
  unfold SwapsTo at h
  split at h
  case isTrue hdx =>
    subst hdx h
    by_cases ha : a = d
    · subst ha
      exact ⟨fun _ => .inl rfl, fun _ => hx⟩
    · simp [ha]
  case isFalse hdx =>
    rw [h.2.1, Links.mem_swap]
    simp [hx]

theorem SwapsTo.threshold_eq {d : Nat} (h : SwapsTo m x d m') : m'.threshold = m.threshold := by
  unfold SwapsTo at h
  split at h
  · rw [h]
  · exact h.2.2

theorem SwapsTo.length_owners {d : Nat} (h : SwapsTo m x d m') :
    m'.owners.length = m.owners.length := by
  unfold SwapsTo at h
  split at h
  · rw [h]
  · rw [h.2.1, Links.swap, List.length_map]

theorem exists_swapOwner {p d : Nat} (hx : x ∈ m.owners) (hordinary : IsOrdinary d)
    (hfresh : d ∉ m.owners) (hlink : Links.LinksTo (sentinelOwner :: m.owners) p x) :
    ∃ m', m.swapOwner p x d = some m' := by
  unfold OwnerManager.swapOwner
  rw [dif_pos ⟨hordinary, hfresh, m.ordinary x hx, hlink⟩]
  exact ⟨_, rfl⟩

/-- A swap is possible for the owner itself and for an address the contract takes. -/
theorem exists_swapsTo {d : Nat} (hx : x ∈ m.owners) :
    (∃ m', SwapsTo m x d m') ↔ d = x ∨ (IsOrdinary d ∧ d ∉ m.owners) := by
  unfold SwapsTo
  by_cases hdx : d = x
  · simp [hdx]
  · simp only [hdx, false_or]
    constructor
    · intro h
      obtain ⟨m', h⟩ := h
      exact h.1
    · intro h
      obtain ⟨p, -, hlink, -⟩ := Links.exists_before hx (m.ordinary x hx).2.1
      obtain ⟨m', hm'⟩ := exists_swapOwner hx h.1 h.2 hlink
      exact ⟨m', h, (OwnerManager.swapOwner_eq_some.mp hm').2⟩

theorem swapOwnerData_ok (lib : ThirdParty) (hmod : b.modifiableOwners = remoteOwner x :: rest)
    (htracks : Tracks b.ownerList m) (hx : x ∈ m.owners)
    (howner : b.wallet.owner role = some ⟨d, role⟩) (hd : d.WellFormed) :
    ∃ data l, b.swapOwnerData lib role =
        .ok (data, { b with modifiableOwners := rest, ownerList := l }) ∧
      ∀ m', (m.call data = some m' ↔ SwapsTo m x d.toNat m') ∧
        (SwapsTo m x d.toNat m' → Tracks l m') := by
  have hxlt := (m.ordinary x hx).2.2
  obtain ⟨p, hp, hbefore, hlink⟩ := htracks.addressBefore hx
  have hsame : d.normalized = (Address.ofNat x).normalized ↔ d.toNat = x := by
    rw [Address.normalized_eq_iff hd (Address.wellFormed_ofNat x), Address.toNat_ofNat hxlt]
  unfold swapOwnerData
  rw [hmod]
  simp only [remoteOwner, hbefore, howner, unwrap_some, bind, Except.bind, pure, Except.pure]
  by_cases hdx : d.toNat = x
  · -- already the owner: no call, and the list stays
    refine ⟨[], b.ownerList, if_neg (not_not_intro (hsame.mpr hdx)), ?_⟩
    intro m'
    rw [SwapsTo, if_pos hdx]
    refine ⟨?_, fun h => h ▸ htracks⟩
    rw [OwnerManager.call, if_pos rfl, Option.some.injEq, eq_comm]
  · have hdata := swapOwner_eq lib (Address.wellFormed_ofNat p) (Address.wellFormed_ofNat x) hd
    rw [Address.toNat_ofNat hp, Address.toNat_ofNat hxlt] at hdata
    refine ⟨SafeOwnerManagerContractProxy.swapOwner lib (Address.ofNat p) (Address.ofNat x) d,
      b.ownerList.replace (Address.ofNat x) d, if_pos fun h => hdx (hsame.mp h), ?_⟩
    intro m'
    rw [hdata, OwnerManager.call_swapOwner m hp hxlt hd.toNat_lt, SwapsTo, if_neg hdx,
      OwnerManager.swapOwner_eq_some]
    refine ⟨?_, fun h => htracks.replace hx hd h.2.1⟩
    simp only [m.ordinary x hx, hlink, and_true]

theorem addOwnerData_ok (lib : ThirdParty) (htracks : Tracks b.ownerList m)
    (howner : b.wallet.owner role = some ⟨d, role⟩) (hd : d.WellFormed)
    (hconfirmations : b.newScheme.confirmations = 2) (hlen : 1 ≤ m.owners.length)
    (hnew : d.toNat ∉ m.owners) :
    ∃ data b', b.addOwnerData lib role = .ok (data, b') ∧
      ∀ m', m.call data = some m' ↔
        if d.toNat = sentinelOwner then m' = m
        else IsOrdinary d.toNat ∧ m'.owners = d.toNat :: m.owners ∧ m'.threshold = 2 := by
  unfold addOwnerData
  rw [howner, hconfirmations]
  simp only [unwrap_some, bind, Except.bind, pure, Except.pure]
  by_cases hsentinel : d.toNat = sentinelOwner
  · -- the list contains the sentinel, so the builder takes it for an owner
    refine ⟨[], b, if_pos ((htracks.contains hd).mpr (.inl hsentinel)), ?_⟩
    intro m'
    rw [if_pos hsentinel, OwnerManager.call, if_pos rfl, Option.some.injEq, eq_comm]
  · have hcontains : ¬ b.ownerList.contains d = true := fun h =>
      ((htracks.contains hd).mp h).elim hsentinel hnew
    have hlast : b.ownerList.list.getLast? = some (Address.ofNat sentinelOwner) := by
      rw [htracks, ← List.cons_append, List.map_append]
      exact List.getLast?_concat
    have hdata := addOwner_eq lib hd 2
    simp only [OwnerLinkedList.add, hlast]
    refine ⟨SafeOwnerManagerContractProxy.addOwner lib d 2, _, if_neg hcontains, ?_⟩
    intro m'
    rw [hdata, OwnerManager.call_addOwner m hd.toNat_lt (by decide), if_neg hsentinel,
      OwnerManager.addOwnerWithThreshold_eq_some]
    have hbounds : 1 ≤ 2 ∧ 2 ≤ m.owners.length + 1 := ⟨by decide, by omega⟩
    simp only [hnew, hbounds, not_false_eq_true, and_true]

theorem removeOwnerData_ok (lib : ThirdParty) (hmod : b.modifiableOwners = remoteOwner x :: rest)
    (htracks : Tracks b.ownerList m) (hx : x ∈ m.owners)
    (hconfirmations : b.newScheme.confirmations = 1) (hlen : 2 ≤ m.owners.length) :
    ∃ data b', b.removeOwnerData lib = .ok (data, b') ∧
      ∀ m', m.call data = some m' ↔ m'.owners = m.owners.erase x ∧ m'.threshold = 1 := by
  have hxlt := (m.ordinary x hx).2.2
  obtain ⟨p, hp, hbefore, hlink⟩ := htracks.addressBefore hx
  have hdata := removeOwner_eq lib (Address.wellFormed_ofNat p) (Address.wellFormed_ofNat x) 1
  rw [Address.toNat_ofNat hp, Address.toNat_ofNat hxlt] at hdata
  unfold removeOwnerData
  rw [hmod]
  simp only [remoteOwner, hbefore, hconfirmations, bind, Except.bind, pure, Except.pure]
  refine ⟨SafeOwnerManagerContractProxy.removeOwner lib (Address.ofNat p) (Address.ofNat x) 1, _,
    rfl, ?_⟩
  intro m'
  rw [hdata, OwnerManager.call_removeOwner m hp hxlt (by decide), OwnerManager.removeOwner_eq_some]
  have hbounds : 1 ≤ 1 ∧ 1 ≤ m.owners.length - 1 := ⟨le_rfl, by omega⟩
  simp only [m.ordinary x hx, hlink, hbounds, and_true, true_and]

/-! ### What the call builders leave alone -/

/-- `b'` will send its calls where `b` does. -/
structure SameTarget (b b' : RecoveryTransactionBuilder) : Prop where
  address : b'.wallet.address = b.wallet.address
  transaction : b'.transaction = b.transaction
  multiSend : b'.multiSendContractAddress = b.multiSendContractAddress

theorem SameTarget.trans {b b' b'' : RecoveryTransactionBuilder} (h : SameTarget b b')
    (h' : SameTarget b' b'') : SameTarget b b'' :=
  ⟨h'.address.trans h.address, h'.transaction.trans h.transaction, h'.multiSend.trans h.multiSend⟩

theorem length_encodeUInt (lib : ThirdParty) (n : Nat) : (EthereumContractProxy.encodeUInt lib n).length ≤ 32 := by
  rw [EthereumContractProxy.encodeUInt, suffixData, List.length_drop]
  omega

theorem length_invocation (selector : String) {args : List Data} (hargs : args.length ≤ 3)
    (h : ∀ a ∈ args, ∃ n, a = EthereumContractProxy.encodeUInt lib n) :
    (EthereumContractProxy.invocation lib selector args).length < 2 ^ 32 := by
  have hflat : ∀ (args : List Data), (∀ a ∈ args, ∃ n, a = EthereumContractProxy.encodeUInt lib n) →
      args.flatten.length ≤ 32 * args.length := by
    intro args h
    induction args with
    | nil => simp
    | cons a args ih =>
        obtain ⟨n, rfl⟩ := h a List.mem_cons_self
        have ih := ih fun a ha => h a (List.mem_cons_of_mem _ ha)
        have hn := length_encodeUInt lib n
        rw [List.flatten_cons, List.length_append, List.length_cons]
        omega
  have hmethod : (EthereumContractProxy.method lib selector).length ≤ 4 := by
    rw [EthereumContractProxy.method, List.length_take]
    exact Nat.min_le_left _ _
  have hargs' := hflat args h
  rw [EthereumContractProxy.invocation, List.length_append]
  omega

section Fields

variable {data : Data} {b' : RecoveryTransactionBuilder}

theorem swapOwnerData_fields (h : b.swapOwnerData lib role = .ok (data, b')) :
    data.length < 2 ^ 32 ∧
      ∃ owners l, b' = { b with modifiableOwners := owners, ownerList := l } := by
  unfold swapOwnerData at h
  split at h
  · cases h
  · obtain ⟨p, -, h⟩ := bind_ok.mp h
    obtain ⟨o, -, h⟩ := bind_ok.mp h
    split at h
    · obtain ⟨rfl, rfl⟩ := Prod.mk.inj (Except.ok.inj h)
      refine ⟨length_invocation _ (by simp) ?_, _, _, rfl⟩
      intro a ha
      simp only [List.mem_cons, List.not_mem_nil, or_false] at ha
      rcases ha with rfl | rfl | rfl <;> exact ⟨_, rfl⟩
    · obtain ⟨rfl, rfl⟩ := Prod.mk.inj (Except.ok.inj h)
      exact ⟨by decide, _, _, rfl⟩

/-- An owner that is in the list already is not added, and the count stays. -/
theorem addOwnerData_fields (h : b.addOwnerData lib role = .ok (data, b')) :
    data.length < 2 ^ 32 ∧
      ((b' = b ∧ ∃ o, b.wallet.owner role = some o ∧ b.ownerList.contains o.address = true) ∨
        ∃ l, b' = { b with
          ownerList := l
          wallet := b.wallet.changeConfirmationCount b.newScheme.confirmations }) := by
  unfold addOwnerData at h
  obtain ⟨o, ho, h⟩ := bind_ok.mp h
  split at h
  · rename_i hcontains
    obtain ⟨rfl, rfl⟩ := Prod.mk.inj (Except.ok.inj h)
    exact ⟨by decide, .inl ⟨rfl, o, unwrap_ok.mp ho, hcontains⟩⟩
  · obtain ⟨l, -, h⟩ := bind_ok.mp h
    obtain ⟨rfl, rfl⟩ := Prod.mk.inj (Except.ok.inj h)
    refine ⟨length_invocation _ (by simp) ?_, .inr ⟨l, rfl⟩⟩
    intro a ha
    simp only [List.mem_cons, List.not_mem_nil, or_false] at ha
    rcases ha with rfl | rfl <;> exact ⟨_, rfl⟩

theorem removeOwnerData_fields (h : b.removeOwnerData lib = .ok (data, b')) :
    data.length < 2 ^ 32 ∧ ∃ owners l, b' = { b with
      modifiableOwners := owners
      ownerList := l
      wallet := b.wallet.changeConfirmationCount b.newScheme.confirmations } := by
  unfold removeOwnerData at h
  split at h
  · cases h
  · obtain ⟨p, -, h⟩ := bind_ok.mp h
    obtain ⟨rfl, rfl⟩ := Prod.mk.inj (Except.ok.inj h)
    refine ⟨length_invocation _ (by simp) ?_, _, _, rfl⟩
    intro a ha
    simp only [List.mem_cons, List.not_mem_nil, or_false] at ha
    rcases ha with rfl | rfl | rfl <;> exact ⟨_, rfl⟩

theorem swapOwnerData_frame (h : b.swapOwnerData lib role = .ok (data, b')) :
    data.length < 2 ^ 32 ∧ SameTarget b b' := by
  obtain ⟨hlength, owners, l, rfl⟩ := swapOwnerData_fields h
  exact ⟨hlength, rfl, rfl, rfl⟩

theorem addOwnerData_frame (h : b.addOwnerData lib role = .ok (data, b')) :
    data.length < 2 ^ 32 ∧ SameTarget b b' := by
  obtain ⟨hlength, ⟨rfl, -⟩ | ⟨l, rfl⟩⟩ := addOwnerData_fields h
  · exact ⟨hlength, rfl, rfl, rfl⟩
  · exact ⟨hlength, rfl, rfl, rfl⟩

theorem removeOwnerData_frame (h : b.removeOwnerData lib = .ok (data, b')) :
    data.length < 2 ^ 32 ∧ SameTarget b b' := by
  obtain ⟨hlength, owners, l, rfl⟩ := removeOwnerData_fields h
  exact ⟨hlength, rfl, rfl, rfl⟩

end Fields

/-- The calls for a pair of schemes: one swap, or a swap and another call. -/
inductive Called (lib : ThirdParty) (b : RecoveryTransactionBuilder) :
    List Data → RecoveryTransactionBuilder → Prop
  | swapped {d b'} (hschemes : b.oldScheme = .withoutExtension ∧ b.newScheme = .withoutExtension)
      (h : b.swapOwnerData lib .thisDevice = .ok (d, b')) : Called lib b [d] b'
  | added {d₁ d₂ b₁ b'}
      (hschemes : b.oldScheme = .withoutExtension ∧ b.newScheme = .withExtension)
      (h₁ : b.swapOwnerData lib .thisDevice = .ok (d₁, b₁))
      (h₂ : b₁.addOwnerData lib .browserExtension = .ok (d₂, b')) : Called lib b [d₁, d₂] b'
  | removed {d₁ d₂ b₁ b'}
      (hschemes : b.oldScheme = .withExtension ∧ b.newScheme = .withoutExtension)
      (h₁ : b.swapOwnerData lib .thisDevice = .ok (d₁, b₁))
      (h₂ : b₁.removeOwnerData lib = .ok (d₂, b')) : Called lib b [d₁, d₂] b'
  | swappedTwice {d₁ d₂ b₁ b'}
      (hschemes : b.oldScheme = .withExtension ∧ b.newScheme = .withExtension)
      (h₁ : b.swapOwnerData lib .thisDevice = .ok (d₁, b₁))
      (h₂ : b₁.swapOwnerData lib .browserExtension = .ok (d₂, b')) : Called lib b [d₁, d₂] b'

theorem callsData_called {datas : List Data} {b' : RecoveryTransactionBuilder}
    (h : b.callsData lib = .ok (datas, b')) : Called lib b datas b' := by
  unfold callsData at h
  split at h
  · obtain ⟨⟨d₁, b₁⟩, h₁, h⟩ := bind_ok.mp h
    obtain ⟨rfl, rfl⟩ := Prod.mk.inj (Except.ok.inj h)
    exact .swapped ‹_› h₁
  · split at h
    · obtain ⟨⟨d₁, b₁⟩, h₁, h⟩ := bind_ok.mp h
      obtain ⟨⟨d₂, b₂⟩, h₂, h⟩ := bind_ok.mp h
      obtain ⟨rfl, rfl⟩ := Prod.mk.inj (Except.ok.inj h)
      exact .added ‹_› h₁ h₂
    · split at h
      · obtain ⟨⟨d₁, b₁⟩, h₁, h⟩ := bind_ok.mp h
        obtain ⟨⟨d₂, b₂⟩, h₂, h⟩ := bind_ok.mp h
        obtain ⟨rfl, rfl⟩ := Prod.mk.inj (Except.ok.inj h)
        exact .removed ‹_› h₁ h₂
      · split at h
        · obtain ⟨⟨d₁, b₁⟩, h₁, h⟩ := bind_ok.mp h
          obtain ⟨⟨d₂, b₂⟩, h₂, h⟩ := bind_ok.mp h
          obtain ⟨rfl, rfl⟩ := Prod.mk.inj (Except.ok.inj h)
          exact .swappedTwice ‹_› h₁ h₂
        · cases h

end Calls

/-! ### The transaction runs its calls -/

section Transaction

variable {lib : ThirdParty} {b : RecoveryTransactionBuilder} {address multiSend : Address}
  {datas : List Data} {now : Date}

theorem runCalls_filter (m : OwnerManager) (datas : List Data) :
    m.runCalls (datas.filter (· ≠ [])) = m.runCalls datas := by
  induction datas generalizing m with
  | nil => rfl
  | cons d datas ih =>
      by_cases hd : d = []
      · subst hd
        rw [List.filter_cons_of_neg (by simp), ih, OwnerManager.runCalls]
        rfl
      · rw [List.filter_cons_of_pos (by simpa using hd), OwnerManager.runCalls,
          OwnerManager.runCalls]
        congr 1
        funext m'
        exact ih m'

theorem length_flatMap_packed (wallet : Nat) (hdatas : ∀ d ∈ datas, d.length < 2 ^ 32) :
    (datas.flatMap (OwnerManager.packed wallet)).length ≤ datas.length * 2 ^ 33 := by
  induction datas with
  | nil => simp
  | cons d datas ih =>
      have ih := ih fun e he => hdatas e (List.mem_cons_of_mem d he)
      have hd := hdatas d List.mem_cons_self
      have hceil : Abi.ceil32 d.length ≤ d.length + 31 := by
        unfold Abi.ceil32
        omega
      rw [List.flatMap_cons, List.length_append, OwnerManager.length_packed, List.length_cons]
      omega

theorem multiSendData_eq (lib : ThirdParty) (haddress : address.WellFormed)
    (hne : ∀ d ∈ datas, d ≠ []) :
    multiSendData lib address datas = [0x8d, 0x80, 0xff, 0x0a] ++
      (Abi.word 32 ++ Abi.bytes (datas.flatMap (OwnerManager.packed address.toNat))) := by
  have hall : datas.filter (· ≠ []) = datas :=
    List.filter_eq_self.mpr fun d hd => decide_eq_true (hne d hd)
  have hwf : ∀ tx ∈ datas.map fun d => (⟨.call, address, 0, d⟩ : MultiSendTransaction),
      tx.toAddress.WellFormed := by
    intro tx htx
    obtain ⟨d, -, rfl⟩ := List.mem_map.mp htx
    exact haddress
  rw [multiSendData, hall, multiSend_eq lib hwf, List.flatMap_map]
  rfl

/-- A transaction that pays Ether goes to its recipient. -/
theorem ethTo_of_ether {tx : Transaction} (hamount : tx.amount = some (.ether 0))
    (hrecipient : tx.recipient = some address) : tx.ethTo = address := by
  simp [Transaction.ethTo, Transaction.isERC20Transfer, hamount, hrecipient, TokenAmount.ether]

theorem execTransaction_call (m : OwnerManager) (multi : Nat) {tx : Transaction}
    (hamount : tx.amount = some (.ether 0)) (hrecipient : tx.recipient = some address)
    (hoperation : tx.operation = some .call) :
    m.execTransaction address.toNat multi tx = m.call (tx.data.getD []) := by
  rw [OwnerManager.execTransaction, hoperation]
  exact if_pos (by rw [ethTo_of_ether hamount hrecipient])

theorem execTransaction_delegateCall (m : OwnerManager) (wallet : Nat) {tx : Transaction}
    (hamount : tx.amount = some (.ether 0)) (hrecipient : tx.recipient = some address)
    (hoperation : tx.operation = some .delegateCall) :
    m.execTransaction wallet address.toNat tx = m.multiSend wallet (tx.data.getD []) := by
  rw [OwnerManager.execTransaction, hoperation]
  exact if_pos (by rw [ethTo_of_ether hamount hrecipient])

/-- The contract performs the transaction by running its calls in order. -/
theorem buildTransactionData_ok (lib : ThirdParty) (now : Date) (m : OwnerManager) (haddress : b.wallet.address = some address)
    (hwf : address.WellFormed) (hmulti : b.multiSendContractAddress = multiSend)
    (hmultiWf : multiSend.WellFormed) (hdraft : b.transaction.status = .draft)
    (hamount : b.transaction.amount = some (.ether 0))
    (hdatas : ∀ d ∈ datas, d.length < 2 ^ 32) (hcount : datas.length ≤ 2) :
    ∃ b', b.buildTransactionData lib datas now = .ok b' ∧
      m.execTransaction address.toNat multiSend.toNat b'.transaction = m.runCalls datas := by
  obtain ⟨multi', hformat, -, hmultiNat⟩ := EncryptionService.address_wellFormed lib hmultiWf
  have hfilter : ∀ d ∈ datas.filter (· ≠ []), d.length < 2 ^ 32 ∧ d ≠ [] := fun d hd =>
    ⟨hdatas d (List.mem_of_mem_filter hd), of_decide_eq_true (List.mem_filter.mp hd).2⟩
  have hfilterCount : (datas.filter (· ≠ [])).length ≤ 2 :=
    (List.length_filter_le _ _).trans hcount
  rw [← runCalls_filter m datas]
  generalize hinput : datas.filter (· ≠ []) = input at hfilter hfilterCount
  unfold buildTransactionData
  rw [haddress, hmulti, hformat, hinput]
  match input with
  | [] =>
      simp only [unwrap_some, Transaction.change_draft, hdraft, Transaction.assign, Transaction.timestampUpdated,
        bind, Except.bind, pure, Except.pure]
      exact ⟨_, rfl, execTransaction_call m _ hamount rfl rfl⟩
  | [call] =>
      simp only [unwrap_some, Transaction.change_draft, hdraft, Transaction.assign, Transaction.timestampUpdated,
        bind, Except.bind, pure, Except.pure]
      refine ⟨_, rfl, Eq.trans (execTransaction_call m _ (by exact hamount) rfl rfl) ?_⟩
      simp only [Option.getD_some, OwnerManager.runCalls]
      cases m.call call <;> rfl
  | c₁ :: c₂ :: rest =>
      have hdata := multiSendData_eq lib hwf fun d hd => (hfilter d hd).2
      simp only [unwrap_some, Transaction.change_draft, hdraft, Transaction.assign, Transaction.timestampUpdated,
        bind, Except.bind, pure, Except.pure]
      refine ⟨_, rfl, ?_⟩
      rw [← hmultiNat]
      refine Eq.trans (execTransaction_delegateCall m _ (by exact hamount) rfl rfl) ?_
      rw [Option.getD_some, hdata]
      refine OwnerManager.multiSend_packed hwf.toNat_lt m
        (fun d hd => (hfilter d hd).1.trans (by decide)) ?_
      have hle := length_flatMap_packed address.toNat (fun d hd => (hfilter d hd).1)
      exact lt_of_le_of_lt (hle.trans (Nat.mul_le_mul_right _ hfilterCount)) (by decide)

end Transaction

/-! ### The hand-over -/

section HandOver

variable {lib : ThirdParty} {r : RecoveringWallet} {m : OwnerManager} {multiSend : Address}
  {b : RecoveryTransactionBuilder} {now : Date}

/-- The contract `m'` belongs to the local owners, with the threshold of the new scheme. -/
def BelongsTo (r : RecoveringWallet) (newScheme : WalletScheme) (m' : OwnerManager) : Prop :=
  (∀ a, a ∈ m'.owners ↔ r.IsLocalOwner a) ∧ (m'.threshold : Int) = newScheme.confirmations

/-- The builder makes a transaction, the contract performs it without reverting, and then
belongs to the local owners. -/
def HandsOver (lib : ThirdParty) (r : RecoveringWallet) (m : OwnerManager) (multiSend : Address)
    (b : RecoveryTransactionBuilder) (now : Date) : Prop :=
  ∃ b', b.buildData lib now = .ok b' ∧
    ∃ m', m.execTransaction r.address.toNat multiSend.toNat b'.transaction = some m' ∧
      BelongsTo r b.newScheme m'

/-- The second modifiable owner, if there is one, is not this device, and the contract takes
this device and the browser extension as owners. -/
def Recoverable (r : RecoveringWallet) (m : OwnerManager) : Prop :=
  (r.modifiable m)[1]? ≠ some r.device.toNat ∧ IsOrdinary r.device.toNat ∧
    ∀ e ∈ r.extensionOwner, IsOrdinary e.toNat

/-- Two calls, one after the other. -/
theorem two_calls_frame {b₁ b₂ : RecoveryTransactionBuilder} {d₁ d₂ : Data}
    (h₁ : d₁.length < 2 ^ 32 ∧ SameTarget b b₁) (h₂ : d₂.length < 2 ^ 32 ∧ SameTarget b₁ b₂) :
    [d₁, d₂].length ≤ 2 ∧ (∀ d ∈ [d₁, d₂], d.length < 2 ^ 32) ∧ SameTarget b b₂ :=
  ⟨le_rfl, by simpa using ⟨h₁.1, h₂.1⟩, h₁.2.trans h₂.2⟩

/-- `callsData` of one or two calls. -/
theorem callsData_frame {datas : List Data} {b' : RecoveryTransactionBuilder}
    (h : b.callsData lib = .ok (datas, b')) :
    datas.length ≤ 2 ∧ (∀ d ∈ datas, d.length < 2 ^ 32) ∧ SameTarget b b' := by
  cases callsData_called h with
  | swapped hschemes h =>
      obtain ⟨hlen, hsame⟩ := swapOwnerData_frame h
      exact ⟨by simp, by simpa using hlen, hsame⟩
  | added hschemes h₁ h₂ => exact two_calls_frame (swapOwnerData_frame h₁) (addOwnerData_frame h₂)
  | removed hschemes h₁ h₂ =>
      exact two_calls_frame (swapOwnerData_frame h₁) (removeOwnerData_frame h₂)
  | swappedTwice hschemes h₁ h₂ =>
      exact two_calls_frame (swapOwnerData_frame h₁) (swapOwnerData_frame h₂)

/-- The hand-over is a matter of the calls alone. -/
theorem handsOver_iff_calls (hb : Pulled r m multiSend b) (hmulti : multiSend.WellFormed) :
    HandsOver lib r m multiSend b now ↔
      ∃ datas b', b.callsData lib = .ok (datas, b') ∧
        ∃ m', m.runCalls datas = some m' ∧ BelongsTo r b.newScheme m' := by
  have hbuild : ∀ {datas b'}, b.callsData lib = .ok (datas, b') →
      ∃ b'', b.buildData lib now = .ok b'' ∧
        m.execTransaction r.address.toNat multiSend.toNat b''.transaction = m.runCalls datas := by
    intro datas b' h
    obtain ⟨hcount, hdatas, hsame⟩ := callsData_frame h
    obtain ⟨b'', hb'', hexec⟩ := buildTransactionData_ok lib now m
      (hsame.address.trans hb.address) (r.wellFormed r.address (by simp))
      (hsame.multiSend.trans hb.multiSend) hmulti (by rw [hsame.transaction]; exact hb.draft)
      (by rw [hsame.transaction]; exact hb.amount) hdatas hcount
    refine ⟨b'', ?_, hexec⟩
    rw [buildData, h]
    exact hb''
  constructor
  · intro h
    obtain ⟨b'', hb'', m', hexec, hm'⟩ := h
    obtain ⟨⟨datas, b'⟩, hcalls, -⟩ := bind_ok.mp hb''
    obtain ⟨b₃, hb₃, hrun⟩ := hbuild hcalls
    obtain rfl := Except.ok.inj (hb''.symm.trans hb₃)
    exact ⟨datas, b', hcalls, m', hrun ▸ hexec, hm'⟩
  · intro h
    obtain ⟨datas, b', hcalls, m', hm', hbelongs⟩ := h
    obtain ⟨b'', hb'', hrun⟩ := hbuild hcalls
    exact ⟨b'', hb'', m', hrun.trans hm', hbelongs⟩

/-! ### The owners involved -/

theorem mem_owners_iff (hpaper : r.paper.toNat ∈ m.owners) (hderived : r.derived.toNat ∈ m.owners)
    (a : Nat) :
    a ∈ m.owners ↔ a = r.paper.toNat ∨ a = r.derived.toNat ∨ a ∈ r.modifiable m := by
  rw [RecoveringWallet.modifiable, List.mem_filter, decide_eq_true_eq]
  by_cases hp : a = r.paper.toNat
  · simp [hp, hpaper]
  · by_cases hq : a = r.derived.toNat
    · simp [hq, hderived]
    · simp [hp, hq]

theorem length_owners (hpaper : r.paper.toNat ∈ m.owners) (hderived : r.derived.toNat ∈ m.owners) :
    m.owners.length = (r.modifiable m).length + 2 := by
  have hne : r.paper.toNat ≠ r.derived.toNat := by
    have hdistinct := r.distinct
    simp only [List.map_cons, List.nodup_cons, List.mem_cons, not_or] at hdistinct
    exact hdistinct.2.1.1
  have hperm : (m.owners.filter fun a => !decide (a ≠ r.paper.toNat ∧ a ≠ r.derived.toNat)).Perm
      [r.paper.toNat, r.derived.toNat] := by
    refine (List.perm_ext_iff_of_nodup (m.nodup.filter _) (by simpa using hne)).mpr ?_
    intro a
    rw [List.mem_filter]
    constructor
    · intro h
      have h := h.2
      by_cases hp : a = r.paper.toNat
      · simp [hp]
      · simpa [hp] using h
    · intro h
      rcases List.mem_cons.mp h with rfl | h
      · simpa using hpaper
      · rw [List.mem_singleton.mp h]
        simpa using hderived
  have hsplit := List.length_eq_length_filter_add
    (fun a => decide (a ≠ r.paper.toNat ∧ a ≠ r.derived.toNat)) (l := m.owners)
  rw [hperm.length_eq] at hsplit
  exact hsplit

/-- Before and after the first call: `x` is the first modifiable owner, `rest` are the others. -/
structure FirstSwap (r : RecoveringWallet) (m : OwnerManager) (x : Nat) (rest : List Nat) : Prop where
  modifiable : r.modifiable m = x :: rest
  mem : x ∈ m.owners
  device_paper : r.device.toNat ≠ r.paper.toNat
  device_derived : r.device.toNat ≠ r.derived.toNat
  rest_paper : r.paper.toNat ∉ x :: rest
  rest_derived : r.derived.toNat ∉ x :: rest
  not_mem : x ∉ rest
  owners : ∀ a, a ∈ m.owners ↔ a = r.paper.toNat ∨ a = r.derived.toNat ∨ a ∈ x :: rest

theorem firstSwap (hpaper : r.paper.toNat ∈ m.owners) (hderived : r.derived.toNat ∈ m.owners)
    {x : Nat} {rest : List Nat} (hmod : r.modifiable m = x :: rest) : FirstSwap r m x rest := by
  have hdistinct := r.distinct
  simp only [List.map_cons, List.nodup_cons, List.mem_cons, not_or] at hdistinct
  have howners := mem_owners_iff hpaper hderived
  have hnot : ∀ a ∈ x :: rest, a ≠ r.paper.toNat ∧ a ≠ r.derived.toNat := by
    intro a ha
    rw [← hmod] at ha
    exact of_decide_eq_true (List.mem_filter.mp ha).2
  have hnodup : (x :: rest).Nodup := hmod ▸ m.nodup.filter _
  rw [hmod] at howners
  exact ⟨hmod, (howners x).mpr (.inr (.inr List.mem_cons_self)), hdistinct.1.1, hdistinct.1.2.1,
    fun h => (hnot _ h).1 rfl, fun h => (hnot _ h).2 rfl, (List.nodup_cons.mp hnodup).1, howners⟩

namespace FirstSwap

variable {x : Nat} {rest : List Nat}

/-- The first call goes through unless this device is another modifiable owner. -/
theorem exists_iff (h : FirstSwap r m x rest) :
    (∃ m₁, SwapsTo m x r.device.toNat m₁) ↔ IsOrdinary r.device.toNat ∧ r.device.toNat ∉ rest := by
  rw [exists_swapsTo h.mem]
  constructor
  · intro hd
    rcases hd with hd | ⟨hord, hnew⟩
    · rw [hd]
      exact ⟨m.ordinary x h.mem, h.not_mem⟩
    · exact ⟨hord, fun hrest => hnew ((h.owners _).mpr (.inr (.inr (List.mem_cons_of_mem x hrest))))⟩
  · intro hd
    by_cases hx : r.device.toNat = x
    · exact .inl hx
    · refine .inr ⟨hd.1, fun hmem => ?_⟩
      rcases (h.owners _).mp hmem with hp | hq | hrest
      · exact h.device_paper hp
      · exact h.device_derived hq
      · exact hd.2 ((List.mem_cons.mp hrest).resolve_left hx)

theorem mem_owners (h : FirstSwap r m x rest) {m₁ : OwnerManager}
    (hswap : SwapsTo m x r.device.toNat m₁) (a : Nat) :
    a ∈ m₁.owners ↔
      a = r.device.toNat ∨ a = r.paper.toNat ∨ a = r.derived.toNat ∨ a ∈ rest := by
  rw [hswap.mem_owners h.mem, h.owners, List.mem_cons]
  constructor
  · intro ha
    rcases ha with ha | ⟨ha, hax⟩
    · exact .inl ha
    · rcases ha with ha | ha | ha | ha
      · exact .inr (.inl ha)
      · exact .inr (.inr (.inl ha))
      · exact absurd ha hax
      · exact .inr (.inr (.inr ha))
  · intro ha
    rcases ha with ha | ha | ha | ha
    · exact .inl ha
    · refine .inr ⟨.inl ha, ?_⟩
      rw [ha]
      exact fun hx => h.rest_paper (hx ▸ List.mem_cons_self)
    · refine .inr ⟨.inr (.inl ha), ?_⟩
      rw [ha]
      exact fun hx => h.rest_derived (hx ▸ List.mem_cons_self)
    · exact .inr ⟨.inr (.inr (.inr ha)), fun hx => h.not_mem (hx ▸ ha)⟩

section Second

variable {y : Nat} {m₁ : OwnerManager}

theorem mem_second (h : FirstSwap r m x [y]) (hswap : SwapsTo m x r.device.toNat m₁) :
    y ∈ m₁.owners := by
  rw [h.mem_owners hswap]
  simp

/-- The owners once the second modifiable one has made way. -/
theorem mem_owners_ne (h : FirstSwap r m x [y]) (hswap : SwapsTo m x r.device.toNat m₁)
    (hnot : r.device.toNat ∉ [y]) (a : Nat) :
    (a ∈ m₁.owners ∧ a ≠ y) ↔ a = r.device.toNat ∨ a = r.paper.toNat ∨ a = r.derived.toNat := by
  have hyp : r.paper.toNat ≠ y := fun hp => h.rest_paper (by simp [hp])
  have hyq : r.derived.toNat ≠ y := fun hq => h.rest_derived (by simp [hq])
  have hyd : r.device.toNat ≠ y := by simpa using hnot
  rw [h.mem_owners hswap, List.mem_singleton]
  constructor
  · intro ha
    tauto
  · intro ha
    rcases ha with rfl | rfl | rfl
    · exact ⟨.inl rfl, hyd⟩
    · exact ⟨.inr (.inl rfl), hyp⟩
    · exact ⟨.inr (.inr (.inl rfl)), hyq⟩

end Second

/-- The condition on the second modifiable owner, when there are at most two. -/
theorem recoverable_iff (h : FirstSwap r m x rest) (hrest : rest.length ≤ 1) :
    Recoverable r m ↔ r.device.toNat ∉ rest ∧ IsOrdinary r.device.toNat ∧
      ∀ e ∈ r.extensionOwner, IsOrdinary e.toNat := by
  rw [Recoverable, h.modifiable]
  match rest, hrest with
  | [], _ => simp
  | [y], _ => simp [eq_comm]

end FirstSwap

/-! ### Scheme by scheme -/

variable {x : Nat} {rest : List Nat}

/-- What the first call builder returns. -/
theorem first_call (lib : ThirdParty) (hb : Pulled r m multiSend b) (h : FirstSwap r m x rest) :
    ∃ data l, b.swapOwnerData lib .thisDevice =
        .ok (data, { b with modifiableOwners := rest.map remoteOwner, ownerList := l }) ∧
      ∀ m', (m.call data = some m' ↔ SwapsTo m x r.device.toNat m') ∧
        (SwapsTo m x r.device.toNat m' → Tracks l m') := by
  have hmod : b.modifiableOwners = remoteOwner x :: rest.map remoteOwner := by
    rw [hb.modifiable, h.modifiable, List.map_cons]
  have hne : m.owners ≠ [] := List.ne_nil_of_mem h.mem
  have howner := (hb.owner .thisDevice (by decide)).trans r.owner_device
  exact swapOwnerData_ok lib hmod (hb.tracks hne) h.mem howner (r.wellFormed r.device (by simp))

theorem handsOver_one (hb : Pulled r m multiSend b) (hmulti : multiSend.WellFormed)
    (h : FirstSwap r m x rest)
    (hcalls : b.callsData lib =
      b.swapOwnerData lib .thisDevice >>= fun s => pure ([s.1], s.2)) :
    HandsOver lib r m multiSend b now ↔
      ∃ m₁, SwapsTo m x r.device.toNat m₁ ∧ BelongsTo r b.newScheme m₁ := by
  obtain ⟨data, l, hdata, hcall⟩ := first_call lib hb h
  rw [handsOver_iff_calls hb hmulti, hcalls, hdata]
  have hrun : m.runCalls [data] = m.call data := by
    rw [OwnerManager.runCalls]
    cases m.call data <;> rfl
  constructor
  · intro hover
    obtain ⟨datas, b', heq, m', hm', hbelongs⟩ := hover
    obtain ⟨rfl, -⟩ := Prod.mk.inj (Except.ok.inj heq)
    exact ⟨m', (hcall m').1.mp (hrun ▸ hm'), hbelongs⟩
  · intro hover
    obtain ⟨m₁, hswap, hbelongs⟩ := hover
    exact ⟨[data], _, rfl, m₁, hrun.trans ((hcall m₁).1.mpr hswap), hbelongs⟩

theorem handsOver_two (now : Date) (hb : Pulled r m multiSend b) (hmulti : multiSend.WellFormed)
    (h : FirstSwap r m x rest)
    (second : RecoveryTransactionBuilder → Except Trap (Data × RecoveryTransactionBuilder))
    (hcalls : b.callsData lib = b.swapOwnerData lib .thisDevice >>= fun s =>
      second s.2 >>= fun t => pure ([s.1, t.1], t.2)) :
    ∃ l, (∀ m₁, SwapsTo m x r.device.toNat m₁ → Tracks l m₁) ∧
      (HandsOver lib r m multiSend b now ↔
        ∃ m₁, SwapsTo m x r.device.toNat m₁ ∧
          ∃ data b', second { b with modifiableOwners := rest.map remoteOwner, ownerList := l } =
              .ok (data, b') ∧
            ∃ m', m₁.call data = some m' ∧ BelongsTo r b.newScheme m') := by
  obtain ⟨data₁, l, hdata, hcall⟩ := first_call lib hb h
  refine ⟨l, fun m₁ => (hcall m₁).2, ?_⟩
  rw [handsOver_iff_calls hb hmulti, hcalls, hdata]
  constructor
  · intro hover
    obtain ⟨datas, b', heq, m', hm', hbelongs⟩ := hover
    obtain ⟨s, hs, heq⟩ := bind_ok.mp heq
    obtain rfl := Except.ok.inj hs
    obtain ⟨⟨data, b₂⟩, hsecond, heq⟩ := bind_ok.mp heq
    obtain ⟨rfl, -⟩ := Prod.mk.inj (Except.ok.inj heq)
    obtain ⟨m₁, hm₁, hrest⟩ := Option.bind_eq_some_iff.mp hm'
    obtain ⟨m₂, hm₂, hrest⟩ := Option.bind_eq_some_iff.mp hrest
    obtain rfl := Option.some.inj hrest
    exact ⟨m₁, (hcall m₁).1.mp hm₁, data, b₂, hsecond, m₂, hm₂, hbelongs⟩
  · intro hover
    obtain ⟨m₁, hswap, data, b₂, hsecond, m', hm', hbelongs⟩ := hover
    refine ⟨[data₁, data], b₂, ?_, m', ?_, hbelongs⟩
    · show (second _ >>= fun t => pure ([data₁, t.1], t.2)) = _
      rw [hsecond]
      rfl
    · rw [OwnerManager.runCalls, (hcall m₁).1.mpr hswap, Option.bind_some, OwnerManager.runCalls, hm']
      rfl

/-- Three owners, and three to be: one swap. -/
theorem handsOver_without_without (hb : Pulled r m multiSend b) (hmulti : multiSend.WellFormed)
    (h : FirstSwap r m x []) (hold : b.oldScheme = .withoutExtension)
    (hnew : b.newScheme = .withoutExtension) (hext : r.extensionOwner = none) :
    HandsOver lib r m multiSend b now ↔ Recoverable r m := by
  have hthreshold : (m.threshold : Int) = 1 :=
    congrArg WalletScheme.confirmations (hb.oldScheme.symm.trans hold)
  have hcalls : b.callsData lib = b.swapOwnerData lib .thisDevice >>= fun s => pure ([s.1], s.2) := by
    unfold callsData
    rw [if_pos ⟨hold, hnew⟩]
  rw [handsOver_one hb hmulti h hcalls, h.recoverable_iff (by simp)]
  constructor
  · intro hover
    obtain ⟨m₁, hswap, -⟩ := hover
    have hord := (h.exists_iff.mp ⟨m₁, hswap⟩).1
    exact ⟨by simp, hord, by simp [hext]⟩
  · intro hrec
    obtain ⟨m₁, hswap⟩ := h.exists_iff.mpr ⟨hrec.2.1, hrec.1⟩
    refine ⟨m₁, hswap, ?_, ?_⟩
    · intro a
      rw [h.mem_owners hswap, r.isLocalOwner_iff, hext]
      simp
    · rw [hswap.threshold_eq, hthreshold, hnew]
      rfl

section Extension

variable {e : Address}

theorem withExtension_ne : WalletScheme.withExtension ≠ .withoutExtension := by decide

theorem extension_distinct (hext : r.extensionOwner = some e) :
    e.toNat ≠ r.device.toNat ∧ e.toNat ≠ r.paper.toNat ∧ e.toNat ≠ r.derived.toNat := by
  have hdistinct := r.distinct
  simp only [hext, Option.toList_some, List.map_cons, List.map_nil, List.nodup_cons, List.mem_cons,
    List.not_mem_nil, or_false, not_or] at hdistinct
  exact ⟨Ne.symm hdistinct.1.2.2, Ne.symm hdistinct.2.1.2, Ne.symm hdistinct.2.2.1⟩

theorem isLocalOwner_of_extension (hext : r.extensionOwner = some e) (a : Nat) :
    r.IsLocalOwner a ↔ a = r.device.toNat ∨ a = r.paper.toNat ∨ a = r.derived.toNat ∨
      a = e.toNat := by
  rw [r.isLocalOwner_iff, hext]
  simp

theorem owner_browserExtension (hb : Pulled r m multiSend b) (hext : r.extensionOwner = some e) :
    b.wallet.owner .browserExtension = some ⟨e, .browserExtension⟩ := by
  rw [hb.owner _ (by decide), r.owner_extension, hext]
  rfl

/-- Three owners, four to be: a swap and an addition. -/
theorem handsOver_without_with (hb : Pulled r m multiSend b) (hmulti : multiSend.WellFormed)
    (h : FirstSwap r m x []) (hold : b.oldScheme = .withoutExtension)
    (hnew : b.newScheme = .withExtension) (hext : r.extensionOwner = some e) :
    HandsOver lib r m multiSend b now ↔ Recoverable r m := by
  have hwf : e.WellFormed := r.wellFormed e (by simp [hext])
  have howner := owner_browserExtension hb hext
  have hcalls : b.callsData lib = b.swapOwnerData lib .thisDevice >>= fun s =>
      addOwnerData lib s.2 .browserExtension >>= fun t => pure ([s.1, t.1], t.2) := by
    unfold callsData
    rw [if_neg (fun h => withExtension_ne (hnew.symm.trans h.2)), if_pos ⟨hold, hnew⟩]
  obtain ⟨l, htracks, hiff⟩ := handsOver_two now hb hmulti h
    (fun b => addOwnerData lib b .browserExtension) hcalls
  obtain ⟨hne, hnep, hneq⟩ := extension_distinct hext
  -- what the second call does once the first went through
  have hadd : ∀ {m₁}, SwapsTo m x r.device.toNat m₁ → e.toNat ∉ m₁.owners ∧
      ∃ data b', addOwnerData lib { b with modifiableOwners := [], ownerList := l }
          .browserExtension = .ok (data, b') ∧
        ∀ m', m₁.call data = some m' ↔
          if e.toNat = sentinelOwner then m' = m₁
          else IsOrdinary e.toNat ∧ m'.owners = e.toNat :: m₁.owners ∧ m'.threshold = 2 := by
    intro m₁ hswap
    have hnot : e.toNat ∉ m₁.owners := by
      rw [h.mem_owners hswap]
      simp [hne, hnep, hneq]
    have hlen : 1 ≤ m₁.owners.length := by
      rw [hswap.length_owners]
      exact List.length_pos_of_mem h.mem
    exact ⟨hnot, addOwnerData_ok lib (htracks m₁ hswap) howner hwf (by rw [hnew]; rfl) hlen hnot⟩
  rw [hiff, h.recoverable_iff (by simp), hext]
  constructor
  · intro hover
    obtain ⟨m₁, hswap, data, b', hsecond, m', hm', hbelongs⟩ := hover
    obtain ⟨hnot, data', b'', hok, hcall⟩ := hadd hswap
    obtain ⟨rfl, rfl⟩ := Prod.mk.inj (Except.ok.inj (hsecond.symm.trans hok))
    have hm' := (hcall m').mp hm'
    have hord := (h.exists_iff.mp ⟨m₁, hswap⟩).1
    split at hm'
    · -- the sentinel passed for an owner and was not added
      refine absurd ((hbelongs.1 e.toNat).mpr ?_) (hm' ▸ hnot)
      rw [isLocalOwner_of_extension hext]
      exact .inr (.inr (.inr rfl))
    · exact ⟨by simp, hord, by simpa using hm'.1⟩
  · intro hrec
    obtain ⟨-, hord, hextOrd⟩ := hrec
    have hextOrd : IsOrdinary e.toNat := hextOrd e rfl
    obtain ⟨m₁, hswap⟩ := h.exists_iff.mpr ⟨hord, by simp⟩
    obtain ⟨hnot, data, b', hok, hcall⟩ := hadd hswap
    have hlen : 1 ≤ m₁.owners.length := by
      rw [hswap.length_owners]
      exact List.length_pos_of_mem h.mem
    obtain ⟨m', hm'⟩ : ∃ m', m₁.addOwnerWithThreshold e.toNat 2 = some m' := by
      unfold OwnerManager.addOwnerWithThreshold
      exact ⟨_, dif_pos ⟨hextOrd, hnot, by decide, by omega⟩⟩
    have hm' := (OwnerManager.addOwnerWithThreshold_eq_some.mp hm').2
    refine ⟨m₁, hswap, data, b', hok, m', (hcall m').mpr ?_, ?_, ?_⟩
    · rw [if_neg hextOrd.2.1]
      exact ⟨hextOrd, hm'⟩
    · intro a
      rw [hm'.1, List.mem_cons, h.mem_owners hswap, isLocalOwner_of_extension hext]
      simp only [List.not_mem_nil, or_false]
      tauto
    · rw [hm'.2, hnew]
      rfl

/-- Four owners, four to be: two swaps. -/
theorem handsOver_with_with {y : Nat} (hb : Pulled r m multiSend b) (hmulti : multiSend.WellFormed)
    (h : FirstSwap r m x [y]) (hold : b.oldScheme = .withExtension)
    (hnew : b.newScheme = .withExtension) (hext : r.extensionOwner = some e) :
    HandsOver lib r m multiSend b now ↔ Recoverable r m := by
  have hwf : e.WellFormed := r.wellFormed e (by simp [hext])
  have hthreshold : (m.threshold : Int) = 2 :=
    congrArg WalletScheme.confirmations (hb.oldScheme.symm.trans hold)
  have howner := owner_browserExtension hb hext
  have hcalls : b.callsData lib = b.swapOwnerData lib .thisDevice >>= fun s =>
      swapOwnerData lib s.2 .browserExtension >>= fun t => pure ([s.1, t.1], t.2) := by
    unfold callsData
    rw [if_neg (fun h => withExtension_ne (hnew.symm.trans h.2)),
      if_neg (fun h => withExtension_ne (hold.symm.trans h.1)),
      if_neg (fun h => withExtension_ne (hnew.symm.trans h.2)), if_pos ⟨hold, hnew⟩]
  obtain ⟨l, htracks, hiff⟩ := handsOver_two now hb hmulti h
    (fun b => swapOwnerData lib b .browserExtension) hcalls
  obtain ⟨hne, hnep, hneq⟩ := extension_distinct hext
  -- the second call puts the extension in the place of the other modifiable owner
  have hswap₂ : ∀ {m₁}, SwapsTo m x r.device.toNat m₁ →
      ∃ data b', swapOwnerData lib { b with modifiableOwners := [remoteOwner y], ownerList := l }
          .browserExtension = .ok (data, b') ∧
        ∀ m', m₁.call data = some m' ↔ SwapsTo m₁ y e.toNat m' := by
    intro m₁ hswap
    obtain ⟨data, l', hok, hcall⟩ := swapOwnerData_ok lib
      (b := { b with modifiableOwners := [remoteOwner y], ownerList := l }) rfl (htracks m₁ hswap)
      (h.mem_second hswap) howner hwf
    exact ⟨data, _, hok, fun m' => (hcall m').1⟩
  rw [hiff, h.recoverable_iff (by simp), hext]
  constructor
  · intro hover
    obtain ⟨m₁, hswap, data, b', hsecond, m', hm', hbelongs⟩ := hover
    obtain ⟨data', b'', hok, hcall⟩ := hswap₂ hswap
    obtain ⟨rfl, rfl⟩ := Prod.mk.inj (Except.ok.inj (hsecond.symm.trans hok))
    obtain ⟨hord, hnot⟩ := h.exists_iff.mp ⟨m₁, hswap⟩
    refine ⟨hnot, hord, ?_⟩
    intro e' he'
    obtain rfl := Option.some.inj he'
    rcases (exists_swapsTo (h.mem_second hswap)).mp ⟨m', (hcall m').mp hm'⟩ with hey | hextOrd
    · rw [hey]
      exact m₁.ordinary y (h.mem_second hswap)
    · exact hextOrd.1
  · intro hrec
    obtain ⟨hnot, hord, hextOrd⟩ := hrec
    have hextOrd : IsOrdinary e.toNat := hextOrd e rfl
    obtain ⟨m₁, hswap⟩ := h.exists_iff.mpr ⟨hord, hnot⟩
    obtain ⟨data, b', hok, hcall⟩ := hswap₂ hswap
    -- it is in that place already, or no owner at all
    have hnew₂ : e.toNat = y ∨ (IsOrdinary e.toNat ∧ e.toNat ∉ m₁.owners) := by
      by_cases hey : e.toNat = y
      · exact .inl hey
      · refine .inr ⟨hextOrd, ?_⟩
        rw [h.mem_owners hswap]
        simp [hne, hnep, hneq, hey]
    obtain ⟨m', hswap'⟩ := (exists_swapsTo (h.mem_second hswap)).mpr hnew₂
    refine ⟨m₁, hswap, data, b', hok, m', (hcall m').mpr hswap', ?_, ?_⟩
    · intro a
      rw [hswap'.mem_owners (h.mem_second hswap), h.mem_owners_ne hswap hnot,
        isLocalOwner_of_extension hext, or_comm, or_assoc, or_assoc]
    · rw [hswap'.threshold_eq, hswap.threshold_eq, hthreshold, hnew]
      rfl

end Extension

/-- Four owners, three to be: a swap and a removal. -/
theorem handsOver_with_without {y : Nat} (hb : Pulled r m multiSend b)
    (hmulti : multiSend.WellFormed) (h : FirstSwap r m x [y]) (hold : b.oldScheme = .withExtension)
    (hnew : b.newScheme = .withoutExtension) (hext : r.extensionOwner = none) :
    HandsOver lib r m multiSend b now ↔ Recoverable r m := by
  have hcalls : b.callsData lib = b.swapOwnerData lib .thisDevice >>= fun s =>
      removeOwnerData lib s.2 >>= fun t => pure ([s.1, t.1], t.2) := by
    unfold callsData
    rw [if_neg (fun h => withExtension_ne (hold.symm.trans h.1)),
      if_neg (fun h => withExtension_ne (hold.symm.trans h.1)), if_pos ⟨hold, hnew⟩]
  have hlength : m.owners.length = 4 :=
    congrArg WalletScheme.owners (hb.oldScheme.symm.trans hold)
  obtain ⟨l, htracks, hiff⟩ := handsOver_two now hb hmulti h (removeOwnerData lib) hcalls
  rw [hiff, h.recoverable_iff (by simp), hext]
  constructor
  · intro hover
    obtain ⟨m₁, hswap, -⟩ := hover
    obtain ⟨hord, hnot⟩ := h.exists_iff.mp ⟨m₁, hswap⟩
    exact ⟨hnot, hord, by simp⟩
  · intro hrec
    obtain ⟨hnot, hord, -⟩ := hrec
    obtain ⟨m₁, hswap⟩ := h.exists_iff.mpr ⟨hord, hnot⟩
    have hy := h.mem_second hswap
    have hlen : 2 ≤ m₁.owners.length := by
      rw [hswap.length_owners, hlength]
      decide
    obtain ⟨data, b', hok, hcall⟩ := removeOwnerData_ok lib
      (b := { b with modifiableOwners := [remoteOwner y], ownerList := l }) rfl (htracks m₁ hswap) hy
      (by rw [hnew]; rfl) hlen
    obtain ⟨p, -, hlink, -⟩ := Links.exists_before hy (m₁.ordinary y hy).2.1
    obtain ⟨m', hm'⟩ : ∃ m', m₁.removeOwner p y 1 = some m' := by
      unfold OwnerManager.removeOwner
      exact ⟨_, dif_pos ⟨m₁.ordinary y hy, hlink, le_rfl, by omega⟩⟩
    have hm' := (OwnerManager.removeOwner_eq_some.mp hm').2
    refine ⟨m₁, hswap, data, b', hok, m', (hcall m').mpr hm', ?_, ?_⟩
    · intro a
      rw [hm'.1, m₁.nodup.mem_erase_iff, and_comm, h.mem_owners_ne hswap hnot, r.isLocalOwner_iff,
        hext]
      simp
    · rw [hm'.2, hnew]
      rfl

/-- For every contract the builder accepts that has the recovery owners among its owners, the
transaction hands the wallet over exactly when it is `Recoverable`. -/
theorem handsOver_iff_recoverable {id : TransactionID} (hmulti : multiSend.WellFormed)
    (hpaper : r.paper.toNat ∈ m.owners) (hderived : r.derived.toNat ∈ m.owners)
    (hpull : pullData lib r.wallet multiSend id (some (m.getOwners, m.getThreshold)) now = .ok b)
    (hsupported : b.isSupportedSafeOwners = true ∧ b.isSupportedScheme = true) :
    HandsOver lib r m multiSend b now ↔ Recoverable r m := by
  have hb := pullData_ok hpull
  have hlength := length_owners hpaper hderived
  obtain ⟨hold, hnew⟩ : (b.oldScheme = .withoutExtension ∨ b.oldScheme = .withExtension) ∧
      (b.newScheme = .withoutExtension ∨ b.newScheme = .withExtension) := by
    simpa [isSupportedScheme] using hsupported.2
  have hcount : b.oldScheme.owners = (r.modifiable m).length + 2 := by
    rw [hb.oldScheme]
    exact hlength
  have hextension : b.newScheme.confirmations = if r.extensionOwner = none then 1 else 2 :=
    hb.confirmations
  rcases hold with hold | hold
  · -- three owners: one modifiable
    have hone : (r.modifiable m).length = 1 := by
      rw [hold] at hcount
      have hthree : 3 = (r.modifiable m).length + 2 := hcount
      omega
    obtain ⟨x, hmod⟩ := List.length_eq_one_iff.mp hone
    have h := firstSwap hpaper hderived hmod
    rcases hnew with hnew | hnew
    · cases hext : r.extensionOwner with
      | none => exact handsOver_without_without hb hmulti h hold hnew hext
      | some e => simp [hnew, hext, WalletScheme.withoutExtension] at hextension
    · cases hext : r.extensionOwner with
      | none => simp [hnew, hext, WalletScheme.withExtension] at hextension
      | some e => exact handsOver_without_with hb hmulti h hold hnew hext
  · -- four owners: two modifiable
    have htwo : (r.modifiable m).length = 2 := by
      rw [hold] at hcount
      have hfour : 4 = (r.modifiable m).length + 2 := hcount
      omega
    obtain ⟨x, y, hmod⟩ := List.length_eq_two.mp htwo
    have h := firstSwap hpaper hderived hmod
    rcases hnew with hnew | hnew
    · cases hext : r.extensionOwner with
      | none => exact handsOver_with_without hb hmulti h hold hnew hext
      | some e => simp [hnew, hext, WalletScheme.withoutExtension] at hextension
    · cases hext : r.extensionOwner with
      | none => simp [hnew, hext, WalletScheme.withExtension] at hextension
      | some e => exact handsOver_with_with hb hmulti h hold hnew hext

end HandOver

/-! ### A recovery, and the same recovery once more -/

/-- A wallet whose device and extension are to take over. The contract listed an owner when
its address was entered. -/
def takeover : RecoveringWallet where
  wallet :=
    { id := ['w'], state := .recoveryDraft, address := some (Address.ofNat 100)
      owners := ⟨[⟨Address.ofNat 11, .thisDevice⟩, ⟨Address.ofNat 9, .unknown⟩,
        ⟨Address.ofNat 13, .paperWallet⟩, ⟨Address.ofNat 14, .paperWalletDerived⟩,
        ⟨Address.ofNat 12, .browserExtension⟩], by decide⟩ }
  address := Address.ofNat 100
  device := Address.ofNat 11
  paper := Address.ofNat 13
  derived := Address.ofNat 14
  extensionOwner := some (Address.ofNat 12)
  address_eq := rfl
  owner_device := rfl
  owner_paper := rfl
  owner_derived := rfl
  owner_extension := rfl
  wellFormed := by
    intro a ha
    simp only [Option.toList_some, List.mem_cons, List.not_mem_nil, or_false] at ha
    rcases ha with rfl | rfl | rfl | rfl | rfl <;> exact Address.wellFormed_ofNat _
  distinct := by decide +kernel

/-- The contract before the recovery: a lost device and the recovery owners. -/
def beforeTakeover : OwnerManager :=
  ⟨[9, 13, 14], 1, by decide, by decide, Nat.one_pos, by decide⟩

/-- The contract after it: the swap kept the place, the addition went to the front. -/
def afterTakeover : OwnerManager :=
  ⟨[12, 11, 13, 14], 2, by decide, by decide, Nat.two_pos, by decide⟩

/-- The builder for the wallet above and the contract `m`. -/
def takeoverBuilder (m : OwnerManager) : Except Trap RecoveryTransactionBuilder :=
  pullData reference takeover.wallet (Address.ofNat 200) ['t'] (some (m.getOwners, m.getThreshold)) 0

/-- The builder accepts the contract before the recovery, and hands the wallet over. -/
theorem handsOver_iff_recoverable_before :
    ∃ b, takeoverBuilder beforeTakeover = .ok b ∧
      HandsOver reference takeover beforeTakeover (Address.ofNat 200) b 0 := by
  have hrun : (takeoverBuilder beforeTakeover).toOption.any (fun b =>
      b.isSupportedSafeOwners && b.isSupportedScheme) = true := by
    decide +kernel
  cases hpull : takeoverBuilder beforeTakeover with
  | error e => simp [hpull, Except.toOption] at hrun
  | ok b =>
      rw [hpull] at hrun
      refine ⟨b, rfl, (handsOver_iff_recoverable (Address.wellFormed_ofNat 200) (by decide +kernel)
        (by decide +kernel) hpull (by simpa [Except.toOption] using hrun)).mpr ?_⟩
      exact ⟨by decide +kernel, by decide +kernel, by
        intro e he
        obtain rfl := Option.some.inj he
        decide +kernel⟩

/-- After the recovery went through, the builder accepts the contract once more, but this
device is now the second modifiable owner, and the contract reverts. -/
theorem not_handsOver_after :
    ∃ b, takeoverBuilder afterTakeover = .ok b ∧
      (b.isSupportedSafeOwners = true ∧ b.isSupportedScheme = true) ∧
      ¬ HandsOver reference takeover afterTakeover (Address.ofNat 200) b 0 := by
  have hrun : (takeoverBuilder afterTakeover).toOption.any (fun b =>
      (b.isSupportedSafeOwners && b.isSupportedScheme) &&
        (b.buildData reference 0).toOption.all fun b' =>
          (afterTakeover.execTransaction takeover.address.toNat (Address.ofNat 200).toNat
            b'.transaction).isNone) = true := by
    decide +kernel
  cases hpull : takeoverBuilder afterTakeover with
  | error e => simp [hpull, Except.toOption] at hrun
  | ok b =>
      simp only [hpull, Except.toOption, Option.any_some, Bool.and_eq_true] at hrun
      refine ⟨b, rfl, hrun.1, ?_⟩
      intro hover
      obtain ⟨b', hb', m', hm', -⟩ := hover
      simp [hb', hm'] at hrun

end RecoveryTransactionBuilder

end MultisigWallet
