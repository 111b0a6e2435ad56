import MultisigWallet.RecoverySound
import MultisigWallet.WalletSettingsSound

/-!
# MultisigWallet.RecoveryPhraseSound

The new recovery phrase on chain: what the two swaps of `updateRecoveryPhraseTransaction` do when
the wallet contract runs them.

The list from which the service takes the previous-owner arguments follows the contract from
one swap to the next (`Tracks`), so it does not matter where the two owners stand, not even
when the first is what the second is linked from.
-/

namespace MultisigWallet

namespace WalletSettingsDomainService

open OwnerManager RecoveryTransactionBuilder

variable {lib : ThirdParty} {m m' : OwnerManager} {w : Wallet} {l : OwnerLinkedList}
  {x y : Nat} {rest : List Nat} {d : Address}

/-! ### One swap -/

/-- A call that fits the argument of a multi-send. -/
def IsCall (data : Data) : Prop := data ≠ [] ∧ data.length < 2 ^ 32

/-- An owner is swapped for a new one, and the list still agrees with the contract. -/
theorem swapData_ok (lib : ThirdParty) (htracks : Tracks l m) (hx : x ∈ m.owners)
    (hd : d.WellFormed) (hordinary : IsOrdinary d.toNat) (hfresh : d.toNat ∉ m.owners) :
    ∃ data l' m', swapData lib l (Address.ofNat x) d = .ok (data, l') ∧ IsCall data ∧
      m.call data = some m' ∧ m'.owners = Links.swap m.owners x d.toNat ∧
      m'.threshold = m.threshold ∧ Tracks l' m' := by
  have hxlt := (m.ordinary x hx).2.2
  obtain ⟨p, hp, hbefore, hlink⟩ := htracks.addressBefore hx
  obtain ⟨m', hm'⟩ := exists_swapOwner hx hordinary hfresh hlink
  obtain ⟨-, howners, hthreshold⟩ := swapOwner_eq_some.mp hm'
  have hdata := swapOwner_eq lib (Address.wellFormed_ofNat p) (Address.wellFormed_ofNat x) hd
  rw [Address.toNat_ofNat hp, Address.toNat_ofNat hxlt] at hdata
  refine ⟨SafeOwnerManagerContractProxy.swapOwner lib (Address.ofNat p) (Address.ofNat x) d,
    l.replace (Address.ofNat x) d, m', ?_, ?_, ?_, howners, hthreshold,
    htracks.replace hx hd howners⟩
  · simp only [swapData, hbefore, bind, Except.bind, pure, Except.pure]
  · rw [IsCall, hdata, List.length_append, Abi.length_words]
    exact ⟨by simp, by simp⟩
  · rw [hdata, call_swapOwner m hp hxlt hd.toNat_lt, hm']

/-! ### The owners that are swapped -/

/-- The contract's owners that are neither this device nor the extension, in link order. -/
def otherOwners (w : Wallet) (m : OwnerManager) : List Nat :=
  m.owners.filter fun a => (w.owner .thisDevice).map (·.address.toNat) ≠ some a ∧
    (w.owner .browserExtension).map (·.address.toNat) ≠ some a

/-- The owners a contract answers with, in an answer that is not too long to be one. -/
theorem getOwners_ok (lib : ThirdParty) (m : OwnerManager)
    (hanswer : isInt m.getOwners.length = true) :
    SafeOwnerManagerContractProxy.getOwners lib m.getOwners =
      .ok (m.owners.map Address.ofNat) := by
  have hlt : ∀ a ∈ m.owners, a < 2 ^ 160 := fun a ha => (m.ordinary a ha).2.2
  have hint : isInt (m.owners.length * 32) = true := by
    simp only [getOwners, Abi.length_words, List.length_cons, isInt, Bool.and_eq_true,
      decide_eq_true_eq] at hanswer ⊢
    omega
  have hmap : m.owners.map (EthereumContractProxy.addressOfUInt lib) =
      m.owners.map Address.ofNat :=
    List.map_congr_left fun n hn => EthereumContractProxy.addressOfUInt_eq lib (hlt n hn)
  rw [SafeOwnerManagerContractProxy.getOwners, EthereumContractProxy.decodeArrayAddress, getOwners,
    EthereumContractProxy.decodeArrayUInt_words (fun n hn => (hlt n hn).trans (by decide))
      (length_owners_lt m), if_pos hint]
  exact congrArg Except.ok hmap

/-- Letter case does not keep an owner in the list. -/
theorem withoutOwner_ok (lib : ThirdParty) {role : OwnerRole} {ns : List Nat}
    (hwf : ∀ o ∈ w.owner role, o.address.WellFormed) (hlt : ∀ a ∈ ns, a < 2 ^ 160)
    (hns : ns.Nodup) :
    withoutOwner lib w role (ns.map Address.ofNat) =
      .ok ((ns.filter fun a => (w.owner role).map (·.address.toNat) ≠ some a).map
        Address.ofNat) := by
  unfold withoutOwner
  cases howner : w.owner role with
  | none => simp
  | some o =>
      have ho := hwf o howner
      have hstring : Address.ofString lib (lowercased o.address.value) =
          .ok (Address.ofNat o.address.toNat) := by
        rw [← ho.normalized_eq]
        exact ho.normalized.ofString_eq lib
      have hnodup : (ns.map Address.ofNat).Nodup :=
        hns.map_on fun a ha b hb h => Address.ofNat_inj (hlt a ha) (hlt b hb) h
      simp only [hstring, bind, Except.bind, pure, Except.pure]
      rw [hnodup.erase_eq_filter, List.filter_map]
      congr 2
      refine List.filter_congr fun a ha => ?_
      have hiff : Address.ofNat a = Address.ofNat o.address.toNat ↔ o.address.toNat = a := by
        constructor
        · intro h
          exact (Address.ofNat_inj (hlt a ha) ho.toNat_lt h).symm
        · intro h
          rw [h]
      simp [bne, beq_eq_decide, hiff]

/-! ### Both swaps -/

/-- Two owners that are swapped one after the other. -/
theorem swap_swap {ns : List Nat} {a b : Nat} (ha : a ∉ ns) (hy : y ∈ ns) :
    Links.swap (Links.swap ns x a) y b =
      ns.map fun n => if n = x then a else if n = y then b else n := by
  have hay : a ≠ y := fun h => ha (h ▸ hy)
  rw [Links.swap, Links.swap, List.map_map]
  refine List.map_congr_left fun n _ => ?_
  rw [Function.comp_apply]
  by_cases hn : n = x
  · simp [hn, hay]
  · simp [hn]

/-- What the new owners are: addresses the contract takes, new to it and to each other. -/
structure Fresh (m : OwnerManager) (newOwner1 newOwner2 : Address) : Prop where
  wellFormed : newOwner1.WellFormed ∧ newOwner2.WellFormed
  ordinary : IsOrdinary newOwner1.toNat ∧ IsOrdinary newOwner2.toNat
  fresh : newOwner1.toNat ∉ m.owners ∧ newOwner2.toNat ∉ m.owners
  distinct : newOwner1.toNat ≠ newOwner2.toNat

variable {newOwner1 newOwner2 : Address}

/-- Both calls go through. -/
theorem realCalls_ok (lib : ThirdParty) (hanswer : isInt m.getOwners.length = true)
    (hwf : ∀ role, ∀ o ∈ w.owner role, o.address.WellFormed)
    (hothers : otherOwners w m = x :: y :: rest) (hnew : Fresh m newOwner1 newOwner2) :
    ∃ c₁ c₂ m', realCalls lib w newOwner1 newOwner2 m.getOwners = .ok [c₁, c₂] ∧
      (IsCall c₁ ∧ IsCall c₂) ∧ m.runCalls [c₁, c₂] = some m' ∧ m'.threshold = m.threshold ∧
      m'.owners = m.owners.map fun a =>
        if a = x then newOwner1.toNat else if a = y then newOwner2.toNat else a := by
  have hlt : ∀ a ∈ m.owners, a < 2 ^ 160 := fun a ha => (m.ordinary a ha).2.2
  have hmem : ∀ a ∈ otherOwners w m, a ∈ m.owners := fun a ha => List.mem_of_mem_filter ha
  have hx : x ∈ m.owners := hmem x (by simp [hothers])
  have hy : y ∈ m.owners := hmem y (by simp [hothers])
  have hyx : y ≠ x := by
    have hnodup : (otherOwners w m).Nodup := m.nodup.filter _
    rw [hothers] at hnodup
    rintro rfl
    simp at hnodup
  -- the owners as they are read
  obtain ⟨l, hl, htracks⟩ : ∃ l, ({} : OwnerLinkedList).addAll (m.owners.map Address.ofNat) = .ok l ∧
      Tracks l m := by
    have hadd := tracks_addAll (m := m) (List.ne_nil_of_mem hx)
    rwa [List.map_map] at hadd
  have hdevice := withoutOwner_ok lib (hwf .thisDevice) hlt m.nodup
  have hextension := withoutOwner_ok lib (hwf .browserExtension)
    (fun a ha => hlt a (List.mem_of_mem_filter ha))
    (m.nodup.filter fun a => (w.owner .thisDevice).map (·.address.toNat) ≠ some a)
  rw [List.filter_filter] at hextension
  have hmodifiable : (m.owners.filter fun a =>
      decide ((w.owner .browserExtension).map (·.address.toNat) ≠ some a) &&
        decide ((w.owner .thisDevice).map (·.address.toNat) ≠ some a)) = x :: y :: rest := by
    rw [← hothers, otherOwners]
    refine List.filter_congr fun a _ => ?_
    rw [Bool.and_comm, Bool.decide_and]
  -- the swaps
  obtain ⟨c₁, l₁, m₁, hswap, hc₁, hcall, howners, hthreshold, htracks⟩ :=
    swapData_ok lib htracks hx hnew.wellFormed.1 hnew.ordinary.1 hnew.fresh.1
  have hmem₁ : ∀ a, a ∈ m₁.owners ↔ (a = newOwner1.toNat ∧ x ∈ m.owners) ∨ a ∈ m.owners ∧ a ≠ x :=
    fun a => by rw [howners, Links.mem_swap]
  have hy₁ : y ∈ m₁.owners := (hmem₁ y).mpr (.inr ⟨hy, hyx⟩)
  have hfresh₁ : newOwner2.toNat ∉ m₁.owners := by
    intro h
    rcases (hmem₁ _).mp h with ⟨h, -⟩ | ⟨h, -⟩
    · exact hnew.distinct h.symm
    · exact hnew.fresh.2 h
  obtain ⟨c₂, l₂, m₂, hswap', hc₂, hcall', howners', hthreshold', -⟩ :=
    swapData_ok lib htracks hy₁ hnew.wellFormed.2 hnew.ordinary.2 hfresh₁
  refine ⟨c₁, c₂, m₂, ?_, ⟨hc₁, hc₂⟩, ?_, hthreshold'.trans hthreshold, ?_⟩
  · simp only [realCalls, getOwners_ok lib m hanswer, hl, hdevice, hextension, hmodifiable,
      List.map_cons, removeFirst, hswap, hswap', bind, Except.bind, pure, Except.pure]
  · simp only [runCalls, hcall, hcall', Option.bind_some]
  · rw [howners', howners, swap_swap hnew.fresh.1 hy]

/-! ### The transaction -/

/-- The contract runs the data of the transaction as the two calls. -/
theorem multiSend_calls (lib : ThirdParty) (m : OwnerManager) {address : Address} {c₁ c₂ : Data}
    (haddress : address.WellFormed) (hc₁ : IsCall c₁) (hc₂ : IsCall c₂) :
    m.multiSend address.toNat (MultiSendContractProxy.multiSend lib
      ([c₁, c₂].map fun call => ⟨.call, address, 0, call⟩)) = m.runCalls [c₁, c₂] := by
  have hcalls : ∀ c ∈ [c₁, c₂], c.length < 2 ^ 32 ∧ c ≠ [] := by
    intro c hc
    rcases List.mem_pair.mp hc with rfl | rfl
    · exact ⟨hc₁.2, hc₁.1⟩
    · exact ⟨hc₂.2, hc₂.1⟩
  have hdata := multiSendData_eq lib haddress fun c hc => (hcalls c hc).2
  have hall : [c₁, c₂].filter (· ≠ []) = [c₁, c₂] :=
    List.filter_eq_self.mpr fun c hc => decide_eq_true (hcalls c hc).2
  rw [multiSendData, hall] at hdata
  rw [hdata]
  refine multiSend_packed haddress.toNat_lt m
    (fun c hc => (hcalls c hc).1.trans (by decide)) ?_
  have hle := length_flatMap_packed address.toNat fun c hc => (hcalls c hc).1
  have hsmall : 2 * 2 ^ 33 < 2 ^ 256 := by decide
  exact lt_of_le_of_lt hle hsmall

/-- The calls of a prepared transaction give the wallet its new recovery owners: they go through,
and in the contract's list the first two owners that are neither this device nor the extension
have become the new ones. -/
theorem recoveryPhrase_replaced (lib : ThirdParty) (metadata : SafeContractMetadata)
    {address : Address} (haddress : w.address = some address) (hwellFormed : address.WellFormed)
    (howners : ∀ role, ∀ o ∈ w.owner role, o.address.WellFormed)
    (hothers : 2 ≤ (otherOwners w m).length) (hnew : Fresh m newOwner1 newOwner2)
    (hanswer : isInt m.getOwners.length = true) :
    ∃ x y rest calls m', otherOwners w m = x :: y :: rest ∧
      realCalls lib w newOwner1 newOwner2 m.getOwners = .ok calls ∧
      m.runCalls calls = some m' ∧ m'.threshold = m.threshold ∧
      (m'.owners = m.owners.map fun a =>
        if a = x then newOwner1.toNat else if a = y then newOwner2.toNat else a) ∧
      ∀ (r r' : Repositories) (id : TransactionID) (relay : EstimationRelay) (clock : Clock)
          (handler : Handler), r.selected = some w →
        updateRecoveryPhraseTransaction lib metadata r id newOwner1 newOwner2 (some m.getOwners)
          relay clock = .ok (some handler, r') →
        ∃ tx data, r'.find id = some tx ∧ tx.data = some data ∧
          m.multiSend address.toNat data = some m' := by
  obtain ⟨x, y, rest, hxy⟩ : ∃ x y rest, otherOwners w m = x :: y :: rest := by
    match hlist : otherOwners w m with
    | [] => simp [hlist] at hothers
    | [_] => simp [hlist] at hothers
    | x :: y :: rest => exact ⟨x, y, rest, rfl⟩
  obtain ⟨c₁, c₂, m', hcalls, ⟨hc₁, hc₂⟩, hrun, hthreshold, hswapped⟩ :=
    realCalls_ok lib hanswer howners hxy hnew
  refine ⟨x, y, rest, [c₁, c₂], m', hxy, hcalls, hrun, hthreshold, hswapped, ?_⟩
  intro r r' id relay clock handler hselected hupdate
  obtain ⟨v, address', owners, calls, tx, hv, haddress', howner, hcalls', rfl, hdata, -, rfl⟩ :=
    update_ok hupdate
  obtain rfl := Option.some.inj (hselected.symm.trans hv)
  obtain rfl := Option.some.inj (haddress.symm.trans haddress')
  obtain rfl := Option.some.inj howner
  obtain rfl := Except.ok.inj (hcalls.symm.trans hcalls')
  refine ⟨tx, _, Repositories.find_save r tx, hdata, ?_⟩
  rw [multiSend_calls lib m hwellFormed hc₁ hc₂, hrun]

/-- A contract that lists the owners of the old phrase first. -/
def recoveryOwnersFirst : OwnerManager :=
  ⟨[13, 14, 11, 12], 2, by decide, by decide, Nat.two_pos, by decide⟩

theorem recoveryPhrase_replaced_first :
    ∃ calls m', realCalls reference ReplaceBrowserExtensionDomainService.readyWallet
        (Address.ofNat 21) (Address.ofNat 22) recoveryOwnersFirst.getOwners = .ok calls ∧
      recoveryOwnersFirst.runCalls calls = some m' ∧ m'.owners = [21, 22, 11, 12] := by
  have hwf : ∀ n, (Address.ofNat n).WellFormed := Address.wellFormed_ofNat
  have howners : ∀ role, ∀ o ∈ ReplaceBrowserExtensionDomainService.readyWallet.owner role,
      o.address.WellFormed := by
    intro role o ho
    have hmem := (OwnerList.mem_of_first ho).1
    simp only [ReplaceBrowserExtensionDomainService.readyWallet,
      ReplaceBrowserExtensionDomainService.draftWallet, List.mem_cons, List.not_mem_nil,
      or_false] at hmem
    rcases hmem with rfl | rfl | rfl | rfl <;> exact hwf _
  have hothers : otherOwners ReplaceBrowserExtensionDomainService.readyWallet
      recoveryOwnersFirst = [13, 14] := by
    decide +kernel
  have hnew : Fresh recoveryOwnersFirst (Address.ofNat 21) (Address.ofNat 22) := by
    refine ⟨⟨hwf _, hwf _⟩, ?_, ?_, ?_⟩
    all_goals simp only [Address.toNat_ofNat (by decide : 21 < 2 ^ 160),
      Address.toNat_ofNat (by decide : 22 < 2 ^ 160)]
    · exact ⟨by decide, by decide⟩
    · exact ⟨by decide, by decide⟩
    · decide
  have haddress : ReplaceBrowserExtensionDomainService.readyWallet.address =
      some (Address.ofNat 100) := rfl
  obtain ⟨x, y, rest, calls, m', hxy, hcalls, hrun, -, howners, -⟩ :=
    recoveryPhrase_replaced reference EncryptionService.noMetadata haddress (hwf 100) howners
      (by rw [hothers]; decide) hnew (by decide +kernel)
  rw [hothers] at hxy
  obtain ⟨rfl, rfl, -⟩ : 13 = x ∧ 14 = y ∧ [] = rest := by simpa using hxy
  refine ⟨calls, m', hcalls, hrun, ?_⟩
  rw [howners, Address.toNat_ofNat (by decide), Address.toNat_ofNat (by decide)]
  decide

end WalletSettingsDomainService

end MultisigWallet
