import Mathlib.Data.List.ReduceOption
import MultisigWallet.ContractProxySound
import MultisigWallet.DBTransactionRepositorySound
import MultisigWallet.DBWalletRepository
import MultisigWallet.Lib.Transition

/-!
# MultisigWallet.DBWalletRepositorySound

A wallet survives the database. The owners are read by adding them to a draft, one by one, and
`addOwner(_:)` drops earlier owners of the same role. That no owner is dropped on the way is
what `OwnerList` promises of every wallet: a known role has one owner.
-/

namespace MultisigWallet

/-! ### Owners -/

theorem OwnerRole.ofRawValue_rawValue (role : OwnerRole) : ofRawValue role.rawValue = some role := by
  cases role <;> decide

theorem WalletState.ofRawValue_rawValue (state : WalletState) :
    ofRawValue state.rawValue = some state := by
  cases state <;> decide

namespace OwnerList

theorem eq_of_storage {l l' : OwnerList} (h : l.storage = l'.storage) : l = l' := by
  cases l
  cases l'
  cases h
  rfl

/-- A known role has at most one owner. -/
theorem countP_role_le_one (l : OwnerList) {role : OwnerRole} (h : role ≠ .unknown) :
    l.storage.countP (·.role = role) ≤ 1 := by
  have hcount : l.storage.countP (·.role = role) = (knownRoles l.storage).count role := by
    rw [knownRoles, List.count_eq_countP, List.countP_map, List.countP_filter]
    refine List.countP_congr fun o _ => ?_
    by_cases ho : o.role = role <;> simp [ho, h]
  rw [hcount]
  exact List.nodup_iff_count_le_one.mp l.roles_nodup role

/-- Adding an owner whose role is free, or unknown, drops nobody. -/
theorem storage_add {l : OwnerList} {owner : Owner}
    (h : owner.role = .unknown ∨ ∀ o ∈ l.storage, o.role ≠ owner.role) :
    (l.add owner).storage = l.storage ++ [owner] := by
  unfold add
  split
  · rfl
  · rename_i hknown
    have hfree := h.resolve_left hknown
    have hkept : l.storage.filter (·.role ≠ owner.role) = l.storage :=
      List.filter_eq_self.mpr fun o ho => by simpa using hfree o ho
    show l.storage.filter (·.role ≠ owner.role) ++ [owner] = _
    rw [hkept]

/-- In a list with one owner a role, the role of an owner is free in what precedes it. -/
theorem free_of_nodup {l : List Owner} {owner : Owner} {owners : List Owner}
    (h : (knownRoles (l ++ owner :: owners)).Nodup) :
    owner.role = .unknown ∨ ∀ o ∈ l, o.role ≠ owner.role := by
  by_cases hknown : owner.role = .unknown
  · exact .inl hknown
  right
  intro o ho hrole
  rw [knownRoles, List.filter_append, List.map_append, List.nodup_append] at h
  refine h.2.2 owner.role ?_ owner.role ?_ rfl
  · exact List.mem_map.mpr ⟨o, List.mem_filter.mpr ⟨ho, by simpa [hrole] using hknown⟩, hrole⟩
  · exact List.mem_map_of_mem (List.mem_filter.mpr ⟨List.mem_cons_self, by simpa using hknown⟩)

end OwnerList

/-- Adding the owners of a list to a draft that has those before them. -/
theorem Wallet.addOwners_eq {w : Wallet} (hdraft : w.state = .draft) {owners : List Owner}
    (h : (knownRoles (w.owners.storage ++ owners)).Nodup) :
    w.addOwners owners = .ok { w with owners := ⟨w.owners.storage ++ owners, h⟩ } := by
  induction owners generalizing w with
  | nil =>
      have howners : w.owners = ⟨w.owners.storage ++ [], h⟩ := OwnerList.eq_of_storage (by simp)
      rw [addOwners, ← howners]
  | cons owner owners ih =>
      have hadd : w.addOwner owner = .ok { w with owners := w.owners.add owner } := by
        simp [addOwner, assertCanChangeOwners, hdraft, WalletState.canChangeOwners, bind,
          Except.bind, pure, Except.pure]
      have hstorage := OwnerList.storage_add (OwnerList.free_of_nodup h)
      have hlist : (w.owners.add owner).storage ++ owners = w.owners.storage ++ owner :: owners := by
        rw [hstorage, List.append_assoc, List.singleton_append]
      have hrest := ih (w := { w with owners := w.owners.add owner }) hdraft (by rw [hlist]; exact h)
      simp only [hlist] at hrest
      rw [addOwners, hadd]
      exact hrest

/-! ### The text of the owners -/

namespace OwnerList

variable {lib : ThirdParty}

/-- No name of a role has a separator in it. -/
theorem not_mem_rawValue (role : OwnerRole) : ',' ∉ role.rawValue ∧ ':' ∉ role.rawValue := by
  cases role <;> decide

theorem deserializedOwner_ok {owner : Owner} (h : owner.address.WellFormed) :
    deserializedOwner lib (serializedOwner owner) = .ok (some owner) := by
  have hjoined : serializedOwner owner =
      List.intercalate [':'] [owner.address.value, owner.role.rawValue] := by
    simp [serializedOwner, keyValueSeparator, List.intercalate]
  have hseparable : Separated.Separable [':'] [owner.address.value, owner.role.rawValue] :=
    ⟨Separated.clear_of_not_mem
        (DBTransactionRepository.not_mem_address h (by decide) (by decide)),
      Separated.not_infix_of_not_mem (not_mem_rawValue owner.role).2⟩
  have hcomponents := (Separated.components_intercalate (List.cons_ne_nil _ _)).mpr hseparable
  unfold deserializedOwner keyValueSeparator
  rw [hjoined, hcomponents]
  simp only [OwnerRole.ofRawValue_rawValue]
  exact bind_ok.mpr ⟨owner.address, h.ofString_eq lib, rfl⟩

theorem not_mem_serializedOwner {owner : Owner} (h : owner.address.WellFormed) :
    ',' ∉ serializedOwner owner := by
  unfold serializedOwner
  simp only [List.mem_append, not_or]
  exact ⟨⟨DBTransactionRepository.not_mem_address h (by decide) (by decide), by decide⟩,
    (not_mem_rawValue owner.role).1⟩

/-- Owners with well-formed addresses come back, in their order. -/
theorem ofSerialized_serialized {owners : List Owner}
    (h : ∀ owner ∈ owners, owner.address.WellFormed) :
    ofSerialized lib (serialized owners) = .ok owners := by
  cases owners with
  | nil => rfl
  | cons owner owners =>
      have hseparable : Separated.Separable [','] ((owner :: owners).map serializedOwner) := by
        refine Separated.separable_of_not_mem (List.cons_ne_nil _ _) fun part hpart => ?_
        obtain ⟨o, ho, rfl⟩ := List.mem_map.mp hpart
        exact not_mem_serializedOwner (h o ho)
      have hcomponents := (Separated.components_intercalate (List.cons_ne_nil _ _)).mpr hseparable
      unfold ofSerialized serialized separator
      rw [hcomponents]
      refine bind_ok.mpr ⟨_, mapM_map_ok fun o ho => deserializedOwner_ok (h o ho), ?_⟩
      simp [pure, Except.pure, List.reduceOption, List.filterMap_map]

end OwnerList

/-! ### Saving and finding -/

/-- All addresses of the wallet are well formed. -/
structure Wallet.WellFormed (w : Wallet) : Prop where
  owners : ∀ owner ∈ w.owners.storage, owner.address.WellFormed
  address : ∀ a ∈ w.address, a.WellFormed
  feePaymentTokenAddress : ∀ a ∈ w.feePaymentTokenAddress, a.WellFormed
  masterCopyAddress : ∀ a ∈ w.masterCopyAddress, a.WellFormed

namespace DBWalletRepository

variable {lib : ThirdParty}

theorem address_ok {a : Option Address} (h : ∀ x ∈ a, x.WellFormed) :
    address lib (a.map (·.value)) = .ok a := by
  cases a with
  | none => rfl
  | some a => exact bind_ok.mpr ⟨a, (h a rfl).ofString_eq lib, rfl⟩

theorem bigInt_amount (amount : Option Int) :
    (amount.map stringOfInt).bind (lib.bigInt · 10) = amount := by
  cases amount with
  | none => rfl
  | some n => exact bigInt_stringOfInt lib n

/-- The row of a wallet with well-formed addresses stands for it. -/
theorem objectFromResultSet_insertionBindings {w : Wallet} (h : w.WellFormed) :
    objectFromResultSet lib (insertionBindings w) = .ok (some w) := by
  have howners := w.owners.roles_nodup
  unfold objectFromResultSet insertionBindings
  simp only [WalletState.ofRawValue_rawValue]
  refine bind_ok.mpr ⟨w, ?_, rfl⟩
  unfold wallet
  simp only [bigInt_amount]
  refine bind_ok.mpr ⟨_, OwnerList.ofSerialized_serialized h.owners, ?_⟩
  refine bind_ok.mpr ⟨_, address_ok h.address, ?_⟩
  refine bind_ok.mpr ⟨_, address_ok h.feePaymentTokenAddress, ?_⟩
  refine bind_ok.mpr ⟨_, address_ok h.masterCopyAddress, ?_⟩
  exact bind_ok.mpr ⟨_, Wallet.addOwners_eq (w := { id := w.id, owners := ⟨[], OwnerList.roles_nodup_nil⟩ }) rfl
    howners, rfl⟩

theorem find_save {w : Wallet} (h : w.WellFormed) (table : List Row) :
    find lib (save table w) w.id = .ok (some w) := by
  have hrow : (save table w).find? (·.id = w.id) = some (insertionBindings w) :=
    Rows.find?_replaced Row.id table (show (insertionBindings w).id = w.id from rfl)
  rw [find, hrow]
  exact objectFromResultSet_insertionBindings h

/-! ### Reachable wallets -/

theorem id_proceed {w : Wallet} {account : Option (Option Int)} {m : Moved}
    (h : w.proceed account = .ok m) : m.wallet.id = w.id := by
  obtain ⟨funded, -, hm⟩ := bind_ok.mp h
  rw [← Except.ok.inj hm]

theorem id_resume {w : Wallet} {account : Option (Option Int)} {m : Moved}
    (h : w.resume account = .ok m) : m.wallet.id = w.id := by
  unfold Wallet.resume at h
  split at h
  · obtain ⟨_, -, h⟩ := bind_ok.mp h
    have hid := id_proceed h
    exact hid
  · exact id_proceed h
  · rw [← Except.ok.inj h]

theorem id_step {w w' : Wallet} {c : WalletCall} (h : c.step w = .ok w') : w'.id = w.id := by
  cases c with
  | addOwner owner => rw [Wallet.addOwner_eq_ok h]
  | removeOwner role => rw [Wallet.removeOwner_eq_ok h]
  | prepareForCreation =>
      rw [← Except.ok.inj h, Wallet.prepareForCreation]
      split <;> rfl
  | changeAddress address => rw [(Wallet.changeAddress_eq_ok h).1]
  | updateMinimumTransactionAmount newValue =>
      rw [Wallet.updateMinimumTransactionAmount_eq_ok h]
  | assignCreationTransaction hash => rw [(Wallet.assignCreationTransaction_eq_ok h).1]
  | resume account =>
      obtain ⟨m, hm, hw'⟩ := bind_ok.mp h
      rw [← Except.ok.inj hw']
      exact id_resume hm
  | proceed account =>
      obtain ⟨m, hm, hw'⟩ := bind_ok.mp h
      rw [← Except.ok.inj hw']
      exact id_proceed hm
  | cancel =>
      rw [← Except.ok.inj h, Wallet.cancel]
      split <;> rfl
  | prepareForRecovery | changeConfirmationCount _ | changeFeePaymentToken _
  | changeMasterCopy _ | changeContractVersion _ | reset =>
      have hid := congrArg Wallet.id (Except.ok.inj h)
      exact hid.symm

/-- Whatever is done to a wallet, a known role has at most one owner, and the database gives the
wallet back. -/
theorem wallet_reachable {id : WalletID} {owner : Address} {calls : List WalletCall} {w : Wallet}
    (hrun : Transition.run WalletCall.step (Wallet.new id owner) calls = .ok w) :
    (∀ role ≠ OwnerRole.unknown, w.owners.storage.countP (·.role = role) ≤ 1) ∧
      (w.WellFormed → ∀ table : List Row, find lib (save table w) id = .ok (some w)) := by
  have hid : w.id = id := Transition.run_frame_of_allowed Wallet.id
    (fun w c w' _ h => id_step h) (Transition.allowed_true _ _) hrun
  refine ⟨fun role h => w.owners.countP_role_le_one h, fun h table => ?_⟩
  rw [← hid]
  exact find_save h table

/-- A wallet that is recovered and whose contract lists an address twice. -/
def recovered : List WalletCall :=
  [.prepareForRecovery, .changeAddress (some (Address.ofNat 2)),
    .addOwner ⟨Address.ofNat 3, .unknown⟩, .addOwner ⟨Address.ofNat 3, .unknown⟩,
    .addOwner ⟨Address.ofNat 4, .paperWallet⟩, .addOwner ⟨Address.ofNat 5, .paperWallet⟩]

theorem wallet_recovered :
    ∃ w, Transition.run WalletCall.step (Wallet.new ['w'] (Address.ofNat 1)) recovered = .ok w ∧
      w.owners.storage = [⟨Address.ofNat 1, .thisDevice⟩, ⟨Address.ofNat 3, .unknown⟩,
        ⟨Address.ofNat 3, .unknown⟩, ⟨Address.ofNat 5, .paperWallet⟩] ∧
      find reference (save [] w) ['w'] = .ok (some w) := by
  obtain ⟨w, hrun⟩ : ∃ w, Transition.run WalletCall.step (Wallet.new ['w'] (Address.ofNat 1))
      recovered = .ok w := ⟨_, rfl⟩
  obtain rfl := Except.ok.inj hrun
  refine ⟨_, hrun, rfl, (wallet_reachable hrun).2 ⟨?_, ?_, ?_, ?_⟩ []⟩
  · intro owner howner
    rcases List.mem_cons.mp howner with rfl | howner
    · exact Address.wellFormed_ofNat 1
    rcases List.mem_cons.mp howner with rfl | howner
    · exact Address.wellFormed_ofNat 3
    rcases List.mem_cons.mp howner with rfl | howner
    · exact Address.wellFormed_ofNat 3
    · rw [List.mem_singleton.mp howner]
      exact Address.wellFormed_ofNat 5
  · intro a ha
    rw [← Option.some.inj ha]
    exact Address.wellFormed_ofNat 2
  · exact fun a ha => nomatch ha
  · exact fun a ha => nomatch ha

end DBWalletRepository

end MultisigWallet
