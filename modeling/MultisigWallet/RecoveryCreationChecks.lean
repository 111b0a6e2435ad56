import MultisigWallet.RecoveryCreation
import MultisigWallet.RecoveryServiceSound

/-!
# MultisigWallet.RecoveryCreationChecks

What `pullData()` leaves of the builder's fields, and how the two checks read them. After a failed
query the fields are not set, and the first check stops the app. Otherwise all of them are, whether
or not the balances were updated, and `main()` goes on exactly if the configuration is supported.

`does_createRecoveryTransaction` relates the call to the one that saves as it goes.
-/

namespace MultisigWallet

open RecoveryTransactionBuilder RecoveryDomainService

variable {lib : ThirdParty} {metadata : SafeContractMetadata} {d : Device} {tokens : List Token}
  {id : TransactionID} {answers : CreationAnswers} {now : Date} {w w' : Wallet}
  {owners : List Address} {threshold : Int}

/-! ### The remote configuration -/

/-- The owners and the threshold of the contract, if both queries are answered and can be read. -/
def remoteConfiguration (lib : ThirdParty) (answers : CreationAnswers) :
    Option (List Address × Int) := do
  let owners ← answers.owners
  let threshold ← answers.threshold
  let owners ← (SafeOwnerManagerContractProxy.getOwners lib owners).toOption
  let threshold ← (SafeOwnerManagerContractProxy.getThreshold threshold).toOption
  return (owners, threshold)

/-- The contract's owners that are not the recovery phrase's. -/
def replaceable (w : Wallet) (owners : List Address) : List Address :=
  owners.filter fun a => lowercased a.value ∉ readonlyAddresses w

/-- One or two owners can be replaced, and there is a scheme for the wallet on both sides. -/
structure Supported (w : Wallet) (c : List Address × Int) : Prop where
  replaceable : (replaceable w c.1).length ∈ [1, 2]
  old : (⟨c.2, c.1.length⟩ : WalletScheme) ∈ [.withoutExtension, .withExtension]
  new : newWalletScheme w ∈ [WalletScheme.withoutExtension, .withExtension]

/-- One of the calls fails, or the configuration is not supported. -/
def Fails (lib : ThirdParty) (w : Wallet) (answers : CreationAnswers) : Prop :=
  answers.owners = none ∨ answers.threshold = none ∨ answers.balances = none ∨
    answers.estimate = none ∨
      ∃ c, remoteConfiguration lib answers = some c ∧ ¬ Supported w c

theorem remoteConfiguration_eq_some :
    remoteConfiguration lib answers = some (owners, threshold) ↔
      ∃ data count, answers.owners = some data ∧ answers.threshold = some count ∧
        SafeOwnerManagerContractProxy.getOwners lib data = .ok owners ∧
        SafeOwnerManagerContractProxy.getThreshold count = .ok threshold := by
  simp only [remoteConfiguration, bind, Option.bind_eq_some_iff, toOption_eq_some, pure,
    Option.some.injEq, Prod.mk.injEq]
  constructor
  · rintro ⟨data, hdata, count, hcount, _, howners, _, hthreshold, rfl, rfl⟩
    exact ⟨data, count, hdata, hcount, howners, hthreshold⟩
  · rintro ⟨data, count, hdata, hcount, howners, hthreshold⟩
    exact ⟨data, hdata, count, hcount, _, howners, _, hthreshold, rfl, rfl⟩

/-! ### Pulling the data -/

theorem addUnknownOwners_storage {addresses : List Address} {w : Wallet}
    (hcan : w.state.canChangeOwners = true) :
    ∃ w', addUnknownOwners w addresses = .ok w' ∧
      w'.owners.storage = w.owners.storage ++ addresses.map (⟨·, .unknown⟩) := by
  induction addresses generalizing w with
  | nil => exact ⟨w, rfl, (List.append_nil _).symm⟩
  | cons a addresses ih =>
      obtain ⟨w', hw', hstorage⟩ := @ih { w with owners := w.owners.add ⟨a, .unknown⟩ } hcan
      refine ⟨w', ?_, ?_⟩
      · simp only [addUnknownOwners, Wallet.addOwner, Wallet.assertCanChangeOwners, hcan, if_true]
        exact hw'
      · rw [hstorage, List.map_cons]
        show (w.owners.add ⟨a, .unknown⟩).storage ++ _ = _
        simp [OwnerList.add, OwnerList.append]

/-- Forgetting what the contract listed before. -/
theorem removeOwner_unknown (hcan : w.state.canChangeOwners = true)
    (hunknown : (w.owner .unknown).isSome = true) :
    ∃ w', w.removeOwner .unknown = .ok w' ∧ w'.state.canChangeOwners = true ∧
      w'.owners.storage = w.owners.storage.filter (·.role ≠ .unknown) ∧ SameWallet w w' := by
  refine ⟨{ w with owners := w.owners.remove .unknown }, ?_, hcan, rfl, ⟨_, _, rfl⟩,
    fun role hrole => OwnerList.first_remove _ hrole⟩
  rw [Wallet.removeOwner, Wallet.assertCanChangeOwners, if_pos hcan, Wallet.assertOwnerExists,
    if_pos hunknown]
  rfl

/-- The wallet the builder works on: the owners it knows, then those the contract lists. -/
structure PulledWallet (w : Wallet) (owners : List Address) (threshold : Int) (w' : Wallet) :
    Prop where
  storage : w'.owners.storage =
    w.owners.storage.filter (·.role ≠ .unknown) ++ owners.map (⟨·, .unknown⟩)
  same : SameWallet w w'
  confirmationCount : w'.confirmationCount = threshold

namespace PulledWallet

variable (h : PulledWallet w owners threshold w')
include h

theorem unknownOwners_eq : unknownOwners w' = owners.map (⟨·, .unknown⟩) := by
  have hlocal : (w.owners.storage.filter (·.role ≠ .unknown)).filter (·.role = .unknown) = [] := by
    rw [List.filter_eq_nil_iff]
    intro o ho
    simpa using (List.mem_filter.mp ho).2
  rw [unknownOwners, h.storage, List.filter_append, hlocal, List.nil_append, List.filter_eq_self]
  intro o ho
  obtain ⟨a, -, rfl⟩ := List.mem_map.mp ho
  exact decide_eq_true rfl

/-- Looking at owners with known roles only, the wallet is the one that is stored. -/
theorem filter_known {p : Owner → Bool} (hp : ∀ o, p o = true → o.role ≠ .unknown) :
    w'.owners.storage.filter p = w.owners.storage.filter p := by
  have hremote : (owners.map (⟨·, .unknown⟩ : Address → Owner)).filter p = [] := by
    rw [List.filter_eq_nil_iff]
    intro o ho hpo
    obtain ⟨a, -, rfl⟩ := List.mem_map.mp ho
    exact hp _ hpo rfl
  rw [h.storage, List.filter_append, hremote, List.append_nil, List.filter_filter]
  refine List.filter_congr fun o _ => ?_
  cases hpo : p o with
  | false => rfl
  | true => simpa using hp o hpo

theorem readonlyAddresses_eq : readonlyAddresses w' = readonlyAddresses w := by
  rw [readonlyAddresses, h.filter_known, readonlyAddresses]
  intro o ho hunknown
  simp [hunknown] at ho

theorem newWalletScheme_eq : newWalletScheme w' = newWalletScheme w := by
  rw [newWalletScheme, h.filter_known, h.same.owner _ (by decide), newWalletScheme]
  intro o ho
  exact of_decide_eq_true ho

theorem oldWalletScheme_eq : oldWalletScheme w' = ⟨threshold, owners.length⟩ := by
  rw [oldWalletScheme, h.unknownOwners_eq, h.confirmationCount, List.length_map]

theorem mutableOwners_eq : mutableOwners w' = (replaceable w owners).map (⟨·, .unknown⟩) := by
  have hsplit : mutableOwners w' =
      (unknownOwners w').filter fun o => lowercased o.address.value ∉ readonlyAddresses w := by
    rw [mutableOwners, unknownOwners, List.filter_filter, h.readonlyAddresses_eq]
    refine List.filter_congr fun o _ => ?_
    rw [Bool.decide_and, Bool.and_comm]
  rw [hsplit, h.unknownOwners_eq, List.filter_map]
  rfl

end PulledWallet

namespace BuilderFields

variable {b b' : BuilderFields} {errors : List PostedError}

/-- What is posted when the update of the balances fails. -/
def balanceErrors (answers : CreationAnswers) : List PostedError :=
  if answers.balances = none then [.updateAccountsBalances] else []

/-- With both queries answered every field is filled, whether or not the balances are updated. -/
theorem pullData_answered (hcan : b.wallet.state.canChangeOwners = true)
    (hunknown : (b.wallet.owner .unknown).isSome = true)
    (hremote : remoteConfiguration lib answers = some (owners, threshold)) :
    ∃ w l, PulledWallet b.wallet owners threshold w ∧
      (owners ≠ [] → l = OwnerLinkedList.chain (owners.map Address.normalized)) ∧
      b.pullData lib answers = .ok ({ b with
        wallet := w
        oldScheme := some ⟨threshold, owners.length⟩
        newScheme := some (newWalletScheme b.wallet)
        readonlyOwnerAddresses := some (readonlyAddresses b.wallet)
        ownerList := some l
        modifiableOwners := some ((replaceable b.wallet owners).map (⟨·, .unknown⟩)) },
        balanceErrors answers) := by
  obtain ⟨data, count, hdata, hcount, howners, hthreshold⟩ := remoteConfiguration_eq_some.mp hremote
  obtain ⟨removed, hremoved, hcan, hknown, hsame⟩ := removeOwner_unknown hcan hunknown
  obtain ⟨w, hw, hstorage⟩ := @addUnknownOwners_storage owners removed hcan
  rw [hknown] at hstorage
  have hpulled : PulledWallet b.wallet owners threshold (w.changeConfirmationCount threshold) :=
    ⟨hstorage, (hsame.trans (addUnknownOwners_same hw)).trans
      (sameWallet_changeConfirmationCount w threshold), rfl⟩
  have haddresses : (unknownOwners (w.changeConfirmationCount threshold)).map (·.address) =
      owners := by
    rw [hpulled.unknownOwners_eq, List.map_map]
    exact List.map_id _
  obtain ⟨l, hl, hchain⟩ : ∃ l, ({} : OwnerLinkedList).addAll owners = .ok l ∧
      (owners ≠ [] → l = OwnerLinkedList.chain (owners.map Address.normalized)) := by
    cases owners with
    | nil => exact ⟨_, rfl, fun hne => absurd rfl hne⟩
    | cons a owners =>
        exact ⟨_, OwnerLinkedList.addAll_empty (List.cons_ne_nil a owners), fun _ => rfl⟩
  refine ⟨_, l, hpulled, hchain, ?_⟩
  have hfill : ({ b with wallet := w.changeConfirmationCount threshold } : BuilderFields).fill =
      .ok { b with
        wallet := w.changeConfirmationCount threshold
        oldScheme := some ⟨threshold, owners.length⟩
        newScheme := some (newWalletScheme b.wallet)
        readonlyOwnerAddresses := some (readonlyAddresses b.wallet)
        ownerList := some l
        modifiableOwners := some ((replaceable b.wallet owners).map (⟨·, .unknown⟩)) } := by
    rw [fill, haddresses, hl, hpulled.oldWalletScheme_eq, hpulled.newWalletScheme_eq,
      hpulled.readonlyAddresses_eq, hpulled.mutableOwners_eq]
    rfl
  unfold pullData
  refine bind_ok.mpr ⟨removed, hremoved, ?_⟩
  rw [hdata]
  refine bind_ok.mpr ⟨owners, howners, bind_ok.mpr ⟨w, hw, ?_⟩⟩
  rw [hcount]
  exact bind_ok.mpr ⟨threshold, hthreshold, bind_ok.mpr ⟨_, hfill, rfl⟩⟩

/-- Without an answer to one of the queries the fields stay as they were. -/
theorem pullData_unanswered (hremote : remoteConfiguration lib answers = none)
    (h : b.pullData lib answers = .ok (b', errors)) : b'.modifiableOwners = b.modifiableOwners := by
  unfold pullData at h
  obtain ⟨w, -, h⟩ := bind_ok.mp h
  cases hdata : answers.owners with
  | none =>
      simp only [hdata] at h
      obtain ⟨rfl, -⟩ := Prod.mk.inj (Except.ok.inj h)
      rfl
  | some data =>
      simp only [hdata] at h
      obtain ⟨owners, howners, h⟩ := bind_ok.mp h
      obtain ⟨w', -, h⟩ := bind_ok.mp h
      cases hcount : answers.threshold with
      | none =>
          simp only [hcount] at h
          obtain ⟨rfl, -⟩ := Prod.mk.inj (Except.ok.inj h)
          rfl
      | some count =>
          simp only [hcount] at h
          obtain ⟨threshold, hthreshold, -⟩ := bind_ok.mp h
          have hsome := remoteConfiguration_eq_some.mpr
            ⟨data, count, hdata, hcount, howners, hthreshold⟩
          rw [hremote] at hsome
          cases hsome

end BuilderFields

/-! ### The checks -/

/-- A draft that sends no Ether from `address`. -/
structure Opened (address : Address) (tx : Transaction) : Prop where
  status : tx.status = .draft
  sender : tx.sender = some address
  amount : tx.amount = some (.ether 0)

/-- The builder once its fields are filled. -/
structure Filled (metadata : SafeContractMetadata) (w : Wallet) (address : Address)
    (c : List Address × Int) (b : BuilderFields) : Prop where
  wallet : PulledWallet w c.1 c.2 b.wallet
  oldScheme : b.oldScheme = some ⟨c.2, c.1.length⟩
  newScheme : b.newScheme = some (newWalletScheme w)
  ownerList : ∃ l, b.ownerList = some l ∧
    (c.1 ≠ [] → l = OwnerLinkedList.chain (c.1.map Address.normalized))
  modifiableOwners : b.modifiableOwners = some ((replaceable w c.1).map (⟨·, .unknown⟩))
  multiSend : b.multiSendContractAddress = metadata.multiSendContractAddress
  transaction : Opened address b.transaction

/-- The builder that has passed both checks. -/
structure Checked (metadata : SafeContractMetadata) (w : Wallet) (address : Address)
    (c : List Address × Int) (b : RecoveryTransactionBuilder) : Prop where
  supported : Supported w c
  wallet : PulledWallet w c.1 c.2 b.wallet
  oldScheme : b.oldScheme = ⟨c.2, c.1.length⟩
  newScheme : b.newScheme = newWalletScheme w
  ownerList : b.ownerList = OwnerLinkedList.chain (c.1.map Address.normalized)
  modifiableOwners : b.modifiableOwners = (replaceable w c.1).map (⟨·, .unknown⟩)
  multiSend : b.multiSendContractAddress = metadata.multiSendContractAddress
  transaction : Opened address b.transaction

/-- How `main()` ends once the checks are passed. -/
def concluded (d : Device) (errors : List PostedError) :
    Option RecoveryTransactionBuilder → CreationOutcome
  | none => ⟨d, errors ++ [.estimateTransaction], false⟩
  | some b => ⟨({ d with transaction := some b.transaction }).saveWallet b.wallet, errors, true⟩

/-- A failed query leads to a check that reads a field it was to fill. -/
theorem main_unanswered {out : CreationOutcome} (hremote : remoteConfiguration lib answers = none) :
    main lib metadata d tokens id answers now ≠ .ok out := by
  intro h
  unfold main at h
  obtain ⟨b, hb, h⟩ := bind_ok.mp h
  obtain ⟨⟨b', errors⟩, hpulled, h⟩ := bind_ok.mp h
  obtain ⟨_, hsupported, -⟩ := bind_ok.mp h
  have hnone : b.modifiableOwners = none := by
    unfold BuilderFields.new at hb
    obtain ⟨_, -, hb⟩ := bind_ok.mp hb
    obtain ⟨_, -, hb⟩ := bind_ok.mp hb
    obtain ⟨_, -, hb⟩ := bind_ok.mp hb
    obtain rfl := Except.ok.inj hb
    rfl
  rw [BuilderFields.isSupportedSafeOwners, BuilderFields.pullData_unanswered hremote hpulled, hnone]
    at hsupported
  cases hsupported

section Checks

variable {address : Address} {c : List Address × Int}

theorem exists_filled (hcan : w.state.canChangeOwners = true) (haddress : w.address = some address)
    (hunknown : (w.owner .unknown).isSome = true)
    (hremote : remoteConfiguration lib answers = some c) (id : TransactionID) (now : Date) :
    ∃ b b', BuilderFields.new w metadata.multiSendContractAddress id now = .ok b ∧
      b.pullData lib answers = .ok (b', BuilderFields.balanceErrors answers) ∧
      Filled metadata w address c b' := by
  have hnew : ∃ b, BuilderFields.new w metadata.multiSendContractAddress id now = .ok b ∧
      b.wallet = w ∧ b.multiSendContractAddress = metadata.multiSendContractAddress ∧
      Opened address b.transaction := by
    unfold BuilderFields.new
    rw [haddress]
    exact ⟨_, bind_ok.mpr ⟨address, rfl, bind_ok.mpr ⟨_, Transaction.change_draft rfl _ _,
      bind_ok.mpr ⟨_, Transaction.change_draft rfl _ _, rfl⟩⟩⟩, rfl, rfl, rfl, rfl, rfl⟩
  obtain ⟨b, hb, rfl, hmulti, htransaction⟩ := hnew
  obtain ⟨w', l, hwallet, hchain, hpulled⟩ :=
    BuilderFields.pullData_answered hcan hunknown hremote
  exact ⟨b, _, hb, hpulled, hwallet, rfl, rfl, ⟨l, rfl, hchain⟩, rfl, hmulti, htransaction⟩

variable {b : BuilderFields}

theorem Filled.isSupportedSafeOwners (h : Filled metadata w address c b) :
    ((replaceable w c.1).length ∈ [1, 2] ∧ b.isSupportedSafeOwners = .ok none) ∨
      ((replaceable w c.1).length ∉ [1, 2] ∧ ∃ e, b.isSupportedSafeOwners = .ok (some e)) := by
  unfold BuilderFields.isSupportedSafeOwners
  rw [h.modifiableOwners, unwrap_some]
  simp only [bind, Except.bind, List.length_map, List.contains_iff_mem]
  by_cases hmem : (replaceable w c.1).length ∈ [1, 2]
  · exact .inl ⟨hmem, if_pos hmem⟩
  · exact .inr ⟨hmem, _, if_neg hmem⟩

theorem Filled.isSupportedScheme (h : Filled metadata w address c b) :
    (((⟨c.2, c.1.length⟩ : WalletScheme) ∈ [.withoutExtension, .withExtension] ∧
        newWalletScheme w ∈ [WalletScheme.withoutExtension, .withExtension]) ∧
      b.isSupportedScheme = .ok none) ∨
    (¬ ((⟨c.2, c.1.length⟩ : WalletScheme) ∈ [.withoutExtension, .withExtension] ∧
        newWalletScheme w ∈ [WalletScheme.withoutExtension, .withExtension]) ∧
      ∃ e, b.isSupportedScheme = .ok (some e)) := by
  unfold BuilderFields.isSupportedScheme
  rw [h.oldScheme, h.newScheme, unwrap_some, unwrap_some]
  simp only [bind, Except.bind, Bool.and_eq_true, List.contains_iff_mem]
  by_cases hmem : (⟨c.2, c.1.length⟩ : WalletScheme) ∈ [.withoutExtension, .withExtension] ∧
      newWalletScheme w ∈ [WalletScheme.withoutExtension, .withExtension]
  · exact .inl ⟨hmem, if_pos hmem⟩
  · exact .inr ⟨hmem, _, if_neg hmem⟩

theorem Filled.checked (h : Filled metadata w address c b) (hc : Supported w c) :
    ∃ r, b.filled = .ok r ∧ Checked metadata w address c r := by
  obtain ⟨l, hl, hchain⟩ := h.ownerList
  have hne : c.1 ≠ [] := by
    intro hnil
    have hlength := hc.replaceable
    simp [hnil, replaceable] at hlength
  unfold BuilderFields.filled
  rw [h.oldScheme, h.newScheme, hl, h.modifiableOwners]
  exact ⟨_, rfl, hc, h.wallet, rfl, rfl, hchain hne, rfl, h.multiSend, h.transaction⟩

/-- An unsupported configuration is posted, and that is all. -/
theorem main_unsupported (hcan : d.wallet.state.canChangeOwners = true)
    (haddress : d.wallet.address = some address)
    (hunknown : (d.wallet.owner .unknown).isSome = true)
    (hremote : remoteConfiguration lib answers = some c) (hc : ¬ Supported d.wallet c) :
    ∃ error, main lib metadata d tokens id answers now =
      .ok ⟨d, BuilderFields.balanceErrors answers ++ [error], false⟩ := by
  obtain ⟨b, b', hnew, hpulled, hfilled⟩ :=
    @exists_filled lib metadata _ _ address c hcan haddress hunknown hremote id now
  rcases hfilled.isSupportedSafeOwners with ⟨hlength, hnone⟩ | ⟨-, error, herror⟩
  · rcases hfilled.isSupportedScheme with ⟨hschemes, -⟩ | ⟨-, error, herror⟩
    · exact absurd ⟨hlength, hschemes.1, hschemes.2⟩ hc
    · exact ⟨error, bind_ok.mpr ⟨b, hnew, bind_ok.mpr ⟨_, hpulled, bind_ok.mpr ⟨none, hnone,
        bind_ok.mpr ⟨some error, herror, rfl⟩⟩⟩⟩⟩
  · exact ⟨error, bind_ok.mpr ⟨b, hnew, bind_ok.mpr ⟨_, hpulled, bind_ok.mpr ⟨some error, herror,
      rfl⟩⟩⟩⟩

/-- With a supported configuration the rest of `main()` is all that matters. -/
theorem main_supported (hcan : d.wallet.state.canChangeOwners = true)
    (haddress : d.wallet.address = some address)
    (hunknown : (d.wallet.owner .unknown).isSome = true)
    (hremote : remoteConfiguration lib answers = some c) (hc : Supported d.wallet c) :
    ∃ b, Checked metadata d.wallet address c b ∧ ∀ out,
      main lib metadata d tokens id answers now = .ok out ↔
        ∃ r, complete lib metadata b d tokens answers.estimate now = .ok r ∧
          out = concluded d (BuilderFields.balanceErrors answers) r := by
  obtain ⟨b, b', hnew, hpulled, hfilled⟩ :=
    @exists_filled lib metadata _ _ address c hcan haddress hunknown hremote id now
  obtain ⟨r, hr, hchecked⟩ := hfilled.checked hc
  have howners := (hfilled.isSupportedSafeOwners.resolve_right fun h => h.1 hc.replaceable).2
  have hscheme := (hfilled.isSupportedScheme.resolve_right fun h => h.1 ⟨hc.old, hc.new⟩).2
  refine ⟨r, hchecked, fun out => ?_⟩
  unfold main
  rw [hnew]
  show (b.pullData lib answers).bind _ = _ ↔ _
  rw [hpulled]
  show (b'.isSupportedSafeOwners).bind _ = _ ↔ _
  rw [howners]
  show (b'.isSupportedScheme).bind _ = _ ↔ _
  rw [hscheme]
  show (b'.filled).bind _ = _ ↔ _
  rw [hr]
  show (complete lib metadata r d tokens answers.estimate now >>= _) = _ ↔ _
  refine bind_ok.trans (exists_congr fun finished => and_congr_right fun _ => ?_)
  cases finished with
  | none => exact ⟨fun h => (Except.ok.inj h).symm, fun h => h ▸ rfl⟩
  | some b => exact ⟨fun h => (Except.ok.inj h).symm, fun h => h ▸ rfl⟩

end Checks

/-! ### The model that saves as it goes -/

section Saves

/-- Both models fill the fields with the same. -/
theorem pullData_filled {data count : Data} (hdata : answers.owners = some data)
    (hcount : answers.threshold = some count) (multiSend : Address) :
    (do
      let b ← BuilderFields.new w multiSend id now
      let r ← b.pullData lib answers
      r.1.filled) =
      RecoveryTransactionBuilder.pullData lib w multiSend id (some (data, count)) now := by
  unfold BuilderFields.new RecoveryTransactionBuilder.pullData
  simp only [BuilderFields.pullData, hdata, hcount, BuilderFields.fill, BuilderFields.filled,
    bind_assoc, pure_bind, unwrap_some]
  rfl

theorem filled_of_pullData {b b' : BuilderFields} {errors : List PostedError}
    {c : List Address × Int} (hremote : remoteConfiguration lib answers = some c)
    (h : b.pullData lib answers = .ok (b', errors)) : ∃ r, b'.filled = .ok r := by
  obtain ⟨data, count, hdata, hcount, -, -⟩ := remoteConfiguration_eq_some.mp hremote
  unfold BuilderFields.pullData at h
  rw [hdata, hcount] at h
  obtain ⟨_, -, h⟩ := bind_ok.mp h
  obtain ⟨_, -, h⟩ := bind_ok.mp h
  obtain ⟨_, -, h⟩ := bind_ok.mp h
  obtain ⟨_, -, h⟩ := bind_ok.mp h
  obtain ⟨b₁, hfill, h⟩ := bind_ok.mp h
  obtain ⟨l, -, hfill⟩ := bind_ok.mp hfill
  obtain ⟨rfl, -⟩ := Prod.mk.inj (Except.ok.inj h)
  obtain rfl := Except.ok.inj hfill
  exact ⟨_, rfl⟩

/-- The checks of the two models, on fields that are set. -/
theorem checks_of_filled {b : BuilderFields} {r : RecoveryTransactionBuilder}
    (h : b.filled = .ok r) :
    (∃ e, b.isSupportedSafeOwners = if r.isSupportedSafeOwners then .ok none else .ok (some e)) ∧
      ∃ e, b.isSupportedScheme = if r.isSupportedScheme then .ok none else .ok (some e) := by
  obtain ⟨oldScheme, hold, h⟩ := bind_ok.mp h
  obtain ⟨newScheme, hnew, h⟩ := bind_ok.mp h
  obtain ⟨_, -, h⟩ := bind_ok.mp h
  obtain ⟨modifiableOwners, hmodifiable, h⟩ := bind_ok.mp h
  obtain rfl := Except.ok.inj h
  constructor
  · rw [BuilderFields.isSupportedSafeOwners, hmodifiable]
    exact ⟨_, rfl⟩
  · rw [BuilderFields.isSupportedScheme, hold, hnew]
    exact ⟨_, rfl⟩

/-- With every field set, `main()` is the builder's. -/
theorem main_of_filled {b b' : BuilderFields} {errors : List PostedError}
    {r : RecoveryTransactionBuilder}
    (hb : BuilderFields.new d.wallet metadata.multiSendContractAddress id now = .ok b)
    (hb' : b.pullData lib answers = .ok (b', errors)) (hr : b'.filled = .ok r) :
    ∃ refused, main lib metadata d tokens id answers now =
      if r.isSupportedSafeOwners && r.isSupportedScheme then do
        return concluded d errors (← complete lib metadata r d tokens answers.estimate now)
      else .ok ⟨d, refused, false⟩ := by
  obtain ⟨⟨e, howners⟩, e', hscheme⟩ := checks_of_filled hr
  unfold main
  rw [hb]
  show ∃ refused, (b.pullData lib answers).bind _ = _
  rw [hb']
  show ∃ refused, (b'.isSupportedSafeOwners).bind _ = _
  rw [howners]
  cases r.isSupportedSafeOwners with
  | false => exact ⟨_, rfl⟩
  | true =>
      show ∃ refused, (b'.isSupportedScheme).bind _ = _
      rw [hscheme]
      cases r.isSupportedScheme with
      | false => exact ⟨_, rfl⟩
      | true =>
          show ∃ refused, (b'.filled).bind _ = _
          rw [hr]
          refine ⟨[], congrArg (complete lib metadata r d tokens answers.estimate now >>= ·) ?_⟩
          funext finished
          cases finished <;> rfl

/-- Only when both queries are answered does the builder get to set its fields. -/
theorem pullData_queries {multiSend : Address} {queries : Option (Data × Data)}
    {b : RecoveryTransactionBuilder}
    (h : RecoveryTransactionBuilder.pullData lib w multiSend id queries now = .ok b) :
    ∃ q, queries = some q := by
  cases queries with
  | some q => exact ⟨q, rfl⟩
  | none =>
      obtain ⟨_, -, h⟩ := bind_ok.mp h
      obtain ⟨_, -, h⟩ := bind_ok.mp h
      obtain ⟨_, -, h⟩ := bind_ok.mp h
      obtain ⟨_, -, h⟩ := bind_ok.mp h
      cases h

variable {contract : ContractAnswers}

/-- The answers of the calls, without the update of the balances. -/
structure Agrees (contract : ContractAnswers) (answers : CreationAnswers) : Prop where
  owners : contract.owners = answers.owners
  threshold : contract.threshold = answers.threshold
  estimate : contract.estimate = fun _ => answers.estimate

theorem build_of_pulled {data count : Data} {r : RecoveryTransactionBuilder}
    (h : Agrees contract answers) (hdata : answers.owners = some data)
    (hcount : answers.threshold = some count)
    (hr : RecoveryTransactionBuilder.pullData lib d.wallet metadata.multiSendContractAddress id
      (some (data, count)) now = .ok r) :
    build lib metadata d tokens id contract now =
      if r.isSupportedSafeOwners && r.isSupportedScheme then
        complete lib metadata r d tokens answers.estimate now
      else .ok none := by
  have hqueries : (contract.owners.bind fun owners => contract.threshold.map fun threshold =>
      (owners, threshold)) = some (data, count) := by
    rw [h.owners, h.threshold, hdata, hcount]
    rfl
  unfold build
  rw [hqueries, h.estimate]
  show (RecoveryTransactionBuilder.pullData _ _ _ _ _ _).bind _ = _
  rw [hr]
  rfl

/-- Both models leave the same device, and trap on the same answers. -/
theorem main_iff_build (h : Agrees contract answers) {d' : Device} :
    (∃ out, main lib metadata d tokens id answers now = .ok out ∧ out.device = d') ↔
      ∃ r, build lib metadata d tokens id contract now = .ok r ∧
        (concluded d [] r).device = d' := by
  have hsame : ∀ {errors r}, (concluded d errors r).device = (concluded d [] r).device := by
    intro errors r
    cases r <;> rfl
  -- the same fields are set, and the rest is one computation
  have hfilled : ∀ {data count b b' errors r}, answers.owners = some data →
      answers.threshold = some count →
      BuilderFields.new d.wallet metadata.multiSendContractAddress id now = .ok b →
      b.pullData lib answers = .ok (b', errors) → b'.filled = .ok r →
      ((∃ out, main lib metadata d tokens id answers now = .ok out ∧ out.device = d') ↔
        ∃ r, build lib metadata d tokens id contract now = .ok r ∧
          (concluded d [] r).device = d') := by
    intro data count b b' errors r hdata hcount hb hb' hr
    obtain ⟨refused, hmain⟩ :=
      @main_of_filled lib metadata d tokens id answers now b b' errors r hb hb' hr
    rw [hmain, build_of_pulled h hdata hcount (pullData_filled hdata hcount _ ▸
      bind_ok.mpr ⟨b, hb, bind_ok.mpr ⟨_, hb', hr⟩⟩)]
    split
    · constructor
      · intro hout
        obtain ⟨out, hout, hd'⟩ := hout
        obtain ⟨finished, hfinished, hout⟩ := bind_ok.mp hout
        obtain rfl := Except.ok.inj hout
        exact ⟨finished, hfinished, hsame ▸ hd'⟩
      · intro hfinished
        obtain ⟨finished, hfinished, hd'⟩ := hfinished
        exact ⟨_, bind_ok.mpr ⟨finished, hfinished, rfl⟩, hsame.trans hd'⟩
    · constructor
      · intro hout
        obtain ⟨out, hout, hd'⟩ := hout
        obtain rfl := Except.ok.inj hout
        exact ⟨none, rfl, hd'⟩
      · intro hfinished
        obtain ⟨finished, hfinished, hd'⟩ := hfinished
        obtain rfl := Except.ok.inj hfinished
        exact ⟨_, rfl, hd'⟩
  constructor
  · intro hout
    obtain ⟨out, hmain, hd'⟩ := hout
    have hsteps := hmain
    cases hremote : remoteConfiguration lib answers with
    | none => exact absurd hmain (main_unanswered hremote)
    | some c =>
        obtain ⟨data, count, hdata, hcount, -, -⟩ := remoteConfiguration_eq_some.mp hremote
        obtain ⟨b, hb, hsteps⟩ := bind_ok.mp hsteps
        obtain ⟨⟨b', errors⟩, hb', -⟩ := bind_ok.mp hsteps
        obtain ⟨r, hr⟩ := filled_of_pullData hremote hb'
        exact (hfilled hdata hcount hb hb' hr).mp ⟨out, hmain, hd'⟩
  · intro hbuilt
    obtain ⟨r, hbuild, hd'⟩ := hbuilt
    obtain ⟨pulled, hpulled, -⟩ := bind_ok.mp hbuild
    obtain ⟨⟨data, count⟩, hqueries⟩ := pullData_queries hpulled
    obtain ⟨data', hdata, hboth⟩ := Option.bind_eq_some_iff.mp hqueries
    obtain ⟨count', hcount, hpair⟩ := Option.map_eq_some_iff.mp hboth
    obtain ⟨rfl, rfl⟩ := Prod.mk.inj hpair
    rw [hqueries, ← pullData_filled (h.owners ▸ hdata) (h.threshold ▸ hcount)] at hpulled
    obtain ⟨b, hb, hpulled⟩ := bind_ok.mp hpulled
    obtain ⟨⟨b', errors⟩, hb', hr⟩ := bind_ok.mp hpulled
    exact (hfilled (h.owners ▸ hdata) (h.threshold ▸ hcount) hb hb' hr).mpr ⟨r, hbuild, hd'⟩

namespace RecoveryDomainService

theorem does_removeTransaction (d : Device) {err : Trap → Device → Prop} :
    Journal.Does removeTransaction d (fun _ d' => d' = { d with transaction := none })
      (fun _ _ => True) err := by
  refine Journal.Does.get_bind ?_
  split
  · exact Journal.Does.modify trivial rfl
  · rename_i hnone
    exact Journal.Does.pure (eq_removed hnone)

/-- The call that saves as it goes ends the way the call with its errors and events does. -/
theorem does_createRecoveryTransaction (tokens : List Token) (id : TransactionID) (now : Date)
    (h : Agrees contract answers) :
    Journal.Does (createRecoveryTransaction lib metadata tokens id contract now) d
      (fun _ d' => ∃ out, createRecoveryTransactionLogged lib metadata d tokens id answers now =
        .ok out ∧ out.device = d')
      (fun _ _ => True)
      fun _ _ => ∀ out, createRecoveryTransactionLogged lib metadata d tokens id answers now ≠
        .ok out := by
  refine (does_removeTransaction d).bind fun _ d₀ hd₀ => ?_
  subst hd₀
  have hlogged : ∀ {d'}, (∃ out, createRecoveryTransactionLogged lib metadata d tokens id answers
      now = .ok out ∧ out.device = d') ↔ _ := main_iff_build h
  refine Journal.Does.get_bind (Journal.Does.lift_bind (fun built hbuilt => ?_)
    fun e he out hout => ?_)
  · cases built with
    | none => exact Journal.Does.pure (hlogged.mpr ⟨none, hbuilt, rfl⟩)
    | some b =>
        exact Journal.Does.modify_bind trivial
          (Journal.Does.modify trivial (hlogged.mpr ⟨some b, hbuilt, rfl⟩))
  · obtain ⟨r, hr, -⟩ := hlogged.mp ⟨out, hout, rfl⟩
    rw [he] at hr
    cases hr

end RecoveryDomainService

end Saves

end MultisigWallet
