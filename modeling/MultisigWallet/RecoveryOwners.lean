import MultisigWallet.RecoveryKeysSound

/-!
# MultisigWallet.RecoveryOwners

The owners a recovery phrase is checked against. They are the unknown owners of the wallet: what
the contract listed when its address was entered. `change(address:)` stores an address before it
asks for the owners, and adds them to those of earlier addresses. The check is about the Safe of
the wallet's address as long as no address is tried on top of the owners of another (`Fresh`).
-/

namespace MultisigWallet

namespace RecoveryDomainService

open RecoveryTransactionBuilder (unknownOwners addUnknownOwners)

variable (lib : ThirdParty) (metadata : SafeContractMetadata)

/-! ### Addresses, then a phrase -/

/-- `validate(address:)`. -/
def isValidated (answers : ContractAnswers) : Bool :=
  match answers.masterCopy with
  | some (some masterCopy) => isValidMasterCopy metadata masterCopy
  | _ => false

/-- The answer to `getOwners()`, if it is asked for and does not throw. -/
def ownerQuery (address : Address) (answers : ContractAnswers) : Option (Address × Data) :=
  if isValidated metadata answers then answers.owners.map fun data => (address, data) else none

/-- A device with the owner queries that have succeeded, the last one first. -/
structure Attempt where
  device : Device
  queries : List (Address × Data)

/-- The last answer for an address. -/
def lastQuery (queries : List (Address × Data)) (address : Address) : Option Data :=
  (queries.find? (·.1 = address)).map (·.2)

/-- One call of `change(address:)`. -/
def change (s : Attempt) (call : Address × ContractAnswers) : Except Trap Attempt :=
  let o := changeAddress lib metadata call.1 call.2 s.device
  match o.result with
  | .error trap => .error trap
  | .ok _ => .ok ⟨o.final s.device, (ownerQuery metadata call.1 call.2).toList ++ s.queries⟩

/-- The device once `prepareForRecovery()` has returned. -/
def prepared (d : Device) : Attempt := ⟨(prepareForRecovery d).final d, []⟩

/-- `provide(recoveryPhrase:)`; whether `WalletRecoveryAccountsAccepted` is published. -/
def provideLogged (eoa : Option EOAPair) : Saving Bool :=
  match eoa with
  | none => return false
  | some ⟨recoveryAccount, derivedAccount⟩ => do
      let d ← Journal.get
      let recoveryOwner ← Journal.lift (owner lib recoveryAccount)
      let derivedOwner ← Journal.lift (owner lib derivedAccount)
      if recoveryOwner ∈ d.wallet.owners.storage ∧ derivedOwner ∈ d.wallet.owners.storage then do
        saveAccount recoveryAccount
        saveAccount derivedAccount
        let wallet ← Journal.lift (d.wallet.addOwner ⟨recoveryAccount.address, .paperWallet⟩)
        let wallet ← Journal.lift (wallet.addOwner ⟨derivedAccount.address, .paperWalletDerived⟩)
        Saving.wallet .other wallet
        return true
      else return false

/-- What is published does not change what is stored. -/
theorem provideLogged_forget (eoa : Option EOAPair) :
    (provideLogged lib eoa).forget = provide lib eoa := by
  cases eoa with
  | none => rfl
  | some pair =>
      unfold provideLogged provide
      rw [Journal.forget_bind]
      refine congrArg _ (funext fun d => ?_)
      rw [Journal.forget_bind]
      refine congrArg _ (funext fun recoveryOwner => ?_)
      rw [Journal.forget_bind]
      refine congrArg _ (funext fun derivedOwner => ?_)
      split
      · rw [Journal.forget_bind]
        refine congrArg _ (funext fun _ => ?_)
        rw [Journal.forget_bind]
        refine congrArg _ (funext fun _ => ?_)
        rw [Journal.forget_bind]
        refine congrArg _ (funext fun w => ?_)
        rw [Journal.forget_bind]
        refine congrArg _ (funext fun w' => ?_)
        exact Journal.forget_return _ true
      · rfl

variable {lib metadata} {d : Device} {s t : Attempt} {address : Address} {answers : ContractAnswers}

/-! ### What a change of the address leaves -/

/-- The addresses the contract listed, as far as the wallet knows. -/
def unknownAddresses (w : Wallet) : List Address := (unknownOwners w).map (·.address)

theorem addUnknownOwners_unknown {addresses : List Address} {w w' : Wallet}
    (h : addUnknownOwners w addresses = .ok w') :
    w'.address = w.address ∧ unknownAddresses w' = unknownAddresses w ++ addresses := by
  induction addresses generalizing w with
  | nil =>
      obtain rfl := Except.ok.inj h
      exact ⟨rfl, (List.append_nil _).symm⟩
  | cons a addresses ih =>
      obtain ⟨w₁, h₁, h⟩ := bind_ok.mp h
      obtain rfl := Wallet.addOwner_eq_ok h₁
      obtain ⟨haddress, hunknown⟩ := ih h
      refine ⟨haddress, ?_⟩
      have hadded : unknownAddresses { w with owners := w.owners.add ⟨a, .unknown⟩ } =
          unknownAddresses w ++ [a] := by
        simp [unknownAddresses, unknownOwners, OwnerList.add, OwnerList.append, List.filter_append]
      rw [hunknown, hadded, List.append_assoc, List.singleton_append]

/-- All that `pullWalletData()` asks for is answered. -/
def isComplete (answers : ContractAnswers) : Bool :=
  answers.owners.isSome && answers.threshold.isSome && answers.masterCopyAgain.join.isSome

/-- How `pullWalletData()` ends. -/
theorem does_pullWalletData (lib : ThirdParty) (d : Device) (answers : ContractAnswers) :
    Journal.Does (pullWalletData lib answers) d
      (fun _ d' => d'.wallet.address = d.wallet.address ∧
        ((isComplete answers = false ∧ unknownAddresses d'.wallet = unknownAddresses d.wallet) ∨
          ∃ data owners, isComplete answers = true ∧ answers.owners = some data ∧
            SafeOwnerManagerContractProxy.getOwners lib data = .ok owners ∧
            unknownAddresses d'.wallet = unknownAddresses d.wallet ++ owners))
      (fun _ _ => True) fun _ _ => True := by
  refine Journal.Does.get_bind (Journal.Does.lift_bind (fun _ _ => ?_) fun _ _ => trivial)
  split
  · rename_i data threshold hdata hthreshold
    refine Journal.Does.lift_bind (fun owners howners => ?_) fun _ _ => trivial
    refine Journal.Does.lift_bind (fun count _ => ?_) fun _ _ => trivial
    refine Journal.Does.lift_bind (fun w hw => ?_) fun _ _ => trivial
    obtain ⟨haddress, hunknown⟩ := addUnknownOwners_unknown hw
    split
    · rename_i masterCopy hmaster
      refine Journal.Does.modify trivial
        ⟨haddress, .inr ⟨data, owners, ?_, hdata, howners, hunknown⟩⟩
      rw [isComplete, hdata, hthreshold, hmaster]
      rfl
    · rename_i hmaster
      refine Journal.Does.pure ⟨rfl, .inl ⟨?_, rfl⟩⟩
      have hnone : answers.masterCopyAgain.join.isSome = false := by
        cases hagain : answers.masterCopyAgain with
        | none => rfl
        | some o =>
            cases o with
            | none => rfl
            | some masterCopy => exact absurd hagain (hmaster masterCopy)
      rw [isComplete, hnone, Bool.and_false]
  · rename_i hmissing
    refine Journal.Does.pure ⟨rfl, .inl ⟨?_, rfl⟩⟩
    cases howners : answers.owners with
    | none => rw [isComplete, howners]; rfl
    | some data =>
        cases hthreshold : answers.threshold with
        | none => rw [isComplete, howners, hthreshold]; rfl
        | some threshold => exact absurd hthreshold (hmissing data threshold howners)

/-- What a change of the address did, if it came to its end. -/
inductive Changed (lib : ThirdParty) (metadata : SafeContractMetadata) (s : Attempt)
    (address : Address) (answers : ContractAnswers) (t : Attempt) : Prop
  | refused (h : isValidated metadata answers = false) (heq : t = s)
  | moved (h : isValidated metadata answers = true)
      (haddress : t.device.wallet.address = some address)
      (hqueries : t.queries = (answers.owners.map fun data => (address, data)).toList ++ s.queries)
      (hincomplete : isComplete answers = false)
      (hunknown : unknownAddresses t.device.wallet = unknownAddresses s.device.wallet)
  | pulled (data : Data) (owners : List Address) (h : isValidated metadata answers = true)
      (haddress : t.device.wallet.address = some address)
      (hcomplete : isComplete answers = true)
      (hqueries : t.queries = (address, data) :: s.queries)
      (howners : SafeOwnerManagerContractProxy.getOwners lib data = .ok owners)
      (hunknown : unknownAddresses t.device.wallet = unknownAddresses s.device.wallet ++ owners)

theorem changeAddress_refused (h : isValidated metadata answers = false) :
    changeAddress lib metadata address answers = pure ⟨⟩ := by
  unfold isValidated at h
  unfold changeAddress
  split
  · rename_i masterCopy hmaster
    rw [hmaster] at h
    exact if_neg (ne_true_of_eq_false h)
  · rfl

/-- How a validated change ends: with the address stored, and as the queries went. -/
theorem does_changeAddress (h : isValidated metadata answers = true) :
    Journal.Does (changeAddress lib metadata address answers) d
      (fun _ d' => d'.wallet.address = some address ∧
        ((isComplete answers = false ∧ unknownAddresses d'.wallet = unknownAddresses d.wallet) ∨
          ∃ data owners, isComplete answers = true ∧ answers.owners = some data ∧
            SafeOwnerManagerContractProxy.getOwners lib data = .ok owners ∧
            unknownAddresses d'.wallet = unknownAddresses d.wallet ++ owners))
      (fun _ _ => True) fun _ _ => True := by
  unfold isValidated at h
  unfold changeAddress
  split
  · rename_i masterCopy hmaster
    rw [hmaster] at h
    rw [if_pos h]
    refine Journal.Does.get_bind (Journal.Does.lift_bind (fun w hw => ?_) fun _ _ => trivial)
    obtain ⟨rfl, -⟩ := Wallet.changeAddress_eq_ok hw
    exact Journal.Does.modify_bind trivial (does_pullWalletData lib _ answers)
  · rename_i hmaster
    split at h
    · rename_i masterCopy hsome
      exact absurd hsome (hmaster masterCopy)
    · exact absurd h Bool.false_ne_true

theorem change_cases (h : change lib metadata s (address, answers) = .ok t) :
    Changed lib metadata s address answers t := by
  simp only [change] at h
  split at h
  · cases h
  · rename_i u hresult
    obtain rfl := Except.ok.inj h
    cases hval : isValidated metadata answers with
    | false =>
        refine .refused hval ?_
        rw [ownerQuery, hval, changeAddress_refused hval]
        rfl
    | true =>
        obtain ⟨haddress, hunknown⟩ := (does_changeAddress hval).returns u hresult
        have hquery : ownerQuery metadata address answers =
            answers.owners.map fun data => (address, data) := by
          rw [ownerQuery, hval]
          rfl
        rcases hunknown with
          ⟨hincomplete, hunknown⟩ | ⟨data, owners, hcomplete, hdata, howners, hunknown⟩
        · exact .moved hval haddress (by rw [hquery]) hincomplete hunknown
        · refine .pulled data owners hval haddress hcomplete ?_ howners hunknown
          rw [hquery, hdata]
          rfl

/-! ### The owners of the address -/

/-- The wallet holds no unknown owners, or exactly those of the last query for its address. -/
def OwnersOfAddress (lib : ThirdParty) (s : Attempt) : Prop :=
  unknownAddresses s.device.wallet = [] ∨
    ∃ address data, s.device.wallet.address = some address ∧
      lastQuery s.queries address = some data ∧
      SafeOwnerManagerContractProxy.getOwners lib data = .ok (unknownAddresses s.device.wallet)

/-- A validated change meets no unknown owners; or it is for the wallet's own address, does not
come to its end, and is not answered with other owners. -/
def Fresh (lib : ThirdParty) (metadata : SafeContractMetadata) (s : Attempt)
    (call : Address × ContractAnswers) : Prop :=
  isValidated metadata call.2 = true →
    unknownAddresses s.device.wallet = [] ∨
      (s.device.wallet.address = some call.1 ∧ isComplete call.2 = false ∧
        ∀ data ∈ call.2.owners, SafeOwnerManagerContractProxy.getOwners lib data =
          .ok (unknownAddresses s.device.wallet))

theorem lastQuery_cons (address : Address) (data : Data) (queries : List (Address × Data)) :
    lastQuery ((address, data) :: queries) address = some data := by
  simp [lastQuery]

theorem change_ownersOfAddress {call : Address × ContractAnswers}
    (hfresh : Fresh lib metadata s call) (hs : OwnersOfAddress lib s)
    (h : change lib metadata s call = .ok t) : OwnersOfAddress lib t := by
  obtain ⟨address, answers⟩ := call
  cases change_cases h with
  | refused hval heq => exact heq ▸ hs
  | moved hval haddress hqueries hincomplete hunknown =>
      unfold OwnersOfAddress
      rw [hunknown, haddress, hqueries]
      rcases hfresh hval with hnone | ⟨hsame, -, hanswer⟩
      · exact .inl hnone
      · refine hs.imp id fun ⟨address', data, haddress', hlast, howners⟩ => ?_
        obtain rfl := Option.some.inj (haddress'.symm.trans hsame)
        cases hdata : answers.owners with
        | none => exact ⟨address', data, rfl, hlast, howners⟩
        | some data' => exact ⟨address', data', rfl, lastQuery_cons _ _ _, hanswer data' hdata⟩
  | pulled data owners hval haddress hcomplete hqueries howners hunknown =>
      unfold OwnersOfAddress
      rw [hunknown, haddress, hqueries]
      rcases hfresh hval with hnone | ⟨-, hincomplete, -⟩
      · rw [hnone, List.nil_append]
        exact .inr ⟨address, data, rfl, lastQuery_cons _ _ _, howners⟩
      · rw [hcomplete] at hincomplete
        cases hincomplete

/-! ### The phrase -/

/-- Adding an owner with a known role keeps the unknown ones. -/
theorem unknownAddresses_addOwner {w w' : Wallet} {o : Owner} (hrole : o.role ≠ .unknown)
    (h : w.addOwner o = .ok w') :
    w'.address = w.address ∧ unknownAddresses w' = unknownAddresses w := by
  obtain rfl := Wallet.addOwner_eq_ok h
  refine ⟨rfl, ?_⟩
  simp only [unknownAddresses, unknownOwners, OwnerList.add, dif_neg hrole, OwnerList.append,
    OwnerList.remove, List.filter_append, List.filter_filter]
  rw [List.filter_singleton, decide_eq_false hrole, cond_false, List.append_nil]
  refine congrArg _ (List.filter_congr fun o' _ => ?_)
  by_cases hunknown : o'.role = .unknown
  · simp [hunknown, hrole.symm]
  · simp [hunknown]

/-- The address a recovery account is looked for under. -/
def ownerAddress (account : ExternallyOwnedAccount) : Address := ⟨lowercased account.address.value⟩

theorem ownerAddress_mem {account : ExternallyOwnedAccount} {o : Owner} {w : Wallet}
    (ho : owner lib account = .ok o) (hmem : o ∈ w.owners.storage) :
    ownerAddress account ∈ unknownAddresses w := by
  unfold owner at ho
  obtain ⟨a, ha, ho⟩ := bind_ok.mp ho
  obtain rfl := Except.ok.inj ho
  obtain rfl := Address.ofString_ok ha
  exact List.mem_map.mpr ⟨_, List.mem_filter.mpr ⟨hmem, decide_eq_true rfl⟩, rfl⟩

/-- What an accepted phrase was checked against. -/
theorem does_provideLogged (lib : ThirdParty) (eoa : Option EOAPair) (d : Device) :
    Journal.Does (provideLogged lib eoa) d
      (fun accepted d' => accepted = true → ∃ pair, eoa = some pair ∧
        ownerAddress pair.primary ∈ unknownAddresses d.wallet ∧
        ownerAddress pair.derived ∈ unknownAddresses d.wallet ∧
        d'.wallet.address = d.wallet.address ∧
        unknownAddresses d'.wallet = unknownAddresses d.wallet)
      (fun _ _ => True) fun _ _ => True := by
  cases eoa with
  | none => exact Journal.Does.pure fun h => absurd h Bool.false_ne_true
  | some pair =>
      refine Journal.Does.get_bind ?_
      refine Journal.Does.lift_bind (fun recoveryOwner hrecovery => ?_) fun _ _ => trivial
      refine Journal.Does.lift_bind (fun derivedOwner hderived => ?_) fun _ _ => trivial
      split
      · rename_i howners
        have hsave : ∀ account d₁, Journal.Does (saveAccount account) d₁
            (fun _ d' => d'.wallet = d₁.wallet) (fun _ _ => True) fun _ _ => True := fun _ _ =>
          stays_saveAccount.weaken (fun _ _ => id) (fun _ _ => id) fun _ _ _ => trivial
        refine (hsave _ _).bind fun _ d₁ _ => (hsave _ d₁).bind fun _ d₂ _ => ?_
        refine Journal.Does.lift_bind (fun w₁ hw₁ => ?_) fun _ _ => trivial
        refine Journal.Does.lift_bind (fun w₂ hw₂ => ?_) fun _ _ => trivial
        obtain ⟨haddress₁, hunknown₁⟩ := unknownAddresses_addOwner
          (show OwnerRole.paperWallet ≠ .unknown by decide) hw₁
        obtain ⟨haddress₂, hunknown₂⟩ := unknownAddresses_addOwner
          (show OwnerRole.paperWalletDerived ≠ .unknown by decide) hw₂
        refine Journal.Does.modify_bind trivial
          (Journal.Does.pure fun _ => ⟨pair, rfl, ?_, ?_, ?_, ?_⟩)
        · exact ownerAddress_mem hrecovery howners.1
        · exact ownerAddress_mem hderived howners.2
        · exact haddress₂.trans haddress₁
        · exact hunknown₂.trans hunknown₁
      · exact Journal.Does.pure fun h => absurd h Bool.false_ne_true

theorem unknownAddresses_prepared (d : Device) :
    unknownAddresses (prepared d).device.wallet = [] := by
  have hnone : ∀ l : OwnerList, (l.only .thisDevice).storage.filter (·.role = .unknown) = [] := by
    intro l
    rw [OwnerList.only, List.filter_filter, List.filter_eq_nil_iff]
    intro o _ h
    simp only [Bool.and_eq_true, decide_eq_true_eq] at h
    exact absurd (h.1.symm.trans h.2) (by decide)
  exact congrArg (List.map _) (hnone d.wallet.owners)

/-- The phrase was checked against the Safe of the wallet's address: both accounts are among the
owners that the last answer for the address lists, and these are the unknown owners. -/
def CheckedAgainstSafe (lib : ThirdParty) (queries : List (Address × Data)) (pair : EOAPair)
    (d : Device) : Prop :=
  ∃ address data owners, d.wallet.address = some address ∧ lastQuery queries address = some data ∧
    SafeOwnerManagerContractProxy.getOwners lib data = .ok owners ∧
    ownerAddress pair.primary ∈ owners ∧ ownerAddress pair.derived ∈ owners ∧
    unknownAddresses d.wallet = owners

/-- If no address is tried on top of the owners of another, a phrase that is accepted was checked
against the Safe of the wallet's address. -/
theorem provide_checkedAgainstSafe {calls : List (Address × ContractAnswers)} {eoa : Option EOAPair}
    (hfresh : Transition.Allowed (change lib metadata) (Fresh lib metadata) (prepared d) calls)
    (hrun : Transition.run (change lib metadata) (prepared d) calls = .ok s)
    (haccepted : (provideLogged lib eoa s.device).result = .ok true) :
    ∃ pair, eoa = some pair ∧
      CheckedAgainstSafe lib s.queries pair ((provide lib eoa s.device).final s.device) := by
  rw [← provideLogged_forget]
  have hs : OwnersOfAddress lib s := Transition.run_invariant_of_allowed
    (fun _ _ _ hfresh hs h => change_ownersOfAddress hfresh hs h)
    (.inl (unknownAddresses_prepared d)) hfresh hrun
  obtain ⟨pair, heoa, hprimary, hderived, haddress, hunknown⟩ :=
    (does_provideLogged lib eoa s.device).returns true haccepted rfl
  refine ⟨pair, heoa, ?_⟩
  rcases hs with hnone | ⟨address, data, hstored, hlast, howners⟩
  · rw [hnone] at hprimary
    cases hprimary
  · exact ⟨address, data, _, haddress.trans hstored, hlast, howners, hprimary, hderived, hunknown⟩

/-! ### One address, and another one after it -/

/-- One master copy is known. -/
def singleMetadata : SafeContractMetadata :=
  { EncryptionService.noMetadata with
    metadata :=
      [{ address := Address.ofNat 300
         txTypeHash := Bytes.ofNat 32 1
         domainSeparatorHash := Bytes.ofNat 32 2
         proxyCode := []
         length_txTypeHash := Bytes.length_ofNat 32 1
         length_domainSeparatorHash := Bytes.length_ofNat 32 2 }] }

/-- The address of a Safe is entered, and every query is answered. -/
def enteredSafe (m : OwnerManager) : ContractAnswers :=
  { answersFrom m with
    masterCopy := some (some (Address.ofNat 300))
    masterCopyAgain := some (some (Address.ofNat 300)) }

/-- The accounts of the phrase. -/
def phraseAccounts : EOAPair :=
  ⟨⟨Address.ofNat 13, Bytes.ofNat 32 13⟩, ⟨Address.ofNat 14, Bytes.ofNat 32 14⟩⟩

/-- A device that is to take over a Safe. -/
def recoveringDevice : Device := newWallet.device

open RecoveryTransactionBuilder (beforeTakeover)

/-- The address of the Safe, and its phrase. -/
theorem provide_checkedAgainstSafe_entered :
    ∃ s, Transition.run (change reference singleMetadata) (prepared recoveringDevice)
        [(Address.ofNat 100, enteredSafe beforeTakeover)] = .ok s ∧
      (provideLogged reference (some phraseAccounts) s.device).result = .ok true ∧
      CheckedAgainstSafe reference s.queries phraseAccounts
        ((provide reference (some phraseAccounts) s.device).final s.device) := by
  have heval : ((Transition.run (change reference singleMetadata) (prepared recoveringDevice)
      [(Address.ofNat 100, enteredSafe beforeTakeover)]).toOption.any fun s =>
        (provideLogged reference (some phraseAccounts) s.device).result.toOption = some true) =
          true := by
    decide +kernel
  obtain ⟨s, hrun, haccepted⟩ := exists_ok_of_any heval
  have haccepted := toOption_eq_some.mp (of_decide_eq_true haccepted)
  have hfresh : Transition.Allowed (change reference singleMetadata) (Fresh reference singleMetadata)
      (prepared recoveringDevice) [(Address.ofNat 100, enteredSafe beforeTakeover)] := by
    refine ⟨fun _ => .inl (unknownAddresses_prepared recoveringDevice), ?_⟩
    split <;> trivial
  obtain ⟨pair, hpair, hchecked⟩ := provide_checkedAgainstSafe hfresh hrun haccepted
  obtain rfl := Option.some.inj hpair
  exact ⟨s, hrun, haccepted, hchecked⟩

/-- The address of another Safe is entered after it, and its owners cannot be got. The phrase of the
first one is accepted. -/
theorem not_checkedAgainstSafe_other :
    ∃ s, Transition.run (change reference singleMetadata) (prepared recoveringDevice)
        [(Address.ofNat 100, enteredSafe beforeTakeover),
          (Address.ofNat 200, { enteredSafe beforeTakeover with owners := none })] = .ok s ∧
      (provideLogged reference (some phraseAccounts) s.device).result = .ok true ∧
      ¬ ∃ pair, some phraseAccounts = some pair ∧
        CheckedAgainstSafe reference s.queries pair
          ((provide reference (some phraseAccounts) s.device).final s.device) := by
  have heval : ((Transition.run (change reference singleMetadata) (prepared recoveringDevice)
      [(Address.ofNat 100, enteredSafe beforeTakeover),
        (Address.ofNat 200, { enteredSafe beforeTakeover with owners := none })]).toOption.any fun s =>
          (provideLogged reference (some phraseAccounts) s.device).result.toOption = some true ∧
            ((provide reference (some phraseAccounts) s.device).final s.device).wallet.address =
              some (Address.ofNat 200) ∧
            lastQuery s.queries (Address.ofNat 200) = none) = true := by
    decide +kernel
  obtain ⟨s, hrun, hs⟩ := exists_ok_of_any heval
  obtain ⟨haccepted, haddress, hnone⟩ := of_decide_eq_true hs
  refine ⟨s, hrun, toOption_eq_some.mp haccepted, ?_⟩
  rintro ⟨pair, -, address, data, owners, haddress', hlast, -⟩
  obtain rfl := Option.some.inj (haddress.symm.trans haddress')
  rw [hnone] at hlast
  cases hlast

end RecoveryDomainService

end MultisigWallet
