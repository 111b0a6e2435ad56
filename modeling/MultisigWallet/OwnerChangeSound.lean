import MultisigWallet.BrowserExtensionSound

/-!
# MultisigWallet.OwnerChangeSound

What the owner-change flows sign. A flow's transaction is meant to carry one call: swap the
browser extension for the one that was connected last, add that one, or remove the extension.
`intended` states this call in terms of what the contract listed and what was connected, and
`History` keeps these two along a run.

The services do not look at the data when they sign. They sign the intended call if it was
written and not overwritten since (`History.source`) and if the contract still says the same
about the extension; `SignsIntended` is this condition.
-/

namespace MultisigWallet

namespace OwnerModificationApplicationService

open ReplaceBrowserExtensionDomainService
open WalletApplicationService (address estimateTransactionIfNeeded)

/-! ### The intended call -/

/-- The owners a node's answer lists, if the query succeeded. -/
def ownersAnswered (lib : ThirdParty) (answer : Option Data) : Option (List Address) :=
  answer.bind fun data => (SafeOwnerManagerContractProxy.getOwners lib data).toOption

/-- The owner before `owner` in the contract's linked list. -/
def predecessor (owners : List Address) (owner : Address) : Option Address :=
  Links.before? (SafeOwnerManagerContractProxy.sentinelAddress :: owners.map Address.normalized)
    owner.normalized

/-- The owner before the wallet's browser extension. -/
def extensionPredecessor (r : Repositories) (owners : Option (List Address)) : Option Address := do
  let extensionAddress ← address r .browserExtension
  let owners ← owners
  predecessor owners extensionAddress

/-- The call data a flow is for, when the contract lists `owners` and the extension at
`connected` was connected. -/
def intended (lib : ThirdParty) (flow : Flow) (r : Repositories) (owners : Option (List Address))
    (connected : Option Address) : Option Data :=
  match flow with
  | .replace => do
      let extensionAddress ← address r .browserExtension
      let prevOwner ← extensionPredecessor r owners
      let new ← connected
      return SafeOwnerManagerContractProxy.swapOwner lib prevOwner extensionAddress new
  | .connect => do
      let new ← connected
      return SafeOwnerManagerContractProxy.addOwner lib new 2
  | .disconnect => do
      let extensionAddress ← address r .browserExtension
      let prevOwner ← extensionPredecessor r owners
      return SafeOwnerManagerContractProxy.removeOwner lib prevOwner extensionAddress 1

theorem intended_congr {lib : ThirdParty} {flow : Flow} {r : Repositories}
    {owners owners' : Option (List Address)} {connected : Option Address}
    (h : flow ≠ .connect → extensionPredecessor r owners = extensionPredecessor r owners') :
    intended lib flow r owners connected = intended lib flow r owners' connected := by
  cases flow with
  | connect => rfl
  | replace => simp only [intended, h (by decide)]
  | disconnect => simp only [intended, h (by decide)]

/-! ### The machine of a flow -/

/-- What happened in a flow. -/
structure History where
  /-- The owners of the last owner query that succeeded. -/
  owners : Option (List Address) := none
  /-- The extension that was connected last. -/
  connected : Option Address := none
  /-- The owners the call in the data was written for; nothing if the data is not the real
  call. -/
  source : Option (List Address) := none

/-- After a query. -/
def History.asked (lib : ThirdParty) (h : History) (answer : Option Data) : History :=
  { h with owners := (ownersAnswered lib answer).or h.owners }

/-- The repositories, the flow coordinator's transaction and what happened. -/
structure FlowState where
  repositories : Repositories
  transaction : Option TransactionID
  history : History

/-- A call of a flow, with what the outside world contributes to it. -/
inductive Call (flow : Flow)
  | create (id : TransactionID) (clock : Clock)
  | estimate (answer : Option Data) (relay : EstimationRelay) (accounts : Accounts) (clock : Clock)
  | start (accounts : Accounts)
  | connect (code : PairingCode) (validation update : Option Data) (deleted paired : Bool)
      (clock : Clock)
  /-- `sign(transaction:withPhrase:)`, which the connecting service does not have. -/
  | sign (hflow : flow ≠ .connect) (eoa : Option EOAPair) (update answer : Option Data)
      (relay : EstimationRelay) (clock : Clock)
  /-- The signing call of the connecting flow. -/
  | estimateTransactionIfNeeded (hflow : flow = .connect) (relay : EstimationRelay) (clock : Clock)

variable (lib : ThirdParty) (metadata : SafeContractMetadata) (flow : Flow)

/-- Owners the call can be written for: those with the extension among them. -/
def listing (r : Repositories) (owners : Option (List Address)) : Option (List Address) :=
  if (extensionPredecessor r owners).isSome then owners else none

/-- The replacing and the disconnecting service ask for the owners to make up dummy data. -/
def History.afterEstimate (h : History) (answer : Option Data) : History :=
  { (if flow = .connect then h else h.asked lib answer) with source := none }

/-- `paired` is the address that was paired, or the error that ended the call before. -/
def History.afterConnect (h : History) (r : Repositories) (validation update : Option Data)
    (paired : Except Thrown Str) : History :=
  match paired with
  | .error _ => h.asked lib validation
  | .ok newAddress =>
      match flow with
      | .replace =>
          { (h.asked lib validation).asked lib update with
            connected := some ⟨newAddress⟩
            source := listing r (ownersAnswered lib update) }
      | .connect =>
          { h.asked lib validation with
            connected := some ⟨newAddress⟩
            source := ownersAnswered lib validation }
      -- the data is a swap then
      | .disconnect =>
          { (h.asked lib validation).asked lib update with
            connected := some ⟨newAddress⟩
            source := none }

/-- The disconnecting service writes its call when it signs. -/
def History.afterUpdate (h : History) (r : Repositories) (update : Option Data) : History :=
  if flow = .disconnect then
    if (address r .browserExtension).isSome then
      { h.asked lib update with source := listing r (ownersAnswered lib update) }
    else { h with source := none }
  else h

/-- Signing asks for the owners if it gets that far. -/
def History.afterSign (h : History) (answer : Option Data) (out : Except Thrown Unit) : History :=
  match out with
  | .ok () => h.asked lib answer
  | .error (.domain .recoveryPhraseHasNoOwnership) => h.asked lib answer
  | .error _ => h

/-- `sign(transaction:withPhrase:)`. -/
def signWithPhrase (r : Repositories) (id : TransactionID) (eoa : Option EOAPair)
    (update answer : Option Data) (relay : EstimationRelay) (clock : Clock) :
    Except Trap (Except Thrown Unit × Repositories) :=
  match flow with
  | .disconnect => signRemoval lib metadata r id eoa update answer relay clock
  | _ => signReplacement lib metadata r id eoa answer relay clock

/-- One call of the flow. -/
def step (s : FlowState) : Call flow → Except Trap FlowState
  | .create id clock => do
      let r ← create flow s.repositories id clock
      return ⟨r, some id, { s.history with connected := none, source := none }⟩
  | .estimate answer relay accounts clock => do
      let id ← unwrap "transactionID" s.transaction
      let (_, r) ← estimate lib flow s.repositories id answer relay accounts clock
      return { s with repositories := r, history := s.history.afterEstimate lib flow answer }
  | .start accounts => do
      let id ← unwrap "transactionID" s.transaction
      let _ ← start flow s.repositories id accounts
      return s
  | .connect code validation renewal deleted paired clock => do
      let id ← unwrap "transactionID" s.transaction
      let address ← pairedAddress lib flow s.repositories id code validation deleted paired
      let (_, r) ← connect lib flow s.repositories id code validation renewal deleted paired clock
      return { s with
        repositories := r
        history := s.history.afterConnect lib flow s.repositories validation renewal address }
  | .sign _ eoa removal answer relay clock => do
      let id ← unwrap "transactionID" s.transaction
      let (out, r) ← signWithPhrase lib metadata flow s.repositories id eoa removal answer relay clock
      return { s with
        repositories := r
        history :=
          (s.history.afterUpdate lib flow s.repositories removal).afterSign lib answer out }
  | .estimateTransactionIfNeeded _ relay clock => do
      let id ← unwrap "transactionID" s.transaction
      let (_, r) ← estimateTransactionIfNeeded lib metadata s.repositories id relay clock
      return { s with repositories := r }

/-- The flow's transaction. -/
def FlowState.current (s : FlowState) : Option Transaction :=
  s.transaction.bind s.repositories.find

/-- The last successful query and the data name the same owner before the extension. -/
def agrees (r : Repositories) (h : History) : Bool :=
  extensionPredecessor r h.owners = extensionPredecessor r h.source

/-- The guard. What is signed is the real call, written for owners that put the extension where
the last query puts it; while the transaction is being signed, a call that connects nothing
does not bring other news about the extension. -/
def SignsIntended (s : FlowState) (call : Call flow) : Prop :=
  (match call with
    | .connect code validation _ deleted paired _ =>
        match s.transaction.map fun id =>
          pairedAddress lib flow s.repositories id code validation deleted paired with
        | some (.ok (.error _)) =>
            flow = .connect || !s.current.any (·.status = .signing) ||
              agrees s.repositories (s.history.asked lib validation)
        | _ => true
    | .sign _ eoa removal answer relay clock =>
        match s.transaction.map fun id =>
          signWithPhrase lib metadata flow s.repositories id eoa removal answer relay clock with
        | some (.ok (.ok (), _)) =>
            (s.history.afterUpdate lib flow s.repositories removal).source.isSome &&
              agrees s.repositories
                ((s.history.afterUpdate lib flow s.repositories removal).asked lib answer)
        | _ => true
    | .estimateTransactionIfNeeded _ relay clock =>
        match s.transaction.map fun id =>
          estimateTransactionIfNeeded lib metadata s.repositories id relay clock with
        | some (.ok (some (), _)) => s.history.source.isSome
        | _ => true
    | _ => true) = true

instance (s : FlowState) (call : Call flow) : Decidable (SignsIntended lib metadata flow s call) :=
  inferInstanceAs (Decidable (_ = true))

/-- The call the transaction makes is the one the flow is for. -/
structure IntendedCall (s : FlowState) (tx : Transaction) : Prop where
  recipient : ∃ a, walletAddress s.repositories = .ok a ∧ tx.recipient = some a
  operation : tx.operation = some .call
  data : ∃ d, tx.data = some d ∧
    intended lib flow s.repositories s.history.owners s.history.connected = some d

/-! ### Reading the owners -/

section

variable {lib} {metadata} {flow} {r r' : Repositories} {id : TransactionID} {tx tx' : Transaction}
  {answer : Option Data} {owners : List Address} {clock : Clock}

theorem getOwners_ok {o : Option (List Address)}
    (h : ReplaceBrowserExtensionDomainService.getOwners lib r answer = .ok o) :
    o = ownersAnswered lib answer := by
  unfold ReplaceBrowserExtensionDomainService.getOwners at h
  obtain ⟨a, -, h⟩ := bind_ok.mp h
  cases answer with
  | none => exact (Except.ok.inj h).symm
  | some data =>
      obtain ⟨owners, howners, h⟩ := bind_ok.mp h
      obtain rfl := Except.ok.inj h
      simp [ownersAnswered, howners, Except.toOption]

theorem remoteOwnersList_ok {o : Option OwnerLinkedList}
    (h : remoteOwnersList lib r answer = .ok o) (howners : ownersAnswered lib answer = some owners)
    (hne : owners ≠ []) :
    o = some (OwnerLinkedList.chain (owners.map Address.normalized)) := by
  unfold remoteOwnersList at h
  obtain ⟨o', ho', h⟩ := bind_ok.mp h
  obtain rfl := (getOwners_ok ho').trans howners
  have hempty : owners.isEmpty = false := by simpa using hne
  simp only [hempty, Bool.false_eq_true, if_false] at h
  obtain ⟨l, hl, h⟩ := bind_ok.mp h
  obtain rfl := Except.ok.inj h
  rw [OwnerLinkedList.addAll_empty hne] at hl
  rw [Except.ok.inj hl]

/-- An owner with a predecessor is in the list the app builds, and the app finds the same
predecessor. -/
theorem addressBefore_chain {owner p : Address} (h : predecessor owners owner = some p) :
    (OwnerLinkedList.chain (owners.map Address.normalized)).contains owner = true ∧
      (OwnerLinkedList.chain (owners.map Address.normalized)).addressBefore owner = .ok p := by
  have hmem := Links.mem_of_before? h
  have hbefore := Links.before?_append hmem [SafeOwnerManagerContractProxy.sentinelAddress]
  refine ⟨?_, ?_⟩
  · rw [OwnerLinkedList.contains, List.contains_iff_mem, OwnerLinkedList.chain, ← List.cons_append]
    exact List.mem_append_left _ hmem
  · rw [OwnerLinkedList.addressBefore, OwnerLinkedList.chain, ← List.cons_append, hbefore]
    exact unwrap_ok.mpr h

theorem ne_nil_of_predecessor {owner p : Address} (h : predecessor owners owner = some p) :
    owners ≠ [] := by
  intro hnil
  subst hnil
  have hmem := List.mem_singleton.mp (Links.mem_of_before? h)
  rw [predecessor, hmem] at h
  simp [Links.before?, List.idxOf?_cons] at h

theorem owner_of_address {w : Wallet} {a : Address} (hw : requiredWallet r = .ok w)
    (ha : address r .browserExtension = some a) :
    ∃ o, w.owner .browserExtension = some o ∧ o.address = a := by
  obtain ⟨w', hw', ha⟩ := Option.bind_eq_some_iff.mp ha
  obtain rfl := Option.some.inj (hw'.symm.trans (unwrap_ok.mp hw))
  obtain ⟨o, ho, ha⟩ := Option.bind_eq_some_iff.mp ha
  exact ⟨o, ho, Option.some.inj ha⟩

/-- What `extensionPredecessor` finds. -/
theorem extensionPredecessor_some {p : Address}
    (h : extensionPredecessor r (ownersAnswered lib answer) = some p) :
    ∃ a owners, address r .browserExtension = some a ∧ ownersAnswered lib answer = some owners ∧
      predecessor owners a = some p := by
  obtain ⟨a, ha, h⟩ := Option.bind_eq_some_iff.mp h
  obtain ⟨owners, howners, h⟩ := Option.bind_eq_some_iff.mp h
  exact ⟨a, owners, ha, howners, h⟩

/-- The replacing service writes the intended call if the owners list the extension. -/
theorem realTransactionData_replace {newAddress : Str} {d : Option Data}
    (h : realTransactionData lib .replace r newAddress answer = .ok d)
    (hlisted : (extensionPredecessor r (ownersAnswered lib answer)).isSome = true) :
    ∃ data, d = some data ∧
      intended lib .replace r (ownersAnswered lib answer) (some ⟨newAddress⟩) = some data := by
  obtain ⟨p, hp⟩ := Option.isSome_iff_exists.mp hlisted
  obtain ⟨a, owners, ha, howners, hpred⟩ := extensionPredecessor_some hp
  obtain ⟨hcontains, hbefore⟩ := addressBefore_chain hpred
  obtain ⟨w, hw, h⟩ := bind_ok.mp h
  obtain ⟨o, ho, h⟩ := bind_ok.mp h
  obtain ⟨o', ho', rfl⟩ := owner_of_address hw ha
  obtain rfl := Option.some.inj ((unwrap_ok.mp ho).symm.trans ho')
  obtain ⟨l, hl, h⟩ := bind_ok.mp h
  obtain rfl := remoteOwnersList_ok hl howners (ne_nil_of_predecessor hpred)
  simp only [hcontains, if_true] at h
  obtain ⟨p', hp', h⟩ := bind_ok.mp h
  obtain rfl := Except.ok.inj (hbefore.symm.trans hp')
  obtain ⟨new, hnew, h⟩ := bind_ok.mp h
  obtain rfl := Except.ok.inj h
  obtain rfl := Address.ofString_ok hnew
  refine ⟨_, rfl, ?_⟩
  simp only [intended, ha, hp]
  rfl

theorem realTransactionData_connect {newAddress : Str} {d : Option Data}
    (h : realTransactionData lib .connect r newAddress answer = .ok d)
    (owners : Option (List Address)) :
    ∃ data, d = some data ∧
      intended lib .connect r owners (some ⟨newAddress⟩) = some data := by
  obtain ⟨a, -, h⟩ := bind_ok.mp h
  obtain ⟨new, hnew, h⟩ := bind_ok.mp h
  obtain rfl := Except.ok.inj h
  obtain rfl := Address.ofString_ok hnew
  exact ⟨_, rfl, rfl⟩

/-- The disconnecting service writes the intended call if the owners list the extension. -/
theorem removalTransactionData_ok {d : Option Data}
    (h : removalTransactionData lib r answer = .ok d)
    (hlisted : (extensionPredecessor r (ownersAnswered lib answer)).isSome = true)
    (connected : Option Address) :
    ∃ data, d = some data ∧
      intended lib .disconnect r (ownersAnswered lib answer) connected = some data := by
  obtain ⟨p, hp⟩ := Option.isSome_iff_exists.mp hlisted
  obtain ⟨a, owners, ha, howners, hpred⟩ := extensionPredecessor_some hp
  obtain ⟨hcontains, hbefore⟩ := addressBefore_chain hpred
  unfold removalTransactionData at h
  rw [ha] at h
  obtain ⟨l, hl, h⟩ := bind_ok.mp h
  obtain rfl := remoteOwnersList_ok hl howners (ne_nil_of_predecessor hpred)
  simp only [hcontains, if_true] at h
  obtain ⟨p', hp', h⟩ := bind_ok.mp h
  obtain rfl := Except.ok.inj (hbefore.symm.trans hp')
  obtain rfl := Except.ok.inj h
  refine ⟨_, rfl, ?_⟩
  simp only [intended, ha, hp]
  rfl

/-! ### What the calls do to the transaction -/

theorem createTransaction_ok (h : createTransaction flow r id clock = .ok r') :
    ∃ tx, r'.find id = some tx ∧ r'.wallets = r.wallets ∧
      r'.selectedWallet = r.selectedWallet ∧ tx.status = .draft ∧ tx.signatures = [] ∧
      tx.recipient = none ∧ tx.operation = none := by
  obtain ⟨w, -, h⟩ := bind_ok.mp h
  obtain ⟨tx₁, h₁, h⟩ := bind_ok.mp h
  obtain ⟨a, -, h⟩ := bind_ok.mp h
  obtain ⟨tx₂, h₂, h⟩ := bind_ok.mp h
  obtain rfl := Except.ok.inj h
  obtain ⟨-, rfl⟩ := Transaction.change_ok.mp h₁
  obtain ⟨-, rfl⟩ := Transaction.change_ok.mp h₂
  exact ⟨_, Repositories.find_save r _, rfl, rfl, rfl, rfl, rfl, rfl⟩

theorem addDummyData_ok (h : addDummyData lib flow r id answer clock = .ok r') :
    ∃ tx tx' a, Rewrites r r' id tx tx' ∧ tx'.status = .draft ∧
      walletAddress r = .ok a ∧ tx'.recipient = some a ∧ tx'.operation = some .call := by
  obtain ⟨tx, htx, h⟩ := bind_ok.mp h
  obtain ⟨a, ha, h⟩ := bind_ok.mp h
  obtain ⟨tx₁, h₁, h⟩ := bind_ok.mp h
  obtain ⟨tx₂, h₂, h⟩ := bind_ok.mp h
  obtain ⟨d, -, h⟩ := bind_ok.mp h
  obtain ⟨tx₃, h₃, h⟩ := bind_ok.mp h
  obtain rfl := Except.ok.inj h
  obtain ⟨hid₁, -, hcontent₁⟩ := Transaction.change_frame h₁
  obtain ⟨hid₂, -, hcontent₂⟩ := Transaction.change_frame h₂
  obtain ⟨hid₃, hstatus₃, hcontent₃⟩ := Transaction.change_frame h₃
  have hrecipient₁ : tx₁.recipient = some a := congrArg Transaction.Content.recipient hcontent₁
  have hrecipient₂ : tx₂.recipient = tx₁.recipient :=
    congrArg Transaction.Content.recipient hcontent₂
  have hrecipient₃ : tx₃.recipient = tx₂.recipient :=
    congrArg Transaction.Content.recipient hcontent₃
  have hoperation₂ : tx₂.operation = some .call := congrArg Transaction.Content.operation hcontent₂
  have hoperation₃ : tx₃.operation = tx₂.operation :=
    congrArg Transaction.Content.operation hcontent₃
  exact ⟨tx, tx₃, a, .save (transaction_ok.mp htx) (hid₃.trans (hid₂.trans hid₁)),
    hstatus₃.trans (Transaction.change_ok.mp h₃).1, ha,
    hrecipient₃.trans (hrecipient₂.trans hrecipient₁), hoperation₃.trans hoperation₂⟩

theorem estimate_ok {relay : EstimationRelay} {accounts : Accounts} {out : RBEEstimationResult}
    (h : estimate lib flow r id answer relay accounts clock = .ok (out, r')) :
    ∃ tx tx' a, Rewrites r r' id tx tx' ∧ tx'.status = .draft ∧
      walletAddress r = .ok a ∧ tx'.recipient = some a ∧ tx'.operation = some .call := by
  obtain ⟨r₁, hr₁, h⟩ := bind_ok.mp h
  obtain ⟨⟨fee, r₂⟩, hr₂, h⟩ := bind_ok.mp h
  obtain ⟨tx, tx₁, a, hrow₁, hdraft, ha, hrecipient, hoperation⟩ := addDummyData_ok hr₁
  obtain ⟨tx₁', tx₂, hrow₂, hsame, -, hstatus⟩ := estimateNetworkFee_ok hr₂
  obtain rfl := hrow₂.eq_of_find hrow₁.after
  have hr : r₂ = r' := by
    cases fee with
    | error e => exact (Prod.mk.inj (Except.ok.inj h)).2
    | ok fee =>
        obtain ⟨balance, -, h⟩ := bind_ok.mp h
        obtain ⟨remaining, -, h⟩ := bind_ok.mp h
        exact (Prod.mk.inj (Except.ok.inj h)).2
  subst hr
  refine ⟨tx, tx₂, a, hrow₁.trans hrow₂, ?_, ha, hsame.recipient.trans hrecipient,
    hsame.operation.trans hoperation⟩
  rcases hstatus with rfl | ⟨-, hdraft₂⟩
  · exact hdraft
  · exact hdraft₂

/-- A call of `sign` that throws leaves a draft; one that does not leaves the transaction being
signed. Neither touches the call. -/
theorem signReplacement_ok {eoa : Option EOAPair} {relay : EstimationRelay}
    {out : Except Thrown Unit}
    (h : signReplacement lib metadata r id eoa answer relay clock = .ok (out, r')) :
    ∃ tx tx', Rewrites r r' id tx tx' ∧ tx'.recipient = tx.recipient ∧
      tx'.operation = tx.operation ∧ tx'.data = tx.data ∧
      ((∃ e, out = .error e) ∧ tx'.status = (reopened tx).status ∨
        out = .ok () ∧ tx'.status = .signing ∧ tx.recipient.isSome = true ∧
          tx.operation.isSome = true) := by
  obtain ⟨r₁, hr₁, h⟩ := bind_ok.mp h
  obtain ⟨⟨fee, r₂⟩, hr₂, h⟩ := bind_ok.mp h
  obtain ⟨tx, hrow₁⟩ := stepBackToDraft_ok hr₁
  obtain ⟨tx₁, tx₂, hrow₂, hsame₂, hoperation, hstatus⟩ := estimateNetworkFee_ok hr₂
  obtain rfl := hrow₂.eq_of_find hrow₁.after
  have hsame := (sameCall_reopened tx).trans hsame₂
  have hdraft : tx₂.status = (reopened tx).status := by
    rcases hstatus with rfl | ⟨hs, hs₂⟩
    · rfl
    · exact hs₂.trans hs.symm
  rw [(sameCall_reopened tx).operation] at hoperation
  cases fee with
  | error e =>
      obtain ⟨rfl, rfl⟩ := Prod.mk.inj (Except.ok.inj h)
      exact ⟨tx, tx₂, hrow₁.trans hrow₂, hsame.recipient, hsame.operation, hsame.data,
        .inl ⟨⟨e, rfl⟩, hdraft⟩⟩
  | ok fee =>
      rcases sign_ok_cases h with ⟨e, -, rfl, rfl⟩ | ⟨pair, -, -, rfl, hsign⟩
      · exact ⟨tx, tx₂, hrow₁.trans hrow₂, hsame.recipient, hsame.operation, hsame.data,
          .inl ⟨⟨e, rfl⟩, hdraft⟩⟩
      · obtain ⟨tx₂', hash, σ, τ, date, hrow₃, -, hrecipient, -, -⟩ := signWithEOA_ok hsign
        obtain rfl := hrow₃.eq_of_find hrow₂.after
        rw [hsame.recipient] at hrecipient
        exact ⟨tx, _, (hrow₁.trans hrow₂).trans hrow₃, hsame.recipient, hsame.operation,
          hsame.data, .inr ⟨rfl, rfl, hrecipient, hoperation⟩⟩

theorem updateWithFeeEstimate_ok {estimate : TransactionFeeEstimate} {nonce : Str}
    (hfind : r.find id = some tx)
    (h : WalletApplicationService.updateWithFeeEstimate lib metadata r tx estimate nonce clock =
      .ok r') :
    ∃ tx', Rewrites r r' id tx tx' ∧ tx.status = .draft ∧ tx'.status = .signing ∧
      tx'.recipient = tx.recipient ∧ tx.recipient.isSome = true ∧ tx'.operation = some .call ∧
      tx'.data = tx.data := by
  obtain ⟨gas, -, h⟩ := bind_ok.mp h
  obtain ⟨tx₁, h₁, h⟩ := bind_ok.mp h
  obtain ⟨tx₂, h₂, h⟩ := bind_ok.mp h
  obtain ⟨tx₃, h₃, h⟩ := bind_ok.mp h
  obtain ⟨tx₄, h₄, h⟩ := bind_ok.mp h
  obtain ⟨hash, -, h⟩ := bind_ok.mp h
  obtain ⟨tx₅, h₅, h⟩ := bind_ok.mp h
  obtain ⟨tx₆, h₆, h⟩ := bind_ok.mp h
  obtain rfl := Except.ok.inj h
  obtain ⟨hdraft, -, hid₁, hsame₁⟩ := change_estimation rfl h₁
  obtain ⟨-, -, hid₂, hsame₂⟩ := change_estimation rfl h₂
  obtain ⟨-, hdraft₃, hid₃, hsame₃⟩ := change_estimation rfl h₃
  have hsame := hsame₁.trans (hsame₂.trans hsame₃)
  obtain ⟨-, heq₄⟩ := Transaction.change_ok.mp h₄
  obtain ⟨hdraft₄, heq₅⟩ := Transaction.change_ok.mp h₅
  have hdraft₅ : tx₅.status = .draft := by rw [← heq₅]; exact hdraft₄
  obtain ⟨-, hrecipient, -, -, heq₆⟩ := (Transaction.proceed_draft_ok hdraft₅).mp h₆
  have hrecipient₅ : tx₅.recipient = tx₃.recipient := by rw [← heq₅, ← heq₄]; rfl
  refine ⟨tx₆, .save hfind ?_, hdraft, ?_, ?_, ?_, ?_, ?_⟩
  · have hid₅ : tx₅.id = tx₃.id := by rw [← heq₅, ← heq₄]; rfl
    rw [← heq₆]
    exact hid₅.trans (hid₃.trans (hid₂.trans hid₁))
  · rw [← heq₆]
    rfl
  · rw [← heq₆]
    exact hrecipient₅.trans hsame.recipient
  · rw [hrecipient₅, hsame.recipient] at hrecipient
    exact hrecipient
  · rw [← heq₆, ← heq₅, ← heq₄]
    rfl
  · have hdata₅ : tx₅.data = tx₃.data := by rw [← heq₅, ← heq₄]; rfl
    rw [← heq₆]
    exact hdata₅.trans hsame.data

/-- The signing call of the connecting flow. -/
theorem estimateTransactionIfNeeded_ok {relay : EstimationRelay} {out : Option Unit}
    (h : estimateTransactionIfNeeded lib metadata r id relay clock = .ok (out, r')) :
    ∃ tx tx', Rewrites r r' id tx tx' ∧ (tx' = tx ∨ out = some () ∧ tx'.status = .signing ∧
      tx'.recipient = tx.recipient ∧ tx.recipient.isSome = true ∧ tx'.operation = some .call ∧
      tx'.data = tx.data) := by
  obtain ⟨tx, hfind, rfl | ⟨rfl, estimate, nonce, hupdate⟩⟩ :=
    WalletApplicationService.estimateTransactionIfNeeded_cases h
  · exact ⟨tx, tx, .refl hfind, .inl rfl⟩
  · obtain ⟨tx', hrow, -, hsigning, hrecipient, hsome, hoperation, hdata⟩ :=
      updateWithFeeEstimate_ok hfind hupdate
    exact ⟨tx, tx', hrow, .inr ⟨rfl, hsigning, hrecipient, hsome, hoperation, hdata⟩⟩

/-! ### The invariant of a flow -/

theorem selected_eq (hw : r'.wallets = r.wallets) (hs : r'.selectedWallet = r.selectedWallet) :
    r'.selected = r.selected := by
  unfold Repositories.selected
  rw [hw, hs]

/-- Everything about the wallet is read off the selected wallet. -/
theorem walletAddress_eq (h : r'.selected = r.selected) : walletAddress r' = walletAddress r := by
  unfold walletAddress requiredWallet
  rw [h]

theorem extensionPredecessor_eq (h : r'.selected = r.selected) :
    extensionPredecessor r' = extensionPredecessor r := by
  funext owners
  unfold extensionPredecessor WalletApplicationService.address
  rw [h]

theorem intended_eq (h : r'.selected = r.selected) : intended lib flow r' = intended lib flow r := by
  funext owners connected
  unfold intended WalletApplicationService.address
  rw [h, extensionPredecessor_eq h]

/-- What holds of the flow's transaction between calls. -/
structure FlowInvariant (lib : ThirdParty) (flow : Flow) (r : Repositories) (h : History)
    (tx : Transaction) : Prop where
  status : tx.status = .draft ∨ tx.status = .signing
  /-- Nothing but the wallet is called, if anything is. -/
  recipient : ∀ a, tx.recipient = some a → walletAddress r = .ok a
  operation : ∀ o, tx.operation = some o → o = .call
  /-- The real call is what it should be by the owners it was written for. -/
  data : h.source.isSome = true →
    ∃ d, tx.data = some d ∧ intended lib flow r h.source h.connected = some d
  signing : tx.status = .signing → tx.recipient.isSome = true ∧ tx.operation.isSome = true ∧
    h.source.isSome = true ∧
    (flow ≠ .connect → extensionPredecessor r h.owners = extensionPredecessor r h.source)

/-- The invariant only reads the selected wallet of the repositories. -/
theorem FlowInvariant.congr {h : History} (hi : FlowInvariant lib flow r h tx)
    (hr : r'.selected = r.selected) : FlowInvariant lib flow r' h tx where
  status := hi.status
  recipient := by rw [walletAddress_eq hr]; exact hi.recipient
  operation := hi.operation
  data := by rw [intended_eq hr]; exact hi.data
  signing := by rw [extensionPredecessor_eq hr]; exact hi.signing

/-- A draft whose recipient and operation are those of before. -/
theorem FlowInvariant.toDraft {h h' : History} (hi : FlowInvariant lib flow r h tx)
    (hdraft : tx'.status = .draft) (hrecipient : tx'.recipient = tx.recipient)
    (hoperation : tx'.operation = tx.operation)
    (hdata : h'.source.isSome = true →
      ∃ d, tx'.data = some d ∧ intended lib flow r h'.source h'.connected = some d) :
    FlowInvariant lib flow r h' tx' where
  status := .inl hdraft
  recipient := by rw [hrecipient]; exact hi.recipient
  operation := by rw [hoperation]; exact hi.operation
  data := hdata
  signing := fun hs => by simp [hdraft] at hs

/-- The transaction with its call is now being signed. -/
theorem FlowInvariant.toSigning {h : History} (hi : FlowInvariant lib flow r h tx)
    (hsigning : tx'.status = .signing) (hrecipient : tx'.recipient = tx.recipient)
    (hsome : tx.recipient.isSome = true) (hoperation : tx'.operation = some .call)
    (hdata : tx'.data = tx.data) (hsource : h.source.isSome = true)
    (hagrees : flow ≠ .connect →
      extensionPredecessor r h.owners = extensionPredecessor r h.source) :
    FlowInvariant lib flow r h tx' where
  status := .inr hsigning
  recipient := by rw [hrecipient]; exact hi.recipient
  operation := by
    intro o ho
    exact (Option.some.inj (hoperation.symm.trans ho)).symm
  data := by rw [hdata]; exact hi.data
  signing := fun _ => ⟨by rw [hrecipient]; exact hsome, by rw [hoperation]; rfl, hsource, hagrees⟩

/-- A query says nothing about the data. -/
theorem FlowInvariant.asked {h : History} (hi : FlowInvariant lib flow r h tx)
    (hagrees : tx.status = .signing → flow ≠ .connect →
      extensionPredecessor r (h.asked lib answer).owners = extensionPredecessor r h.source) :
    FlowInvariant lib flow r (h.asked lib answer) tx where
  status := hi.status
  recipient := hi.recipient
  operation := hi.operation
  data := hi.data
  signing := fun hs =>
    ⟨(hi.signing hs).1, (hi.signing hs).2.1, (hi.signing hs).2.2.1, hagrees hs⟩

theorem FlowInvariant.status_reopened {h : History} (hi : FlowInvariant lib flow r h tx) :
    (reopened tx).status = .draft := by
  unfold reopened
  split
  · rfl
  · rename_i hs
    exact hi.status.resolve_right hs

theorem listing_isSome {o : Option (List Address)} (h : (listing r o).isSome = true) :
    (extensionPredecessor r o).isSome = true ∧ listing r o = o := by
  unfold listing at h ⊢
  split at h
  · rename_i hp
    exact ⟨hp, if_pos hp⟩
  · cases h

/-! ### One call -/

/-- The flow has no transaction yet, or one that meets the invariant. -/
def Sound (lib : ThirdParty) (flow : Flow) (s : FlowState) : Prop :=
  ∀ id, s.transaction = some id →
    ∃ tx, s.repositories.find id = some tx ∧ FlowInvariant lib flow s.repositories s.history tx

variable {s s' : FlowState}

theorem create_sound (h : step lib metadata flow s (.create id clock) = .ok s') :
    Sound lib flow s' := by
  obtain ⟨r, hr, h⟩ := bind_ok.mp h
  obtain rfl := Except.ok.inj h
  obtain ⟨tx, hfind, -, -, hdraft, -, hrecipient, hoperation⟩ := createTransaction_ok hr
  intro id' hid'
  obtain rfl := Option.some.inj hid'
  refine ⟨tx, hfind, ⟨.inl hdraft, ?_, ?_, ?_, ?_⟩⟩
  · simp [hrecipient]
  · simp [hoperation]
  · intro hsource
    cases hsource
  · simp [hdraft]

theorem estimate_sound {relay : EstimationRelay} {accounts : Accounts}
    (h : step lib metadata flow s (.estimate answer relay accounts clock) = .ok s') :
    Sound lib flow s' := by
  obtain ⟨id, hid, h⟩ := bind_ok.mp h
  obtain ⟨⟨out, r⟩, hr, h⟩ := bind_ok.mp h
  obtain rfl := Except.ok.inj h
  obtain ⟨tx, tx', a, hrow, hdraft, ha, hrecipient, hoperation⟩ := estimate_ok hr
  have hselected := selected_eq hrow.wallets hrow.selectedWallet
  intro id' hid'
  obtain rfl := Option.some.inj ((unwrap_ok.mp hid).symm.trans hid')
  refine ⟨tx', hrow.after, ⟨.inl hdraft, ?_, ?_, ?_, ?_⟩⟩
  · intro a' ha'
    rw [walletAddress_eq hselected, ha, Option.some.inj (hrecipient.symm.trans ha')]
  · intro o ho
    exact (Option.some.inj (hoperation.symm.trans ho)).symm
  · intro hsource
    cases hsource
  · simp [hdraft]

theorem connect_sound {code : PairingCode} {validation renewal : Option Data}
    {deleted paired : Bool}
    (hguard : SignsIntended lib metadata flow s
      (.connect code validation renewal deleted paired clock)) (hs : Sound lib flow s)
    (h : step lib metadata flow s (.connect code validation renewal deleted paired clock) =
      .ok s') : Sound lib flow s' := by
  obtain ⟨id, hid, h⟩ := bind_ok.mp h
  obtain ⟨new, hnew, h⟩ := bind_ok.mp h
  obtain ⟨⟨out, r⟩, hr, h⟩ := bind_ok.mp h
  obtain rfl := Except.ok.inj h
  have hid := unwrap_ok.mp hid
  obtain ⟨tx, htx, hi⟩ := hs id hid
  obtain ⟨new', hnew', hr⟩ := bind_ok.mp hr
  obtain rfl := Except.ok.inj (hnew.symm.trans hnew')
  intro id' hid'
  obtain rfl := Option.some.inj (hid.symm.trans hid')
  cases new with
  | error e =>
      -- nothing was written; the guard is about the first query
      obtain ⟨-, rfl⟩ := Prod.mk.inj (Except.ok.inj hr)
      refine ⟨tx, htx, hi.asked ?_⟩
      intro hsigning hflow
      simp only [SignsIntended, hid, Option.map_some, hnew, FlowState.current, Option.bind_some,
        htx, Option.any_some, hsigning, decide_true, Bool.not_true, Bool.or_false, hflow,
        decide_false, Bool.false_or, agrees, decide_eq_true_eq] at hguard
      exact hguard
  | ok newAddress =>
      obtain ⟨r₁, hr₁, hr⟩ := bind_ok.mp hr
      obtain ⟨-, rfl⟩ := Prod.mk.inj (Except.ok.inj hr)
      obtain ⟨tx₀, tx', r₂, hrow, hw, hsel, hdata, hdraft, hrecipient, hoperation, -, -⟩ :=
        updateData_ok hr₁
      obtain rfl := hrow.eq_of_find htx
      have hselected₂ := selected_eq hw hsel
      refine ⟨tx', hrow.after, (hi.toDraft hdraft hrecipient hoperation ?_).congr
        (selected_eq hrow.wallets hrow.selectedWallet)⟩
      intro hsource
      cases flow with
      | replace =>
          obtain ⟨hlisted, hsource⟩ := listing_isSome hsource
          rw [← extensionPredecessor_eq hselected₂] at hlisted
          obtain ⟨d, hd, hintended⟩ := realTransactionData_replace hdata hlisted
          refine ⟨d, hd, ?_⟩
          rw [intended_eq hselected₂] at hintended
          simp only [History.afterConnect, hsource]
          exact hintended
      | connect =>
          obtain ⟨d, hd, hintended⟩ := realTransactionData_connect hdata
            (ownersAnswered lib validation)
          exact ⟨d, hd, hintended⟩
      | disconnect => cases hsource

theorem afterSign_call (lib : ThirdParty) (h : History) (answer : Option Data) (out : Except Thrown Unit) :
    (h.afterSign lib answer out).source = h.source ∧
      (h.afterSign lib answer out).connected = h.connected := by
  unfold History.afterSign
  split <;> exact ⟨rfl, rfl⟩

theorem signReplacement_sound {h : History} {eoa : Option EOAPair} {relay : EstimationRelay}
    {out : Except Thrown Unit} (htx : r.find id = some tx) (hi : FlowInvariant lib flow r h tx)
    (hguard : out = .ok () → h.source.isSome = true ∧ agrees r (h.asked lib answer) = true)
    (hsign : signReplacement lib metadata r id eoa answer relay clock = .ok (out, r')) :
    ∃ tx', r'.find id = some tx' ∧ FlowInvariant lib flow r' (h.afterSign lib answer out) tx' := by
  obtain ⟨tx₀, tx', hrow, hrecipient, hoperation, hdata, hcases⟩ := signReplacement_ok hsign
  obtain rfl := hrow.eq_of_find htx
  refine ⟨tx', hrow.after, FlowInvariant.congr ?_ (selected_eq hrow.wallets hrow.selectedWallet)⟩
  rcases hcases with ⟨-, hdraft⟩ | ⟨rfl, hsigning, hsome, hcall⟩
  · obtain ⟨hsource, hconnected⟩ := afterSign_call lib h answer out
    refine hi.toDraft (hdraft.trans hi.status_reopened) hrecipient hoperation ?_
    rw [hsource, hconnected, hdata]
    exact hi.data
  · obtain ⟨hsource, hagrees⟩ := hguard rfl
    have hagrees := of_decide_eq_true hagrees
    obtain ⟨o, ho⟩ := Option.isSome_iff_exists.mp hcall
    have hcall : tx'.operation = some .call := by rw [hoperation, ho, hi.operation o ho]
    exact (hi.asked fun _ _ => hagrees).toSigning hsigning hrecipient hsome hcall hdata hsource
      fun _ => hagrees

/-- The disconnecting service's write. -/
theorem updateRemoval_sound {h : History} {removal : Option Data} (htx : r.find id = some tx)
    (hi : FlowInvariant lib .disconnect r h tx)
    (hupdate : updateRemoval lib r id removal clock = .ok r') :
    ∃ tx', r'.find id = some tx' ∧ r'.selected = r.selected ∧
      FlowInvariant lib .disconnect r' (h.afterUpdate lib .disconnect r removal) tx' := by
  obtain ⟨tx₀, tx', r₁, hrow, hw, hsel, hdata, hdraft, hrecipient, hoperation, -, -⟩ :=
    updateData_ok hupdate
  obtain rfl := hrow.eq_of_find htx
  have hselected := selected_eq hrow.wallets hrow.selectedWallet
  have hselected₁ := selected_eq hw hsel
  refine ⟨tx', hrow.after, hselected,
    (hi.toDraft hdraft hrecipient hoperation ?_).congr hselected⟩
  unfold History.afterUpdate
  rw [if_pos rfl]
  split
  · intro hsource
    obtain ⟨hlisted, hsource⟩ := listing_isSome hsource
    rw [← extensionPredecessor_eq hselected₁] at hlisted
    obtain ⟨d, hd, hintended⟩ := removalTransactionData_ok hdata hlisted h.connected
    rw [intended_eq hselected₁] at hintended
    refine ⟨d, hd, ?_⟩
    simp only [hsource]
    exact hintended
  · intro hsource
    cases hsource

theorem sign_sound {hflow : flow ≠ .connect} {eoa : Option EOAPair} {removal : Option Data}
    {relay : EstimationRelay}
    (hguard : SignsIntended lib metadata flow s (.sign hflow eoa removal answer relay clock))
    (hs : Sound lib flow s)
    (h : step lib metadata flow s (.sign hflow eoa removal answer relay clock) = .ok s') :
    Sound lib flow s' := by
  obtain ⟨id, hid, h⟩ := bind_ok.mp h
  obtain ⟨⟨out, r⟩, hr, h⟩ := bind_ok.mp h
  obtain rfl := Except.ok.inj h
  have hid := unwrap_ok.mp hid
  obtain ⟨tx, htx, hi⟩ := hs id hid
  have hguard : out = .ok () →
      (s.history.afterUpdate lib flow s.repositories removal).source.isSome = true ∧
        agrees s.repositories
          ((s.history.afterUpdate lib flow s.repositories removal).asked lib answer) = true := by
    intro hout
    subst hout
    simpa only [SignsIntended, hid, Option.map_some, hr, Bool.and_eq_true] using hguard
  intro id' hid'
  obtain rfl := Option.some.inj (hid.symm.trans hid')
  cases flow with
  | connect => exact absurd rfl hflow
  | replace => exact signReplacement_sound htx hi hguard hr
  | disconnect =>
      obtain ⟨r₁, hr₁, hr⟩ := bind_ok.mp hr
      obtain ⟨tx₁, htx₁, hselected, hi₁⟩ := updateRemoval_sound htx hi hr₁
      refine signReplacement_sound htx₁ hi₁ ?_ hr
      unfold agrees
      rw [extensionPredecessor_eq hselected]
      exact hguard

theorem estimateTransactionIfNeeded_sound {hflow : flow = .connect} {relay : EstimationRelay}
    (hguard : SignsIntended lib metadata flow s (.estimateTransactionIfNeeded hflow relay clock))
    (hs : Sound lib flow s)
    (h : step lib metadata flow s (.estimateTransactionIfNeeded hflow relay clock) = .ok s') :
    Sound lib flow s' := by
  obtain ⟨id, hid, h⟩ := bind_ok.mp h
  obtain ⟨⟨out, r⟩, hr, h⟩ := bind_ok.mp h
  obtain rfl := Except.ok.inj h
  have hid := unwrap_ok.mp hid
  obtain ⟨tx, htx, hi⟩ := hs id hid
  obtain ⟨tx₀, tx', hrow, hcases⟩ := estimateTransactionIfNeeded_ok hr
  obtain rfl := hrow.eq_of_find htx
  have hselected := selected_eq hrow.wallets hrow.selectedWallet
  intro id' hid'
  obtain rfl := Option.some.inj (hid.symm.trans hid')
  rcases hcases with rfl | ⟨rfl, hsigning, hrecipient, hsome, hoperation, hdata⟩
  · exact ⟨tx', hrow.after, hi.congr hselected⟩
  · simp only [SignsIntended, hid, Option.map_some, hr] at hguard
    exact ⟨tx', hrow.after, (hi.toSigning hsigning hrecipient hsome hoperation hdata hguard
      fun hne => absurd hflow hne).congr hselected⟩

theorem step_sound {call : Call flow} (hguard : SignsIntended lib metadata flow s call)
    (hs : Sound lib flow s) (h : step lib metadata flow s call = .ok s') : Sound lib flow s' := by
  cases call with
  | create id clock => exact create_sound h
  | estimate answer relay accounts clock => exact estimate_sound h
  | start accounts =>
      obtain ⟨id, -, h⟩ := bind_ok.mp h
      obtain ⟨out, -, h⟩ := bind_ok.mp h
      obtain rfl := Except.ok.inj h
      exact hs
  | connect code validation renewal deleted paired clock => exact connect_sound hguard hs h
  | sign hflow eoa removal answer relay clock => exact sign_sound hguard hs h
  | estimateTransactionIfNeeded hflow relay clock =>
      exact estimateTransactionIfNeeded_sound hguard hs h

/-! ### Over runs -/

/-- In every run of a flow whose steps meet the condition, a transaction that is being signed
calls the wallet with exactly the intended change. -/
theorem run_intendedCall {s t : FlowState} {calls : List (Call flow)}
    (hnone : s.transaction = none)
    (hall : Transition.Allowed (step lib metadata flow) (SignsIntended lib metadata flow) s calls)
    (hrun : Transition.run (step lib metadata flow) s calls = .ok t)
    (htx : t.current = some tx) (hsigning : tx.status = .signing) :
    IntendedCall lib flow t tx := by
  have hinit : Sound lib flow s := by
    intro id hid
    rw [hnone] at hid
    cases hid
  have hfinal : Sound lib flow t := Transition.run_invariant_of_allowed
    (fun _ _ _ hguard hs hstep => step_sound hguard hs hstep) hinit hall hrun
  obtain ⟨id, hid, hfind⟩ := Option.bind_eq_some_iff.mp htx
  obtain ⟨tx', hfind', hi⟩ := hfinal id hid
  obtain rfl := Option.some.inj (hfind'.symm.trans hfind)
  obtain ⟨hrecipient, hoperation, hsource, hagrees⟩ := hi.signing hsigning
  obtain ⟨a, ha⟩ := Option.isSome_iff_exists.mp hrecipient
  obtain ⟨o, ho⟩ := Option.isSome_iff_exists.mp hoperation
  obtain ⟨d, hd, hintended⟩ := hi.data hsource
  refine ⟨⟨a, hi.recipient a ha, ha⟩, by rw [ho, hi.operation o ho], d, hd, ?_⟩
  rw [intended_congr hagrees]
  exact hintended

end

/-! ### A replacement without a new extension -/

def replacementFlow : FlowState where
  repositories := {
    transactions := []
    wallets := [replacementWallet]
    selectedWallet := some ['w']
    tokens := []
    externallyOwnedAccounts :=
      [(⟨"0xedf678a5a905221f01e55f39827977be22427e91".toList⟩, Bytes.ofNat 32 0xD31CE)] }
  transaction := none
  history := {}

/-- The first screen of the flow. -/
def introCalls : List (Call .replace) :=
  [.create ['t'] fun _ => 0,
    .estimate ownersAnswer estimationRelay (fun _ => some (some 1000000)) fun _ => 0,
    .start fun _ => some (some 1000000)]

/-- The code of a new extension is scanned. -/
def connectCall : Call .replace :=
  .connect ⟨some "0xa56ae0569c2826a06087161ede0b54f525eaa783".toList, true⟩ ownersAnswer ownersAnswer
    true true fun _ => 0

/-- The recovery phrase is entered. -/
def signCall : Call .replace :=
  .sign (by decide) phraseAccounts ownersAnswer ownersAnswer estimationRelay fun _ => 0

/-- The flow as it is meant to go. -/
theorem run_intendedCall_connected :
    ∃ t tx, Transition.run (step reference EncryptionService.noMetadata .replace) replacementFlow
        (introCalls ++ [connectCall, signCall]) = .ok t ∧
      t.current = some tx ∧ tx.status = .signing ∧ IntendedCall reference .replace t tx := by
  -- the run is evaluated once for both
  have hboth : Transition.Allowed (step reference EncryptionService.noMetadata .replace)
      (SignsIntended reference EncryptionService.noMetadata .replace) replacementFlow
      (introCalls ++ [connectCall, signCall]) ∧
      ((Transition.run (step reference EncryptionService.noMetadata .replace)
      replacementFlow (introCalls ++ [connectCall, signCall])).toOption.any
        fun t => t.current.any fun tx => tx.status = .signing) = true := by
    decide +kernel
  obtain ⟨hall, heval⟩ := hboth
  obtain ⟨t, hrun, ht⟩ := exists_ok_of_any heval
  obtain ⟨tx, htx, hsigning⟩ := (Option.any_eq_true _ _).mp ht
  have hsigning := of_decide_eq_true hsigning
  exact ⟨t, tx, hrun, htx, hsigning, run_intendedCall rfl hall hrun htx hsigning⟩

/-- Without a new extension the dummy data is signed. -/
theorem not_intendedCall_unconnected :
    ∃ t tx, Transition.run (step reference EncryptionService.noMetadata .replace) replacementFlow
        (introCalls ++ [signCall]) = .ok t ∧
      t.current = some tx ∧ tx.status = .signing ∧
      tx.data = some (SafeOwnerManagerContractProxy.swapOwner reference
        SafeOwnerManagerContractProxy.sentinelAddress
        ⟨"0xedf678a5a905221f01e55f39827977be22427e91".toList⟩
        EncryptionService.confirmationSender) ∧
      ¬ IntendedCall reference .replace t tx := by
  have heval : ((Transition.run (step reference EncryptionService.noMetadata .replace)
      replacementFlow (introCalls ++ [signCall])).toOption.any
        fun t => t.current.any fun tx => tx.status = .signing ∧
          tx.data = some (SafeOwnerManagerContractProxy.swapOwner reference
            SafeOwnerManagerContractProxy.sentinelAddress
            ⟨"0xedf678a5a905221f01e55f39827977be22427e91".toList⟩
            EncryptionService.confirmationSender) ∧
          intended reference .replace t.repositories t.history.owners t.history.connected =
            none) = true := by
    decide +kernel
  obtain ⟨t, hrun, ht⟩ := exists_ok_of_any heval
  obtain ⟨tx, htx, h⟩ := (Option.any_eq_true _ _).mp ht
  obtain ⟨hsigning, hdata, hnone⟩ := of_decide_eq_true h
  refine ⟨t, tx, hrun, htx, hsigning, hdata, ?_⟩
  intro hintended
  obtain ⟨d, -, hd⟩ := hintended.data
  rw [hnone] at hd
  cases hd

end OwnerModificationApplicationService

end MultisigWallet
