import MultisigWallet.Transaction

/-!
# MultisigWallet.TransactionSound

Two laws of the transaction's status machine, over runs of any length:

* the **data invariant** (`run_dataInvariant`): a status that promises data has it.
  The guards sit in `proceed`, `reject`, `succeed` and `fail`; the edges that go
  back (`stepBack`, `discard`, `reset`) lead to statuses that promise less;
* the **frame law** (`run_frame`): which fields a step may change, by the status it
  is taken from. Its consequence is that what was hashed on entering `signing` is
  what is submitted on entering `pending`.

Both are read off `Effect`, the inversion of `step`: one constructor for each way a
public call can return.
-/

namespace MultisigWallet

namespace Transaction

/-! ### What a step can do -/

/-- Every way a public call on `tx` can return. -/
inductive Effect (tx : Transaction) : Op → Transaction → Prop
  | change (edit : Edit) (now : Date) (h : tx.status = .draft) :
      Effect tx (.change edit now) ((tx.assign edit).timestampUpdated now)
  | setHash (hash : TransactionHash) (now : Date)
      (h : tx.status = .draft ∨ tx.status = .signing) :
      Effect tx (.setHash hash now)
        ({ tx with transactionHash := some hash }.timestampUpdated now)
  | addSignature (s : Signature) (now : Date)
      (h : tx.status = .draft ∨ tx.status = .signing) (hs : s ∉ tx.signatures) :
      Effect tx (.addSignature s now)
        ({ tx with signatures := tx.signatures ++ [s] }.timestampUpdated now)
  | addDuplicate (s : Signature) (now : Date)
      (h : tx.status = .draft ∨ tx.status = .signing) (hs : s ∈ tx.signatures) :
      Effect tx (.addSignature s now) tx
  | removeSignature (s : Signature) (now : Date)
      (h : tx.status = .draft ∨ tx.status = .signing) (hs : s ∈ tx.signatures) :
      Effect tx (.removeSignature s now)
        ({ tx with signatures := tx.signatures.erase s }.timestampUpdated now)
  | removeAbsent (s : Signature) (now : Date)
      (h : tx.status = .draft ∨ tx.status = .signing) (hs : s ∉ tx.signatures) :
      Effect tx (.removeSignature s now) tx
  | timestampCreated (date : Date) :
      Effect tx (.timestampCreated date) (tx.timestampCreated date)
  | timestampUpdated (date : Date) :
      Effect tx (.timestampUpdated date) (tx.timestampUpdated date)
  | timestampRejected (date : Date) :
      Effect tx (.timestampRejected date) (tx.timestampRejected date)
  | timestampSubmitted (date : Date) :
      Effect tx (.timestampSubmitted date) (tx.timestampSubmitted date)
  | timestampProcessed (date : Date) :
      Effect tx (.timestampProcessed date) (tx.timestampProcessed date)
  | startSigning (d₁ d₂ : Date) (h : tx.status = .draft)
      (hsender : tx.sender.isSome) (hrecipient : tx.recipient.isSome)
      (hamount : tx.amount.isSome) (hfee : tx.fee.isSome) :
      Effect tx (.proceed d₁ d₂) ((tx.changeStatus .signing).timestampUpdated d₁)
  | submit (d₁ d₂ : Date) (h : tx.status = .signing) (hhash : tx.transactionHash.isSome) :
      Effect tx (.proceed d₁ d₂)
        (((tx.changeStatus .pending).timestampSubmitted d₁).timestampUpdated d₂)
  | backToDraft (h : tx.status = .signing) :
      Effect tx .stepBack (tx.changeStatus .draft)
  | backToSigning (h : tx.status = .pending) :
      Effect tx .stepBack (tx.changeStatus .signing)
  | reject (d₁ d₂ : Date) (h : tx.status = .signing) :
      Effect tx (.reject d₁ d₂)
        (((tx.changeStatus .rejected).timestampRejected d₁).timestampUpdated d₂)
  | succeed (d₁ d₂ : Date) (h : tx.status = .pending) :
      Effect tx (.succeed d₁ d₂)
        (((tx.changeStatus .success).timestampProcessed d₁).timestampUpdated d₂)
  | fail (d₁ d₂ : Date) (h : tx.status = .pending) :
      Effect tx (.fail d₁ d₂)
        (((tx.changeStatus .failed).timestampProcessed d₁).timestampUpdated d₂)
  | discard (now : Date) (h : tx.status ≠ .discarded) :
      Effect tx (.discard now) ((tx.timestampUpdated now).changeStatus .discarded)
  | reset (h : tx.status = .rejected ∨ tx.status = .discarded) :
      Effect tx .reset (tx.resetParameters.changeStatus .draft)

theorem assertNotNil_ok {α : Type} {v : Option α} {e : TransactionError} {u : Unit} :
    assertNotNil v e = .ok u ↔ v.isSome = true := by
  unfold assertNotNil
  split <;> simp_all

theorem canChangeParameters_iff {s : TransactionStatus} :
    s.canChangeParameters = true ↔ s = .draft := by
  cases s <;> simp [TransactionStatus.canChangeParameters]

theorem canChangeBlockchainHash_iff {s : TransactionStatus} :
    s.canChangeBlockchainHash = true ↔ s = .draft ∨ s = .signing := by
  cases s <;> simp [TransactionStatus.canChangeBlockchainHash]

theorem canChangeSignatures_iff {s : TransactionStatus} :
    s.canChangeSignatures = true ↔ s = .draft ∨ s = .signing := by
  cases s <;> simp [TransactionStatus.canChangeSignatures]

theorem assertCanChangeParameters_ok {tx : Transaction} {u : Unit} :
    tx.assertCanChangeParameters = .ok u ↔ tx.status = .draft := by
  rw [← canChangeParameters_iff]
  unfold assertCanChangeParameters
  split <;> simp_all

theorem assertSignaturesEditable_ok {tx : Transaction} {u : Unit} :
    tx.assertSignaturesEditable = .ok u ↔ tx.status = .draft ∨ tx.status = .signing := by
  rw [← canChangeSignatures_iff]
  unfold assertSignaturesEditable
  split <;> simp_all

/-- `change(...)` returns exactly on drafts. -/
theorem change_ok {tx tx' : Transaction} {edit : Edit} {now : Date} :
    tx.change edit now = .ok tx' ↔
      tx.status = .draft ∧ (tx.assign edit).timestampUpdated now = tx' := by
  unfold change
  rw [bind_ok]
  simp only [assertCanChangeParameters_ok, pure, Except.pure, Except.ok.injEq, exists_and_left]
  simp

theorem change_draft {tx : Transaction} (h : tx.status = .draft) (edit : Edit) (now : Date) :
    tx.change edit now = .ok ((tx.assign edit).timestampUpdated now) :=
  change_ok.mpr ⟨h, rfl⟩

theorem reject_signing {tx : Transaction} (h : tx.status = .signing) (d₁ d₂ : Date) :
    tx.reject d₁ d₂ =
      .ok (((tx.changeStatus .rejected).timestampRejected d₁).timestampUpdated d₂) := by
  unfold reject
  rw [h]

theorem setHash_ok {tx tx' : Transaction} {hash : TransactionHash} {now : Date} :
    tx.setHash hash now = .ok tx' ↔ (tx.status = .draft ∨ tx.status = .signing) ∧
      { tx with transactionHash := some hash }.timestampUpdated now = tx' := by
  rw [← canChangeBlockchainHash_iff]
  unfold setHash
  split <;> simp_all

theorem addSignature_ok {tx tx' : Transaction} {s : Signature} {now : Date} :
    tx.addSignature s now = .ok tx' ↔ (tx.status = .draft ∨ tx.status = .signing) ∧
      (if s ∈ tx.signatures then tx
        else { tx with signatures := tx.signatures ++ [s] }.timestampUpdated now) = tx' := by
  unfold addSignature
  rw [bind_ok]
  by_cases hs : s ∈ tx.signatures <;>
    simp [hs, assertSignaturesEditable_ok, pure, Except.pure]

theorem removeSignature_ok {tx tx' : Transaction} {s : Signature} {now : Date} :
    tx.removeSignature s now = .ok tx' ↔ (tx.status = .draft ∨ tx.status = .signing) ∧
      (if s ∈ tx.signatures then
        { tx with signatures := tx.signatures.erase s }.timestampUpdated now else tx) = tx' := by
  unfold removeSignature
  rw [bind_ok]
  by_cases hs : s ∈ tx.signatures <;>
    simp [hs, assertSignaturesEditable_ok, pure, Except.pure]

/-- `proceed` on a draft. -/
theorem proceed_draft_ok {tx tx' : Transaction} {d₁ d₂ : Date} (h : tx.status = .draft) :
    tx.proceed d₁ d₂ = .ok tx' ↔
      tx.sender.isSome = true ∧ tx.recipient.isSome = true ∧ tx.amount.isSome = true ∧
        tx.fee.isSome = true ∧ (tx.changeStatus .signing).timestampUpdated d₁ = tx' := by
  unfold proceed
  simp only [h, bind_ok, assertNotNil_ok, pure, Except.pure, Except.ok.injEq]
  simp

/-- `proceed` on a signing transaction. -/
theorem proceed_signing_ok {tx tx' : Transaction} {d₁ d₂ : Date} (h : tx.status = .signing) :
    tx.proceed d₁ d₂ = .ok tx' ↔ tx.transactionHash.isSome = true ∧
      ((tx.changeStatus .pending).timestampSubmitted d₁).timestampUpdated d₂ = tx' := by
  unfold proceed
  simp only [h, bind_ok, assertNotNil_ok, pure, Except.pure, Except.ok.injEq]
  simp

/-- `step` inverted. -/
theorem step_effect {tx tx' : Transaction} {op : Op} (h : tx.step op = .ok tx') :
    Effect tx op tx' := by
  cases op with
  | change edit now =>
      obtain ⟨hs, rfl⟩ := change_ok.mp h
      exact .change edit now hs
  | setHash hash now =>
      obtain ⟨hs, rfl⟩ := setHash_ok.mp h
      exact .setHash hash now hs
  | addSignature s now =>
      obtain ⟨hs, rfl⟩ := addSignature_ok.mp h
      by_cases hmem : s ∈ tx.signatures
      · rw [if_pos hmem]; exact .addDuplicate s now hs hmem
      · rw [if_neg hmem]; exact .addSignature s now hs hmem
  | removeSignature s now =>
      obtain ⟨hs, rfl⟩ := removeSignature_ok.mp h
      by_cases hmem : s ∈ tx.signatures
      · rw [if_pos hmem]; exact .removeSignature s now hs hmem
      · rw [if_neg hmem]; exact .removeAbsent s now hs hmem
  | timestampCreated date => cases h; exact .timestampCreated date
  | timestampUpdated date => cases h; exact .timestampUpdated date
  | timestampRejected date => cases h; exact .timestampRejected date
  | timestampSubmitted date => cases h; exact .timestampSubmitted date
  | timestampProcessed date => cases h; exact .timestampProcessed date
  | proceed d₁ d₂ =>
      simp only [step] at h
      cases hs : tx.status with
      | draft =>
          obtain ⟨h₁, h₂, h₃, h₄, rfl⟩ := (proceed_draft_ok hs).mp h
          exact .startSigning d₁ d₂ hs h₁ h₂ h₃ h₄
      | signing =>
          obtain ⟨h₁, rfl⟩ := (proceed_signing_ok hs).mp h
          exact .submit d₁ d₂ hs h₁
      | _ => simp [proceed, hs, TransactionStatus.illegalTransition] at h
  | stepBack =>
      simp only [step, stepBack] at h
      cases hs : tx.status <;> rw [hs] at h <;>
        simp only [TransactionStatus.illegalTransition, Except.ok.injEq, reduceCtorEq] at h
      · exact h ▸ .backToDraft hs
      · exact h ▸ .backToSigning hs
  | reject d₁ d₂ =>
      simp only [step, reject] at h
      cases hs : tx.status <;> rw [hs] at h <;>
        simp only [TransactionStatus.illegalTransition, Except.ok.injEq, reduceCtorEq] at h
      exact h ▸ .reject d₁ d₂ hs
  | succeed d₁ d₂ =>
      simp only [step, succeed] at h
      cases hs : tx.status <;> rw [hs] at h <;>
        simp only [TransactionStatus.illegalTransition, Except.ok.injEq, reduceCtorEq] at h
      exact h ▸ .succeed d₁ d₂ hs
  | fail d₁ d₂ =>
      simp only [step, fail] at h
      cases hs : tx.status <;> rw [hs] at h <;>
        simp only [TransactionStatus.illegalTransition, Except.ok.injEq, reduceCtorEq] at h
      exact h ▸ .fail d₁ d₂ hs
  | discard now =>
      simp only [step, discard] at h
      by_cases hs : tx.status = .discarded
      · simp [hs, TransactionStatus.illegalTransition] at h
      · have hok : ((tx.timestampUpdated now).changeStatus .discarded) = tx' := by
          cases ht : tx.status <;> simp_all
        exact hok ▸ .discard now hs
  | reset =>
      simp only [step, reset] at h
      cases hs : tx.status <;> rw [hs] at h <;>
        simp only [TransactionStatus.illegalTransition, Except.ok.injEq, reduceCtorEq] at h
      · exact h ▸ .reset (Or.inl hs)
      · exact h ▸ .reset (Or.inr hs)

/-- The calls that may change the signatures. -/
def Op.editsSignatures : Op → Bool
  | addSignature _ _ => true
  | removeSignature _ _ => true
  | reset => true
  | _ => false

theorem signatures_of_step {tx tx' : Transaction} (op : Op) (h : tx.step op = .ok tx')
    (hop : op.editsSignatures = false) : tx'.signatures = tx.signatures := by
  cases step_effect h with
  | change edit now hs => cases edit <;> rfl
  | addSignature s now hs hmem => cases hop
  | removeSignature s now hs hmem => cases hop
  | reset hs => cases hop
  | _ => rfl

/-! ### The data invariant -/

/-- A status whose transactions have been frozen for signing at some point and not
reopened since. -/
def Frozen (status : TransactionStatus) : Prop :=
  status = .signing ∨ status = .pending ∨ status = .rejected ∨ status = .failed ∨
    status = .success

/-- A status of a transaction the blockchain has been told about. -/
def Submitted (status : TransactionStatus) : Prop :=
  status = .pending ∨ status = .success ∨ status = .failed

/-- A status of a transaction the blockchain has answered about. -/
def Processed (status : TransactionStatus) : Prop :=
  status = .success ∨ status = .failed

instance (s : TransactionStatus) : Decidable (Frozen s) := by
  unfold Frozen; infer_instance

instance (s : TransactionStatus) : Decidable (Submitted s) := by
  unfold Submitted; infer_instance

instance (s : TransactionStatus) : Decidable (Processed s) := by
  unfold Processed; infer_instance

/-- What each status promises about the transaction's data. -/
structure DataInvariant (tx : Transaction) : Prop where
  /-- A frozen transaction has the four parameters a signature covers. -/
  parameters : Frozen tx.status →
    tx.sender ≠ none ∧ tx.recipient ≠ none ∧ tx.amount ≠ none ∧ tx.fee ≠ none
  /-- A submitted transaction has its blockchain hash and submission date. -/
  submission : Submitted tx.status → tx.transactionHash ≠ none ∧ tx.submittedDate ≠ none
  /-- A processed transaction has its processing date. -/
  processing : Processed tx.status → tx.processedDate ≠ none
  /-- A rejected transaction has its rejection date. -/
  rejection : tx.status = .rejected → tx.rejectedDate ≠ none

/-- A draft or discarded transaction promises nothing. -/
theorem DataInvariant.of_open {tx : Transaction}
    (h : tx.status = .draft ∨ tx.status = .discarded) : DataInvariant tx := by
  rcases h with h | h <;>
    exact ⟨by simp [Frozen, h], by simp [Submitted, h], by simp [Processed, h], by simp [h]⟩

/-- The invariant only reads the status and the eight fields it promises: an update
that keeps the status and loses none of them keeps it. -/
theorem DataInvariant.mono {tx tx' : Transaction} (hi : DataInvariant tx)
    (hstatus : tx'.status = tx.status)
    (hsender : tx'.sender = tx.sender) (hrecipient : tx'.recipient = tx.recipient)
    (hamount : tx'.amount = tx.amount) (hfee : tx'.fee = tx.fee)
    (hhash : tx.transactionHash ≠ none → tx'.transactionHash ≠ none)
    (hsubmitted : tx.submittedDate ≠ none → tx'.submittedDate ≠ none)
    (hprocessed : tx.processedDate ≠ none → tx'.processedDate ≠ none)
    (hrejected : tx.rejectedDate ≠ none → tx'.rejectedDate ≠ none) : DataInvariant tx' := by
  refine ⟨fun h => ?_, fun h => ?_, fun h => ?_, fun h => ?_⟩ <;> rw [hstatus] at h
  · rw [hsender, hrecipient, hamount, hfee]; exact hi.parameters h
  · exact ⟨hhash (hi.submission h).1, hsubmitted (hi.submission h).2⟩
  · exact hprocessed (hi.processing h)
  · exact hrejected (hi.rejection h)

/-- An update of none of these fields keeps the invariant. -/
theorem DataInvariant.frame {tx tx' : Transaction} (hi : DataInvariant tx)
    (hstatus : tx'.status = tx.status)
    (hsender : tx'.sender = tx.sender) (hrecipient : tx'.recipient = tx.recipient)
    (hamount : tx'.amount = tx.amount) (hfee : tx'.fee = tx.fee)
    (hhash : tx'.transactionHash = tx.transactionHash)
    (hsubmitted : tx'.submittedDate = tx.submittedDate)
    (hprocessed : tx'.processedDate = tx.processedDate)
    (hrejected : tx'.rejectedDate = tx.rejectedDate) : DataInvariant tx' :=
  hi.mono hstatus hsender hrecipient hamount hfee (fun h => hhash ▸ h)
    (fun h => hsubmitted ▸ h) (fun h => hprocessed ▸ h) (fun h => hrejected ▸ h)

/-- Every public call that returns keeps the data invariant. -/
theorem step_dataInvariant {tx tx' : Transaction} {op : Op} (hi : DataInvariant tx)
    (h : tx.step op = .ok tx') : DataInvariant tx' := by
  cases step_effect h with
  | change edit now hs =>
      refine .of_open (Or.inl ?_)
      cases edit <;> exact hs
  | setHash hash now hs =>
      exact hi.mono rfl rfl rfl rfl rfl (fun _ => by simp [timestampUpdated]) (fun h => h)
        (fun h => h) (fun h => h)
  | addSignature s now hs hmem => exact hi.frame rfl rfl rfl rfl rfl rfl rfl rfl rfl
  | addDuplicate s now hs hmem => exact hi
  | removeSignature s now hs hmem => exact hi.frame rfl rfl rfl rfl rfl rfl rfl rfl rfl
  | removeAbsent s now hs hmem => exact hi
  | timestampCreated date => exact hi.frame rfl rfl rfl rfl rfl rfl rfl rfl rfl
  | timestampUpdated date => exact hi.frame rfl rfl rfl rfl rfl rfl rfl rfl rfl
  | timestampRejected date =>
      exact hi.mono rfl rfl rfl rfl rfl (fun h => h) (fun h => h) (fun h => h)
        (fun _ => by simp [timestampRejected])
  | timestampSubmitted date =>
      exact hi.mono rfl rfl rfl rfl rfl (fun h => h) (fun _ => by simp [timestampSubmitted])
        (fun h => h) (fun h => h)
  | timestampProcessed date =>
      exact hi.mono rfl rfl rfl rfl rfl (fun h => h) (fun h => h)
        (fun _ => by simp [timestampProcessed]) (fun h => h)
  | startSigning d₁ d₂ hs hsender hrecipient hamount hfee =>
      -- the four assertions of a draft's `proceed` are the promise of `signing`
      have hnone : ∀ {α : Type} {o : Option α}, o.isSome = true → o ≠ none := by
        intro α o ho hn
        simp [hn] at ho
      exact ⟨fun _ => ⟨hnone hsender, hnone hrecipient, hnone hamount, hnone hfee⟩,
        by simp [Submitted, timestampUpdated, changeStatus],
        by simp [Processed, timestampUpdated, changeStatus],
        by simp [timestampUpdated, changeStatus]⟩
  | submit d₁ d₂ hs hhash =>
      have hp := hi.parameters (Or.inl hs)
      refine ⟨fun _ => hp, fun _ => ⟨?_, by simp [timestampUpdated, timestampSubmitted]⟩,
        by simp [Processed, timestampUpdated, timestampSubmitted, changeStatus],
        by simp [timestampUpdated, timestampSubmitted, changeStatus]⟩
      intro hn
      simp [timestampUpdated, timestampSubmitted, changeStatus] at hn
      simp [hn] at hhash
  | backToDraft hs => exact .of_open (Or.inl rfl)
  | backToSigning hs =>
      have hp := hi.parameters (Or.inr (Or.inl hs))
      exact ⟨fun _ => hp, by simp [Submitted, changeStatus], by simp [Processed, changeStatus],
        by simp [changeStatus]⟩
  | reject d₁ d₂ hs =>
      have hp := hi.parameters (Or.inl hs)
      exact ⟨fun _ => hp,
        by simp [Submitted, timestampUpdated, timestampRejected, changeStatus],
        by simp [Processed, timestampUpdated, timestampRejected, changeStatus],
        fun _ => by simp [timestampUpdated, timestampRejected]⟩
  | succeed d₁ d₂ hs =>
      have hp := hi.parameters (Or.inr (Or.inl hs))
      have hsub := hi.submission (Or.inl hs)
      exact ⟨fun _ => hp, fun _ => hsub,
        fun _ => by simp [timestampUpdated, timestampProcessed],
        by simp [timestampUpdated, timestampProcessed, changeStatus]⟩
  | fail d₁ d₂ hs =>
      have hp := hi.parameters (Or.inr (Or.inl hs))
      have hsub := hi.submission (Or.inl hs)
      exact ⟨fun _ => hp, fun _ => hsub,
        fun _ => by simp [timestampUpdated, timestampProcessed],
        by simp [timestampUpdated, timestampProcessed, changeStatus]⟩
  | discard now hs => exact .of_open (Or.inr rfl)
  | reset hs => exact .of_open (Or.inl rfl)

/-- **Data invariant.** Whatever public calls are made on a new transaction, in any
number and order, the transaction they leave behind has the data its status
promises. -/
theorem run_dataInvariant (id : TransactionID) (type : TransactionType) (walletID : WalletID)
    (accountID : AccountID) (created updated : Date) (ops : List Op) {tx : Transaction}
    (h : Transition.run step (new id type walletID accountID created updated) ops = .ok tx) :
    DataInvariant tx :=
  Transition.run_invariant (fun _ _ _ hi hstep => step_dataInvariant hi hstep)
    (DataInvariant.of_open (Or.inl rfl)) h

/-- The calls that take a new transaction through signing and submission. -/
def submission : List Op :=
  [.change (.sender (some .zero)) 1, .change (.recipient (some .two)) 2,
    .change (.amount (some (.ether 5))) 3, .change (.fee (some (.ether 1))) 4,
    .proceed 5 5, .addSignature ⟨.zero, [1]⟩ 6, .setHash ⟨hexMark⟩ 7, .proceed 8 9]

/-- A run through signing, submission and success. -/
theorem run_dataInvariant_success :
    ∃ tx, Transition.run step (new [] .transfer [] ⟨[], []⟩ 0 0)
        (submission ++ [.succeed 10 11]) = .ok tx ∧
      tx.status = .success ∧ tx.processedDate = some 10 ∧ DataInvariant tx :=
  ⟨_, rfl, rfl, rfl, run_dataInvariant [] .transfer [] ⟨[], []⟩ 0 0
    (submission ++ [.succeed 10 11]) rfl⟩

/-! ### The frame law -/

/-- The fields that determine what a transaction does and what is signed. -/
structure Content where
  sender : Option Address
  recipient : Option Address
  amount : Option TokenAmount
  fee : Option TokenAmount
  feeEstimate : Option TransactionFeeEstimate
  data : Option Data
  operation : Option WalletOperation
  nonce : Option Str
  hash : Option Data
  deriving DecidableEq, Repr

/-- The content of a transaction. -/
def content (tx : Transaction) : Content :=
  { sender := tx.sender, recipient := tx.recipient, amount := tx.amount, fee := tx.fee,
    feeEstimate := tx.feeEstimate, data := tx.data, operation := tx.operation,
    nonce := tx.nonce, hash := tx.hash }

/-- Outside `draft` no call changes the content. -/
theorem step_content {tx tx' : Transaction} {op : Op} (h : tx.step op = .ok tx')
    (hs : tx.status ≠ .draft) : tx'.content = tx.content := by
  cases step_effect h with
  | change edit now hd => exact absurd hd hs
  | startSigning d₁ d₂ hd _ _ _ _ => exact absurd hd hs
  | _ => rfl

/-- A change assigns to the content, and leaves the status. -/
theorem change_frame {tx tx' : Transaction} {edit : Edit} {now : Date}
    (h : tx.change edit now = .ok tx') :
    tx'.id = tx.id ∧ tx'.status = tx.status ∧ tx'.content = (tx.assign edit).content := by
  obtain ⟨-, rfl⟩ := change_ok.mp h
  cases edit <;> exact ⟨rfl, rfl, rfl⟩

theorem exists_change {tx : Transaction} (hdraft : tx.status = .draft) (edit : Edit)
    (now : Date) : ∃ tx', tx.change edit now = .ok tx' ∧ tx'.status = .draft :=
  ⟨_, change_draft hdraft edit now,
    (change_frame (change_draft hdraft edit now)).2.1.trans hdraft⟩

/-- `reset` as the frame law describes it: from `rejected` or `discarded` back to a
draft without signatures or blockchain hash. -/
def IsReset (tx : Transaction) (op : Op) (tx' : Transaction) : Prop :=
  op = .reset ∧ (tx.status = .rejected ∨ tx.status = .discarded) ∧ tx'.status = .draft ∧
    tx'.signatures = [] ∧ tx'.transactionHash = none

/-- Only calls on a draft or signing transaction, and `reset`, change the signatures. -/
theorem step_signatures {tx tx' : Transaction} {op : Op} (h : tx.step op = .ok tx')
    (hne : tx'.signatures ≠ tx.signatures) :
    tx.status = .draft ∨ tx.status = .signing ∨ IsReset tx op tx' := by
  cases step_effect h with
  | addSignature s now hs hmem => exact hs.imp_right Or.inl
  | removeSignature s now hs hmem => exact hs.imp_right Or.inl
  | reset hs => exact Or.inr (Or.inr ⟨rfl, hs, rfl, rfl, rfl⟩)
  | change edit now hs => exact Or.inl hs
  | _ => exact absurd rfl hne

/-- Only calls on a draft or signing transaction, and `reset`, change the blockchain
hash. -/
theorem step_transactionHash {tx tx' : Transaction} {op : Op} (h : tx.step op = .ok tx')
    (hne : tx'.transactionHash ≠ tx.transactionHash) :
    tx.status = .draft ∨ tx.status = .signing ∨ IsReset tx op tx' := by
  cases step_effect h with
  | setHash hash now hs => exact hs.imp_right Or.inl
  | reset hs => exact Or.inr (Or.inr ⟨rfl, hs, rfl, rfl, rfl⟩)
  | change edit now hs => exact Or.inl hs
  | _ => exact absurd rfl hne

/-- A step taken outside `draft`. -/
def OutsideDraft (tx : Transaction) (_ : Op) : Prop := tx.status ≠ .draft

instance (tx : Transaction) (op : Op) : Decidable (OutsideDraft tx op) := by
  unfold OutsideDraft; infer_instance

/-- **Frame law.** Of any transaction, so in every run of public calls: the content
changes only in a step taken from `draft`; signatures and blockchain hash change
only in a step taken from `draft` or `signing`, or are emptied by `reset`. Hence
from the step that enters `signing` to a later step that enters `pending`, with no
step taken from `draft` in between, the content stays what it was. -/
theorem run_frame (tx : Transaction) :
    (∀ op tx', tx.step op = .ok tx' →
      (tx'.content ≠ tx.content → tx.status = .draft) ∧
      (tx'.signatures ≠ tx.signatures →
        tx.status = .draft ∨ tx.status = .signing ∨ IsReset tx op tx') ∧
      (tx'.transactionHash ≠ tx.transactionHash →
        tx.status = .draft ∨ tx.status = .signing ∨ IsReset tx op tx')) ∧
    (∀ enter tx₁ between tx₂ leave tx₃,
      tx.step enter = .ok tx₁ → tx.status ≠ .signing → tx₁.status = .signing →
      Transition.run step tx₁ between = .ok tx₂ →
      Transition.Allowed step OutsideDraft tx₁ between →
      tx₂.step leave = .ok tx₃ → tx₂.status ≠ .draft → tx₃.status = .pending →
      tx₃.content = tx₁.content) := by
  refine ⟨fun op tx' hstep => ⟨fun hne => ?_, step_signatures hstep, step_transactionHash hstep⟩,
    ?_⟩
  · by_contra hs
    exact hne (step_content hstep hs)
  · intro enter tx₁ between tx₂ leave tx₃ _ _ _ hrun hall hleave hs₂ _
    have hmid : tx₂.content = tx₁.content :=
      Transition.run_frame_of_allowed content (fun _ _ _ hg hstep => step_content hstep hg)
        hall hrun
    exact (step_content hleave hs₂).trans hmid

/-- A draft with the four parameters `proceed` asks for. -/
def readyDraft : Transaction :=
  { id := [], type := .transfer, walletID := [], accountID := ⟨[], []⟩,
    sender := some .zero, recipient := some .two, amount := some (.ether 5),
    fee := some (.ether 1) }

/-- `readyDraft` enters `signing`, is signed and given its blockchain hash, and
enters `pending` with the content it had. -/
theorem run_frame_submission :
    ∃ tx₁ tx₂ tx₃, readyDraft.step (.proceed 5 5) = .ok tx₁ ∧
      Transition.run step tx₁ [.addSignature ⟨.zero, [1]⟩ 6, .setHash ⟨hexMark⟩ 7] = .ok tx₂ ∧
      tx₂.step (.proceed 8 9) = .ok tx₃ ∧ tx₃.status = .pending ∧
      tx₃.content = tx₁.content :=
  ⟨_, _, _, rfl, rfl, rfl, rfl,
    (run_frame readyDraft).2 (.proceed 5 5) _
      [.addSignature ⟨.zero, [1]⟩ 6, .setHash ⟨hexMark⟩ 7] _ (.proceed 8 9) _
      rfl (by decide) rfl rfl (by decide) rfl (by decide) rfl⟩

end Transaction

end MultisigWallet
