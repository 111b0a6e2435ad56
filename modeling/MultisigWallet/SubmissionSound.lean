import MultisigWallet.ReceiveSound

/-!
# MultisigWallet.SubmissionSound

The signatures of a transaction over runs of the application service. The Safe contract
wants the signatures it is given in strictly increasing order of their signers, so a
transaction must not hold two signatures by one signer.

`Signs` lists how the signatures of a row come about when the row is saved. The only call
that can add a second signature by one signer is a confirmation: it tests for the same
bytes, not for the same signer. `ConfirmsOnce` is the guard that rules this out.
-/

namespace MultisigWallet

namespace WalletApplicationService

variable {lib : ThirdParty} {metadata : SafeContractMetadata} {r r' : Repositories}

/-! ### How signatures come about -/

/-- `a` is the address of an owner this service takes signatures of. -/
def IsSigner (r : Repositories) (a : Address) : Prop :=
  address r .browserExtension = some a ∨ address r .thisDevice = some a

/-- The signatures of a row that is saved, in terms of the rows before. -/
inductive Signs (r : Repositories) (tx : Transaction) : Prop
  | unsigned (h : tx.signatures = [])
  | kept (t : Transaction) (ht : t ∈ r.transactions) (h : tx.signatures = t.signatures)
  | first (s : Signature) (hs : IsSigner r s.address) (h : tx.signatures = [s])
  | added (t : Transaction) (ht : t ∈ r.transactions) (s : Signature) (hs : IsSigner r s.address)
      (hnew : t.isSignedBy s.address = false) (h : tx.signatures = t.signatures ++ [s])

theorem Signs.congr {tx tx' : Transaction} (h : Signs r tx)
    (hsignatures : tx'.signatures = tx.signatures) : Signs r tx' := by
  cases h with
  | unsigned h => exact .unsigned (hsignatures.trans h)
  | kept t ht h => exact .kept t ht (hsignatures.trans h)
  | first s hs h => exact .first s hs (hsignatures.trans h)
  | added t ht s hs hnew h => exact .added t ht s hs hnew (hsignatures.trans h)

/-- What a call leaves of the rows: at most one is removed or saved. -/
inductive Changes (r : Repositories) : Repositories → Prop
  | nothing : Changes r r
  | removed (tx : Transaction) : Changes r (r.remove tx)
  | saved (tx : Transaction) (h : Signs r tx) : Changes r (r.save tx)

/-- No call changes the wallet. -/
theorem Changes.address_eq (h : Changes r r') : address r' = address r := by
  cases h <;> rfl

theorem mem_of_find {id : TransactionID} {tx : Transaction} (h : r.find id = some tx) :
    tx ∈ r.transactions :=
  List.mem_of_find?_eq_some h

theorem change_signatures {tx tx' : Transaction} {edit : Transaction.Edit} {now : Date}
    (h : tx.change edit now = .ok tx') : tx'.signatures = tx.signatures :=
  Transaction.signatures_of_step (.change edit now) h rfl

theorem proceed_signatures {tx tx' : Transaction} {d₁ d₂ : Date}
    (h : tx.proceed d₁ d₂ = .ok tx') : tx'.signatures = tx.signatures :=
  Transaction.signatures_of_step (.proceed d₁ d₂) h rfl

/-! ### Editing and estimating keep the signatures -/

theorem newDraftTransaction_changes {w : Wallet} {id : TransactionID} {clock : Clock}
    (h : newDraftTransaction r w id clock = .ok r') : Changes r r' := by
  unfold newDraftTransaction at h
  obtain ⟨sender, -, h⟩ := bind_ok.mp h
  obtain ⟨tx, htx, h⟩ := bind_ok.mp h
  obtain rfl := Except.ok.inj h
  exact .saved tx (.unsigned (change_signatures htx))

theorem createNewDraftTransaction_changes {id : TransactionID} {clock : Clock}
    (h : createNewDraftTransaction r id clock = .ok r') : Changes r r' := by
  unfold createNewDraftTransaction at h
  obtain ⟨w, -, h⟩ := bind_ok.mp h
  exact newDraftTransaction_changes h

theorem updateTransaction_changes {id : TransactionID} {amount : Int} {tokenID : TokenID}
    {recipient : Str} {clock : Clock}
    (h : updateTransaction lib r id amount tokenID recipient clock = .ok r') : Changes r r' := by
  unfold updateTransaction at h
  obtain ⟨tx, htx, h⟩ := bind_ok.mp h
  obtain ⟨token, -, h⟩ := bind_ok.mp h
  obtain ⟨tx₁, htx₁, h⟩ := bind_ok.mp h
  obtain ⟨a, -, h⟩ := bind_ok.mp h
  obtain ⟨tx₂, htx₂, h⟩ := bind_ok.mp h
  have hmem := mem_of_find (unwrap_ok.mp htx)
  have hkept : tx₂.signatures = tx.signatures :=
    (change_signatures htx₂).trans (change_signatures htx₁)
  split at h
  · obtain ⟨data, -, h⟩ := bind_ok.mp h
    obtain ⟨tx₃, htx₃, h⟩ := bind_ok.mp h
    obtain rfl := Except.ok.inj h
    exact .saved tx₃ (.kept tx hmem ((change_signatures htx₃).trans hkept))
  · obtain rfl := Except.ok.inj h
    exact .saved tx₂ (.kept tx hmem hkept)

theorem updateWithFeeEstimate_changes {tx : Transaction} {estimate : TransactionFeeEstimate}
    {nonce : Str} {clock : Clock} (hmem : tx ∈ r.transactions)
    (h : updateWithFeeEstimate lib metadata r tx estimate nonce clock = .ok r') :
    Changes r r' := by
  unfold updateWithFeeEstimate at h
  obtain ⟨gas, -, h⟩ := bind_ok.mp h
  obtain ⟨tx₁, h₁, h⟩ := bind_ok.mp h
  obtain ⟨tx₂, h₂, h⟩ := bind_ok.mp h
  obtain ⟨tx₃, h₃, h⟩ := bind_ok.mp h
  obtain ⟨tx₄, h₄, h⟩ := bind_ok.mp h
  obtain ⟨hash, -, h⟩ := bind_ok.mp h
  obtain ⟨tx₅, h₅, h⟩ := bind_ok.mp h
  obtain ⟨tx₆, h₆, h⟩ := bind_ok.mp h
  obtain rfl := Except.ok.inj h
  refine .saved tx₆ (.kept tx hmem ?_)
  rw [proceed_signatures h₆, change_signatures h₅, change_signatures h₄, change_signatures h₃,
    change_signatures h₂, change_signatures h₁]

theorem estimateTransactionIfNeeded_changes {id : TransactionID}
    {relay : EstimateTransactionRequest → Option EstimateTransactionResponse} {clock : Clock}
    {o : Option Unit}
    (h : estimateTransactionIfNeeded lib metadata r id relay clock = .ok (o, r')) :
    Changes r r' := by
  obtain ⟨tx, htx, rfl | ⟨-, estimate, nonce, hupdate⟩⟩ := estimateTransactionIfNeeded_cases h
  · exact .nothing
  · exact updateWithFeeEstimate_changes (mem_of_find htx) hupdate

/-! ### Messages -/

/-- If the extension has already signed the transaction that is confirmed, it is with the
same bytes. Confirmations that are refused do not count. -/
def confirmsOnce (lib : ThirdParty) (r : Repositories) (m : TransactionDecisionMessage) : Bool :=
  match r.findHashStatus m.hash .signing, extensionSigner lib r m.hash m.signature,
      EncryptionService.dataFromSignature lib m.signature with
  | some tx, .ok (some a), .ok data => tx.signatures.all fun s => s.address ≠ a ∨ s.data = data
  | _, _, _ => true

/-- Adding a signature of a signer that has not signed, or has made the same signature. -/
theorem signs_addSignature {t tx : Transaction} {s : Signature} {now : Date}
    (ht : t ∈ r.transactions) (hs : IsSigner r s.address)
    (hsame : ∀ s' ∈ t.signatures, s'.address = s.address → s' = s)
    (h : t.addSignature s now = .ok tx) : Signs r tx := by
  obtain ⟨-, rfl⟩ := Transaction.addSignature_ok.mp h
  by_cases hmem : s ∈ t.signatures
  · rw [if_pos hmem]
    exact .kept t ht rfl
  · rw [if_neg hmem]
    refine .added t ht s hs ?_ rfl
    rw [Transaction.isSignedBy, List.any_eq_false]
    intro s' hs' heq
    exact hmem (hsame s' hs' (of_decide_eq_true heq) ▸ hs')

theorem handleConfirmed_changes {m : TransactionDecisionMessage} {clock : Clock}
    {o : Option TransactionID} (honce : confirmsOnce lib r m = true)
    (h : handleConfirmed lib r m clock = .ok (o, r')) : Changes r r' := by
  unfold handleConfirmed at h
  obtain ⟨found, hfound, h⟩ := bind_ok.mp h
  cases found with
  | none =>
      obtain ⟨-, rfl⟩ := Prod.mk.inj (Except.ok.inj h)
      exact .nothing
  | some tx =>
      obtain ⟨a, ha, h⟩ := bind_ok.mp h
      obtain ⟨data, hdata, h⟩ := bind_ok.mp h
      obtain ⟨tx', htx', h⟩ := bind_ok.mp h
      obtain ⟨-, rfl⟩ := Prod.mk.inj (Except.ok.inj h)
      obtain ⟨hfind, a', ha'⟩ := transaction_some hfound
      obtain rfl : a = a' :=
        Option.some.inj ((unwrap_ok.mp ha).symm.trans (extensionSigner_some ha').1)
      simp only [confirmsOnce, hfind, ha', hdata, List.all_eq_true, decide_eq_true_eq] at honce
      refine .saved tx' (signs_addSignature (status_of_findHashStatus hfind).1
        (.inl (unwrap_ok.mp ha)) ?_ htx')
      intro s hs heq
      rcases honce s hs with hne | hsame
      · exact absurd heq hne
      · cases s
        simp_all

theorem handleRejected_changes {m : TransactionDecisionMessage} {clock : Clock}
    {o : Option TransactionID} (h : handleRejected lib r m clock = .ok (o, r')) :
    Changes r r' := by
  rcases handleRejected_ok h with heq | ⟨tx, tx', hfind, hreject, heq⟩
  · obtain ⟨-, rfl⟩ := Prod.mk.inj heq
    exact .nothing
  · obtain ⟨-, rfl⟩ := Prod.mk.inj heq
    refine .saved tx' (.kept tx (status_of_findHashStatus hfind).1 ?_)
    exact Transaction.signatures_of_step (.reject (clock 0) (clock 1)) hreject rfl

theorem handleSend_changes {m : SendTransactionMessage} {id : TransactionID} {clock : Clock}
    {o : Option TransactionID} (h : handleSend lib metadata r m id clock = .ok (o, r')) :
    Changes r r' := by
  generalize hout : (o, r') = out at h
  cases handleSend_effect.mp h with
  | known tx hfind => exact (Prod.mk.inj hout).2 ▸ .nothing
  | noWallet _ _ => exact (Prod.mk.inj hout).2 ▸ .nothing
  | otherHash w decoded hash _ _ _ _ => exact (Prod.mk.inj hout).2 ▸ .removed _
  | otherSigner w decoded _ _ _ _ => exact (Prod.mk.inj hout).2 ▸ .removed _
  | accepted w decoded signature _ _ _ hs _ _ =>
      rw [(Prod.mk.inj hout).2]
      exact .saved _ (.first signature (.inl (extensionSigner_some hs).1) rfl)

/-! ### Submissions -/

theorem signTransaction_signs {t tx : Transaction} {clock : Clock} (ht : t ∈ r.transactions)
    (h : signTransaction lib metadata r t clock = .ok tx) : Signs r tx := by
  unfold signTransaction at h
  obtain ⟨-, -, h⟩ := bind_ok.mp h
  obtain ⟨a, ha, h⟩ := bind_ok.mp h
  split at h
  · obtain rfl := Except.ok.inj h
    exact .kept t ht rfl
  · rename_i hnew
    obtain ⟨key, -, h⟩ := bind_ok.mp h
    obtain ⟨data, -, h⟩ := bind_ok.mp h
    refine signs_addSignature ht (s := ⟨a, data⟩) (.inr (unwrap_ok.mp ha)) ?_ h
    intro s hs heq
    exact absurd (List.any_eq_true.mpr ⟨s, hs, decide_eq_true heq⟩) hnew

theorem prepareSubmission_signs {id : TransactionID} {sent : Bool} {clock : Clock}
    {tx : Transaction} (h : prepareSubmission lib metadata r id sent clock = .ok (some tx)) :
    Signs r tx := by
  unfold prepareSubmission at h
  obtain ⟨t, ht, h⟩ := bind_ok.mp h
  have hmem := mem_of_find (unwrap_ok.mp ht)
  obtain ⟨requested, -, h⟩ := bind_ok.mp h
  cases requested with
  | none => cases h
  | some u =>
      simp only at h
      split at h
      · obtain rfl := Option.some.inj (Except.ok.inj h)
        exact .kept _ hmem rfl
      · obtain ⟨tx', htx', h⟩ := bind_ok.mp h
        obtain rfl := Option.some.inj (Except.ok.inj h)
        exact signTransaction_signs hmem htx'

theorem proceedTransaction_changes {tx : Transaction} {clock : Clock}
    {relay : SubmitTransactionRequest → Option TransactionHash} {o : Option Transaction}
    (hsigns : Signs r tx) (h : proceedTransaction lib r tx relay clock = .ok (o, r')) :
    Changes r r' := by
  unfold proceedTransaction at h
  obtain ⟨request, -, h⟩ := bind_ok.mp h
  split at h
  · obtain ⟨-, rfl⟩ := Prod.mk.inj (Except.ok.inj h)
    exact .nothing
  · obtain ⟨tx₁, h₁, h⟩ := bind_ok.mp h
    obtain ⟨tx₂, h₂, h⟩ := bind_ok.mp h
    obtain ⟨-, rfl⟩ := Prod.mk.inj (Except.ok.inj h)
    refine .saved tx₂ (hsigns.congr ((proceed_signatures h₂).trans ?_))
    exact Transaction.signatures_of_step (.setHash _ (clock 1)) h₁ rfl

theorem submitTransaction_changes {id : TransactionID} {sent : Bool} {clock : Clock}
    {relay : SubmitTransactionRequest → Option TransactionHash} {o : Option Unit}
    (h : submitTransaction lib metadata r id sent relay clock = .ok (o, r')) : Changes r r' := by
  unfold submitTransaction at h
  obtain ⟨prepared, hprepared, h⟩ := bind_ok.mp h
  cases prepared with
  | none =>
      obtain ⟨-, rfl⟩ := Prod.mk.inj (Except.ok.inj h)
      exact .nothing
  | some tx =>
      obtain ⟨⟨done, r''⟩, hdone, h⟩ := bind_ok.mp h
      have hchanges := proceedTransaction_changes (prepareSubmission_signs hprepared) hdone
      cases done with
      | none =>
          obtain ⟨-, rfl⟩ := Prod.mk.inj (Except.ok.inj h)
          exact hchanges
      | some tx' =>
          simp only at h
          split at h
          · obtain ⟨-, rfl⟩ := Prod.mk.inj (Except.ok.inj h)
            exact hchanges
          · obtain ⟨-, -, h⟩ := bind_ok.mp h
            obtain ⟨-, -, h⟩ := bind_ok.mp h
            obtain ⟨-, rfl⟩ := Prod.mk.inj (Except.ok.inj h)
            exact hchanges

/-! ### Everything a call can do -/

/-- The guard: a confirmation that is accepted does not bring a second signature. -/
def ConfirmsOnce (lib : ThirdParty) (s : ServiceState) (call : Call) : Prop :=
  (match call with
    | .receive userInfo _ _ =>
        match Message.create lib userInfo with
        | some (.transactionConfirmed m) => confirmsOnce lib s.repositories m
        | _ => true
    | _ => true) = true

instance (s : ServiceState) (call : Call) : Decidable (ConfirmsOnce lib s call) :=
  inferInstanceAs (Decidable (_ = true))

theorem step_changes {s s' : ServiceState} {call : Call} (hguard : ConfirmsOnce lib s call)
    (h : step lib metadata s call = .ok s') :
    Changes s.repositories s'.repositories ∧
      ∀ tx ∈ s'.submitted, tx ∈ s.submitted ∨ Signs s.repositories tx := by
  cases call with
  | receive userInfo nextID clock =>
      obtain ⟨⟨o, r'⟩, hr', h⟩ := bind_ok.mp h
      obtain rfl := Except.ok.inj h
      refine ⟨?_, fun _ => .inl⟩
      unfold receive at hr'
      unfold ConfirmsOnce at hguard
      split at hr'
      · obtain ⟨-, rfl⟩ := Prod.mk.inj (Except.ok.inj hr')
        exact .nothing
      · rename_i m hm
        simp only [hm] at hguard
        exact handleConfirmed_changes hguard hr'
      · exact handleRejected_changes hr'
      · exact handleSend_changes hr'
  | createNewDraftTransaction nextID clock =>
      obtain ⟨r', hr', h⟩ := bind_ok.mp h
      obtain rfl := Except.ok.inj h
      exact ⟨createNewDraftTransaction_changes hr', fun _ => .inl⟩
  | updateTransaction id amount token recipient clock =>
      obtain ⟨r', hr', h⟩ := bind_ok.mp h
      obtain rfl := Except.ok.inj h
      exact ⟨updateTransaction_changes hr', fun _ => .inl⟩
  | estimateTransactionIfNeeded id relay clock =>
      obtain ⟨⟨o, r'⟩, hr', h⟩ := bind_ok.mp h
      obtain rfl := Except.ok.inj h
      exact ⟨estimateTransactionIfNeeded_changes hr', fun _ => .inl⟩
  | submitTransaction id sent relay clock =>
      obtain ⟨handed, hhanded, h⟩ := bind_ok.mp h
      obtain ⟨⟨o, r'⟩, hr', h⟩ := bind_ok.mp h
      obtain rfl := Except.ok.inj h
      refine ⟨submitTransaction_changes hr', fun tx htx => ?_⟩
      rcases List.mem_append.mp htx with htx | htx
      · exact .inl htx
      · rw [Option.mem_toList] at htx
        exact .inr (prepareSubmission_signs (hhanded.trans (congrArg Except.ok htx)))

/-! ### One signature per signer -/

/-- The accounts that signed, in lower case. -/
def signers (tx : Transaction) : List Address := tx.signatures.map fun s => s.address.normalized

/-- The wallet does not spell one account in two ways. -/
def OneSpelling (r : Repositories) : Prop :=
  ∀ a b, IsSigner r a → IsSigner r b → a.normalized = b.normalized → a = b

structure WellSigned (r : Repositories) (tx : Transaction) : Prop where
  once : (signers tx).Nodup
  /-- A signature by an owner of the wallet has the wallet's spelling of the address. -/
  spelling : ∀ s ∈ tx.signatures, ∀ a, IsSigner r a → s.address.normalized = a.normalized →
    s.address = a

theorem WellSigned.congr {tx tx' : Transaction} (h : WellSigned r tx)
    (hsignatures : tx'.signatures = tx.signatures) : WellSigned r tx' := by
  refine ⟨?_, ?_⟩
  · rw [signers, hsignatures]
    exact h.once
  · rw [hsignatures]
    exact h.spelling

theorem wellSigned_of_signs (hone : OneSpelling r) (hrows : ∀ t ∈ r.transactions, WellSigned r t)
    {tx : Transaction} (h : Signs r tx) : WellSigned r tx := by
  cases h with
  | unsigned h => exact ⟨by simp [signers, h], fun s hs => by simp [h] at hs⟩
  | kept t ht h => exact (hrows t ht).congr h
  | first s hs h =>
      refine ⟨by simp [signers, h], fun s' hs' a ha heq => ?_⟩
      rw [h, List.mem_singleton] at hs'
      subst hs'
      exact hone _ _ hs ha heq
  | added t ht s hs hnew h =>
      have hold := hrows t ht
      refine ⟨?_, fun s' hs' a ha heq => ?_⟩
      · rw [signers, h, List.map_append]
        refine List.nodup_append.mpr ⟨hold.once, by simp, ?_⟩
        intro a ha b hb heq
        obtain ⟨s', hs', rfl⟩ := List.mem_map.mp ha
        obtain rfl := List.mem_singleton.mp hb
        -- the signer would have signed `t` already
        have hsame := hold.spelling s' hs' _ hs heq
        exact absurd (List.any_eq_true.mpr ⟨s', hs', decide_eq_true hsame⟩) (by
          rw [Transaction.isSignedBy] at hnew
          rw [hnew]
          exact Bool.false_ne_true)
      · rw [h] at hs'
        rcases List.mem_append.mp hs' with hs' | hs'
        · exact hold.spelling s' hs' a ha heq
        · rw [List.mem_singleton.mp hs'] at heq ⊢
          exact hone _ _ hs ha heq

/-- Different signers are sorted into a strictly increasing list. -/
theorem sortedSignatures_increasing {tx : Transaction} (h : (signers tx).Nodup) :
    (sortedSignatures tx).Pairwise fun s t =>
      lowercased s.address.value < lowercased t.address.value := by
  have : IsTrans Signature fun s t =>
      lowercased s.address.value ≤ lowercased t.address.value := ⟨fun _ _ _ => le_trans⟩
  have : Std.Total fun s t : Signature =>
      lowercased s.address.value ≤ lowercased t.address.value := ⟨fun _ _ => le_total _ _⟩
  have hsorted : (sortedSignatures tx).Pairwise fun s t =>
      lowercased s.address.value ≤ lowercased t.address.value := List.pairwise_insertionSort _ _
  have hne : (sortedSignatures tx).Pairwise fun s t =>
      lowercased s.address.value ≠ lowercased t.address.value := by
    have hperm := (List.perm_insertionSort (fun s t : Signature =>
      lowercased s.address.value ≤ lowercased t.address.value) tx.signatures).map
        fun s => s.address.normalized
    have hnodup := hperm.nodup_iff.mpr h
    refine (List.pairwise_map.mp hnodup).imp ?_
    intro s t hst heq
    exact hst (congrArg Address.mk heq)
  exact hsorted.imp₂ (fun _ _ hle hne => (le_iff_lt_or_eq.mp hle).resolve_right hne) hne

/-! ### Over runs -/

structure SignedState (s : ServiceState) : Prop where
  spelling : OneSpelling s.repositories
  rows : ∀ tx ∈ s.repositories.transactions, WellSigned s.repositories tx
  submitted : ∀ tx ∈ s.submitted, (signers tx).Nodup

theorem step_signedState {s s' : ServiceState} {call : Call} (hguard : ConfirmsOnce lib s call)
    (hs : SignedState s) (h : step lib metadata s call = .ok s') : SignedState s' := by
  obtain ⟨hchanges, hsubmitted⟩ := step_changes hguard h
  have hsigns : ∀ tx, Signs s.repositories tx → WellSigned s.repositories tx := fun _ =>
    wellSigned_of_signs hs.spelling hs.rows
  have hsigner : IsSigner s'.repositories = IsSigner s.repositories := by
    unfold IsSigner
    rw [hchanges.address_eq]
  have hwell : ∀ tx, WellSigned s.repositories tx → WellSigned s'.repositories tx := by
    intro tx htx
    refine ⟨htx.once, ?_⟩
    rw [hsigner]
    exact htx.spelling
  refine ⟨?_, fun tx htx => hwell tx ?_, fun tx htx => ?_⟩
  · unfold OneSpelling
    rw [hsigner]
    exact hs.spelling
  · revert htx
    generalize s'.repositories = r' at hchanges
    intro htx
    cases hchanges with
    | nothing => exact hs.rows tx htx
    | removed t => exact hs.rows tx (List.mem_of_mem_filter htx)
    | saved t ht =>
        rcases Repositories.mem_save htx with hmem | rfl
        · exact hs.rows tx hmem
        · exact hsigns tx ht
  · rcases hsubmitted tx htx with hmem | ht
    · exact hs.submitted tx hmem
    · exact (hsigns tx ht).once

/-- From unsigned transactions, in every run in which no accepted confirmation brings a
second signature of the extension, every transaction has at most one signature per signer
and every list handed to the relay is strictly increasing. -/
theorem run_signedOnce {s t : ServiceState} {calls : List Call}
    (hspelling : OneSpelling s.repositories)
    (hunsigned : ∀ tx ∈ s.repositories.transactions, tx.signatures = [])
    (hnone : s.submitted = [])
    (hall : Transition.Allowed (step lib metadata) (ConfirmsOnce lib) s calls)
    (hrun : Transition.run (step lib metadata) s calls = .ok t) :
    (∀ tx ∈ t.repositories.transactions, (signers tx).Nodup) ∧
      ∀ tx ∈ t.submitted, (sortedSignatures tx).Pairwise fun s t =>
        lowercased s.address.value < lowercased t.address.value := by
  have hinit : SignedState s := by
    refine ⟨hspelling, fun tx htx => ?_, fun tx htx => ?_⟩
    · refine ⟨?_, fun s hs => ?_⟩
      · rw [signers, hunsigned tx htx]
        exact List.nodup_nil
      · rw [hunsigned tx htx] at hs
        exact absurd hs List.not_mem_nil
    · rw [hnone] at htx
      exact absurd htx List.not_mem_nil
  have hfinal : SignedState t := Transition.run_invariant_of_allowed
    (fun _ _ _ hguard hs hstep => step_signedState hguard hs hstep) hinit hall hrun
  exact ⟨fun tx htx => (hfinal.rows tx htx).once,
    fun tx htx => sortedSignatures_increasing (hfinal.submitted tx htx)⟩

/-! ### A transaction confirmed twice -/

/-- The wallet of the proposals, with the device as its second owner. -/
def deviceWallet : Wallet :=
  { pairedWallet with
    owners := ⟨[⟨⟨"0xedf678a5a905221f01e55f39827977be22427e91".toList⟩, .thisDevice⟩,
      ⟨⟨"0x1fF0723b3AFC12aFa7Fa294d64F7D5F1B606230A".toList⟩, .browserExtension⟩],
      show [OwnerRole.thisDevice, .browserExtension].Nodup by decide⟩
    confirmationCount := 2 }

def deviceState : ServiceState where
  repositories :=
    { pairedRepositories with
      wallets := [deviceWallet]
      externallyOwnedAccounts :=
        [(⟨"0xedf678a5a905221f01e55f39827977be22427e91".toList⟩, Bytes.ofNat 32 0xD31CE)] }
  submitted := []

/-- The proposal to transfer 100 units of a token. -/
def proposalCall : Call :=
  .receive (proposalInfo ("0xa9059cbb" ++
    "0000000000000000000000005b67e9d0a1f3c2b4d6e8fa0b1c2d3e4f50617283" ++
    "0000000000000000000000000000000000000000000000000000000000000064") "21500") ['t'] fun _ => 0

/-- The confirmation of the same transaction with the signature `(r, s)`. -/
def confirmationCall (r s : Nat) : Call :=
  .receive (fun key => List.lookup key [
    ("type", "confirmTransaction".toList),
    ("hash", "0x3ae0238b61c86bdd0a2c0b81e1e4a34d93be01431cd7a3cee33d9869338c1db0".toList),
    ("r", Nat.toDigits 10 r),
    ("s", Nat.toDigits 10 s),
    ("v", "28".toList)]) [] fun _ => 1

def submissionCall : Call := .submitTransaction ['t'] true (fun _ => some ⟨hexMark⟩) fun _ => 2

theorem oneSpelling_deviceState : OneSpelling deviceState.repositories := by
  have hne : Address.normalized ⟨"0x1fF0723b3AFC12aFa7Fa294d64F7D5F1B606230A".toList⟩ ≠
      Address.normalized ⟨"0xedf678a5a905221f01e55f39827977be22427e91".toList⟩ := by decide +kernel
  intro a b ha hb heq
  rcases ha with ha | ha <;> rcases hb with hb | hb <;>
    obtain rfl := Option.some.inj ha <;> obtain rfl := Option.some.inj hb
  · rfl
  · exact absurd heq hne
  · exact absurd heq.symm hne
  · rfl

/-- The proposal, its confirmation with the same signature, and the submission. -/
theorem run_signedOnce_submission :
    ∃ t, Transition.run (step reference EncryptionService.noMetadata) deviceState
        [proposalCall, confirmationCall
          108607064596551879580190606910245687803607295064141551927605737287325610911759
          15375811718067732053896892127654050180516234852587257834555443436228311294849,
          submissionCall] = .ok t ∧
      t.submitted.length = 1 ∧ ∀ tx ∈ t.submitted, (sortedSignatures tx).Pairwise fun s t =>
        lowercased s.address.value < lowercased t.address.value := by
  -- the run is evaluated once for both
  have hboth : Transition.Allowed (step reference EncryptionService.noMetadata)
      (ConfirmsOnce reference) deviceState
        [proposalCall, confirmationCall
          108607064596551879580190606910245687803607295064141551927605737287325610911759
          15375811718067732053896892127654050180516234852587257834555443436228311294849,
          submissionCall] ∧
      ((Transition.run (step reference EncryptionService.noMetadata) deviceState
      [proposalCall, confirmationCall
        108607064596551879580190606910245687803607295064141551927605737287325610911759
        15375811718067732053896892127654050180516234852587257834555443436228311294849,
        submissionCall]).toOption.any fun t => t.submitted.length = 1) = true := by
    decide +kernel
  obtain ⟨hall, heval⟩ := hboth
  obtain ⟨t, hrun, hlength⟩ := exists_ok_of_any heval
  exact ⟨t, hrun, of_decide_eq_true hlength, (run_signedOnce oneSpelling_deviceState
    (fun _ h => absurd h List.not_mem_nil) rfl hall hrun).2⟩

/-- Two signatures of the extension, both valid, are both kept. -/
theorem not_signedOnce_confirmation :
    ∃ t, Transition.run (step reference EncryptionService.noMetadata) deviceState
        [proposalCall, confirmationCall
          37995013536662708690145961012814543570901901177313360972010221692120455724810
          47681405501104495785143579066364823732034444326750352986623252825071173278659] = .ok t ∧
      ∃ tx ∈ t.repositories.transactions, ¬ (signers tx).Nodup := by
  have heval : ((Transition.run (step reference EncryptionService.noMetadata) deviceState
      [proposalCall, confirmationCall
        37995013536662708690145961012814543570901901177313360972010221692120455724810
        47681405501104495785143579066364823732034444326750352986623252825071173278659]).toOption.any
          fun t => t.repositories.transactions.any fun tx => !decide (signers tx).Nodup) = true := by
    decide +kernel
  obtain ⟨t, hrun, htwice⟩ := exists_ok_of_any heval
  obtain ⟨tx, htx, hdup⟩ := List.any_eq_true.mp htwice
  exact ⟨t, hrun, tx, htx, by simpa using hdup⟩

end WalletApplicationService

end MultisigWallet
