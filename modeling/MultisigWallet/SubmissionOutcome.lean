import MultisigWallet.SubmissionSound
import MultisigWallet.TransactionDomain

/-!
# MultisigWallet.SubmissionOutcome

What a submission leaves behind. The relay is asked once, and a row is saved only after it has
accepted; what is saved is one transition further than before. A transaction that is being signed
becomes pending. A draft becomes a signing transaction that was submitted already, and nothing
looks it up at the node.
-/

namespace MultisigWallet

namespace WalletApplicationService

variable (lib : ThirdParty) (metadata : SafeContractMetadata)

/-! ### The acceptances of the relay -/

/-- A request that the relay accepted, with its answer. -/
structure Acceptance where
  request : SubmitTransactionRequest
  hash : TransactionHash
  deriving DecidableEq, Repr

/-- The result of a submission (`none` if it throws), the repositories it leaves and what the relay
accepted meanwhile. -/
structure Outcome where
  done : Option Unit
  repositories : Repositories
  accepted : List Acceptance
  deriving DecidableEq

/-- `proceedTransaction(_:)` with a list of what the relay accepts. -/
def proceedTransactionLogged (r : Repositories) (tx : Transaction)
    (relay : SubmitTransactionRequest → Option TransactionHash) (clock : Clock) :
    Except Trap (Option Transaction × Repositories × List Acceptance) := do
  let request ← submissionRequest lib tx
  match relay request with
  | none => return (none, r, [])
  | some hash =>
      let tx ← tx.setHash hash (clock 1)
      let tx ← tx.proceed (clock 2) (clock 3)
      return (some tx, r.save tx, [⟨request, hash⟩])

/-- `submitTransaction(_: String)` with a list of what the relay accepts. -/
def submitTransactionLogged (r : Repositories) (id : TransactionID) (sent : Bool)
    (relay : SubmitTransactionRequest → Option TransactionHash) (clock : Clock) :
    Except Trap Outcome := do
  match ← prepareSubmission lib metadata r id sent clock with
  | none => return ⟨none, r, []⟩
  | some tx =>
      match ← proceedTransactionLogged lib r tx relay clock with
      | (none, r, accepted) => return ⟨none, r, accepted⟩
      | (some tx, r, accepted) =>
          if isSignedElsewhere tx then return ⟨some (), r, accepted⟩
          transactionSentMessage lib tx
          let _ ← notifyBrowserExtension lib r sent
          return ⟨some (), r, accepted⟩

variable {lib metadata} {r : Repositories} {id : TransactionID} {sent : Bool}
  {relay : SubmitTransactionRequest → Option TransactionHash} {clock : Clock}

theorem proceedTransactionLogged_map (lib : ThirdParty) (r : Repositories) (tx : Transaction)
    (relay : SubmitTransactionRequest → Option TransactionHash) (clock : Clock) :
    (fun logged => (logged.1, logged.2.1)) <$> proceedTransactionLogged lib r tx relay clock =
      proceedTransaction lib r tx relay clock := by
  unfold proceedTransactionLogged proceedTransaction
  rw [map_bind]
  refine bind_congr fun request => ?_
  cases relay request with
  | none => rfl
  | some hash =>
      rw [map_bind]
      refine bind_congr fun tx₁ => ?_
      rw [map_bind]
      exact bind_congr fun tx₂ => rfl

/-- The list does not change what the call does. -/
theorem submitTransactionLogged_map (lib : ThirdParty) (metadata : SafeContractMetadata)
    (r : Repositories) (id : TransactionID) (sent : Bool)
    (relay : SubmitTransactionRequest → Option TransactionHash) (clock : Clock) :
    (fun out => (out.done, out.repositories)) <$>
        submitTransactionLogged lib metadata r id sent relay clock =
      submitTransaction lib metadata r id sent relay clock := by
  unfold submitTransactionLogged submitTransaction
  rw [map_bind]
  refine bind_congr fun prepared => ?_
  cases prepared with
  | none => rfl
  | some tx =>
      simp only
      rw [map_bind, ← proceedTransactionLogged_map, bind_map_left]
      refine bind_congr fun logged => ?_
      obtain ⟨done, r', accepted⟩ := logged
      cases done with
      | none => rfl
      | some tx' =>
          simp only
          by_cases helsewhere : isSignedElsewhere tx' = true
          · rw [if_pos helsewhere, if_pos helsewhere]
            rfl
          · rw [if_neg helsewhere, if_neg helsewhere, map_bind]
            refine bind_congr fun u => ?_
            rw [map_bind]
            exact bind_congr fun notified => rfl

/-! ### How a submission ends -/

/-- A draft is not confirmed enough to be submitted, and the extension could confirm it. -/
def awaitsConfirmation (r : Repositories) (tx : Transaction) : Bool :=
  transactionHasEnoughSignaturesToSubmit r tx = .ok false ∧
    (address r .browserExtension).any fun a => !tx.isSignedBy a

/-- The request to confirm a draft does not reach the extension. -/
def Undelivered (r : Repositories) (tx : Transaction) (sent : Bool) : Prop :=
  tx.status = .draft ∧ awaitsConfirmation r tx = true ∧ sent = false

instance (r : Repositories) (tx : Transaction) (sent : Bool) : Decidable (Undelivered r tx sent) :=
  inferInstanceAs (Decidable (_ ∧ _))

/-- The transaction as it is handed to the relay. -/
def handedOver (lib : ThirdParty) (metadata : SafeContractMetadata) (r : Repositories)
    (tx : Transaction) (clock : Clock) : Except Trap Transaction :=
  if isSignedElsewhere tx then .ok tx else signTransaction lib metadata r tx clock

/-- The relay does not accept the request for the transaction. -/
def Refused (lib : ThirdParty) (metadata : SafeContractMetadata) (r : Repositories)
    (tx : Transaction) (relay : SubmitTransactionRequest → Option TransactionHash) (clock : Clock) :
    Prop :=
  ∀ signed request, handedOver lib metadata r tx clock = .ok signed →
    submissionRequest lib signed = .ok request → relay request = none

/-- A submission that comes to its end. -/
inductive Submitted (lib : ThirdParty) (metadata : SafeContractMetadata) (r : Repositories)
    (tx : Transaction) (sent : Bool) (relay : SubmitTransactionRequest → Option TransactionHash)
    (clock : Clock) : Outcome → Prop
  | undelivered (h : Undelivered r tx sent) :
      Submitted lib metadata r tx sent relay clock ⟨none, r, []⟩
  | refused (signed : Transaction) (request : SubmitTransactionRequest)
      (hsigned : handedOver lib metadata r tx clock = .ok signed)
      (hrequest : submissionRequest lib signed = .ok request) (hrelay : relay request = none) :
      Submitted lib metadata r tx sent relay clock ⟨none, r, []⟩
  | accepted (signed tx₁ tx₂ : Transaction) (request : SubmitTransactionRequest)
      (hash : TransactionHash) (hdelivered : ¬ Undelivered r tx sent)
      (hsigned : handedOver lib metadata r tx clock = .ok signed)
      (hrequest : submissionRequest lib signed = .ok request) (hrelay : relay request = some hash)
      (h₁ : signed.setHash hash (clock 1) = .ok tx₁)
      (h₂ : tx₁.proceed (clock 2) (clock 3) = .ok tx₂) :
      Submitted lib metadata r tx sent relay clock ⟨some (), r.save tx₂, [⟨request, hash⟩]⟩

/-- Notifying fails exactly when there is someone to notify and the service does not answer. -/
theorem notifyBrowserExtension_ok {o : Option Unit}
    (h : notifyBrowserExtension lib r sent = .ok o) :
    o = none ↔ (address r .browserExtension).isSome = true ∧ sent = false := by
  unfold notifyBrowserExtension at h
  split at h
  · rename_i hnone
    obtain rfl := Except.ok.inj h
    rw [hnone]
    simp
  · rename_i a hsome
    obtain ⟨_, -, h⟩ := bind_ok.mp h
    obtain ⟨_, -, h⟩ := bind_ok.mp h
    obtain ⟨_, -, h⟩ := bind_ok.mp h
    obtain rfl := Except.ok.inj h
    rw [hsome]
    cases sent <;> simp

theorem requestConfirmationOfDraft_ok {tx : Transaction} {o : Option Unit}
    (hfind : r.find tx.id = some tx)
    (h : requestConfirmationOfDraft lib r tx sent = .ok o) :
    o = none ↔ Undelivered r tx sent := by
  unfold requestConfirmationOfDraft at h
  split at h
  · rename_i hdraft
    unfold requestTransactionConfirmationIfNeeded at h
    rw [hfind, unwrap_some] at h
    obtain ⟨tx', htx', h⟩ := bind_ok.mp h
    obtain rfl := Except.ok.inj htx'
    obtain ⟨enough, henough, h⟩ := bind_ok.mp h
    have hundelivered : Undelivered r tx sent ↔
        awaitsConfirmation r tx = true ∧ sent = false := by
      rw [Undelivered, and_iff_right hdraft]
    rw [hundelivered, awaitsConfirmation, henough]
    cases enough with
    | true =>
        obtain rfl := Except.ok.inj h
        simp
    | false =>
        rw [if_neg Bool.false_ne_true] at h
        split at h
        · rename_i hnone
          obtain rfl := Except.ok.inj h
          rw [hnone]
          simp
        · rename_i a hsome
          rw [hsome]
          split at h
          · rename_i hsigned
            obtain rfl := Except.ok.inj h
            simp [hsigned]
          · rename_i hunsigned
            obtain ⟨_, -, h⟩ := bind_ok.mp h
            obtain ⟨_, -, h⟩ := bind_ok.mp h
            rw [notifyBrowserExtension_ok h, hsome]
            simp [hunsigned]
  · rename_i hdraft
    obtain rfl := Except.ok.inj h
    simp [Undelivered, hdraft]

theorem prepareSubmission_ok {tx : Transaction} {o : Option Transaction}
    (hfind : r.find id = some tx)
    (h : prepareSubmission lib metadata r id sent clock = .ok o) :
    (o = none ∧ Undelivered r tx sent) ∨
      ∃ signed, o = some signed ∧ ¬ Undelivered r tx sent ∧
        handedOver lib metadata r tx clock = .ok signed := by
  obtain rfl := Repositories.id_of_find hfind
  unfold prepareSubmission at h
  rw [hfind, unwrap_some] at h
  obtain ⟨tx', htx', h⟩ := bind_ok.mp h
  obtain rfl := Except.ok.inj htx'
  obtain ⟨requested, hrequested, h⟩ := bind_ok.mp h
  have hdelivered := requestConfirmationOfDraft_ok hfind hrequested
  cases requested with
  | none =>
      obtain rfl := Except.ok.inj h
      exact .inl ⟨rfl, hdelivered.mp rfl⟩
  | some u =>
      refine .inr ?_
      have hnot : ¬ Undelivered r tx sent := fun hundelivered =>
        Option.some_ne_none u (hdelivered.mpr hundelivered)
      simp only at h
      unfold handedOver
      split at h
      · rename_i helsewhere
        obtain rfl := Except.ok.inj h
        exact ⟨tx, rfl, hnot, if_pos helsewhere⟩
      · rename_i helsewhere
        obtain ⟨signed, hsigned, h⟩ := bind_ok.mp h
        obtain rfl := Except.ok.inj h
        exact ⟨signed, rfl, hnot, (if_neg helsewhere).trans hsigned⟩

theorem submitTransactionLogged_cases {tx : Transaction} {out : Outcome}
    (hfind : r.find id = some tx)
    (h : submitTransactionLogged lib metadata r id sent relay clock = .ok out) :
    Submitted lib metadata r tx sent relay clock out := by
  unfold submitTransactionLogged at h
  obtain ⟨prepared, hprepared, h⟩ := bind_ok.mp h
  rcases prepareSubmission_ok hfind hprepared with
    ⟨rfl, hundelivered⟩ | ⟨signed, rfl, hdelivered, hsigned⟩
  · obtain rfl := Except.ok.inj h
    exact .undelivered hundelivered
  · obtain ⟨logged, hlogged, h⟩ := bind_ok.mp h
    unfold proceedTransactionLogged at hlogged
    obtain ⟨request, hrequest, hlogged⟩ := bind_ok.mp hlogged
    cases hrelay : relay request with
    | none =>
        rw [hrelay] at hlogged
        obtain rfl := Except.ok.inj hlogged
        obtain rfl := Except.ok.inj h
        exact .refused signed request hsigned hrequest hrelay
    | some hash =>
        rw [hrelay] at hlogged
        obtain ⟨tx₁, h₁, hlogged⟩ := bind_ok.mp hlogged
        obtain ⟨tx₂, h₂, hlogged⟩ := bind_ok.mp hlogged
        obtain rfl := Except.ok.inj hlogged
        have hout : out = ⟨some (), r.save tx₂, [⟨request, hash⟩]⟩ := by
          simp only at h
          split at h
          · exact (Except.ok.inj h).symm
          · obtain ⟨_, -, h⟩ := bind_ok.mp h
            obtain ⟨_, -, h⟩ := bind_ok.mp h
            exact (Except.ok.inj h).symm
        rw [hout]
        exact .accepted signed tx₁ tx₂ request hash hdelivered hsigned hrequest hrelay h₁ h₂

/-! ### All or nothing -/

/-- A call that throws has not changed the transaction. After one that returns the relay has
accepted one submission, and the transaction is pending under the hash it answered with. -/
def AllOrNothing (r : Repositories) (id : TransactionID) (out : Outcome) : Prop :=
  match out.done with
  | none => out.repositories.find id = r.find id
  | some () =>
      ∃ request hash tx, out.accepted = [⟨request, hash⟩] ∧ out.repositories.find id = some tx ∧
        tx.status = .pending ∧ tx.transactionHash = some hash ∧ tx.submittedDate.isSome = true ∧
        tx ∈ TransactionDomainService.pendingTransactions out.repositories

/-- Signing keeps the row and its status. -/
theorem signTransaction_keeps {tx signed : Transaction}
    (h : signTransaction lib metadata r tx clock = .ok signed) :
    signed.id = tx.id ∧ signed.status = tx.status := by
  unfold signTransaction at h
  obtain ⟨_, -, h⟩ := bind_ok.mp h
  obtain ⟨_, -, h⟩ := bind_ok.mp h
  split at h
  · obtain rfl := Except.ok.inj h
    exact ⟨rfl, rfl⟩
  · obtain ⟨_, -, h⟩ := bind_ok.mp h
    obtain ⟨_, -, h⟩ := bind_ok.mp h
    obtain ⟨-, rfl⟩ := Transaction.addSignature_ok.mp h
    split <;> exact ⟨rfl, rfl⟩

theorem handedOver_keeps {tx signed : Transaction}
    (h : handedOver lib metadata r tx clock = .ok signed) :
    signed.id = tx.id ∧ signed.status = tx.status := by
  unfold handedOver at h
  split at h
  · obtain rfl := Except.ok.inj h
    exact ⟨rfl, rfl⟩
  · exact signTransaction_keeps h

/-- An accepted draft becomes a signing transaction, and a signing one a pending one. -/
theorem accepted_status {signed tx₁ tx₂ : Transaction} {hash : TransactionHash} {d₁ d₂ d₃ : Date}
    (h₁ : signed.setHash hash d₁ = .ok tx₁) (h₂ : tx₁.proceed d₂ d₃ = .ok tx₂) :
    tx₂.id = signed.id ∧
      ((signed.status = .draft ∧ tx₂.status = .signing) ∨
        (signed.status = .signing ∧ tx₂.status = .pending ∧ tx₂.transactionHash = some hash ∧
          tx₂.submittedDate = some d₂)) := by
  obtain ⟨hstatus, rfl⟩ := Transaction.setHash_ok.mp h₁
  rcases hstatus with hdraft | hsigning
  · obtain ⟨-, -, -, -, rfl⟩ := (Transaction.proceed_draft_ok (by exact hdraft)).mp h₂
    exact ⟨rfl, .inl ⟨hdraft, rfl⟩⟩
  · obtain ⟨-, rfl⟩ := (Transaction.proceed_signing_ok (by exact hsigning)).mp h₂
    exact ⟨rfl, .inr ⟨hsigning, rfl, rfl, rfl⟩⟩

theorem allOrNothing_iff {tx : Transaction} {out : Outcome}
    (hfind : r.find id = some tx)
    (h : submitTransactionLogged lib metadata r id sent relay clock = .ok out) :
    AllOrNothing r id out ↔
      (tx.status = .draft → Undelivered r tx sent ∨ Refused lib metadata r tx relay clock) := by
  have hid := Repositories.id_of_find hfind
  cases submitTransactionLogged_cases hfind h with
  | undelivered hundelivered => exact iff_of_true rfl fun _ => .inl hundelivered
  | refused signed request hsigned hrequest hrelay =>
      refine iff_of_true rfl fun _ => .inr fun signed' request' hsigned' hrequest' => ?_
      obtain rfl := Except.ok.inj (hsigned.symm.trans hsigned')
      obtain rfl := Except.ok.inj (hrequest.symm.trans hrequest')
      exact hrelay
  | accepted signed tx₁ tx₂ request hash hdelivered hsigned hrequest hrelay h₁ h₂ =>
      obtain ⟨hsame, hstatus⟩ := handedOver_keeps hsigned
      obtain ⟨hid₂, hstatus₂⟩ := accepted_status h₁ h₂
      have hstored : (r.save tx₂).find id = some tx₂ := by
        rw [← hid, ← hsame, ← hid₂]
        exact Repositories.find_save r tx₂
      rcases hstatus₂ with ⟨hdraft, hsigning⟩ | ⟨hsigning, hpending, hhash, hdate⟩
      · refine iff_of_false ?_ fun hcondition => ?_
        · intro ⟨_, _, tx', _, hstored', hpending, _⟩
          obtain rfl := Option.some.inj (hstored.symm.trans hstored')
          rw [hsigning] at hpending
          cases hpending
        · rcases hcondition (hstatus.symm.trans hdraft) with hundelivered | hrefused
          · exact hdelivered hundelivered
          · rw [hrefused signed request hsigned hrequest] at hrelay
            cases hrelay
      · refine iff_of_true ⟨request, hash, tx₂, rfl, hstored, hpending, hhash, ?_, ?_⟩ ?_
        · rw [hdate]
          rfl
        · exact List.mem_filter.mpr ⟨List.mem_of_find?_eq_some hstored, decide_eq_true hpending⟩
        · intro hdraft
          rw [← hstatus, hsigning] at hdraft
          cases hdraft

/-- A submission is all or nothing unless the relay accepts a draft. -/
theorem submitTransaction_allOrNothing_iff {tx : Transaction} {o : Option Unit} {r' : Repositories}
    (hfind : r.find id = some tx)
    (h : submitTransaction lib metadata r id sent relay clock = .ok (o, r')) :
    ∃ accepted, submitTransactionLogged lib metadata r id sent relay clock = .ok ⟨o, r', accepted⟩ ∧
      (AllOrNothing r id ⟨o, r', accepted⟩ ↔
        (tx.status = .draft → Undelivered r tx sent ∨ Refused lib metadata r tx relay clock)) := by
  rw [← submitTransactionLogged_map] at h
  cases hlogged : submitTransactionLogged lib metadata r id sent relay clock with
  | error trap =>
      rw [hlogged] at h
      cases h
  | ok out =>
      rw [hlogged] at h
      obtain ⟨rfl, rfl⟩ := Prod.mk.inj (Except.ok.inj h)
      exact ⟨out.accepted, rfl, allOrNothing_iff hfind hlogged⟩

/-! ### A draft and a signing transaction -/

/-- A wallet without a browser extension, with one transaction. -/
def singleState (status : TransactionStatus) : Repositories where
  transactions :=
    [{ id := ['t']
       type := .transfer
       walletID := ['w']
       accountID := ⟨Token.Ether.id, ['w']⟩
       status := status
       sender := some EncryptionService.confirmationSender
       recipient := some EncryptionService.confirmationRecipient
       amount := some (.ether 1)
       fee := some (.ether 1)
       hash := some (Bytes.ofNat 32 1)
       feeEstimate := some ⟨21500, 24600, 48200, .ether 1⟩
       operation := some .call
       nonce := some ['0'] }]
  wallets :=
    [{ pairedWallet with
       owners := ⟨[⟨⟨"0xedf678a5a905221f01e55f39827977be22427e91".toList⟩, .thisDevice⟩],
         show [OwnerRole.thisDevice].Nodup by decide⟩
       confirmationCount := 1 }]
  selectedWallet := some ['w']
  tokens := []
  externallyOwnedAccounts :=
    [(⟨"0xedf678a5a905221f01e55f39827977be22427e91".toList⟩, Bytes.ofNat 32 0xD31CE)]

/-- The transaction is submitted, and the relay accepts it. -/
def singleSubmission (status : TransactionStatus) : Except Trap (Option Unit × Repositories) :=
  submitTransaction reference EncryptionService.noMetadata (singleState status) ['t'] true
    (fun _ => some ⟨hexMark⟩) fun _ => 7

/-- The signing transaction is pending afterwards. -/
theorem submitTransaction_allOrNothing_signing :
    ∃ out : Outcome, singleSubmission .signing = .ok (out.done, out.repositories) ∧
      out.done = some () ∧ AllOrNothing (singleState .signing) ['t'] out := by
  have heval : ((singleSubmission .signing).toOption.any fun run => run.1 = some ()) = true := by
    decide +kernel
  obtain ⟨⟨o, r'⟩, hrun, hdone⟩ := exists_ok_of_any heval
  have hfind : (singleState .signing).find ['t'] =
      some ((singleState .signing).transactions.head (by decide)) := rfl
  obtain ⟨accepted, -, hiff⟩ := submitTransaction_allOrNothing_iff hfind hrun
  exact ⟨⟨o, r', accepted⟩, hrun, of_decide_eq_true hdone,
    hiff.mpr fun hdraft => absurd hdraft (by decide)⟩

/-- The draft has been submitted afterwards and is not pending. -/
theorem not_allOrNothing_draft :
    ∃ out, submitTransactionLogged reference EncryptionService.noMetadata (singleState .draft) ['t']
        true (fun _ => some ⟨hexMark⟩) (fun _ => 7) = .ok out ∧
      out.done = some () ∧ out.accepted.length = 1 ∧
      TransactionDomainService.pendingTransactions out.repositories = [] ∧
      ¬ AllOrNothing (singleState .draft) ['t'] out := by
  have heval : ((submitTransactionLogged reference EncryptionService.noMetadata
      (singleState .draft) ['t'] true (fun _ => some ⟨hexMark⟩) fun _ => 7).toOption.any fun out =>
        out.done = some () ∧ out.accepted.length = 1 ∧
          TransactionDomainService.pendingTransactions out.repositories = []) = true := by
    decide +kernel
  obtain ⟨out, hrun, hall⟩ := exists_ok_of_any heval
  obtain ⟨hdone, hlength, hnone⟩ := of_decide_eq_true hall
  refine ⟨out, hrun, hdone, hlength, hnone, fun h => ?_⟩
  rw [AllOrNothing, hdone] at h
  obtain ⟨_, _, tx, -, -, -, -, -, hmem⟩ := h
  rw [hnone] at hmem
  cases hmem

end WalletApplicationService

end MultisigWallet
