import MultisigWallet.RecoveryService
import MultisigWallet.RecoverySound
import MultisigWallet.SetUpSound
import MultisigWallet.TransactionSound

/-!
# MultisigWallet.RecoveryServiceSound

What a recovery leaves behind when the app is killed. `Consistent` lists the pairs of wallet
state and transaction status that `resume()` can go on from; every save keeps to the list but
three, and `Journal.Does` follows each function through its saves.

The three are the save of a submitted transaction, which the wallet's follows, and the two
saves of a wallet whose recovery is given up, which the removal of the transaction follows. A
process that dies right there leaves a pair that `resume()` refuses, or takes for a success.
-/

namespace MultisigWallet

/-! ### What the builder leaves of the wallet -/

section Builder

variable {lib : ThirdParty} {b b' : RecoveryTransactionBuilder} {w w' : Wallet} {role : OwnerRole}

namespace OwnerList

theorem first_remove (l : OwnerList) {role' : OwnerRole} (h : role' ≠ role) :
    (l.remove role).first role' = l.first role' :=
  Rows.find?_removed_of_ne Owner.role l.storage h

theorem first_add (l : OwnerList) {o : Owner} (h : role ≠ o.role) :
    (l.add o).first role = l.first role := by
  unfold add
  split
  · have hnone : [o].find? (·.role = role) = none := by simp [h.symm]
    simp only [first, append, List.find?_append, hnone, Option.or_none]
  · exact Rows.find?_replaced_of_ne Owner.role l.storage rfl h

end OwnerList

namespace RecoveryTransactionBuilder

/-- The owners this device knows the roles of, and all but the owners and the count. -/
structure SameWallet (w w' : Wallet) : Prop where
  rest : ∃ owners n, w' = { w with owners := owners, confirmationCount := n }
  owner : ∀ role, role ≠ .unknown → w'.owner role = w.owner role

theorem SameWallet.refl (w : Wallet) : SameWallet w w := ⟨⟨_, _, rfl⟩, fun _ _ => rfl⟩

theorem SameWallet.trans {w'' : Wallet} (h : SameWallet w w') (h' : SameWallet w' w'') :
    SameWallet w w'' := by
  obtain ⟨owners, n, rfl⟩ := h.rest
  obtain ⟨owners', n', rfl⟩ := h'.rest
  exact ⟨⟨owners', n', rfl⟩, fun role hrole => (h'.owner role hrole).trans (h.owner role hrole)⟩

theorem SameWallet.state (h : SameWallet w w') : w'.state = w.state := by
  obtain ⟨owners, n, rfl⟩ := h.rest
  rfl

theorem sameWallet_changeConfirmationCount (w : Wallet) (n : Int) :
    SameWallet w (w.changeConfirmationCount n) := ⟨⟨_, _, rfl⟩, fun _ _ => rfl⟩

theorem addUnknownOwners_same : ∀ {addresses : List Address} {w w' : Wallet},
    addUnknownOwners w addresses = .ok w' → SameWallet w w'
  | [], w, w', h => Except.ok.inj h ▸ SameWallet.refl w
  | a :: addresses, w, w', h => by
      obtain ⟨w₁, h₁, h⟩ := bind_ok.mp h
      obtain rfl := Wallet.addOwner_eq_ok h₁
      have hadded : SameWallet w { w with owners := w.owners.add ⟨a, .unknown⟩ } :=
        ⟨⟨_, _, rfl⟩, fun role hrole => OwnerList.first_add _ hrole⟩
      exact hadded.trans (addUnknownOwners_same h)

/-- `pullData()`: only a wallet whose owners can change gets past it. -/
theorem pullData_same {multiSend : Address} {id : TransactionID} {answers : Option (Data × Data)}
    {now : Date} (h : pullData lib w multiSend id answers now = .ok b) :
    SameWallet w b.wallet ∧ w.state.canChangeOwners = true ∧
      b.oldScheme.confirmations = b.wallet.confirmationCount ∧
      b.newScheme = newWalletScheme b.wallet := by
  unfold pullData at h
  obtain ⟨_, -, h⟩ := bind_ok.mp h
  obtain ⟨_, -, h⟩ := bind_ok.mp h
  obtain ⟨_, -, h⟩ := bind_ok.mp h
  obtain ⟨w₁, h₁, h⟩ := bind_ok.mp h
  have hcan : w.state.canChangeOwners = true := by
    obtain ⟨_, hassert, -⟩ := bind_ok.mp h₁
    unfold Wallet.assertCanChangeOwners at hassert
    split at hassert
    · assumption
    · exact nomatch hassert
  obtain rfl := Wallet.removeOwner_eq_ok h₁
  split at h
  · exact nomatch h
  · obtain ⟨_, -, h⟩ := bind_ok.mp h
    obtain ⟨w₂, h₂, h⟩ := bind_ok.mp h
    obtain ⟨n, -, h⟩ := bind_ok.mp h
    obtain ⟨_, -, h⟩ := bind_ok.mp h
    obtain rfl := Except.ok.inj h
    have hremoved : SameWallet w { w with owners := w.owners.remove .unknown } :=
      ⟨⟨_, _, rfl⟩, fun role hrole => OwnerList.first_remove _ hrole⟩
    exact ⟨(hremoved.trans (addUnknownOwners_same h₂)).trans
      (sameWallet_changeConfirmationCount w₂ n), hcan, rfl, rfl⟩

/-! ### The count after the calls are built -/

variable {data : Data} {datas : List Data}

theorem swapOwnerData_wallet (h : b.swapOwnerData lib role = .ok (data, b')) :
    b'.wallet = b.wallet ∧ b'.newScheme = b.newScheme := by
  obtain ⟨-, owners, l, rfl⟩ := swapOwnerData_fields h
  exact ⟨rfl, rfl⟩

theorem addOwnerData_wallet (h : b.addOwnerData lib role = .ok (data, b')) :
    b'.wallet = b.wallet.changeConfirmationCount b.newScheme.confirmations ∨
      b'.wallet = b.wallet ∧ ∃ o, b.wallet.owner role = some o ∧
        b.ownerList.contains o.address = true := by
  obtain ⟨-, ⟨rfl, hthere⟩ | ⟨l, rfl⟩⟩ := addOwnerData_fields h
  · exact .inr ⟨rfl, hthere⟩
  · exact .inl rfl

theorem removeOwnerData_wallet (h : b.removeOwnerData lib = .ok (data, b')) :
    b'.wallet = b.wallet.changeConfirmationCount b.newScheme.confirmations := by
  obtain ⟨-, owners, l, rfl⟩ := removeOwnerData_fields h
  rfl

/-- The new owner is among the owners the contract will have after the first call. -/
def AlreadyOwner (lib : ThirdParty) (b : RecoveryTransactionBuilder) : Prop :=
  ∃ data b₁ o, b.swapOwnerData lib .thisDevice = .ok (data, b₁) ∧
    b.wallet.owner .browserExtension = some o ∧ b₁.ownerList.contains o.address = true

/-- The count of the new scheme, unless the schemes agree or the new owner is there. -/
theorem callsData_wallet (h : b.callsData lib = .ok (datas, b')) :
    b'.wallet = b.wallet.changeConfirmationCount b.newScheme.confirmations ∨
      b'.wallet = b.wallet ∧ (b.oldScheme = b.newScheme ∨ AlreadyOwner lib b) := by
  cases callsData_called h with
  | swapped hschemes h =>
      exact .inr ⟨(swapOwnerData_wallet h).1, .inl (hschemes.1.trans hschemes.2.symm)⟩
  | added hschemes h₁ h₂ =>
      obtain ⟨hwallet, hscheme⟩ := swapOwnerData_wallet h₁
      rcases addOwnerData_wallet h₂ with hcount | ⟨hsame, o, ho, hcontains⟩
      · exact .inl (by rw [hcount, hwallet, hscheme])
      · exact .inr ⟨hsame.trans hwallet, .inr ⟨_, _, o, h₁, hwallet ▸ ho, hcontains⟩⟩
  | removed hschemes h₁ h₂ =>
      obtain ⟨hwallet, hscheme⟩ := swapOwnerData_wallet h₁
      exact .inl (by rw [removeOwnerData_wallet h₂, hwallet, hscheme])
  | swappedTwice hschemes h₁ h₂ =>
      refine .inr ⟨?_, .inl (hschemes.1.trans hschemes.2.symm)⟩
      rw [(swapOwnerData_wallet h₂).1, (swapOwnerData_wallet h₁).1]

theorem buildTransactionData_wallet {now : Date} (h : b.buildTransactionData lib datas now = .ok b') :
    b'.wallet = b.wallet := by
  unfold buildTransactionData at h
  obtain ⟨_, -, h⟩ := bind_ok.mp h
  split at h
  · obtain ⟨_, -, h⟩ := bind_ok.mp h
    obtain ⟨_, -, h⟩ := bind_ok.mp h
    obtain ⟨_, -, h⟩ := bind_ok.mp h
    obtain rfl := Except.ok.inj h
    rfl
  · obtain ⟨_, -, h⟩ := bind_ok.mp h
    obtain ⟨_, -, h⟩ := bind_ok.mp h
    obtain ⟨_, -, h⟩ := bind_ok.mp h
    obtain rfl := Except.ok.inj h
    rfl
  · obtain ⟨_, -, h⟩ := bind_ok.mp h
    obtain ⟨_, -, h⟩ := bind_ok.mp h
    obtain ⟨_, -, h⟩ := bind_ok.mp h
    obtain ⟨_, -, h⟩ := bind_ok.mp h
    obtain rfl := Except.ok.inj h
    rfl

end RecoveryTransactionBuilder

end Builder

namespace RecoveryDomainService

variable {lib : ThirdParty} {metadata : SafeContractMetadata} {answers : ContractAnswers}
  {d d' : Device} {b b' : RecoveryTransactionBuilder} {tx tx' : Transaction} {now : Date}

open RecoveryTransactionBuilder (SameWallet sameWallet_changeConfirmationCount)

/-! ### The transaction that is built -/

theorem calculateFees_same {tokens : List Token} {response : EstimateTransactionResponse}
    (h : calculateFees b tokens response now = .ok b') :
    b'.wallet = b.wallet ∧ b'.oldScheme = b.oldScheme := by
  unfold calculateFees at h
  obtain ⟨_, -, h⟩ := bind_ok.mp h
  obtain ⟨_, -, h⟩ := bind_ok.mp h
  obtain ⟨_, -, h⟩ := bind_ok.mp h
  obtain ⟨_, -, h⟩ := bind_ok.mp h
  obtain rfl := Except.ok.inj h
  exact ⟨rfl, rfl⟩

theorem sealTransaction_same {stored : Wallet}
    (h : sealTransaction lib metadata b stored now = .ok b') :
    b'.wallet = b.wallet ∧ b'.transaction.status = .signing := by
  unfold sealTransaction at h
  obtain ⟨hash, -, h⟩ := bind_ok.mp h
  obtain ⟨tx, htx, h⟩ := bind_ok.mp h
  obtain ⟨tx', htx', h⟩ := bind_ok.mp h
  obtain rfl := Except.ok.inj h
  obtain ⟨hdraft, hchanged⟩ := Transaction.change_ok.mp htx
  have hstatus : tx.status = .draft := by
    rw [← hchanged]
    exact hdraft
  obtain ⟨-, -, -, -, rfl⟩ := (Transaction.proceed_draft_ok hstatus).mp htx'
  exact ⟨rfl, rfl⟩

theorem addSignature_status {s : Signature} (h : tx.addSignature s now = .ok tx') :
    tx'.status = tx.status := by
  obtain ⟨-, rfl⟩ := Transaction.addSignature_ok.mp h
  split <;> rfl

theorem signWith_same {role : OwnerRole} (h : signWith lib metadata b d role now = .ok b') :
    b'.wallet = b.wallet ∧ b'.transaction.status = b.transaction.status ∧
      ∃ o, b.wallet.owner role = some o ∧ (d.privateKey o.address).isSome = true := by
  unfold signWith at h
  obtain ⟨o, ho, h⟩ := bind_ok.mp h
  obtain ⟨privateKey, hkey, h⟩ := bind_ok.mp h
  obtain ⟨_, -, h⟩ := bind_ok.mp h
  obtain ⟨tx, htx, h⟩ := bind_ok.mp h
  obtain rfl := Except.ok.inj h
  exact ⟨rfl, addSignature_status htx, o, unwrap_ok.mp ho,
    Option.isSome_iff_exists.mpr ⟨privateKey, unwrap_ok.mp hkey⟩⟩

theorem sign_same (h : sign lib metadata b d now = .ok b') :
    b'.wallet = b.wallet ∧ b'.transaction.status = b.transaction.status ∧
      ∃ o, b.wallet.owner .paperWallet = some o ∧ (d.privateKey o.address).isSome = true := by
  unfold sign at h
  obtain ⟨b₁, h₁, h⟩ := bind_ok.mp h
  obtain ⟨hwallet, hstatus, hkey⟩ := signWith_same h₁
  split at h
  · obtain ⟨hwallet', hstatus', -⟩ := signWith_same h
    exact ⟨hwallet'.trans hwallet, hstatus'.trans hstatus, hkey⟩
  · obtain rfl := Except.ok.inj h
    exact ⟨hwallet, hstatus, hkey⟩

/-- What the builder leaves when it gets as far as saving. -/
structure Built (lib : ThirdParty) (d : Device) (b : RecoveryTransactionBuilder) : Prop where
  wallet : SameWallet d.wallet b.wallet
  state : d.wallet.state.canChangeOwners = true
  status : b.transaction.status = .signing
  /-- The key of the recovery phrase is on the device. -/
  key : ∃ o, d.wallet.owner .paperWallet = some o ∧ (d.privateKey o.address).isSome = true
  /-- The count is that of the scheme the wallet is to have, but for a corner. -/
  count : b.wallet.confirmationCount =
      (RecoveryTransactionBuilder.newWalletScheme d.wallet).confirmations ∨
    ∃ pulled, RecoveryTransactionBuilder.AlreadyOwner lib pulled ∧
      SameWallet d.wallet pulled.wallet

/-- What the builder goes through until it is saved. Of its wallet, only the calls change
something. -/
theorem build_steps {tokens : List Token} {id : TransactionID}
    (h : build lib metadata d tokens id answers now = .ok (some b)) :
    ∃ pulled datas called,
      RecoveryTransactionBuilder.pullData lib d.wallet metadata.multiSendContractAddress id
        (answers.owners.bind fun owners => answers.threshold.map fun threshold =>
          (owners, threshold)) now = .ok pulled ∧
      pulled.callsData lib = .ok (datas, called) ∧ b.wallet = called.wallet ∧
      b.transaction.status = .signing ∧
      ∃ o, b.wallet.owner .paperWallet = some o ∧ (d.privateKey o.address).isSome = true := by
  unfold build at h
  obtain ⟨pulled, hpulled, h⟩ := bind_ok.mp h
  split at h
  · obtain ⟨built, hbuilt, h⟩ := bind_ok.mp h
    obtain ⟨response, -, h⟩ := bind_ok.mp h
    split at h
    · exact nomatch Except.ok.inj h
    · obtain ⟨priced, hpriced, h⟩ := bind_ok.mp h
      obtain ⟨sealed, hsealed, h⟩ := bind_ok.mp h
      obtain ⟨signed, hsigned, h⟩ := bind_ok.mp h
      obtain rfl := Option.some.inj (Except.ok.inj h)
      obtain ⟨⟨datas, called⟩, hcalled, hbuilt⟩ := bind_ok.mp hbuilt
      obtain ⟨hsignedWallet, hstatus, hkey⟩ := sign_same hsigned
      obtain ⟨hsealedWallet, hsealedStatus⟩ := sealTransaction_same hsealed
      have hwallet : signed.wallet = called.wallet := by
        rw [hsignedWallet, hsealedWallet, (calculateFees_same hpriced).1,
          RecoveryTransactionBuilder.buildTransactionData_wallet hbuilt]
      rw [← hsignedWallet] at hkey
      exact ⟨pulled, datas, called, hpulled, hcalled, hwallet, hstatus.trans hsealedStatus, hkey⟩
  · exact nomatch Except.ok.inj h

theorem build_built {tokens : List Token} {id : TransactionID}
    (h : build lib metadata d tokens id answers now = .ok (some b)) : Built lib d b := by
  obtain ⟨pulled, datas, called, hpulled, hcalled, hwallet, hstatus, o, ho, hkey⟩ := build_steps h
  obtain ⟨hsame, hcan, hold, hnew⟩ := RecoveryTransactionBuilder.pullData_same hpulled
  have hcalledSame : SameWallet pulled.wallet called.wallet := by
    rcases RecoveryTransactionBuilder.callsData_wallet hcalled with hcount | ⟨hcount, -⟩
    · exact hcount ▸ sameWallet_changeConfirmationCount _ _
    · exact hcount ▸ SameWallet.refl _
  have hbuilt : SameWallet d.wallet b.wallet := hwallet ▸ hsame.trans hcalledSame
  have hscheme : pulled.newScheme.confirmations =
      (RecoveryTransactionBuilder.newWalletScheme d.wallet).confirmations := by
    rw [hnew, RecoveryTransactionBuilder.newWalletScheme, hsame.owner .browserExtension (by decide)]
    rfl
  refine ⟨hbuilt, hcan, hstatus, ⟨o, ?_, hkey⟩, ?_⟩
  · rw [← hbuilt.owner .paperWallet (by decide)]
    exact ho
  · rw [hwallet]
    rcases RecoveryTransactionBuilder.callsData_wallet hcalled with
      hcount | ⟨hcount, hschemes | halready⟩
    · exact .inl (by rw [hcount, ← hscheme]; rfl)
    · exact .inl (by rw [hcount, ← hold, hschemes, hscheme])
    · exact .inr ⟨pulled, halready, hsame⟩

/-! ### Pairs that a recovery can go on from -/

/-- The wallet states and transaction statuses that go together. -/
def consistent : WalletState → Option TransactionStatus → Bool
  | .recoveryDraft, none => true
  | .recoveryDraft, some .signing => true
  | .recoveryInProgress, none => true
  | .recoveryInProgress, some .pending => true
  | .recoveryInProgress, some .success => true
  | .recoveryInProgress, some .failed => true
  | .recoveryPostProcessing, none => true
  | .recoveryPostProcessing, some .success => true
  | .readyToUse, none => true
  | .readyToUse, some .signing => true
  | .readyToUse, some .success => true
  | _, _ => false

/-- The status of the recovery transaction, if there is one. -/
def status? (d : Device) : Option TransactionStatus := d.transaction.map (·.status)

/-- The pair is one to go on from, and the wallet got ready by transactions that succeeded. -/
structure Resumable (d : Device) : Prop where
  consistent : consistent d.wallet.state (status? d) = true
  readied : ∀ status ∈ d.readied, status = some .success

/-- `resume()` refuses a consistent pair only when the recovery is over. -/
theorem branch_consistent {state : WalletState} {status : TransactionStatus}
    (h : consistent state (some status) = true) : branch state status = none ↔ state = .readyToUse := by
  revert h
  cases state <;> cases status <;> decide

/-- A store without its transaction. -/
theorem consistent_none {state : WalletState} {status : Option TransactionStatus}
    (h : consistent state status = true) : consistent state none = true := by
  revert h
  cases state <;> cases status <;> first | exact id | (rename_i status; cases status <;> decide)

theorem Resumable.removed (h : Resumable d) : Resumable { d with transaction := none } :=
  ⟨consistent_none h.consistent, h.readied⟩

theorem readied_saveWallet {w : Wallet} (h : w.state ≠ .readyToUse) :
    (d.saveWallet w).readied = d.readied :=
  if_neg fun hready => h hready.1

/-- A wallet is saved that is not ready, or was ready before, or is ready by a success. -/
theorem Resumable.saveWallet {w : Wallet} (hreadied : ∀ status ∈ d.readied, status = some .success)
    (hconsistent : RecoveryDomainService.consistent w.state (status? d) = true)
    (hready : w.state = .readyToUse → d.wallet.state = .readyToUse ∨ status? d = some .success) :
    Resumable (d.saveWallet w) := by
  refine ⟨hconsistent, ?_⟩
  intro status hstatus
  unfold Device.saveWallet at hstatus
  simp only at hstatus
  split at hstatus
  · rename_i hbecomes
    rcases List.mem_append.mp hstatus with hstatus | hstatus
    · exact hreadied status hstatus
    · rw [List.mem_singleton.mp hstatus]
      exact (hready hbecomes.1).resolve_left hbecomes.2
  · exact hreadied status hstatus

/-- A wallet is saved in the state it is stored in. -/
theorem Resumable.resaved {w : Wallet} (h : Resumable d) (hstate : w.state = d.wallet.state) :
    Resumable (d.saveWallet w) :=
  Resumable.saveWallet h.readied (hstate ▸ h.consistent) fun hready => .inl (hstate ▸ hready)

/-- A call leaves a resumable store behind, wherever it is cut but at the three points. -/
abbrev Leaves {α : Type} (call : Saving α) (d : Device) (post : α → Device → Prop) : Prop :=
  Journal.Does call d post (fun point d' => point = .other → Resumable d')
    fun _ d' => Resumable d'

/-! ### Saves -/

variable {m : Moved} {α : Type} {point : SavePoint} {post : α → Device → Prop}

theorem eq_removed (h : d.transaction = none) : d = { d with transaction := none } := by
  rw [← h]

theorem leaves_removeTransaction (h : Resumable { d with transaction := none }) :
    Leaves removeTransaction d fun _ d' => d' = { d with transaction := none } := by
  refine Journal.Does.get_bind ?_
  split
  · exact Journal.Does.modify (fun _ => h) rfl
  · rename_i hnone
    exact Journal.Does.pure (eq_removed hnone)

/-- Outside of the first deposit `proceed()` does not look at the balance. -/
theorem proceed_eq {w : Wallet} (h : w.state ≠ .waitingForFirstDeposit) :
    w.proceed none = .ok ⟨{ w with state := w.state.proceed false }, w.state ≠ .readyToUse,
      w.state.proceedEvent false⟩ := by
  have hfunded : w.isFunded none = .ok false := by
    unfold Wallet.isFunded
    split
    · exact absurd ‹_› h
    · rfl
  rw [Wallet.proceed, hfunded]
  rfl

/-- `proceed()` of a wallet in a recovery moves it on and saves it. -/
theorem proceed_recovery {w : Wallet}
    (hstate : w.state = .recoveryDraft ∨ w.state.isRecoveryInProgress = true)
    (hm : w.proceed none = .ok m) :
    m.saved = true ∧ m.wallet = { w with state := w.state.proceed false } := by
  have hne : w.state ≠ .waitingForFirstDeposit ∧ w.state ≠ .readyToUse := by
    revert hstate
    cases w.state <;> decide
  rw [proceed_eq hne.1] at hm
  obtain rfl := Except.ok.inj hm
  exact ⟨decide_eq_true hne.2, rfl⟩

theorem cancel_recovery {w : Wallet} (hstate : w.state.isRecoveryInProgress = true) :
    w.cancel.saved = true ∧ w.cancel.wallet.state = .recoveryDraft := by
  cases hs : w.state <;> rw [hs] at hstate <;> cases hstate
  all_goals simp [Wallet.cancel, hs, WalletState.cancel]

theorem leaves_perform {f : Wallet → Saving α} (hsaved : m.saved = true)
    (hcrash : point = .other → Resumable (d.saveWallet m.wallet))
    (h : Leaves (f m.wallet) (d.saveWallet m.wallet) post) :
    Leaves (Saving.perform point m >>= f) d post := by
  have hperform : Leaves (Saving.perform point m) d fun w d' =>
      w = m.wallet ∧ d' = d.saveWallet m.wallet := by
    rw [Saving.perform, if_pos hsaved]
    exact Journal.Does.modify_bind hcrash (Journal.Does.pure ⟨rfl, rfl⟩)
  refine hperform.bind ?_
  rintro w d' ⟨rfl, rfl⟩
  exact h

/-! ### Finishing and cancelling -/

/-- Giving a recovery up ends well wherever it starts: once the transaction is gone. -/
theorem leaves_cancelRecovery (h : Resumable { d with transaction := none }) :
    Leaves cancelRecovery d fun _ d' => Resumable d' := by
  refine (leaves_removeTransaction h).bind ?_
  rintro _ _ rfl
  have hsaved : Resumable ({ d with transaction := none } |>.saveWallet
      d.wallet.reset.prepareForRecovery) :=
    Resumable.saveWallet h.readied rfl nofun
  exact Journal.Does.get_bind (Journal.Does.modify (fun _ => hsaved) hsaved)

/-- The wallet goes back to the draft before its transaction is removed. -/
theorem leaves_cancel (hstate : d.wallet.state.isRecoveryInProgress = true)
    (hreadied : ∀ status ∈ d.readied, status = some .success) :
    Leaves (do
      let _ ← Saving.perform .recoveryCancelled d.wallet.cancel
      cancelRecovery) d fun _ d' => Resumable d' := by
  obtain ⟨hsaved, hdraft⟩ := cancel_recovery hstate
  refine leaves_perform hsaved nofun (leaves_cancelRecovery ?_)
  have hready : d.wallet.cancel.wallet.state ≠ .readyToUse := by
    rw [hdraft]
    decide
  refine ⟨?_, ?_⟩
  · show consistent d.wallet.cancel.wallet.state none = true
    rw [hdraft]
    rfl
  · intro status hstatus
    exact hreadied status (readied_saveWallet hready ▸ hstatus)

theorem leaves_postProcessing (h : Resumable d)
    (hstate : d.wallet.state = .recoveryPostProcessing) (hsuccess : status? d = some .success) :
    Leaves (postProcessing lib answers) d fun _ d' => Resumable d' := by
  have hrecovering : d.wallet.state.isRecoveryInProgress = true := by
    rw [hstate]
    rfl
  have herr : ∀ {β : Type} {x : Except Trap β}, ∀ e, x = .error e → Resumable d := fun _ _ => h
  refine Journal.Does.get_bind ?_
  refine Journal.Does.lift_bind (fun _ _ => ?_) herr
  refine Journal.Does.lift_bind (fun _ _ => ?_) herr
  refine Journal.Does.lift_bind (fun recovered _ => ?_) herr
  cases recovered with
  | false => exact leaves_cancel hrecovering h.readied
  | true =>
      refine Journal.Does.lift_bind (fun paperWallet _ => ?_) herr
      have h₁ : Resumable (d.removeAccount paperWallet.address) := ⟨h.consistent, h.readied⟩
      refine Journal.Does.modify_bind (fun _ => h₁) ?_
      refine Journal.Does.lift_bind (fun derived _ => ?_) fun _ _ => h₁
      have h₂ : Resumable ((d.removeAccount paperWallet.address).removeAccount derived.address) :=
        ⟨h.consistent, h.readied⟩
      refine Journal.Does.modify_bind (fun _ => h₂) ?_
      refine Journal.Does.lift_bind (fun m hm => ?_) fun _ _ => h₂
      obtain ⟨hsaved, hm⟩ := proceed_recovery (.inr hrecovering) hm
      have hready : m.wallet.state = .readyToUse := by
        rw [hm, hstate]
        rfl
      have h₃ : Resumable (((d.removeAccount paperWallet.address).removeAccount
          derived.address).saveWallet m.wallet) := by
        refine Resumable.saveWallet h.readied ?_ fun _ => .inr hsuccess
        show consistent m.wallet.state (status? d) = true
        rw [hready, hsuccess]
        rfl
      refine leaves_perform hsaved (fun _ => h₃) ?_
      refine Journal.Does.lift_bind (fun w hw => ?_) fun _ _ => h₃
      obtain rfl := Wallet.removeOwner_eq_ok hw
      have h₄ := Resumable.saveWallet (w := { m.wallet with owners := m.wallet.owners.remove .unknown })
        h₃.readied h₃.consistent fun _ => .inl hready
      exact Journal.Does.modify (fun _ => h₄) h₄

/-- `wallet` is the object of the caller; what is stored may be another one. -/
theorem leaves_handleTransactionProgress {w : Wallet} (h : Resumable d)
    (htx : d.transaction = some tx) (hstate : w.state = .recoveryInProgress) :
    Leaves (handleTransactionProgress lib tx w answers) d fun _ d' => Resumable d' := by
  have hrecovering : w.state.isRecoveryInProgress = true := by
    rw [hstate]
    rfl
  have hstatus : status? d = some tx.status := by
    rw [status?, htx]
    rfl
  unfold handleTransactionProgress
  split
  · rename_i hsuccess
    refine Journal.Does.lift_bind (fun m hm => ?_) fun _ _ => h
    obtain ⟨hsaved, hm⟩ := proceed_recovery (.inr hrecovering) hm
    have hpost : m.wallet.state = .recoveryPostProcessing := by
      rw [hm, hstate]
      rfl
    have h₁ : Resumable (d.saveWallet m.wallet) := by
      refine Resumable.saveWallet h.readied ?_ fun hready => nomatch hpost.symm.trans hready
      rw [hpost, hstatus, hsuccess]
      rfl
    exact leaves_perform hsaved (fun _ => h₁)
      (leaves_postProcessing h₁ hpost (hstatus.trans (congrArg some hsuccess)))
  · split
    · refine Journal.Does.lift_bind (fun m hm => ?_) fun _ _ => h
      obtain ⟨hsaved, hm⟩ := proceed_recovery (.inr hrecovering) hm
      have hpost : m.wallet.state = .recoveryPostProcessing := by
        rw [hm, hstate]
        rfl
      refine leaves_perform hsaved nofun ?_
      refine leaves_cancel (d := d.saveWallet m.wallet) ?_ ?_
      · show m.wallet.state.isRecoveryInProgress = true
        rw [hpost]
        rfl
      · rw [readied_saveWallet (hpost ▸ by decide)]
        exact h.readied
    · exact Journal.Does.pure h

/-! ### Submitting and resuming -/

/-- What a call returns to the app: a store to go on from, and wallet objects that wait for
the transaction. -/
def Returned (subscription : Option Wallet) (d' : Device) : Prop :=
  Resumable d' ∧ ∀ w ∈ subscription, w.state = .recoveryInProgress

theorem returned_none (h : Resumable d) : Returned none d :=
  ⟨h, fun w hw => absurd hw (Option.not_mem_none w)⟩

theorem leaves_subscribe (h : Resumable d)
    (hstate : d.wallet.state = .recoveryInProgress) :
    Leaves subscribeForTransactionProcessing d Returned := by
  refine Journal.Does.get_bind (Journal.Does.lift_bind (fun t _ => ?_) fun _ _ => h)
  split
  · exact Journal.Does.pure ⟨h, fun w hw => Option.some.inj hw ▸ hstate⟩
  · exact Journal.Does.pure (returned_none h)

theorem leaves_submit {clock : Clock} (h : Resumable d) (htx : d.transaction = some tx)
    (hsigning : tx.status = .signing) (hstate : d.wallet.state = .recoveryDraft) :
    Leaves (submitRecoveryTransaction lib answers clock) d Returned := by
  refine Journal.Does.get_bind (Journal.Does.lift_bind (fun t ht => ?_) fun _ _ => h)
  obtain rfl := Option.some.inj (htx.symm.trans (unwrap_ok.mp ht))
  refine Journal.Does.lift_bind (fun request _ => ?_) fun _ _ => h
  split
  · exact Journal.Does.pure (returned_none h)
  · refine Journal.Does.lift_bind (fun t₁ h₁ => ?_) fun _ _ => h
    refine Journal.Does.lift_bind (fun t₂ h₂ => ?_) fun _ _ => h
    obtain ⟨-, hhash⟩ := Transaction.setHash_ok.mp h₁
    have hsigning₁ : t₁.status = .signing := by
      rw [← hhash]
      exact hsigning
    obtain ⟨-, hproceeded⟩ := (Transaction.proceed_signing_ok hsigning₁).mp h₂
    have hpending : t₂.status = .pending := by
      rw [← hproceeded]
      rfl
    -- a process that dies here leaves a submitted transaction and a draft
    refine Journal.Does.modify_bind nofun ?_
    refine Journal.Does.lift_bind (fun m hm => ?_) fun e he => ?_
    · obtain ⟨hsaved, hm⟩ := proceed_recovery (.inl hstate) hm
      have hprogress : m.wallet.state = .recoveryInProgress := by
        rw [hm, hstate]
        rfl
      have hne : m.wallet.state ≠ .readyToUse := by
        rw [hprogress]
        decide
      have hconsistent : consistent m.wallet.state (some t₂.status) = true := by
        rw [hprogress, hpending]
        rfl
      have h₁ : Resumable ({ d with transaction := some t₂ } |>.saveWallet m.wallet) :=
        Resumable.saveWallet h.readied hconsistent fun hready => absurd hready hne
      have h₂ := Resumable.saveWallet (w := m.wallet) h₁.readied hconsistent
        fun hready => absurd hready hne
      exact leaves_perform hsaved (fun _ => h₁)
        (Journal.Does.modify_bind (fun _ => h₂) (leaves_subscribe h₂ hprogress))
    · rw [proceed_eq (by rw [hstate]; decide)] at he
      exact nomatch he

/-- Without a branch, `resume()` stops the app before it saves anything. -/
theorem resume_refused {clock : Clock} (htx : d.transaction = some tx)
    (hbranch : branch d.wallet.state tx.status = none) :
    (resume lib answers clock d).result =
      .error (.preconditionFailure "Invalid wallet and transaction state") := by
  have hdoes : Journal.Does (resume lib answers clock) d (fun _ _ => False) (fun _ _ => True)
      fun e _ => e = .preconditionFailure "Invalid wallet and transaction state" := by
    refine Journal.Does.get_bind (Journal.Does.lift_bind (fun t ht => ?_) fun e he => ?_)
    · obtain rfl := Option.some.inj (htx.symm.trans (unwrap_ok.mp ht))
      rw [hbranch]
      exact Journal.Does.fail rfl
    · rw [htx] at he
      exact nomatch he
  cases hresult : (resume lib answers clock d).result with
  | ok subscription => exact (hdoes.returns subscription hresult).elim
  | error e => exact congrArg Except.error (hdoes.stops e hresult)

/-- A submission starts from a draft, post-processing and the subscription from where the
recovery is. -/
theorem branch_state {state : WalletState} {status : TransactionStatus} {branch : Branch}
    (hbranch : RecoveryDomainService.branch state status = some branch)
    (h : consistent state (some status) = true) :
    match branch with
    | .submit => status = .signing ∧ state = .recoveryDraft
    | .postProcess => status = .success ∧ state = .recoveryPostProcessing
    | .subscribe => state = .recoveryInProgress
    | .handleProgress => state = .recoveryInProgress := by
  revert hbranch h
  cases state <;> cases status <;> cases branch <;> decide

theorem leaves_resume {clock : Clock} (h : Resumable d) :
    Leaves (resume lib answers clock) d Returned := by
  refine Journal.Does.get_bind (Journal.Does.lift_bind (fun tx htx => ?_) fun _ _ => h)
  have htx := unwrap_ok.mp htx
  have hstatus : status? d = some tx.status := by
    rw [status?, htx]
    rfl
  have hconsistent : consistent d.wallet.state (some tx.status) = true := hstatus ▸ h.consistent
  split
  · rename_i hbranch
    obtain ⟨hsigning, hstate⟩ := branch_state hbranch hconsistent
    exact leaves_submit h htx hsigning hstate
  · rename_i hbranch
    obtain ⟨hsuccess, hstate⟩ := branch_state hbranch hconsistent
    refine (leaves_postProcessing h hstate (hsuccess ▸ hstatus)).bind ?_
    intro _ d' h'
    exact Journal.Does.pure (returned_none h')
  · rename_i hbranch
    exact leaves_subscribe h (branch_state hbranch hconsistent)
  · rename_i hbranch
    refine (leaves_handleTransactionProgress h htx (branch_state hbranch hconsistent)).bind ?_
    intro _ d' h'
    exact Journal.Does.pure (returned_none h')
  · exact Journal.Does.fail h

theorem leaves_createRecoveryTransaction {tokens : List Token} {id : TransactionID}
    (h : Resumable d) :
    Leaves (createRecoveryTransaction lib metadata tokens id answers now) d
      fun _ d' => Resumable d' := by
  refine (leaves_removeTransaction h.removed).bind ?_
  rintro _ _ rfl
  refine Journal.Does.get_bind (Journal.Does.lift_bind (fun built hbuilt => ?_)
    fun _ _ => h.removed)
  split
  · exact Journal.Does.pure h.removed
  · rename_i b
    have hb := build_built hbuilt
    -- owners change in drafts and in wallets that are ready, and of the former only one is
    -- consistent
    have hsigning : consistent d.wallet.state (some .signing) = true := by
      have hcan : d.wallet.state.canChangeOwners = true := hb.state
      have hconsistent := h.removed.consistent
      revert hcan hconsistent
      show _ → consistent d.wallet.state none = true → _
      cases d.wallet.state <;> decide
    have hstate : b.wallet.state = d.wallet.state := hb.wallet.state
    have h₁ : Resumable { d with transaction := some b.transaction } := by
      refine ⟨?_, h.readied⟩
      show consistent d.wallet.state (some b.transaction.status) = true
      rw [hb.status]
      exact hsigning
    have h₂ : Resumable ({ d with transaction := some b.transaction } |>.saveWallet b.wallet) := by
      refine Resumable.saveWallet h.readied ?_ fun hready => .inl (hstate ▸ hready)
      rw [hstate]
      exact h₁.consistent
    exact Journal.Does.modify_bind (fun _ => h₁) (Journal.Does.modify (fun _ => h₂) h₂)

theorem leaves_updatePendingTransaction {succeeded : Bool} {date : Date} {clock : Clock}
    (h : Resumable d) :
    Leaves (updatePendingTransaction succeeded date clock) d fun _ d' => Resumable d' := by
  refine Journal.Does.get_bind ?_
  split
  · exact Journal.Does.pure h
  · rename_i tx htx
    split
    · rename_i hpending
      refine Journal.Does.lift_bind (fun t ht => ?_) fun _ _ => h
      have hconsistent : consistent d.wallet.state (some .pending) = true := by
        have hstatus : status? d = some .pending := by
          rw [status?, htx]
          exact congrArg some hpending
        exact hstatus ▸ h.consistent
      have hprogress : d.wallet.state = .recoveryInProgress := by
        revert hconsistent
        cases d.wallet.state <;> decide
      have hdone : t.status = .success ∨ t.status = .failed := by
        cases succeeded with
        | true =>
            simp only [if_true, Transaction.succeed, hpending] at ht
            exact .inl (Except.ok.inj ht ▸ rfl)
        | false =>
            simp only [Bool.false_eq_true, if_false, Transaction.fail, hpending] at ht
            exact .inr (Except.ok.inj ht ▸ rfl)
      have h' : Resumable { d with
          transaction := some ((t.timestampProcessed date).timestampUpdated (clock 2)) } := by
        refine ⟨?_, h.readied⟩
        show consistent d.wallet.state (some t.status) = true
        rw [hprogress]
        rcases hdone with hdone | hdone <;> rw [hdone] <;> rfl
      exact Journal.Does.modify (fun _ => h') h'
    · exact Journal.Does.pure h

theorem leaves_transactionStatusUpdated {w : Wallet} (h : Resumable d)
    (hstate : w.state = .recoveryInProgress) :
    Leaves (transactionStatusUpdated lib w answers) d fun _ d' => Resumable d' := by
  refine Journal.Does.get_bind ?_
  split
  · exact Journal.Does.pure h
  · rename_i tx htx
    split
    · exact Journal.Does.pure h
    · refine (leaves_handleTransactionProgress h htx hstate).bind ?_
      intro _ d' h'
      exact Journal.Does.pure h'

/-! ### The owners before the recovery -/

theorem leaves_pullWalletData (h : Resumable d) :
    Leaves (pullWalletData lib answers) d fun _ d' => Resumable d' := by
  have herr : ∀ {β : Type} {x : Except Trap β}, ∀ e, x = .error e → Resumable d := fun _ _ => h
  refine Journal.Does.get_bind (Journal.Does.lift_bind (fun _ _ => ?_) herr)
  split
  · refine Journal.Does.lift_bind (fun existingOwnerAddresses _ => ?_) herr
    refine Journal.Does.lift_bind (fun confirmationCount _ => ?_) herr
    refine Journal.Does.lift_bind (fun w hw => ?_) herr
    have hstate := (RecoveryTransactionBuilder.addUnknownOwners_same hw).state
    split
    · rename_i masterCopy _
      have h' := h.resaved (w := { w.changeConfirmationCount confirmationCount with
        masterCopyAddress := some masterCopy, contractVersion := answers.version }) hstate
      exact Journal.Does.modify (fun _ => h') h'
    · exact Journal.Does.pure h
  · exact Journal.Does.pure h

theorem leaves_changeAddress {address : Address} (h : Resumable d) :
    Leaves (changeAddress lib metadata address answers) d fun _ d' => Resumable d' := by
  unfold changeAddress
  split
  · split
    · refine Journal.Does.get_bind (Journal.Does.lift_bind (fun w hw => ?_) fun _ _ => h)
      obtain ⟨rfl, -⟩ := Wallet.changeAddress_eq_ok hw
      have h' := h.resaved (w := { d.wallet with address := some address }) rfl
      exact Journal.Does.modify_bind (fun _ => h') (leaves_pullWalletData h')
    · exact Journal.Does.pure h
  · exact Journal.Does.pure h

/-- Keys are added to what is stored, and nothing else changes. -/
theorem leaves_saveAccount {account : ExternallyOwnedAccount} (h : Resumable d) :
    Leaves (saveAccount account) d fun _ d' => d'.wallet = d.wallet ∧ Resumable d' := by
  refine Journal.Does.get_bind ?_
  split
  · have h' : Resumable { d with
        accounts := d.accounts ++ [(account.address, account.privateKey)] } :=
      ⟨h.consistent, h.readied⟩
    exact Journal.Does.modify (fun _ => h') ⟨rfl, h'⟩
  · exact Journal.Does.pure ⟨rfl, h⟩

theorem leaves_provide {eoa : Option EOAPair} (h : Resumable d) :
    Leaves (provide lib eoa) d fun _ d' => Resumable d' := by
  cases eoa with
  | none => exact Journal.Does.pure h
  | some pair =>
      have herr : ∀ {β : Type} {x : Except Trap β}, ∀ e, x = .error e → Resumable d :=
        fun _ _ => h
      refine Journal.Does.get_bind ?_
      refine Journal.Does.lift_bind (fun recoveryOwner _ => ?_) herr
      refine Journal.Does.lift_bind (fun derivedOwner _ => ?_) herr
      split
      · refine (leaves_saveAccount h).bind ?_
        rintro _ d₁ ⟨hwallet₁, h₁⟩
        refine (leaves_saveAccount h₁).bind ?_
        rintro _ d₂ ⟨hwallet₂, h₂⟩
        refine Journal.Does.lift_bind (fun w₁ hw₁ => ?_) fun _ _ => h₂
        refine Journal.Does.lift_bind (fun w₂ hw₂ => ?_) fun _ _ => h₂
        obtain rfl := Wallet.addOwner_eq_ok hw₁
        obtain rfl := Wallet.addOwner_eq_ok hw₂
        have h' := h₂.resaved (w := { d.wallet with
          owners := (d.wallet.owners.add ⟨pair.primary.address, .paperWallet⟩).add
            ⟨pair.derived.address, .paperWalletDerived⟩ })
          (congrArg Wallet.state (hwallet₂.trans hwallet₁)).symm
        exact Journal.Does.modify (fun _ => h') h'
      · exact Journal.Does.pure h

/-! ### Runs -/

/-- What is stored can be gone on from, and the subscriptions hold wallets that wait. -/
structure ProcessInvariant (p : Process) : Prop where
  resumable : Resumable p.device
  waiting : ∀ w ∈ p.subscriptions ++ p.dispatched, w.state = .recoveryInProgress

variable {p p' : Process}

theorem ProcessInvariant.withDevice (h : ProcessInvariant p) (hd : Resumable d) :
    ProcessInvariant { p with device := d } := ⟨hd, h.waiting⟩

/-- The app as it is launched. -/
theorem ProcessInvariant.launched (h : Resumable d) : ProcessInvariant { device := d } :=
  ⟨h, fun _ hw => absurd hw List.not_mem_nil⟩

/-- A call that leaves the subscriptions alone. -/
theorem leaves_unsubscribed {call : Saving PUnit} (h : ProcessInvariant p)
    (hcall : Leaves call p.device fun _ d' => Resumable d') :
    Leaves (do
      call
      return { p with device := ← Journal.get }) p.device fun p' _ => ProcessInvariant p' := by
  refine hcall.bind ?_
  intro _ d' hd'
  exact Journal.Does.get_bind (Journal.Does.pure (h.withDevice hd'))

theorem leaves_act (s : Step) (h : ProcessInvariant p) :
    Leaves (act lib metadata p s) p.device fun p' _ => ProcessInvariant p' := by
  cases s with
  | changeAddress address answers => exact leaves_unsubscribed h (leaves_changeAddress h.resumable)
  | provide eoa => exact leaves_unsubscribed h (leaves_provide h.resumable)
  | createRecoveryTransaction tokens id answers now =>
      exact leaves_unsubscribed h (leaves_createRecoveryTransaction h.resumable)
  | updatePendingTransaction succeeded date clock =>
      exact leaves_unsubscribed h (leaves_updatePendingTransaction h.resumable)
  | cancelRecovery => exact leaves_unsubscribed h (leaves_cancelRecovery h.resumable.removed)
  | resume answers clock =>
      refine (leaves_resume h.resumable).bind ?_
      rintro subscription d' ⟨hd', hsubscription⟩
      refine Journal.Does.get_bind (Journal.Does.pure ⟨hd', ?_⟩)
      intro w hw
      simp only [List.mem_append, Option.mem_toList] at hw
      rcases hw with (hw | hw) | hw
      · exact h.waiting w (List.mem_append_left _ hw)
      · exact hsubscription w hw
      · exact h.waiting w (List.mem_append_right _ hw)
  | publishStatusUpdated =>
      refine Journal.Does.pure ⟨h.resumable, ?_⟩
      intro w hw
      simp only [List.mem_append] at hw
      refine h.waiting w (List.mem_append.mpr ?_)
      tauto
  | transactionStatusUpdated handler answers =>
      simp only [act]
      split
      · exact Journal.Does.pure h
      · rename_i w hw
        have hstate := h.waiting w (List.mem_append_right _ (List.mem_of_getElem? hw))
        refine (leaves_transactionStatusUpdated h.resumable hstate).bind ?_
        intro unsubscribes d' hd'
        refine Journal.Does.get_bind (Journal.Does.pure ⟨hd', ?_⟩)
        intro w' hw'
        rcases List.mem_append.mp hw' with hw' | hw'
        · refine h.waiting w' (List.mem_append_left _ ?_)
          cases unsubscribes with
          | true => exact absurd hw' List.not_mem_nil
          | false => exact hw'
        · exact h.waiting w' (List.mem_append_right _ (List.mem_of_mem_eraseIdx hw'))

/-- A step that is not killed leaves what it saved when it stopped the app, or where it got to. -/
theorem step_unkilled {s : Step} (hstep : step lib metadata p (s, none) = .ok p') :
    (∃ e, (act lib metadata p s p.device).result = .error e ∧
      p' = { device := (act lib metadata p s p.device).final p.device }) ∨
      (act lib metadata p s p.device).result = .ok p' := by
  unfold step at hstep
  cases hresult : (act lib metadata p s p.device).result with
  | error e =>
      simp only [hresult] at hstep
      exact .inl ⟨e, rfl, (Except.ok.inj hstep).symm⟩
  | ok p₁ =>
      simp only [hresult] at hstep
      exact .inr hstep

theorem step_invariant {s : Step × Option Nat} (hspared : Spared lib metadata p s)
    (h : ProcessInvariant p) (hstep : step lib metadata p s = .ok p') : ProcessInvariant p' := by
  obtain ⟨s, killed⟩ := s
  have hact : Leaves (act lib metadata p s) p.device fun p' _ => ProcessInvariant p' :=
    leaves_act s h
  cases killed with
  | some saves =>
      obtain rfl := Except.ok.inj hstep
      rcases hact.after saves with hafter | ⟨e, hlast, hafter⟩
      · rw [hafter]
        exact .launched h.resumable
      · refine .launched (hafter (hspared e.1 ?_))
        show ((((act lib metadata p s p.device).saves.take saves).getLast?).map (·.1)) = some e.1
        rw [hlast]
        rfl
  | none =>
      rcases step_unkilled hstep with ⟨e, hresult, rfl⟩ | hresult
      · exact .launched (hact.stops e hresult)
      · exact hact.returns _ hresult

/-- Where a recovery starts: the wallet has been prepared for it. -/
structure Starting (p : Process) : Prop where
  state : p.device.wallet.state = .recoveryDraft
  transaction : p.device.transaction = none
  readied : p.device.readied = []
  subscriptions : p.subscriptions = []
  dispatched : p.dispatched = []

theorem Starting.invariant (h : Starting p) : ProcessInvariant p := by
  refine ⟨⟨?_, ?_⟩, ?_⟩
  · rw [status?, h.state, h.transaction]
    rfl
  · rw [h.readied]
    exact fun status hs => absurd hs List.not_mem_nil
  · rw [h.subscriptions, h.dispatched]
    exact fun w hw => absurd hw List.not_mem_nil

/-! ### A recovery that is killed -/

open RecoveryTransactionBuilder (beforeTakeover)

/-- The recovery phrase has been entered for a wallet without extension. -/
def recoveringProcess : Process where
  device :=
    { wallet :=
        { id := ['w'], state := .recoveryDraft, address := some (Address.ofNat 100)
          owners := ⟨[⟨Address.ofNat 11, .thisDevice⟩, ⟨Address.ofNat 9, .unknown⟩,
            ⟨Address.ofNat 13, .paperWallet⟩, ⟨Address.ofNat 14, .paperWalletDerived⟩], by decide⟩ }
      accounts := [(Address.ofNat 13, Bytes.ofNat 32 13), (Address.ofNat 14, Bytes.ofNat 32 14)] }

/-- The contract once this device has replaced the lost one. -/
def afterRecovery : OwnerManager :=
  ⟨[11, 13, 14], 1, by decide, by decide, Nat.one_pos, by decide⟩

/-- Node and relay answer, and the contract is `m`. -/
def answersFrom (m : OwnerManager) : ContractAnswers where
  masterCopy := none
  masterCopyAgain := none
  version := none
  owners := some m.getOwners
  threshold := some m.getThreshold
  estimate := fun _ => some ⟨1, 1, 1, 1, none, Address.zero.value⟩
  submit := fun _ => some ⟨hexMark ++ ['1']⟩

/-- `resume()` after the transaction has been created and the contract is `m`, by a process
that is killed after that many saves. -/
def resumption (m : OwnerManager) (killed : Option Nat) : Step × Option Nat :=
  (.resume (answersFrom m) fun _ => 0, killed)

def creation : Step × Option Nat :=
  (.createRecoveryTransaction [] ['t'] (answersFrom beforeTakeover) 0, none)

/-- The transaction is created, submitted and processed. -/
def processing (succeeded : Bool) : List (Step × Option Nat) :=
  [creation, resumption beforeTakeover none,
    (.updatePendingTransaction succeeded 0 fun _ => 0, none)]

end RecoveryDomainService

end MultisigWallet
