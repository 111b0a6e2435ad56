import MultisigWallet.ConfirmationCount
import MultisigWallet.PostProcessing
import MultisigWallet.Reference

/-!
# MultisigWallet.PostProcessingSound

Confirmation count and browser extension of a wallet while its transactions are post-processed.
The connecting service sets the count to two and the disconnecting one sets it to one, each
together with the owner. The replacing service relies on there being an extension already: it
puts the new owner in place of the old one and does not touch the count. A replacement that is
visited when there is nothing to replace leaves an extension with a count of one.
-/

namespace MultisigWallet

/-! ### Owners -/

namespace OwnerList

theorem first_remove_self (l : OwnerList) (role : OwnerRole) : (l.remove role).first role = none :=
  Rows.find?_removed Owner.role l.storage role

theorem first_add_self (l : OwnerList) {o : Owner} (h : o.role ≠ .unknown) :
    (l.add o).first o.role = some o := by
  simp only [first, add, dif_neg h, append]
  exact Rows.find?_replaced Owner.role l.storage rfl

end OwnerList

/-! ### The wallet repository -/

theorem findWallet_saveWallet (r : Repositories) (w : Wallet) (id : WalletID) :
    findWallet (r.saveWallet w).wallets id =
      if id = w.id then some w else findWallet r.wallets id := by
  by_cases h : id = w.id
  · subst h
    rw [if_pos rfl]
    exact Rows.find?_replaced Wallet.id r.wallets rfl
  · rw [if_neg h]
    exact Rows.find?_replaced_of_ne Wallet.id r.wallets rfl h

namespace ReplaceBrowserExtensionDomainService

variable {lib : ThirdParty} {metadata : SafeContractMetadata} {s s' : Monitored} {w w' : Wallet}
  {flow : Flow} {id : TransactionID} {newOwner : Str} {deleted : Str → Bool}
  {result : Except Thrown Unit} {tx : Transaction}

/-! ### What the services do to a wallet -/

/-- The old owner is gone, and nothing else has changed. -/
theorem removeOldOwner_ok {r : Repositories} (h : removeOldOwner r w deleted = .ok (.ok w')) :
    w'.id = w.id ∧ w'.owner .browserExtension = none ∧
      w'.confirmationCount = w.confirmationCount := by
  unfold removeOldOwner at h
  cases howner : w.owner .browserExtension with
  | none =>
      simp only [howner] at h
      obtain rfl := Except.ok.inj (Except.ok.inj h)
      exact ⟨rfl, howner, rfl⟩
  | some oldOwner =>
      simp only [howner] at h
      obtain ⟨answer, -, h⟩ := bind_ok.mp h
      cases answer with
      | error e => exact nomatch Except.ok.inj h
      | ok u =>
          obtain ⟨removed, hremoved, h⟩ := bind_ok.mp h
          obtain rfl := Except.ok.inj (Except.ok.inj h)
          obtain rfl := Wallet.removeOwner_eq_ok hremoved
          have hrole : oldOwner.role = .browserExtension := (OwnerList.mem_of_first howner).2
          refine ⟨rfl, ?_, rfl⟩
          show (w.owners.remove oldOwner.role).first .browserExtension = none
          rw [hrole]
          exact OwnerList.first_remove_self _ _

/-- The new owner is there, and the wallet is saved. -/
theorem add_ok (h : add lib s newOwner w = .ok (w', s')) :
    w'.id = w.id ∧ w'.owner .browserExtension ≠ none ∧
      w'.confirmationCount = w.confirmationCount ∧
      s'.repositories = s.repositories.saveWallet w' := by
  obtain ⟨address, -, h⟩ := bind_ok.mp h
  obtain ⟨added, hadded, h⟩ := bind_ok.mp h
  obtain ⟨rfl, rfl⟩ := Prod.mk.inj (Except.ok.inj h)
  obtain rfl := Wallet.addOwner_eq_ok hadded
  refine ⟨rfl, ?_, rfl, rfl⟩
  show (w.owners.add ⟨address, .browserExtension⟩).first .browserExtension ≠ none
  have hfirst := OwnerList.first_add_self w.owners (o := ⟨address, .browserExtension⟩) (by simp)
  rw [hfirst]
  simp

/-- What a successful transaction makes of the wallet. -/
def Changed : Flow → Wallet → Wallet → Prop
  | .replace, w, w' =>
      w'.owner .browserExtension ≠ none ∧ w'.confirmationCount = w.confirmationCount
  | .connect, _, w' => w'.owner .browserExtension ≠ none ∧ w'.confirmationCount = 2
  | .disconnect, _, w' => w'.owner .browserExtension = none ∧ w'.confirmationCount = 1

/-- The wallet `w` is stored as `w'`, and the others are as they were. -/
structure Stored (s s' : Monitored) (w w' : Wallet) : Prop where
  id : w'.id = w.id
  find : ∀ id, findWallet s'.repositories.wallets id =
    if id = w.id then some w' else findWallet s.repositories.wallets id

theorem Stored.of_save (hid : w'.id = w.id)
    (hsave : s'.repositories = s.repositories.saveWallet w') : Stored s s' w w' := by
  refine ⟨hid, ?_⟩
  intro id
  rw [hsave, findWallet_saveWallet, hid]

/-- A connection or a replacement: it throws and leaves everything as it was, or the wallet is
stored with its new owner. -/
theorem processSuccess_ok (hflow : flow ≠ .disconnect)
    (h : processSuccess lib flow s newOwner w deleted = .ok (result, s')) :
    (s' = s ∧ ∃ e, result = .error e) ∨ ∃ w', Stored s s' w w' ∧ Changed flow w w' := by
  cases flow with
  | disconnect => exact absurd rfl hflow
  | connect =>
      obtain ⟨⟨w₁, s₁⟩, h₁, h⟩ := bind_ok.mp h
      obtain ⟨-, rfl⟩ := Prod.mk.inj (Except.ok.inj h)
      obtain ⟨hid, howner, -, hsave⟩ := add_ok h₁
      refine .inr ⟨w₁.changeConfirmationCount 2, ⟨hid, ?_⟩, howner, rfl⟩
      -- the wallet is saved twice, with the old count and with the new one
      intro id
      have hid' : (w₁.changeConfirmationCount 2).id = w.id := hid
      rw [findWallet_saveWallet, hsave, findWallet_saveWallet, hid', hid]
      split
      · rfl
      · rfl
  | replace =>
      obtain ⟨removed, hremoved, h⟩ := bind_ok.mp h
      cases removed with
      | error e =>
          obtain ⟨rfl, rfl⟩ := Prod.mk.inj (Except.ok.inj h)
          exact .inl ⟨rfl, e, rfl⟩
      | ok w₁ =>
          obtain ⟨⟨w₂, s₂⟩, h₂, h⟩ := bind_ok.mp h
          obtain ⟨-, rfl⟩ := Prod.mk.inj (Except.ok.inj h)
          obtain ⟨hid₁, -, hcount₁⟩ := removeOldOwner_ok hremoved
          obtain ⟨hid₂, howner, hcount₂, hsave⟩ := add_ok h₂
          exact .inr ⟨w₂, .of_save (hid₂.trans hid₁) hsave, howner, hcount₂.trans hcount₁⟩

theorem postProcessNewOwner_ok (hflow : flow ≠ .disconnect)
    (h : postProcessNewOwner lib flow s tx w deleted = .ok (result, s')) :
    s'.repositories = s.repositories ∨
      tx.status = .success ∧ ∃ w', Stored s s' w w' ∧ Changed flow w w' := by
  obtain ⟨newOwner, -, h⟩ := bind_ok.mp h
  cases newOwner with
  | none =>
      obtain ⟨-, rfl⟩ := Prod.mk.inj (Except.ok.inj h)
      exact .inl rfl
  | some newOwner =>
      simp only at h
      split at h
      · rename_i hsuccess
        obtain ⟨⟨result₁, s₁⟩, h₁, h⟩ := bind_ok.mp h
        have hcases := processSuccess_ok hflow h₁
        cases result₁ with
        | error e =>
            obtain ⟨-, rfl⟩ := Prod.mk.inj (Except.ok.inj h)
            rcases hcases with ⟨rfl, -⟩ | hstored
            · exact .inl rfl
            · exact .inr ⟨hsuccess, hstored⟩
        | ok u =>
            obtain ⟨-, rfl⟩ := Prod.mk.inj (Except.ok.inj h)
            rcases hcases with ⟨-, e, he⟩ | ⟨w', hstored, hchanged⟩
            · exact nomatch he
            · exact .inr ⟨hsuccess, w', ⟨hstored.id, hstored.find⟩, hchanged⟩
      · obtain ⟨answer, -, h⟩ := bind_ok.mp h
        cases answer with
        | error e =>
            obtain ⟨-, rfl⟩ := Prod.mk.inj (Except.ok.inj h)
            exact .inl rfl
        | ok u =>
            obtain ⟨-, rfl⟩ := Prod.mk.inj (Except.ok.inj h)
            exact .inl rfl

theorem postProcessRemoval_ok (h : postProcessRemoval s tx w deleted = .ok (result, s')) :
    s'.repositories = s.repositories ∨
      tx.status = .success ∧ ∃ w', Stored s s' w w' ∧ Changed .disconnect w w' := by
  unfold postProcessRemoval at h
  split at h
  · rename_i hsuccess
    obtain ⟨removed, hremoved, h⟩ := bind_ok.mp h
    cases removed with
    | error e =>
        obtain ⟨-, rfl⟩ := Prod.mk.inj (Except.ok.inj h)
        exact .inl rfl
    | ok w₁ =>
        obtain ⟨-, rfl⟩ := Prod.mk.inj (Except.ok.inj h)
        obtain ⟨hid, howner, -⟩ := removeOldOwner_ok hremoved
        exact .inr ⟨hsuccess, w₁.changeConfirmationCount 1, .of_save hid rfl, howner, rfl⟩
  · obtain ⟨-, rfl⟩ := Prod.mk.inj (Except.ok.inj h)
    exact .inl rfl

/-- All a visit can do: nothing to the wallets, or what a successful transaction of the
service's type says about its wallet. -/
theorem postProcess_ok (h : postProcess lib flow s id deleted = .ok (result, s')) :
    s'.repositories = s.repositories ∨
      ∃ tx w w', s.repositories.find id = some tx ∧ tx.type = transactionType flow ∧
        tx.status = .success ∧ findWallet s.repositories.wallets tx.walletID = some w ∧
        Stored s s' w w' ∧ Changed flow w w' := by
  unfold postProcess at h
  cases hfind : s.repositories.find id with
  | none =>
      simp only [hfind] at h
      obtain ⟨-, rfl⟩ := Prod.mk.inj (Except.ok.inj h)
      exact .inl rfl
  | some tx =>
      simp only [hfind] at h
      split at h
      · rename_i hguard
        cases hwallet : findWallet s.repositories.wallets tx.walletID with
        | none =>
            simp only [hwallet] at h
            obtain ⟨-, rfl⟩ := Prod.mk.inj (Except.ok.inj h)
            exact .inl rfl
        | some w =>
            simp only [hwallet] at h
            have hcases : s'.repositories = s.repositories ∨
                tx.status = .success ∧ ∃ w', Stored s s' w w' ∧ Changed flow w w' := by
              cases flow with
              | disconnect => exact postProcessRemoval_ok h
              | replace => exact postProcessNewOwner_ok (by decide) h
              | connect => exact postProcessNewOwner_ok (by decide) h
            rcases hcases with hsame | ⟨hsuccess, w', hstored, hchanged⟩
            · exact .inl hsame
            · exact .inr ⟨tx, w, w', rfl, hguard.1, hsuccess, hwallet, hstored, hchanged⟩
      · obtain ⟨-, rfl⟩ := Prod.mk.inj (Except.ok.inj h)
        exact .inl rfl

/-! ### Runs -/

/-- A successful replacement is visited only while there is an extension to replace. -/
def Replaceable (s : Monitored) : Visit → Prop
  | .postProcess .replace id _ =>
      ∀ tx ∈ s.repositories.find id, tx.type = .replaceBrowserExtension → tx.status = .success →
        ∀ w ∈ findWallet s.repositories.wallets tx.walletID,
          (w.owner .browserExtension).isSome = true
  | _ => True

instance (s : Monitored) : (v : Visit) → Decidable (Replaceable s v)
  | .postProcess .replace id _ =>
      inferInstanceAs (Decidable (∀ tx ∈ s.repositories.find id,
        tx.type = .replaceBrowserExtension → tx.status = .success →
          ∀ w ∈ findWallet s.repositories.wallets tx.walletID,
            (w.owner .browserExtension).isSome = true))
  | .postProcess .connect _ _ => .isTrue trivial
  | .postProcess .disconnect _ _ => .isTrue trivial
  | .save _ => .isTrue trivial
  | .register _ _ => .isTrue trivial

/-- The wallet with the identifier is stored, and in step. -/
def HasInStep (walletID : WalletID) (s : Monitored) : Prop :=
  ∃ w, findWallet s.repositories.wallets walletID = some w ∧ w.InStep

/-- The count that a service leaves. -/
theorem Changed.inStep (h : Changed flow w w') (hw : w.InStep)
    (hreplace : flow = .replace → w.owner .browserExtension ≠ none) : w'.InStep := by
  cases flow with
  | connect =>
      rw [Wallet.InStep, if_neg h.1]
      exact h.2
  | disconnect =>
      rw [Wallet.InStep, if_pos h.1]
      exact h.2
  | replace =>
      -- the count is the old one, which is two
      rw [Wallet.InStep, if_neg (hreplace rfl)] at hw
      rw [Wallet.InStep, if_neg h.1, h.2]
      exact hw

theorem postProcess_inStep {walletID : WalletID} (hi : HasInStep walletID s)
    (hreplaceable : Replaceable s (.postProcess flow id deleted))
    (h : postProcess lib flow s id deleted = .ok (result, s')) : HasInStep walletID s' := by
  obtain ⟨v, hv, hinStep⟩ := hi
  rcases postProcess_ok h with hsame | ⟨tx, w, w', htx, htype, hsuccess, hw, hstored, hchanged⟩
  · exact ⟨v, by rw [hsame]; exact hv, hinStep⟩
  · by_cases hid : walletID = w.id
    · -- the transaction is this wallet's
      have hvw : v = w := by
        rw [hid, id_of_findWallet hw] at hv
        exact Option.some.inj (hv.symm.trans hw)
      subst hvw
      refine ⟨w', by rw [hstored.find, if_pos hid], hchanged.inStep hinStep ?_⟩
      intro hflow
      subst hflow
      exact Option.isSome_iff_ne_none.mp (hreplaceable tx htx htype hsuccess v hw)
    · exact ⟨v, by rw [hstored.find, if_neg hid]; exact hv, hinStep⟩

theorem visit_inStep {v : Visit} {walletID : WalletID} (hreplaceable : Replaceable s v)
    (hi : HasInStep walletID s) (h : visit lib s v = .ok s') : HasInStep walletID s' := by
  cases v with
  | postProcess flow id deleted =>
      obtain ⟨⟨result, s₁⟩, hprocess, h⟩ := bind_ok.mp h
      obtain rfl := Except.ok.inj h
      exact postProcess_inStep hi hreplaceable hprocess
  | save tx =>
      obtain rfl := Except.ok.inj h
      exact hi
  | register id timestamp =>
      obtain rfl := Except.ok.inj h
      exact hi

/-- Where a wallet that is ready to use comes from: it has been deployed, or recovered by the
transaction that was built for it. -/
inductive Origin (lib : ThirdParty) (metadata : SafeContractMetadata) : Wallet → Prop
  | created {w : Wallet} (hdeployed : DeploymentDomainService.Deployed w)
      (hready : w.state = .readyToUse) : Origin lib metadata w
  | recovered {p p' : RecoveryDomainService.Process}
      {steps : List (RecoveryDomainService.Step × Option Nat)}
      (hstart : RecoveryDomainService.Starting p)
      (hkept : Transition.Allowed (RecoveryDomainService.step lib metadata)
        (RecoveryDomainService.CountKept lib metadata) p steps)
      (hrun : Transition.run (RecoveryDomainService.step lib metadata) p steps = .ok p')
      (hready : p'.device.wallet.state = .readyToUse) : Origin lib metadata p'.device.wallet

theorem Origin.inStep (h : Origin lib metadata w) : w.InStep := by
  cases h with
  | created hdeployed hready =>
      exact hdeployed.counted.inStep (by rw [hready]; decide)
  | recovered hstart hkept hrun hready =>
      exact RecoveryDomainService.run_count hstart hkept hrun hready

/-- **Threshold and extension.** After any visits of the three services, in any order and with
any answers of the notification service, the wallet that was ready to use has a confirmation
count of two if it has a browser extension and of one otherwise, provided that no successful
replacement is visited without an extension to replace. -/
theorem run_inStep {walletID : WalletID} {visits : List Visit}
    (hfind : findWallet s.repositories.wallets walletID = some w) (horigin : Origin lib metadata w)
    (hall : Transition.Allowed (visit lib) Replaceable s visits)
    (hrun : Transition.run (visit lib) s visits = .ok s') :
    ∃ w', findWallet s'.repositories.wallets walletID = some w' ∧
      w'.confirmationCount = if w'.owner .browserExtension = none then 1 else 2 :=
  Transition.run_invariant_of_allowed (I := HasInStep walletID)
    (fun _ _ _ hreplaceable hi hvisit => visit_inStep hreplaceable hi hvisit)
    ⟨w, hfind, horigin.inStep⟩ hall hrun

/-! ### The loops of the services -/

/-- A service's loop is a run of its visits, up to the one that throws. -/
theorem postProcessEntries_run {answers : TransactionID → Str → Bool}
    {entries : List RBETransactionMonitorEntry}
    (h : postProcessEntries lib flow answers entries s = .ok (result, s')) :
    ∃ visits, (∀ v ∈ visits, ∃ flow id deleted, v = Visit.postProcess flow id deleted) ∧
      Transition.run (visit lib) s visits = .ok s' := by
  induction entries generalizing s with
  | nil =>
      obtain ⟨-, rfl⟩ := Prod.mk.inj (Except.ok.inj h)
      exact ⟨[], fun _ hv => absurd hv List.not_mem_nil, rfl⟩
  | cons entry entries ih =>
      obtain ⟨⟨result₁, s₁⟩, h₁, h⟩ := bind_ok.mp h
      have hvisit : visit lib s (.postProcess flow entry.transactionID
          (answers entry.transactionID)) = .ok s₁ := bind_ok.mpr ⟨_, h₁, rfl⟩
      cases result₁ with
      | error e =>
          obtain ⟨-, rfl⟩ := Prod.mk.inj (Except.ok.inj h)
          refine ⟨[_], ?_, Transition.run_cons_ok.mpr ⟨s₁, hvisit, rfl⟩⟩
          intro v hv
          exact ⟨_, _, _, List.mem_singleton.mp hv⟩
      | ok u =>
          obtain ⟨visits, hvisits, hrun⟩ := ih h
          refine ⟨_ :: visits, ?_, Transition.run_cons_ok.mpr ⟨s₁, hvisit, hrun⟩⟩
          intro v hv
          rcases List.mem_cons.mp hv with rfl | hv
          · exact ⟨_, _, _, rfl⟩
          · exact hvisits v hv

theorem postProcessFlows_run {answers : Flow → TransactionID → Str → Bool} {flows : List Flow}
    (h : SynchronisationService.postProcessFlows lib answers flows s = .ok s') :
    ∃ visits, (∀ v ∈ visits, ∃ flow id deleted, v = Visit.postProcess flow id deleted) ∧
      Transition.run (visit lib) s visits = .ok s' := by
  induction flows generalizing s with
  | nil =>
      obtain rfl := Except.ok.inj h
      exact ⟨[], fun _ hv => absurd hv List.not_mem_nil, rfl⟩
  | cons flow flows ih =>
      obtain ⟨⟨result, s₁⟩, h₁, h⟩ := bind_ok.mp h
      obtain ⟨visits, hvisits, hrun⟩ := postProcessEntries_run h₁
      cases result with
      | error e =>
          obtain rfl := Except.ok.inj h
          exact ⟨visits, hvisits, hrun⟩
      | ok u =>
          obtain ⟨visits', hvisits', hrun'⟩ := ih h
          refine ⟨visits ++ visits', ?_, Transition.run_append_ok.mpr ⟨s₁, hrun, hrun'⟩⟩
          intro v hv
          rcases List.mem_append.mp hv with hv | hv
          · exact hvisits v hv
          · exact hvisits' v hv

/-- What the synchronisation does is a run of visits, so `run_inStep` speaks of every state it
passes through. -/
theorem postProcessTransactions_run {answers : Flow → TransactionID → Str → Bool}
    {accessible : Nat}
    (h : SynchronisationService.postProcessTransactions lib s accessible answers = .ok s') :
    ∃ visits, (∀ v ∈ visits, ∃ flow id deleted, v = Visit.postProcess flow id deleted) ∧
      Transition.run (visit lib) s visits = .ok s' :=
  postProcessFlows_run h

/-! ### A replacement after a removal -/

/-- A draft with an extension. -/
def draftWallet : Wallet where
  id := ['w']
  owners := ⟨[⟨Address.ofNat 11, .thisDevice⟩, ⟨Address.ofNat 12, .browserExtension⟩,
    ⟨Address.ofNat 13, .paperWallet⟩, ⟨Address.ofNat 14, .paperWalletDerived⟩], by decide⟩

/-- Everything that is asked for is there. -/
def answering : Outside where
  creation := .ok ⟨Address.ofNat 100, 100, Address.ofNat 7, none⟩
  balance := .ok 100
  startCreation := .ok ()
  transactionHash := .ok (some ['h'])
  receipt := .ok (some true)
  notification := .ok ()
  account := some (some 100)

/-- The one thread there is goes on. -/
def goesOn : DeploymentDomainService.Step := .act 0 answering

/-- The steps of a deployment without any trouble. -/
def deployment : List DeploymentDomainService.Step :=
  [.start, goesOn] ++ List.replicate 10 .publisher ++ List.replicate 2 goesOn ++ [.publisher] ++
    List.replicate 4 goesOn ++ [.publisher] ++ List.replicate 2 goesOn ++ [.publisher] ++
    List.replicate 6 goesOn

/-- The wallet it leaves. -/
def readyWallet : Wallet :=
  { draftWallet with
    state := .readyToUse
    address := some (Address.ofNat 100)
    minimumDeploymentTransactionAmount := some 100
    creationTransactionHash := some ['h']
    confirmationCount := 2
    masterCopyAddress := some (Address.ofNat 7) }

theorem origin_readyWallet (metadata : SafeContractMetadata) :
    Origin reference metadata readyWallet := by
  have heval : ((Transition.run DeploymentDomainService.step
      (DeploymentDomainService.launched draftWallet) deployment).toOption.any
        fun w => w.row.value = readyWallet) = true := by
    decide +kernel
  obtain ⟨w, hrun, hw⟩ := exists_ok_of_any heval
  rw [← of_decide_eq_true hw]
  refine .created (.run (.draft rfl rfl rfl) hrun) ?_
  rw [of_decide_eq_true hw]
  rfl

/-- The wallet with two transactions that have succeeded: `r` replaces its extension, and `d`
disconnects it. -/
def twoTransactions : Monitored where
  repositories := {
    transactions := [
      { id := ['r'], type := .replaceBrowserExtension, walletID := ['w'], accountID := ⟨[], []⟩
        status := .success
        data := some (SafeOwnerManagerContractProxy.swapOwner reference (Address.ofNat 11)
          (Address.ofNat 12) (Address.ofNat 15)) },
      { id := ['d'], type := .disconnectBrowserExtension, walletID := ['w'], accountID := ⟨[], []⟩
        status := .success }]
    wallets := [readyWallet]
    selectedWallet := some ['w']
    tokens := []
    externallyOwnedAccounts := [(Address.ofNat 11, [1])] }
  entries := [⟨['r'], 1⟩, ⟨['d'], 2⟩]

/-- A service visits its transaction, and the pair is deleted. -/
def visiting (flow : Flow) (id : TransactionID) : Visit := .postProcess flow id fun _ => true

/-- The extension is replaced and then disconnected. -/
theorem run_inStep_replaced :
    ∃ s, Transition.run (visit reference) twoTransactions
        [visiting .replace ['r'], visiting .disconnect ['d']] = .ok s ∧
      (∃ w, findWallet s.repositories.wallets ['w'] = some w ∧
        w.owner .browserExtension = none ∧ w.confirmationCount = 1) ∧
      ∃ w, findWallet s.repositories.wallets ['w'] = some w ∧
        w.confirmationCount = if w.owner .browserExtension = none then 1 else 2 := by
  have hall : Transition.Allowed (visit reference) Replaceable twoTransactions
      [visiting .replace ['r'], visiting .disconnect ['d']] := by
    decide +kernel
  have heval : ((Transition.run (visit reference) twoTransactions
      [visiting .replace ['r'], visiting .disconnect ['d']]).toOption.any fun s =>
      (findWallet s.repositories.wallets ['w']).any fun w =>
        w.owner .browserExtension = none ∧ w.confirmationCount = 1) = true := by
    decide +kernel
  obtain ⟨s, hrun, hs⟩ := exists_ok_of_any heval
  obtain ⟨w, hw, hdone⟩ := (Option.any_eq_true _ _).mp hs
  exact ⟨s, hrun, ⟨w, hw, of_decide_eq_true hdone⟩,
    run_inStep rfl (origin_readyWallet EncryptionService.noMetadata) hall hrun⟩

/-- The extension is disconnected, and the replacement is visited afterwards: the wallet has an
extension, and needs one confirmation. -/
theorem not_inStep_replaced :
    Origin reference EncryptionService.noMetadata readyWallet ∧
      findWallet twoTransactions.repositories.wallets ['w'] = some readyWallet ∧
      ∃ s w, Transition.run (visit reference) twoTransactions
          [visiting .disconnect ['d'], visiting .replace ['r']] = .ok s ∧
        findWallet s.repositories.wallets ['w'] = some w ∧
        w.owner .browserExtension ≠ none ∧ w.confirmationCount = 1 := by
  have heval : ((Transition.run (visit reference) twoTransactions
      [visiting .disconnect ['d'], visiting .replace ['r']]).toOption.any fun s =>
      (findWallet s.repositories.wallets ['w']).any fun w =>
        w.owner .browserExtension ≠ none ∧ w.confirmationCount = 1) = true := by
    decide +kernel
  obtain ⟨s, hrun, hs⟩ := exists_ok_of_any heval
  obtain ⟨w, hw, hdone⟩ := (Option.any_eq_true _ _).mp hs
  exact ⟨origin_readyWallet _, rfl, s, w, hrun, hw, of_decide_eq_true hdone⟩

end ReplaceBrowserExtensionDomainService

end MultisigWallet
