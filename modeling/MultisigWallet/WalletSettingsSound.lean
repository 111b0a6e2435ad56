import MultisigWallet.PostProcessingSound
import MultisigWallet.WalletSettings

/-!
# MultisigWallet.WalletSettingsSound

The new recovery phrase in the local wallet.

The closure that waits for the transaction writes the new owners to a wallet that it finds and
does not save, and saves the wallet it has captured. So it brings nothing into the wallet, and
takes back whatever was saved since the transaction was prepared. `Settled` is what a run of
the closure should amount to, `WasSettled` when it does: if the wallet was that way before.
-/

namespace MultisigWallet

namespace WalletSettingsDomainService

variable {lib : ThirdParty} {metadata : SafeContractMetadata} {r r' : Repositories}
  {id : TransactionID} {tx : Transaction} {handler : Handler} {newPaperWallet derivedEOA : Address}
  {answer : Option Data} {relay : EstimationRelay} {clock : Clock}

/-! ### What is prepared -/

theorem proceed_frame {tx tx' : Transaction} {d₁ d₂ : Date} (h : tx.proceed d₁ d₂ = .ok tx') :
    tx'.id = tx.id ∧ tx'.data = tx.data := by
  have hstep : tx.step (.proceed d₁ d₂) = .ok tx' := h
  cases Transaction.step_effect hstep with
  | startSigning => exact ⟨rfl, rfl⟩
  | submit => exact ⟨rfl, rfl⟩

theorem changeFees_id {response : EstimateTransactionResponse} {tx' : Transaction}
    (h : changeFees tx response clock = .ok tx') : tx'.id = tx.id := by
  obtain ⟨⟨fee, estimate, nonce⟩, -, h⟩ := bind_ok.mp h
  obtain ⟨tx₁, h₁, h⟩ := bind_ok.mp h
  obtain ⟨tx₂, h₂, h⟩ := bind_ok.mp h
  exact (Transaction.change_frame h).1.trans
    ((Transaction.change_frame h₂).1.trans (Transaction.change_frame h₁).1)

/-- A prepared transaction: the calls are its data, and the closure has a copy of the wallet to
which the new owners are added as unknown ones. -/
theorem update_ok (h : updateRecoveryPhraseTransaction lib metadata r id newPaperWallet derivedEOA
      answer relay clock = .ok (some handler, r')) :
    ∃ w address owners calls tx, r.selected = some w ∧ w.address = some address ∧
      answer = some owners ∧ realCalls lib w newPaperWallet derivedEOA owners = .ok calls ∧
      tx.id = id ∧ tx.data = some (MultiSendContractProxy.multiSend lib
        (calls.map fun call => ⟨.call, address, 0, call⟩)) ∧
      handler = ⟨w, { w with owners :=
          (w.owners.add ⟨newPaperWallet, .unknown⟩).add ⟨derivedEOA, .unknown⟩ },
        id, newPaperWallet, newPaperWallet, derivedEOA⟩ ∧
      r' = (r.save tx).saveWallet handler.wallet := by
  obtain ⟨w, hw, h⟩ := bind_ok.mp h
  obtain ⟨tx, htx, h⟩ := bind_ok.mp h
  obtain ⟨key, -, h⟩ := bind_ok.mp h
  obtain ⟨address, haddress, h⟩ := bind_ok.mp h
  cases answer with
  | none => exact nomatch h
  | some owners =>
      obtain ⟨calls, hcalls, h⟩ := bind_ok.mp h
      obtain ⟨⟨data, estimation⟩, hestimate, h⟩ := bind_ok.mp h
      cases estimation with
      | none => exact nomatch h
      | some response =>
          obtain ⟨tx₁, h₁, h⟩ := bind_ok.mp h
          obtain ⟨tx₂, h₂, h⟩ := bind_ok.mp h
          obtain ⟨hash, -, h⟩ := bind_ok.mp h
          obtain ⟨tx₃, h₃, h⟩ := bind_ok.mp h
          obtain ⟨tx₄, h₄, h⟩ := bind_ok.mp h
          obtain ⟨w₁, hw₁, h⟩ := bind_ok.mp h
          obtain ⟨w₂, hw₂, h⟩ := bind_ok.mp h
          obtain ⟨hhandler, rfl⟩ := Prod.mk.inj (Except.ok.inj h)
          obtain rfl := Option.some.inj hhandler
          obtain rfl := Wallet.addOwner_eq_ok hw₁
          obtain rfl := Wallet.addOwner_eq_ok hw₂
          -- the data
          obtain ⟨address', haddress', hestimate⟩ := bind_ok.mp hestimate
          obtain ⟨recipient, -, hestimate⟩ := bind_ok.mp hestimate
          obtain ⟨request, -, hestimate⟩ := bind_ok.mp hestimate
          obtain ⟨rfl, -⟩ := Prod.mk.inj (Except.ok.inj hestimate)
          have haddress := unwrap_ok.mp haddress
          obtain rfl := Option.some.inj (haddress.symm.trans (unwrap_ok.mp haddress'))
          -- the transaction
          obtain ⟨-, rfl⟩ := Transaction.change_ok.mp h₂
          obtain ⟨-, rfl⟩ := Transaction.change_ok.mp h₃
          obtain ⟨hid, hdata⟩ := proceed_frame h₄
          refine ⟨w, address, owners, calls, tx₄, unwrap_ok.mp hw, haddress, rfl, hcalls, ?_, hdata,
            rfl, rfl⟩
          rw [hid]
          exact (changeFees_id h₁).trans (Repositories.id_of_find (unwrap_ok.mp htx))

/-! ### The captured wallet -/

/-- The owners of a wallet and two unknown ones. -/
def withNewOwners (owners : OwnerList) (newOwner1 newOwner2 : Address) : OwnerList :=
  (owners.add ⟨newOwner1, .unknown⟩).add ⟨newOwner2, .unknown⟩

/-- As long as the captured wallet has unknown owners, it is the wallet that was found, with the
new owners as unknown ones. -/
def Sound (h : Handler) : Prop :=
  (h.wallet.owner .unknown).isSome = true →
    h.wallet = { h.walletBefore with
      owners := withNewOwners h.walletBefore.owners h.newOwner1 h.newOwner2 }

/-- The unknown owners are taken off a captured wallet. -/
def stripped (h : Handler) : Wallet := { h.wallet with owners := h.wallet.owners.remove .unknown }

/-- What running a closure can do. -/
theorem transactionStatusUpdated_cases {h h' : Handler} {unsubscribed : Bool}
    (hrun : transactionStatusUpdated h r = .ok (h', unsubscribed, r')) :
    (r.find h.id = none ∧ h' = h ∧ unsubscribed = true ∧ r' = r) ∨
    ∃ tx, r.find h.id = some tx ∧
      ((tx.status = .pending ∧ h' = h ∧ unsubscribed = false ∧ r' = r) ∨
        (tx.status ≠ .pending ∧ unsubscribed = true ∧
          (tx.status = .success → (findWallet r.wallets h.walletBefore.id).isSome = true) ∧
          (h.wallet.owner .unknown).isSome = true ∧ h' = { h with wallet := stripped h } ∧
          r'.wallets = (r.saveWallet (stripped h)).wallets)) := by
  unfold transactionStatusUpdated at hrun
  cases hfind : r.find h.id with
  | none =>
      simp only [hfind] at hrun
      obtain ⟨rfl, hrest⟩ := Prod.mk.inj (Except.ok.inj hrun)
      obtain ⟨rfl, rfl⟩ := Prod.mk.inj hrest
      exact .inl ⟨rfl, rfl, rfl, rfl⟩
  | some tx =>
      simp only [hfind] at hrun
      refine .inr ⟨tx, rfl, ?_⟩
      by_cases hpending : tx.status = .pending
      · rw [if_pos hpending] at hrun
        obtain ⟨rfl, hrest⟩ := Prod.mk.inj (Except.ok.inj hrun)
        obtain ⟨rfl, rfl⟩ := Prod.mk.inj hrest
        exact .inl ⟨hpending, rfl, rfl, rfl⟩
      · rw [if_neg hpending] at hrun
        obtain ⟨w₁, hadded, hrun⟩ := bind_ok.mp hrun
        obtain ⟨w₂, hremoved, hrun⟩ := bind_ok.mp hrun
        have hunknown : (h.wallet.owner .unknown).isSome = true := by
          obtain ⟨-, -, hremoved⟩ := bind_ok.mp hremoved
          obtain ⟨u, hexists, -⟩ := bind_ok.mp hremoved
          unfold Wallet.assertOwnerExists at hexists
          split at hexists
          · assumption
          · cases hexists
        have hwallet : tx.status = .success →
            (findWallet r.wallets h.walletBefore.id).isSome = true := by
          intro hsuccess
          rw [addNewOwners, if_pos hsuccess] at hadded
          obtain ⟨w, hw, -⟩ := bind_ok.mp hadded
          rw [unwrap_ok.mp hw]
          rfl
        obtain rfl := Wallet.removeOwner_eq_ok hremoved
        refine .inr ⟨hpending, ?_⟩
        split at hrun
        · obtain ⟨rfl, hrest⟩ := Prod.mk.inj (Except.ok.inj hrun)
          obtain ⟨rfl, rfl⟩ := Prod.mk.inj hrest
          exact ⟨rfl, hwallet, hunknown, rfl, rfl⟩
        · obtain ⟨rfl, hrest⟩ := Prod.mk.inj (Except.ok.inj hrun)
          obtain ⟨rfl, rfl⟩ := Prod.mk.inj hrest
          exact ⟨rfl, hwallet, hunknown, rfl, rfl⟩

/-- A closure stays sound when it runs. -/
theorem Sound.transactionStatusUpdated {h h' : Handler} {unsubscribed : Bool} (hsound : Sound h)
    (hrun : transactionStatusUpdated h r = .ok (h', unsubscribed, r')) : Sound h' := by
  rcases transactionStatusUpdated_cases hrun with ⟨-, rfl, -⟩ | ⟨tx, -, ⟨-, rfl, -⟩ | hstripped⟩
  · exact hsound
  · exact hsound
  · obtain ⟨-, -, -, -, rfl, -⟩ := hstripped
    intro hunknown
    have hnone : (stripped h).owner .unknown = none := OwnerList.first_remove_self _ _
    rw [hnone] at hunknown
    exact nomatch hunknown

theorem storage_withNewOwners (owners : OwnerList) (newOwner1 newOwner2 : Address) :
    ((withNewOwners owners newOwner1 newOwner2).remove .unknown).storage =
      owners.storage.filter (·.role ≠ .unknown) := by
  simp [withNewOwners, OwnerList.add, OwnerList.append, OwnerList.remove, List.filter_append]

section Stripped

variable {h : Handler}

theorem owners_stripped (hsound : Sound h) (hunknown : (h.wallet.owner .unknown).isSome = true) :
    (stripped h).id = h.walletBefore.id ∧
      (stripped h).owners.storage = h.walletBefore.owners.storage.filter (·.role ≠ .unknown) := by
  rw [stripped, hsound hunknown]
  exact ⟨rfl, storage_withNewOwners _ _ _⟩

/-- The owners with a known role are those of the wallet that was found. -/
theorem owner_stripped (hsound : Sound h) (hunknown : (h.wallet.owner .unknown).isSome = true)
    {role : OwnerRole} (hrole : role ≠ .unknown) :
    (stripped h).owner role = h.walletBefore.owner role := by
  rw [Wallet.owner, OwnerList.first, (owners_stripped hsound hunknown).2]
  exact OwnerList.first_remove h.walletBefore.owners hrole

/-- They are all of its owners if there were no unknown ones. -/
theorem stripped_owners_eq (hsound : Sound h)
    (hunknown : (h.wallet.owner .unknown).isSome = true) :
    (stripped h).owners = h.walletBefore.owners ↔ h.walletBefore.owner .unknown = none := by
  have hstorage := (owners_stripped hsound hunknown).2
  have hnone : h.walletBefore.owner .unknown = none ↔
      ∀ o ∈ h.walletBefore.owners.storage, o.role ≠ .unknown := by
    simp [Wallet.owner, OwnerList.first]
  rw [hnone]
  constructor
  · intro heq
    rw [heq] at hstorage
    intro o ho
    exact of_decide_eq_true (List.filter_eq_self.mp hstorage.symm o ho)
  · intro hknown
    have hself : h.walletBefore.owners.storage.filter (·.role ≠ .unknown) =
        h.walletBefore.owners.storage :=
      List.filter_eq_self.mpr fun o ho => decide_eq_true (hknown o ho)
    cases hs : (stripped h).owners
    cases hb : h.walletBefore.owners
    rw [hself, hs, hb] at hstorage
    exact OwnerList.mk.injEq .. ▸ hstorage

end Stripped

/-! ### Runs -/

variable {s s' : Settings}

/-- Every closure there is is sound. -/
theorem step_sound {x : Step} (hs : ∀ h ∈ s.handlers, Sound h)
    (h : step lib metadata s x = .ok s') : ∀ h ∈ s'.handlers, Sound h := by
  cases x with
  | update id newPaperWallet derivedEOA answer relay clock =>
      obtain ⟨⟨handler, r⟩, hupdate, h⟩ := bind_ok.mp h
      cases handler with
      | none =>
          obtain rfl := Except.ok.inj h
          exact hs
      | some handler =>
          obtain rfl := Except.ok.inj h
          obtain ⟨w, address, owners, calls, tx, -, -, -, -, -, -, rfl, -⟩ := update_ok hupdate
          intro h hh
          rcases List.mem_append.mp hh with hh | hh
          · exact hs h hh
          · obtain rfl := List.mem_singleton.mp hh
            exact fun _ => rfl
  | cancel =>
      obtain ⟨r, -, h⟩ := bind_ok.mp h
      obtain rfl := Except.ok.inj h
      exact hs
  | publish =>
      obtain rfl := Except.ok.inj h
      exact hs
  | change r =>
      obtain rfl := Except.ok.inj h
      exact hs
  | run index =>
      rw [step] at h
      split at h
      · obtain rfl := Except.ok.inj h
        exact hs
      · rename_i i handler hdispatched
        obtain ⟨⟨handler', unsubscribed, r⟩, hrun, h⟩ := bind_ok.mp h
        obtain rfl := Except.ok.inj h
        obtain ⟨j, -, hj⟩ := Option.bind_eq_some_iff.mp hdispatched
        obtain ⟨handler'', hmem, hpair⟩ := Option.map_eq_some_iff.mp hj
        obtain ⟨rfl, rfl⟩ := Prod.mk.inj hpair
        intro h hh
        rcases List.mem_or_eq_of_mem_set hh with hh | rfl
        · exact hs h hh
        · exact (hs handler'' (List.mem_of_getElem? hmem)).transactionStatusUpdated hrun

/-! ### What a run of a closure should amount to -/

/-- The new phrase has reached the wallet: its accounts are owners now, the other owners are
those that were stored, and no owner is unknown. -/
structure Reached (h : Handler) (w w' : Wallet) : Prop where
  paperWallet : w'.owner .paperWallet = some ⟨h.newOwner1, .paperWallet⟩
  paperWalletDerived : w'.owner .paperWalletDerived = some ⟨h.newOwner2, .paperWalletDerived⟩
  thisDevice : w'.owner .thisDevice = w.owner .thisDevice
  browserExtension : w'.owner .browserExtension = w.owner .browserExtension
  unknown : w'.owner .unknown = none

/-- The status of the transaction that a closure waits for, if there is one. -/
def status (s : Settings) (h : Handler) : Option TransactionStatus :=
  (s.repositories.find h.id).map (·.status)

/-- After the run of closure `i`: the phrase has reached the wallet if the transaction has
succeeded; the closure still waits if it has not ended; otherwise the owners are those from
before. -/
def Settled (i : Nat) (h : Handler) (s s' : Settings) : Prop :=
  match status s h with
  | some .success => ∃ w w', findWallet s.repositories.wallets h.walletBefore.id = some w ∧
      findWallet s'.repositories.wallets h.walletBefore.id = some w' ∧ Reached h w w'
  | some .draft | some .signing | some .pending => i ∈ s.subscriptions → i ∈ s'.subscriptions
  | _ => ∃ w', findWallet s'.repositories.wallets h.walletBefore.id = some w' ∧
      w'.owners = h.walletBefore.owners

/-- Before the run: the wallet had the new owners already, and its other owners have not changed
since; the closure waited for nothing; or there is nothing to take back. -/
def WasSettled (i : Nat) (h : Handler) (s : Settings) : Prop :=
  match status s h with
  | some .success => ∃ w, findWallet s.repositories.wallets h.walletBefore.id = some w ∧
      h.walletBefore.owner .paperWallet = some ⟨h.newOwner1, .paperWallet⟩ ∧
      h.walletBefore.owner .paperWalletDerived = some ⟨h.newOwner2, .paperWalletDerived⟩ ∧
      h.walletBefore.owner .thisDevice = w.owner .thisDevice ∧
      h.walletBefore.owner .browserExtension = w.owner .browserExtension
  | some .draft | some .signing => i ∉ s.subscriptions
  | some .pending => True
  | some _ => h.walletBefore.owner .unknown = none
  | none => ∃ w, findWallet s.repositories.wallets h.walletBefore.id = some w ∧
      w.owners = h.walletBefore.owners

/-- In any run of the app, a closure does what it should when it runs if and only if that was
done already. -/
theorem settled_reachable {s₀ : Settings} {steps : List Step} {index i : Nat} {h : Handler}
    (hs₀ : s₀.handlers = []) (hrun : Transition.run (step lib metadata) s₀ steps = .ok s)
    (hdispatched : s.dispatched[index]? = some i) (hh : s.handlers[i]? = some h)
    (hstep : step lib metadata s (.run index) = .ok s') :
    Settled i h s s' ↔ WasSettled i h s := by
  have hsound : Sound h := by
    have hs : ∀ h ∈ s.handlers, Sound h :=
      Transition.run_invariant (fun _ _ _ hs h => step_sound hs h)
        (fun h hh => by simp [hs₀] at hh) hrun
    exact hs h (List.mem_of_getElem? hh)
  have hfound : (s.dispatched[index]?.bind fun i => s.handlers[i]?.map fun h => (i, h)) =
      some (i, h) := by
    rw [hdispatched, Option.bind_some, hh]
    rfl
  rw [step, hfound] at hstep
  obtain ⟨⟨h', unsubscribed, r⟩, hrun, hstep⟩ := bind_ok.mp hstep
  obtain rfl := Except.ok.inj hstep
  unfold Settled WasSettled status
  rcases transactionStatusUpdated_cases hrun with ⟨hnone, rfl, rfl, rfl⟩ | ⟨tx, hfind, hcases⟩
  · rw [hnone]
    rfl
  · rw [hfind, Option.map_some]
    rcases hcases with ⟨hpending, rfl, rfl, rfl⟩ | hstripped
    · rw [hpending]
      simp
    · obtain ⟨hpending, rfl, hwallet, hunknown, rfl, hwallets⟩ := hstripped
      have hid := (owners_stripped hsound hunknown).1
      have hfound' : findWallet r.wallets h.walletBefore.id = some (stripped h) := by
        rw [hwallets, findWallet_saveWallet, if_pos hid.symm]
      have hsame : ∀ {role : OwnerRole}, role ≠ .unknown →
          (stripped h).owner role = h.walletBefore.owner role := owner_stripped hsound hunknown
      have hended : (∃ w', findWallet r.wallets h.walletBefore.id = some w' ∧
          w'.owners = h.walletBefore.owners) ↔ h.walletBefore.owner .unknown = none := by
        rw [hfound', ← stripped_owners_eq hsound hunknown]
        simp
      cases hstatus : tx.status with
      | pending => exact absurd hstatus hpending
      | draft => simp
      | signing => simp
      | failed => exact hended
      | rejected => exact hended
      | discarded => exact hended
      | success =>
          simp only [hfound']
          constructor
          · rintro ⟨w, w', hw, hw', hreached⟩
            obtain rfl := Option.some.inj hw'
            refine ⟨w, hw, ?_, ?_, ?_, ?_⟩
            · rw [← hsame (by decide), hreached.paperWallet]
            · rw [← hsame (by decide), hreached.paperWalletDerived]
            · rw [← hsame (by decide), hreached.thisDevice]
            · rw [← hsame (by decide), hreached.browserExtension]
          · rintro ⟨w, hw, hpaper, hderived, hdevice, hextension⟩
            exact ⟨w, _, hw, rfl, (hsame (by decide)).trans hpaper,
              (hsame (by decide)).trans hderived, (hsame (by decide)).trans hdevice,
              (hsame (by decide)).trans hextension, OwnerList.first_remove_self _ _⟩

/-! ### A new phrase -/

open ReplaceBrowserExtensionDomainService (readyWallet)

/-- The wallet with a draft for a new recovery phrase, and the new account. -/
def withDraft : Settings where
  repositories := {
    transactions := [
      { id := ['p'], type := .replaceRecoveryPhrase, walletID := ['w'], accountID := ⟨[], ['w']⟩
        status := .draft
        sender := some (Address.ofNat 100)
        recipient := some Address.zero
        amount := some (.ether 0)
        operation := some .delegateCall }]
    wallets := [readyWallet]
    selectedWallet := some ['w']
    tokens := []
    externallyOwnedAccounts := [(Address.ofNat 11, [1]), (Address.ofNat 21, [2])] }

/-- The draft is prepared; the contract has the four owners of the wallet. -/
def newPhrase : Step :=
  .update ['p'] (Address.ofNat 21) (Address.ofNat 22) (some (Abi.words [32, 4, 11, 12, 13, 14]))
    (fun _ => some ⟨1, 2, 3, 4, none, []⟩) fun _ => 0

/-- The transactions get a status. -/
def processed (status : TransactionStatus) (r : Repositories) : Repositories :=
  { r with transactions := r.transactions.map fun tx => { tx with status } }

/-- The transaction is prepared and processed, and the closure runs. -/
def pass (status : TransactionStatus) : Except Trap (Settings × Settings) := do
  let s₁ ← step reference EncryptionService.noMetadata withDraft newPhrase
  let s ← Transition.run (step reference EncryptionService.noMetadata) s₁
    [.change (processed status s₁.repositories), .publish]
  let s' ← step reference EncryptionService.noMetadata s (.run 0)
  return (s, s')

theorem pass_ok {status : TransactionStatus} (h : pass status = .ok (s, s')) :
    (∃ steps, Transition.run (step reference EncryptionService.noMetadata) withDraft steps = .ok s) ∧
      step reference EncryptionService.noMetadata s (.run 0) = .ok s' := by
  obtain ⟨s₁, h₁, h⟩ := bind_ok.mp h
  obtain ⟨s₂, h₂, h⟩ := bind_ok.mp h
  obtain ⟨s₃, h₃, h⟩ := bind_ok.mp h
  obtain ⟨rfl, rfl⟩ := Prod.mk.inj (Except.ok.inj h)
  exact ⟨⟨_ :: _, Transition.run_cons_ok.mpr ⟨s₁, h₁, h₂⟩⟩, h₃⟩

/-- If the transaction fails, the owners are those from before. -/
theorem settled_reachable_failed :
    ∃ s s' h, pass .failed = .ok (s, s') ∧ s.handlers[0]? = some h ∧
      status s h = some .failed ∧ Settled 0 h s s' := by
  have heval : ((pass .failed).toOption.any fun (s, _) => s.dispatched[0]? = some 0 ∧
      s.handlers[0]?.any fun h => status s h = some .failed ∧
        h.walletBefore.owner .unknown = none) = true := by
    decide +kernel
  obtain ⟨⟨s, s'⟩, hpass, hs⟩ := exists_ok_of_any heval
  obtain ⟨hdispatched, hs⟩ := of_decide_eq_true hs
  obtain ⟨h, hh, hs⟩ := (Option.any_eq_true _ _).mp hs
  obtain ⟨hstatus, hnone⟩ := of_decide_eq_true hs
  obtain ⟨⟨steps, hrun⟩, hstep⟩ := pass_ok hpass
  refine ⟨s, s', h, hpass, hh, hstatus, ?_⟩
  refine (settled_reachable rfl hrun hdispatched hh hstep).mpr ?_
  rw [WasSettled, hstatus]
  exact hnone

/-- If it succeeds, the wallet keeps the owners of the old phrase. -/
theorem not_settled_success :
    ∃ s s' h, (∃ steps, Transition.run (step reference EncryptionService.noMetadata) withDraft
        steps = .ok s) ∧ s.dispatched[0]? = some 0 ∧ s.handlers[0]? = some h ∧
      step reference EncryptionService.noMetadata s (.run 0) = .ok s' ∧
      status s h = some .success ∧ h.newOwner1 = Address.ofNat 21 ∧
      (∃ w', findWallet s'.repositories.wallets ['w'] = some w' ∧
        w'.owner .paperWallet = some ⟨Address.ofNat 13, .paperWallet⟩) ∧
      ¬Settled 0 h s s' := by
  have heval : ((pass .success).toOption.any fun (s, s') => s.dispatched[0]? = some 0 ∧
      (s.handlers[0]?.any fun h => status s h = some .success ∧ h.walletBefore.id = ['w'] ∧
        h.newOwner1 = Address.ofNat 21) ∧
      (findWallet s'.repositories.wallets ['w']).any fun w' =>
        w'.owner .paperWallet = some ⟨Address.ofNat 13, .paperWallet⟩) = true := by
    decide +kernel
  obtain ⟨⟨s, s'⟩, hpass, hs⟩ := exists_ok_of_any heval
  obtain ⟨hdispatched, hs, hw⟩ := of_decide_eq_true hs
  obtain ⟨h, hh, hs⟩ := (Option.any_eq_true _ _).mp hs
  obtain ⟨hstatus, hid, hnew⟩ := of_decide_eq_true hs
  obtain ⟨w', hw', hpaper⟩ := (Option.any_eq_true _ _).mp hw
  have hpaper := of_decide_eq_true hpaper
  obtain ⟨hrun, hstep⟩ := pass_ok hpass
  refine ⟨s, s', h, hrun, hdispatched, hh, hstep, hstatus, hnew, ⟨w', hw', hpaper⟩, ?_⟩
  rw [Settled, hstatus]
  rintro ⟨w, v, -, hv, hreached⟩
  rw [hid, hw'] at hv
  obtain rfl := Option.some.inj hv
  have heq := hpaper.symm.trans hreached.paperWallet
  rw [hnew] at heq
  exact absurd heq (by decide)

end WalletSettingsDomainService

end MultisigWallet
