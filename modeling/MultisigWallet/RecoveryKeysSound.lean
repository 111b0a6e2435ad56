import MultisigWallet.RecoveryServiceSound

/-!
# MultisigWallet.RecoveryKeysSound

The private keys of the recovery phrase and when they leave the device. A recovery removes
them before it makes the wallet ready to use, and only a device that has them can build the
transaction of another one, so a wallet that got ready by recovery is without them. A creation
removes them when `WalletCreated` is handled, after the notification service has been told.
-/

namespace MultisigWallet

/-! ### Devices without the keys -/

/-- The roles of the owners that the recovery phrase derives. -/
def OwnerRole.isRecovery : OwnerRole → Bool
  | paperWallet => true
  | paperWalletDerived => true
  | _ => false

namespace Device

/-- No account is stored for an owner that the recovery phrase derives. -/
def WithoutRecoveryKeys (d : Device) : Prop :=
  ∀ role o, role.isRecovery = true → d.wallet.owner role = some o → d.privateKey o.address = none

variable {d : Device}

theorem privateKey_removeAccount_self (d : Device) (a : Address) :
    (d.removeAccount a).privateKey a = none := by
  simp [privateKey, removeAccount, List.find?_filter]

theorem privateKey_removeAccount {a b : Address} (h : d.privateKey b = none) :
    (d.removeAccount a).privateKey b = none := by
  simp only [privateKey, Option.map_eq_none_iff, List.find?_eq_none, removeAccount] at h ⊢
  intro account haccount
  exact h account (List.mem_of_mem_filter haccount)

theorem WithoutRecoveryKeys.removeAccount (h : d.WithoutRecoveryKeys) (a : Address) :
    (d.removeAccount a).WithoutRecoveryKeys := fun role o hrole ho =>
  privateKey_removeAccount (h role o hrole ho)

/-- Removing both accounts is enough. -/
theorem withoutRecoveryKeys_removed {paperWallet derived : Owner}
    (hpaper : d.wallet.owner .paperWallet = some paperWallet)
    (hderived : d.wallet.owner .paperWalletDerived = some derived) :
    ((d.removeAccount paperWallet.address).removeAccount derived.address).WithoutRecoveryKeys := by
  intro role o hrole ho
  have ho : d.wallet.owner role = some o := ho
  cases role with
  | paperWallet =>
      obtain rfl := Option.some.inj (hpaper.symm.trans ho)
      exact privateKey_removeAccount (privateKey_removeAccount_self d _)
  | paperWalletDerived =>
      obtain rfl := Option.some.inj (hderived.symm.trans ho)
      exact privateKey_removeAccount_self _ _
  | thisDevice => exact nomatch hrole
  | browserExtension => exact nomatch hrole
  | unknown => exact nomatch hrole

/-- The owners of a recovery phrase and their accounts decide. -/
theorem WithoutRecoveryKeys.congr {d' : Device} (h : d.WithoutRecoveryKeys)
    (howner : ∀ role, role.isRecovery = true → d'.wallet.owner role = d.wallet.owner role)
    (haccounts : d'.accounts = d.accounts) : d'.WithoutRecoveryKeys := by
  intro role o hrole ho
  rw [privateKey, haccounts]
  exact h role o hrole ((howner role hrole).symm.trans ho)

end Device

/-! ### Recovery -/

namespace RecoveryDomainService

/-- A wallet that is ready to use has neither the keys nor owners of unknown role. -/
structure Cleared (d : Device) : Prop where
  keys : d.wallet.state = .readyToUse → d.WithoutRecoveryKeys
  unknown : d.wallet.state = .readyToUse → d.wallet.owner .unknown = none

/-- Where the call returns or traps, the device is cleared. -/
abbrev Clears {α : Type} (call : Saving α) (d : Device) : Prop :=
  Journal.Does call d (fun _ d' => Cleared d') (fun _ _ => True) fun _ d' => Cleared d'

variable {lib : ThirdParty} {metadata : SafeContractMetadata} {answers : ContractAnswers}
  {d : Device} {tx : Transaction} {now : Date} {w : Wallet}

theorem Cleared.of_state (h : d.wallet.state ≠ .readyToUse) : Cleared d :=
  ⟨fun hready => absurd hready h, fun hready => absurd hready h⟩

/-- Neither the transaction nor what is not stored matters. -/
theorem Cleared.withTransaction (h : Cleared d) (tx : Option Transaction) :
    Cleared { d with transaction := tx } := ⟨h.keys, h.unknown⟩

theorem Cleared.removeAccount (h : Cleared d) (a : Address) : Cleared (d.removeAccount a) :=
  ⟨fun hready => (h.keys hready).removeAccount a, h.unknown⟩

/-- No owner of unknown role is left to confirm a recovery phrase. -/
theorem Cleared.not_mem (h : Cleared d) (hready : d.wallet.state = .readyToUse) {o : Owner}
    (ho : o.role = .unknown) : o ∉ d.wallet.owners.storage := by
  intro hmem
  have hnone := h.unknown hready
  simp only [Wallet.owner, OwnerList.first, List.find?_eq_none] at hnone
  exact hnone o hmem (decide_eq_true ho)

theorem owner_saveAccount {lib : ThirdParty} {account : ExternallyOwnedAccount} {o : Owner}
    (h : owner lib account = .ok o) : o.role = .unknown := by
  obtain ⟨_, -, h⟩ := bind_ok.mp h
  exact Except.ok.inj h ▸ rfl

theorem state_ne_of_canChangeAddress (h : w.state.canChangeAddress = true) :
    w.state ≠ .readyToUse := by
  intro hready
  rw [hready] at h
  exact nomatch h

/-- Calls that keep a state other than `readyToUse`. -/
abbrev Stays {α : Type} (call : Saving α) (d : Device) : Prop :=
  Journal.Does call d (fun _ d' => d'.wallet.state = d.wallet.state) (fun _ _ => True)
    fun _ d' => d'.wallet.state = d.wallet.state

theorem clears_of_stays {α : Type} {call : Saving α} (h : Stays call d)
    (hstate : d.wallet.state ≠ .readyToUse) : Clears call d :=
  h.weaken (fun _ _ hkept => .of_state (hkept ▸ hstate)) (fun _ _ => id)
    fun _ _ hkept => .of_state (hkept ▸ hstate)

theorem stays_pullWalletData : Stays (pullWalletData lib answers) d := by
  refine Journal.Does.get_bind (Journal.Does.lift_bind (fun _ _ => ?_) fun _ _ => rfl)
  split
  · refine Journal.Does.lift_bind (fun existingOwnerAddresses _ => ?_) fun _ _ => rfl
    refine Journal.Does.lift_bind (fun confirmationCount _ => ?_) fun _ _ => rfl
    refine Journal.Does.lift_bind (fun w hw => ?_) fun _ _ => rfl
    have hstate := (RecoveryTransactionBuilder.addUnknownOwners_same hw).state
    split
    · exact Journal.Does.modify trivial hstate
    · exact Journal.Does.pure rfl
  · exact Journal.Does.pure rfl

theorem clears_changeAddress {address : Address} (h : Cleared d) :
    Clears (changeAddress lib metadata address answers) d := by
  unfold changeAddress
  split
  · split
    · refine Journal.Does.get_bind (Journal.Does.lift_bind (fun w hw => ?_) fun _ _ => h)
      obtain ⟨rfl, hcan⟩ := Wallet.changeAddress_eq_ok hw
      exact Journal.Does.modify_bind trivial
        (clears_of_stays stays_pullWalletData (state_ne_of_canChangeAddress hcan))
    · exact Journal.Does.pure h
  · exact Journal.Does.pure h

theorem stays_saveAccount {account : ExternallyOwnedAccount} :
    Journal.Does (saveAccount account) d (fun _ d' => d'.wallet = d.wallet) (fun _ _ => True)
      fun _ d' => d'.wallet = d.wallet := by
  refine Journal.Does.get_bind ?_
  split
  · exact Journal.Does.modify trivial rfl
  · exact Journal.Does.pure rfl

theorem clears_provide {eoa : Option EOAPair} (h : Cleared d) : Clears (provide lib eoa) d := by
  cases eoa with
  | none => exact Journal.Does.pure h
  | some pair =>
      have herr : ∀ {β : Type} {x : Except Trap β}, ∀ e, x = .error e → Cleared d := fun _ _ => h
      refine Journal.Does.get_bind ?_
      refine Journal.Does.lift_bind (fun recoveryOwner hrecovery => ?_) herr
      refine Journal.Does.lift_bind (fun derivedOwner _ => ?_) herr
      split
      · rename_i howners
        have hstate : d.wallet.state ≠ .readyToUse := fun hready =>
          h.not_mem hready (owner_saveAccount hrecovery) howners.1
        refine clears_of_stays ?_ hstate
        refine (stays_saveAccount.weaken (fun _ _ => id) (fun _ _ => id)
          fun _ _ hw => congrArg Wallet.state hw).bind ?_
        intro _ d₁ hwallet₁
        refine (stays_saveAccount.weaken (fun _ _ => id) (fun _ _ => id)
          fun _ _ hw => congrArg Wallet.state (hw.trans hwallet₁)).bind ?_
        intro _ d₂ hwallet₂
        have hstate₂ : d₂.wallet.state = d.wallet.state :=
          congrArg Wallet.state (hwallet₂.trans hwallet₁)
        refine Journal.Does.lift_bind (fun w₁ hw₁ => ?_) fun _ _ => hstate₂
        refine Journal.Does.lift_bind (fun w₂ hw₂ => ?_) fun _ _ => hstate₂
        obtain rfl := Wallet.addOwner_eq_ok hw₁
        obtain rfl := Wallet.addOwner_eq_ok hw₂
        exact Journal.Does.modify trivial rfl
      · exact Journal.Does.pure h

theorem clears_removeTransaction (h : Cleared d) :
    Journal.Does removeTransaction d
      (fun _ d' => d'.wallet = d.wallet ∧ d'.accounts = d.accounts ∧ Cleared d')
      (fun _ _ => True) fun _ d' => Cleared d' := by
  refine Journal.Does.get_bind ?_
  split
  · exact Journal.Does.modify trivial ⟨rfl, rfl, h.withTransaction none⟩
  · exact Journal.Does.pure ⟨rfl, rfl, h⟩

/-- The transaction of another recovery needs the keys, which a cleared device does not have. -/
theorem clears_createRecoveryTransaction {tokens : List Token} {id : TransactionID}
    (h : Cleared d) : Clears (createRecoveryTransaction lib metadata tokens id answers now) d := by
  refine (clears_removeTransaction h).bind ?_
  rintro _ d₁ ⟨-, -, h₁⟩
  refine Journal.Does.get_bind (Journal.Does.lift_bind (fun built hbuilt => ?_) fun _ _ => h₁)
  split
  · exact Journal.Does.pure h₁
  · rename_i b
    have hb := build_built hbuilt
    have hstate : d₁.wallet.state ≠ .readyToUse := by
      intro hready
      obtain ⟨o, ho, hkey⟩ := hb.key
      rw [h₁.keys hready .paperWallet o rfl ho] at hkey
      exact nomatch hkey
    have hsaved : Cleared ({ d₁ with transaction := some b.transaction }.saveWallet b.wallet) :=
      .of_state (hb.wallet.state ▸ hstate)
    exact Journal.Does.modify_bind trivial (Journal.Does.modify trivial hsaved)

theorem clears_cancelRecovery : Clears cancelRecovery d := by
  have hremove : Journal.Does removeTransaction d (fun _ _ => True) (fun _ _ => True)
      fun _ d' => Cleared d' := by
    refine Journal.Does.get_bind ?_
    split
    · exact Journal.Does.modify trivial trivial
    · exact Journal.Does.pure trivial
  refine hremove.bind ?_
  intro _ d₁ _
  have hsaved : Cleared (d₁.saveWallet d₁.wallet.reset.prepareForRecovery) := .of_state nofun
  exact Journal.Does.get_bind (Journal.Does.modify trivial hsaved)

theorem clears_perform {α : Type} {f : Wallet → Saving α} {point : SavePoint} {m : Moved}
    (h : Clears (f m.wallet) (if m.saved then d.saveWallet m.wallet else d)) :
    Clears (Saving.perform point m >>= f) d := by
  have hperform : Journal.Does (Saving.perform point m) d
      (fun w d' => w = m.wallet ∧ d' = if m.saved then d.saveWallet m.wallet else d)
      (fun _ _ => True) fun _ d' => Cleared d' := by
    unfold Saving.perform
    split
    · exact Journal.Does.modify_bind trivial (Journal.Does.pure ⟨rfl, rfl⟩)
    · exact Journal.Does.pure ⟨rfl, rfl⟩
  refine hperform.bind ?_
  rintro w d' ⟨rfl, rfl⟩
  exact h

/-- A recovery that is given up leaves a draft. -/
theorem clears_cancel :
    Clears (do
      let _ ← Saving.perform .recoveryCancelled w.cancel
      cancelRecovery) d := by
  refine clears_perform ?_
  split
  · exact clears_cancelRecovery
  · exact clears_cancelRecovery

theorem owner_eq_none_of_removeOwner {role : OwnerRole} {e : Trap} (hready : w.state = .readyToUse)
    (h : w.removeOwner role = .error e) : w.owner role = none := by
  rw [Wallet.removeOwner, Wallet.assertCanChangeOwners, hready] at h
  unfold Wallet.assertOwnerExists at h
  cases howner : w.owner role with
  | none => rfl
  | some o =>
      rw [howner] at h
      exact nomatch h

/-- What is stored when `proceed()` returns is the wallet it leaves. -/
theorem proceed_stored {m : Moved} (hm : d.wallet.proceed none = .ok m) :
    (if m.saved then d.saveWallet m.wallet else d).wallet = m.wallet ∧
      (if m.saved then d.saveWallet m.wallet else d).accounts = d.accounts ∧
      m.wallet.owners = d.wallet.owners := by
  obtain ⟨funded, -, hm⟩ := bind_ok.mp hm
  obtain rfl := Except.ok.inj hm
  split
  · exact ⟨rfl, rfl, rfl⟩
  · rename_i hsaved
    have hready : d.wallet.state = .readyToUse := by simpa using hsaved
    refine ⟨?_, rfl, rfl⟩
    show d.wallet = { d.wallet with state := d.wallet.state.proceed funded }
    have hsame : d.wallet.state.proceed funded = d.wallet.state := by
      rw [hready]
      rfl
    rw [hsame]

/-- The keys are gone when the wallet proceeds. -/
theorem clears_finish {m : Moved} (hm : d.wallet.proceed none = .ok m)
    (hkeys : d.WithoutRecoveryKeys) :
    Clears (do
      let wallet ← Saving.perform .other m
      let wallet ← Journal.lift (wallet.removeOwner .unknown)
      Saving.wallet .other wallet) d := by
  obtain ⟨hwallet, haccounts, howners⟩ := proceed_stored hm
  have howner : ∀ role, m.wallet.owner role = d.wallet.owner role := fun role => by
    rw [Wallet.owner, howners]
    rfl
  refine clears_perform ?_
  generalize (if m.saved then d.saveWallet m.wallet else d) = d₁ at hwallet haccounts ⊢
  have hkeys₁ : d₁.WithoutRecoveryKeys :=
    hkeys.congr (fun role _ => by rw [hwallet, howner]) haccounts
  refine Journal.Does.lift_bind (fun w hw => ?_) fun e he => ?_
  · obtain rfl := Wallet.removeOwner_eq_ok hw
    refine Journal.Does.modify trivial ⟨fun _ => ?_, fun _ => ?_⟩
    · refine hkeys₁.congr (fun role hrole => ?_) rfl
      have hrole : role ≠ .unknown := by
        rintro rfl
        cases hrole
      rw [hwallet]
      exact OwnerList.first_remove m.wallet.owners hrole
    · simp [Device.saveWallet, Wallet.owner, OwnerList.first, OwnerList.remove, List.find?_filter]
  · refine ⟨fun _ => hkeys₁, fun hready => ?_⟩
    rw [hwallet] at hready ⊢
    exact owner_eq_none_of_removeOwner hready he

theorem clears_postProcessing (h : Cleared d) : Clears (postProcessing lib answers) d := by
  have herr : ∀ {β : Type} {x : Except Trap β}, ∀ e, x = .error e → Cleared d := fun _ _ => h
  refine Journal.Does.get_bind ?_
  refine Journal.Does.lift_bind (fun _ _ => ?_) herr
  refine Journal.Does.lift_bind (fun _ _ => ?_) herr
  refine Journal.Does.lift_bind (fun recovered _ => ?_) herr
  cases recovered with
  | false => exact clears_cancel
  | true =>
      refine Journal.Does.lift_bind (fun paperWallet hpaper => ?_) herr
      refine Journal.Does.modify_bind trivial ?_
      refine Journal.Does.lift_bind (fun derived hderived => ?_)
        fun _ _ => h.removeAccount paperWallet.address
      refine Journal.Does.modify_bind trivial ?_
      refine Journal.Does.lift_bind (fun m hm => ?_)
        fun _ _ => (h.removeAccount paperWallet.address).removeAccount derived.address
      exact clears_finish hm
        (Device.withoutRecoveryKeys_removed (unwrap_ok.mp hpaper) (unwrap_ok.mp hderived))

theorem clears_handleTransactionProgress (h : Cleared d) (hstate : w.state = .recoveryInProgress) :
    Clears (handleTransactionProgress lib tx w answers) d := by
  unfold handleTransactionProgress
  split
  · refine Journal.Does.lift_bind (fun m hm => ?_) fun _ _ => h
    obtain ⟨hsaved, hm⟩ := proceed_recovery (.inr (hstate ▸ rfl)) hm
    refine clears_perform (clears_postProcessing ?_)
    rw [if_pos hsaved]
    refine .of_state ?_
    show m.wallet.state ≠ .readyToUse
    rw [hm, hstate]
    exact nofun
  · split
    · refine Journal.Does.lift_bind (fun m _ => ?_) fun _ _ => h
      exact clears_perform clears_cancel
    · exact Journal.Does.pure h

theorem clears_subscribe (h : Cleared d) : Clears subscribeForTransactionProcessing d := by
  refine Journal.Does.get_bind (Journal.Does.lift_bind (fun tx _ => ?_) fun _ _ => h)
  split
  · exact Journal.Does.pure h
  · exact Journal.Does.pure h

theorem clears_submit {clock : Clock} (hstate : d.wallet.state = .recoveryDraft) :
    Clears (submitRecoveryTransaction lib answers clock) d := by
  have h : Cleared d := .of_state (hstate ▸ by decide)
  refine Journal.Does.get_bind (Journal.Does.lift_bind (fun tx _ => ?_) fun _ _ => h)
  refine Journal.Does.lift_bind (fun request _ => ?_) fun _ _ => h
  split
  · exact Journal.Does.pure h
  · refine Journal.Does.lift_bind (fun tx₁ _ => ?_) fun _ _ => h
    refine Journal.Does.lift_bind (fun tx₂ _ => ?_) fun _ _ => h
    refine Journal.Does.modify_bind trivial ?_
    refine Journal.Does.lift_bind (fun m hm => ?_) fun _ _ => h.withTransaction _
    obtain ⟨hsaved, hm⟩ := proceed_recovery (.inl hstate) hm
    refine clears_perform (Journal.Does.modify_bind trivial (clears_subscribe ?_))
    refine .of_state ?_
    show m.wallet.state ≠ .readyToUse
    rw [hm, hstate]
    exact nofun

theorem clears_resume {clock : Clock} (hresumable : Resumable d) (h : Cleared d) :
    Clears (resume lib answers clock) d := by
  refine Journal.Does.get_bind (Journal.Does.lift_bind (fun tx htx => ?_) fun _ _ => h)
  have hconsistent : consistent d.wallet.state (some tx.status) = true := by
    have hconsistent := hresumable.consistent
    rwa [status?, unwrap_ok.mp htx] at hconsistent
  split
  · rename_i hbranch
    exact clears_submit (branch_state hbranch hconsistent).2
  · refine (clears_postProcessing h).bind ?_
    exact fun _ _ h' => Journal.Does.pure h'
  · exact clears_subscribe h
  · rename_i hbranch
    refine (clears_handleTransactionProgress h (branch_state hbranch hconsistent)).bind ?_
    exact fun _ _ h' => Journal.Does.pure h'
  · exact Journal.Does.fail h

theorem clears_updatePendingTransaction {succeeded : Bool} {date : Date} {clock : Clock}
    (h : Cleared d) : Clears (updatePendingTransaction succeeded date clock) d := by
  refine Journal.Does.get_bind ?_
  split
  · exact Journal.Does.pure h
  · split
    · refine Journal.Does.lift_bind (fun tx _ => ?_) fun _ _ => h
      exact Journal.Does.modify trivial (h.withTransaction _)
    · exact Journal.Does.pure h

theorem clears_transactionStatusUpdated (h : Cleared d) (hstate : w.state = .recoveryInProgress) :
    Clears (transactionStatusUpdated lib w answers) d := by
  refine Journal.Does.get_bind ?_
  split
  · exact Journal.Does.pure h
  · split
    · exact Journal.Does.pure h
    · refine (clears_handleTransactionProgress h hstate).bind ?_
      exact fun _ _ h' => Journal.Does.pure h'

/-! ### Runs of a recovery -/

variable {p p' : Process}

/-- A call that leaves the subscriptions alone. -/
theorem clears_unsubscribed {call : Saving PUnit} (hcall : Clears call p.device) :
    Journal.Does (do
      call
      return { p with device := ← Journal.get }) p.device (fun p' _ => Cleared p'.device)
      (fun _ _ => True) fun _ d' => Cleared d' :=
  hcall.bind fun _ _ h' => Journal.Does.get_bind (Journal.Does.pure h')

theorem clears_act (s : Step) (hp : ProcessInvariant p) (h : Cleared p.device) :
    Journal.Does (act lib metadata p s) p.device (fun p' _ => Cleared p'.device)
      (fun _ _ => True) fun _ d' => Cleared d' := by
  cases s with
  | changeAddress address answers => exact clears_unsubscribed (clears_changeAddress h)
  | provide eoa => exact clears_unsubscribed (clears_provide h)
  | createRecoveryTransaction tokens id answers now =>
      exact clears_unsubscribed (clears_createRecoveryTransaction h)
  | updatePendingTransaction succeeded date clock =>
      exact clears_unsubscribed (clears_updatePendingTransaction h)
  | cancelRecovery => exact clears_unsubscribed clears_cancelRecovery
  | publishStatusUpdated => exact Journal.Does.pure h
  | resume answers clock =>
      refine (clears_resume hp.resumable h).bind ?_
      exact fun _ _ h' => Journal.Does.get_bind (Journal.Does.pure h')
  | transactionStatusUpdated handler answers =>
      simp only [act]
      split
      · exact Journal.Does.pure h
      · rename_i w hw
        have hstate := hp.waiting w (List.mem_append_right _ (List.mem_of_getElem? hw))
        refine (clears_transactionStatusUpdated h hstate).bind ?_
        exact fun _ _ h' => Journal.Does.get_bind (Journal.Does.pure h')

theorem Spared.of_not_killed (s : Step) : Spared lib metadata p (s, none) := by
  intro point hpoint
  simp [killedAfter] at hpoint

theorem step_cleared {s : Step × Option Nat} (hkilled : s.2 = none) (hp : ProcessInvariant p)
    (h : Cleared p.device) (hstep : step lib metadata p s = .ok p') : Cleared p'.device := by
  obtain ⟨s, killed⟩ := s
  obtain rfl : killed = none := hkilled
  have hact : Journal.Does (act lib metadata p s) p.device (fun p' _ => Cleared p'.device)
      (fun _ _ => True) fun _ d' => Cleared d' := clears_act s hp h
  rcases step_unkilled hstep with ⟨e, hresult, rfl⟩ | hresult
  · exact hact.stops e hresult
  · exact hact.returns _ hresult

end RecoveryDomainService

/-! ### Creation -/

namespace Creation

open DeploymentDomainService
open RecoveryDomainService (owner_eq_none_of_removeOwner)

variable {lib : ThirdParty} {metadata : SafeContractMetadata} {d d' : Device} {c c' : Creation}

/-- A call leaves a device without the keys as it is, or a wallet that is not ready. -/
def KeepsOut (d d' : Device) : Prop :=
  d.WithoutRecoveryKeys → d'.wallet.state = .readyToUse → d'.WithoutRecoveryKeys

abbrev Keeps {α : Type} (call : Saving α) (d : Device) : Prop :=
  Journal.Does call d (fun _ d' => KeepsOut d d') (fun _ _ => True) fun _ d' => KeepsOut d d'

theorem KeepsOut.refl (d : Device) : KeepsOut d d := fun h _ => h

theorem KeepsOut.of_state (h : d'.wallet.state ≠ .readyToUse) : KeepsOut d d' :=
  fun _ hready => absurd hready h

theorem keeps_removeAccounts {o : Outside} (hready : d.wallet.state = .readyToUse) :
    Keeps (Serial.walletCreated o) d := by
  refine Journal.Does.get_bind ?_
  split
  · rename_i failure _
    -- a wallet that is ready is not cancelled
    have hcancel : d.wallet.cancel.saved = false := by
      simp [Wallet.cancel, hready, WalletState.cancel]
    cases failure with
    | network => exact Journal.Does.pure (.refl d)
    | other =>
        simp only [Serial.handleError, Saving.perform, hcancel, Bool.false_eq_true, if_false]
        exact Journal.Does.pure (.refl d)
  · refine Journal.Does.lift_bind (fun paperWallet _ => ?_) fun _ _ => .refl d
    refine Journal.Does.modify_bind trivial ?_
    refine Journal.Does.lift_bind (fun derived _ => ?_) fun _ _ h _ => h.removeAccount _
    exact Journal.Does.modify trivial fun h _ => (h.removeAccount _).removeAccount _

/-- Once the notification service has accepted, a handler that returns has removed the keys. -/
theorem removes_walletCreated {o : Outside} (haccepted : o.notification.isOk = true) :
    Journal.Does (Serial.walletCreated o) d (fun _ d' => d'.WithoutRecoveryKeys) (fun _ _ => True)
      fun _ _ => True := by
  refine Journal.Does.get_bind ?_
  split
  · rename_i hfailed
    rw [hfailed] at haccepted
    exact nomatch haccepted
  · refine Journal.Does.lift_bind (fun paperWallet hpaper => ?_) fun _ _ => trivial
    refine Journal.Does.modify_bind trivial ?_
    refine Journal.Does.lift_bind (fun derived hderived => ?_) fun _ _ => trivial
    exact Journal.Does.modify trivial
      (Device.withoutRecoveryKeys_removed (unwrap_ok.mp hpaper) (unwrap_ok.mp hderived))

theorem keeps_changeOwners {change : Wallet → Except Trap Wallet}
    (hchange : ∀ w, change d.wallet = .ok w → ∀ role o, role.isRecovery = true →
      w.owner role = some o → d.wallet.owner role = some o) :
    Keeps (Serial.changeOwners change) d := by
  refine Journal.Does.get_bind (Journal.Does.lift_bind (fun w hw => ?_) fun _ _ => .refl d)
  refine Journal.Does.modify trivial fun h _ role o hrole ho => ?_
  exact h role o hrole (hchange w hw role o hrole ho)

/-- What the calls do to a wallet that is ready to use. -/
theorem keeps_call {call : SetUp.Call} (hready : d.wallet.state = .readyToUse)
    (hphrase : (Step.call call).savesPhrase = false) :
    Keeps (SetUp.perform lib metadata call) d := by
  cases call with
  | addOwner owner =>
      show Keeps (Serial.changeOwners (·.addOwner owner)) d
      refine keeps_changeOwners fun w hw role o hrole ho => ?_
      obtain rfl := Wallet.addOwner_eq_ok hw
      have hne : role ≠ owner.role := by
        rintro rfl
        revert hphrase hrole
        cases howner : owner.role <;> simp [Step.savesPhrase, OwnerRole.isRecovery, howner]
      exact (OwnerList.first_add d.wallet.owners hne).symm.trans ho
  | removeOwner role' =>
      show Keeps (Serial.changeOwners (·.removeOwner role')) d
      refine keeps_changeOwners fun w hw role o hrole ho => ?_
      obtain rfl := Wallet.removeOwner_eq_ok hw
      by_cases hne : role = role'
      · obtain ⟨hmem, horole⟩ := OwnerList.mem_of_first ho
        exact absurd (horole.trans hne) (by simpa using (List.mem_filter.mp hmem).2)
      · exact (OwnerList.first_remove d.wallet.owners hne).symm.trans ho
  | start account =>
      refine Journal.Does.get_bind (Journal.Does.lift_bind (fun m hm => ?_) fun _ _ => .refl d)
      rw [Wallet.resume, hready] at hm
      obtain rfl := Except.ok.inj hm
      exact Journal.Does.pure (.refl d)
  | handle event outside hashAnswers answers =>
      refine Journal.Does.get_bind ?_
      rw [hready]
      split
      · rename_i hevent
        obtain rfl := Option.some.inj hevent
        exact keeps_removeAccounts hready
      · exact Journal.Does.pure (.refl d)
  | abortDeployment =>
      have hcancel : d.wallet.cancel = ⟨d.wallet, false, none⟩ := by
        simp [Wallet.cancel, hready, WalletState.cancel, WalletState.cancelEvent]
      refine Journal.Does.get_bind ?_
      rw [hcancel]
      exact Journal.Does.modify trivial fun h _ => h.congr (fun _ _ => rfl) rfl
  | prepareForCreation =>
      refine Journal.Does.get_bind (Journal.Does.modify trivial (.of_state ?_))
      show d.wallet.reset.prepareForCreation.state ≠ .readyToUse
      unfold Wallet.prepareForCreation
      split
      · rename_i hdraft
        rw [hdraft]
        decide
      · show WalletState.draft ≠ .readyToUse
        decide
  | prepareForRecovery =>
      refine Journal.Does.get_bind (Journal.Does.modify trivial (.of_state ?_))
      show WalletState.recoveryDraft ≠ .readyToUse
      decide
  | changeAddress address answers =>
      simp only [SetUp.perform, RecoveryDomainService.changeAddress]
      split
      · split
        · refine Journal.Does.get_bind (Journal.Does.lift_bind (fun w hw => ?_) fun _ _ => .refl d)
          have hcan := (Wallet.changeAddress_eq_ok hw).2
          exact absurd hready (RecoveryDomainService.state_ne_of_canChangeAddress hcan)
        · exact Journal.Does.pure (.refl d)
      · exact Journal.Does.pure (.refl d)

theorem keeps_act {s : Step} (hready : d.wallet.state = .readyToUse)
    (hphrase : s.savesPhrase = false) : Keeps (act lib metadata s) d := by
  cases s with
  | call call => exact keeps_call hready hphrase
  | generateExternallyOwnedAccount account => exact nomatch hphrase
  | generateDerivedExternallyOwnedAccount address derived => exact nomatch hphrase

/-- A step that handles `WalletCreated`, is accepted and returns removes the keys. -/
theorem removes_act {s : Step} (hready : d.wallet.state = .readyToUse)
    (haccepted : s.accepted? = some true) :
    Journal.Does (act lib metadata s) d (fun _ d' => d'.WithoutRecoveryKeys) (fun _ _ => True)
      fun _ _ => True := by
  unfold Step.accepted? at haccepted
  split at haccepted
  · rename_i outside hashAnswers answers
    refine Journal.Does.get_bind ?_
    rw [hready]
    exact removes_walletCreated (Option.some.inj haccepted)
  · exact nomatch haccepted

/-- Once `WalletCreated` has been handled, the wallet is ready to use and the keys are gone. -/
def KeysRemoved (c : Creation) : Prop :=
  c.handled = true → c.device.wallet.state = .readyToUse ∧ c.device.WithoutRecoveryKeys

theorem eq_readyToUse {state : WalletState} (h : state.isReadyToUse = true) : state = .readyToUse := by
  revert h
  cases state <;> decide

theorem step_keysRemoved {s : Step} (hnotified : Notified c s) (h : KeysRemoved c)
    (hstep : step lib metadata c s = .ok c') : KeysRemoved c' := by
  obtain rfl := Except.ok.inj hstep
  intro hhandled
  simp only [Bool.and_eq_true, Bool.or_eq_true] at hhandled
  obtain ⟨hready', hhandled⟩ := hhandled
  have hready' := eq_readyToUse hready'
  refine ⟨hready', ?_⟩
  by_cases hbefore : c.handled = true
  · obtain ⟨hready, hkeys⟩ := h hbefore
    have hkeeps : Keeps (act lib metadata s) c.device := keeps_act hready (hnotified hready).1
    cases hresult : (act lib metadata s c.device).result with
    | error e => exact hkeeps.stops e hresult hkeys hready'
    | ok _ => exact hkeeps.returns _ hresult hkeys hready'
  · obtain ⟨⟨hhandles, hready⟩, hreturned⟩ := hhandled.resolve_left hbefore
    have hready := eq_readyToUse hready
    obtain ⟨accepted, haccepted⟩ := Option.isSome_iff_exists.mp hhandles
    obtain rfl := (hnotified hready).2 (by simpa using hbefore) accepted haccepted
    have hremoves : Journal.Does (act lib metadata s) c.device
        (fun _ d' => d'.WithoutRecoveryKeys) (fun _ _ => True) fun _ _ => True :=
      removes_act hready haccepted
    cases hresult : (act lib metadata s c.device).result with
    | error e =>
        rw [hresult] at hreturned
        exact nomatch hreturned
    | ok _ => exact hremoves.returns _ hresult

end Creation

/-! ### The keys do not outlive the set-up -/

open DeploymentDomainService (offline deposited)
open RecoveryDomainService (Process Starting Cleared ProcessInvariant)

/-! ### A creation that is announced, and one that is not -/

/-- Relay and node answer that the contract is there. -/
def mined : Outside :=
  { offline with
    startCreation := .ok ()
    transactionHash := .ok (some ['h'])
    receipt := .ok (some true) }

/-- From the recovery phrase to the contract, and the notification. -/
def creationSteps (notification : Except Failure Unit) : List Creation.Step :=
  [.generateExternallyOwnedAccount ⟨Address.ofNat 13, [13]⟩,
    .call (.addOwner ⟨Address.ofNat 13, .paperWallet⟩),
    .generateDerivedExternallyOwnedAccount (Address.ofNat 13) ⟨Address.ofNat 14, [14]⟩,
    .call (.addOwner ⟨Address.ofNat 14, .paperWalletDerived⟩),
    .call (.start none),
    .call (.handle .deploymentStarted SetUp.answered [] []),
    .call (.handle .startedWaitingForFirstDeposit offline [] [deposited]),
    .call (.handle .deploymentFunded mined [] []),
    .call (.handle .creationStarted offline [mined] [mined]),
    .call (.handle .walletCreated { offline with notification := notification } [] [])]

/-- A new wallet and its key. -/
def newWallet : Creation where
  device :=
    { wallet := Wallet.new ['w'] (Address.ofNat 11), accounts := [(Address.ofNat 11, [11])] }

open RecoveryDomainService in
/-- The recovery of `run_resumable_killed`, without the kill. -/
def recoverySteps : List RecoveryDomainService.Step :=
  (processing true ++ [resumption afterRecovery none]).map (·.1)

open EncryptionService (noMetadata)

end MultisigWallet
