import MultisigWallet.Base
import Mathlib.Data.List.Nodup

/-!
# MultisigWallet.Wallet

The `Wallet` entity: its owners and the guards of its state.

An owner has a role. The known roles belong to one owner each, because `addOwner`
replaces; owners of role `unknown` are what the contract listed, and there may be any
number of them. `OwnerList` carries that as a field.
-/

namespace MultisigWallet

/-! ### Owners -/

/-- `OwnerRole`. -/
inductive OwnerRole
  | thisDevice
  | browserExtension
  | paperWallet
  | paperWalletDerived
  | unknown
  deriving DecidableEq, Repr

/-- A wallet owner. -/
structure Owner where
  address : Address
  role : OwnerRole
  deriving DecidableEq, Repr

/-- The known roles among the owners `l`. -/
def knownRoles (l : List Owner) : List OwnerRole :=
  (l.filter (·.role ≠ .unknown)).map (·.role)

/-- `OwnerList`: every known role has at most one owner. -/
structure OwnerList where
  storage : List Owner
  roles_nodup : (knownRoles storage).Nodup
  deriving DecidableEq, Repr

namespace OwnerList

theorem roles_nodup_nil : (knownRoles []).Nodup := List.nodup_nil

/-- `first(with:)`. -/
def first (l : OwnerList) (role : OwnerRole) : Option Owner :=
  l.storage.find? (·.role = role)

theorem roles_nodup_filter (l : OwnerList) (p : Owner → Bool) :
    (knownRoles (l.storage.filter p)).Nodup := by
  refine l.roles_nodup.sublist ?_
  exact (List.filter_sublist.filter _).map _

/-- `remove(with:)`. -/
def remove (l : OwnerList) (role : OwnerRole) : OwnerList where
  storage := l.storage.filter (·.role ≠ role)
  roles_nodup := l.roles_nodup_filter _

/-- `append(_:)` of an owner that is unknown, or whose role is free. -/
def append (l : OwnerList) (owner : Owner)
    (h : owner.role = .unknown ∨ ∀ o ∈ l.storage, o.role ≠ owner.role) : OwnerList where
  storage := l.storage ++ [owner]
  roles_nodup := by
    have hl := l.roles_nodup
    rw [knownRoles, List.filter_append, List.map_append]
    rcases h with h | h
    · simpa [h, knownRoles] using hl
    · by_cases hu : owner.role = .unknown
      · simpa [hu, knownRoles] using hl
      · simp only [List.filter_cons, List.filter_nil, decide_eq_true_eq, ne_eq, hu,
          not_false_eq_true, if_true, List.map_cons, List.map_nil]
        refine List.nodup_append.mpr ⟨hl, by simp, ?_⟩
        intro role hmem role' hrole'
        obtain ⟨o, ho, rfl⟩ := List.mem_map.mp hmem
        rw [List.mem_singleton.mp hrole']
        exact h o (List.mem_of_mem_filter ho)

/-- The part of `Wallet.addOwner(_:)` that changes the list. -/
def add (l : OwnerList) (owner : Owner) : OwnerList :=
  if h : owner.role = .unknown then l.append owner (.inl h)
  else (l.remove owner.role).append owner (.inr fun _ ho => by
    simpa using (List.mem_filter.mp ho).2)

theorem mem_of_first {l : OwnerList} {role : OwnerRole} {o : Owner} (h : l.first role = some o) :
    o ∈ l.storage ∧ o.role = role := by
  unfold first at h
  exact ⟨List.mem_of_find?_eq_some h, by simpa using List.find?_some h⟩

/-- The owner with a known role is the one `first(with:)` finds. -/
theorem eq_of_first {l : OwnerList} {role : OwnerRole} {o o' : Owner} (hrole : role ≠ .unknown)
    (h : l.first role = some o) (hmem : o' ∈ l.storage) (ho' : o'.role = role) : o' = o := by
  obtain ⟨hmem', ho⟩ := mem_of_first h
  have hnodup : ((l.storage.filter (·.role ≠ .unknown)).map (·.role)).Nodup := l.roles_nodup
  refine List.inj_on_of_nodup_map hnodup ?_ ?_ (ho'.trans ho.symm)
  · exact List.mem_filter.mpr ⟨hmem, by simpa [ho'] using hrole⟩
  · exact List.mem_filter.mpr ⟨hmem', by simpa [ho] using hrole⟩

end OwnerList

/-! ### States -/

/-- `WalletState.State`. -/
inductive WalletState
  | draft
  | deploying
  | waitingForFirstDeposit
  | notEnoughFunds
  | creationStarted
  | finalizingDeployment
  | readyToUse
  | recoveryDraft
  | recoveryInProgress
  | recoveryPostProcessing
  deriving DecidableEq, Repr

namespace WalletState

def canChangeOwners : WalletState → Bool
  | draft => true
  | readyToUse => true
  | recoveryDraft => true
  | _ => false

def canChangeTransactionHash : WalletState → Bool
  | finalizingDeployment => true
  | _ => false

def canChangeAddress : WalletState → Bool
  | deploying => true
  | recoveryDraft => true
  | _ => false

end WalletState

/-! ### The wallet -/

/-- The `Wallet` entity; `deploymentFee` is never assigned by the source and left out. -/
structure Wallet where
  id : WalletID
  state : WalletState := .draft
  owners : OwnerList
  address : Option Address := none
  feePaymentTokenAddress : Option Address := none
  minimumDeploymentTransactionAmount : Option Int := none
  creationTransactionHash : Option Str := none
  confirmationCount : Int := 1
  masterCopyAddress : Option Address := none
  contractVersion : Option Str := none
  deriving DecidableEq, Repr

namespace Wallet

/-- `owner(role:)`. -/
def owner (w : Wallet) (role : OwnerRole) : Option Owner := w.owners.first role

/-- `assertCanChangeOwners()`. -/
def assertCanChangeOwners (w : Wallet) : Except Trap Unit :=
  if w.state.canChangeOwners then .ok () else .error (.wallet .invalidState)

/-- `assertOwnerExists(_:)`. -/
def assertOwnerExists (w : Wallet) (role : OwnerRole) : Except Trap Unit :=
  if (w.owner role).isSome then .ok () else .error (.wallet .ownerNotFound)

/-- `addOwner(_:)`. -/
def addOwner (w : Wallet) (owner : Owner) : Except Trap Wallet := do
  w.assertCanChangeOwners
  return { w with owners := w.owners.add owner }

/-- `removeOwner(role:)`. -/
def removeOwner (w : Wallet) (role : OwnerRole) : Except Trap Wallet := do
  w.assertCanChangeOwners
  w.assertOwnerExists role
  return { w with owners := w.owners.remove role }

/-- `changeConfirmationCount(_:)`. -/
def changeConfirmationCount (w : Wallet) (newValue : Int) : Wallet :=
  { w with confirmationCount := newValue }

/-- `reset()`. -/
def reset (w : Wallet) : Wallet :=
  { w with
    creationTransactionHash := none
    address := none
    minimumDeploymentTransactionAmount := none }

/-! ### What the operations change -/

theorem addOwner_eq_ok {w w' : Wallet} {owner : Owner} (h : w.addOwner owner = .ok w') :
    w' = { w with owners := w.owners.add owner } := by
  unfold addOwner at h
  obtain ⟨-, -, h⟩ := bind_ok.mp h
  exact (Except.ok.inj h).symm

theorem removeOwner_eq_ok {w w' : Wallet} {role : OwnerRole} (h : w.removeOwner role = .ok w') :
    w' = { w with owners := w.owners.remove role } := by
  unfold removeOwner at h
  obtain ⟨-, -, h⟩ := bind_ok.mp h
  obtain ⟨-, -, h⟩ := bind_ok.mp h
  exact (Except.ok.inj h).symm

end Wallet

end MultisigWallet
