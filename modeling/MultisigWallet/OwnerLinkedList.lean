import MultisigWallet.ContractProxy
import MultisigWallet.Lib.Links

/-!
# MultisigWallet.OwnerLinkedList

The app's copy of the owner manager's linked list, from which the recovery and the browser
extension services take the previous-owner arguments of their calls. It is kept as an array
that starts with the sentinel and, once an owner is added, ends with it.
-/

namespace MultisigWallet

structure OwnerLinkedList where
  list : List Address := [SafeOwnerManagerContractProxy.sentinelAddress]
  deriving DecidableEq, Repr

namespace OwnerLinkedList

/-- `add(_:)`: the last element, a sentinel, stays last. -/
def add (l : OwnerLinkedList) (owner : Address) : Except Trap OwnerLinkedList :=
  match l.list.getLast? with
  | none => .error .removeFirst
  | some sentinel =>
      let list := l.list.dropLast
      let list := if list.isEmpty then list ++ [sentinel] else list
      .ok ⟨list ++ [owner.normalized] ++ [sentinel]⟩

/-- `replace(_:with:)`, in the place of the first occurrence. -/
def replace (l : OwnerLinkedList) (oldOwner newOwner : Address) : OwnerLinkedList :=
  ⟨l.list.replace oldOwner.normalized newOwner.normalized⟩

/-- `remove(_:)`. -/
def remove (l : OwnerLinkedList) (owner : Address) : OwnerLinkedList :=
  ⟨l.list.erase owner.normalized⟩

/-- `addressBefore(_:)`; traps on an address that is not in the list and on the first
one. -/
def addressBefore (l : OwnerLinkedList) (owner : Address) : Except Trap Address :=
  unwrap "list[index - 1]" (Links.before? l.list owner.normalized)

/-- `contains(_:)`. -/
def contains (l : OwnerLinkedList) (owner : Address) : Bool :=
  l.list.contains owner.normalized

/-- `firstAddress()`. -/
def firstAddress (l : OwnerLinkedList) : Option Address :=
  l.list.find? (· ≠ SafeOwnerManagerContractProxy.sentinelAddress)

/-- Owners added one after the other. -/
def addAll (l : OwnerLinkedList) : List Address → Except Trap OwnerLinkedList
  | [] => .ok l
  | owner :: owners => do
      let l ← l.add owner
      l.addAll owners

/-! ### The list of a contract's owners -/

/-- The list with the owners `xs` between its two sentinels. -/
def chain (xs : List Address) : OwnerLinkedList :=
  ⟨SafeOwnerManagerContractProxy.sentinelAddress ::
    (xs ++ [SafeOwnerManagerContractProxy.sentinelAddress])⟩

theorem add_chain (xs : List Address) (a : Address) :
    (chain xs).add a = .ok (chain (xs ++ [a.normalized])) := by
  unfold add chain
  rw [← List.cons_append, List.getLast?_concat]
  simp only [List.dropLast_concat]
  rfl

theorem addAll_chain (xs owners : List Address) :
    (chain xs).addAll owners = .ok (chain (xs ++ owners.map Address.normalized)) := by
  induction owners generalizing xs with
  | nil => rw [addAll, List.map_nil, List.append_nil]
  | cons a owners ih =>
      rw [addAll, add_chain]
      show (chain (xs ++ [a.normalized])).addAll owners = _
      rw [ih, List.append_assoc]
      rfl

/-- Owners added to the empty list stand in order, in lower case. -/
theorem addAll_empty {owners : List Address} (hne : owners ≠ []) :
    ({} : OwnerLinkedList).addAll owners = .ok (chain (owners.map Address.normalized)) := by
  obtain ⟨a, owners, rfl⟩ := List.exists_cons_of_ne_nil hne
  exact addAll_chain [a.normalized] owners

end OwnerLinkedList

end MultisigWallet
