import MultisigWallet.ContractProxySound
import MultisigWallet.Lib.Transition
import MultisigWallet.OwnerLinkedList
import MultisigWallet.SafeContract

/-!
# MultisigWallet.OwnerLinkedListSound

The app's list of owners against the contract's.

`OwnerChain` is the part of the owner manager that the app mirrors, the linked list without the
threshold. The app's array holds its owners in lower case between two sentinels (`Follows`); every
edit of the array keeps step with the contract's mutator, and the previous-owner argument that is
read off the array is the contract's own link. An array to which nothing was added holds one
sentinel.
-/

namespace MultisigWallet

/-! ### The contract's list -/

/-- The owners of a contract, in link order from the sentinel. -/
structure OwnerChain where
  owners : List Nat
  nodup : owners.Nodup
  ordinary : ∀ a ∈ owners, IsOrdinary a

namespace OwnerChain

/-- `swapOwner(prevOwner, oldOwner, newOwner)`. -/
def swapOwner (c : OwnerChain) (prev old new : Nat) : Option OwnerChain :=
  if h : IsOrdinary new ∧ new ∉ c.owners ∧ IsOrdinary old ∧
      Links.LinksTo (sentinelOwner :: c.owners) prev old then
    some
      { owners := Links.swap c.owners old new
        nodup := Links.nodup_swap c.nodup h.2.1
        ordinary := by
          intro a ha
          rcases Links.mem_swap.mp ha with ⟨rfl, -⟩ | ⟨ha, -⟩
          · exact h.1
          · exact c.ordinary a ha }
  else none

/-- `removeOwner(prevOwner, owner, threshold)`, whatever the threshold. -/
def removeOwner (c : OwnerChain) (prev owner : Nat) : Option OwnerChain :=
  if IsOrdinary owner ∧ Links.LinksTo (sentinelOwner :: c.owners) prev owner then
    some
      { owners := c.owners.erase owner
        nodup := c.nodup.erase owner
        ordinary := fun a ha => c.ordinary a (List.mem_of_mem_erase ha) }
  else none

theorem ext_owners {c d : OwnerChain} (h : c.owners = d.owners) : c = d := by
  cases c
  cases d
  simp_all

end OwnerChain

namespace OwnerManager

/-- The linked list of an owner manager. -/
def chain (m : OwnerManager) : OwnerChain := ⟨m.owners, m.nodup, m.ordinary⟩

/-- What the mutators of an owner manager do to its list. -/
theorem swapOwner_chain {m m' : OwnerManager} {prev old new : Nat}
    (h : m.swapOwner prev old new = some m') : m.chain.swapOwner prev old new = some m'.chain := by
  obtain ⟨hchecks, howners, -⟩ := swapOwner_eq_some.mp h
  have hchain : IsOrdinary new ∧ new ∉ m.chain.owners ∧ IsOrdinary old ∧
      Links.LinksTo (sentinelOwner :: m.chain.owners) prev old := hchecks
  rw [OwnerChain.swapOwner, dif_pos hchain]
  exact congrArg some (OwnerChain.ext_owners howners.symm)

theorem removeOwner_chain {m m' : OwnerManager} {prev owner threshold : Nat}
    (h : m.removeOwner prev owner threshold = some m') :
    m.chain.removeOwner prev owner = some m'.chain := by
  obtain ⟨⟨hordinary, hlink, -⟩, howners, -⟩ := removeOwner_eq_some.mp h
  rw [OwnerChain.removeOwner, if_pos ⟨hordinary, hlink⟩]
  exact congrArg some (OwnerChain.ext_owners howners.symm)

end OwnerManager

/-! ### An array that follows it -/

namespace OwnerLinkedList

/-- The owners of the contract, in lower case between two sentinels. -/
def Follows (l : OwnerLinkedList) (c : OwnerChain) : Prop :=
  l.list = (sentinelOwner :: (c.owners ++ [sentinelOwner])).map Address.ofNat

variable {l : OwnerLinkedList} {c c' : OwnerChain} {a b : Address}

theorem ofNat_chain_inj {x : Nat} (hx : x < 2 ^ 160) :
    ∀ n ∈ sentinelOwner :: (c.owners ++ [sentinelOwner]), Address.ofNat n = Address.ofNat x →
      n = x := by
  intro n hn h
  have hlt : n < 2 ^ 160 := by
    simp only [List.mem_cons, List.mem_append, List.not_mem_nil, or_false] at hn
    rcases hn with rfl | hn | rfl
    · decide
    · exact (c.ordinary n hn).2.2
    · decide
  exact Address.ofNat_inj hlt hx h

/-- The array after the owners of a contract were added, if it has some. -/
theorem follows_addAll {addresses : List Address} (hne : addresses ≠ [])
    (hwf : ∀ a ∈ addresses, a.WellFormed) (hc : c.owners = addresses.map Address.toNat) :
    ∃ l, ({} : OwnerLinkedList).addAll addresses = .ok l ∧ l.Follows c := by
  refine ⟨_, addAll_empty hne, ?_⟩
  have hnormal : addresses.map Address.normalized = c.owners.map Address.ofNat := by
    rw [hc, List.map_map]
    exact List.map_congr_left fun a ha => (hwf a ha).normalized_eq
  rw [Follows, chain, hnormal, Address.sentinelAddress_eq]
  simp [sentinelOwner]

/-- The previous-owner argument for an owner is the contract's link to it. -/
theorem Follows.addressBefore (h : l.Follows c) (ha : a.WellFormed) (hmem : a.toNat ∈ c.owners) :
    ∃ p < 2 ^ 160, l.addressBefore a = .ok (Address.ofNat p) ∧
      Links.LinksTo (sentinelOwner :: c.owners) p a.toNat := by
  have hne : a.toNat ≠ sentinelOwner := (c.ordinary _ hmem).2.1
  obtain ⟨p, hbefore, hlink, hp⟩ := Links.exists_before hmem hne
  have hlt : p < 2 ^ 160 := by
    rcases List.mem_cons.mp hp with rfl | hp
    · decide
    · exact (c.ordinary p hp).2.2
  refine ⟨p, hlt, ?_, hlink⟩
  rw [OwnerLinkedList.addressBefore, h, ha.normalized_eq, Links.before?_map (ofNat_chain_inj ha.toNat_lt),
    ← List.cons_append, Links.before?_append (List.mem_cons_of_mem _ hmem), hbefore]
  rfl

/-- Replacing an owner follows a swap in the contract. -/
theorem Follows.replace (h : l.Follows c) (ha : a.WellFormed) (hb : b.WellFormed)
    (hmem : a.toNat ∈ c.owners) (hc' : c'.owners = Links.swap c.owners a.toNat b.toNat) :
    (l.replace a b).Follows c' := by
  have hne : a.toNat ≠ sentinelOwner := (c.ordinary _ hmem).2.1
  rw [Follows, OwnerLinkedList.replace, h, ha.normalized_eq, hb.normalized_eq,
    Links.replace_map (ofNat_chain_inj ha.toNat_lt), ← List.cons_append,
    List.replace_append_left (List.mem_cons_of_mem _ hmem), hc', ← Links.replace_eq_swap c.nodup]
  congr 1
  rw [List.replace_cons, beq_eq_false_iff_ne.mpr hne]
  rfl

/-- Removing an owner follows a removal in the contract. -/
theorem Follows.remove (h : l.Follows c) (ha : a.WellFormed) (hmem : a.toNat ∈ c.owners)
    (hc' : c'.owners = c.owners.erase a.toNat) : (l.remove a).Follows c' := by
  have hne : sentinelOwner ≠ a.toNat := (c.ordinary _ hmem).2.1.symm
  rw [Follows, OwnerLinkedList.remove, h, ha.normalized_eq,
    Links.erase_map (ofNat_chain_inj ha.toNat_lt), List.erase_cons_tail (not_beq_of_ne hne),
    List.erase_append_left _ hmem, hc']

theorem Follows.contains (h : l.Follows c) (ha : a.WellFormed) :
    l.contains a = true ↔ a.toNat = sentinelOwner ∨ a.toNat ∈ c.owners := by
  rw [OwnerLinkedList.contains, h, List.contains_iff_mem, ha.normalized_eq, List.mem_map]
  constructor
  · intro hmem
    obtain ⟨n, hn, heq⟩ := hmem
    rw [← ofNat_chain_inj ha.toNat_lt n hn heq]
    simpa [or_comm, or_assoc] using hn
  · intro hmem
    rcases hmem with h | h
    · exact ⟨sentinelOwner, List.mem_cons_self, by rw [h]⟩
    · exact ⟨a.toNat, by simp [h], rfl⟩

/-- The first owner is linked to from the sentinel. -/
theorem Follows.addressBefore_first (h : l.Follows c) (ha : a.WellFormed)
    (hfirst : c.owners.head? = some a.toNat) :
    l.addressBefore a = .ok SafeOwnerManagerContractProxy.sentinelAddress := by
  have hmem : a.toNat ∈ c.owners := List.mem_of_head? hfirst
  obtain ⟨p, -, hbefore, hlink⟩ := h.addressBefore ha hmem
  obtain ⟨rest, howners⟩ := List.head?_eq_some_iff.mp hfirst
  have hnodup := c.nodup
  rw [howners] at hlink hnodup
  rcases hlink with ⟨hp, -⟩ | hlink
  · rw [hbefore, ← hp, Address.sentinelAddress_eq]
    rfl
  · exact absurd hlink.mem_tail (List.nodup_cons.mp hnodup).1

/-- The sentinel stands at both ends and nowhere else. -/
theorem Follows.shape (h : l.Follows c) :
    ∃ owners, l.list = SafeOwnerManagerContractProxy.sentinelAddress ::
        (owners ++ [SafeOwnerManagerContractProxy.sentinelAddress]) ∧
      SafeOwnerManagerContractProxy.sentinelAddress ∉ owners := by
  rw [Address.sentinelAddress_eq]
  refine ⟨c.owners.map Address.ofNat, ?_, fun hmem => ?_⟩
  · rw [h]
    simp [sentinelOwner]
  · obtain ⟨n, hn, heq⟩ := List.mem_map.mp hmem
    have hordinary := c.ordinary n hn
    exact hordinary.2.1 (Address.ofNat_inj hordinary.2.2 (by decide) heq)

end OwnerLinkedList

/-! ### In step -/

/-- An edit of the owners. -/
inductive OwnerEdit
  | replace (oldOwner newOwner : Address)
  | remove (owner : Address)
  deriving DecidableEq, Repr

/-- The app's array and the contract's list. -/
structure OwnerMirror where
  app : OwnerLinkedList
  contract : OwnerChain

namespace OwnerMirror

/-- Why an edit cannot be made in step. -/
inductive Failure
  | trapped (trap : Trap)
  | reverted

/-- An edit of the array, and the call of the contract with the previous owner read off it. -/
def step (m : OwnerMirror) : OwnerEdit → Except Failure OwnerMirror
  | .replace oldOwner newOwner =>
      match m.app.addressBefore oldOwner with
      | .error trap => .error (.trapped trap)
      | .ok prevOwner =>
          match m.contract.swapOwner prevOwner.toNat oldOwner.toNat newOwner.toNat with
          | none => .error .reverted
          | some contract => .ok ⟨m.app.replace oldOwner newOwner, contract⟩
  | .remove owner =>
      match m.app.addressBefore owner with
      | .error trap => .error (.trapped trap)
      | .ok prevOwner =>
          match m.contract.removeOwner prevOwner.toNat owner.toNat with
          | none => .error .reverted
          | some contract => .ok ⟨m.app.remove owner, contract⟩

/-- An owner that is there is replaced by a new one, or removed. -/
def Possible (m : OwnerMirror) : OwnerEdit → Prop
  | .replace oldOwner newOwner => oldOwner.WellFormed ∧ newOwner.WellFormed ∧
      oldOwner.toNat ∈ m.contract.owners ∧ IsOrdinary newOwner.toNat ∧
      newOwner.toNat ∉ m.contract.owners
  | .remove owner => owner.WellFormed ∧ owner.toNat ∈ m.contract.owners

/-- The array mirrors the contract's list after `added` were added and some were edited. -/
structure Mirrors (added : List Address) (m : OwnerMirror) : Prop where
  before : ∀ o : Address, o.WellFormed → o.toNat ∈ m.contract.owners →
    ∃ p : Address, p.WellFormed ∧ m.app.addressBefore o = .ok p ∧
      Links.LinksTo (sentinelOwner :: m.contract.owners) p.toNat o.toNat
  first : ∀ o : Address, o.WellFormed → m.contract.owners.head? = some o.toNat →
    m.app.addressBefore o = .ok SafeOwnerManagerContractProxy.sentinelAddress
  contains : ∀ o : Address, o.WellFormed → o.toNat ≠ sentinelOwner →
    (m.app.contains o = true ↔ o.toNat ∈ m.contract.owners)
  shape : (added = [] ∧ m.app.list = [SafeOwnerManagerContractProxy.sentinelAddress]) ∨
    (added ≠ [] ∧ ∃ owners, m.app.list = SafeOwnerManagerContractProxy.sentinelAddress ::
        (owners ++ [SafeOwnerManagerContractProxy.sentinelAddress]) ∧
      SafeOwnerManagerContractProxy.sentinelAddress ∉ owners)

variable {m : OwnerMirror} {added : List Address}

theorem step_follows {edit : OwnerEdit} (h : m.app.Follows m.contract) (hedit : m.Possible edit) :
    ∃ m', m.step edit = .ok m' ∧ m'.app.Follows m'.contract := by
  cases edit with
  | replace oldOwner newOwner =>
      obtain ⟨hold, hnew, hmem, hordinary, hfresh⟩ := hedit
      obtain ⟨p, hp, hbefore, hlink⟩ := h.addressBefore hold hmem
      have hchecks : IsOrdinary newOwner.toNat ∧ newOwner.toNat ∉ m.contract.owners ∧
          IsOrdinary oldOwner.toNat ∧
          Links.LinksTo (sentinelOwner :: m.contract.owners) p oldOwner.toNat :=
        ⟨hordinary, hfresh, m.contract.ordinary _ hmem, hlink⟩
      simp only [step, hbefore, Address.toNat_ofNat hp, OwnerChain.swapOwner, dif_pos hchecks]
      exact ⟨_, rfl, h.replace hold hnew hmem rfl⟩
  | remove owner =>
      obtain ⟨howner, hmem⟩ := hedit
      obtain ⟨p, hp, hbefore, hlink⟩ := h.addressBefore howner hmem
      have hchecks := And.intro (m.contract.ordinary _ hmem) hlink
      simp only [step, hbefore, Address.toNat_ofNat hp, OwnerChain.removeOwner, if_pos hchecks]
      exact ⟨_, rfl, h.remove howner hmem rfl⟩

theorem mirrors_of_follows (hadded : added ≠ []) (h : m.app.Follows m.contract) :
    Mirrors added m where
  before o ho hmem := by
    obtain ⟨p, hp, hbefore, hlink⟩ := h.addressBefore ho hmem
    refine ⟨Address.ofNat p, Address.wellFormed_ofNat p, hbefore, ?_⟩
    rw [Address.toNat_ofNat hp]
    exact hlink
  first o ho hfirst := h.addressBefore_first ho hfirst
  contains o ho hne := by rw [h.contains ho, or_iff_right hne]
  shape := .inr ⟨hadded, h.shape⟩

/-- An array to which nothing was added, for a contract without owners. -/
theorem mirrors_empty {l : OwnerLinkedList} {c : OwnerChain} (hc : c.owners = [])
    (hl : l.list = [SafeOwnerManagerContractProxy.sentinelAddress]) : Mirrors [] ⟨l, c⟩ := by
  have hnone : ∀ x, x ∉ c.owners := fun x hx => by
    rw [hc] at hx
    exact List.not_mem_nil hx
  refine ⟨fun o ho hmem => absurd hmem (hnone _),
    fun o ho hfirst => absurd (List.mem_of_head? hfirst) (hnone _), fun o ho hne => ?_,
    .inl ⟨rfl, hl⟩⟩
  refine iff_of_false (fun hcontains => ?_) (hnone _)
  rw [OwnerLinkedList.contains, hl, List.contains_iff_mem, List.mem_singleton, ho.normalized_eq,
    Address.sentinelAddress_eq] at hcontains
  exact hne (Address.ofNat_inj ho.toNat_lt (by decide) hcontains)

/-- The owners that a contract lists are added to an empty array, in any letter case. Then every
sequence of edits can be made in step, and the array mirrors the contract's list. -/
theorem run_mirrors {c : OwnerChain} {addresses : List Address}
    (hwf : ∀ a ∈ addresses, a.WellFormed) (hc : c.owners = addresses.map Address.toNat) :
    ∃ l, ({} : OwnerLinkedList).addAll addresses = .ok l ∧
      ∀ edits, Transition.Allowed step Possible ⟨l, c⟩ edits →
        ∃ m, Transition.run step ⟨l, c⟩ edits = .ok m ∧ Mirrors addresses m := by
  by_cases hne : addresses = []
  · subst hne
    refine ⟨{}, rfl, fun edits hedits => ?_⟩
    cases edits with
    | nil => exact ⟨⟨{}, c⟩, rfl, mirrors_empty hc rfl⟩
    | cons edit edits =>
        -- there is no owner to edit
        have hnone : ∀ x, x ∉ c.owners := fun x hx => by
          rw [hc] at hx
          exact List.not_mem_nil hx
        cases edit with
        | replace oldOwner newOwner => exact absurd hedits.1.2.2.1 (hnone _)
        | remove owner => exact absurd hedits.1.2 (hnone _)
  · obtain ⟨l, hl, hfollows⟩ := OwnerLinkedList.follows_addAll hne hwf hc
    refine ⟨l, hl, fun edits hedits => ?_⟩
    obtain ⟨m, hrun, hm⟩ := Transition.run_isOk_of_allowed
      (I := fun m : OwnerMirror => m.app.Follows m.contract)
      (fun m edit hedit h => step_follows h hedit) hfollows hedits
    exact ⟨m, hrun, mirrors_of_follows hne hm⟩

/-- The address `0x00…0d`, with its last digit as given. -/
def digitAddress (d : Char) : Address := ⟨hexMark ++ List.replicate 39 '0' ++ [d]⟩

/-- The contract of the owners `0x00…0a` and `0x00…0b`. -/
def tenAndEleven : OwnerChain := ⟨[10, 11], by decide, by decide⟩

/-- They are listed in both letter cases, and the first is replaced. -/
theorem run_mirrors_mixedCase :
    ∃ l m, ({} : OwnerLinkedList).addAll [digitAddress 'A', digitAddress 'b'] = .ok l ∧
      Transition.run step ⟨l, tenAndEleven⟩ [.replace (digitAddress 'a') (digitAddress 'C')] = .ok m ∧
      Mirrors [digitAddress 'A', digitAddress 'b'] m := by
  have hwf : ∀ d ∈ ['A', 'a', 'b', 'C'], (digitAddress d).WellFormed := by
    intro d hd
    refine Address.wellFormed_of_digits ?_
    revert d
    decide
  have hlisted : ∀ a ∈ [digitAddress 'A', digitAddress 'b'], a.WellFormed :=
    List.forall_mem_cons.mpr
      ⟨hwf 'A' (by decide), List.forall_mem_singleton.mpr (hwf 'b' (by decide))⟩
  have howners : tenAndEleven.owners = [digitAddress 'A', digitAddress 'b'].map Address.toNat := by
    decide
  have hpossible : (digitAddress 'a').toNat ∈ tenAndEleven.owners ∧
      IsOrdinary (digitAddress 'C').toNat ∧ (digitAddress 'C').toNat ∉ tenAndEleven.owners := by
    decide
  obtain ⟨l, hl, hedits⟩ := run_mirrors hlisted howners
  obtain ⟨m, hrun, hm⟩ := hedits [.replace (digitAddress 'a') (digitAddress 'C')]
    ⟨⟨hwf 'a' (by decide), hwf 'C' (by decide), hpossible⟩, by split <;> trivial⟩
  exact ⟨l, m, hl, hrun, hm⟩

end OwnerMirror

end MultisigWallet
