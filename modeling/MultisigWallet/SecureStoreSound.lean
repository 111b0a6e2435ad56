import Mathlib.Logic.Encodable.Basic
import Mathlib.Logic.Equiv.List
import MultisigWallet.Lib.Refinement
import MultisigWallet.Reference
import MultisigWallet.SecureStore

/-!
# MultisigWallet.SecureStoreSound

The repository of accounts is a list of its own, whoever else uses the keychain. `AccountProcess`
is that list: saving adds an account unless there is one with its address, finding and removing go
by the address. Its steps are those of the keychain (`keychain_refines`), so that what holds of its
runs holds of the keychain: a private key that was saved is found until it is removed
(`saved_found`), and nothing takes its place.
-/

namespace MultisigWallet

variable {coder : AccountCoder} {lib : ThirdParty} {store : KeychainService} {k : Keychain}
  {refusal : Option Refusal}

/-! ### The list -/

/-- The accounts that are stored, and what `find(by:)` has returned. -/
structure AccountProcess where
  accounts : List KeyAccount := []
  answers : List (Option KeyAccount) := []
  deriving DecidableEq

namespace AccountProcess

/-- A call that the system may refuse. -/
def admitted (refusal : Option Refusal) : Except Trap Unit :=
  if refusal.isSome then .error .store else .ok ()

def step (lib : ThirdParty) (p : AccountProcess) : KeychainAction → Except Trap AccountProcess
  | .save account refusal => do
      admitted refusal
      if p.accounts.any (·.address = account.address) then throw .store
      else return { p with accounts := p.accounts ++ [account] }
  | .find address refusal => do
      admitted refusal
      match p.accounts.find? (·.address = address) with
      | none => return { p with answers := p.answers ++ [none] }
      | some account =>
          -- The address of an account that was stored is checked when it is read.
          let _ ← Address.ofString lib account.address.value
          return { p with answers := p.answers ++ [some account] }
  | .remove address refusal => do
      admitted refusal
      return { p with accounts := p.accounts.filter (·.address ≠ address) }
  | .resetAll refusal => .ok (if refusal.isSome then p else { p with accounts := [] })
  | .other _ _ _ => .ok p

end AccountProcess

/-! ### Items and accounts -/

namespace KeychainProcess

/-- The items of a service. -/
def itemsOf (store : KeychainService) (k : Keychain) : List KeychainItem :=
  k.filter fun item => item.service = store.serviceIdentifier

/-- The item of an account. -/
def itemOf (coder : AccountCoder) (store : KeychainService) (a : KeyAccount) : KeychainItem :=
  ⟨store.serviceIdentifier, a.address.value, coder.encode a.dataStruct⟩

/-- The items of the service are the accounts. -/
def Holds (coder : AccountCoder) (store : KeychainService) (p : KeychainProcess)
    (q : AccountProcess) : Prop :=
  itemsOf store p.keychain = q.accounts.map (itemOf coder store) ∧ p.answers = q.answers

theorem address_value_inj {a b : Address} : a.value = b.value ↔ a = b :=
  ⟨fun h => by cases a; cases b; exact congrArg _ h, fun h => h ▸ rfl⟩

theorem isFor_itemOf (a : KeyAccount) (address : Address) :
    store.isFor address.value (itemOf coder store a) = decide (a.address = address) := by
  simp [KeychainService.isFor, itemOf, address_value_inj]

theorem find?_isFor (k : Keychain) (key : Str) :
    k.find? (store.isFor key) = (itemsOf store k).find? (store.isFor key) := by
  rw [itemsOf, List.find?_filter]
  congr 1
  funext item
  simp [KeychainService.isFor]

theorem any_isFor (k : Keychain) (key : Str) :
    k.any (store.isFor key) = (itemsOf store k).any (store.isFor key) := by
  rw [itemsOf, List.any_filter]
  congr 1
  funext item
  simp [KeychainService.isFor]

theorem itemsOf_append (k : Keychain) (items : List KeychainItem) :
    itemsOf store (k ++ items) = itemsOf store k ++ itemsOf store items :=
  List.filter_append k items

theorem itemsOf_filter (k : Keychain) (query : KeychainItem → Bool) :
    itemsOf store (k.filter query) = (itemsOf store k).filter query := by
  rw [itemsOf, itemsOf, List.filter_comm]

variable {accounts : List KeyAccount}

/-- The accounts that the items are, and the ones with an address. -/
theorem find?_accounts (h : itemsOf store k = accounts.map (itemOf coder store))
    (address : Address) : k.find? (store.isFor address.value) =
      (accounts.find? (·.address = address)).map (itemOf coder store) := by
  rw [find?_isFor, h, List.find?_map]
  congr 1
  congr 1
  funext a
  exact isFor_itemOf a address

theorem any_accounts (h : itemsOf store k = accounts.map (itemOf coder store))
    (address : Address) : k.any (store.isFor address.value) =
      accounts.any (·.address = address) := by
  rw [any_isFor, h, List.any_map]
  congr 1
  funext a
  exact isFor_itemOf a address

theorem filter_accounts (h : itemsOf store k = accounts.map (itemOf coder store))
    (address : Address) : itemsOf store (k.filter (!store.isFor address.value ·)) =
      (accounts.filter (·.address ≠ address)).map (itemOf coder store) := by
  rw [itemsOf_filter, h, List.filter_map]
  congr 1
  refine List.filter_congr fun a _ => ?_
  simp [isFor_itemOf]

/-! ### The calls of a store -/

/-- A removal that the system admits leaves what the query does not match, whether or not it
matches anything. -/
theorem remove_admitted (k : Keychain) (query : KeychainItem → Bool) :
    KeychainService.remove k none query = .ok (k.filter (!query ·)) := by
  unfold KeychainService.remove Keychain.answer Keychain.SecItemDelete
  cases hany : k.any query with
  | true => rfl
  | false =>
      have hfilter : k.filter (!query ·) = k := List.filter_eq_self.mpr fun item hitem => by
        simpa using List.any_eq_false.mp hany item hitem
      simp [hfilter]

theorem add_admitted (k : Keychain) (item : KeychainItem) :
    KeychainService.add k none item =
      if k.any (KeychainService.isFor ⟨item.service⟩ item.account) then
        .error (.unhandledError errSecDuplicateItem)
      else .ok (k ++ [item]) := by
  unfold KeychainService.add Keychain.answer Keychain.SecItemAdd KeychainService.isFor
  dsimp only
  cases k.any fun i => i.service = item.service && i.account = item.account with
  | true => rfl
  | false => rfl

theorem remove_refused (r : Refusal) (query : KeychainItem → Bool) :
    KeychainService.remove k (some r) query = .error (.unhandledError r.status) := by
  unfold KeychainService.remove Keychain.answer
  simp [r.status_ne]

theorem get_admitted (k : Keychain) (query : KeychainItem → Bool) :
    KeychainService.get k none query = .ok (k.find? query) := by
  unfold KeychainService.get Keychain.answer Keychain.SecItemCopyMatching
  cases k.find? query with
  | none => rfl
  | some item => rfl

theorem get_refused (r : Refusal) (query : KeychainItem → Bool) :
    KeychainService.get k (some r) query = .error (.unhandledError r.status) := by
  unfold KeychainService.get Keychain.answer
  simp [r.status_ne]

/-! ### The repository -/

/-! A call that the system refuses is a trap, whatever is stored. -/

open SecureExternallyOwnedAccountRepository in
theorem save_refused (r : Refusal) (account : KeyAccount) :
    save coder store k (some r) account = .error .store := rfl

open SecureExternallyOwnedAccountRepository in
theorem find_refused (r : Refusal) (address : Address) :
    find coder store k (some r) lib address = .error .store := by
  unfold find KeychainService.data
  rw [get_refused]
  rfl

open SecureExternallyOwnedAccountRepository in
theorem removal_refused (r : Refusal) (address : Address) :
    remove store k (some r) address = .error .store := by
  unfold remove KeychainService.removeData
  rw [remove_refused]
  rfl

open SecureExternallyOwnedAccountRepository in
theorem save_admitted (h : itemsOf store k = accounts.map (itemOf coder store))
    (account : KeyAccount) : save coder store k none account =
      if accounts.any (·.address = account.address) then .error .store
      else .ok (k ++ [itemOf coder store account]) := by
  unfold save KeychainService.save
  rw [add_admitted, any_accounts h]
  cases accounts.any (·.address = account.address) with
  | true => rfl
  | false => rfl

open SecureExternallyOwnedAccountRepository in
theorem find_absent (h : itemsOf store k = accounts.map (itemOf coder store)) {address : Address}
    (hfind : accounts.find? (·.address = address) = none) :
    find coder store k none lib address = .ok none := by
  unfold find KeychainService.data
  rw [get_admitted, find?_accounts h, hfind]
  rfl

open SecureExternallyOwnedAccountRepository in
/-- What is read is what was written, if the address passes. -/
theorem find_present (h : itemsOf store k = accounts.map (itemOf coder store)) {address : Address}
    {account : KeyAccount} (hfind : accounts.find? (·.address = address) = some account) :
    find coder store k none lib address =
      (do let _ ← Address.ofString lib account.address.value
          return some account) := by
  unfold find KeychainService.data
  rw [get_admitted, find?_accounts h, hfind]
  have hread : unwrap "decoder.decode(ExternallyOwnedAccountPersistedData.self, from: data)"
      (coder.decode (coder.encode account.dataStruct)) = .ok account.dataStruct := by
    rw [coder.decode_encode, unwrap_some]
  have hvalue : KeyAccount.ofDataStruct lib account.dataStruct =
      (do let _ ← Address.ofString lib account.address.value
          return account) := by
    unfold KeyAccount.ofDataStruct KeyAccount.dataStruct
    dsimp only
    cases hstring : Address.ofString lib account.address.value with
    | error e => rfl
    | ok address =>
        obtain rfl := Address.ofString_ok hstring
        rfl
  calc (do let dataStruct ← unwrap _ (coder.decode (coder.encode account.dataStruct))
           return some (← KeyAccount.ofDataStruct lib dataStruct))
      = (do return some (← KeyAccount.ofDataStruct lib account.dataStruct)) := by rw [hread]; rfl
    _ = _ := by
        rw [hvalue]
        cases Address.ofString lib account.address.value with
        | error e => rfl
        | ok address => rfl

open SecureExternallyOwnedAccountRepository in
theorem removal_admitted (k : Keychain) (address : Address) :
    remove store k none address = .ok (k.filter (!store.isFor address.value ·)) := by
  unfold remove KeychainService.removeData
  rw [remove_admitted]
  rfl

/-! ### Calls of stores -/

/-- A removal leaves the items that it is not about. -/
theorem itemsOf_removed {query : KeychainItem → Bool}
    (h : ∀ item, query item = true → item.service ≠ store.serviceIdentifier) :
    itemsOf store ((KeychainService.remove k refusal query).toOption.getD k) = itemsOf store k := by
  cases refusal with
  | some r =>
      rw [remove_refused]
      rfl
  | none =>
      rw [remove_admitted]
      refine (itemsOf_filter k _).trans (List.filter_eq_self.mpr fun item hitem => ?_)
      have hservice : item.service = store.serviceIdentifier := by
        simpa using (List.mem_filter.mp hitem).2
      cases hmatch : query item with
      | false => rfl
      | true => exact absurd hservice (h item hmatch)

theorem itemsOf_added {item : KeychainItem} (h : item.service ≠ store.serviceIdentifier) :
    itemsOf store ((KeychainService.add k refusal item).toOption.getD k) = itemsOf store k := by
  cases refusal with
  | some r => rfl
  | none =>
      rw [add_admitted]
      cases k.any (KeychainService.isFor ⟨item.service⟩ item.account) with
      | true => rfl
      | false =>
          refine (itemsOf_append k _).trans ?_
          simp [itemsOf, h]

/-- A call of another store leaves the items of this one. -/
theorem itemsOf_call {other : KeychainService}
    (h : other.serviceIdentifier ≠ store.serviceIdentifier) (c : StoreCall) :
    itemsOf store (call other k refusal c) = itemsOf store k := by
  cases c with
  | save data key => exact itemsOf_added h
  | removeData key =>
      refine itemsOf_removed fun item hitem => ?_
      have hservice := (Bool.and_eq_true_iff.mp hitem).1
      exact (of_decide_eq_true hservice).trans_ne h
  | destroy => exact itemsOf_removed fun item hitem => (of_decide_eq_true hitem).trans_ne h

/-- Destroying the store takes all its items away. -/
theorem itemsOf_destroyed : itemsOf store (call store k none .destroy) = [] := by
  unfold call KeychainService.destroy
  dsimp only
  rw [remove_admitted]
  refine List.filter_eq_nil_iff.mpr fun item hitem => ?_
  simpa using (List.mem_filter.mp hitem).2

/-! ### The steps -/

/-- Others use stores of their own. -/
def Foreign (store : KeychainService) : KeychainAction → Prop
  | .other other _ _ => other.serviceIdentifier ≠ store.serviceIdentifier
  | _ => True

theorem keychain_refines (coder : AccountCoder) (lib : ThirdParty) (store : KeychainService) :
    Refinement.Refines (step coder lib store) (AccountProcess.step lib) (Foreign store)
      (Holds coder store) := by
  intro p q a ha hpq
  obtain ⟨hitems, hanswers⟩ := hpq
  cases a with
  | save account refusal =>
      simp only [step, AccountProcess.step]
      cases refusal with
      | some r =>
          rw [save_refused]
          exact .error _
      | none =>
          rw [save_admitted hitems]
          cases q.accounts.any (·.address = account.address) with
          | true => exact .error _
          | false =>
              refine .ok ⟨?_, hanswers⟩
              rw [itemsOf_append, hitems, List.map_append]
              simp [itemsOf, itemOf]
  | find address refusal =>
      simp only [step, AccountProcess.step]
      cases refusal with
      | some r =>
          rw [find_refused]
          exact .error _
      | none =>
          cases hfind : q.accounts.find? (·.address = address) with
          | none =>
              rw [find_absent hitems hfind]
              exact .ok ⟨hitems, by rw [hanswers]⟩
          | some account =>
              rw [find_present hitems hfind]
              dsimp only
              cases Address.ofString lib account.address.value with
              | error e => exact .error e
              | ok _ => exact .ok ⟨hitems, by rw [hanswers]⟩
  | remove address refusal =>
      simp only [step, AccountProcess.step]
      cases refusal with
      | some r =>
          rw [removal_refused]
          exact .error _
      | none =>
          rw [removal_admitted]
          exact .ok ⟨filter_accounts hitems address, hanswers⟩
  | resetAll refusal =>
      cases refusal with
      | some r =>
          refine .ok ⟨?_, hanswers⟩
          unfold call KeychainService.destroy
          dsimp only
          rw [remove_refused]
          exact hitems
      | none => exact .ok ⟨itemsOf_destroyed, hanswers⟩
  | other other c refusal => exact .ok ⟨(itemsOf_call ha c).trans hitems, hanswers⟩

/-- Whoever else uses the keychain, and whenever the system refuses a call: the repository traps
where the list does, and otherwise it has answered as the list, and its items are the accounts of
the list. -/
theorem run_agrees (coder : AccountCoder) (lib : ThirdParty) {store : KeychainService}
    {k : Keychain} (hk : itemsOf store k = []) {as : List KeychainAction}
    (has : ∀ a ∈ as, Foreign store a) :
    Refinement.Agree (Holds coder store) (Transition.run (step coder lib store) ⟨k, []⟩ as)
      (Transition.run (AccountProcess.step lib) {} as) :=
  (keychain_refines coder lib store).run has ⟨hk, rfl⟩

/-- The fields of an account as lists of numbers, which have a number. -/
def fields (d : ExternallyOwnedAccountPersistedData) :
    List ℕ × List (List ℕ) × List ℕ × List ℕ × ℤ :=
  (d.address.map Char.toNat, d.mnemonic.map (·.map Char.toNat), d.privateKey.map UInt8.toNat,
    d.publicKey.map UInt8.toNat, d.derivedIndex)

def ofFields (f : List ℕ × List (List ℕ) × List ℕ × List ℕ × ℤ) :
    ExternallyOwnedAccountPersistedData :=
  ⟨f.1.map Char.ofNat, f.2.1.map (·.map Char.ofNat), f.2.2.1.map UInt8.ofNat,
    f.2.2.2.1.map UInt8.ofNat, f.2.2.2.2⟩

theorem ofFields_fields (d : ExternallyOwnedAccountPersistedData) : ofFields (fields d) = d := by
  simp [ofFields, fields, Function.comp_def]

/-- A coder that writes the number of the fields as that many bytes. -/
def unaryCoder : AccountCoder where
  encode d := List.replicate (Encodable.encode (fields d)) 0
  decode data := (Encodable.decode data.length).map ofFields
  decode_encode d := by
    rw [List.length_replicate, Encodable.encodek, Option.map_some, ofFields_fields]

/-- The account of the zero address. -/
def zeroAccount : KeyAccount := ⟨Address.zero, ["word".toList], [1], [2], 0⟩

/-- Another store has an item under the same address, and is destroyed. -/
theorem run_agrees_shared : ∃ p, Transition.run (step unaryCoder reference ⟨['a']⟩)
    ⟨[⟨['b'], Address.zero.value, [7]⟩], []⟩ [.save zeroAccount none, .other ⟨['b']⟩ .destroy none,
      .find Address.zero none, .remove Address.zero none, .find Address.zero none] = .ok p ∧
    p.answers = [some zeroAccount, none] ∧ itemsOf ⟨['a']⟩ p.keychain = [] := by
  let actions : List KeychainAction := [.save zeroAccount none, .other ⟨['b']⟩ .destroy none,
    .find Address.zero none, .remove Address.zero none, .find Address.zero none]
  have hforeign : ∀ x ∈ actions, Foreign ⟨['a']⟩ x := by simp [actions, Foreign]
  have hagree := run_agrees unaryCoder reference (k := [⟨['b'], Address.zero.value, [7]⟩])
    (by decide) hforeign
  obtain ⟨q, hq, hanswers⟩ := exists_ok_of_any (x := Transition.run (AccountProcess.step reference)
    {} [.save zeroAccount none, .other ⟨['b']⟩ .destroy none, .find Address.zero none,
      .remove Address.zero none, .find Address.zero none])
    (p := fun q => decide (q.answers = [some zeroAccount, none] ∧ q.accounts = []))
    (by decide +kernel)
  rw [show Transition.run (AccountProcess.step reference) {} actions = .ok q from hq] at hagree
  obtain ⟨p, hp, hitems, hsame⟩ := hagree.of_ok
  obtain ⟨hanswers, haccounts⟩ := of_decide_eq_true hanswers
  exact ⟨p, hp, hsame.trans hanswers, by rw [hitems, haccounts, List.map_nil]⟩

end KeychainProcess

/-! ### What was saved -/

namespace AccountProcess

variable {p q : AccountProcess} {a : KeyAccount}

theorem admitted_ok {refusal : Option Refusal} (h : admitted refusal = .ok ()) :
    refusal = none := by
  cases refusal with
  | none => rfl
  | some r => cases h

/-- An address is of one account at most. -/
def Distinct (p : AccountProcess) : Prop := (p.accounts.map (·.address)).Nodup

/-- What a step does to the accounts. -/
inductive Stepped (p q : AccountProcess) : KeychainAction → Prop
  | saved {account : KeyAccount} {refusal : Option Refusal}
      (hnew : account.address ∉ p.accounts.map (·.address))
      (heq : q.accounts = p.accounts ++ [account]) : Stepped p q (.save account refusal)
  | found {address : Address} {refusal : Option Refusal} (heq : q.accounts = p.accounts)
      (hanswer : q.answers = p.answers ++ [p.accounts.find? (·.address = address)]) :
      Stepped p q (.find address refusal)
  | removed {address : Address} {refusal : Option Refusal}
      (heq : q.accounts = p.accounts.filter (·.address ≠ address)) :
      Stepped p q (.remove address refusal)
  | reset {refusal : Option Refusal}
      (heq : q.accounts = p.accounts ∨ refusal = none ∧ q.accounts = []) :
      Stepped p q (.resetAll refusal)
  | other {store : KeychainService} {c : StoreCall} {refusal : Option Refusal}
      (heq : q = p) : Stepped p q (.other store c refusal)

theorem step_cases {action : KeychainAction} (h : p.step lib action = .ok q) :
    Stepped p q action := by
  cases action with
  | save account refusal =>
      obtain ⟨-, -, hsave⟩ := bind_ok.mp h
      cases hany : p.accounts.any (·.address = account.address) with
      | true =>
          rw [if_pos hany] at hsave
          cases hsave
      | false =>
          rw [if_neg (by simp [hany])] at hsave
          obtain rfl := Except.ok.inj hsave
          refine .saved (fun hmem => ?_) rfl
          obtain ⟨b, hb, hsame⟩ := List.mem_map.mp hmem
          simpa [hsame] using List.any_eq_false.mp hany b hb
  | find address refusal =>
      obtain ⟨-, -, hfind⟩ := bind_ok.mp h
      cases haccount : p.accounts.find? (·.address = address) with
      | none =>
          rw [haccount] at hfind
          obtain rfl := Except.ok.inj hfind
          exact .found rfl (by rw [haccount])
      | some account =>
          rw [haccount] at hfind
          obtain ⟨-, -, hanswer⟩ := bind_ok.mp hfind
          obtain rfl := Except.ok.inj hanswer
          exact .found rfl (by rw [haccount])
  | remove address refusal =>
      obtain ⟨-, -, hremove⟩ := bind_ok.mp h
      obtain rfl := Except.ok.inj hremove
      exact .removed rfl
  | resetAll refusal =>
      obtain rfl := Except.ok.inj h
      cases refusal with
      | none => exact .reset (.inr ⟨rfl, rfl⟩)
      | some r => exact .reset (.inl rfl)
  | other store c refusal => exact .other (Except.ok.inj h).symm

theorem Distinct.step {action : KeychainAction} (hp : p.Distinct)
    (h : p.step lib action = .ok q) : q.Distinct := by
  unfold Distinct
  cases step_cases h with
  | saved hnew heq =>
      rw [heq, List.map_append]
      exact hp.append (List.nodup_singleton _) (List.disjoint_singleton.mpr hnew)
  | found heq => exact heq ▸ hp
  | removed heq => exact heq ▸ hp.sublist (List.filter_sublist.map _)
  | reset heq =>
      rcases heq with heq | ⟨-, heq⟩
      · exact heq ▸ hp
      · exact heq ▸ List.nodup_nil
  | other heq => exact heq ▸ hp

/-- The action does not take the account away. -/
def Keeps (a : KeyAccount) : KeychainAction → Prop
  | .remove address _ => address ≠ a.address
  | .resetAll refusal => refusal.isSome = true
  | _ => True

/-- An account stays, and no other is saved under its address. -/
theorem mem_step {action : KeychainAction} (ha : a ∈ p.accounts) (hkeeps : Keeps a action)
    (h : p.step lib action = .ok q) : a ∈ q.accounts ∧
      ∀ b refusal, action = .save b refusal → b.address ≠ a.address := by
  cases step_cases h with
  | saved hnew heq =>
      refine ⟨heq ▸ List.mem_append_left _ ha, fun b refusal hb hsame => ?_⟩
      obtain ⟨rfl, rfl⟩ := KeychainAction.save.inj hb
      exact hnew (hsame ▸ List.mem_map_of_mem ha)
  | found heq => exact ⟨heq ▸ ha, nofun⟩
  | removed heq =>
      refine ⟨heq ▸ List.mem_filter.mpr ⟨ha, ?_⟩, nofun⟩
      exact decide_eq_true fun hsame => hkeeps hsame.symm
  | reset heq =>
      rcases heq with heq | ⟨rfl, -⟩
      · exact ⟨heq ▸ ha, nofun⟩
      · cases hkeeps
  | other heq => exact ⟨heq ▸ ha, nofun⟩

theorem mem_run {as : List KeychainAction} (ha : a ∈ p.accounts) (has : ∀ x ∈ as, Keeps a x)
    (hrun : Transition.run (step lib) p as = .ok q) : a ∈ q.accounts ∧
      ∀ b refusal, .save b refusal ∈ as → b.address ≠ a.address := by
  induction as generalizing p with
  | nil =>
      obtain rfl := Except.ok.inj hrun
      exact ⟨ha, fun b refusal hb => absurd hb List.not_mem_nil⟩
  | cons x as ih =>
      obtain ⟨hx, has⟩ := List.forall_mem_cons.mp has
      obtain ⟨u, hstep, hrest⟩ := Transition.run_cons_ok.mp hrun
      obtain ⟨hu, hfirst⟩ := mem_step ha hx hstep
      obtain ⟨hq, hothers⟩ := ih hu has hrest
      refine ⟨hq, fun b refusal hb => ?_⟩
      rcases List.mem_cons.mp hb with rfl | hb
      · exact hfirst b refusal rfl
      · exact hothers b refusal hb

/-- The account of an address is the one that is there. -/
theorem find?_of_mem (hp : p.Distinct) (ha : a ∈ p.accounts) :
    p.accounts.find? (·.address = a.address) = some a := by
  cases hfind : p.accounts.find? (·.address = a.address) with
  | none =>
      have habsent := List.find?_eq_none.mp hfind a ha
      simp at habsent
  | some b =>
      have hsame : b.address = a.address := by simpa using List.find?_some hfind
      exact congrArg some (List.inj_on_of_nodup_map hp (List.mem_of_find?_eq_some hfind) ha hsame)

end AccountProcess

/-! ### What the other modules read

The wallet and its services know of an account its address and its private key. -/

namespace Device

variable {d : Device} {accounts : List KeyAccount}

/-- The accounts of the device are those of the list. -/
def Reads (d : Device) (accounts : List KeyAccount) : Prop :=
  d.accounts = accounts.map fun a => (a.address, a.privateKey)

theorem Reads.privateKey (h : d.Reads accounts) (address : Address) :
    d.privateKey address = (accounts.find? (·.address = address)).map (·.privateKey) := by
  unfold Device.privateKey
  rw [h, List.find?_map, Option.map_map]
  rfl

/-- The device after an action that returned. -/
def after (d : Device) : KeychainAction → Device
  | .save account _ =>
      { d with accounts := d.accounts ++ [(account.address, account.privateKey)] }
  | .remove address _ => d.removeAccount address
  | .resetAll refusal => if refusal.isSome then d else { d with accounts := [] }
  | _ => d

theorem Reads.step {p q : AccountProcess} {action : KeychainAction} (h : d.Reads p.accounts)
    (hstep : p.step lib action = .ok q) : (d.after action).Reads q.accounts := by
  unfold Reads
  cases action with
  | save account refusal =>
      cases AccountProcess.step_cases hstep with
      | saved hnew heq =>
          rw [heq, List.map_append, ← h]
          rfl
  | find address refusal =>
      cases AccountProcess.step_cases hstep with
      | found heq => exact heq ▸ h
  | remove address refusal =>
      cases AccountProcess.step_cases hstep with
      | removed heq =>
          unfold after removeAccount
          rw [heq]
          dsimp only
          rw [h, List.filter_map]
          rfl
  | resetAll refusal =>
      obtain rfl := Except.ok.inj hstep
      cases refusal with
      | none => rfl
      | some r => exact h
  | other store c refusal =>
      obtain rfl := Except.ok.inj hstep
      exact h

/-- The private keys that the wallet and its services look up are those of the list. -/
theorem Reads.run {p q : AccountProcess} {as : List KeychainAction} (h : d.Reads p.accounts)
    (hrun : Transition.run (AccountProcess.step lib) p as = .ok q) :
    (as.foldl after d).Reads q.accounts := by
  induction as generalizing p d with
  | nil => exact Except.ok.inj hrun ▸ h
  | cons a as ih =>
      obtain ⟨u, hstep, hrest⟩ := Transition.run_cons_ok.mp hrun
      exact ih (h.step hstep) hrest

end Device

namespace KeychainProcess

/-- The private keys that the wallet and its services look up are those in the keychain. -/
theorem run_reads (coder : AccountCoder) (lib : ThirdParty) {store : KeychainService}
    {k : Keychain} (hk : itemsOf store k = []) {as : List KeychainAction}
    (has : ∀ a ∈ as, Foreign store a) {p : KeychainProcess}
    (hrun : Transition.run (step coder lib store) ⟨k, []⟩ as = .ok p) {d : Device}
    (hd : d.accounts = []) : ∃ accounts, itemsOf store p.keychain =
      accounts.map (itemOf coder store) ∧ (as.foldl Device.after d).Reads accounts := by
  have hagree := (keychain_refines coder lib store).run (s := ⟨k, []⟩) (t := {}) has ⟨hk, rfl⟩
  rw [hrun] at hagree
  obtain ⟨q, hq, hitems, -⟩ := hagree.ok_inv
  have hstart : d.Reads (AccountProcess.accounts {}) := hd
  exact ⟨q.accounts, hitems, hstart.run hq⟩

/-- A private key that was saved is not lost: until it is removed under its address, or everything
is, it is found as it was saved, and saving another account under its address is a trap. -/
theorem saved_found (coder : AccountCoder) (lib : ThirdParty) {store : KeychainService}
    {k : Keychain} (hk : itemsOf store k = []) {before after : List KeychainAction}
    {a : KeyAccount} {r r' : Option Refusal}
    (has : ∀ x ∈ before ++ .save a r :: (after ++ [.find a.address r']), Foreign store x)
    (hkeeps : ∀ x ∈ after, AccountProcess.Keeps a x) {p : KeychainProcess}
    (hrun : Transition.run (step coder lib store) ⟨k, []⟩
      (before ++ .save a r :: (after ++ [.find a.address r'])) = .ok p) :
    p.answers.getLast? = some (some a) ∧
      ∀ b refusal, .save b refusal ∈ after → b.address ≠ a.address := by
  have hagree := (keychain_refines coder lib store).run (s := ⟨k, []⟩) (t := {}) has ⟨hk, rfl⟩
  rw [hrun] at hagree
  obtain ⟨q, hq, -, hanswers⟩ := hagree.ok_inv
  obtain ⟨u, hbefore, hrest⟩ := Transition.run_append_ok.mp hq
  obtain ⟨v, hsave, hrest⟩ := Transition.run_cons_ok.mp hrest
  obtain ⟨t, hafter, hlast⟩ := Transition.run_append_ok.mp hrest
  obtain ⟨t', hfind, hend⟩ := Transition.run_cons_ok.mp hlast
  obtain rfl := Except.ok.inj hend
  have hv : a ∈ v.accounts := by
    cases AccountProcess.step_cases hsave with
    | saved hnew heq => exact heq ▸ List.mem_append_right _ (List.mem_singleton_self a)
  obtain ⟨ht, hothers⟩ := AccountProcess.mem_run hv hkeeps hafter
  have hdistinct : t.Distinct := by
    have hstart : AccountProcess.Distinct {} := List.nodup_nil
    have hu := Transition.run_invariant (fun _ _ _ => AccountProcess.Distinct.step) hstart hbefore
    exact Transition.run_invariant (fun _ _ _ => AccountProcess.Distinct.step) (hu.step hsave)
      hafter
  refine ⟨?_, hothers⟩
  cases AccountProcess.step_cases hfind with
  | found heq hanswer =>
      rw [hanswers, hanswer, AccountProcess.find?_of_mem hdistinct ht]
      simp

theorem saved_found_twice : ∃ p, p.answers.getLast? = some (some zeroAccount) ∧
    Transition.run (step unaryCoder reference ⟨['a']⟩) ⟨[], []⟩
      ([.resetAll none] ++ .save zeroAccount none :: ([.find Address.two none,
        .remove Address.two none] ++ [.find Address.zero none])) = .ok p := by
  let actions : List KeychainAction := [.resetAll none] ++ .save zeroAccount none ::
    ([.find Address.two none, .remove Address.two none] ++ [.find zeroAccount.address none])
  have hforeign : ∀ x ∈ actions, Foreign ⟨['a']⟩ x := by simp [actions, Foreign]
  have hkeeps : ∀ x ∈ [.find Address.two none, .remove Address.two none],
      AccountProcess.Keeps zeroAccount x := by
    simp [AccountProcess.Keeps, zeroAccount, Address.two, Address.zero]
  have hagree := (keychain_refines unaryCoder reference ⟨['a']⟩).run (s := ⟨[], []⟩) (t := {})
    hforeign ⟨rfl, rfl⟩
  obtain ⟨q, hq, -⟩ := exists_ok_of_any (x := Transition.run (AccountProcess.step reference) {}
    ([.resetAll none] ++ .save zeroAccount none :: ([.find Address.two none,
      .remove Address.two none] ++ [.find Address.zero none]))) (p := fun _ => true)
    (by decide +kernel)
  rw [show Transition.run (AccountProcess.step reference) {} actions = .ok q from hq] at hagree
  obtain ⟨p, hp, -⟩ := hagree.of_ok
  exact ⟨p, (saved_found unaryCoder reference rfl hforeign hkeeps hp).1, hp⟩

end KeychainProcess

end MultisigWallet
