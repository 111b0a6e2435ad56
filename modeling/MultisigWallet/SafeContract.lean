import MultisigWallet.Lib.Abi
import MultisigWallet.Lib.Links
import MultisigWallet.ThirdParty
import MultisigWallet.Transaction

/-!
# MultisigWallet.SafeContract

The contracts at the other end: the owner manager of the wallet contract and the
multi-send contract it delegates to. They are not code of this repository; this is what
the wallet's call data is judged against.

The contract stores the owners as a linked list headed by a sentinel. `OwnerManager`
keeps them in link order, without the sentinel, together with what the contract's own
checks guarantee. The three mutators revert (`none`) exactly when one of these checks
fails, `call` reads a mutator and its arguments from call data, and `execTransaction`
performs a transaction of the wallet.
-/

namespace MultisigWallet

/-- The head of the list of owners. -/
def sentinelOwner : Nat := 1

/-- An address an owner can have. -/
def IsOrdinary (a : Nat) : Prop := a ≠ 0 ∧ a ≠ sentinelOwner ∧ a < 2 ^ 160

instance IsOrdinary.decidable (a : Nat) : Decidable (IsOrdinary a) :=
  inferInstanceAs (Decidable (_ ∧ _ ∧ _))

/-- The owners and the threshold of a wallet contract. -/
structure OwnerManager where
  /-- in link order from the sentinel -/
  owners : List Nat
  threshold : Nat
  nodup : owners.Nodup
  ordinary : ∀ a ∈ owners, IsOrdinary a
  threshold_pos : 1 ≤ threshold
  threshold_le : threshold ≤ owners.length

namespace OwnerManager

/-- `getOwners()`: the answer to `eth_call`, an array of addresses. -/
def getOwners (m : OwnerManager) : Data := Abi.words (32 :: m.owners.length :: m.owners)

/-- `getThreshold()`. -/
def getThreshold (m : OwnerManager) : Data := Abi.word m.threshold

/-- `swapOwner(prevOwner, oldOwner, newOwner)`. -/
def swapOwner (m : OwnerManager) (prev old new : Nat) : Option OwnerManager :=
  if h : IsOrdinary new ∧ new ∉ m.owners ∧ IsOrdinary old ∧
      Links.LinksTo (sentinelOwner :: m.owners) prev old then
    some
      { owners := Links.swap m.owners old new
        threshold := m.threshold
        nodup := Links.nodup_swap m.nodup h.2.1
        ordinary := by
          intro a ha
          rcases Links.mem_swap.mp ha with ⟨rfl, -⟩ | ⟨ha, -⟩
          · exact h.1
          · exact m.ordinary a ha
        threshold_pos := m.threshold_pos
        threshold_le := by rw [Links.swap, List.length_map]; exact m.threshold_le }
  else none

/-- `addOwnerWithThreshold(owner, threshold)`. -/
def addOwnerWithThreshold (m : OwnerManager) (owner threshold : Nat) : Option OwnerManager :=
  if h : IsOrdinary owner ∧ owner ∉ m.owners ∧
      1 ≤ threshold ∧ threshold ≤ m.owners.length + 1 then
    some
      { owners := owner :: m.owners
        threshold := threshold
        nodup := List.nodup_cons.mpr ⟨h.2.1, m.nodup⟩
        ordinary := by
          intro a ha
          rcases List.mem_cons.mp ha with rfl | ha
          · exact h.1
          · exact m.ordinary a ha
        threshold_pos := h.2.2.1
        threshold_le := h.2.2.2 }
  else none

/-- `removeOwner(prevOwner, owner, threshold)`. -/
def removeOwner (m : OwnerManager) (prev owner threshold : Nat) : Option OwnerManager :=
  if h : IsOrdinary owner ∧ Links.LinksTo (sentinelOwner :: m.owners) prev owner ∧
      1 ≤ threshold ∧ threshold ≤ m.owners.length - 1 then
    some
      { owners := m.owners.erase owner
        threshold := threshold
        nodup := m.nodup.erase owner
        ordinary := fun a ha => m.ordinary a (List.mem_of_mem_erase ha)
        threshold_pos := h.2.2.1
        threshold_le := by
          have hmem : owner ∈ m.owners := h.2.1.mem_tail
          rw [List.length_erase_of_mem hmem]
          exact h.2.2.2 }
  else none

/-! ### Call data -/

/-- Argument `i` of call data. -/
def argument (data : Data) (i : Nat) : Nat := Abi.wordAt data (4 + 32 * i)

/-- Argument `i`, read as an address. -/
def addressArgument (data : Data) (i : Nat) : Nat := argument data i % 2 ^ 160

/-- A call the wallet contract makes to itself. Empty data runs the fallback function,
and data with an unknown selector or with arguments missing reverts. -/
def call (m : OwnerManager) (data : Data) : Option OwnerManager :=
  if data = [] then some m
  else if data.take 4 = [0xe3, 0x18, 0xb5, 0x2b] ∧ 4 + 32 * 3 ≤ data.length then
    m.swapOwner (addressArgument data 0) (addressArgument data 1) (addressArgument data 2)
  else if data.take 4 = [0x0d, 0x58, 0x2f, 0x13] ∧ 4 + 32 * 2 ≤ data.length then
    m.addOwnerWithThreshold (addressArgument data 0) (argument data 1)
  else if data.take 4 = [0xf8, 0xdc, 0x5d, 0xd9] ∧ 4 + 32 * 3 ≤ data.length then
    m.removeOwner (addressArgument data 0) (addressArgument data 1) (argument data 2)
  else none

/-- The calls packed in the argument of `multiSend(bytes)`: operation, target, value, an
offset the contract skips, and the call data with its length in front. The fuel is the
number of bytes left. -/
def unpack : Nat → Data → List (Nat × Nat × Nat × Data)
  | 0, _ => []
  | fuel + 1, d =>
      if d = [] then []
      else
        let data := Abi.bytesAt d 128
        (Abi.wordAt d 0, Abi.wordAt d 32 % 2 ^ 160, Abi.wordAt d 64, data) ::
          unpack fuel (d.drop (160 + Abi.ceil32 data.length))

/-- The unpacked calls, one after the other; every one has to succeed. Calls of another
contract than the wallet itself are outside of the model. -/
def callAll (wallet : Nat) : OwnerManager → List (Nat × Nat × Nat × Data) → Option OwnerManager
  | m, [] => some m
  | m, (operation, target, _, data) :: rest =>
      if operation = 0 ∧ target = wallet then
        match m.call data with
        | some m' => callAll wallet m' rest
        | none => none
      else none

/-- `multiSend(bytes)`, run in the wallet's context. -/
def multiSend (wallet : Nat) (m : OwnerManager) (data : Data) : Option OwnerManager :=
  if data.take 4 = [0x8d, 0x80, 0xff, 0x0a] then
    let packed := Abi.bytesAt (data.drop 4) (argument data 0)
    callAll wallet m (unpack packed.length packed)
  else none

/-- The contract at `wallet` performs `tx`. A delegate call is understood if it is to the
multi-send contract. -/
def execTransaction (wallet multiSendContract : Nat) (m : OwnerManager) (tx : Transaction) :
    Option OwnerManager :=
  match tx.operation with
  | some .call => if tx.ethTo.toNat = wallet then m.call (tx.data.getD []) else none
  | some .delegateCall =>
      if tx.ethTo.toNat = multiSendContract then m.multiSend wallet (tx.data.getD []) else none
  | _ => none

/-- Calls of the wallet contract to itself, in order. -/
def runCalls : OwnerManager → List Data → Option OwnerManager
  | m, [] => some m
  | m, data :: rest => (m.call data).bind (runCalls · rest)

/-! ### What the mutators do -/

theorem swapOwner_eq_some {m m' : OwnerManager} {prev old new : Nat} :
    m.swapOwner prev old new = some m' ↔
      (IsOrdinary new ∧ new ∉ m.owners ∧ IsOrdinary old ∧
        Links.LinksTo (sentinelOwner :: m.owners) prev old) ∧
      m'.owners = Links.swap m.owners old new ∧ m'.threshold = m.threshold := by
  unfold swapOwner
  split
  case isTrue h =>
    constructor
    · intro heq
      obtain rfl := Option.some.inj heq
      exact ⟨h, rfl, rfl⟩
    · rintro ⟨-, howners, hthreshold⟩
      cases m'
      simp_all
  case isFalse h => simp [h]

theorem addOwnerWithThreshold_eq_some {m m' : OwnerManager} {owner threshold : Nat} :
    m.addOwnerWithThreshold owner threshold = some m' ↔
      (IsOrdinary owner ∧ owner ∉ m.owners ∧ 1 ≤ threshold ∧ threshold ≤ m.owners.length + 1) ∧
      m'.owners = owner :: m.owners ∧ m'.threshold = threshold := by
  unfold addOwnerWithThreshold
  split
  case isTrue h =>
    constructor
    · intro heq
      obtain rfl := Option.some.inj heq
      exact ⟨h, rfl, rfl⟩
    · rintro ⟨-, howners, hthreshold⟩
      cases m'
      simp_all
  case isFalse h => simp [h]

theorem removeOwner_eq_some {m m' : OwnerManager} {prev owner threshold : Nat} :
    m.removeOwner prev owner threshold = some m' ↔
      (IsOrdinary owner ∧ Links.LinksTo (sentinelOwner :: m.owners) prev owner ∧
        1 ≤ threshold ∧ threshold ≤ m.owners.length - 1) ∧
      m'.owners = m.owners.erase owner ∧ m'.threshold = threshold := by
  unfold removeOwner
  split
  case isTrue h =>
    constructor
    · intro heq
      obtain rfl := Option.some.inj heq
      exact ⟨h, rfl, rfl⟩
    · rintro ⟨-, howners, hthreshold⟩
      cases m'
      simp_all
  case isFalse h => simp [h]

/-! ### Reading call data -/

theorem argument_append {selector : Data} (hs : selector.length = 4) (d : Data) (i : Nat) :
    argument (selector ++ d) i = Abi.wordAt d (32 * i) := by
  rw [argument, Abi.wordAt, ← hs, List.drop_length_add_append, Abi.wordAt]

/-- The first three words. -/
theorem wordAt_words {a b c : Nat} (ha : a < 2 ^ 256) (hb : b < 2 ^ 256) (hc : c < 2 ^ 256)
    (rest : List Nat) :
    Abi.wordAt (Abi.words (a :: b :: c :: rest)) (32 * 0) = a ∧
      Abi.wordAt (Abi.words (a :: b :: c :: rest)) (32 * 1) = b ∧
      Abi.wordAt (Abi.words (a :: b :: c :: rest)) (32 * 2) = c := by
  refine ⟨Abi.wordAt_word ha _, ?_, ?_⟩
  · rw [Abi.words_cons, show 32 * 1 = 0 + 32 by rfl, Abi.wordAt_skip]
    exact Abi.wordAt_word hb _
  · rw [Abi.words_cons, show 32 * 2 = 32 + 32 by rfl, Abi.wordAt_skip, ← Nat.zero_add 32,
      Abi.words_cons, Abi.wordAt_skip]
    exact Abi.wordAt_word hc _

theorem call_swapOwner (m : OwnerManager) {prev old new : Nat} (hprev : prev < 2 ^ 160)
    (hold : old < 2 ^ 160) (hnew : new < 2 ^ 160) :
    m.call ([0xe3, 0x18, 0xb5, 0x2b] ++ Abi.words [prev, old, new]) = m.swapOwner prev old new := by
  have hword : ∀ {a : Nat}, a < 2 ^ 160 → a < 2 ^ 256 := fun h => h.trans (by decide)
  obtain ⟨h₀, h₁, h₂⟩ := wordAt_words (hword hprev) (hword hold) (hword hnew) []
  have hlen : 4 + 32 * 3 ≤ ([0xe3, 0x18, 0xb5, 0x2b] ++ Abi.words [prev, old, new]).length := by
    rw [List.length_append, Abi.length_words]
    rfl
  have hselector : ([0xe3, 0x18, 0xb5, 0x2b] : Data).length = 4 := rfl
  unfold call
  rw [if_neg (by simp), if_pos ⟨rfl, hlen⟩]
  simp only [addressArgument, argument_append hselector, h₀, h₁, h₂,
    Nat.mod_eq_of_lt hprev, Nat.mod_eq_of_lt hold, Nat.mod_eq_of_lt hnew]

theorem call_addOwner (m : OwnerManager) {owner threshold : Nat} (howner : owner < 2 ^ 160)
    (ht : threshold < 2 ^ 256) :
    m.call ([0x0d, 0x58, 0x2f, 0x13] ++ Abi.words [owner, threshold]) =
      m.addOwnerWithThreshold owner threshold := by
  have h₀ : Abi.wordAt (Abi.words [owner, threshold]) (32 * 0) = owner :=
    Abi.wordAt_word (howner.trans (by decide)) _
  have h₁ : Abi.wordAt (Abi.words [owner, threshold]) (32 * 1) = threshold := by
    rw [Abi.words_cons, show 32 * 1 = 0 + 32 by rfl, Abi.wordAt_skip]
    exact Abi.wordAt_word ht _
  have hlen : 4 + 32 * 2 ≤ ([0x0d, 0x58, 0x2f, 0x13] ++ Abi.words [owner, threshold]).length := by
    rw [List.length_append, Abi.length_words]
    rfl
  have hselector : ([0x0d, 0x58, 0x2f, 0x13] : Data).length = 4 := rfl
  unfold call
  rw [if_neg (by simp), if_neg (by simp), if_pos ⟨rfl, hlen⟩]
  simp only [addressArgument, argument_append hselector, h₀, h₁,
    Nat.mod_eq_of_lt howner]

theorem call_removeOwner (m : OwnerManager) {prev owner threshold : Nat} (hprev : prev < 2 ^ 160)
    (howner : owner < 2 ^ 160) (ht : threshold < 2 ^ 256) :
    m.call ([0xf8, 0xdc, 0x5d, 0xd9] ++ Abi.words [prev, owner, threshold]) =
      m.removeOwner prev owner threshold := by
  have hword : ∀ {a : Nat}, a < 2 ^ 160 → a < 2 ^ 256 := fun h => h.trans (by decide)
  obtain ⟨h₀, h₁, h₂⟩ := wordAt_words (hword hprev) (hword howner) ht []
  have hlen : 4 + 32 * 3 ≤ ([0xf8, 0xdc, 0x5d, 0xd9] ++ Abi.words [prev, owner, threshold]).length := by
    rw [List.length_append, Abi.length_words]
    rfl
  have hselector : ([0xf8, 0xdc, 0x5d, 0xd9] : Data).length = 4 := rfl
  unfold call
  rw [if_neg (by simp), if_neg (by simp), if_neg (by simp), if_pos ⟨rfl, hlen⟩]
  simp only [addressArgument, argument_append hselector, h₀, h₁, h₂,
    Nat.mod_eq_of_lt hprev, Nat.mod_eq_of_lt howner]

/-! ### Unpacking a multi-send -/

/-- A call of the wallet contract, as the argument of `multiSend(bytes)` holds it. -/
def packed (wallet : Nat) (data : Data) : Data := Abi.words [0, wallet, 0, 128] ++ Abi.bytes data

theorem length_packed (wallet : Nat) (data : Data) :
    (packed wallet data).length = 160 + Abi.ceil32 data.length := by
  rw [packed, List.length_append, Abi.length_words, Abi.length_bytes]
  simp only [List.length_cons, List.length_nil]
  omega

end OwnerManager

end MultisigWallet
