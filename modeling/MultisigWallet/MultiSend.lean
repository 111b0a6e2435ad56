import MultisigWallet.ContractRoundTrip
import MultisigWallet.Lib.AbiReader
import MultisigWallet.SafeContract

/-!
# MultisigWallet.MultiSend

The argument of `multiSend(bytes)`, read strictly: the entries stand back to back until the declared
length is exhausted, every word is of its range, and every padding is zero. The wallet's batches are
read in this way, and what is read in this way is what the contract unpacks.
-/

namespace MultisigWallet

open EthereumContractProxy

/-! ### A strict reader -/

/-- `MultiSendTransactionOperation(rawValue:)`. -/
def MultiSendTransactionOperation.ofRawValue : Nat → Option MultiSendTransactionOperation
  | 0 => some .call
  | 1 => some .delegateCall
  | _ => none

theorem MultiSendTransactionOperation.ofRawValue_eq_some {n : Nat}
    {operation : MultiSendTransactionOperation} :
    ofRawValue n = some operation ↔ operation.rawValue = n := by
  match n with
  | 0 => cases operation <;> simp [ofRawValue, rawValue]
  | 1 => cases operation <;> simp [ofRawValue, rawValue]
  | n + 2 => cases operation <;> simp [ofRawValue, rawValue]

/-- The address of the transaction in lower case. -/
def MultiSendTransaction.normalized (tx : MultiSendTransaction) : MultiSendTransaction :=
  { tx with toAddress := tx.toAddress.normalized }

namespace MultiSendContractProxy

/-- One entry: operation, target, value, the offset of the data in the entry, and the data. -/
def readTransaction (d : Data) : Option (MultiSendTransaction × Data) := do
  let (operation, d) ← Abi.readWord d
  let operation ← MultiSendTransactionOperation.ofRawValue operation
  let (target, d) ← Abi.readWord d
  let (value, d) ← Abi.readWord d
  let (offset, d) ← Abi.readWord d
  let (data, d) ← Abi.readBytes d
  if target < 2 ^ 160 ∧ offset = 128 then
    return (⟨operation, Address.ofNat target, value, data⟩, d)
  else none

/-- A call of `multiSend(bytes)`, of which nothing may be left over. -/
def readMultiSend (call : Data) : Option (List MultiSendTransaction) := do
  let (offset, d) ← Abi.readWord (call.drop 4)
  let (packed, d) ← Abi.readBytes d
  if call.take 4 = [0x8d, 0x80, 0xff, 0x0a] ∧ offset = 32 ∧ d = [] then
    Abi.readAll readTransaction packed.length packed
  else none

/-- An entry that was written is read, whatever follows it. -/
theorem readTransaction_packed {tx : MultiSendTransaction} (haddress : tx.toAddress.WellFormed)
    (hvalue : 0 ≤ tx.value) (hlt : tx.value < 2 ^ 256) (hdata : tx.data.length < 2 ^ 256)
    (rest : Data) : readTransaction (packedTransaction tx ++ rest) = some (tx.normalized, rest) := by
  have hoperation : MultiSendTransactionOperation.ofRawValue tx.operation.rawValue =
      some tx.operation := MultiSendTransactionOperation.ofRawValue_eq_some.mpr rfl
  have hrawValue : tx.operation.rawValue < 2 ^ 256 := by
    cases tx.operation <;> decide
  have htarget : tx.toAddress.toNat < 2 ^ 256 := haddress.toNat_lt.trans (by decide)
  have hamount : tx.value.natAbs < 2 ^ 256 := by omega
  have hsplit : packedTransaction tx ++ rest = Abi.word tx.operation.rawValue ++
      (Abi.word tx.toAddress.toNat ++ (Abi.word tx.value.natAbs ++ (Abi.word 128 ++
        (Abi.bytes tx.data ++ rest)))) := by
    simp only [packedTransaction, Abi.words_cons, Abi.words_nil, List.append_nil, List.append_assoc]
  have hresult : (⟨tx.operation, Address.ofNat tx.toAddress.toNat, tx.value.natAbs, tx.data⟩ :
      MultiSendTransaction) = tx.normalized := by
    rw [← haddress.normalized_eq, Int.natAbs_of_nonneg hvalue]
    rfl
  unfold readTransaction
  simp only [Option.bind_eq_bind]
  rw [hsplit, Abi.readWord_bind hrawValue]
  dsimp only
  rw [hoperation, Option.bind_some, Abi.readWord_bind htarget, Abi.readWord_bind hamount,
    Abi.readWord_bind (by decide), Abi.readBytes_bind hdata]
  dsimp only
  rw [if_pos ⟨haddress.toNat_lt, rfl⟩, hresult]
  rfl

theorem packedTransaction_ne_nil (tx : MultiSendTransaction) : packedTransaction tx ≠ [] := by
  intro h
  have hlen := congrArg List.length h
  rw [packedTransaction, List.length_append, Abi.length_words] at hlen
  simp at hlen

theorem length_data_le {transactions : List MultiSendTransaction} {tx : MultiSendTransaction}
    (h : tx ∈ transactions) :
    tx.data.length ≤ (transactions.flatMap packedTransaction).length := by
  have hle := Abi.le_ceil32 tx.data.length
  have hsub : (packedTransaction tx).length ≤ (transactions.flatMap packedTransaction).length := by
    rw [List.flatMap_def]
    exact (List.sublist_flatten_of_mem (List.mem_map_of_mem h)).length_le
  rw [packedTransaction, List.length_append, Abi.length_bytes] at hsub
  omega

/-- A batch is read back entry by entry, with nothing left over. -/
theorem readMultiSend_multiSend (lib : ThirdParty) {transactions : List MultiSendTransaction}
    (haddress : ∀ tx ∈ transactions, tx.toAddress.WellFormed)
    (hvalue : ∀ tx ∈ transactions, 0 ≤ tx.value ∧ tx.value < 2 ^ 256)
    (hfits : FitsData (multiSend lib transactions)) :
    readMultiSend (multiSend lib transactions) =
      some (transactions.map MultiSendTransaction.normalized) := by
  rw [multiSend_eq lib haddress] at hfits ⊢
  have hlen : (transactions.flatMap packedTransaction).length < 2 ^ 63 := by
    have hle := Abi.le_ceil32 (transactions.flatMap packedTransaction).length
    rw [FitsData, List.length_append, List.length_append, Abi.length_bytes] at hfits
    omega
  have hbytes : Abi.readBytes (Abi.bytes (transactions.flatMap packedTransaction)) =
      some (transactions.flatMap packedTransaction, []) := by
    rw [← List.append_nil (Abi.bytes _)]
    exact Abi.readBytes_bytes (hlen.trans (by decide)) []
  have hentries : ∀ tx ∈ transactions, ∀ rest,
      readTransaction (packedTransaction tx ++ rest) = some (tx.normalized, rest) := by
    intro tx htx rest
    have hdata := length_data_le htx
    exact readTransaction_packed (haddress tx htx) (hvalue tx htx).1 (hvalue tx htx).2 (by omega) rest
  have hall := Abi.readAll_flatMap hentries (fun tx _ => packedTransaction_ne_nil tx) le_rfl
  have htake : ([0x8d, 0x80, 0xff, 0x0a] ++ (Abi.word 32 ++
      Abi.bytes (transactions.flatMap packedTransaction))).take 4 = [0x8d, 0x80, 0xff, 0x0a] :=
    List.take_left' rfl
  have hdrop : ([0x8d, 0x80, 0xff, 0x0a] ++ (Abi.word 32 ++
      Abi.bytes (transactions.flatMap packedTransaction))).drop 4 =
        Abi.word 32 ++ Abi.bytes (transactions.flatMap packedTransaction) :=
    List.drop_left' rfl
  unfold readMultiSend
  simp only [Option.bind_eq_bind]
  rw [hdrop, Abi.readWord_bind (by decide)]
  dsimp only
  rw [hbytes, Option.bind_some]
  dsimp only
  rw [if_pos ⟨htake, rfl, rfl⟩, hall]

/-- A call with three bytes of data, and a delegate call of everything without any. -/
def twoTransactions : List MultiSendTransaction :=
  [⟨.call, Address.two, 5, [1, 2, 3]⟩, ⟨.delegateCall, Address.zero, 2 ^ 256 - 1, []⟩]

theorem readMultiSend_twoTransactions :
    readMultiSend (multiSend reference twoTransactions) =
      some (twoTransactions.map MultiSendTransaction.normalized) := by
  have htwo : Address.two.WellFormed := Address.wellFormed_of_digits (by decide)
  have hzero : Address.zero.WellFormed := Address.wellFormed_of_digits (by decide)
  exact readMultiSend_multiSend reference
    (List.forall_mem_cons.mpr ⟨htwo, List.forall_mem_singleton.mpr hzero⟩) (by decide)
    (by decide +kernel)

/-! ### What the contract unpacks -/

/-- What the contract sees of a transaction. -/
def unpacked (tx : MultiSendTransaction) : Nat × Nat × Nat × Data :=
  (tx.operation.rawValue, tx.toAddress.toNat, tx.value.natAbs, tx.data)

theorem readTransaction_eq_some {d rest : Data} {tx : MultiSendTransaction}
    (h : readTransaction d = some (tx, rest)) :
    d ≠ [] ∧ (Abi.wordAt d 0, Abi.wordAt d 32 % 2 ^ 160, Abi.wordAt d 64, Abi.bytesAt d 128) =
      unpacked tx ∧ d.drop (160 + Abi.ceil32 tx.data.length) = rest := by
  obtain ⟨⟨operation, d₁⟩, hd₁, h⟩ := Option.bind_eq_some_iff.mp h
  obtain ⟨_, hoperation, h⟩ := Option.bind_eq_some_iff.mp h
  obtain ⟨⟨target, d₂⟩, hd₂, h⟩ := Option.bind_eq_some_iff.mp h
  obtain ⟨⟨value, d₃⟩, hd₃, h⟩ := Option.bind_eq_some_iff.mp h
  obtain ⟨⟨offset, d₄⟩, hd₄, h⟩ := Option.bind_eq_some_iff.mp h
  obtain ⟨⟨data, d₅⟩, hd₅, h⟩ := Option.bind_eq_some_iff.mp h
  obtain ⟨⟨htarget, -⟩, h⟩ := Option.ite_none_right_eq_some.mp h
  obtain ⟨rfl, rfl⟩ := Prod.mk.inj (Option.some.inj h)
  obtain ⟨hlen, rfl, rfl⟩ := Abi.readWord_eq_some.mp hd₁
  obtain ⟨-, rfl, rfl⟩ := Abi.readWord_eq_some.mp hd₂
  obtain ⟨-, rfl, rfl⟩ := Abi.readWord_eq_some.mp hd₃
  obtain ⟨-, rfl, rfl⟩ := Abi.readWord_eq_some.mp hd₄
  obtain ⟨rfl, -, rfl⟩ := Abi.readBytes_eq_some hd₅
  simp only [Abi.wordAt_drop, Abi.bytesAt_drop, List.drop_drop] at htarget ⊢
  refine ⟨List.ne_nil_of_length_pos (by omega), ?_, ?_⟩
  · rw [unpacked, Address.toNat_ofNat htarget, Nat.mod_eq_of_lt htarget, Int.natAbs_natCast,
      MultiSendTransactionOperation.ofRawValue_eq_some.mp hoperation]
  · congr 1
    omega

/-- What is read is what the contract unpacks. -/
theorem unpack_of_readAll {fuel : Nat} {d : Data} {transactions : List MultiSendTransaction}
    (h : Abi.readAll readTransaction fuel d = some transactions) :
    OwnerManager.unpack fuel d = transactions.map unpacked := by
  induction fuel generalizing d transactions with
  | zero =>
      cases d with
      | nil =>
          obtain rfl := Option.some.inj h
          rfl
      | cons b bs => cases h
  | succ fuel ih =>
      cases d with
      | nil =>
          obtain rfl := Option.some.inj h
          rfl
      | cons b bs =>
          obtain ⟨⟨tx, rest⟩, hread, h⟩ := Option.bind_eq_some_iff.mp h
          obtain ⟨transactions, hrest, h⟩ := Option.bind_eq_some_iff.mp h
          obtain rfl := Option.some.inj h
          obtain ⟨hne, hentry, hdrop⟩ := readTransaction_eq_some hread
          obtain ⟨-, -, -, hdata⟩ : _ ∧ _ ∧ _ ∧ Abi.bytesAt (b :: bs) 128 = tx.data := by
            simpa [unpacked] using hentry
          rw [OwnerManager.unpack, if_neg hne, List.map_cons, ← hentry, ← ih hrest, ← hdrop, hdata]

end MultiSendContractProxy

/-! ### A batch of calls of the wallet -/

namespace OwnerManager

/-- Calls of the wallet contract are unpacked as they were packed. -/
theorem unpack_packed {wallet : Nat} (hwallet : wallet < 2 ^ 160) {datas : List Data}
    (hdatas : ∀ d ∈ datas, d.length < 2 ^ 256) {fuel : Nat}
    (hfuel : (datas.flatMap (packed wallet)).length ≤ fuel) :
    unpack fuel (datas.flatMap (packed wallet)) = datas.map fun d => (0, wallet, 0, d) := by
  have hnumber := Address.toNat_ofNat hwallet
  have hpacked : ∀ d, packed wallet d = packedTransaction ⟨.call, Address.ofNat wallet, 0, d⟩ := by
    intro d
    rw [packedTransaction, hnumber]
    rfl
  have hread : ∀ d ∈ datas, ∀ rest,
      MultiSendContractProxy.readTransaction (packed wallet d ++ rest) =
        some (⟨.call, Address.ofNat wallet, 0, d⟩, rest) := by
    intro d hd rest
    have hzero : (0 : Int) < 2 ^ 256 := by decide
    rw [hpacked, MultiSendContractProxy.readTransaction_packed (Address.wellFormed_ofNat wallet)
      le_rfl hzero (hdatas d hd) rest, MultiSendTransaction.normalized,
      Address.normalized_ofNat]
  have hne : ∀ d ∈ datas, packed wallet d ≠ [] := by
    intro d _
    rw [hpacked]
    exact MultiSendContractProxy.packedTransaction_ne_nil _
  rw [MultiSendContractProxy.unpack_of_readAll (Abi.readAll_flatMap hread hne hfuel), List.map_map]
  refine List.map_congr_left fun d _ => ?_
  rw [Function.comp_apply, MultiSendContractProxy.unpacked, hnumber]
  rfl

theorem callAll_eq_runCalls (wallet : Nat) (m : OwnerManager) (datas : List Data) :
    callAll wallet m (datas.map fun d => (0, wallet, 0, d)) = runCalls m datas := by
  induction datas generalizing m with
  | nil => rfl
  | cons d datas ih =>
      rw [List.map_cons, callAll, if_pos ⟨rfl, rfl⟩, runCalls]
      cases m.call d with
      | none => rfl
      | some m' => exact ih m'

/-- A multi-send of calls of the wallet runs the calls. -/
theorem multiSend_packed {wallet : Nat} (hwallet : wallet < 2 ^ 160) (m : OwnerManager)
    {datas : List Data} (hdatas : ∀ d ∈ datas, d.length < 2 ^ 256)
    (hlen : (datas.flatMap (packed wallet)).length < 2 ^ 256) :
    m.multiSend wallet ([0x8d, 0x80, 0xff, 0x0a] ++
      (Abi.word 32 ++ Abi.bytes (datas.flatMap (packed wallet)))) = runCalls m datas := by
  have hoffset : argument ([0x8d, 0x80, 0xff, 0x0a] ++
      (Abi.word 32 ++ Abi.bytes (datas.flatMap (packed wallet)))) 0 = 32 := by
    rw [argument_append rfl]
    exact Abi.wordAt_word (by decide) _
  have hbytes : Abi.bytesAt (Abi.word 32 ++ Abi.bytes (datas.flatMap (packed wallet))) 32 =
      datas.flatMap (packed wallet) := by
    rw [show 32 = 0 + 32 by rfl, Abi.bytesAt_skip, ← List.append_nil (Abi.bytes _)]
    exact Abi.bytesAt_bytes hlen []
  have hselector : ([0x8d, 0x80, 0xff, 0x0a] ++
      (Abi.word 32 ++ Abi.bytes (datas.flatMap (packed wallet)))).take 4 =
        [0x8d, 0x80, 0xff, 0x0a] := rfl
  unfold multiSend
  rw [if_pos hselector, hoffset]
  show callAll wallet m (unpack (Abi.bytesAt (Abi.word 32 ++ Abi.bytes _) 32).length
    (Abi.bytesAt (Abi.word 32 ++ Abi.bytes _) 32)) = _
  rw [hbytes, unpack_packed hwallet hdatas le_rfl, callAll_eq_runCalls]

end OwnerManager

end MultisigWallet
