import MultisigWallet.ContractProxy
import MultisigWallet.Lib.Abi

/-!
# MultisigWallet.ContractProxySound

What the contract proxies write and read, in terms of ABI words. Each encoder has one
equation: on numbers below `2 ^ 256` and on well-formed addresses it writes the words
of the standard encoding, whatever detour through hex strings it takes. The decoders
read such words back.
-/

namespace MultisigWallet

/-- The lower-case address of a number below `2 ^ 160`. -/
def Address.ofNat (n : Nat) : Address := Address.ofData (Bytes.ofNat 20 n)

namespace Address

theorem wellFormed_ofNat (n : Nat) : (ofNat n).WellFormed :=
  wellFormed_ofData (Bytes.length_ofNat 20 n)

theorem toNat_ofNat {n : Nat} (h : n < 2 ^ 160) : (ofNat n).toNat = n := by
  rw [ofNat, toNat_ofData]
  exact Bytes.toNat_ofNat_of_lt (lt_of_lt_of_eq h (by norm_num))

theorem normalized_ofData (d : Data) : (ofData d).normalized = ofData d := by
  have hid : (Bytes.toHex d).map Char.toLower = Bytes.toHex d := by
    refine (List.map_congr_left ?_).trans (List.map_id _)
    intro c hc
    exact Bytes.toLower_of_mem_lowerHex c (Bytes.mem_lowerHex_of_mem_toHex c hc)
  simp only [normalized, ofData, lowercased, List.map_append, hid]
  rfl

theorem normalized_ofNat (n : Nat) : (ofNat n).normalized = ofNat n := normalized_ofData _

/-- The normal form of an address depends on its number only. -/
theorem WellFormed.normalized_eq {a : Address} (h : a.WellFormed) : a.normalized = ofNat a.toNat := by
  rw [← normalized_ofNat]
  exact (normalized_eq_iff h (wellFormed_ofNat _)).mpr (toNat_ofNat h.toNat_lt).symm

theorem ofNat_inj {m n : Nat} (hm : m < 2 ^ 160) (hn : n < 2 ^ 160) (h : ofNat m = ofNat n) :
    m = n := by
  rw [← toNat_ofNat hm, h, toNat_ofNat hn]

theorem sentinelAddress_eq : SafeOwnerManagerContractProxy.sentinelAddress = ofNat 1 := by
  decide

end Address

/-- The bytes of a `Data` are counted with an `Int`: there is no longer `Data`. -/
def FitsData (d : Data) : Prop := d.length < 2 ^ 63

instance FitsData.decidable (d : Data) : Decidable (FitsData d) :=
  inferInstanceAs (Decidable (_ < _))

namespace EthereumContractProxy

variable (lib : ThirdParty)

/-- The last bytes of a longer encoding are the number modulo their range. -/
theorem suffixData_eq {d : Data} {w : Nat} (hd : w ≤ d.length) :
    suffixData w d = Bytes.ofNat w (Bytes.toNat d) := by
  have hlen : (suffixData w d).length = w := by
    rw [suffixData, List.length_drop]
    omega
  refine Bytes.toNat_inj (by rw [hlen, Bytes.length_ofNat]) ?_
  have hsplit := Bytes.toNat_append (d.take (d.length - w)) (suffixData w d)
  rw [suffixData, List.take_append_drop, ← suffixData, hlen] at hsplit
  have hlt := Bytes.toNat_lt (suffixData w d)
  rw [hlen] at hlt
  rw [Bytes.toNat_ofNat, hsplit, Nat.mul_comm, Nat.mul_add_mod, Nat.mod_eq_of_lt hlt]

/-- A word, of any number. -/
theorem encodeUInt_eq (n : Nat) : encodeUInt lib n = Abi.word n := by
  have hdigits : ∀ c ∈ Nat.toDigits 16 n, c ∈ Bytes.hexDigits := fun c hc =>
    Bytes.lowerHex_subset_hexDigits c (Bytes.mem_lowerHex_of_mem_toDigits c hc)
  rw [encodeUInt, suffixData_eq (le_length_leftPadded 32 _), toNat_leftPadded,
    lib.toNat_dataEthHex hdigits, Bytes.hexValue_toDigits]
  rfl

theorem length_method (signature : String) : (method lib signature).length = 4 := by
  rw [method, List.length_take, lib.length_hash]
  rfl

theorem decodeUInt_eq (d : Data) : decodeUInt d = Abi.wordAt d 0 := by
  unfold decodeUInt Abi.wordAt
  rw [List.drop_zero]
  split
  · rfl
  · rw [List.take_of_length_le (by omega)]

/-- What is decoded as an address is a proper one. -/
theorem wellFormed_addressOfUInt (n : Nat) : (addressOfUInt lib n).WellFormed := by
  refine Address.wellFormed_ofData (length_leftPadded ?_)
  unfold endTruncated
  split
  · rw [List.length_take]
    omega
  · omega

theorem addressOfUInt_eq {n : Nat} (hn : n < 2 ^ 160) : addressOfUInt lib n = Address.ofNat n := by
  have hn' : n < 256 ^ 20 := lt_of_lt_of_eq hn (by norm_num)
  obtain ⟨heq, hle⟩ := lib.dataEthHex_toDigits (by norm_num) hn'
  rw [addressOfUInt, endTruncated, if_neg (by omega), heq]
  rfl

theorem encodeAddress_eq {a : Address} (h : a.WellFormed) :
    encodeAddress lib a = Abi.word a.toNat := by
  rw [encodeAddress, h.toNat_dataEthHex]
  exact encodeUInt_eq lib _

theorem encodeTupleUInt_eq (ns : List Nat) : encodeTupleUInt lib ns = Abi.words ns := by
  have hheads : (ns.map (headUInt lib)).flatten = Abi.words ns := by
    rw [Abi.words, List.flatMap_def]
    exact congrArg List.flatten (List.map_congr_left fun n _ => encodeUInt_eq lib n)
  have htails : (ns.map tailUInt).flatten = [] := by
    rw [List.flatten_eq_nil_iff]
    intro d hd
    obtain ⟨n, -, rfl⟩ := List.mem_map.mp hd
    rfl
  rw [encodeTupleUInt, List.flatten_append, hheads, htails, List.append_nil]

theorem encodeArrayUInt_eq (ns : List Nat) :
    encodeArrayUInt lib ns = Abi.words (32 :: ns.length :: ns) := by
  rw [encodeArrayUInt, encodeUInt_eq, encodeUInt_eq, encodeTupleUInt_eq, List.append_assoc]
  rfl

theorem encodeArrayAddress_eq {as : List Address} (h : ∀ a ∈ as, a.WellFormed) :
    encodeArrayAddress lib as = encodeArrayUInt lib (as.map Address.toNat) := by
  rw [encodeArrayAddress]
  exact congrArg _ (List.map_congr_left fun a ha => (h a ha).toNat_dataEthHex lib)

theorem encodeBytes_eq (d : Data) : encodeBytes lib d = Abi.bytes d := by
  unfold encodeBytes Abi.bytes
  rw [encodeUInt_eq]
  -- the source rounds up by cases on the remainder, `ceil32` by division
  have hceil : (if d.length % 32 = 0 then d.length else d.length + 32 - d.length % 32) =
      Abi.ceil32 d.length := by
    unfold Abi.ceil32
    split <;> omega
  have hle := Abi.le_ceil32 d.length
  simp only [hceil, rightPadded]
  split
  · rw [show Abi.ceil32 d.length - d.length = 0 by omega, List.replicate_zero, List.append_nil]
  · rfl

/-! ### Reading an array of addresses -/

/-- Reading a sequence of words word by word. -/
theorem map_decodeUInt_words {ns : List Nat} (hns : ∀ n ∈ ns, n < 2 ^ 256) :
    (List.range ns.length).map
      (fun i => decodeUInt (((Abi.words ns).drop (32 * i)).take 32)) = ns := by
  induction ns with
  | nil => rfl
  | cons n ns ih =>
      have ih := ih fun m hm => hns m (List.mem_cons_of_mem _ hm)
      rw [List.length_cons, List.range_succ_eq_map, List.map_cons, List.map_map]
      refine congrArg₂ List.cons ?_ ((List.map_congr_left ?_).trans ih)
      · rw [Nat.mul_zero, List.drop_zero, Abi.words_cons,
          List.take_append_of_le_length (by rw [Abi.length_word]),
          List.take_of_length_le (by rw [Abi.length_word]), decodeUInt_eq,
          ← List.append_nil (Abi.word n), Abi.wordAt_word (hns n List.mem_cons_self)]
      · intro i _
        rw [Function.comp_apply, Nat.succ_eq_add_one, Nat.mul_add, Abi.words_cons, Nat.mul_one,
          Abi.drop_word]

theorem decodeTupleUInt_words {ns : List Nat} (hns : ∀ n ∈ ns, n < 2 ^ 256)
    (hint : isInt (ns.length * 32) = true) : decodeTupleUInt (Abi.words ns) ns.length = .ok ns := by
  have hsize : ¬ (Abi.words ns).length < ns.length * 32 := by
    rw [Abi.length_words]
    omega
  simp only [decodeTupleUInt, hint, hsize, if_true, if_false, map_decodeUInt_words hns, bind,
    Except.bind, pure, Except.pure]

/-- An array of words is read back; if it is too long for `Int` arithmetic, reading traps. -/
theorem decodeArrayUInt_words {ns : List Nat} (hns : ∀ n ∈ ns, n < 2 ^ 256)
    (hlen : ns.length < 2 ^ 256) :
    decodeArrayUInt (Abi.words (32 :: ns.length :: ns)) =
      if isInt (ns.length * 32) then .ok ns else .error .overflow := by
  have hsize : (Abi.words (32 :: ns.length :: ns)).length = 64 + 32 * ns.length := by
    rw [Abi.length_words]
    simp only [List.length_cons]
    omega
  have hoffset : decodeUInt (Abi.words (32 :: ns.length :: ns)) = 32 := by
    rw [decodeUInt_eq, Abi.words_cons, Abi.wordAt_word (by decide)]
  have hdata : (Abi.words (32 :: ns.length :: ns)).drop 32 = Abi.words (ns.length :: ns) := by
    rw [Abi.words_cons, ← Nat.zero_add 32, Abi.drop_word, List.drop_zero]
  have hcount : decodeUInt (Abi.words (ns.length :: ns)) = ns.length := by
    rw [decodeUInt_eq, Abi.words_cons, Abi.wordAt_word hlen]
  have hrest : (Abi.words (ns.length :: ns)).drop 32 = Abi.words ns := by
    rw [Abi.words_cons, ← Nat.zero_add 32, Abi.drop_word, List.drop_zero]
  have hlen' : (Abi.words (ns.length :: ns)).length = 32 + 32 * ns.length := by
    rw [Abi.length_words, List.length_cons]
    omega
  unfold decodeArrayUInt
  rw [if_neg (by rw [List.isEmpty_iff_length_eq_zero, hsize]; omega)]
  simp only [hoffset, hdata, hcount, hrest, hlen']
  rw [if_pos (by omega), if_pos (by omega), if_neg (by omega)]
  by_cases hint : isInt (ns.length * 32) = true
  · have hcountInt : isInt ns.length = true := by
      simp only [isInt, Bool.and_eq_true, decide_eq_true_eq] at hint ⊢
      omega
    rw [if_pos hcountInt, if_pos hint, decodeTupleUInt_words hns hint]
  · rw [if_neg hint]
    split
    · simp only [decodeTupleUInt, hint, if_false, bind, Except.bind, Bool.false_eq_true]
    · rfl

/-- The wallet reads the owners a contract answers with. -/
theorem decodeArrayAddress_words {ns : List Nat} (hns : ∀ n ∈ ns, n < 2 ^ 160)
    (hlen : ns.length < 2 ^ 256) {owners : List Address}
    (h : decodeArrayAddress lib (Abi.words (32 :: ns.length :: ns)) = .ok owners) :
    owners = ns.map Address.ofNat ∧ isInt (ns.length * 32) = true := by
  have hns' : ∀ n ∈ ns, n < 2 ^ 256 := fun n hn => (hns n hn).trans (by decide)
  have hmap : ns.map (addressOfUInt lib) = ns.map Address.ofNat :=
    List.map_congr_left fun n hn => addressOfUInt_eq lib (hns n hn)
  rw [decodeArrayAddress, decodeArrayUInt_words hns' hlen] at h
  obtain ⟨values, hvalues, h⟩ := bind_ok.mp h
  split at hvalues
  case isTrue hint =>
    obtain rfl := Except.ok.inj hvalues
    exact ⟨(Except.ok.inj h).symm.trans hmap, hint⟩
  case isFalse => cases hvalues

end EthereumContractProxy

/-! ### Calls of the owner manager and of the multi-send contract -/

open EthereumContractProxy

variable (lib : ThirdParty)

/-- Call data with a known selector and known words. -/
theorem invocation_eq {selector : String} {s : Data} (hs : method lib selector = s)
    {args : List Data} {ns : List Nat} (hargs : args.flatten = Abi.words ns) :
    invocation lib selector args = s ++ Abi.words ns := by
  rw [invocation, hs, hargs]

/-- The data is a call of `selector` with `n` words of arguments. -/
def IsCallOf (selector : Data) (n : Nat) (data : Data) : Prop :=
  selector <+: data ∧ data.length = 4 + 32 * n

instance IsCallOf.decidable (selector : Data) (n : Nat) (data : Data) :
    Decidable (IsCallOf selector n data) :=
  inferInstanceAs (Decidable (_ ∧ _))

/-- The check that two of the decoders make. -/
theorem isCallOf_iff (signature : String) (n : Nat) (data : Data) :
    (data.length = 4 + n * 32 ∧ data.take 4 = method lib signature) ↔
      IsCallOf (method lib signature) n data := by
  rw [IsCallOf, List.prefix_iff_eq_take, length_method, and_comm, Nat.mul_comm n,
    eq_comm (a := data.take 4)]

/-- A word of the arguments of a call. -/
theorem wordAt_call {selector : Data} (hselector : selector.length = 4) {ns : List Nat}
    (hns : ∀ n ∈ ns, n < 2 ^ 256) {i n : Nat} (hi : ns[i]? = some n) :
    Abi.wordAt (selector ++ Abi.words ns) (4 + 32 * i) = n := by
  rw [← hselector, ← Abi.wordAt_drop, List.drop_left]
  exact Abi.wordAt_words hns hi

theorem isCallOf_words {selector : Data} (hselector : selector.length = 4) (ns : List Nat) :
    IsCallOf selector ns.length (selector ++ Abi.words ns) := by
  refine ⟨List.prefix_append _ _, ?_⟩
  rw [List.length_append, hselector, Abi.length_words]

theorem decodeSwapOwnerArguments_eq (d : Data) :
    SafeOwnerManagerContractProxy.decodeSwapOwnerArguments lib d =
      if IsCallOf (method lib "swapOwner(address,address,address)") 3 d then
        some (addressOfUInt lib (Abi.wordAt d 4), addressOfUInt lib (Abi.wordAt d 36),
          addressOfUInt lib (Abi.wordAt d 68))
      else none := by
  unfold SafeOwnerManagerContractProxy.decodeSwapOwnerArguments
  simp only [length_method, isCallOf_iff, decodeAddress, decodeUInt_eq, Abi.wordAt_drop,
    List.drop_drop]

theorem decodeAddOwnerArguments_eq (d : Data) :
    SafeOwnerManagerContractProxy.decodeAddOwnerArguments lib d =
      if IsCallOf (method lib "addOwnerWithThreshold(address,uint256)") 2 d then
        if isInt (Abi.wordAt d 36) then
          .ok (some (addressOfUInt lib (Abi.wordAt d 4), Abi.wordAt d 36))
        else .error .overflow
      else .ok none := by
  unfold SafeOwnerManagerContractProxy.decodeAddOwnerArguments
  simp only [length_method, isCallOf_iff, decodeAddress, decodeUInt_eq, Abi.wordAt_drop,
    List.drop_drop]

/-- The arguments of a transfer are taken for granted, and only then counted. -/
theorem decodedTransfer_eq (d : Data) :
    ERC20TokenContractProxy.decodedTransfer lib d =
      if method lib ERC20TokenContractProxy.transferMethodSignature <+: d then
        if d.length < 68 then .error .removeFirst
        else .ok (if d.length = 68 then
          some (addressOfUInt lib (Abi.wordAt d 4), Abi.wordAt d 36) else none)
      else .ok none := by
  have hhead : invocation lib ERC20TokenContractProxy.transferMethodSignature [] =
      method lib ERC20TokenContractProxy.transferMethodSignature := by
    rw [invocation, List.flatten_nil, List.append_nil]
  unfold ERC20TokenContractProxy.decodedTransfer ERC20TokenContractProxy.removeFirst
  simp only [hhead, List.prefix_iff_eq_take, length_method, decodeAddress, decodeUInt_eq,
    Abi.wordAt_drop, List.drop_drop, List.length_drop, List.isEmpty_iff_length_eq_zero]
  by_cases h : method lib ERC20TokenContractProxy.transferMethodSignature = d.take 4
  · rw [if_pos h.symm, if_pos h]
    by_cases h₁ : d.length - 4 < 32
    · rw [if_pos h₁, if_pos (by omega)]
      rfl
    · rw [if_neg h₁]
      simp only [bind, Except.bind, List.length_drop, List.drop_drop, Abi.wordAt_drop]
      by_cases h₂ : d.length - (4 + 32) < 32
      · rw [if_pos h₂, if_pos (by omega)]
      · have hempty : d.length - (4 + 32 + 32) = 0 ↔ d.length = 68 := by omega
        rw [if_neg h₂, if_neg (by omega)]
        simp only [List.length_drop, hempty]
        split <;> rfl
  · rw [if_neg h, if_neg (Ne.symm h)]

theorem swapOwner_eq {prev old new : Address} (hprev : prev.WellFormed) (hold : old.WellFormed)
    (hnew : new.WellFormed) :
    SafeOwnerManagerContractProxy.swapOwner lib prev old new =
      [0xe3, 0x18, 0xb5, 0x2b] ++ Abi.words [prev.toNat, old.toNat, new.toNat] := by
  refine invocation_eq lib lib.selector_swapOwner ?_
  rw [encodeAddress_eq lib hprev, encodeAddress_eq lib hold, encodeAddress_eq lib hnew]
  rfl

theorem addOwner_eq {owner : Address} (howner : owner.WellFormed) (threshold : Nat) :
    SafeOwnerManagerContractProxy.addOwner lib owner threshold =
      [0x0d, 0x58, 0x2f, 0x13] ++ Abi.words [owner.toNat, threshold] := by
  refine invocation_eq lib lib.selector_addOwnerWithThreshold ?_
  rw [encodeAddress_eq lib howner, encodeUInt_eq]
  rfl

theorem removeOwner_eq {prev owner : Address} (hprev : prev.WellFormed)
    (howner : owner.WellFormed) (threshold : Nat) :
    SafeOwnerManagerContractProxy.removeOwner lib prev owner threshold =
      [0xf8, 0xdc, 0x5d, 0xd9] ++ Abi.words [prev.toNat, owner.toNat, threshold] := by
  refine invocation_eq lib lib.selector_removeOwner ?_
  rw [encodeAddress_eq lib hprev, encodeAddress_eq lib howner, encodeUInt_eq]
  rfl

theorem transfer_eq {recipient : Address} (hrecipient : recipient.WellFormed) {amount : Int}
    (hamount : 0 ≤ amount) :
    ERC20TokenContractProxy.transfer lib recipient amount =
      .ok (method lib ERC20TokenContractProxy.transferMethodSignature ++
        Abi.words [recipient.toNat, amount.toNat]) := by
  have hargs : [encodeAddress lib recipient, encodeUInt lib amount.toNat].flatten =
      Abi.words [recipient.toNat, amount.toNat] := by
    rw [encodeAddress_eq lib hrecipient, encodeUInt_eq]
    rfl
  rw [ERC20TokenContractProxy.transfer, decide_eq_true hamount, invocation_eq lib rfl hargs]
  rfl

/-- What one transaction of a multi-send is packed into. -/
def packedTransaction (tx : MultiSendTransaction) : Data :=
  Abi.words [tx.operation.rawValue, tx.toAddress.toNat, tx.value.natAbs, 128] ++ Abi.bytes tx.data

theorem encodeTransaction_eq {tx : MultiSendTransaction} (h : tx.toAddress.WellFormed) :
    MultiSendContractProxy.encodeTransaction lib tx = packedTransaction tx := by
  simp only [MultiSendContractProxy.encodeTransaction, packedTransaction, encodeUInt_eq,
    encodeAddress_eq lib h, encodeBytes_eq, Abi.words_cons, Abi.words_nil, List.append_nil,
    List.append_assoc]

theorem multiSend_eq {transactions : List MultiSendTransaction}
    (h : ∀ tx ∈ transactions, tx.toAddress.WellFormed) :
    MultiSendContractProxy.multiSend lib transactions = [0x8d, 0x80, 0xff, 0x0a] ++
      (Abi.word 32 ++ Abi.bytes (transactions.flatMap packedTransaction)) := by
  have hpacked : transactions.flatMap (MultiSendContractProxy.encodeTransaction lib) =
      transactions.flatMap packedTransaction :=
    List.flatMap_congr fun tx htx => encodeTransaction_eq lib (h tx htx)
  rw [MultiSendContractProxy.multiSend, hpacked, encodeBytes_eq, encodeUInt_eq, invocation,
    List.flatten_singleton]
  exact congrArg (· ++ _) lib.selector_multiSend

end MultisigWallet
