import MultisigWallet.ContractDecoding

/-!
# MultisigWallet.ContractRoundTrip

What the contract proxies read back of what they wrote, and which data the call decoders accept.

All three call decoders return a value for call data of exactly the right length, the selector
first. They differ on other data: a threshold that does not fit `Int` and a transfer whose
arguments are cut short stop the app.
-/

namespace MultisigWallet

open EthereumContractProxy

/-! ### Words, arrays and byte strings -/

namespace EthereumContractProxy

variable (lib : ThirdParty)

theorem toNat_encodeUInt {n : Nat} (hn : n < 2 ^ 256) : Bytes.toNat (encodeUInt lib n) = n := by
  rw [encodeUInt_eq, Abi.word]
  exact Bytes.toNat_ofNat_of_lt (lt_of_lt_of_eq hn (by norm_num))

theorem decodeArrayUInt_encodeArrayUInt {ns : List Nat} (hns : ∀ n ∈ ns, n < 2 ^ 256)
    (hfits : FitsData (encodeArrayUInt lib ns)) :
    decodeArrayUInt (encodeArrayUInt lib ns) = .ok ns := by
  rw [encodeArrayUInt_eq] at hfits ⊢
  have hlen : 32 * (ns.length + 2) < 2 ^ 63 := by
    rw [FitsData, Abi.length_words] at hfits
    exact hfits
  have hint : isInt (ns.length * 32) = true := by
    simp only [isInt, Bool.and_eq_true, decide_eq_true_eq]
    omega
  rw [decodeArrayUInt_words hns (by omega), if_pos hint]

theorem decodeTupleUInt_encodeTupleUInt {ns : List Nat} (hns : ∀ n ∈ ns, n < 2 ^ 256)
    (hfits : FitsData (encodeTupleUInt lib ns)) :
    decodeTupleUInt (encodeTupleUInt lib ns) ns.length = .ok ns := by
  rw [encodeTupleUInt_eq] at hfits ⊢
  refine decodeTupleUInt_words hns ?_
  rw [FitsData, Abi.length_words] at hfits
  simp only [isInt, Bool.and_eq_true, decide_eq_true_eq]
  omega

theorem addressOfUInt_toNat {a : Address} (h : a.WellFormed) :
    addressOfUInt lib a.toNat = a.normalized := by
  rw [addressOfUInt_eq lib h.toNat_lt, h.normalized_eq]

theorem decodeArrayAddress_encodeArrayAddress {as : List Address} (has : ∀ a ∈ as, a.WellFormed)
    (hfits : FitsData (encodeArrayAddress lib as)) :
    decodeArrayAddress lib (encodeArrayAddress lib as) = .ok (as.map Address.normalized) := by
  rw [encodeArrayAddress_eq lib has] at hfits ⊢
  have hlt : ∀ n ∈ as.map Address.toNat, n < 2 ^ 256 := by
    intro n hn
    obtain ⟨a, ha, rfl⟩ := List.mem_map.mp hn
    exact (has a ha).toNat_lt.trans (by decide)
  have hmap : (as.map Address.toNat).map (addressOfUInt lib) = as.map Address.normalized := by
    rw [List.map_map]
    exact List.map_congr_left fun a ha => addressOfUInt_toNat lib (has a ha)
  rw [decodeArrayAddress, decodeArrayUInt_encodeArrayUInt lib hlt hfits, ← hmap]
  rfl

theorem length_encodeBytes (b : Data) :
    (encodeBytes lib b).length = 32 + Abi.ceil32 b.length := by
  rw [encodeBytes_eq, Abi.length_bytes]

theorem decodeBytes_encodeBytes {b : Data} (hfits : FitsData (encodeBytes lib b)) :
    decodeBytes (encodeBytes lib b) = .ok b := by
  have hle := Abi.le_ceil32 b.length
  rw [FitsData, length_encodeBytes] at hfits
  have hlen : b.length < 2 ^ 256 := by omega
  have hword : Abi.wordAt (Abi.bytes b) 0 = b.length := Abi.wordAt_word hlen _
  have hbytes : Abi.bytesAt (Abi.bytes b) 0 = b := by
    rw [← List.append_nil (Abi.bytes b)]
    exact Abi.bytesAt_bytes hlen []
  have hint : isInt b.length = true := by
    simp only [isInt, Bool.and_eq_true, decide_eq_true_eq]
    omega
  rw [encodeBytes_eq, decodeBytes_eq, hword, if_pos hint, hbytes]

/-- What is encoded is decoded again: every word, every array and tuple of words, every array of
addresses in lower case, and every byte string, which is padded to whole words. -/
theorem encoded_readBack :
    (∀ n, (encodeUInt lib n).length = 32 ∧ (n < 2 ^ 256 → Bytes.toNat (encodeUInt lib n) = n)) ∧
      (∀ ns : List Nat, (∀ n ∈ ns, n < 2 ^ 256) →
        (FitsData (encodeArrayUInt lib ns) →
          decodeArrayUInt (encodeArrayUInt lib ns) = .ok ns) ∧
        (FitsData (encodeTupleUInt lib ns) →
          decodeTupleUInt (encodeTupleUInt lib ns) ns.length = .ok ns)) ∧
      (∀ as : List Address, (∀ a ∈ as, a.WellFormed) → FitsData (encodeArrayAddress lib as) →
        decodeArrayAddress lib (encodeArrayAddress lib as) = .ok (as.map Address.normalized)) ∧
      ∀ b : Data, 32 ∣ (encodeBytes lib b).length ∧
        (FitsData (encodeBytes lib b) → decodeBytes (encodeBytes lib b) = .ok b) := by
  refine ⟨fun n => ⟨?_, toNat_encodeUInt lib⟩, fun ns hns => ⟨?_, ?_⟩, fun as has => ?_, fun b => ⟨?_, ?_⟩⟩
  · rw [encodeUInt_eq, Abi.length_word]
  · exact decodeArrayUInt_encodeArrayUInt lib hns
  · exact decodeTupleUInt_encodeTupleUInt lib hns
  · exact decodeArrayAddress_encodeArrayAddress lib has
  · rw [length_encodeBytes]
    exact Nat.dvd_add (Nat.dvd_refl 32) (Nat.dvd_mul_left 32 _)
  · exact decodeBytes_encodeBytes lib

/-- Zero and the largest word, an address and three bytes are read back. -/
theorem encoded_readBack_sample :
    Bytes.toNat (encodeUInt reference (2 ^ 256 - 1)) = 2 ^ 256 - 1 ∧
      decodeArrayUInt (encodeArrayUInt reference [0, 2 ^ 256 - 1]) = .ok [0, 2 ^ 256 - 1] ∧
      decodeTupleUInt (encodeTupleUInt reference [0, 2 ^ 256 - 1]) 2 = .ok [0, 2 ^ 256 - 1] ∧
      decodeArrayAddress reference (encodeArrayAddress reference [Address.two]) =
        .ok [Address.two.normalized] ∧
      decodeBytes (encodeBytes reference [1, 2, 3]) = .ok [1, 2, 3] := by
  obtain ⟨hword, harray, haddress, hbytes⟩ := encoded_readBack reference
  have hwords := harray [0, 2 ^ 256 - 1] (by decide)
  have htwo : Address.two.WellFormed := Address.wellFormed_of_digits (by decide)
  exact ⟨(hword _).2 (by decide), hwords.1 (by decide +kernel), hwords.2 (by decide +kernel),
    haddress [Address.two] (List.forall_mem_singleton.mpr htwo) (by decide +kernel),
    (hbytes _).2 (by decide +kernel)⟩

end EthereumContractProxy

/-! ### Calls -/

variable (lib : ThirdParty)

theorem decodeSwapOwnerArguments_swapOwner {prev old new : Address} (hprev : prev.WellFormed)
    (hold : old.WellFormed) (hnew : new.WellFormed) :
    SafeOwnerManagerContractProxy.decodeSwapOwnerArguments lib
        (SafeOwnerManagerContractProxy.swapOwner lib prev old new) =
      some (prev.normalized, old.normalized, new.normalized) := by
  have hwords : ∀ n ∈ [prev.toNat, old.toNat, new.toNat], n < 2 ^ 256 := by
    simp only [List.forall_mem_cons, List.not_mem_nil, false_implies, implies_true, and_true]
    exact ⟨hprev.toNat_lt.trans (by decide), hold.toNat_lt.trans (by decide),
      hnew.toNat_lt.trans (by decide)⟩
  have hmethod : method lib "swapOwner(address,address,address)" = [0xe3, 0x18, 0xb5, 0x2b] :=
    lib.selector_swapOwner
  have hcall : IsCallOf [0xe3, 0x18, 0xb5, 0x2b] 3
      ([0xe3, 0x18, 0xb5, 0x2b] ++ Abi.words [prev.toNat, old.toNat, new.toNat]) :=
    isCallOf_words rfl [prev.toNat, old.toNat, new.toNat]
  rw [swapOwner_eq lib hprev hold hnew, decodeSwapOwnerArguments_eq, hmethod, if_pos hcall,
    wordAt_call (i := 0) rfl hwords rfl, wordAt_call (i := 1) rfl hwords rfl,
    wordAt_call (i := 2) rfl hwords rfl, addressOfUInt_toNat lib hprev,
    addressOfUInt_toNat lib hold, addressOfUInt_toNat lib hnew]

theorem decodeAddOwnerArguments_addOwner {owner : Address} (howner : owner.WellFormed)
    {threshold : Nat} (hthreshold : threshold < 2 ^ 63) :
    SafeOwnerManagerContractProxy.decodeAddOwnerArguments lib
        (SafeOwnerManagerContractProxy.addOwner lib owner threshold) =
      .ok (some (owner.normalized, (threshold : Int))) := by
  have hwords : ∀ n ∈ [owner.toNat, threshold], n < 2 ^ 256 := by
    simp only [List.forall_mem_cons, List.not_mem_nil, false_implies, implies_true, and_true]
    exact ⟨howner.toNat_lt.trans (by decide), hthreshold.trans (by decide)⟩
  have hmethod : method lib "addOwnerWithThreshold(address,uint256)" = [0x0d, 0x58, 0x2f, 0x13] :=
    lib.selector_addOwnerWithThreshold
  have hcall : IsCallOf [0x0d, 0x58, 0x2f, 0x13] 2
      ([0x0d, 0x58, 0x2f, 0x13] ++ Abi.words [owner.toNat, threshold]) :=
    isCallOf_words rfl [owner.toNat, threshold]
  have hint : isInt threshold = true := by
    simp only [isInt, Bool.and_eq_true, decide_eq_true_eq]
    omega
  rw [addOwner_eq lib howner, decodeAddOwnerArguments_eq, hmethod, if_pos hcall,
    wordAt_call (i := 0) rfl hwords rfl, wordAt_call (i := 1) rfl hwords rfl, if_pos hint,
    addressOfUInt_toNat lib howner]

theorem decodedTransfer_transfer {recipient : Address} (hrecipient : recipient.WellFormed)
    {amount : Int} (hamount : 0 ≤ amount) (hlt : amount < 2 ^ 256) :
    (ERC20TokenContractProxy.transfer lib recipient amount >>=
        ERC20TokenContractProxy.decodedTransfer lib) =
      .ok (some (recipient.normalized, amount)) := by
  have hwords : ∀ n ∈ [recipient.toNat, amount.toNat], n < 2 ^ 256 := by
    simp only [List.forall_mem_cons, List.not_mem_nil, false_implies, implies_true, and_true]
    exact ⟨hrecipient.toNat_lt.trans (by decide), by omega⟩
  have hselector := length_method lib ERC20TokenContractProxy.transferMethodSignature
  have hcall : IsCallOf (method lib ERC20TokenContractProxy.transferMethodSignature) 2
      (method lib ERC20TokenContractProxy.transferMethodSignature ++
        Abi.words [recipient.toNat, amount.toNat]) :=
    isCallOf_words hselector [recipient.toNat, amount.toNat]
  obtain ⟨hselects, hlen⟩ := hcall
  rw [transfer_eq lib hrecipient hamount]
  show ERC20TokenContractProxy.decodedTransfer lib _ = _
  rw [decodedTransfer_eq, if_pos hselects, if_neg (Nat.not_lt.mpr hlen.ge), if_pos hlen,
    wordAt_call (i := 0) hselector hwords rfl, wordAt_call (i := 1) hselector hwords rfl,
    addressOfUInt_toNat lib hrecipient, Int.toNat_of_nonneg hamount]

/-- Every call that is written is read back, its addresses in lower case. -/
structure CallsReadBack : Prop where
  swapOwner : ∀ prev old new : Address, prev.WellFormed → old.WellFormed → new.WellFormed →
    SafeOwnerManagerContractProxy.decodeSwapOwnerArguments lib
        (SafeOwnerManagerContractProxy.swapOwner lib prev old new) =
      some (prev.normalized, old.normalized, new.normalized)
  addOwner : ∀ owner : Address, owner.WellFormed → ∀ threshold : Nat, threshold < 2 ^ 63 →
    SafeOwnerManagerContractProxy.decodeAddOwnerArguments lib
        (SafeOwnerManagerContractProxy.addOwner lib owner threshold) =
      .ok (some (owner.normalized, (threshold : Int)))
  transfer : ∀ recipient : Address, recipient.WellFormed → ∀ amount : Int, 0 ≤ amount →
    amount < 2 ^ 256 →
    (ERC20TokenContractProxy.transfer lib recipient amount >>=
        ERC20TokenContractProxy.decodedTransfer lib) =
      .ok (some (recipient.normalized, amount))

theorem callsReadBack : CallsReadBack lib where
  swapOwner _ _ _ hprev hold hnew := decodeSwapOwnerArguments_swapOwner lib hprev hold hnew
  addOwner _ howner _ hthreshold := decodeAddOwnerArguments_addOwner lib howner hthreshold
  transfer _ hrecipient _ hamount hlt := decodedTransfer_transfer lib hrecipient hamount hlt

/-- No call decoder stops at `d`, and each reads a value from `d` if and only if `d` is a call of
its own: the selector and exactly its number of words, of which a threshold fits `Int`. -/
structure DecodesCallsOnly (d : Data) : Prop where
  swapOwner : (SafeOwnerManagerContractProxy.decodeSwapOwnerArguments lib d).isSome ↔
    IsCallOf (method lib "swapOwner(address,address,address)") 3 d
  addOwner : ∃ o, SafeOwnerManagerContractProxy.decodeAddOwnerArguments lib d = .ok o ∧
    (o.isSome ↔ IsCallOf (method lib "addOwnerWithThreshold(address,uint256)") 2 d ∧
      isInt (Abi.wordAt d 36))
  transfer : ∃ o, ERC20TokenContractProxy.decodedTransfer lib d = .ok o ∧
    (o.isSome ↔ IsCallOf (method lib ERC20TokenContractProxy.transferMethodSignature) 2 d)

theorem decodeSwapOwnerArguments_isSome (d : Data) :
    (SafeOwnerManagerContractProxy.decodeSwapOwnerArguments lib d).isSome ↔
      IsCallOf (method lib "swapOwner(address,address,address)") 3 d := by
  rw [decodeSwapOwnerArguments_eq]
  split <;> simp_all

theorem decodeAddOwnerArguments_exact (d : Data) :
    (∃ o, SafeOwnerManagerContractProxy.decodeAddOwnerArguments lib d = .ok o ∧
      (o.isSome ↔ IsCallOf (method lib "addOwnerWithThreshold(address,uint256)") 2 d ∧
        isInt (Abi.wordAt d 36))) ↔
      (IsCallOf (method lib "addOwnerWithThreshold(address,uint256)") 2 d →
        isInt (Abi.wordAt d 36)) := by
  rw [decodeAddOwnerArguments_eq]
  by_cases hcall : IsCallOf (method lib "addOwnerWithThreshold(address,uint256)") 2 d
  · by_cases hint : isInt (Abi.wordAt d 36) = true
    · simp [hcall, hint]
    · simp [hcall, hint]
  · simp [hcall]

theorem decodedTransfer_exact (d : Data) :
    (∃ o, ERC20TokenContractProxy.decodedTransfer lib d = .ok o ∧
      (o.isSome ↔ IsCallOf (method lib ERC20TokenContractProxy.transferMethodSignature) 2 d)) ↔
      (method lib ERC20TokenContractProxy.transferMethodSignature <+: d → 68 ≤ d.length) := by
  rw [decodedTransfer_eq]
  unfold IsCallOf
  by_cases hselects : method lib ERC20TokenContractProxy.transferMethodSignature <+: d
  · by_cases hshort : d.length < 68
    · simp [hselects, hshort]
    · by_cases hlen : d.length = 68
      · simp [hselects, hlen]
      · simp [hselects, hlen, hshort, Nat.not_lt.mp hshort]
  · simp [hselects]

/-- Calls are read back; and the decoders are exact on the data in which a call of
`addOwnerWithThreshold` has a threshold that fits `Int` and a transfer has all its arguments. -/
theorem decodesCallsOnly_iff :
    CallsReadBack lib ∧ ∀ d : Data, DecodesCallsOnly lib d ↔
      (IsCallOf (method lib "addOwnerWithThreshold(address,uint256)") 2 d →
        isInt (Abi.wordAt d 36)) ∧
      (method lib ERC20TokenContractProxy.transferMethodSignature <+: d → 68 ≤ d.length) := by
  refine ⟨callsReadBack lib, fun d => ?_⟩
  rw [← decodeAddOwnerArguments_exact, ← decodedTransfer_exact]
  constructor
  · intro h
    exact ⟨h.addOwner, h.transfer⟩
  · intro h
    obtain ⟨haddOwner, htransfer⟩ := h
    exact ⟨decodeSwapOwnerArguments_isSome lib d, haddOwner, htransfer⟩

/-- The bare selector of a transfer stops the app, and so does a call that adds an owner with a
threshold of `2 ^ 63`. -/
theorem not_decodesCallsOnly_short :
    ¬ DecodesCallsOnly reference [0xa9, 0x05, 0x9c, 0xbb] ∧
      ¬ DecodesCallsOnly reference ([0x0d, 0x58, 0x2f, 0x13] ++ Abi.words [1, 2 ^ 63]) := by
  have hshort : ERC20TokenContractProxy.decodedTransfer reference [0xa9, 0x05, 0x9c, 0xbb] =
      .error .removeFirst := by decide +kernel
  have hlarge : SafeOwnerManagerContractProxy.decodeAddOwnerArguments reference
      ([0x0d, 0x58, 0x2f, 0x13] ++ Abi.words [1, 2 ^ 63]) = .error .overflow := by decide +kernel
  constructor
  · intro h
    obtain ⟨o, ho, -⟩ := h.transfer
    rw [hshort] at ho
    cases ho
  · intro h
    obtain ⟨o, ho, -⟩ := h.addOwner
    rw [hlarge] at ho
    cases ho

end MultisigWallet
