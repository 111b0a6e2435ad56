import MultisigWallet.ContractDecoding
import MultisigWallet.ReceiveSound

/-!
# MultisigWallet.DecodedAddress

Which account a word of call data denotes. A contract keeps the low 160 bits of an address
argument, and so does the node layer. The decoder of the wallet prints the word without its
leading zeros and keeps what comes first, so the two agree as long as the significant bytes are
no more than the bytes of an address.
-/

namespace MultisigWallet

open EthereumContractProxy

/-! ### The node layer -/

/-- `EthData.padded(to:)`: the last `count` bytes. -/
def EthData.padded (count : Nat) (data : Data) : Data :=
  if data.length ≥ count then suffixData count data
  else List.replicate (count - data.length) 0 ++ data

namespace EthAddress

/-- `EthAddress.size`. -/
def size : Nat := 20

/-- `EthAddress.init(_: Data)`, as the data that is kept. -/
def ofData (value : Data) : Data := EthData.padded size value

/-- `hexString` of the address of `value`. -/
def hexString (lib : ThirdParty) (value : Data) : Str := lib.addHexPrefix (Bytes.toHex (ofData value))

end EthAddress

/-- The account of the low 160 bits of a word. -/
def lowAddress (word : Data) : Address := Address.ofNat (Bytes.toNat word % 2 ^ 160)

/-- The bytes of a word from the first one that is not zero. -/
def significant (word : Data) : Data := word.dropWhile (· = 0)

section

variable (lib : ThirdParty)

theorem lowAddress_eq {word : Data} (h : 20 ≤ word.length) :
    lowAddress word = Address.ofData (suffixData 20 word) := by
  have hmod : Bytes.ofNat 20 (Bytes.toNat word % 2 ^ 160) = Bytes.ofNat 20 (Bytes.toNat word) := by
    refine (Bytes.eq_ofNat (Bytes.length_ofNat 20 _) ?_).symm
    rw [Bytes.toNat_ofNat]
    norm_num
  rw [lowAddress, Address.ofNat, hmod, suffixData_eq h]

/-- The node layer keeps the low 160 bits. -/
theorem hexString_ofData {word : Data} (h : 20 ≤ word.length) :
    EthAddress.hexString lib word = (lowAddress word).value := by
  have hdigits : ∀ c ∈ Bytes.toHex (suffixData 20 word), c ∈ Bytes.hexDigits := fun c hc =>
    Bytes.lowerHex_subset_hexDigits c (Bytes.mem_lowerHex_of_mem_toHex c hc)
  rw [EthAddress.hexString, EthAddress.ofData, EthAddress.size, EthData.padded, if_pos h,
    lib.addHexPrefix_digits _ hdigits, lowAddress_eq h]
  rfl

/-! ### What the decoder keeps -/

theorem toNat_significant (word : Data) : Bytes.toNat (significant word) = Bytes.toNat word :=
  Bytes.toNat_dropWhile_zero word

theorem pow_le_significant {word : Data} (h : significant word ≠ []) :
    256 ^ ((significant word).length - 1) ≤ Bytes.toNat (significant word) := by
  cases hs : significant word with
  | nil => exact absurd hs h
  | cons b bs =>
      have hb : ¬ b = 0 := by
        have hhead := List.head?_dropWhile_not (· = (0 : UInt8)) word
        rw [← significant, hs] at hhead
        simpa using hhead
      exact Bytes.pow_le_toNat hb bs

/-- The digits of a number are read as its significant bytes. -/
theorem dataEthHex_toDigits_eq {word : Data} (h : significant word ≠ []) :
    lib.dataEthHex (Nat.toDigits 16 (Bytes.toNat word)) = significant word := by
  have hdigits : ∀ c ∈ Nat.toDigits 16 (Bytes.toNat word), c ∈ Bytes.hexDigits := fun c hc =>
    Bytes.lowerHex_subset_hexDigits c (Bytes.mem_lowerHex_of_mem_toDigits c hc)
  have hvalue : Bytes.toNat (lib.dataEthHex (Nat.toDigits 16 (Bytes.toNat word))) =
      Bytes.toNat word := by
    rw [lib.toNat_dataEthHex hdigits, Bytes.hexValue_toDigits]
  have hle := pow_le_significant h
  refine Bytes.eq_of_toNat_eq ?_ hle (hvalue.trans (toNat_significant word).symm)
  rw [toNat_significant] at hle
  rw [hvalue, lib.length_dataEthHex hdigits]
  -- were the number smaller, it would have fewer digits
  by_contra hlt
  rw [Nat.not_le] at hlt
  cases hk : ((Nat.toDigits 16 (Bytes.toNat word)).length + 1) / 2 - 1 with
  | zero =>
      rw [hk, pow_zero] at hlt
      have hpos : 0 < 256 ^ ((significant word).length - 1) := Nat.pow_pos (by decide)
      omega
  | succ k =>
      have hpow : (256 : Nat) ^ (k + 1) = 16 ^ (2 * (k + 1)) := by
        rw [pow_mul]
        norm_num
      rw [hk, hpow] at hlt
      have hlen := (Nat.length_toDigits_le_iff (by norm_num) (by omega)).mpr hlt
      omega

theorem ofData_inj {d e : Data} (h : Address.ofData d = Address.ofData e) : d = e := by
  have hhex : Bytes.toHex d = Bytes.toHex e :=
    List.append_cancel_left (congrArg Address.value h)
  rw [← Bytes.ofHex_toHex d, hhex, Bytes.ofHex_toHex]

/-- Up to 20 significant bytes are kept, of more only the first 20. -/
theorem decodeAddress_significant {word : Data} (hlen : word.length = 32) :
    decodeAddress lib word =
      if (significant word).length ≤ 20 then lowAddress word
      else Address.ofData ((significant word).take 20) := by
  have hword : Abi.wordAt word 0 = Bytes.toNat word := by
    rw [Abi.wordAt, List.drop_zero, List.take_of_length_le hlen.le]
  rw [decodeAddress_eq, hword]
  split
  case isTrue hs =>
    have hlt : Bytes.toNat word < 2 ^ 160 := by
      calc Bytes.toNat word = Bytes.toNat (significant word) := (toNat_significant word).symm
        _ < 256 ^ (significant word).length := Bytes.toNat_lt _
        _ ≤ 256 ^ 20 := Nat.pow_le_pow_right (by decide) hs
        _ = 2 ^ 160 := by norm_num
    rw [addressOfUInt_eq lib hlt, lowAddress, Nat.mod_eq_of_lt hlt]
  case isFalse hs =>
    have hne : significant word ≠ [] := by
      intro hnil
      simp [hnil] at hs
    have htake : ((significant word).take 20).length = 20 := by
      rw [List.length_take]
      omega
    rw [addressOfUInt, dataEthHex_toDigits_eq lib hne, endTruncated, if_pos (by omega), leftPadded,
      if_pos htake.ge]

/-- More than 20 significant bytes repeat themselves with a period of as many bytes as they are too
many. -/
def RepeatsBeyond (s : Data) : Prop := ∀ i < 20, s[i]? = s[i + (s.length - 20)]?

instance RepeatsBeyond.decidable (s : Data) : Decidable (RepeatsBeyond s) :=
  inferInstanceAs (Decidable (∀ i < 20, _))

theorem take_eq_suffixData_iff {s : Data} (h : 20 ≤ s.length) :
    s.take 20 = suffixData 20 s ↔ RepeatsBeyond s := by
  rw [suffixData, List.ext_getElem?_iff]
  constructor
  · intro hall i hi
    have heq := hall i
    rw [List.getElem?_take_of_lt hi, List.getElem?_drop] at heq
    rw [heq, Nat.add_comm]
  · intro hall i
    by_cases hi : i < 20
    · rw [List.getElem?_take_of_lt hi, List.getElem?_drop, hall i hi, Nat.add_comm]
    · have htake : (s.take 20).length ≤ i := by
        rw [List.length_take]
        omega
      have hdrop : (s.drop (s.length - 20)).length ≤ i := by
        rw [List.length_drop]
        omega
      rw [List.getElem?_eq_none htake, List.getElem?_eq_none hdrop]

theorem decodeAddress_eq_lowAddress_iff {word : Data} (hlen : word.length = 32) :
    decodeAddress lib word = lowAddress word ↔
      (significant word).length ≤ 20 ∨ RepeatsBeyond (significant word) := by
  rw [decodeAddress_significant lib hlen]
  by_cases hs : (significant word).length ≤ 20
  · rw [if_pos hs]
    exact iff_of_true rfl (.inl hs)
  · have hle : 20 ≤ (significant word).length := by omega
    have hlow : lowAddress word = Address.ofData (suffixData 20 (significant word)) := by
      rw [← lowAddress_eq hle, lowAddress, lowAddress, toNat_significant]
    rw [if_neg hs, hlow, or_iff_right hs, ← take_eq_suffixData_iff hle]
    exact ⟨ofData_inj, congrArg Address.ofData⟩

/-! ### A pushed transfer -/

/-- The word is decoded as the account that a contract takes it for: the one of its low 160 bits,
which is the node layer's, and whom a proposed transfer of tokens is shown to credit. -/
structure DecodesAsEvm (word : Data) : Prop where
  low : decodeAddress lib word = lowAddress word
  node : (decodeAddress lib word).value = EthAddress.hexString lib word
  recipient : ∀ (tx t : Transaction) (m : SendTransactionMessage) (amount : Data) (clock : Clock),
    tx.status = .draft →
    m.data = method lib ERC20TokenContractProxy.transferMethodSignature ++ (word ++ amount) →
    amount.length = 32 → WalletApplicationService.update lib tx m clock = .ok t →
    t.recipient = some (lowAddress word)

/-- The recipient of a proposed transfer of tokens is what the first argument decodes to. -/
theorem recipient_update {word amount : Data} (hword : word.length = 32)
    (hamount : amount.length = 32) {m : SendTransactionMessage}
    (hdata : m.data = method lib ERC20TokenContractProxy.transferMethodSignature ++ (word ++ amount))
    {tx t : Transaction} {clock : Clock} (hdraft : tx.status = .draft)
    (h : WalletApplicationService.update lib tx m clock = .ok t) :
    t.recipient = some (decodeAddress lib word) := by
  obtain ⟨-, decoded, hdecoded, rfl⟩ := (WalletApplicationService.update_ok hdraft).mp h
  have hlen : m.data.length = 68 := by
    rw [hdata, List.length_append, List.length_append, length_method, hword, hamount]
  have hat : Abi.wordAt m.data 4 = Abi.wordAt word 0 := by
    rw [hdata, ← length_method lib ERC20TokenContractProxy.transferMethodSignature,
      ← Nat.add_zero (List.length _), ← Abi.wordAt_drop, List.drop_left, Abi.wordAt, Abi.wordAt,
      List.drop_zero, List.drop_zero, List.take_append_of_le_length hword.ge]
  rw [decodedTransfer_eq, if_pos (hdata ▸ List.prefix_append _ _), if_neg (by omega), if_pos hlen,
    hat] at hdecoded
  obtain rfl := Except.ok.inj hdecoded
  rw [decodeAddress_eq]
  rfl

/-- A word is decoded as the account that a contract takes it for exactly if it has at most 20
significant bytes or they happen to repeat themselves. -/
theorem decodesAsEvm_iff {word : Data} (hlen : word.length = 32) :
    DecodesAsEvm lib word ↔
      (significant word).length ≤ 20 ∨ RepeatsBeyond (significant word) := by
  rw [← decodeAddress_eq_lowAddress_iff lib hlen]
  constructor
  · intro h
    exact h.low
  · intro h
    exact {
      low := h
      node := by rw [h, hexString_ofData lib (by omega)]
      recipient := by
        intro tx t m amount clock hdraft hdata hamount hupdate
        rw [recipient_update lib hlen hamount hdata hdraft hupdate, h] }

end

/-- The upper 12 bytes of the word of address 5 are zero. -/
theorem decodesAsEvm_word : DecodesAsEvm reference (Abi.word 5) :=
  (decodesAsEvm_iff reference (by decide)).mpr (.inl (by decide))

/-- With a one in front of an address, the last byte of the address is lost. -/
theorem not_decodesAsEvm_dirty :
    ¬ DecodesAsEvm reference (Abi.word (2 ^ 160 + 5)) := by
  intro h
  exact absurd h.low (by decide +kernel)

end MultisigWallet
