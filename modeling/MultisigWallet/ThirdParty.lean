import MultisigWallet.Base
import MultisigWallet.Lib.Bytes

/-!
# MultisigWallet.ThirdParty

The code the wallet links against and does not contain: Keccak-256 and ECDSA from
EthereumKit, `Data(hex:)` from CryptoSwift, the number parsers of BigInt. It enters
the model as one structure of functions, `ThirdParty`. The fields that are
propositions are the documented behaviour the wallet relies on; what happens outside
of it (the empty string, a character that is no digit) is left open, so a result
about `lib : ThirdParty` holds whatever the packages do there.

The second half is the wallet's own thin layer over these functions: `Data(ethHex:)`,
the padding helpers and the checks of `Address.init(_:)`.
-/

namespace MultisigWallet

/-- The ASCII bytes of a text. -/
def asciiData (text : String) : Data := text.toList.map fun c => UInt8.ofNat c.toNat

/-- secp256k1 signature components, as the messaging layer carries them. -/
structure EthSignature where
  r : Str
  s : Str
  v : Int
  deriving DecidableEq, Repr

/-- The third-party functions, with what their documentation promises. -/
structure ThirdParty where
  /-- `Crypto.hashSHA3_256(_:)`: Keccak-256. -/
  hashSHA3_256 : Data → Data
  /-- CryptoSwift's `Data(hex:)`. -/
  dataHex : Str → Data
  /-- `BigInt(_:radix:)`. -/
  bigInt : Str → Nat → Option Int
  /-- `BigUInt(_:)`, radix 10. -/
  bigUInt : Str → Option Nat
  /-- EthereumKit's `BInt(_:radix: 10)`. -/
  bInt : Str → Option Int
  /-- `String.stripHexPrefix()`. -/
  stripHexPrefix : Str → Str
  /-- `String.addHexPrefix()`. -/
  addHexPrefix : Str → Str
  /-- `EIP55.encode(_:)`: the checksummed digits of an address. -/
  eip55 : Data → Str
  /-- `EIP155Signer.calculateSignature(r:s:v:)`. -/
  calculateSignature : Int → Int → Int → Data
  /-- `EIP155Signer.calculateRSV(signature:)`. -/
  calculateRSV : Data → Int × Int × Int
  /-- `Crypto.publicKey(signature:of:compressed: false)`. -/
  publicKey : Data → Data → Option Data
  /-- `PublicKey(raw:).address()`. -/
  createAddress : Data → Str
  /-- `EthereumKit.Address(data:).string`. -/
  addressString : Data → Str
  /-- `Crypto.sign(_:privateKey:)`; `none` when it throws. -/
  sign : Data → Data → Option Data
  /-- A hash is 32 bytes long. -/
  length_hash : ∀ d, (hashSHA3_256 d).length = 32
  /-- Pairs of hex digits are read as bytes. -/
  dataHex_digits : ∀ s, (∀ c ∈ s, c ∈ Bytes.hexDigits) → s.length % 2 = 0 →
    dataHex s = Bytes.ofHex s
  /-- A non-empty string of hex digits is read as the number it denotes. -/
  bigInt_hex : ∀ s, s ≠ [] → (∀ c ∈ s, c ∈ Bytes.hexDigits) →
    bigInt s 16 = some (Bytes.hexValue s : Int)
  /-- A decimal numeral is read as the number it denotes. -/
  bigInt_decimal : ∀ n : Nat, bigInt (Nat.toDigits 10 n) 10 = some (n : Int)
  bigInt_negative : ∀ n : Nat, bigInt ('-' :: Nat.toDigits 10 n) 10 = some (-n : Int)
  /-- The mark is stripped. -/
  stripHexPrefix_mark : ∀ s, stripHexPrefix (hexMark ++ s) = s
  /-- A string without the mark is left alone. -/
  stripHexPrefix_noMark : ∀ s, ¬ hexMark <+: s → stripHexPrefix s = s
  /-- The mark is put in front of digits. -/
  addHexPrefix_digits : ∀ s, (∀ c ∈ s, c ∈ Bytes.hexDigits) → addHexPrefix s = hexMark ++ s
  /-- Checksumming changes the case of digits only. -/
  eip55_digits : ∀ d, d.length = 20 →
    lowercased (eip55 d) = Bytes.toHex d ∧ ∀ c ∈ eip55 d, c ∈ Bytes.hexDigits
  /-- An address of 20 bytes is written as its mark and its 40 digits. -/
  addressString_digits : ∀ d, d.length = 20 →
    ∃ s, addressString d = hexMark ++ s ∧ lowercased s = Bytes.toHex d ∧
      ∀ c ∈ s, c ∈ Bytes.hexDigits
  /-- A public key's address has 20 bytes. -/
  createAddress_digits : ∀ k, ∃ s, createAddress k = hexMark ++ s ∧ s.length = 40 ∧
    ∀ c ∈ s, c ∈ Bytes.hexDigits
  /-- The four-byte selectors of the contract methods the wallet calls. -/
  selector_transfer :
    (hashSHA3_256 (asciiData "transfer(address,uint256)")).take 4 = [0xa9, 0x05, 0x9c, 0xbb]
  selector_swapOwner :
    (hashSHA3_256 (asciiData "swapOwner(address,address,address)")).take 4 =
      [0xe3, 0x18, 0xb5, 0x2b]
  selector_addOwnerWithThreshold :
    (hashSHA3_256 (asciiData "addOwnerWithThreshold(address,uint256)")).take 4 =
      [0x0d, 0x58, 0x2f, 0x13]
  selector_removeOwner :
    (hashSHA3_256 (asciiData "removeOwner(address,address,uint256)")).take 4 =
      [0xf8, 0xdc, 0x5d, 0xd9]
  selector_multiSend :
    (hashSHA3_256 (asciiData "multiSend(bytes)")).take 4 = [0x8d, 0x80, 0xff, 0x0a]

/-- Documented behaviour that only some of the results rely on. -/
structure ThirdParty.Documented (lib : ThirdParty) : Prop where
  /-- `Data(hex:)` skips the mark. -/
  dataHex_mark : ∀ s, (∀ c ∈ s, c ∈ Bytes.hexDigits) → s.length % 2 = 0 →
    lib.dataHex (hexMark ++ s) = Bytes.ofHex s
  /-- `Data(hex:)` is empty if a character is no digit. -/
  dataHex_noDigit : ∀ s, (∃ c ∈ s, c ∉ Bytes.hexDigits) → ¬ hexMark <+: s → lib.dataHex s = []
  /-- A decimal numeral is read as the number it denotes. -/
  bigUInt_decimal : ∀ n : Nat, lib.bigUInt (Nat.toDigits 10 n) = some n

/-! ### `Data` -/

/-- The loop of `Data(ethHex:)` that drops every leading `0x` and `0X`. -/
def dropHexMarks : Str → Str
  | '0' :: 'x' :: s => dropHexMarks s
  | '0' :: 'X' :: s => dropHexMarks s
  | s => s

namespace ThirdParty

/-- `Data(ethHex:)`: marks dropped, padded to whole bytes from the left. -/
def dataEthHex (lib : ThirdParty) (ethHex : Str) : Data :=
  let value := dropHexMarks ethHex
  let paddingToByte := if value.length % 2 = 1 then ['0'] else []
  lib.dataHex (paddingToByte ++ value)

end ThirdParty

/-- `leftPadded(to:)`, padding with zeros. -/
def leftPadded (count : Nat) (d : Data) : Data :=
  if d.length ≥ count then d else List.replicate (count - d.length) 0 ++ d

/-- `rightPadded(to:)`, padding with zeros. -/
def rightPadded (count : Nat) (d : Data) : Data :=
  if d.length ≥ count then d else d ++ List.replicate (count - d.length) 0

/-- `endTruncated(to:)`: the first `count` bytes. -/
def endTruncated (count : Nat) (d : Data) : Data :=
  if d.length > count then d.take count else d

/-- `suffix(_:)`: the last `count` bytes. -/
def suffixData (count : Nat) (d : Data) : Data := d.drop (d.length - count)

theorem length_leftPadded {count : Nat} {d : Data} (h : d.length ≤ count) :
    (leftPadded count d).length = count := by
  unfold leftPadded
  split
  · omega
  · simp only [List.length_append, List.length_replicate]
    omega

theorem le_length_leftPadded (count : Nat) (d : Data) : count ≤ (leftPadded count d).length := by
  unfold leftPadded
  split
  · assumption
  · simp only [List.length_append, List.length_replicate]
    omega

theorem toNat_leftPadded (count : Nat) (d : Data) :
    Bytes.toNat (leftPadded count d) = Bytes.toNat d := by
  unfold leftPadded
  split
  · rfl
  · exact Bytes.toNat_replicate_zero_append _ _

/-- `"0x0…"`-free digits pass the loop of `Data(ethHex:)` unchanged. -/
theorem dropHexMarks_digits {s : Str} (hs : ∀ c ∈ s, c ∈ Bytes.hexDigits) :
    dropHexMarks s = s := by
  unfold dropHexMarks
  split
  · exact absurd (hs 'x' (by simp)) (by decide)
  · exact absurd (hs 'X' (by simp)) (by decide)
  · rfl

theorem dropHexMarks_hexMark (s : Str) : dropHexMarks (hexMark ++ s) = dropHexMarks s := rfl

namespace ThirdParty

variable (lib : ThirdParty)

/-- `Data(ethHex:)` of digits: the bytes of the padded digits. -/
theorem dataEthHex_digits {s : Str} (hs : ∀ c ∈ s, c ∈ Bytes.hexDigits) :
    lib.dataEthHex s = Bytes.ofHex ((if s.length % 2 = 1 then ['0'] else []) ++ s) := by
  unfold dataEthHex
  simp only [dropHexMarks_digits hs]
  apply lib.dataHex_digits
  · intro c hc
    rcases List.mem_append.mp hc with hc | hc
    · split at hc
      · rw [List.mem_singleton.mp hc]; decide
      · simp at hc
    · exact hs c hc
  · split <;> (simp; omega)

theorem dataEthHex_mark (s : Str) : lib.dataEthHex (hexMark ++ s) = lib.dataEthHex s := by
  unfold dataEthHex
  rw [dropHexMarks_hexMark]

/-- The value of the bytes is the value of the digits. -/
theorem toNat_dataEthHex {s : Str} (hs : ∀ c ∈ s, c ∈ Bytes.hexDigits) :
    Bytes.toNat (lib.dataEthHex s) = Bytes.hexValue s := by
  rw [lib.dataEthHex_digits hs]
  split
  · rw [Bytes.toNat_ofHex (by simp; omega), Bytes.hexValue_append]
    simp [Bytes.hexVal]
  · rw [List.nil_append, Bytes.toNat_ofHex (by omega)]

theorem length_dataEthHex {s : Str} (hs : ∀ c ∈ s, c ∈ Bytes.hexDigits) :
    (lib.dataEthHex s).length = (s.length + 1) / 2 := by
  rw [lib.dataEthHex_digits hs, Bytes.length_ofHex]
  split
  · simp
  · rw [List.nil_append]
    omega

/-- The bytes `Data(ethHex: String(n, radix: 16))` of a number of at most `w` bytes. -/
theorem dataEthHex_toDigits {w n : Nat} (hw : 0 < w) (hn : n < 256 ^ w) :
    leftPadded w (lib.dataEthHex (Nat.toDigits 16 n)) = Bytes.ofNat w n ∧
      (lib.dataEthHex (Nat.toDigits 16 n)).length ≤ w := by
  have hdigits : ∀ c ∈ Nat.toDigits 16 n, c ∈ Bytes.hexDigits := fun c hc =>
    Bytes.lowerHex_subset_hexDigits c (Bytes.mem_lowerHex_of_mem_toDigits c hc)
  have hpow : (256 : Nat) ^ w = 16 ^ (2 * w) := by rw [pow_mul]; norm_num
  have hlen : (Nat.toDigits 16 n).length ≤ 2 * w :=
    (Nat.length_toDigits_le_iff (by norm_num) (by omega)).mpr (hpow ▸ hn)
  have hle : (lib.dataEthHex (Nat.toDigits 16 n)).length ≤ w := by
    rw [lib.length_dataEthHex hdigits]
    omega
  refine ⟨Bytes.eq_ofNat (length_leftPadded hle) ?_, hle⟩
  rw [toNat_leftPadded, lib.toNat_dataEthHex hdigits, Bytes.hexValue_toDigits]

end ThirdParty

/-! ### Addresses -/

namespace Address

/-- `init(_:)`: the mark is required, and 20 bytes or none. -/
def ofString (lib : ThirdParty) (value : Str) : Except Trap Address := do
  precondition (decide (hexMark <+: value)) "value.hasPrefix(\"0x\")"
  precondition ((lib.dataEthHex value).length == 20 || (lib.dataEthHex value).isEmpty)
    "Data(ethHex: value).count == 20 || Data(ethHex: value).isEmpty"
  return ⟨value⟩

/-- The address is the string it was made from. -/
theorem ofString_ok {lib : ThirdParty} {value : Str} {a : Address}
    (h : ofString lib value = .ok a) : a = ⟨value⟩ := by
  unfold ofString at h
  obtain ⟨-, -, h⟩ := bind_ok.mp h
  obtain ⟨-, -, h⟩ := bind_ok.mp h
  exact (Except.ok.inj h).symm

/-- The address is `0x` followed by 40 hex digits, in any letter case. -/
def WellFormed (a : Address) : Prop :=
  ∃ s, a.value = hexMark ++ s ∧ s.length = 40 ∧ ∀ c ∈ s, c ∈ Bytes.hexDigits

/-- A check of the characters. -/
theorem wellFormed_of_digits {a : Address}
    (h : hexMark <+: a.value ∧ a.value.length = 42 ∧
      (a.value.drop 2).all (· ∈ Bytes.hexDigits) = true) :
    a.WellFormed := by
  obtain ⟨⟨s, hs⟩, hlen, hdigits⟩ := h
  refine ⟨s, hs.symm, ?_, ?_⟩
  · rw [← hs, List.length_append] at hlen
    exact Nat.add_left_cancel hlen
  · rw [← hs] at hdigits
    exact List.all_iff_forall_prop.mp hdigits

/-- The number a well-formed address denotes. -/
def toNat (a : Address) : Nat := Bytes.hexValue (a.value.drop 2)

/-- `Address(_: BigUInt)` of the contract proxies, on the bytes it is built from. -/
def ofData (d : Data) : Address := ⟨hexMark ++ Bytes.toHex d⟩

theorem WellFormed.toNat_eq {a : Address} {s : Str} (ha : a.value = hexMark ++ s) :
    a.toNat = Bytes.hexValue s := by
  rw [toNat, ha]
  rfl

theorem WellFormed.toNat_lt {a : Address} (h : a.WellFormed) : a.toNat < 2 ^ 160 := by
  obtain ⟨s, ha, hlen, -⟩ := h
  rw [WellFormed.toNat_eq ha]
  calc Bytes.hexValue s < 16 ^ s.length := Bytes.hexValue_lt s
    _ = 2 ^ 160 := by rw [hlen]; norm_num

theorem normalized_value {a : Address} {s : Str} (ha : a.value = hexMark ++ s) :
    a.normalized.value = hexMark ++ lowercased s := by
  simp only [normalized, lowercased, ha, List.map_append]
  rfl

theorem WellFormed.normalized {a : Address} (h : a.WellFormed) : a.normalized.WellFormed := by
  obtain ⟨s, ha, hlen, hs⟩ := h
  refine ⟨lowercased s, normalized_value ha, by simpa [lowercased] using hlen, ?_⟩
  intro c hc
  obtain ⟨d, hd, rfl⟩ := List.mem_map.mp hc
  exact Bytes.lowerHex_subset_hexDigits _ (Bytes.toLower_mem_lowerHex d (hs d hd))

/-- Normalising keeps the number. -/
theorem WellFormed.toNat_normalized {a : Address} (h : a.WellFormed) :
    a.normalized.toNat = a.toNat := by
  obtain ⟨s, ha, -, hs⟩ := h
  rw [WellFormed.toNat_eq (normalized_value ha), WellFormed.toNat_eq ha]
  exact Bytes.hexValue_map_toLower hs

/-- Well-formed addresses have one normal form exactly when they are one number. -/
theorem normalized_eq_iff {a b : Address} (ha : a.WellFormed) (hb : b.WellFormed) :
    a.normalized = b.normalized ↔ a.toNat = b.toNat := by
  constructor
  · intro h
    rw [← ha.toNat_normalized, h, hb.toNat_normalized]
  · intro h
    obtain ⟨s, hs, hslen, hsd⟩ := ha
    obtain ⟨t, ht, htlen, htd⟩ := hb
    rw [WellFormed.toNat_eq hs, WellFormed.toNat_eq ht] at h
    have hlow : ∀ {u : Str}, (∀ c ∈ u, c ∈ Bytes.hexDigits) →
        ∀ c ∈ lowercased u, c ∈ Bytes.lowerHex := by
      intro u hu c hc
      obtain ⟨d, hd, rfl⟩ := List.mem_map.mp hc
      exact Bytes.toLower_mem_lowerHex d (hu d hd)
    have hst : lowercased s = lowercased t := by
      refine Bytes.hexValue_inj (hlow hsd) (hlow htd) (by simp [lowercased, hslen, htlen]) ?_
      rw [lowercased, lowercased, Bytes.hexValue_map_toLower hsd, Bytes.hexValue_map_toLower htd, h]
    have hval : a.normalized.value = b.normalized.value := by
      rw [normalized_value hs, normalized_value ht, hst]
    cases hna : a.normalized
    cases hnb : b.normalized
    rw [hna, hnb] at hval
    exact congrArg Address.mk hval

/-- The bytes of a well-formed address. -/
theorem WellFormed.toNat_dataEthHex {a : Address} (h : a.WellFormed) (lib : ThirdParty) :
    Bytes.toNat (lib.dataEthHex a.value) = a.toNat := by
  obtain ⟨s, ha, -, hs⟩ := h
  rw [WellFormed.toNat_eq ha, ha, lib.dataEthHex_mark, lib.toNat_dataEthHex hs]

/-- A well-formed address passes the checks of `init(_:)`. -/
theorem WellFormed.ofString_eq {a : Address} (h : a.WellFormed) (lib : ThirdParty) :
    ofString lib a.value = .ok a := by
  obtain ⟨s, ha, hlen, hs⟩ := h
  have hdata : (lib.dataEthHex a.value).length = 20 := by
    rw [ha, lib.dataEthHex_mark, lib.length_dataEthHex hs, hlen]
  have hmark : hexMark <+: a.value := ha ▸ List.prefix_append _ _
  simp [ofString, precondition, hdata, hmark, bind, Except.bind, pure, Except.pure]

/-- Addresses built from 20 bytes are well formed and denote the bytes' value. -/
theorem wellFormed_ofData {d : Data} (h : d.length = 20) : (ofData d).WellFormed :=
  ⟨Bytes.toHex d, rfl, by rw [Bytes.length_toHex, h],
    fun c hc => Bytes.lowerHex_subset_hexDigits c (Bytes.mem_lowerHex_of_mem_toHex c hc)⟩

theorem toNat_ofData (d : Data) : (ofData d).toNat = Bytes.toNat d := by
  rw [WellFormed.toNat_eq (rfl : (ofData d).value = hexMark ++ Bytes.toHex d), Bytes.hexValue_toHex]

end Address

end MultisigWallet
