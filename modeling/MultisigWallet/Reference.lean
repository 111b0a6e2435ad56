import MultisigWallet.Lib.Keccak
import MultisigWallet.Lib.Secp256k1
import MultisigWallet.ThirdParty

/-!
# MultisigWallet.Reference

A `ThirdParty` that computes what the packages compute: Keccak-256, ECDSA on secp256k1
and the parsers. It shows that the promises of the structure can be kept together, and
the concrete runs of this development are evaluated with it. Only `sign` differs from the
package, in its choice of the nonce; its signatures are valid ones.
-/

namespace MultisigWallet

namespace Reference

/-! ### Strings and numbers -/

def isHex (c : Char) : Bool := decide (c ∈ Bytes.hexDigits)

/-- CryptoSwift's `Data(hex:)`: one mark is skipped, a lone last digit makes a byte, and a
character that is no digit empties the result. -/
def dataHex (s : Str) : Data :=
  let digits := if hexMark <+: s then s.drop 2 else s
  if digits.all isHex then
    if digits.length % 2 = 0 then Bytes.ofHex digits
    else Bytes.ofHex digits.dropLast ++ [UInt8.ofNat (Bytes.hexVal (digits.getLastD '0'))]
  else []

/-- `BigUInt(_:radix:)` for the two radices in use. No digits at all denote zero. -/
def magnitude (s : Str) (radix : Nat) : Option Nat :=
  if radix = 16 ∧ s.all isHex then some (Bytes.hexValue s)
  else if radix = 10 ∧ s.all Char.isDigit then some (Nat.ofDigitChars 10 s 0)
  else none

def bigInt (s : Str) (radix : Nat) : Option Int :=
  match s with
  | '-' :: digits => (magnitude digits radix).map fun m => -(m : Int)
  | '+' :: digits => (magnitude digits radix).map fun m => (m : Int)
  | digits => (magnitude digits radix).map fun m => (m : Int)

/-- The check sum of a digit: its letter case follows a digit of the hash. -/
def checksum (c h : Char) : Char := if 8 ≤ Bytes.hexVal h then c.toUpper else c

def eip55 (d : Data) : Str :=
  let digits := Bytes.toHex d
  List.zipWith checksum digits
    (Bytes.toHex (Keccak.keccak256 (digits.map fun c => UInt8.ofNat c.toNat)))

/-! ### Signatures -/

def calculateSignature (r s v : Int) : Data :=
  Bytes.ofNat 32 r.toNat ++ Bytes.ofNat 32 s.toNat ++ [UInt8.ofNat (v - 27).toNat]

def calculateRSV (signature : Data) : Int × Int × Int :=
  (Bytes.toNat (signature.take 32), Bytes.toNat ((signature.drop 32).take 32),
    Bytes.toNat (signature.drop 64) + 27)

def publicKey (signature hash : Data) : Option Data :=
  match Secp256k1.recover (Bytes.toNat hash) (Bytes.toNat (signature.take 32))
      (Bytes.toNat ((signature.drop 32).take 32)) (Bytes.toNat (signature.drop 64)) with
  | some (x, y) => some (0x04 :: (Bytes.ofNat 32 x ++ Bytes.ofNat 32 y))
  | none => none

def createAddress (publicKey : Data) : Str :=
  hexMark ++ eip55 ((Keccak.keccak256 (publicKey.drop 1)).drop 12)

def sign (hash privateKey : Data) : Option Data :=
  match Secp256k1.sign (Bytes.toNat hash) (Bytes.toNat privateKey)
      (Bytes.toNat (Keccak.keccak256 (privateKey ++ hash)) % Secp256k1.n) with
  | some (r, s, v) => some (Bytes.ofNat 32 r ++ Bytes.ofNat 32 s ++ [UInt8.ofNat v])
  | none => none

/-! ### The promises -/

theorem not_hexMark_of_digits {s : Str} (hs : ∀ c ∈ s, c ∈ Bytes.hexDigits) : ¬ hexMark <+: s := by
  rintro ⟨t, rfl⟩
  exact absurd (hs 'x' (by simp [hexMark])) (by decide)

theorem all_isHex {s : Str} (hs : ∀ c ∈ s, c ∈ Bytes.hexDigits) : s.all isHex = true := by
  rw [List.all_eq_true]
  intro c hc
  exact decide_eq_true (hs c hc)

theorem dataHex_digits (s : Str) (hs : ∀ c ∈ s, c ∈ Bytes.hexDigits) (hlen : s.length % 2 = 0) :
    dataHex s = Bytes.ofHex s := by
  simp only [dataHex, if_neg (not_hexMark_of_digits hs), all_isHex hs, if_true, if_pos hlen]

/-- Without a sign in front, a number is its magnitude. -/
theorem bigInt_unsigned {s : Str} {radix : Nat} (hs : ∀ c ∈ s.head?, c ≠ '-' ∧ c ≠ '+') :
    bigInt s radix = (magnitude s radix).map fun m => (m : Int) := by
  unfold bigInt
  split
  · exact absurd rfl (hs '-' rfl).1
  · exact absurd rfl (hs '+' rfl).2
  · rfl

theorem bigInt_hex (s : Str) (hs : ∀ c ∈ s, c ∈ Bytes.hexDigits) :
    bigInt s 16 = some (Bytes.hexValue s : Int) := by
  have hhead : ∀ c ∈ s.head?, c ≠ '-' ∧ c ≠ '+' := by
    intro c hc
    have hmem := hs c (List.mem_of_mem_head? hc)
    constructor <;> (rintro rfl; revert hmem; decide)
  rw [bigInt_unsigned hhead, magnitude, if_pos ⟨rfl, all_isHex hs⟩]
  rfl

theorem isDigit_toDigits {m : Nat} : ∀ c ∈ Nat.toDigits 10 m, c.isDigit = true := fun _ hc =>
  Nat.isDigit_of_mem_toDigits (by norm_num) (by norm_num) hc

theorem magnitude_decimal (m : Nat) : magnitude (Nat.toDigits 10 m) 10 = some m := by
  have hall : (Nat.toDigits 10 m).all Char.isDigit = true := List.all_eq_true.mpr isDigit_toDigits
  rw [magnitude, if_neg (by simp), if_pos ⟨rfl, hall⟩, Nat.ofDigitChars_ten_toDigits]

theorem bigInt_decimal (m : Nat) : bigInt (Nat.toDigits 10 m) 10 = some (m : Int) := by
  have hhead : ∀ c ∈ (Nat.toDigits 10 m).head?, c ≠ '-' ∧ c ≠ '+' := by
    intro c hc
    have hdigit := isDigit_toDigits c (List.mem_of_mem_head? hc)
    constructor <;> (rintro rfl; revert hdigit; decide)
  rw [bigInt_unsigned hhead, magnitude_decimal]
  rfl

theorem bigInt_negative (m : Nat) : bigInt ('-' :: Nat.toDigits 10 m) 10 = some (-m : Int) := by
  rw [bigInt, magnitude_decimal]
  rfl

theorem checksum_digit (c h : Char) (hc : c ∈ Bytes.lowerHex) :
    (checksum c h).toLower = c ∧ checksum c h ∈ Bytes.hexDigits := by
  have hboth : ∀ c ∈ Bytes.lowerHex, c.toUpper.toLower = c ∧ c.toUpper ∈ Bytes.hexDigits ∧
      c.toLower = c ∧ c ∈ Bytes.hexDigits :=
    List.all_iff_forall_prop.mp (by decide)
  obtain ⟨hlow, hmem, hid, hin⟩ := hboth c hc
  unfold checksum
  split
  · exact ⟨hlow, hmem⟩
  · exact ⟨hid, hin⟩

theorem zipWith_checksum {s t : Str} (hs : ∀ c ∈ s, c ∈ Bytes.lowerHex)
    (hlen : s.length ≤ t.length) :
    lowercased (List.zipWith checksum s t) = s ∧
      ∀ c ∈ List.zipWith checksum s t, c ∈ Bytes.hexDigits := by
  induction s generalizing t with
  | nil => exact ⟨rfl, fun c hc => absurd hc List.not_mem_nil⟩
  | cons a s ih =>
      cases t with
      | nil => simp at hlen
      | cons b t =>
          obtain ⟨hlow, hmem⟩ := checksum_digit a b (hs a List.mem_cons_self)
          obtain ⟨ihlow, ihmem⟩ := ih (t := t) (fun c hc => hs c (List.mem_cons_of_mem a hc))
            (Nat.le_of_succ_le_succ hlen)
          constructor
          · show (checksum a b).toLower :: lowercased (List.zipWith checksum s t) = a :: s
            rw [hlow, ihlow]
          · intro c hc
            rcases List.mem_cons.mp hc with rfl | hc
            · exact hmem
            · exact ihmem c hc

theorem eip55_digits (d : Data) (hd : d.length = 20) :
    lowercased (eip55 d) = Bytes.toHex d ∧ ∀ c ∈ eip55 d, c ∈ Bytes.hexDigits := by
  refine zipWith_checksum Bytes.mem_lowerHex_of_mem_toHex ?_
  rw [Bytes.length_toHex, Bytes.length_toHex, hd, Keccak.length_keccak256]
  decide

theorem length_eip55 (d : Data) (hd : d.length = 20) : (eip55 d).length = 40 := by
  have h := congrArg List.length (eip55_digits d hd).1
  rwa [lowercased, List.length_map, Bytes.length_toHex, hd] at h

end Reference

open Reference in
/-- The packages, as far as a concrete run needs them. -/
def reference : ThirdParty where
  hashSHA3_256 := Keccak.keccak256
  dataHex := Reference.dataHex
  bigInt := Reference.bigInt
  bigUInt := fun s => magnitude s 10
  bInt := fun s => Reference.bigInt s 10
  stripHexPrefix := fun s => if hexMark <+: s then s.drop 2 else s
  addHexPrefix := fun s => hexMark ++ s
  eip55 := Reference.eip55
  calculateSignature := Reference.calculateSignature
  calculateRSV := Reference.calculateRSV
  publicKey := Reference.publicKey
  createAddress := Reference.createAddress
  addressString := fun d => hexMark ++ Reference.eip55 d
  sign := Reference.sign
  length_hash := Keccak.length_keccak256
  dataHex_digits := Reference.dataHex_digits
  bigInt_hex := fun s _ hs => Reference.bigInt_hex s hs
  bigInt_decimal := Reference.bigInt_decimal
  bigInt_negative := Reference.bigInt_negative
  stripHexPrefix_mark := fun s => by rw [if_pos (List.prefix_append hexMark s)]; rfl
  stripHexPrefix_noMark := fun s hs => if_neg hs
  addHexPrefix_digits := fun _ _ => rfl
  eip55_digits := Reference.eip55_digits
  addressString_digits := fun d hd => ⟨_, rfl, Reference.eip55_digits d hd⟩
  createAddress_digits := fun k => by
    have hlen : ((Keccak.keccak256 (k.drop 1)).drop 12).length = 20 := by
      rw [List.length_drop, Keccak.length_keccak256]
    exact ⟨_, rfl, length_eip55 _ hlen, (Reference.eip55_digits _ hlen).2⟩
  selector_transfer := by decide +kernel
  selector_swapOwner := by decide +kernel
  selector_addOwnerWithThreshold := by decide +kernel
  selector_removeOwner := by decide +kernel
  selector_multiSend := by decide +kernel

theorem reference_documented : reference.Documented where
  dataHex_mark s hs hlen := by
    have hdigits : (if hexMark <+: hexMark ++ s then (hexMark ++ s).drop 2 else hexMark ++ s) = s :=
      if_pos (List.prefix_append hexMark s)
    show Reference.dataHex (hexMark ++ s) = Bytes.ofHex s
    simp only [Reference.dataHex, hdigits, Reference.all_isHex hs, if_true, if_pos hlen]
  dataHex_noDigit s hs hmark := by
    obtain ⟨c, hc, hdigit⟩ := hs
    have hall : ¬ s.all Reference.isHex = true := by
      rw [List.all_eq_true]
      intro hall
      exact hdigit (of_decide_eq_true (hall c hc))
    show Reference.dataHex s = []
    simp only [Reference.dataHex, if_neg hmark, if_neg hall]
  bigUInt_decimal := Reference.magnitude_decimal

end MultisigWallet
