import MultisigWallet.ContractProxySound
import MultisigWallet.Encryption
import MultisigWallet.Reference
import Mathlib.Data.List.Dedup
import Mathlib.Data.Set.Function

/-!
# MultisigWallet.EncryptionSound

The EIP-712 pre-image determines the transaction. `Preimage` is what a signature is meant
to cover, as numbers; `Describes` relates a transaction to it and says that every number
fits its word. Each serialiser then writes exactly one word, so the pre-image is a
sequence of blocks of known length and can be taken apart again.
-/

namespace MultisigWallet

/-- What the hash of a transaction covers. -/
structure Preimage where
  sender : Nat
  ethTo : Nat
  ethValue : Nat
  data : Data
  operation : WalletOperation
  gas : Nat
  dataGas : Nat
  gasPrice : Nat
  gasToken : Nat
  nonce : Nat
  deriving DecidableEq

namespace Preimage

/-- `tx` has a value in every field that is hashed, its addresses are `0x` and 40 hex
digits, its numbers are not negative and fit 256 bits, and `p` lists them. -/
structure Describes (lib : ThirdParty) (p : Preimage) (tx : Transaction) : Prop where
  sender : ∃ a, tx.sender = some a ∧ a.WellFormed ∧ a.toNat = p.sender
  ethTo : tx.ethTo.WellFormed ∧ tx.ethTo.toNat = p.ethTo
  ethValue : tx.ethValue = p.ethValue ∧ p.ethValue < 2 ^ 256
  data : tx.data.getD [] = p.data
  operation : tx.operation = some p.operation
  estimate : ∃ e, tx.feeEstimate = some e ∧ e.gas = p.gas ∧ e.dataGas = p.dataGas ∧
    e.gasPrice.amount = p.gasPrice ∧ e.gasPrice.token.address.WellFormed ∧
    e.gasPrice.token.address.toNat = p.gasToken
  gas_lt : p.gas < 2 ^ 256 ∧ p.dataGas < 2 ^ 256 ∧ p.gasPrice < 2 ^ 256
  nonce : ∃ s, tx.nonce = some s ∧ lib.bigInt s 10 = some (p.nonce : Int)
  nonce_lt : p.nonce < 2 ^ 256

/-- The words of the value part, the type hash and the hash of the data in front. -/
def words (p : Preimage) : List Nat :=
  [p.operation.rawValue.toNat, p.gas, p.dataGas, p.gasPrice, p.gasToken, 0, p.nonce]

end Preimage

namespace EncryptionService

variable (lib : ThirdParty)

/-- Formatting a well-formed address keeps it the same address. -/
theorem address_wellFormed {a : Address} (h : a.WellFormed) :
    ∃ a', address lib a.value = some a' ∧ a'.WellFormed ∧ a'.toNat = a.toNat := by
  obtain ⟨s, ha, hlen, hs⟩ := h
  have hne : a.value.isEmpty = false := by
    rw [ha]
    rfl
  have hdata : (lib.dataEthHex a.value).length = 20 := by
    rw [ha, lib.dataEthHex_mark, lib.length_dataEthHex hs, hlen]
  obtain ⟨hlow, hdigits⟩ := lib.eip55_digits _ hdata
  have hvalue : lib.addHexPrefix (lib.eip55 (lib.dataEthHex a.value)) =
      hexMark ++ lib.eip55 (lib.dataEthHex a.value) := lib.addHexPrefix_digits _ hdigits
  refine ⟨⟨hexMark ++ lib.eip55 (lib.dataEthHex a.value)⟩, ?_, ⟨_, rfl, ?_, hdigits⟩, ?_⟩
  · simp only [address, hne, hdata, hvalue, Bool.false_eq_true, if_false, if_true]
  · have hcount := congrArg List.length hlow
    rwa [lowercased, List.length_map, Bytes.length_toHex, hdata] at hcount
  · show Bytes.hexValue (lib.eip55 (lib.dataEthHex a.value)) = _
    rw [← Bytes.hexValue_map_toLower hdigits]
    show Bytes.hexValue (lowercased _) = _
    rw [hlow, Bytes.hexValue_toHex, Address.WellFormed.toNat_dataEthHex ⟨s, ha, hlen, hs⟩]

/-! ### One word each -/

theorem dataOfInt_eq {n : Nat} (hn : n < 2 ^ 256) : dataOfInt lib n = Abi.word n := by
  have hdigits : ∀ c ∈ Nat.toDigits 16 n, c ∈ Bytes.hexDigits := fun c hc =>
    Bytes.lowerHex_subset_hexDigits c (Bytes.mem_lowerHex_of_mem_toDigits c hc)
  have hhex : hexDigitsOfInt n = Nat.toDigits 16 n := by
    rw [hexDigitsOfInt, if_neg (by omega), Int.natAbs_natCast]
  have hn' : n < 256 ^ 32 := lt_of_lt_of_eq hn (by norm_num)
  rw [dataOfInt, hhex, lib.addHexPrefix_digits _ hdigits, lib.dataEthHex_mark,
    (lib.dataEthHex_toDigits (by norm_num) hn').1]
  rfl

theorem dataOfAddress_eq {a : Address} (h : a.WellFormed) :
    dataOfAddress lib a = .ok (Abi.word a.toNat) := by
  obtain ⟨s, ha, hlen, hs⟩ := h
  have hne : s ≠ [] := by
    rintro rfl
    simp at hlen
  have hvalue : lib.bigInt (lib.stripHexPrefix a.value) 16 = some (a.toNat : Int) := by
    rw [ha, lib.stripHexPrefix_mark, lib.bigInt_hex s hne hs, Address.WellFormed.toNat_eq ha]
  have hlt : a.toNat < 2 ^ 256 :=
    (Address.WellFormed.toNat_lt ⟨s, ha, hlen, hs⟩).trans (by decide)
  rw [dataOfAddress, hvalue, ← dataOfInt_eq lib hlt]
  rfl

theorem dataOfInt_rawValue (o : WalletOperation) :
    dataOfInt lib o.rawValue = Abi.word o.rawValue.toNat := by
  have h : ∀ o : WalletOperation, o.rawValue = (o.rawValue.toNat : Int) ∧
      o.rawValue.toNat < 2 ^ 256 := by
    intro o
    cases o <;> decide
  rw [(h o).1, dataOfInt_eq lib (h o).2]
  rfl

/-! ### Both parts of the pre-image -/

variable (metadata : SafeContractMetadata) (wallets : List Wallet)

theorem length_txTypeHash (tx : Transaction) : (txTypeHash metadata wallets tx).length = 32 := by
  unfold txTypeHash
  cases (masterCopy wallets tx).bind metadata.find with
  | none => rfl
  | some c => exact c.length_txTypeHash

theorem length_domainSeparatorTypeHash (tx : Transaction) :
    (domainSeparatorTypeHash metadata wallets tx).length = 32 := by
  unfold domainSeparatorTypeHash
  cases (masterCopy wallets tx).bind metadata.find with
  | none => rfl
  | some c => exact c.length_domainSeparatorHash

variable {lib} {tx : Transaction} {p : Preimage}

theorem domainData_eq (h : p.Describes lib tx) :
    domainData lib metadata wallets tx =
      .ok (domainSeparatorTypeHash metadata wallets tx ++ Abi.word p.sender) := by
  obtain ⟨a, hsender, ha, hnat⟩ := h.sender
  rw [domainData, hsender, ← hnat]
  simp only [unwrap_some, dataOfAddress_eq lib ha, bind, Except.bind, pure, Except.pure]

theorem valueData_eq (h : p.Describes lib tx) :
    valueData lib metadata wallets tx =
      .ok (txTypeHash metadata wallets tx ++ Abi.word p.ethTo ++ Abi.word p.ethValue ++
        lib.hashSHA3_256 p.data ++ Abi.words p.words) := by
  obtain ⟨e, hestimate, hgas, hdataGas, hprice, htoken, htokenNat⟩ := h.estimate
  obtain ⟨s, hnonce, hvalue⟩ := h.nonce
  obtain ⟨hgasLt, hdataGasLt, hpriceLt⟩ := h.gas_lt
  have hzero : dataOfInt lib 0 = Abi.word 0 := dataOfInt_eq lib (n := 0) (by decide)
  rw [valueData, dataOfAddress_eq lib h.ethTo.1, h.operation, hestimate, hnonce]
  simp only [unwrap_some, bind, Except.bind, pure, Except.pure, dataOfAddress_eq lib htoken, hvalue,
    h.ethTo.2, h.ethValue.1, dataOfInt_eq lib h.ethValue.2, h.data, dataOfInt_rawValue, hgas,
    dataOfInt_eq lib hgasLt, hdataGas, dataOfInt_eq lib hdataGasLt, hprice,
    dataOfInt_eq lib hpriceLt, htokenNat, hzero, dataOfInt_eq lib h.nonce_lt]
  simp only [Preimage.words, Abi.words_cons, Abi.words_nil, List.append_assoc, List.append_nil]

theorem hashData_eq (h : p.Describes lib tx) :
    ∃ d v, domainData lib metadata wallets tx = .ok d ∧ valueData lib metadata wallets tx = .ok v ∧
      hashData lib metadata wallets tx =
        .ok ([0x19, 0x01] ++ lib.hashSHA3_256 d ++ lib.hashSHA3_256 v) := by
  refine ⟨_, _, domainData_eq metadata wallets h, valueData_eq metadata wallets h, ?_⟩
  rw [hashData, domainData_eq metadata wallets h, valueData_eq metadata wallets h]
  rfl

/-- The value part has eleven words, the domain part two. -/
theorem length_parts (h : p.Describes lib tx) :
    ∃ d v, domainData lib metadata wallets tx = .ok d ∧ d.length = 2 * 32 ∧
      valueData lib metadata wallets tx = .ok v ∧ v.length = 11 * 32 := by
  refine ⟨_, _, domainData_eq metadata wallets h, ?_, valueData_eq metadata wallets h, ?_⟩
  · rw [List.length_append, length_domainSeparatorTypeHash, Abi.length_word]
  · simp only [List.length_append, length_txTypeHash, Abi.length_word, lib.length_hash,
      Abi.length_words, Preimage.words, List.length_cons, List.length_nil]

/-! ### When there is a hash -/

/-- What the pre-image of a transaction is made of can be read. -/
structure Hashable (lib : ThirdParty) (tx : Transaction) : Prop where
  sender : ∃ a data, tx.sender = some a ∧ dataOfAddress lib a = .ok data
  ethTo : ∃ data, dataOfAddress lib tx.ethTo = .ok data
  operation : ∃ operation, tx.operation = some operation
  gasToken : ∃ e data, tx.feeEstimate = some e ∧
    dataOfAddress lib e.gasPrice.token.address = .ok data
  nonce : ∃ s n, tx.nonce = some s ∧ lib.bigInt s 10 = some n

theorem hash_isOk :
    (∃ digest, hash lib metadata wallets tx = .ok digest) ↔ Hashable lib tx := by
  constructor
  · intro h
    obtain ⟨digest, h⟩ := h
    obtain ⟨_, h, -⟩ := bind_ok.mp h
    obtain ⟨_, hdomain, h⟩ := bind_ok.mp h
    obtain ⟨_, hvalue, -⟩ := bind_ok.mp h
    obtain ⟨sender, hsender, hdomain⟩ := bind_ok.mp hdomain
    obtain ⟨senderData, hsenderData, -⟩ := bind_ok.mp hdomain
    obtain ⟨toData, hto, hvalue⟩ := bind_ok.mp hvalue
    obtain ⟨operation, hoperation, hvalue⟩ := bind_ok.mp hvalue
    obtain ⟨e, he, hvalue⟩ := bind_ok.mp hvalue
    obtain ⟨gasToken, hgasToken, hvalue⟩ := bind_ok.mp hvalue
    obtain ⟨s, hs, hvalue⟩ := bind_ok.mp hvalue
    obtain ⟨n, hn, -⟩ := bind_ok.mp hvalue
    exact ⟨⟨sender, senderData, unwrap_ok.mp hsender, hsenderData⟩, ⟨toData, hto⟩,
      ⟨operation, unwrap_ok.mp hoperation⟩, ⟨e, gasToken, unwrap_ok.mp he, hgasToken⟩,
      ⟨s, n, unwrap_ok.mp hs, unwrap_ok.mp hn⟩⟩
  · intro h
    obtain ⟨sender, senderData, hsender, hsenderData⟩ := h.sender
    obtain ⟨toData, hto⟩ := h.ethTo
    obtain ⟨operation, hoperation⟩ := h.operation
    obtain ⟨e, gasToken, he, hgasToken⟩ := h.gasToken
    obtain ⟨s, n, hs, hn⟩ := h.nonce
    refine ⟨_, bind_ok.mpr ⟨_, bind_ok.mpr ⟨_, bind_ok.mpr ⟨sender, unwrap_ok.mpr hsender,
      bind_ok.mpr ⟨senderData, hsenderData, rfl⟩⟩, bind_ok.mpr ⟨_, bind_ok.mpr ⟨toData, hto,
      bind_ok.mpr ⟨operation, unwrap_ok.mpr hoperation, bind_ok.mpr ⟨e, unwrap_ok.mpr he,
      bind_ok.mpr ⟨gasToken, hgasToken, bind_ok.mpr ⟨s, unwrap_ok.mpr hs,
      bind_ok.mpr ⟨n, unwrap_ok.mpr hn, rfl⟩⟩⟩⟩⟩⟩, rfl⟩⟩, rfl⟩⟩

theorem ethTo_congr {tx' : Transaction} (hamount : tx'.amount = tx.amount)
    (hrecipient : tx'.recipient = tx.recipient) : tx'.ethTo = tx.ethTo := by
  unfold Transaction.ethTo Transaction.isERC20Transfer
  rw [hamount, hrecipient]

/-- The hash of a transaction does not read its status, hash or signatures. -/
theorem Hashable.congr {tx' : Transaction} (h : Hashable lib tx) (hsender : tx'.sender = tx.sender)
    (hamount : tx'.amount = tx.amount) (hrecipient : tx'.recipient = tx.recipient)
    (hoperation : tx'.operation = tx.operation) (hestimate : tx'.feeEstimate = tx.feeEstimate)
    (hnonce : tx'.nonce = tx.nonce) : Hashable lib tx' where
  sender := hsender ▸ h.sender
  ethTo := ethTo_congr hamount hrecipient ▸ h.ethTo
  operation := hoperation ▸ h.operation
  gasToken := hestimate ▸ h.gasToken
  nonce := hnonce ▸ h.nonce

theorem sign_ok {key signature : Data} :
    sign lib metadata wallets tx key = .ok signature ↔
      ∃ digest, hash lib metadata wallets tx = .ok digest ∧
        lib.sign digest key = some signature := by
  unfold sign
  refine bind_ok.trans (exists_congr fun digest => and_congr_right fun _ => ?_)
  cases lib.sign digest key with
  | none => simp
  | some d => simp [pure, Except.pure]

/-! ### Injectivity -/

/-- The strings that are hashed on the way to the pre-image of `tx`. -/
def hashedStrings (lib : ThirdParty) (metadata : SafeContractMetadata) (wallets : List Wallet)
    (tx : Transaction) : Set Data :=
  fun x => domainData lib metadata wallets tx = .ok x ∨ valueData lib metadata wallets tx = .ok x ∨
    x = tx.data.getD []

theorem words_lt (h : p.Describes lib tx) : ∀ n ∈ p.words, n < 2 ^ 256 := by
  obtain ⟨e, -, -, -, -, htoken, htokenNat⟩ := h.estimate
  have hoperation : p.operation.rawValue.toNat < 2 ^ 256 := by
    cases p.operation <;> decide
  have hgasToken : p.gasToken < 2 ^ 256 := htokenNat ▸ htoken.toNat_lt.trans (by decide)
  intro n hn
  simp only [Preimage.words, List.mem_cons, List.not_mem_nil, or_false] at hn
  rcases hn with rfl | rfl | rfl | rfl | rfl | rfl | rfl
  · exact hoperation
  · exact h.gas_lt.1
  · exact h.gas_lt.2.1
  · exact h.gas_lt.2.2
  · exact hgasToken
  · decide
  · exact h.nonce_lt

theorem rawValue_toNat_inj {o o' : WalletOperation} (h : o.rawValue.toNat = o'.rawValue.toNat) :
    o = o' := by
  revert h
  cases o <;> cases o' <;> decide

variable {t₁ t₂ : Transaction} {p₁ p₂ : Preimage}

/-- Equal domain parts have equal senders. -/
theorem sender_eq_of_domainData (h₁ : p₁.Describes lib t₁) (h₂ : p₂.Describes lib t₂)
    (h : domainData lib metadata wallets t₁ = domainData lib metadata wallets t₂) :
    p₁.sender = p₂.sender := by
  obtain ⟨a, -, ha, hanat⟩ := h₁.sender
  obtain ⟨b, -, hb, hbnat⟩ := h₂.sender
  rw [domainData_eq metadata wallets h₁, domainData_eq metadata wallets h₂] at h
  have hword := (List.append_inj' (Except.ok.inj h) (by simp only [Abi.length_word])).2
  exact Abi.word_inj (hanat ▸ ha.toNat_lt.trans (by decide)) (hbnat ▸ hb.toNat_lt.trans (by decide))
    hword

/-- Equal value parts have equal words and equal hashes of the data. -/
theorem words_eq_of_valueData (h₁ : p₁.Describes lib t₁) (h₂ : p₂.Describes lib t₂)
    (h : valueData lib metadata wallets t₁ = valueData lib metadata wallets t₂) :
    p₁.ethTo = p₂.ethTo ∧ p₁.ethValue = p₂.ethValue ∧
      lib.hashSHA3_256 p₁.data = lib.hashSHA3_256 p₂.data ∧ p₁.words = p₂.words := by
  have hto₁ : p₁.ethTo < 2 ^ 256 := h₁.ethTo.2 ▸ h₁.ethTo.1.toNat_lt.trans (by decide)
  have hto₂ : p₂.ethTo < 2 ^ 256 := h₂.ethTo.2 ▸ h₂.ethTo.1.toNat_lt.trans (by decide)
  rw [valueData_eq metadata wallets h₁, valueData_eq metadata wallets h₂] at h
  -- peel the blocks off from the right; all of them have a fixed length
  obtain ⟨h, hwords⟩ := List.append_inj' (Except.ok.inj h) (by simp only [Abi.length_words]; rfl)
  obtain ⟨h, hdata⟩ := List.append_inj' h (by simp only [lib.length_hash])
  obtain ⟨h, hvalue⟩ := List.append_inj' h (by simp only [Abi.length_word])
  obtain ⟨-, hto⟩ := List.append_inj' h (by simp only [Abi.length_word])
  exact ⟨Abi.word_inj hto₁ hto₂ hto, Abi.word_inj h₁.ethValue.2 h₂.ethValue.2 hvalue, hdata,
    Abi.words_inj rfl (words_lt h₁) (words_lt h₂) hwords⟩

/-- Two transactions with equal pre-images are one transaction as far as a signature covers
it, provided the hash function has no collision among the strings hashed for the two; and
the parts of a pre-image have a fixed length. The type hashes come first in their parts, so
nothing depends on the wallets having one master copy. -/
theorem hashData_injective (h₁ : p₁.Describes lib t₁) (h₂ : p₂.Describes lib t₂) :
    (Set.InjOn lib.hashSHA3_256
        (hashedStrings lib metadata wallets t₁ ∪ hashedStrings lib metadata wallets t₂) →
      hashData lib metadata wallets t₁ = hashData lib metadata wallets t₂ → p₁ = p₂) ∧
      ∀ tx ∈ [t₁, t₂], ∃ d v, domainData lib metadata wallets tx = .ok d ∧ d.length = 2 * 32 ∧
        valueData lib metadata wallets tx = .ok v ∧ v.length = 11 * 32 := by
  constructor
  · intro hinj h
    obtain ⟨d₁, v₁, hd₁, hv₁, hh₁⟩ := hashData_eq metadata wallets h₁
    obtain ⟨d₂, v₂, hd₂, hv₂, hh₂⟩ := hashData_eq metadata wallets h₂
    rw [hh₁, hh₂] at h
    obtain ⟨h, hvhash⟩ := List.append_inj' (Except.ok.inj h) (by simp only [lib.length_hash])
    have hdhash := (List.append_inj' h (by simp only [lib.length_hash])).2
    have hd : d₁ = d₂ := hinj (.inl (.inl hd₁)) (.inr (.inl hd₂)) hdhash
    have hv : v₁ = v₂ := hinj (.inl (.inr (.inl hv₁))) (.inr (.inr (.inl hv₂))) hvhash
    have hsender := sender_eq_of_domainData metadata wallets h₁ h₂ (by rw [hd₁, hd₂, hd])
    obtain ⟨hto, hvalue, hdata, hwords⟩ :=
      words_eq_of_valueData metadata wallets h₁ h₂ (by rw [hv₁, hv₂, hv])
    have hdata : p₁.data = p₂.data :=
      hinj (.inl (.inr (.inr h₁.data.symm))) (.inr (.inr (.inr h₂.data.symm))) hdata
    simp only [Preimage.words, List.cons.injEq, and_true, true_and] at hwords
    obtain ⟨hoperation, hgas, hdataGas, hprice, htoken, hnonce⟩ := hwords
    have hoperation := rawValue_toNat_inj hoperation
    cases p₁
    cases p₂
    simp_all
  · intro tx htx
    rcases List.mem_cons.mp htx with rfl | htx
    · exact length_parts metadata wallets h₁
    · rw [List.mem_singleton.mp htx]
      exact length_parts metadata wallets h₂

/-! ### Two confirmation requests -/

def confirmationSender : Address := ⟨"0x092CC1854399ADc38Dad4f846E369C40D0a40307".toList⟩

def confirmationRecipient : Address := ⟨"0x8e6A5aDb2B88257A3DAc7A76A7B4EcaCdA090b66".toList⟩

/-- A request to confirm a payment, with the given nonce. -/
def confirmationRequest (nonce : Nat) : Transaction :=
  { id := [], type := .transfer, walletID := [], accountID := ⟨Token.Ether.id, []⟩
    sender := some confirmationSender
    recipient := some confirmationRecipient
    amount := some (.ether 1000123)
    operation := some .call
    feeEstimate := some ⟨21000, 0, 0, .ether 99123001⟩
    nonce := some (Nat.toDigits 10 nonce) }

def confirmationPreimage (nonce : Nat) : Preimage where
  sender := confirmationSender.toNat
  ethTo := confirmationRecipient.toNat
  ethValue := 1000123
  data := []
  operation := .call
  gas := 21000
  dataGas := 0
  gasPrice := 99123001
  gasToken := 0
  nonce := nonce

/-- No contract is known, so the default type hashes are used. -/
def noMetadata : SafeContractMetadata := ⟨Address.zero, Address.zero, Address.zero, []⟩

-- the first transaction of the fixture in EncryptionServiceTests
example : hash reference noMetadata [] (confirmationRequest 1) =
    .ok [0xdd, 0xb1, 0xea, 0xdb, 0xe8, 0xd0, 0x1c, 0xee, 0x43, 0xbc, 0x17, 0x56, 0xb1, 0x6f, 0x8c,
      0xfc, 0xd0, 0x4c, 0x45, 0x5f, 0xa1, 0xde, 0xc3, 0x29, 0x89, 0x0d, 0x39, 0xdd, 0x1f, 0x0c,
      0x63, 0xd9] := by
  decide +kernel

theorem describes_confirmationRequest {nonce : Nat} (hnonce : nonce < 2 ^ 256) :
    (confirmationPreimage nonce).Describes reference (confirmationRequest nonce) where
  sender := ⟨confirmationSender, rfl, Address.wellFormed_of_digits (by decide +kernel), rfl⟩
  ethTo := ⟨Address.wellFormed_of_digits (a := confirmationRecipient) (by decide +kernel), rfl⟩
  ethValue := ⟨rfl, show 1000123 < 2 ^ 256 by decide⟩
  data := rfl
  operation := rfl
  estimate := ⟨_, rfl, rfl, rfl, rfl, Address.wellFormed_of_digits (by decide +kernel),
    show Address.zero.toNat = 0 by decide +kernel⟩
  gas_lt := show 21000 < 2 ^ 256 ∧ 0 < 2 ^ 256 ∧ 99123001 < 2 ^ 256 by decide
  nonce := ⟨_, rfl, reference.bigInt_decimal nonce⟩
  nonce_lt := hnonce

/-- The strings hashed for a list of requests. -/
def confirmationStrings (nonces : List Nat) : List Data :=
  [] :: nonces.flatMap fun nonce =>
    (domainData reference noMetadata [] (confirmationRequest nonce)).toOption.toList ++
      (valueData reference noMetadata [] (confirmationRequest nonce)).toOption.toList

theorem mem_confirmationStrings {nonces : List Nat} {nonce : Nat} (hnonce : nonce ∈ nonces)
    {x : Data} (hx : x ∈ hashedStrings reference noMetadata [] (confirmationRequest nonce)) :
    x ∈ confirmationStrings nonces := by
  rcases hx with hx | hx | rfl
  · refine List.mem_cons_of_mem _ (List.mem_flatMap.mpr ⟨nonce, hnonce, ?_⟩)
    simp [hx, Except.toOption]
  · refine List.mem_cons_of_mem _ (List.mem_flatMap.mpr ⟨nonce, hnonce, ?_⟩)
    simp [hx, Except.toOption]
  · exact List.mem_cons_self

/-- Requests that differ in the nonce have different pre-images. -/
theorem hashData_injective_nonces :
    hashData reference noMetadata [] (confirmationRequest 1) ≠
      hashData reference noMetadata [] (confirmationRequest 2) := by
  -- both requests hash one domain part, so it is left out of the second half of the list
  have hnodup : ((confirmationStrings [1, 2]).dedup.map reference.hashSHA3_256).Nodup := by
    decide +kernel
  have hinj : Set.InjOn reference.hashSHA3_256
      (hashedStrings reference noMetadata [] (confirmationRequest 1) ∪
        hashedStrings reference noMetadata [] (confirmationRequest 2)) := by
    intro x hx y hy hxy
    have hmem : ∀ {x}, x ∈ hashedStrings reference noMetadata [] (confirmationRequest 1) ∪
        hashedStrings reference noMetadata [] (confirmationRequest 2) →
        x ∈ (confirmationStrings [1, 2]).dedup := fun hx =>
      List.mem_dedup.mpr (hx.elim (mem_confirmationStrings (by decide))
        (mem_confirmationStrings (by decide)))
    exact List.inj_on_of_nodup_map hnodup (hmem hx) (hmem hy) hxy
  intro h
  have hp := (hashData_injective noMetadata [] (describes_confirmationRequest (by decide))
    (describes_confirmationRequest (by decide))).1 hinj h
  exact absurd (congrArg Preimage.nonce hp) (by decide)

end EncryptionService

end MultisigWallet
