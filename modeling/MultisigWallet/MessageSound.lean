import MultisigWallet.ReceiveSound

/-!
# MultisigWallet.MessageSound

What the hash of a pushed transaction says about the message it came in. Everything in a
message is a string of the sender's choice, and the hash is all that ties it to the
signature, so two messages that are accepted for one hash should be one message.

A serialised number is the word of its non-negative part: the digits of a negative one
are not read, and leave the word zero. The only words that can be longer than 32 bytes are
those of the value and of the gas price.
-/

namespace MultisigWallet

/-- What the packages do with strings that are not just digits. -/
structure ThirdParty.Parses (lib : ThirdParty) : Prop where
  /-- The mark is put in front of everything that lacks it. -/
  addHexPrefix_noMark : ∀ s, ¬ hexMark <+: s → lib.addHexPrefix s = hexMark ++ s
  /-- Every character that is read is at most one digit. -/
  bigInt_lt : ∀ s n, lib.bigInt s 16 = some n → n.natAbs < 16 ^ s.length

theorem reference_parses : reference.Parses where
  addHexPrefix_noMark _ _ := rfl
  bigInt_lt s n h := by
    have hmagnitude : ∀ {t : Str} {m : Int},
        ((Reference.magnitude t 16).bind fun k => some (k : Int)) = some m →
          m.natAbs < 16 ^ t.length := by
      intro t m h
      obtain ⟨k, hk, hm⟩ := Option.bind_eq_some_iff.mp h
      obtain rfl := Option.some.inj hm
      unfold Reference.magnitude at hk
      split at hk
      · obtain rfl := Option.some.inj hk
        exact Bytes.hexValue_lt t
      · rw [if_neg (by simp)] at hk
        cases hk
    -- a sign only makes the string longer
    have hlonger : ∀ {t : Str} {k : Nat} (c : Char), k < 16 ^ t.length →
        k < 16 ^ (c :: t).length := fun c h =>
      h.trans_le (Nat.pow_le_pow_right (by norm_num) (by simp))
    have hread : Reference.bigInt s 16 = some n := h
    unfold Reference.bigInt at hread
    split at hread
    · obtain ⟨m, hm, rfl⟩ := Option.map_eq_some_iff.mp hread
      rw [Int.natAbs_neg]
      exact hlonger '-' (hmagnitude hm)
    · obtain ⟨m, hm, rfl⟩ := Option.map_eq_some_iff.mp hread
      exact hlonger '+' (hmagnitude hm)
    · obtain ⟨m, hm, rfl⟩ := Option.map_eq_some_iff.mp hread
      exact hmagnitude hm

variable {lib : ThirdParty}

/-! ### The word of a number -/

namespace EncryptionService

theorem hexDigitsOfInt_neg {n : Int} (hn : n < 0) :
    hexDigitsOfInt n = '-' :: Nat.toDigits 16 n.natAbs := if_pos hn

/-- The digits of a negative number are not read. -/
theorem dataOfInt_neg (hlib : lib.Documented) (hparses : lib.Parses) {n : Int} (hn : n < 0) :
    dataOfInt lib n = leftPadded 32 [] := by
  have hmark : ∀ s : Str, ¬ hexMark <+: '-' :: s := by
    intro s h
    exact absurd (List.cons_prefix_cons.mp h).1 (by decide)
  have hodd : ∀ s : Str, ¬ hexMark <+: '0' :: '-' :: s := by
    intro s h
    exact absurd (List.cons_prefix_cons.mp (List.cons_prefix_cons.mp h).2).1 (by decide)
  have hdrop : dropHexMarks ('-' :: Nat.toDigits 16 n.natAbs) =
      '-' :: Nat.toDigits 16 n.natAbs := by
    unfold dropHexMarks
    rfl
  rw [dataOfInt, hexDigitsOfInt_neg hn, hparses.addHexPrefix_noMark _ (hmark _),
    lib.dataEthHex_mark, ThirdParty.dataEthHex]
  simp only [hdrop]
  congr 1
  -- padded to whole bytes or not, the sign is in the way
  split
  · exact hlib.dataHex_noDigit _ ⟨'-', by simp, by decide⟩ (hodd _)
  · exact hlib.dataHex_noDigit _ ⟨'-', by simp, by decide⟩ (hmark _)

theorem toNat_dataOfInt (hlib : lib.Documented) (hparses : lib.Parses) (n : Int) :
    Bytes.toNat (dataOfInt lib n) = n.toNat := by
  by_cases hn : n < 0
  · rw [dataOfInt_neg hlib hparses hn, toNat_leftPadded]
    show 0 = n.toNat
    omega
  · have hdigits : ∀ c ∈ Nat.toDigits 16 n.natAbs, c ∈ Bytes.hexDigits := fun c hc =>
      Bytes.lowerHex_subset_hexDigits c (Bytes.mem_lowerHex_of_mem_toDigits c hc)
    rw [dataOfInt, hexDigitsOfInt, if_neg hn, lib.addHexPrefix_digits _ hdigits,
      lib.dataEthHex_mark, toNat_leftPadded, lib.toNat_dataEthHex hdigits, Bytes.hexValue_toDigits]
    omega

/-- A number below `2 ^ 256` takes one word. -/
theorem length_dataOfInt (hlib : lib.Documented) (hparses : lib.Parses) {n : Int}
    (hn : n < 2 ^ 256) : (dataOfInt lib n).length = 32 := by
  by_cases hneg : n < 0
  · rw [dataOfInt_neg hlib hparses hneg]
    rfl
  · obtain ⟨k, rfl⟩ := Int.eq_ofNat_of_zero_le (not_lt.mp hneg)
    rw [dataOfInt_eq lib (by exact_mod_cast hn), Abi.length_word]

theorem toNat_eq_of_dataOfInt (hlib : lib.Documented) (hparses : lib.Parses) {n k : Int}
    (h : dataOfInt lib n = dataOfInt lib k) : n.toNat = k.toNat := by
  rw [← toNat_dataOfInt hlib hparses n, h, toNat_dataOfInt hlib hparses k]

end EncryptionService

/-! ### What the initialiser accepts -/

namespace Address

/-- The number an address is hashed as. -/
def toInt (lib : ThirdParty) (a : Address) : Int :=
  (lib.bigInt (lib.stripHexPrefix a.value) 16).getD 0

/-- The address as a 160-bit number. -/
def bits (lib : ThirdParty) (a : Address) : BitVec 160 := BitVec.ofInt 160 (a.toInt lib)

/-- The address is hashed without a trap, to one word. -/
structure Hashable (lib : ThirdParty) (a : Address) : Prop where
  hexadecimal : a.Hexadecimal lib
  lt : a.toInt lib < 2 ^ 256

theorem WellFormed.hashable {a : Address} (h : a.WellFormed) : a.Hashable lib where
  hexadecimal := h.hexadecimal lib
  lt := by
    obtain ⟨s, ha, hlen, hs⟩ := h
    have hne : s ≠ [] := by
      rintro rfl
      simp at hlen
    rw [toInt, ha, lib.stripHexPrefix_mark, lib.bigInt_hex s hne hs, Option.getD_some]
    calc (Bytes.hexValue s : Int) < (16 ^ 40 : Nat) := by
          exact_mod_cast hlen ▸ Bytes.hexValue_lt s
      _ < 2 ^ 256 := by decide

theorem length_stripHexPrefix (lib : ThirdParty) (s : Str) :
    (lib.stripHexPrefix s).length ≤ s.length := by
  by_cases hmark : hexMark <+: s
  · obtain ⟨t, rfl⟩ := hmark
    rw [lib.stripHexPrefix_mark, List.length_append]
    omega
  · rw [lib.stripHexPrefix_noMark s hmark]

/-- A raw value is cut off after 42 characters, and whatever they say is below `2 ^ 168`. -/
theorem hashable_of_ofRawValue (hparses : lib.Parses) {rawValue : Str} {a : Address}
    (h : ofRawValue lib rawValue = some a) : a.Hashable lib where
  hexadecimal := hexadecimal_of_ofRawValue h
  lt := by
    obtain ⟨n, hn⟩ := hexadecimal_of_ofRawValue h
    have hlen : a.value.length ≤ 42 := by
      simp only [ofRawValue] at h
      obtain ⟨-, h⟩ := Option.ite_none_left_eq_some.mp h
      obtain ⟨-, h⟩ := Option.ite_none_right_eq_some.mp h
      obtain rfl := Option.some.inj h
      exact List.length_take_le 42 _
    have habs : n.natAbs < 16 ^ 42 :=
      (hparses.bigInt_lt _ n hn).trans_le
        (Nat.pow_le_pow_right (by norm_num) ((length_stripHexPrefix lib _).trans hlen))
    rw [toInt, hn, Option.getD_some]
    calc n ≤ (n.natAbs : Int) := Int.le_natAbs
      _ < (16 ^ 42 : Nat) := by exact_mod_cast habs
      _ < 2 ^ 256 := by decide

end Address

theorem isInt_of_intOfString {s : Str} {n : Int} (h : intOfString s = some n) :
    isInt n = true := by
  unfold intOfString at h
  exact (Option.filter_eq_some_iff.mp h).2

theorem lt_of_isInt {n : Int} (h : isInt n = true) : n < 2 ^ 256 := by
  have hlt : n < 2 ^ 63 := of_decide_eq_true (Bool.and_eq_true_iff.mp h).2
  exact hlt.trans (by decide)

/-- The fields of a message that are always hashed to one word. -/
structure SendTransactionMessage.InRange (lib : ThirdParty) (m : SendTransactionMessage) :
    Prop where
  safe : m.safe.Hashable lib
  toAddress : m.toAddress.Hashable lib
  gasToken : m.gasToken.Hashable lib
  txGas : m.txGas < 2 ^ 256
  dataGas : m.dataGas < 2 ^ 256
  nonce : m.nonce < 2 ^ 256

theorem SendTransactionMessage.inRange_of_ofUserInfo (hparses : lib.Parses) {userInfo : UserInfo}
    {m : SendTransactionMessage} (h : SendTransactionMessage.ofUserInfo lib userInfo = some m) :
    m.InRange lib := by
  have hread := isRead_of_ofUserInfo h
  obtain ⟨_, hsafe⟩ := hread.safe
  obtain ⟨_, hto⟩ := hread.toAddress
  obtain ⟨_, htoken⟩ := hread.gasToken
  obtain ⟨_, htxGas⟩ := hread.txGas
  obtain ⟨_, hdataGas⟩ := hread.dataGas
  obtain ⟨_, hnonce⟩ := hread.nonce
  exact {
    safe := Address.hashable_of_ofRawValue hparses hsafe
    toAddress := Address.hashable_of_ofRawValue hparses hto
    gasToken := Address.hashable_of_ofRawValue hparses htoken
    txGas := lt_of_isInt (isInt_of_intOfString htxGas)
    dataGas := lt_of_isInt (isInt_of_intOfString hdataGas)
    nonce := lt_of_isInt (isInt_of_intOfString hnonce) }

/-! ### One hash, one pre-image -/

namespace EncryptionService

theorem dataOfAddress_toInt {a : Address} (h : a.Hexadecimal lib) :
    dataOfAddress lib a = .ok (dataOfInt lib (a.toInt lib)) := by
  obtain ⟨n, hn⟩ := h
  rw [dataOfAddress, Address.toInt, hn]
  rfl

/-- Every string that is hashed on the way to the hash of `tx`. -/
def preimages (lib : ThirdParty) (metadata : SafeContractMetadata) (wallets : List Wallet)
    (tx : Transaction) : Set Data :=
  hashedStrings lib metadata wallets tx ∪ {x | hashData lib metadata wallets tx = .ok x}

/-- Without a collision, transactions of one hash have the same domain and value parts. -/
theorem parts_eq_of_hash {metadata : SafeContractMetadata} {wallets : List Wallet}
    {t₁ t₂ : Transaction} {h : Data}
    (hinj : Set.InjOn lib.hashSHA3_256
      (preimages lib metadata wallets t₁ ∪ preimages lib metadata wallets t₂))
    (h₁ : hash lib metadata wallets t₁ = .ok h) (h₂ : hash lib metadata wallets t₂ = .ok h) :
    domainData lib metadata wallets t₁ = domainData lib metadata wallets t₂ ∧
      valueData lib metadata wallets t₁ = valueData lib metadata wallets t₂ := by
  have hparts : ∀ {tx : Transaction}, hash lib metadata wallets tx = .ok h →
      ∃ d v, domainData lib metadata wallets tx = .ok d ∧
        valueData lib metadata wallets tx = .ok v ∧
        hashData lib metadata wallets tx =
          .ok ([0x19, 0x01] ++ lib.hashSHA3_256 d ++ lib.hashSHA3_256 v) ∧
        lib.hashSHA3_256 ([0x19, 0x01] ++ lib.hashSHA3_256 d ++ lib.hashSHA3_256 v) = h := by
    intro tx htx
    obtain ⟨x, hx, htx⟩ := bind_ok.mp htx
    have hdata := hx
    obtain ⟨d, hd, hx⟩ := bind_ok.mp hx
    obtain ⟨v, hv, hx⟩ := bind_ok.mp hx
    obtain rfl := Except.ok.inj hx
    exact ⟨d, v, hd, hv, hdata, Except.ok.inj htx⟩
  obtain ⟨d₁, v₁, hd₁, hv₁, hx₁, hh₁⟩ := hparts h₁
  obtain ⟨d₂, v₂, hd₂, hv₂, hx₂, hh₂⟩ := hparts h₂
  -- from the outer hash to the two inner ones
  have hx := hinj (.inl (.inr hx₁)) (.inr (.inr hx₂)) (hh₁.trans hh₂.symm)
  obtain ⟨hx, hvhash⟩ := List.append_inj' hx (by simp only [lib.length_hash])
  have hdhash := (List.append_inj' hx (by simp only [lib.length_hash])).2
  have hd : d₁ = d₂ := hinj (.inl (.inl (.inl hd₁))) (.inr (.inl (.inl hd₂))) hdhash
  have hv : v₁ = v₂ :=
    hinj (.inl (.inl (.inr (.inl hv₁)))) (.inr (.inl (.inr (.inl hv₂)))) hvhash
  exact ⟨by rw [hd₁, hd₂, hd], by rw [hv₁, hv₂, hv]⟩

end EncryptionService

namespace WalletApplicationService

open EncryptionService

section

variable {metadata : SafeContractMetadata} {r : Repositories} {m : SendTransactionMessage}
  {w : Wallet} {decoded : Option (Address × Int)} {hash : Data}

/-- The pseudo-token's transfer goes to the decoded recipient, everything else to the
address in the message. -/
theorem hashable_ethTo (hm : m.InRange lib)
    (hdecoded : ERC20TokenContractProxy.decodedTransfer lib m.data = .ok decoded) :
    (proposed m w decoded).ethTo.Hashable lib := by
  rw [proposed, ethTo_described]
  cases decoded with
  | none => exact hm.toAddress
  | some d =>
      obtain ⟨recipient, amount⟩ := d
      show Address.Hashable lib (if _ then _ else _)
      split
      · exact (wellFormed_decodedTransfer hdecoded).hashable
      · exact hm.toAddress

theorem domainData_proposed (hm : m.InRange lib) :
    domainData lib metadata r.wallets (proposed m w decoded) =
      .ok (domainSeparatorTypeHash metadata r.wallets (proposed m w decoded) ++
        dataOfInt lib (m.safe.toInt lib)) := by
  rw [domainData]
  show (dataOfAddress lib m.safe >>= _) = _
  rw [dataOfAddress_toInt hm.safe.hexadecimal]
  rfl

theorem valueData_proposed (hm : m.InRange lib)
    (hdecoded : ERC20TokenContractProxy.decodedTransfer lib m.data = .ok decoded) :
    valueData lib metadata r.wallets (proposed m w decoded) =
      .ok (txTypeHash metadata r.wallets (proposed m w decoded) ++
        dataOfInt lib ((proposed m w decoded).ethTo.toInt lib) ++
        dataOfInt lib (proposed m w decoded).ethValue ++ lib.hashSHA3_256 m.data ++
        dataOfInt lib m.operation.rawValue ++ dataOfInt lib m.txGas ++ dataOfInt lib m.dataGas ++
        dataOfInt lib m.gasPrice ++ dataOfInt lib (m.gasToken.toInt lib) ++ dataOfInt lib 0 ++
        dataOfInt lib m.nonce) := by
  rw [valueData, dataOfAddress_toInt (hashable_ethTo hm hdecoded).hexadecimal]
  show (dataOfAddress lib m.gasToken >>= fun gasToken =>
    unwrap _ (lib.bigInt (stringOfInt m.nonce) 10) >>= _) = _
  rw [dataOfAddress_toInt hm.gasToken.hexadecimal, bigInt_stringOfInt]
  rfl

end

/-! ### Word by word -/

/-- What the value parts of two proposals say about them when they are equal. -/
structure SameWords (lib : ThirdParty) (m₁ m₂ : SendTransactionMessage) (t₁ t₂ : Transaction) :
    Prop where
  ethTo : (t₁.ethTo.toInt lib).toNat = (t₂.ethTo.toInt lib).toNat
  ethValue : t₁.ethValue.toNat = t₂.ethValue.toNat
  dataHash : lib.hashSHA3_256 m₁.data = lib.hashSHA3_256 m₂.data
  operation : m₁.operation = m₂.operation
  txGas : m₁.txGas.toNat = m₂.txGas.toNat
  dataGas : m₁.dataGas.toNat = m₂.dataGas.toNat
  gasPrice : m₁.gasPrice.toNat = m₂.gasPrice.toNat
  gasToken : (m₁.gasToken.toInt lib).toNat = (m₂.gasToken.toInt lib).toNat
  nonce : m₁.nonce.toNat = m₂.nonce.toNat

section

variable {metadata : SafeContractMetadata} {r : Repositories} {m₁ m₂ : SendTransactionMessage}
  {w₁ w₂ : Wallet} {decoded₁ decoded₂ : Option (Address × Int)}

/-- The words are found again in the value part if the gas prices are equally long. -/
theorem sameWords_of_valueData (hlib : lib.Documented) (hparses : lib.Parses)
    (hm₁ : m₁.InRange lib) (hm₂ : m₂.InRange lib)
    (hdecoded₁ : ERC20TokenContractProxy.decodedTransfer lib m₁.data = .ok decoded₁)
    (hdecoded₂ : ERC20TokenContractProxy.decodedTransfer lib m₂.data = .ok decoded₂)
    (hprice : (dataOfInt lib m₁.gasPrice).length = (dataOfInt lib m₂.gasPrice).length)
    (h : valueData lib metadata r.wallets (proposed m₁ w₁ decoded₁) =
      valueData lib metadata r.wallets (proposed m₂ w₂ decoded₂)) :
    SameWords lib m₁ m₂ (proposed m₁ w₁ decoded₁) (proposed m₂ w₂ decoded₂) := by
  have hword : ∀ {n k : Int}, n < 2 ^ 256 → k < 2 ^ 256 →
      (dataOfInt lib n).length = (dataOfInt lib k).length := fun hn hk =>
    (length_dataOfInt hlib hparses hn).trans (length_dataOfInt hlib hparses hk).symm
  rw [valueData_proposed hm₁ hdecoded₁, valueData_proposed hm₂ hdecoded₂] at h
  -- from the right up to the value, whose length is what is left over
  obtain ⟨h, hnonce⟩ := List.append_inj' (Except.ok.inj h) (hword hm₁.nonce hm₂.nonce)
  obtain ⟨h, -⟩ := List.append_inj' h rfl
  obtain ⟨h, htoken⟩ := List.append_inj' h (hword hm₁.gasToken.lt hm₂.gasToken.lt)
  obtain ⟨h, hgasPrice⟩ := List.append_inj' h hprice
  obtain ⟨h, hdataGas⟩ := List.append_inj' h (hword hm₁.dataGas hm₂.dataGas)
  obtain ⟨h, htxGas⟩ := List.append_inj' h (hword hm₁.txGas hm₂.txGas)
  obtain ⟨h, hoperation⟩ := List.append_inj' h
    (by simp only [dataOfInt_rawValue, Abi.length_word])
  obtain ⟨h, hdata⟩ := List.append_inj' h (by simp only [lib.length_hash])
  -- and from the left
  rw [List.append_assoc, List.append_assoc] at h
  obtain ⟨-, h⟩ := List.append_inj h (by simp only [length_txTypeHash])
  obtain ⟨hto, hvalue⟩ := List.append_inj h
    (hword (hashable_ethTo hm₁ hdecoded₁).lt (hashable_ethTo hm₂ hdecoded₂).lt)
  have hnat : ∀ {n k : Int}, dataOfInt lib n = dataOfInt lib k → n.toNat = k.toNat :=
    toNat_eq_of_dataOfInt hlib hparses
  exact {
    ethTo := hnat hto
    ethValue := hnat hvalue
    dataHash := hdata
    operation := rawValue_toNat_inj (hnat hoperation)
    txGas := hnat htxGas
    dataGas := hnat hdataGas
    gasPrice := hnat hgasPrice
    gasToken := hnat htoken
    nonce := hnat hnonce }

theorem safe_of_domainData (hlib : lib.Documented) (hparses : lib.Parses)
    (hm₁ : m₁.InRange lib) (hm₂ : m₂.InRange lib)
    (h : domainData lib metadata r.wallets (proposed m₁ w₁ decoded₁) =
      domainData lib metadata r.wallets (proposed m₂ w₂ decoded₂)) :
    (m₁.safe.toInt lib).toNat = (m₂.safe.toInt lib).toNat := by
  rw [domainData_proposed hm₁, domainData_proposed hm₂] at h
  obtain ⟨-, h⟩ := List.append_inj (Except.ok.inj h)
    (by simp only [length_domainSeparatorTypeHash])
  exact toNat_eq_of_dataOfInt hlib hparses h

end

/-! ### What ties two messages together -/

/-- The messages are one as far as it is signed, addresses compared as 160-bit numbers. -/
structure Agrees (lib : ThirdParty) (m₁ m₂ : SendTransactionMessage) : Prop where
  safe : m₁.safe.bits lib = m₂.safe.bits lib
  toAddress : m₁.toAddress.bits lib = m₂.toAddress.bits lib
  value : m₁.value = m₂.value
  data : m₁.data = m₂.data
  operation : m₁.operation = m₂.operation
  txGas : m₁.txGas = m₂.txGas
  dataGas : m₁.dataGas = m₂.dataGas
  gasPrice : m₁.gasPrice = m₂.gasPrice
  gasToken : m₁.gasToken.bits lib = m₂.gasToken.bits lib
  nonce : m₁.nonce = m₂.nonce

/-- The data is decoded as a transfer of a token. -/
def IsTransfer (lib : ThirdParty) (data : Data) : Prop :=
  ∃ d, ERC20TokenContractProxy.decodedTransfer lib data = .ok (some d)

/-- The messages do not differ where the hash is blind:

* a number or an address that is negative in one of them is the same in both;
* so is a gas price that does not fit a word;
* if the data is a transfer, the value is not hashed, and neither is the receiver when it
  is the address of the Ether pseudo-token. -/
structure Determined (lib : ThirdParty) (m₁ m₂ : SendTransactionMessage) : Prop where
  safe : m₁.safe.toInt lib < 0 ∨ m₂.safe.toInt lib < 0 → m₁.safe.bits lib = m₂.safe.bits lib
  toAddress : m₁.toAddress.toInt lib < 0 ∨ m₂.toAddress.toInt lib < 0 →
    m₁.toAddress.bits lib = m₂.toAddress.bits lib
  value : m₁.value < 0 ∨ m₂.value < 0 → m₁.value = m₂.value
  txGas : m₁.txGas < 0 ∨ m₂.txGas < 0 → m₁.txGas = m₂.txGas
  dataGas : m₁.dataGas < 0 ∨ m₂.dataGas < 0 → m₁.dataGas = m₂.dataGas
  gasPrice : m₁.gasPrice < 0 ∨ m₂.gasPrice < 0 ∨ 2 ^ 256 ≤ m₁.gasPrice ∨ 2 ^ 256 ≤ m₂.gasPrice →
    m₁.gasPrice = m₂.gasPrice
  gasToken : m₁.gasToken.toInt lib < 0 ∨ m₂.gasToken.toInt lib < 0 →
    m₁.gasToken.bits lib = m₂.gasToken.bits lib
  nonce : m₁.nonce < 0 ∨ m₂.nonce < 0 → m₁.nonce = m₂.nonce
  transferValue : IsTransfer lib m₁.data ∨ IsTransfer lib m₂.data → m₁.value = m₂.value
  transferReceiver : IsTransfer lib m₁.data ∨ IsTransfer lib m₂.data →
    m₁.toAddress.value = Token.Ether.id ∨ m₂.toAddress.value = Token.Ether.id →
      m₁.toAddress.bits lib = m₂.toAddress.bits lib

theorem Agrees.determined {m₁ m₂ : SendTransactionMessage} (h : Agrees lib m₁ m₂) :
    Determined lib m₁ m₂ where
  safe _ := h.safe
  toAddress _ := h.toAddress
  value _ := h.value
  txGas _ := h.txGas
  dataGas _ := h.dataGas
  gasPrice _ := h.gasPrice
  gasToken _ := h.gasToken
  nonce _ := h.nonce
  transferValue _ := h.value
  transferReceiver _ _ := h.toAddress

/-- Numbers with one non-negative part are equal, unless one of them is negative. -/
theorem eq_of_toNat_eq {n k : Int} (h : n.toNat = k.toNat) (hneg : n < 0 ∨ k < 0 → n = k) :
    n = k := by
  by_cases hsign : n < 0 ∨ k < 0
  · exact hneg hsign
  · omega

theorem bits_eq_of_toNat_eq {a b : Address} (h : (a.toInt lib).toNat = (b.toInt lib).toNat)
    (hneg : a.toInt lib < 0 ∨ b.toInt lib < 0 → a.bits lib = b.bits lib) :
    a.bits lib = b.bits lib := by
  by_cases hsign : a.toInt lib < 0 ∨ b.toInt lib < 0
  · exact hneg hsign
  · have heq : a.toInt lib = b.toInt lib := by omega
    rw [Address.bits, heq, Address.bits]

/-- Determined gas prices are equally long. -/
theorem Determined.length_gasPrice (hlib : lib.Documented) (hparses : lib.Parses)
    {m₁ m₂ : SendTransactionMessage} (h : Determined lib m₁ m₂) :
    (dataOfInt lib m₁.gasPrice).length = (dataOfInt lib m₂.gasPrice).length := by
  by_cases hlong : 2 ^ 256 ≤ m₁.gasPrice ∨ 2 ^ 256 ≤ m₂.gasPrice
  · rw [h.gasPrice (.inr (.inr hlong))]
  · rw [not_or, not_le, not_le] at hlong
    rw [length_dataOfInt hlib hparses hlong.1, length_dataOfInt hlib hparses hlong.2]

section

variable {metadata : SafeContractMetadata} {r : Repositories} {m₁ m₂ : SendTransactionMessage}
  {w₁ w₂ : Wallet} {decoded : Option (Address × Int)}

/-- Receiver and value of determined messages with the same data. -/
theorem Determined.toAddress_value (h : Determined lib m₁ m₂)
    (hdecoded : ERC20TokenContractProxy.decodedTransfer lib m₁.data = .ok decoded)
    (hwords : SameWords lib m₁ m₂ (proposed m₁ w₁ decoded) (proposed m₂ w₂ decoded)) :
    m₁.toAddress.bits lib = m₂.toAddress.bits lib ∧ m₁.value = m₂.value := by
  have hto := hwords.ethTo
  have hvalue := hwords.ethValue
  rw [proposed, proposed, ethTo_described, ethTo_described] at hto
  rw [proposed, proposed, ethValue_described, ethValue_described] at hvalue
  cases decoded with
  | none => exact ⟨bits_eq_of_toNat_eq hto h.toAddress, eq_of_toNat_eq hvalue h.value⟩
  | some d =>
      have htransfer : IsTransfer lib m₁.data ∨ IsTransfer lib m₂.data := .inl ⟨d, hdecoded⟩
      refine ⟨?_, h.transferValue htransfer⟩
      by_cases hether : m₁.toAddress.value = Token.Ether.id ∨ m₂.toAddress.value = Token.Ether.id
      · exact h.transferReceiver htransfer hether
      · rw [not_or] at hether
        simp only [if_neg hether.1, if_neg hether.2] at hto
        exact bits_eq_of_toNat_eq hto h.toAddress

/-- The dictionary is read as `m`, and the handler creates a transaction for it. -/
structure Accepts (lib : ThirdParty) (metadata : SafeContractMetadata) (r : Repositories)
    (userInfo : UserInfo) (m : SendTransactionMessage) : Prop where
  reads : SendTransactionMessage.ofUserInfo lib userInfo = some m
  fresh : r.findHash m.hash = none
  created : ∃ id clock id' r', handleSend lib metadata r m id clock = .ok (some id', r')

/-- The strings that are hashed to check `m`. -/
def messagePreimages (lib : ThirdParty) (metadata : SafeContractMetadata) (r : Repositories)
    (m : SendTransactionMessage) : Set Data :=
  {x | ∃ w decoded, r.walletAt m.safe = some w ∧
    ERC20TokenContractProxy.decodedTransfer lib m.data = .ok decoded ∧
    x ∈ preimages lib metadata r.wallets (proposed m w decoded)}

/-- Determined messages that are accepted for one hash agree. -/
theorem Determined.agrees (hlib : lib.Documented) (hparses : lib.Parses)
    (hm₁ : m₁.InRange lib) (hm₂ : m₂.InRange lib) {decoded₁ decoded₂ : Option (Address × Int)}
    (hp₁ : Proposes lib metadata r m₁ w₁ decoded₁ m₁.hash)
    (hp₂ : Proposes lib metadata r m₂ w₂ decoded₂ m₂.hash)
    (hhash : m₁.hash = m₂.hash)
    (hinj : Set.InjOn lib.hashSHA3_256
      (preimages lib metadata r.wallets (proposed m₁ w₁ decoded₁) ∪
        preimages lib metadata r.wallets (proposed m₂ w₂ decoded₂)))
    (h : Determined lib m₁ m₂) : Agrees lib m₁ m₂ := by
  obtain ⟨hdomain, hvalue⟩ := parts_eq_of_hash hinj (hhash ▸ hp₁.hashes) hp₂.hashes
  have hwords := sameWords_of_valueData hlib hparses hm₁ hm₂ hp₁.decodes hp₂.decodes
    (h.length_gasPrice hlib hparses) hvalue
  have hdata : m₁.data = m₂.data :=
    hinj (.inl (.inl (.inr (.inr rfl)))) (.inr (.inl (.inr (.inr rfl)))) hwords.dataHash
  -- the same data is decoded in the same way
  obtain rfl : decoded₁ = decoded₂ := by
    have hdecodes := hp₂.decodes
    rw [← hdata, hp₁.decodes] at hdecodes
    exact Except.ok.inj hdecodes
  obtain ⟨htoAddress, hmessageValue⟩ := h.toAddress_value hp₁.decodes hwords
  exact {
    safe := bits_eq_of_toNat_eq (safe_of_domainData hlib hparses hm₁ hm₂ hdomain) h.safe
    toAddress := htoAddress
    value := hmessageValue
    data := hdata
    operation := hwords.operation
    txGas := eq_of_toNat_eq hwords.txGas h.txGas
    dataGas := eq_of_toNat_eq hwords.dataGas h.dataGas
    gasPrice := eq_of_toNat_eq hwords.gasPrice fun hneg =>
      h.gasPrice (hneg.elim .inl fun hneg => .inr (.inl hneg))
    gasToken := bits_eq_of_toNat_eq hwords.gasToken h.gasToken
    nonce := eq_of_toNat_eq hwords.nonce h.nonce }

/-- Two messages that are accepted with one hash and signature agree on everything that is
signed exactly when they do not differ where the hash is blind. -/
theorem accepted_agree_iff {u₁ u₂ : UserInfo} (hlib : lib.Documented) (hparses : lib.Parses)
    (h₁ : Accepts lib metadata r u₁ m₁) (h₂ : Accepts lib metadata r u₂ m₂)
    (hsame : m₁.hash = m₂.hash ∧ m₁.signature = m₂.signature)
    (hinj : Set.InjOn lib.hashSHA3_256
      (messagePreimages lib metadata r m₁ ∪ messagePreimages lib metadata r m₂)) :
    Agrees lib m₁ m₂ ↔ Determined lib m₁ m₂ := by
  obtain ⟨_, _, _, _, hcreated₁⟩ := h₁.created
  obtain ⟨_, _, _, _, hcreated₂⟩ := h₂.created
  obtain ⟨-, w₁, decoded₁, -, hw₁, hp₁, -⟩ := handleSend_some hcreated₁ h₁.fresh
  obtain ⟨-, w₂, decoded₂, -, hw₂, hp₂, -⟩ := handleSend_some hcreated₂ h₂.fresh
  have hsub₁ : preimages lib metadata r.wallets (proposed m₁ w₁ decoded₁) ⊆
      messagePreimages lib metadata r m₁ := fun x hx => ⟨w₁, decoded₁, hw₁, hp₁.decodes, hx⟩
  have hsub₂ : preimages lib metadata r.wallets (proposed m₂ w₂ decoded₂) ⊆
      messagePreimages lib metadata r m₂ := fun x hx => ⟨w₂, decoded₂, hw₂, hp₂.decodes, hx⟩
  refine ⟨Agrees.determined, fun h => ?_⟩
  exact h.agrees hlib hparses (SendTransactionMessage.inRange_of_ofUserInfo hparses h₁.reads)
    (SendTransactionMessage.inRange_of_ofUserInfo hparses h₂.reads) hp₁ hp₂ hsame.1
    (hinj.mono (Set.union_subset_union hsub₁ hsub₂))

end

/-! ### A gas token below zero -/

/-- The transfer of `transferProposal`, with the gas token spelled as given. -/
def pushedMessage (gasToken : Str) : SendTransactionMessage :=
  { transferProposal 0 with gasToken := ⟨gasToken⟩ }

/-- The dictionary it is pushed in. -/
def pushedInfo (gasToken : Str) : UserInfo := fun key =>
  List.lookup key [
    ("type", "sendTransaction".toList),
    ("hash", hexMark ++ Bytes.toHex (transferProposal 0).hash),
    ("safe", (transferProposal 0).safe.value),
    ("to", (transferProposal 0).toAddress.value),
    ("value", "0".toList),
    ("data", hexMark ++ Bytes.toHex (transferProposal 0).data),
    ("operation", "0".toList),
    ("txGas", "21500".toList),
    ("dataGas", "24600".toList),
    ("operationalGas", "48200".toList),
    ("gasPrice", "10000".toList),
    ("gasToken", gasToken),
    ("nonce", "1".toList),
    ("r", (transferProposal 0).signature.r),
    ("s", (transferProposal 0).signature.s),
    ("v", "28".toList)]

/-- What there is to evaluate for one spelling of the gas token. -/
def pushedIsAccepted (gasToken : Str) : Bool :=
  decide (SendTransactionMessage.ofUserInfo reference (pushedInfo gasToken) =
    some (pushedMessage gasToken)) &&
  (handleSend reference noMetadata pairedRepositories (pushedMessage gasToken) ['t']
    fun _ => 0).toOption.any fun out => out.1 = some ['t']

theorem accepts_pushed (gasToken : Str) (h : pushedIsAccepted gasToken = true) :
    Accepts reference noMetadata pairedRepositories (pushedInfo gasToken)
      (pushedMessage gasToken) where
  reads := of_decide_eq_true (Bool.and_eq_true_iff.mp h).1
  fresh := rfl
  created := by
    obtain ⟨⟨o, r'⟩, hhandled, ho⟩ := exists_ok_of_any (Bool.and_eq_true_iff.mp h).2
    obtain rfl : o = some ['t'] := of_decide_eq_true ho
    exact ⟨_, _, _, r', hhandled⟩

/-- The zero address, the same without its mark, and a number that is no address. -/
theorem pushedIsAccepted_spellings :
    pushedIsAccepted Address.zero.value = true ∧
      pushedIsAccepted (Address.zero.value.drop 2) = true ∧
      pushedIsAccepted "-1".toList = true := by
  decide +kernel

/-- The transaction that is hashed for it. -/
def pushedTransaction (gasToken : Str) : Transaction :=
  proposed (pushedMessage gasToken) pairedWallet
    ((ERC20TokenContractProxy.decodedTransfer reference (transferProposal 0).data).toOption.getD
      none)

/-- The strings hashed for a list of spellings. -/
def pushedStrings (gasTokens : List Str) : List Data :=
  (transferProposal 0).data :: gasTokens.flatMap fun gasToken =>
    (domainData reference noMetadata [pairedWallet] (pushedTransaction gasToken)).toOption.toList ++
    (valueData reference noMetadata [pairedWallet] (pushedTransaction gasToken)).toOption.toList ++
    (hashData reference noMetadata [pairedWallet] (pushedTransaction gasToken)).toOption.toList

theorem mem_pushedStrings {gasTokens : List Str} {gasToken : Str} (hmem : gasToken ∈ gasTokens)
    {x : Data} (hx : x ∈ messagePreimages reference noMetadata pairedRepositories
      (pushedMessage gasToken)) : x ∈ pushedStrings gasTokens := by
  obtain ⟨w, decoded, hw, hdecoded, hx⟩ := hx
  obtain rfl : pairedWallet = w := Option.some.inj hw
  have htx : proposed (pushedMessage gasToken) pairedWallet decoded =
      pushedTransaction gasToken := by
    have hdata : ERC20TokenContractProxy.decodedTransfer reference (transferProposal 0).data =
        .ok decoded := hdecoded
    rw [pushedTransaction, hdata]
    rfl
  rw [htx] at hx
  rcases hx with (hx | hx | rfl) | hx
  · refine List.mem_cons_of_mem _ (List.mem_flatMap.mpr ⟨gasToken, hmem, ?_⟩)
    simp [show domainData reference noMetadata [pairedWallet] _ = _ from hx, Except.toOption]
  · refine List.mem_cons_of_mem _ (List.mem_flatMap.mpr ⟨gasToken, hmem, ?_⟩)
    simp [show valueData reference noMetadata [pairedWallet] _ = _ from hx, Except.toOption]
  · exact List.mem_cons_self
  · refine List.mem_cons_of_mem _ (List.mem_flatMap.mpr ⟨gasToken, hmem, ?_⟩)
    simp [show hashData reference noMetadata [pairedWallet] _ = _ from hx, Except.toOption]

/-- Keccak-256 has no collision among the strings of two spellings. -/
theorem injOn_pushed (a b : Str)
    (hnodup : ((pushedStrings [a, b]).dedup.map reference.hashSHA3_256).Nodup) :
    Set.InjOn reference.hashSHA3_256
      (messagePreimages reference noMetadata pairedRepositories (pushedMessage a) ∪
        messagePreimages reference noMetadata pairedRepositories (pushedMessage b)) := by
  have hmem : ∀ {x}, x ∈ messagePreimages reference noMetadata pairedRepositories
      (pushedMessage a) ∪ messagePreimages reference noMetadata pairedRepositories
      (pushedMessage b) → x ∈ (pushedStrings [a, b]).dedup := fun hx =>
    List.mem_dedup.mpr (hx.elim (mem_pushedStrings List.mem_cons_self)
      (mem_pushedStrings (List.mem_cons_of_mem _ List.mem_cons_self)))
  intro x hx y hy hxy
  exact List.inj_on_of_nodup_map hnodup (hmem hx) (hmem hy) hxy

/-- Leaving out the mark of the zero address makes no difference. -/
theorem accepted_agree_unmarked :
    Agrees reference (pushedMessage Address.zero.value)
      (pushedMessage (Address.zero.value.drop 2)) := by
  refine (accepted_agree_iff reference_documented reference_parses
    (accepts_pushed _ pushedIsAccepted_spellings.1)
    (accepts_pushed (Address.zero.value.drop 2) pushedIsAccepted_spellings.2.1) ⟨rfl, rfl⟩
    (injOn_pushed Address.zero.value (Address.zero.value.drop 2) (by decide +kernel))).mpr ?_
  exact {
    safe := fun _ => rfl
    toAddress := fun _ => rfl
    value := fun _ => rfl
    txGas := fun _ => rfl
    dataGas := fun _ => rfl
    gasPrice := fun _ => rfl
    gasToken := fun _ => by decide +kernel
    nonce := fun _ => rfl
    transferValue := fun _ => rfl
    transferReceiver := fun _ _ => rfl }

/-- A gas token of `-1` is accepted for the hash and the signature of the zero address. -/
theorem not_agree_negative :
    Accepts reference noMetadata pairedRepositories (pushedInfo Address.zero.value)
        (pushedMessage Address.zero.value) ∧
      Accepts reference noMetadata pairedRepositories (pushedInfo "-1".toList)
        (pushedMessage "-1".toList) ∧
      ((pushedMessage Address.zero.value).hash = (pushedMessage "-1".toList).hash ∧
        (pushedMessage Address.zero.value).signature = (pushedMessage "-1".toList).signature) ∧
      Set.InjOn reference.hashSHA3_256
        (messagePreimages reference noMetadata pairedRepositories
            (pushedMessage Address.zero.value) ∪
          messagePreimages reference noMetadata pairedRepositories (pushedMessage "-1".toList)) ∧
      ¬ Agrees reference (pushedMessage Address.zero.value) (pushedMessage "-1".toList) := by
  refine ⟨accepts_pushed _ pushedIsAccepted_spellings.1,
    accepts_pushed _ pushedIsAccepted_spellings.2.2, ⟨rfl, rfl⟩, injOn_pushed _ _ (by decide +kernel), fun h => ?_⟩
  have hbits : Address.bits reference ⟨Address.zero.value⟩ ≠ Address.bits reference ⟨"-1".toList⟩ := by
    decide +kernel
  exact hbits h.gasToken

end WalletApplicationService

end MultisigWallet
