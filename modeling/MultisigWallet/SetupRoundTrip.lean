import MultisigWallet.ContractRoundTrip

/-!
# MultisigWallet.SetupRoundTrip

The set-up call of a new Safe, written and read back. The call is a head of eight words, the owners,
and the data behind them, so the offset of the data grows with the owners. Empty data has one more
word behind its length, which no offset leads to.
-/

namespace MultisigWallet

open EthereumContractProxy

namespace GnosisSafeContractProxy

theorem encodeInt_eq {lib : ThirdParty} {n : Int} (hn : 0 ≤ n) :
    encodeInt lib n = .ok (Abi.word n.toNat) := by
  simp [encodeInt, precondition, hn, encodeUInt_eq, bind, Except.bind, pure, Except.pure]

theorem flatten_encodeAddress {lib : ThirdParty} {owners : List Address}
    (h : ∀ o ∈ owners, o.WellFormed) :
    (owners.map (encodeAddress lib)).flatten = Abi.words (owners.map Address.toNat) := by
  induction owners with
  | nil => rfl
  | cons o owners ih =>
      have ih := ih fun o' ho' => h o' (List.mem_cons_of_mem o ho')
      simp only [List.map_cons, List.flatten_cons, Abi.words_cons, ih,
        encodeAddress_eq lib (h o List.mem_cons_self)]

namespace SetupArguments

variable (a : SetupArguments)

/-- `setup`, of the arguments in a record. -/
def call (lib : ThirdParty) : Except Trap Data :=
  setup lib a.owners a.threshold a.recipient a.data a.paymentToken a.payment a.paymentReceiver

/-- The arguments with every address in lower case. -/
def normalized : SetupArguments where
  owners := a.owners.map Address.normalized
  threshold := a.threshold
  recipient := a.recipient.normalized
  data := a.data
  paymentToken := a.paymentToken.normalized
  payment := a.payment
  paymentReceiver := a.paymentReceiver.normalized

/-- The words up to the last owner. -/
def frontWords : List Nat :=
  [7 * 32, a.threshold.toNat, a.recipient.toNat, 8 * 32 + 32 * a.owners.length, a.paymentToken.toNat,
    a.payment.toNat, a.paymentReceiver.toNat, a.owners.length] ++ a.owners.map Address.toNat

/-- What stands behind the owners. -/
def back : Data := Abi.bytes a.data ++ if a.data.isEmpty then Abi.word 0 else []

/-- What stands behind the selector. -/
def encoded : Data := Abi.words a.frontWords ++ a.back

theorem length_frontWords : a.frontWords.length = 8 + a.owners.length := by
  simp [frontWords]
  omega

theorem length_encoded :
    a.encoded.length = 32 * (8 + a.owners.length) + a.back.length := by
  rw [encoded, List.length_append, Abi.length_words, length_frontWords]

theorem le_length_back : 32 + a.data.length ≤ a.back.length := by
  have hle := Abi.le_ceil32 a.data.length
  rw [back, List.length_append, Abi.length_bytes]
  omega

theorem call_ok (lib : ThirdParty) (howners : ∀ o ∈ a.owners, o.WellFormed)
    (hrecipient : a.recipient.WellFormed) (hpaymentToken : a.paymentToken.WellFormed)
    (hpaymentReceiver : a.paymentReceiver.WellFormed) (hthreshold : 0 ≤ a.threshold)
    (hpayment : 0 ≤ a.payment) (hfit : 8 * 32 + 32 * a.owners.length < 2 ^ 63) :
    a.call lib = .ok (method lib setupSignature ++ a.encoded) := by
  have hint : isInt (7 * 32 + 1 * 32 + a.owners.length * 32) = true := by
    simp only [isInt, Bool.and_eq_true, decide_eq_true_eq]
    omega
  have hoffset : (7 * 32 + 1 * 32 + (a.owners.length * 32 : Int)).toNat =
      8 * 32 + 32 * a.owners.length := by
    omega
  rw [call, setup, encodeInt_eq hthreshold, encodeInt_eq hpayment]
  simp only [hint, if_true, encodeInt_eq (show 0 ≤ 7 * 32 + 1 * 32 + (a.owners.length * 32 : Int) by
    omega), hoffset, invocation, encodeUInt_eq, encodeAddress_eq lib hrecipient,
    encodeAddress_eq lib hpaymentToken, encodeAddress_eq lib hpaymentReceiver, encodeBytes_eq,
    List.flatten_append, flatten_encodeAddress howners]
  have hback : [Abi.bytes a.data, if a.data.isEmpty then Abi.word 0 else []].flatten = a.back := by
    rw [back, List.flatten_cons, List.flatten_singleton]
  rw [hback, encoded, frontWords, Abi.words_append]
  rfl

/-- The arguments are addresses and numbers of their types, and the call fits into a `Data`. -/
structure Encodable : Prop where
  owners : ∀ o ∈ a.owners, o.WellFormed
  threshold_nonneg : 0 ≤ a.threshold
  threshold_isInt : isInt a.threshold = true
  recipient : a.recipient.WellFormed
  paymentToken : a.paymentToken.WellFormed
  payment_nonneg : 0 ≤ a.payment
  payment_lt : a.payment < 2 ^ 256
  paymentReceiver : a.paymentReceiver.WellFormed
  fits : 4 + a.encoded.length < 2 ^ 63

variable {a}

theorem Encodable.owners_lt (h : a.Encodable) : 8 * 32 + 32 * a.owners.length < 2 ^ 63 := by
  have hfits := h.fits
  rw [length_encoded] at hfits
  omega

theorem Encodable.frontWords_lt (h : a.Encodable) : ∀ n ∈ a.frontWords, n < 2 ^ 256 := by
  have haddress : ∀ {b : Address}, b.WellFormed → b.toNat < 2 ^ 256 :=
    fun hb => hb.toNat_lt.trans (by decide)
  have howners := h.owners_lt
  have hthreshold := h.threshold_isInt
  have hpayment := h.payment_lt
  simp only [isInt, Bool.and_eq_true, decide_eq_true_eq] at hthreshold
  intro n hn
  rcases List.mem_append.mp hn with hn | hn
  · simp only [List.mem_cons, List.not_mem_nil, or_false] at hn
    rcases hn with rfl | rfl | rfl | rfl | rfl | rfl | rfl | rfl
    · omega
    · omega
    · exact haddress h.recipient
    · omega
    · exact haddress h.paymentToken
    · omega
    · exact haddress h.paymentReceiver
    · omega
  · obtain ⟨o, ho, rfl⟩ := List.mem_map.mp hn
    exact haddress (h.owners o ho)

/-- The call, in words. -/
theorem Encodable.call_eq (h : a.Encodable) (lib : ThirdParty) :
    a.call lib = .ok (method lib setupSignature ++ a.encoded) :=
  a.call_ok lib h.owners h.recipient h.paymentToken h.paymentReceiver h.threshold_nonneg
    h.payment_nonneg h.owners_lt

/-! ### Reading the call -/

theorem Encodable.wordAt_front (h : a.Encodable) {i n : Nat} (hi : a.frontWords[i]? = some n) :
    Abi.wordAt a.encoded (32 * i) = n :=
  Abi.wordAt_words_append h.frontWords_lt hi _

theorem Encodable.arrayOffset_encoded (h : a.Encodable) : arrayOffset a.encoded = 7 * 32 :=
  h.wordAt_front (i := 0) rfl

theorem Encodable.arrayCount_encoded (h : a.Encodable) : arrayCount a.encoded = a.owners.length := by
  rw [arrayCount, h.arrayOffset_encoded]
  exact h.wordAt_front (i := 7) rfl

theorem Encodable.dataOffset_encoded (h : a.Encodable) :
    Abi.wordAt a.encoded (3 * 32) = 8 * 32 + 32 * a.owners.length :=
  h.wordAt_front (i := 3) rfl

theorem drop_encoded (a : SetupArguments) :
    a.encoded.drop (8 * 32 + 32 * a.owners.length) = a.back := by
  have hlen : (Abi.words a.frontWords).length = 8 * 32 + 32 * a.owners.length := by
    rw [Abi.length_words, length_frontWords]
    omega
  rw [encoded, ← hlen, List.drop_left]

theorem Encodable.data_lt (h : a.Encodable) : a.data.length < 2 ^ 63 := by
  have hfits := h.fits
  have hback := a.le_length_back
  rw [length_encoded] at hfits
  omega

theorem Encodable.dataLength_encoded (h : a.Encodable) :
    Abi.wordAt a.encoded (8 * 32 + 32 * a.owners.length) = a.data.length := by
  rw [← Nat.add_zero (8 * 32 + _), ← Abi.wordAt_drop, drop_encoded, back, Abi.bytes, List.append_assoc]
  exact Abi.wordAt_word (h.data_lt.trans (by decide)) _

theorem Encodable.data_encoded (h : a.Encodable) :
    Abi.bytesAt a.encoded (8 * 32 + 32 * a.owners.length) = a.data := by
  rw [← Nat.add_zero (8 * 32 + _), ← Abi.bytesAt_drop, drop_encoded]
  exact Abi.bytesAt_bytes (h.data_lt.trans (by decide)) _

theorem Encodable.owners_encoded (h : a.Encodable) :
    Abi.wordsAt a.encoded (itemsOffset a.encoded) (arrayCount a.encoded) =
      a.owners.map Address.toNat := by
  have hoffset : itemsOffset a.encoded = 32 * (a.frontWords.take 8).length := by
    rw [itemsOffset, h.arrayOffset_encoded]
    rfl
  have hlen : 32 * (a.frontWords.take 8).length + 32 * a.owners.length ≤
      (Abi.words a.frontWords).length := by
    rw [← hoffset, itemsOffset, h.arrayOffset_encoded, Abi.length_words, length_frontWords]
    omega
  have hlt : ∀ n ∈ a.frontWords.take 8 ++ a.owners.map Address.toNat ++ [], n < 2 ^ 256 := by
    rw [List.append_nil]
    exact h.frontWords_lt
  have hwords := Abi.wordsAt_words hlt
  rw [List.append_nil, List.length_map] at hwords
  rw [h.arrayCount_encoded, hoffset, encoded, Abi.wordsAt_append hlen]
  exact hwords

theorem Encodable.readable (h : a.Encodable) : SetupReadable a.encoded := by
  have hlen := a.length_encoded
  have hback := a.le_length_back
  have howners := h.owners_lt
  have hdata := h.data_lt
  have hoffset := h.arrayOffset_encoded
  have hcount := h.arrayCount_encoded
  have hint : ∀ {n : Nat}, n < 2 ^ 63 → isInt n = true := by
    intro n hn
    simp only [isInt, Bool.and_eq_true, decide_eq_true_eq]
    omega
  have hthreshold : Abi.wordAt a.encoded 32 = a.threshold.toNat := h.wordAt_front (i := 1) rfl
  have hthresholdInt := h.threshold_isInt
  simp only [isInt, Bool.and_eq_true, decide_eq_true_eq] at hthresholdInt
  exact {
    head := by omega
    threshold := hint (by omega)
    ownersOffset := hint (by omega)
    ownersCount := hint (by omega)
    owners := by
      rw [itemsEnd, itemsOffset, hoffset, hcount]
      omega
    dataOffset := hint (by rw [h.dataOffset_encoded]; exact howners)
    dataLength := hint (by rw [h.dataOffset_encoded, h.dataLength_encoded]; exact hdata)
    data := by
      rw [h.dataOffset_encoded]
      omega }

theorem Encodable.setupArguments_eq (h : a.Encodable) (lib : ThirdParty) :
    setupArguments lib a.encoded = a.normalized := by
  have haddress : ∀ {i : Nat} {b : Address}, b.WellFormed → a.frontWords[i]? = some b.toNat →
      addressOfUInt lib (Abi.wordAt a.encoded (32 * i)) = b.normalized := by
    intro i b hb hi
    rw [h.wordAt_front hi, addressOfUInt_toNat lib hb]
  have howners : (a.owners.map Address.toNat).map (addressOfUInt lib) =
      a.owners.map Address.normalized := by
    rw [List.map_map]
    exact List.map_congr_left fun o ho => addressOfUInt_toNat lib (h.owners o ho)
  have hthreshold : (Abi.wordAt a.encoded 32 : Int) = a.threshold := by
    rw [h.wordAt_front (i := 1) (n := a.threshold.toNat) rfl, Int.toNat_of_nonneg h.threshold_nonneg]
  have hpayment : (Abi.wordAt a.encoded (5 * 32) : Int) = a.payment := by
    rw [h.wordAt_front (i := 5) (n := a.payment.toNat) rfl, Int.toNat_of_nonneg h.payment_nonneg]
  simp only [setupArguments, h.owners_encoded, howners, hthreshold, h.dataOffset_encoded,
    h.data_encoded, hpayment, normalized]
  rw [haddress (i := 2) h.recipient rfl, haddress (i := 4) h.paymentToken rfl,
    haddress (i := 6) h.paymentReceiver rfl]

theorem Encodable.decodeSetup_encoded (h : a.Encodable) (lib : ThirdParty) :
    decodeSetup lib (method lib setupSignature ++ a.encoded) = .ok (some a.normalized) :=
  (decodeSetup_call lib a.encoded _).mpr ⟨h.readable, by rw [h.setupArguments_eq lib]⟩

/-! ### The call says what the arguments are -/

/-- The spelling of the addresses does not matter to the call. -/
theorem Encodable.encoded_normalized (h : a.Encodable) : a.normalized.encoded = a.encoded := by
  have howners : (a.owners.map Address.normalized).map Address.toNat = a.owners.map Address.toNat := by
    rw [List.map_map]
    exact List.map_congr_left fun o ho => (h.owners o ho).toNat_normalized
  have hfront : a.normalized.frontWords = a.frontWords := by
    simp only [frontWords, normalized, howners, List.length_map, h.recipient.toNat_normalized,
      h.paymentToken.toNat_normalized, h.paymentReceiver.toNat_normalized]
  have hback : a.normalized.back = a.back := rfl
  rw [encoded, hfront, hback, encoded]

/-- What is set up is read back, its addresses in lower case, and no other arguments give the same
call. -/
theorem call_readBack {b : SetupArguments} (ha : a.Encodable) (hb : b.Encodable) (lib : ThirdParty) :
    (∃ data, a.call lib = .ok data ∧ decodeSetup lib data = .ok (some a.normalized)) ∧
      (a.call lib = b.call lib ↔ a.normalized = b.normalized) := by
  refine ⟨⟨_, ha.call_eq lib, ha.decodeSetup_encoded lib⟩, ?_⟩
  rw [ha.call_eq lib, hb.call_eq lib]
  constructor
  · intro h
    have hread := ha.decodeSetup_encoded lib
    rw [Except.ok.inj h, hb.decodeSetup_encoded lib] at hread
    exact (Option.some.inj (Except.ok.inj hread)).symm
  · intro h
    rw [← ha.encoded_normalized, h, hb.encoded_normalized]

/-- The set-up of two owners. -/
def twoOwnersSetup (data : Data) : SetupArguments where
  owners := [Address.two, Address.zero]
  threshold := 2
  recipient := Address.zero
  data := data
  paymentToken := Address.zero
  payment := 37074
  paymentReceiver := Address.two

theorem twoOwnersSetup_encodable {data : Data}
    (h : 4 + (twoOwnersSetup data).encoded.length < 2 ^ 63) : (twoOwnersSetup data).Encodable := by
  have hzero : Address.zero.WellFormed := Address.wellFormed_of_digits (by decide)
  have htwo : Address.two.WellFormed := Address.wellFormed_of_digits (by decide)
  exact {
    owners := List.forall_mem_cons.mpr ⟨htwo, List.forall_mem_singleton.mpr hzero⟩
    threshold_nonneg := by simp [twoOwnersSetup]
    threshold_isInt := rfl
    recipient := hzero
    paymentToken := hzero
    payment_nonneg := by simp [twoOwnersSetup]
    payment_lt := by simp [twoOwnersSetup]
    paymentReceiver := htwo
    fits := h }

/-- One byte of data, and none. -/
theorem call_readBack_twoOwners :
    (∃ data, (twoOwnersSetup [7]).call reference = .ok data ∧
      decodeSetup reference data = .ok (some (twoOwnersSetup [7]).normalized)) ∧
      ((twoOwnersSetup [7]).call reference = (twoOwnersSetup []).call reference ↔
        (twoOwnersSetup [7]).normalized = (twoOwnersSetup []).normalized) :=
  call_readBack (twoOwnersSetup_encodable (by decide +kernel))
    (twoOwnersSetup_encodable (by decide +kernel)) reference

end SetupArguments

end GnosisSafeContractProxy

end MultisigWallet
