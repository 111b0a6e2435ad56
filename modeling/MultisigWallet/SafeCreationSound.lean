import MultisigWallet.SetupRoundTrip

/-!
# MultisigWallet.SafeCreationSound

What a validated answer of the relay says: its set-up data is the call of `setup` that was asked
for, read as the contract reads it, and its address is the one the proxy factory will create.

The set-up data of an answer is compared byte by byte, so it is enough to read back what the
wallet itself encodes. All of it is a sequence of words (`setupWords`), the padding of the empty
data included.
-/

namespace MultisigWallet

open EthereumContractProxy

/-! ### Reading a set-up call -/

/-- The arguments of `setup`. -/
structure SetupCall where
  owners : List Nat
  threshold : Nat
  recipient : Nat
  data : Data
  paymentToken : Nat
  payment : Nat
  paymentReceiver : Nat
  deriving DecidableEq, Repr

/-- An ABI decoder for `setup`: offsets are followed, and nothing is read past the end. -/
def SetupCall.decode (selector call : Data) : Option SetupCall :=
  let arguments := call.drop 4
  let ownersOffset := Abi.wordAt arguments 0
  let ownersCount := Abi.wordAt arguments ownersOffset
  let dataOffset := Abi.wordAt arguments (3 * 32)
  if call.take 4 = selector ∧ 7 * 32 ≤ arguments.length ∧
      ownersOffset + 32 + 32 * ownersCount ≤ arguments.length ∧
      dataOffset + 32 + Abi.wordAt arguments dataOffset ≤ arguments.length then
    some
      { owners := Abi.wordsAt arguments (ownersOffset + 32) ownersCount
        threshold := Abi.wordAt arguments 32
        recipient := Abi.wordAt arguments (2 * 32)
        data := Abi.bytesAt arguments dataOffset
        paymentToken := Abi.wordAt arguments (4 * 32)
        payment := Abi.wordAt arguments (5 * 32)
        paymentReceiver := Abi.wordAt arguments (6 * 32) }
  else none

/-- The words of a call with empty data. -/
def SetupCall.words (c : SetupCall) : List Nat :=
  [7 * 32, c.threshold, c.recipient, 8 * 32 + 32 * c.owners.length, c.paymentToken, c.payment,
    c.paymentReceiver, c.owners.length] ++ c.owners ++ [0, 0]

theorem SetupCall.decode_words {c : SetupCall} {selector : Data} (hselector : selector.length = 4)
    (hwords : ∀ n ∈ c.words, n < 2 ^ 256) (hdata : c.data = []) :
    SetupCall.decode selector (selector ++ Abi.words c.words) = some c := by
  have hdrop : (selector ++ Abi.words c.words).drop 4 = Abi.words c.words := by
    rw [← hselector, List.drop_left]
  have htake : (selector ++ Abi.words c.words).take 4 = selector := by
    rw [← hselector, List.take_left]
  have hlen : (Abi.words c.words).length = 32 * (10 + c.owners.length) := by
    rw [Abi.length_words]
    simp [SetupCall.words]
    omega
  -- the words of the head, one after the other
  have hword : ∀ i n, c.words[i]? = some n → Abi.wordAt (Abi.words c.words) (32 * i) = n :=
    fun i n => Abi.wordAt_words hwords
  have hownersOffset : Abi.wordAt (Abi.words c.words) 0 = 7 * 32 := hword 0 _ rfl
  have hthreshold : Abi.wordAt (Abi.words c.words) 32 = c.threshold := hword 1 _ rfl
  have hrecipient : Abi.wordAt (Abi.words c.words) (2 * 32) = c.recipient := hword 2 _ rfl
  have hdataOffset : Abi.wordAt (Abi.words c.words) (3 * 32) = 8 * 32 + 32 * c.owners.length :=
    hword 3 _ rfl
  have hpaymentToken : Abi.wordAt (Abi.words c.words) (4 * 32) = c.paymentToken := hword 4 _ rfl
  have hpayment : Abi.wordAt (Abi.words c.words) (5 * 32) = c.payment := hword 5 _ rfl
  have hpaymentReceiver : Abi.wordAt (Abi.words c.words) (6 * 32) = c.paymentReceiver :=
    hword 6 _ rfl
  have hcount : Abi.wordAt (Abi.words c.words) (7 * 32) = c.owners.length := hword 7 _ rfl
  have howners : Abi.wordsAt (Abi.words c.words) (7 * 32 + 32) c.owners.length = c.owners :=
    Abi.wordsAt_words hwords
  -- the length of the data stands behind the owners
  have hdataLength :
      Abi.wordAt (Abi.words c.words) (8 * 32 + 32 * c.owners.length) = 0 := by
    rw [Nat.mul_comm 8, ← Nat.mul_add]
    refine hword _ _ ?_
    have hfront : ([7 * 32, c.threshold, c.recipient, 8 * 32 + 32 * c.owners.length,
        c.paymentToken, c.payment, c.paymentReceiver, c.owners.length] ++ c.owners).length =
          8 + c.owners.length := by
      rw [List.length_append]
      rfl
    rw [SetupCall.words, ← hfront, List.getElem?_append_right (Nat.le_refl _), Nat.sub_self]
    rfl
  simp only [SetupCall.decode, hdrop, htake, hownersOffset, hthreshold, hrecipient, hdataOffset,
    hpaymentToken, hpayment, hpaymentReceiver, hcount, howners, hdataLength, Abi.bytesAt,
    List.take_zero, hlen]
  rw [if_pos ⟨trivial, by omega, by omega, by omega⟩, ← hdata]

/-! ### What the wallet expects -/

/-- All the addresses of a request are `0x` and 40 digits. -/
structure SafeCreationRequest.WellFormed (request : SafeCreationRequest) : Prop where
  owners : ∀ o ∈ request.owners, (Address.mk o).WellFormed
  paymentToken : (Address.mk request.paymentToken).WellFormed

/-- All the addresses of a response are `0x` and 40 digits. -/
structure SafeCreationResponse.WellFormed (response : SafeCreationResponse) : Prop where
  safe : (Address.mk response.safe).WellFormed
  masterCopy : (Address.mk response.masterCopy).WellFormed
  proxyFactory : (Address.mk response.proxyFactory).WellFormed
  paymentToken : (Address.mk response.paymentToken).WellFormed
  paymentReceiver : (Address.mk response.paymentReceiver).WellFormed

namespace SafeCreationResponseValidator

/-- The call that was asked for. -/
def expectedCall (response : SafeCreationResponse) (request : SafeCreationRequest) : SetupCall where
  owners := request.owners.map fun o => (Address.mk o).toNat
  threshold := request.threshold.toNat
  recipient := 0
  data := []
  paymentToken := (Address.mk request.paymentToken).toNat
  payment := response.payment.toNat
  paymentReceiver := (Address.mk response.paymentReceiver).toNat

variable {lib : ThirdParty} {metadata : SafeContractMetadata} {response : SafeCreationResponse}
  {request : SafeCreationRequest}

theorem expectedCall_lt (hresponse : response.WellFormed) (hrequest : request.WellFormed) :
    ∀ n ∈ (expectedCall response request).words, n < 2 ^ 256 := by
  have haddress : ∀ {a : Address}, a.WellFormed → a.toNat < 2 ^ 256 :=
    fun h => h.toNat_lt.trans (by decide)
  have hpayment := response.payment_isInt
  have hthreshold := request.threshold_le
  have hfit := request.owners_fit
  simp only [isInt, Bool.and_eq_true, decide_eq_true_eq] at hpayment
  intro n hn
  rcases List.mem_append.mp hn with hn | hn
  · rcases List.mem_append.mp hn with hn | hn
    · simp only [expectedCall, List.mem_cons, List.not_mem_nil, or_false, List.length_map] at hn
      rcases hn with rfl | rfl | rfl | rfl | rfl | rfl | rfl | rfl
      · omega
      · omega
      · omega
      · omega
      · exact haddress hrequest.paymentToken
      · omega
      · exact haddress hresponse.paymentReceiver
      · omega
    · obtain ⟨o, ho, rfl⟩ := List.mem_map.mp hn
      exact haddress (hrequest.owners o ho)
  · simp only [List.mem_cons, List.not_mem_nil, or_false, or_self] at hn
    omega

theorem nonneg_of_encodeInt {n : Int} {d : Data}
    (h : GnosisSafeContractProxy.encodeInt lib n = .ok d) : 0 ≤ n := by
  obtain ⟨⟨⟩, hn, -⟩ := bind_ok.mp h
  exact of_decide_eq_true (precondition_ok.mp hn)

theorem mapM_ofString {owners : List Str} (h : ∀ o ∈ owners, (Address.mk o).WellFormed) :
    owners.mapM (Address.ofString lib) = .ok (owners.map Address.mk) :=
  mapM_eq_ok fun o ho => (h o ho).ofString_eq lib

theorem addressZero_wellFormed : Address.zero.WellFormed :=
  Address.wellFormed_of_digits (by decide)

theorem addressZero_toNat : Address.zero.toNat = 0 := by decide

/-- `expectedSetupData` up to the call of `setup`. -/
theorem expectedSetupData_setup (hresponse : response.WellFormed) (hrequest : request.WellFormed) :
    expectedSetupData lib response request =
      GnosisSafeContractProxy.setup lib (request.owners.map Address.mk) request.threshold
        Address.zero [] ⟨request.paymentToken⟩ response.payment ⟨response.paymentReceiver⟩ := by
  have hpaymentToken : Address.ofString lib request.paymentToken = .ok ⟨request.paymentToken⟩ :=
    hrequest.paymentToken.ofString_eq lib
  have hpaymentReceiver :
      Address.ofString lib response.paymentReceiver = .ok ⟨response.paymentReceiver⟩ :=
    hresponse.paymentReceiver.ofString_eq lib
  rw [expectedSetupData, mapM_ofString hrequest.owners, hpaymentToken, hpaymentReceiver]
  rfl

/-- The expected data is the call that was asked for. -/
theorem expectedSetupData_eq (hresponse : response.WellFormed) (hrequest : request.WellFormed)
    (hpayment : 0 ≤ response.payment) :
    expectedSetupData lib response request =
      .ok (method lib GnosisSafeContractProxy.setupSignature ++
        Abi.words (expectedCall response request).words) := by
  have hthreshold : 0 ≤ request.threshold := by
    have := request.one_le_threshold
    omega
  have hfit := request.owners_fit
  have howners : ∀ o ∈ request.owners.map Address.mk, o.WellFormed := by
    intro o ho
    obtain ⟨value, hvalue, rfl⟩ := List.mem_map.mp ho
    exact hrequest.owners value hvalue
  have hcall := GnosisSafeContractProxy.SetupArguments.call_ok
    ⟨request.owners.map Address.mk, request.threshold, Address.zero, [], ⟨request.paymentToken⟩,
      response.payment, ⟨response.paymentReceiver⟩⟩
    lib howners addressZero_wellFormed hrequest.paymentToken hresponse.paymentReceiver hthreshold
    hpayment (by rw [List.length_map]; omega)
  rw [expectedSetupData_setup hresponse hrequest]
  refine hcall.trans ?_
  -- empty data is two words: its length and its padding
  have hback : Abi.bytes [] ++ Abi.word 0 = Abi.words [0, 0] := rfl
  simp only [GnosisSafeContractProxy.SetupArguments.encoded,
    GnosisSafeContractProxy.SetupArguments.frontWords, GnosisSafeContractProxy.SetupArguments.back,
    List.isEmpty_nil, if_true, hback, SetupCall.words, expectedCall, List.length_map, List.map_map,
    addressZero_toNat, ← Abi.words_append]
  rfl

/-- There is no expected data for a negative payment. -/
theorem nonneg_of_expectedSetupData {data : Data}
    (h : expectedSetupData lib response request = .ok data) : 0 ≤ response.payment := by
  obtain ⟨owners, -, h⟩ := bind_ok.mp h
  obtain ⟨paymentToken, -, h⟩ := bind_ok.mp h
  obtain ⟨paymentReceiver, -, h⟩ := bind_ok.mp h
  obtain ⟨threshold, -, h⟩ := bind_ok.mp h
  simp only at h
  split at h
  · obtain ⟨offset, -, h⟩ := bind_ok.mp h
    obtain ⟨payment, hpayment, -⟩ := bind_ok.mp h
    exact nonneg_of_encodeInt hpayment
  · cases h

/-- The call that was asked for is read from the expected data. -/
theorem decode_expectedSetupData (hresponse : response.WellFormed) (hrequest : request.WellFormed)
    {data : Data} (hpayment : 0 ≤ response.payment)
    (h : expectedSetupData lib response request = .ok data) :
    SetupCall.decode (method lib GnosisSafeContractProxy.setupSignature) data =
      some (expectedCall response request) := by
  obtain rfl := Except.ok.inj ((expectedSetupData_eq hresponse hrequest hpayment).symm.trans h)
  exact SetupCall.decode_words (length_method lib _) (expectedCall_lt hresponse hrequest) rfl

/-! ### The address -/

/-- The address `CREATE2` gives to a contract. -/
def create2 (hash : Data → Data) (factory : Nat) (salt initCode : Data) : Nat :=
  Bytes.toNat ((hash ([0xff] ++ Bytes.ofNat 20 factory ++ salt ++ hash initCode)).drop 12)

/-- The bytes of a well-formed address. -/
theorem dataHex_address (hlib : lib.Documented) {a : Address} (ha : a.WellFormed) :
    lib.dataHex a.value = Bytes.ofNat 20 a.toNat := by
  obtain ⟨s, hs, hlen, hdigits⟩ := ha
  have heven : s.length % 2 = 0 := by omega
  rw [hs, hlib.dataHex_mark s hdigits heven]
  refine Bytes.eq_ofNat (by rw [Bytes.length_ofHex, hlen]) ?_
  rw [Bytes.toNat_ofHex heven, Address.WellFormed.toNat_eq hs]

/-- A valid master copy has deployment code. -/
theorem deploymentCode_of_valid (lib : ThirdParty) {a : Address} (h : metadata.isValidMasterCopy a = true) :
    ∃ code, metadata.deploymentCode lib a = some code := by
  obtain ⟨c, hc, hsame⟩ := List.any_eq_true.mp h
  have hfind : (metadata.find a).isSome := List.find?_isSome.mpr ⟨c, hc, hsame⟩
  obtain ⟨c', hc'⟩ := Option.isSome_iff_exists.mp hfind
  exact ⟨_, by rw [SafeContractMetadata.deploymentCode, hc']; rfl⟩

theorem address_eq (hlib : lib.Documented) (hfactory : metadata.proxyFactoryAddress.WellFormed)
    (hresponse : response.WellFormed) {n : Nat} (hn : request.saltNonce = Nat.toDigits 10 n)
    {initCode : Data} (hcode : metadata.deploymentCode lib ⟨response.masterCopy⟩ = some initCode) :
    ∃ a : Address, address lib metadata response request = .ok a ∧ a.WellFormed ∧
      a.toNat = create2 lib.hashSHA3_256 metadata.proxyFactoryAddress.toNat
        (lib.hashSHA3_256 (lib.hashSHA3_256 (response.setupDataValue lib) ++ Abi.word n))
        initCode := by
  have hnonce : lib.bigUInt request.saltNonce = some n := hn ▸ hlib.bigUInt_decimal n
  have hmaster : Address.ofString lib response.masterCopy = .ok ⟨response.masterCopy⟩ :=
    hresponse.masterCopy.ofString_eq lib
  have hinit := dataHex_address hlib hfactory
  generalize hsalt : lib.hashSHA3_256
    (lib.hashSHA3_256 (response.setupDataValue lib) ++ Abi.word n) = salt
  have hsaltLength : salt.length = 32 := hsalt ▸ lib.length_hash _
  have hpreimage : ([0xff] ++ Bytes.ofNat 20 metadata.proxyFactoryAddress.toNat ++ salt ++
      lib.hashSHA3_256 initCode).length = 85 := by
    simp only [List.length_append, Bytes.length_ofNat, hsaltLength, lib.length_hash]
    rfl
  generalize hpre : [0xff] ++ Bytes.ofNat 20 metadata.proxyFactoryAddress.toNat ++ salt ++
      lib.hashSHA3_256 initCode = preimage at hpreimage
  have hlength : ((lib.hashSHA3_256 preimage).drop 12).length = 20 := by
    rw [List.length_drop, lib.length_hash]
  have htake : ((lib.hashSHA3_256 preimage).drop 12).take 20 = (lib.hashSHA3_256 preimage).drop 12 :=
    List.take_of_length_le (by rw [hlength])
  refine ⟨Address.ofData ((lib.hashSHA3_256 preimage).drop 12), ?_, Address.wellFormed_ofData hlength, ?_⟩
  · have hstring : Address.ofString lib (hexMark ++ Bytes.toHex ((lib.hashSHA3_256 preimage).drop 12)) =
        .ok (Address.ofData ((lib.hashSHA3_256 preimage).drop 12)) :=
      (Address.wellFormed_ofData hlength).ofString_eq lib
    simp only [address, hnonce, unwrap_some, encodeUInt_eq, hsalt, hmaster, hcode, hinit, hpre,
      htake, hstring, precondition, hsaltLength, Bytes.length_ofNat, hpreimage, beq_self_eq_true,
      if_true, bind, Except.bind]
  · rw [Address.toNat_ofData, create2, hpre]

/-! ### Validation -/

/-- What the response has to agree with before its set-up data is looked at. -/
def PartiesValid (metadata : SafeContractMetadata) (response : SafeCreationResponse)
    (request : SafeCreationRequest) : Prop :=
  response.paymentToken = request.paymentToken ∧
    metadata.isValidMasterCopy ⟨response.masterCopy⟩ = true ∧
    metadata.isValidProxyFactory ⟨response.proxyFactory⟩ = true ∧
    metadata.isValidPaymentRecevier ⟨response.paymentReceiver⟩ = true

theorem validateParties_eq (lib : ThirdParty) (metadata : SafeContractMetadata)
    (request : SafeCreationRequest) (hresponse : response.WellFormed) :
    ∃ result, validateParties lib metadata response request = .ok result ∧
      (result = .ok () ↔ PartiesValid metadata response request) := by
  have hmaster : Address.ofString lib response.masterCopy = .ok ⟨response.masterCopy⟩ :=
    hresponse.masterCopy.ofString_eq lib
  have hfactory : Address.ofString lib response.proxyFactory = .ok ⟨response.proxyFactory⟩ :=
    hresponse.proxyFactory.ofString_eq lib
  have hreceiver : Address.ofString lib response.paymentReceiver = .ok ⟨response.paymentReceiver⟩ :=
    hresponse.paymentReceiver.ofString_eq lib
  unfold validateParties PartiesValid
  simp only [hmaster, hfactory, hreceiver, bind, Except.bind, pure, Except.pure]
  by_cases h₁ : response.paymentToken = request.paymentToken
  · by_cases h₂ : metadata.isValidMasterCopy ⟨response.masterCopy⟩ = true
    · by_cases h₃ : metadata.isValidProxyFactory ⟨response.proxyFactory⟩ = true
      · by_cases h₄ : metadata.isValidPaymentRecevier ⟨response.paymentReceiver⟩ = true
        · exact ⟨.ok (), by simp [h₁, h₂, h₃, h₄], by simp [h₁, h₂, h₃, h₄]⟩
        · exact ⟨.error .invalidPaymentReceiver, by simp [h₁, h₂, h₃, h₄], by simp [h₄]⟩
      · exact ⟨.error .invalidProxyFactory, by simp [h₁, h₂, h₃], by simp [h₃]⟩
    · exact ⟨.error .invalidMasterCopy, by simp [h₁, h₂], by simp [h₂]⟩
  · exact ⟨.error .invalidPaymentToken, by simp [h₁], by simp [h₁]⟩

/-- What a validated response says. -/
structure Sound (lib : ThirdParty) (metadata : SafeContractMetadata)
    (response : SafeCreationResponse) (request : SafeCreationRequest) : Prop where
  /-- Its set-up data is the call that was asked for, with the payment it names. -/
  setup : SetupCall.decode (method lib GnosisSafeContractProxy.setupSignature)
    (response.setupDataValue lib) = some (expectedCall response request)
  threshold : ((expectedCall response request).threshold : Int) = request.threshold
  payment : ((expectedCall response request).payment : Int) = response.payment
  /-- Its address is the one the proxy factory creates. -/
  address : ∃ n initCode, request.saltNonce = Nat.toDigits 10 n ∧
    metadata.deploymentCode lib ⟨response.masterCopy⟩ = some initCode ∧
    (Address.mk response.safe).toNat =
      create2 lib.hashSHA3_256 metadata.proxyFactoryAddress.toNat
        (lib.hashSHA3_256 (lib.hashSHA3_256 (response.setupDataValue lib) ++ Abi.word n)) initCode

/-- The steps of a validation that returns. -/
theorem validate_ok {result : Except SafeCreationValidationError Unit}
    (hresponse : response.WellFormed)
    (h : validate lib metadata response request = .ok result) :
    ¬ PartiesValid metadata response request ∧ result ≠ .ok () ∨
      ∃ data, PartiesValid metadata response request ∧
        expectedSetupData lib response request = .ok data ∧
        (result = .ok () → response.setupDataValue lib = data ∧
          ∃ a, address lib metadata response request = .ok a ∧
            lowercased response.safe = lowercased a.value) := by
  obtain ⟨parties, hparties, hvalid⟩ := validateParties_eq lib metadata request hresponse
  obtain ⟨parties', hparties', h⟩ := bind_ok.mp h
  obtain rfl := Except.ok.inj (hparties.symm.trans hparties')
  cases parties with
  | error error =>
      obtain rfl := Except.ok.inj h
      refine .inl ⟨?_, nofun⟩
      intro hp
      cases hvalid.mpr hp
  | ok u =>
      obtain ⟨data, hdata, h⟩ := bind_ok.mp h
      refine .inr ⟨data, hvalid.mp rfl, hdata, ?_⟩
      rintro rfl
      split at h
      · rename_i hsetup
        obtain ⟨safe, hsafe, h⟩ := bind_ok.mp h
        obtain rfl := Address.ofString_ok hsafe
        obtain ⟨a, ha, h⟩ := bind_ok.mp h
        split at h
        · rename_i hsame
          exact ⟨hsetup, a, ha, hsame⟩
        · cases Except.ok.inj h
      · cases Except.ok.inj h

/-- A validation returns if the parties are not valid, or if the payment is not negative. -/
theorem validate_total (hlib : lib.Documented)
    (hfactory : metadata.proxyFactoryAddress.WellFormed) (hresponse : response.WellFormed)
    (hrequest : request.WellFormed)
    (h : PartiesValid metadata response request → 0 ≤ response.payment) :
    ∃ result, validate lib metadata response request = .ok result := by
  obtain ⟨parties, hparties, hvalid⟩ := validateParties_eq lib metadata request hresponse
  rw [validate, hparties]
  cases parties with
  | error error => exact ⟨_, rfl⟩
  | ok u =>
      have hp := hvalid.mp rfl
      obtain ⟨n, hn⟩ := request.saltNonce_decimal
      obtain ⟨initCode, hcode⟩ := deploymentCode_of_valid lib hp.2.1
      obtain ⟨a, ha, -⟩ := address_eq hlib hfactory hresponse hn hcode
      have hsafe : Address.ofString lib response.safe = .ok ⟨response.safe⟩ :=
        hresponse.safe.ofString_eq lib
      simp only [expectedSetupData_eq hresponse hrequest (h hp), hsafe, ha, bind, Except.bind, pure,
        Except.pure]
      split
      · split
        · exact ⟨_, rfl⟩
        · exact ⟨_, rfl⟩
      · exact ⟨_, rfl⟩

/-- What is claimed of a response and a request: validating does not trap, a response that
passes is sound, and it passes for no other owners and for no other threshold. -/
structure Checked (lib : ThirdParty) (metadata : SafeContractMetadata)
    (response : SafeCreationResponse) (request : SafeCreationRequest) : Prop where
  total : ∃ result, validate lib metadata response request = .ok result
  sound : validate lib metadata response request = .ok (.ok ()) →
    Sound lib metadata response request
  unique : ∀ request' : SafeCreationRequest, request'.WellFormed →
    validate lib metadata response request = .ok (.ok ()) →
    validate lib metadata response request' = .ok (.ok ()) →
      (request.owners.map fun o => (Address.mk o).toNat) =
          (request'.owners.map fun o => (Address.mk o).toNat) ∧
        request.threshold = request'.threshold

theorem sound_of_validate (hlib : lib.Documented)
    (hfactory : metadata.proxyFactoryAddress.WellFormed) (hresponse : response.WellFormed)
    (hrequest : request.WellFormed)
    (h : validate lib metadata response request = .ok (.ok ())) :
    Sound lib metadata response request := by
  rcases validate_ok hresponse h with ⟨-, hne⟩ | ⟨data, hp, hdata, hok⟩
  · exact absurd rfl hne
  · obtain ⟨hsetup, a, ha, hsame⟩ := hok rfl
    have hpayment := nonneg_of_expectedSetupData hdata
    have hthreshold := request.one_le_threshold
    obtain ⟨n, hn⟩ := request.saltNonce_decimal
    obtain ⟨initCode, hcode⟩ := deploymentCode_of_valid lib hp.2.1
    obtain ⟨a', ha', hwell, hcreate⟩ := address_eq hlib hfactory hresponse hn hcode
    obtain rfl := Except.ok.inj (ha.symm.trans ha')
    refine ⟨?_, ?_, ?_, n, initCode, hn, hcode, ?_⟩
    · rw [hsetup]
      exact decode_expectedSetupData hresponse hrequest hpayment hdata
    · exact Int.toNat_of_nonneg (by omega)
    · exact Int.toNat_of_nonneg hpayment
    · rw [← hcreate]
      refine (Address.normalized_eq_iff hresponse.safe hwell).mp ?_
      exact congrArg Address.mk hsame

/-- A response is checked soundly, unless its payment is negative and the parties are valid:
then the validation traps. -/
theorem checked_iff (hlib : lib.Documented)
    (hfactory : metadata.proxyFactoryAddress.WellFormed) (hresponse : response.WellFormed)
    (hrequest : request.WellFormed) :
    Checked lib metadata response request ↔
      (PartiesValid metadata response request → 0 ≤ response.payment) := by
  constructor
  · intro h hp
    obtain ⟨result, hresult⟩ := h.total
    rcases validate_ok hresponse hresult with ⟨hnot, -⟩ | ⟨data, -, hdata, -⟩
    · exact absurd hp hnot
    · exact nonneg_of_expectedSetupData hdata
  · intro h
    refine ⟨validate_total hlib hfactory hresponse hrequest h,
      sound_of_validate hlib hfactory hresponse hrequest, ?_⟩
    -- both requests read their owners from the same data
    intro request' hrequest' hvalid hvalid'
    have hsound := sound_of_validate hlib hfactory hresponse hrequest hvalid
    have hsound' := sound_of_validate hlib hfactory hresponse hrequest' hvalid'
    have hcall := Option.some.inj (hsound.setup.symm.trans hsound'.setup)
    refine ⟨congrArg SetupCall.owners hcall, ?_⟩
    rw [← hsound.threshold, ← hsound'.threshold, hcall]

/-! ### A response of the relay -/

/-- A master copy with one byte of proxy code, and its proxy factory. -/
def oneMasterCopy : SafeContractMetadata where
  multiSendContractAddress := Address.zero
  proxyFactoryAddress := ⟨"0x12302fE9c02ff50939BaAaaf415fc226C078613C".toList⟩
  safeFunderAddress := ⟨"0xd9e09beaEb338d81a7c5688358df0071d4988115".toList⟩
  metadata := [
    { address := ⟨"0xb6029EA3B2c51D09a50B53CA8012FeEB05bDa35A".toList⟩
      txTypeHash := EncryptionService.defaultTxTypeHash
      domainSeparatorHash := EncryptionService.defaultDomainSeparatorTypeHash
      proxyCode := [0x60]
      length_txTypeHash := rfl
      length_domainSeparatorHash := rfl }]

/-- A request for two owners and a threshold of two. -/
def twoOwners : SafeCreationRequest where
  saltNonce := ['1']
  owners := ["0x8E70F49bdfaBD36Da93f5Bab1B7170A49D3fD3f9".toList,
    "0x72E3d79B0eED7d4996bEf38acFD700f45A0dF16e".toList]
  threshold := 2
  paymentToken := "0xb3a4Bc89d8517E0e2C9B66703d09D3029ffa1e6d".toList
  saltNonce_decimal := ⟨1, by decide⟩
  one_le_threshold := by decide
  threshold_le := by decide
  owners_fit := by decide

/-- The response to it, with some payment. -/
def relayResponse (payment : Int) (h : isInt payment = true) : SafeCreationResponse where
  safe := "0x5b9A4a6a5ce8eec991f3f585bc7ca42372cfbc53".toList
  masterCopy := "0xb6029EA3B2c51D09a50B53CA8012FeEB05bDa35A".toList
  proxyFactory := "0x12302fE9c02ff50939BaAaaf415fc226C078613C".toList
  paymentToken := "0xb3a4Bc89d8517E0e2C9B66703d09D3029ffa1e6d".toList
  payment := payment
  paymentReceiver := Address.zero.value
  setupData := hexMark ++ Bytes.toHex ([0xa9, 0x7a, 0xb1, 0x8a] ++ Abi.words
    [224, 2, 0, 320, 0xb3a4bc89d8517e0e2c9b66703d09d3029ffa1e6d, 18537, 0, 2,
      0x8e70f49bdfabd36da93f5bab1b7170a49d3fd3f9, 0x72e3d79b0eed7d4996bef38acfd700f45a0df16e, 0, 0])
  payment_isInt := h

theorem twoOwners_wellFormed : twoOwners.WellFormed where
  owners := by
    intro o ho
    simp only [twoOwners, List.mem_cons, List.not_mem_nil, or_false] at ho
    rcases ho with rfl | rfl
    · exact Address.wellFormed_of_digits (by decide +kernel)
    · exact Address.wellFormed_of_digits (by decide +kernel)
  paymentToken := Address.wellFormed_of_digits (by decide +kernel)

theorem relayResponse_wellFormed (payment : Int) (h : isInt payment = true) :
    (relayResponse payment h).WellFormed where
  safe := Address.wellFormed_of_digits
    (a := ⟨"0x5b9A4a6a5ce8eec991f3f585bc7ca42372cfbc53".toList⟩) (by decide +kernel)
  masterCopy := Address.wellFormed_of_digits
    (a := ⟨"0xb6029EA3B2c51D09a50B53CA8012FeEB05bDa35A".toList⟩) (by decide +kernel)
  proxyFactory := Address.wellFormed_of_digits
    (a := ⟨"0x12302fE9c02ff50939BaAaaf415fc226C078613C".toList⟩) (by decide +kernel)
  paymentToken := Address.wellFormed_of_digits
    (a := ⟨"0xb3a4Bc89d8517E0e2C9B66703d09D3029ffa1e6d".toList⟩) (by decide +kernel)
  paymentReceiver := addressZero_wellFormed

theorem checked_iff_relayResponse :
    validate reference oneMasterCopy (relayResponse 18537 (by decide)) twoOwners = .ok (.ok ()) ∧
      Sound reference oneMasterCopy (relayResponse 18537 (by decide)) twoOwners := by
  have hvalid : validate reference oneMasterCopy (relayResponse 18537 (by decide)) twoOwners =
      .ok (.ok ()) := by
    decide +kernel
  have hchecked : Checked reference oneMasterCopy (relayResponse 18537 (by decide)) twoOwners :=
    (checked_iff reference_documented (Address.wellFormed_of_digits (by decide +kernel))
      (relayResponse_wellFormed 18537 (by decide)) twoOwners_wellFormed).mpr fun _ => by decide
  exact ⟨hvalid, hchecked.sound hvalid⟩

/-- A negative payment stops the process. -/
theorem not_checked_negativePayment :
    (relayResponse (-1) (by decide)).WellFormed ∧ twoOwners.WellFormed ∧
      validate reference oneMasterCopy (relayResponse (-1) (by decide)) twoOwners =
        .error (.preconditionFailure "BigUInt(value)") ∧
      ¬ Checked reference oneMasterCopy (relayResponse (-1) (by decide)) twoOwners := by
  have htrap : validate reference oneMasterCopy (relayResponse (-1) (by decide)) twoOwners =
      .error (.preconditionFailure "BigUInt(value)") := by
    decide +kernel
  refine ⟨relayResponse_wellFormed _ _, twoOwners_wellFormed, htrap, ?_⟩
  intro h
  obtain ⟨result, hresult⟩ := h.total
  rw [htrap] at hresult
  cases hresult

end SafeCreationResponseValidator

end MultisigWallet
