import MultisigWallet.ContractRoundTrip
import MultisigWallet.Lib.Decimal
import MultisigWallet.SafeCreationSound

/-!
# MultisigWallet.SaltNonce

The random number a new Safe is made with. It is documented as a uint256 and drawn below `2 ^ 256 + 1`,
so it can be `2 ^ 256`. The relay gets it as a decimal string; the validator reads the string again
and hashes the number in 32 bytes, of which the largest number loses its only digit.
-/

namespace MultisigWallet

/-- `BigUInt.randomInteger(lessThan:)`: some number below the limit. -/
structure RandomIntegers where
  randomInteger : Nat → Nat
  lt : ∀ limit, 0 < limit → randomInteger limit < limit

namespace EncryptionService

/-- `randomSaltNonce()`. -/
def randomSaltNonce (random : RandomIntegers) : Nat := random.randomInteger (2 ^ 256 + 1)

theorem randomSaltNonce_le (random : RandomIntegers) : randomSaltNonce random ≤ 2 ^ 256 :=
  Nat.lt_succ_iff.mp (random.lt _ (Nat.succ_pos _))

/-- A source of random integers that gives `nonce` below every limit above it. -/
def drawing (nonce : Nat) : RandomIntegers where
  randomInteger limit := min nonce (limit - 1)
  lt limit hlimit := by omega

/-- Every number up to `2 ^ 256` can be drawn. -/
theorem randomSaltNonce_drawing {nonce : Nat} (h : nonce ≤ 2 ^ 256) :
    randomSaltNonce (drawing nonce) = nonce :=
  Nat.min_eq_left h

end EncryptionService

/-- The request that is made when `nonce` is drawn. -/
def SafeCreationRequest.withSaltNonce (request : SafeCreationRequest) (nonce : Nat) :
    SafeCreationRequest :=
  { request with saltNonce := Nat.toDigits 10 nonce, saltNonce_decimal := ⟨nonce, rfl⟩ }

namespace SafeCreationResponseValidator

open EthereumContractProxy EncryptionService

/-- What `address(from:request:)` hashes to the salt. -/
def saltPreimage (lib : ThirdParty) (response : SafeCreationResponse)
    (request : SafeCreationRequest) : Except Trap Data := do
  let saltNonce ← unwrap "BigUInt(request.saltNonce)" (lib.bigUInt request.saltNonce)
  return lib.hashSHA3_256 (response.setupDataValue lib) ++ encodeUInt lib saltNonce

/-- The salt. -/
def salt (lib : ThirdParty) (response : SafeCreationResponse) (request : SafeCreationRequest) :
    Except Trap Data := do
  let preimage ← saltPreimage lib response request
  return lib.hashSHA3_256 preimage

/-- The rest of `address(from:request:)`. -/
def addressOfSalt (lib : ThirdParty) (metadata : SafeContractMetadata)
    (response : SafeCreationResponse) (salt : Data) : Except Trap Address := do
  precondition (salt.length == 32) "Salt must be always 32 bytes"
  let masterCopy ← Address.ofString lib response.masterCopy
  let initCode ← unwrap "repository.deploymentCode(masterCopyAddress: response.masterCopyAddress)"
    (metadata.deploymentCode lib masterCopy)
  let initAddress := lib.dataHex metadata.proxyFactoryAddress.value
  precondition (initAddress.length == 20) "Init address must always be 20 bytes"
  let preimage := [0xff] ++ initAddress ++ salt ++ lib.hashSHA3_256 initCode
  precondition (preimage.length == 85) "Preimage must always be 85 bytes"
  Address.ofString lib (hexMark ++ Bytes.toHex (((lib.hashSHA3_256 preimage).drop 12).take 20))

/-- The address is computed from the salt. -/
theorem address_eq_salt (lib : ThirdParty) (metadata : SafeContractMetadata)
    (response : SafeCreationResponse) (request : SafeCreationRequest) :
    address lib metadata response request =
      salt lib response request >>= addressOfSalt lib metadata response := by
  unfold address salt saltPreimage
  cases lib.bigUInt request.saltNonce <;> rfl

/-! ### What a nonce denotes -/

/-- The nonce survives the way into the salt. -/
structure Survives (lib : ThirdParty) (response : SafeCreationResponse)
    (request : SafeCreationRequest) (nonce : Nat) : Prop where
  length_word : (encodeUInt lib nonce).length = 32
  decoded : decodeUInt (encodeUInt lib nonce) = nonce
  /-- The word that is hashed and the string that is sent denote one number. -/
  same : ∃ word : Data, saltPreimage lib response (request.withSaltNonce nonce) =
      .ok (lib.hashSHA3_256 (response.setupDataValue lib) ++ word) ∧
    Bytes.toNat word = Decimal.value (request.withSaltNonce nonce).saltNonce

/-- The hash tells apart what is hashed to the salts of one set-up call. -/
def CollisionFree (lib : ThirdParty) (response : SafeCreationResponse) : Prop :=
  ∀ word word' : Data, word.length = 32 → word'.length = 32 →
    lib.hashSHA3_256 (lib.hashSHA3_256 (response.setupDataValue lib) ++ word) =
      lib.hashSHA3_256 (lib.hashSHA3_256 (response.setupDataValue lib) ++ word') →
    word = word'

/-- Two nonces are hashed differently, and have different salts unless the hash collides. -/
structure Distinct (lib : ThirdParty) (response : SafeCreationResponse)
    (request : SafeCreationRequest) (nonce nonce' : Nat) : Prop where
  preimages : saltPreimage lib response (request.withSaltNonce nonce) ≠
    saltPreimage lib response (request.withSaltNonce nonce')
  salts : CollisionFree lib response →
    salt lib response (request.withSaltNonce nonce) ≠ salt lib response (request.withSaltNonce nonce')

variable {lib : ThirdParty} {response : SafeCreationResponse} {request : SafeCreationRequest}
  {nonce nonce' : Nat}

theorem saltPreimage_eq (hlib : lib.Documented) :
    saltPreimage lib response (request.withSaltNonce nonce) =
      .ok (lib.hashSHA3_256 (response.setupDataValue lib) ++ Abi.word nonce) := by
  rw [saltPreimage, SafeCreationRequest.withSaltNonce, hlib.bigUInt_decimal, ← encodeUInt_eq lib]
  rfl

theorem salt_eq (hlib : lib.Documented) :
    salt lib response (request.withSaltNonce nonce) =
      .ok (lib.hashSHA3_256
        (lib.hashSHA3_256 (response.setupDataValue lib) ++ Abi.word nonce)) := by
  rw [salt, saltPreimage_eq hlib]
  rfl

/-- The word of a number denotes the number modulo `2 ^ 256`. -/
theorem decodeUInt_encodeUInt (lib : ThirdParty) (nonce : Nat) :
    decodeUInt (encodeUInt lib nonce) = nonce % 2 ^ 256 := by
  rw [decodeUInt, encodeUInt_eq, if_neg (by rw [Abi.length_word]; decide), Abi.word, Bytes.toNat_ofNat]
  norm_num

theorem survives_iff (hlib : lib.Documented) :
    Survives lib response request nonce ↔ nonce < 2 ^ 256 := by
  constructor
  · intro h
    rw [← h.decoded, decodeUInt_encodeUInt]
    exact Nat.mod_lt _ (by decide)
  · intro h
    refine ⟨by rw [encodeUInt_eq, Abi.length_word], ?_, Abi.word nonce, saltPreimage_eq hlib, ?_⟩
    · rw [decodeUInt_encodeUInt, Nat.mod_eq_of_lt h]
    · rw [← encodeUInt_eq lib, toNat_encodeUInt lib h, SafeCreationRequest.withSaltNonce,
        Decimal.value_toDigits]

theorem distinct_of_ne (hlib : lib.Documented) (h : nonce < 2 ^ 256) (h' : nonce' < 2 ^ 256)
    (hne : nonce ≠ nonce') : Distinct lib response request nonce nonce' := by
  have hword : Abi.word nonce ≠ Abi.word nonce' := fun heq => hne (Abi.word_inj h h' heq)
  constructor
  · rw [saltPreimage_eq hlib, saltPreimage_eq hlib]
    intro heq
    exact hword (List.append_cancel_left (Except.ok.inj heq))
  · intro hfree
    rw [salt_eq hlib, salt_eq hlib]
    intro heq
    exact hword (hfree _ _ (Abi.length_word nonce) (Abi.length_word nonce') (Except.ok.inj heq))

/-- Nonces that are drawn survive and are told apart exactly if none of them is `2 ^ 256`. -/
theorem saltNonce_iff (hlib : lib.Documented) (response : SafeCreationResponse)
    (request : SafeCreationRequest) (random random' : RandomIntegers) :
    (Survives lib response request (randomSaltNonce random) ∧
        Survives lib response request (randomSaltNonce random') ∧
        (randomSaltNonce random ≠ randomSaltNonce random' →
          Distinct lib response request (randomSaltNonce random) (randomSaltNonce random'))) ↔
      randomSaltNonce random ≠ 2 ^ 256 ∧ randomSaltNonce random' ≠ 2 ^ 256 := by
  have hlt : ∀ random, randomSaltNonce random < 2 ^ 256 ↔ randomSaltNonce random ≠ 2 ^ 256 :=
    fun random => (randomSaltNonce_le random).lt_iff_ne
  rw [survives_iff hlib, survives_iff hlib, ← hlt, ← hlt]
  constructor
  · intro h
    exact ⟨h.1, h.2.1⟩
  · intro h
    exact ⟨h.1, h.2, distinct_of_ne hlib h.1 h.2⟩

/-- Zero and the largest uint256 are drawn. -/
theorem saltNonce_iff_largest :
    Survives reference (relayResponse 0 (by decide)) twoOwners
        (randomSaltNonce (drawing (2 ^ 256 - 1))) ∧
      (randomSaltNonce (drawing 0) ≠ randomSaltNonce (drawing (2 ^ 256 - 1)) →
        Distinct reference (relayResponse 0 (by decide)) twoOwners (randomSaltNonce (drawing 0))
          (randomSaltNonce (drawing (2 ^ 256 - 1)))) :=
  ((saltNonce_iff reference_documented (relayResponse 0 (by decide)) twoOwners (drawing 0)
    (drawing (2 ^ 256 - 1))).mpr ⟨by decide +kernel, by decide +kernel⟩).2

/-- The largest number that can be drawn is hashed like zero. -/
theorem not_survives_limit :
    randomSaltNonce (drawing (2 ^ 256)) = 2 ^ 256 ∧
      decodeUInt (encodeUInt reference (2 ^ 256)) = 0 ∧
      salt reference (relayResponse 0 (by decide)) (twoOwners.withSaltNonce (2 ^ 256)) =
        salt reference (relayResponse 0 (by decide)) (twoOwners.withSaltNonce 0) ∧
      ¬ Survives reference (relayResponse 0 (by decide)) twoOwners (2 ^ 256) := by
  have hzero : decodeUInt (encodeUInt reference (2 ^ 256)) = 0 := by
    rw [decodeUInt_encodeUInt, Nat.mod_self]
  have hword : Abi.word (2 ^ 256) = Abi.word 0 := by decide +kernel
  refine ⟨randomSaltNonce_drawing le_rfl, hzero, ?_, fun h => ?_⟩
  · rw [salt_eq reference_documented, salt_eq reference_documented, hword]
  · exact absurd (hzero.symm.trans h.decoded) (by decide)

end SafeCreationResponseValidator

end MultisigWallet
