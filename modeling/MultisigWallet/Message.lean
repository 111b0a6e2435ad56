import MultisigWallet.Encryption

/-!
# MultisigWallet.Message

Push messages. A notification arrives as a dictionary whose values are whatever the
sender put there; each message type has a failable initialiser that reads its fields, and
`Message.create` tries the types in turn.

The initialisers only check that a field parses. Whether the numbers make sense together
is left to the handlers.
-/

namespace MultisigWallet

/-- A notification's dictionary: `userInfo[key] as? String`, for every key. -/
abbrev UserInfo := String → Option Str

/-! ### Parsing fields -/

/-- The digits of an `Int`. -/
def digitsOfString (s : Str) : Option Nat :=
  if s ≠ [] ∧ s.all Char.isDigit then some (Nat.ofDigitChars 10 s 0) else none

/-- `Int(_: String)`: an optional sign and decimal digits, within 64 bits. -/
def intOfString (s : Str) : Option Int :=
  let value : Option Int :=
    match s with
    | '-' :: digits => (digitsOfString digits).map fun n => -(n : Int)
    | '+' :: digits => (digitsOfString digits).map fun n => (n : Int)
    | digits => (digitsOfString digits).map fun n => (n : Int)
  value.filter isInt

/-- `Address.init?(rawValue:)`. The mark `0x` is not required, and what follows the 42nd
character is cut off. -/
def Address.ofRawValue (lib : ThirdParty) (rawValue : Str) : Option Address :=
  let value := (trimmed rawValue).take 42
  let noPrefix := if hexMark <+: value then value.drop 2 else value
  if (lib.bigInt noPrefix 16).isNone then none
  else
    let data := lib.dataEthHex value
    if data.length = 20 ∨ data.isEmpty then some ⟨value⟩ else none

/-! ### `ECDSASignatureBounds` -/

namespace ECDSASignatureBounds

/-- The order of the curve. -/
def secp256k1n : Nat :=
  115792089237316195423570985008687907852837564279074904382605163141518161494337

/-- `isWithinBounds(r:s:v:)` on strings. Zero is within the bounds. -/
def isWithinBounds (lib : ThirdParty) (r s : Str) (v : Int) : Bool :=
  match lib.bigUInt r, lib.bigUInt s with
  | some r, some s =>
      decide (r < secp256k1n) && decide (s < secp256k1n / 2 + 1) && decide (27 ≤ v ∧ v ≤ 28)
  | _, _ => false

end ECDSASignatureBounds

/-! ### Messages -/

/-- What `TransactionConfirmedMessage` and `TransactionRejectedMessage` carry. -/
structure TransactionDecisionMessage where
  hash : Data
  signature : EthSignature
  deriving DecidableEq, Repr

/-- A transaction proposed by the browser extension. -/
structure SendTransactionMessage where
  hash : Data
  safe : Address
  toAddress : Address
  value : Int
  data : Data
  operation : WalletOperation
  txGas : Int
  dataGas : Int
  operationalGas : Int
  gasPrice : Int
  gasToken : Address
  nonce : Int
  signature : EthSignature
  deriving DecidableEq, Repr

/-- The incoming subclasses of `Message`. -/
inductive Message
  | transactionConfirmed (message : TransactionDecisionMessage)
  | transactionRejected (message : TransactionDecisionMessage)
  | sendTransaction (message : SendTransactionMessage)
  deriving DecidableEq, Repr

namespace Message

/-- `TransactionConfirmedMessage.messageType`. -/
def confirmTransaction : String := "confirmTransaction"

/-- `TransactionRejectedMessage.messageType`. -/
def rejectTransaction : String := "rejectTransaction"

/-- `SendTransactionMessage.messageType`. -/
def sendTransactionType : String := "sendTransaction"

end Message

variable (lib : ThirdParty)

/-- `TransactionDecisionMessage.init?(userInfo:)`, for the type a subclass names. The hash and
the signature of a proposed transaction are read in the same way. -/
def TransactionDecisionMessage.ofUserInfo (messageType : String) (userInfo : UserInfo) :
    Option TransactionDecisionMessage := do
  let type ← userInfo "type"
  guard (type = messageType.toList)
  let hash := lib.dataEthHex (← userInfo "hash")
  guard (hash ≠ [])
  let r ← userInfo "r"
  let s ← userInfo "s"
  let v ← intOfString (← userInfo "v")
  guard (ECDSASignatureBounds.isWithinBounds lib r s v)
  return ⟨hash, ⟨r, s, v⟩⟩

/-- `SendTransactionMessage.init?(userInfo:)`. The conditions are pure, so the signature's
bounds may be checked with the other signature fields and not last. -/
def SendTransactionMessage.ofUserInfo (userInfo : UserInfo) : Option SendTransactionMessage := do
  let ⟨hash, signature⟩ ←
    TransactionDecisionMessage.ofUserInfo lib Message.sendTransactionType userInfo
  let safe ← Address.ofRawValue lib (← userInfo "safe")
  let toAddress ← Address.ofRawValue lib (← userInfo "to")
  let value ← lib.bigInt (← userInfo "value") 10
  let data := lib.dataEthHex (← userInfo "data")
  let operation ← WalletOperation.ofRawValue (← intOfString (← userInfo "operation"))
  let txGas ← intOfString (← userInfo "txGas")
  let dataGas ← intOfString (← userInfo "dataGas")
  let operationalGas ← intOfString (← userInfo "operationalGas")
  let gasPrice ← lib.bigInt (← userInfo "gasPrice") 10
  let gasToken ← Address.ofRawValue lib (← userInfo "gasToken")
  let nonce ← intOfString (← userInfo "nonce")
  return { hash, safe, toAddress, value, data, operation, txGas, dataGas, operationalGas,
           gasPrice, gasToken, nonce, signature }

/-- `Message.create(userInfo:)`. -/
def Message.create (userInfo : UserInfo) : Option Message :=
  match TransactionDecisionMessage.ofUserInfo lib confirmTransaction userInfo with
  | some message => some (.transactionConfirmed message)
  | none =>
      match TransactionDecisionMessage.ofUserInfo lib rejectTransaction userInfo with
      | some message => some (.transactionRejected message)
      | none => (SendTransactionMessage.ofUserInfo lib userInfo).map .sendTransaction

/-! ### What a message is known to satisfy -/

/-- The digits of the address are a number, so that it can be hashed. -/
def Address.Hexadecimal (a : Address) : Prop :=
  ∃ n, lib.bigInt (lib.stripHexPrefix a.value) 16 = some n

variable {lib}

theorem Address.hexadecimal_of_ofRawValue {rawValue : Str} {a : Address}
    (h : Address.ofRawValue lib rawValue = some a) : a.Hexadecimal lib := by
  have hstrip : ∀ value : Str,
      (if hexMark <+: value then value.drop 2 else value) = lib.stripHexPrefix value := by
    intro value
    split
    · rename_i hmark
      obtain ⟨s, rfl⟩ := hmark
      exact (lib.stripHexPrefix_mark s).symm
    · rename_i hmark
      exact (lib.stripHexPrefix_noMark _ hmark).symm
  simp only [Address.ofRawValue, hstrip] at h
  cases hvalue : lib.bigInt (lib.stripHexPrefix ((trimmed rawValue).take 42)) 16 with
  | none => simp [hvalue] at h
  | some n =>
      rw [hvalue, if_neg (by simp)] at h
      obtain ⟨-, h⟩ := Option.ite_none_right_eq_some.mp h
      obtain rfl := Option.some.inj h
      exact ⟨n, hvalue⟩

theorem Address.WellFormed.hexadecimal {a : Address} (h : a.WellFormed) (lib : ThirdParty) :
    a.Hexadecimal lib := by
  obtain ⟨s, ha, hlen, hs⟩ := h
  have hne : s ≠ [] := by
    rintro rfl
    simp at hlen
  exact ⟨_, by rw [ha, lib.stripHexPrefix_mark, lib.bigInt_hex s hne hs]⟩

/-- Where the fields of a message were read from. -/
structure SendTransactionMessage.IsRead (lib : ThirdParty) (userInfo : UserInfo)
    (m : SendTransactionMessage) : Prop where
  decision : TransactionDecisionMessage.ofUserInfo lib Message.sendTransactionType userInfo =
    some ⟨m.hash, m.signature⟩
  safe : ∃ s, Address.ofRawValue lib s = some m.safe
  toAddress : ∃ s, Address.ofRawValue lib s = some m.toAddress
  txGas : ∃ s, intOfString s = some m.txGas
  dataGas : ∃ s, intOfString s = some m.dataGas
  gasToken : ∃ s, Address.ofRawValue lib s = some m.gasToken
  nonce : ∃ s, intOfString s = some m.nonce

theorem SendTransactionMessage.isRead_of_ofUserInfo {userInfo : UserInfo}
    {m : SendTransactionMessage} (h : SendTransactionMessage.ofUserInfo lib userInfo = some m) :
    m.IsRead lib userInfo := by
  unfold SendTransactionMessage.ofUserInfo at h
  obtain ⟨decision, hdecision, h⟩ := Option.bind_eq_some_iff.mp h
  obtain ⟨_, -, h⟩ := Option.bind_eq_some_iff.mp h
  obtain ⟨safe, hsafe, h⟩ := Option.bind_eq_some_iff.mp h
  obtain ⟨_, -, h⟩ := Option.bind_eq_some_iff.mp h
  obtain ⟨toAddress, hto, h⟩ := Option.bind_eq_some_iff.mp h
  -- value, data and operation
  iterate 7 obtain ⟨_, -, h⟩ := Option.bind_eq_some_iff.mp h
  obtain ⟨txGas, htxGas, h⟩ := Option.bind_eq_some_iff.mp h
  obtain ⟨_, -, h⟩ := Option.bind_eq_some_iff.mp h
  obtain ⟨dataGas, hdataGas, h⟩ := Option.bind_eq_some_iff.mp h
  -- the operational gas and the gas price
  iterate 5 obtain ⟨_, -, h⟩ := Option.bind_eq_some_iff.mp h
  obtain ⟨gasToken, htoken, h⟩ := Option.bind_eq_some_iff.mp h
  obtain ⟨_, -, h⟩ := Option.bind_eq_some_iff.mp h
  obtain ⟨nonce, hnonce, h⟩ := Option.bind_eq_some_iff.mp h
  obtain rfl := Option.some.inj h
  exact ⟨hdecision, ⟨_, hsafe⟩, ⟨_, hto⟩, ⟨_, htxGas⟩, ⟨_, hdataGas⟩, ⟨_, htoken⟩, ⟨_, hnonce⟩⟩

/-- The addresses of a message that was read from a dictionary can be hashed. -/
theorem SendTransactionMessage.hexadecimal_of_ofUserInfo {userInfo : UserInfo}
    {m : SendTransactionMessage} (h : SendTransactionMessage.ofUserInfo lib userInfo = some m) :
    m.safe.Hexadecimal lib ∧ m.toAddress.Hexadecimal lib ∧ m.gasToken.Hexadecimal lib := by
  have hread := isRead_of_ofUserInfo h
  obtain ⟨_, hsafe⟩ := hread.safe
  obtain ⟨_, hto⟩ := hread.toAddress
  obtain ⟨_, htoken⟩ := hread.gasToken
  exact ⟨Address.hexadecimal_of_ofRawValue hsafe, Address.hexadecimal_of_ofRawValue hto,
    Address.hexadecimal_of_ofRawValue htoken⟩

/-- `TokenInt(String(n))!` does not fail. -/
theorem bigInt_stringOfInt (lib : ThirdParty) (n : Int) :
    lib.bigInt (stringOfInt n) 10 = some n := by
  unfold stringOfInt
  split
  · rw [lib.bigInt_negative]
    congr
    omega
  · rw [lib.bigInt_decimal]
    congr
    omega

end MultisigWallet
