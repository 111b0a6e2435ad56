import MultisigWallet.ThirdParty
import MultisigWallet.Transaction
import MultisigWallet.Wallet

/-!
# MultisigWallet.Encryption

The part of `EncryptionService` the wallet's transactions go through: formatting an
address, the EIP-712 pre-image of a transaction and its hash, and recovering the address
that made a signature.

Every value of the pre-image is serialised through a hex string: a number is printed in
base 16, marked with `0x`, read back as bytes and padded to 32 of them from the left.
Padding never cuts, so a value that is too long makes the pre-image longer.
-/

namespace MultisigWallet

/-- What the wallet is shipped with for one version of the contract. The type hashes are
Keccak-256 digests. -/
structure MasterCopyMetadata where
  address : Address
  txTypeHash : Data
  domainSeparatorHash : Data
  proxyCode : Data
  length_txTypeHash : txTypeHash.length = 32
  length_domainSeparatorHash : domainSeparatorHash.length = 32

/-- `SafeContractMetadata`. -/
structure SafeContractMetadata where
  multiSendContractAddress : Address
  proxyFactoryAddress : Address
  safeFunderAddress : Address
  metadata : List MasterCopyMetadata

/-- The repository's lookup of a master copy; letter case does not count. -/
def SafeContractMetadata.find (m : SafeContractMetadata) (address : Address) :
    Option MasterCopyMetadata :=
  m.metadata.find? fun c => lowercased c.address.value = lowercased address.value

/-- `walletRepository.find(id:)`. -/
def findWallet (wallets : List Wallet) (id : WalletID) : Option Wallet :=
  wallets.find? (·.id = id)

theorem id_of_findWallet {wallets : List Wallet} {id : WalletID} {w : Wallet}
    (h : findWallet wallets id = some w) : w.id = id := by
  have hfound := List.find?_some h
  simpa using hfound

namespace EncryptionService

variable (lib : ThirdParty)

/-! ### Addresses -/

/-- `address(from:)`. -/
def address (string : Str) : Option Address :=
  if string.isEmpty then none
  else
    let data := lib.dataEthHex string
    if data.length = 20 then some ⟨lib.addHexPrefix (lib.eip55 data)⟩ else none

/-- `data(from:)`: the raw form of a signature whose components are decimal numbers. -/
def dataFromSignature (signature : EthSignature) : Except Trap Data := do
  let r ← unwrap "BInt(signature.r, radix: 10)" (lib.bInt signature.r)
  let s ← unwrap "BInt(signature.s, radix: 10)" (lib.bInt signature.s)
  return lib.calculateSignature r s signature.v

/-- `ethSignature(from:)`: the decimal components of a raw signature. -/
def ethSignature (data : Data) : EthSignature :=
  let (r, s, v) := lib.calculateRSV data
  ⟨stringOfInt r, stringOfInt s, v⟩

/-- `address(hash:signature:)`: the address that signed `hash`. -/
def addressOfSigner (hash : Data) (signature : EthSignature) : Except Trap (Option Str) := do
  let data ← dataFromSignature lib signature
  match lib.publicKey data hash with
  | none => return none
  | some publicKey =>
      return some (lib.addressString (lib.dataEthHex (lib.createAddress publicKey)))

/-! ### The pre-image of a transaction -/

/-- `String(value, radix: 16)`. -/
def hexDigitsOfInt (value : Int) : Str :=
  if value < 0 then '-' :: Nat.toDigits 16 value.natAbs else Nat.toDigits 16 value.natAbs

/-- `TokenInt.data`. -/
def dataOfInt (value : Int) : Data :=
  leftPadded 32 (lib.dataEthHex (lib.addHexPrefix (hexDigitsOfInt value)))

/-- `Address.data`. -/
def dataOfAddress (a : Address) : Except Trap Data := do
  let value ← unwrap "TokenInt(hex: value)" (lib.bigInt (lib.stripHexPrefix a.value) 16)
  return dataOfInt lib value

/-- `DefaultEIP712SafeAppTxTypeHash`. -/
def defaultTxTypeHash : Data :=
  [0x14, 0xd4, 0x61, 0xbc, 0x74, 0x12, 0x36, 0x7e, 0x92, 0x46, 0x37, 0xb3, 0x63, 0xc7, 0xbf, 0x29,
   0xb8, 0xf4, 0x7e, 0x2f, 0x84, 0x86, 0x9f, 0x44, 0x26, 0xe5, 0x63, 0x3d, 0x8a, 0xf4, 0x7b, 0x20]

/-- `DefaultEIP712SafeAppDomainSeparatorTypeHash`. -/
def defaultDomainSeparatorTypeHash : Data :=
  [0x03, 0x5a, 0xff, 0x83, 0xd8, 0x69, 0x37, 0xd3, 0x5b, 0x32, 0xe0, 0x4f, 0x0d, 0xdc, 0x6f, 0xf4,
   0x69, 0x29, 0x0e, 0xef, 0x2f, 0x1b, 0x69, 0x2d, 0x8a, 0x81, 0x5c, 0x89, 0x40, 0x4d, 0x47, 0x49]

variable (metadata : SafeContractMetadata) (wallets : List Wallet)

/-- The master copy of the wallet a transaction belongs to. -/
def masterCopy (tx : Transaction) : Option Address :=
  (findWallet wallets tx.walletID).bind (·.masterCopyAddress)

/-- `txTypeHash(_:)`. -/
def txTypeHash (tx : Transaction) : Data :=
  (((masterCopy wallets tx).bind metadata.find).map (·.txTypeHash)).getD defaultTxTypeHash

/-- `domainSeparatorTypeHash(_:)`. -/
def domainSeparatorTypeHash (tx : Transaction) : Data :=
  (((masterCopy wallets tx).bind metadata.find).map (·.domainSeparatorHash)).getD
    defaultDomainSeparatorTypeHash

/-- `domainData(_:)`. -/
def domainData (tx : Transaction) : Except Trap Data := do
  let sender ← unwrap "transaction.sender" tx.sender
  let senderData ← dataOfAddress lib sender
  return domainSeparatorTypeHash metadata wallets tx ++ senderData

/-- `valueData(_:)`. -/
def valueData (tx : Transaction) : Except Trap Data := do
  let toData ← dataOfAddress lib tx.ethTo
  let operation ← unwrap "transaction.operation" tx.operation
  let estimate ← unwrap "transaction.feeEstimate" tx.feeEstimate
  let gasToken ← dataOfAddress lib estimate.gasPrice.token.address
  let nonceString ← unwrap "transaction.nonce" tx.nonce
  let nonce ← unwrap "TokenInt(transaction.nonce!)" (lib.bigInt nonceString 10)
  return txTypeHash metadata wallets tx ++ toData ++ dataOfInt lib tx.ethValue ++
    lib.hashSHA3_256 (tx.data.getD []) ++ dataOfInt lib operation.rawValue ++
    dataOfInt lib estimate.gas ++ dataOfInt lib estimate.dataGas ++
    dataOfInt lib estimate.gasPrice.amount ++ gasToken ++ dataOfInt lib 0 ++ dataOfInt lib nonce

/-- `hashData(_:)`: the ERC-191 bytes `0x19` and `0x01`, then the hashes of the domain and of the
value. -/
def hashData (tx : Transaction) : Except Trap Data := do
  let domain ← domainData lib metadata wallets tx
  let value ← valueData lib metadata wallets tx
  return [0x19, 0x01] ++ lib.hashSHA3_256 domain ++ lib.hashSHA3_256 value

/-- `hash(of:)`. -/
def hash (tx : Transaction) : Except Trap Data := do
  let data ← hashData lib metadata wallets tx
  return lib.hashSHA3_256 data

/-- `sign(transaction:privateKey:)`. -/
def sign (tx : Transaction) (privateKey : Data) : Except Trap Data := do
  let hash ← hash lib metadata wallets tx
  match lib.sign hash privateKey with
  | some signature => return signature
  | none => .error (.preconditionFailure "Signing of dat failed")

end EncryptionService

end MultisigWallet
