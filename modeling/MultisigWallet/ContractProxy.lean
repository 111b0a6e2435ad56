import MultisigWallet.ThirdParty

/-!
# MultisigWallet.ContractProxy

The contract proxies: how the wallet writes call data and how it reads the answers of
`eth_call`. `EthereumContractProxy` holds the ABI primitives; the proxies of the owner
manager, of ERC-20 tokens and of the multi-send contract are calls of them.

A `Data` slice keeps the indices of the data it was cut from, but every function below
addresses a slice relative to its start, so slices are modelled by `drop` and `take`.
-/

namespace MultisigWallet

/-! ### `EthereumContractProxy` -/

namespace EthereumContractProxy

variable (lib : ThirdParty)

def method (selector : String) : Data := (lib.hashSHA3_256 (asciiData selector)).take 4

/-- `encodeUInt(_:)`; a number of more than 32 bytes loses its high end. -/
def encodeUInt (value : Nat) : Data :=
  suffixData 32 (leftPadded 32 (lib.dataEthHex (Nat.toDigits 16 value)))

def decodeUInt (value : Data) : Nat :=
  Bytes.toNat (if value.length > 32 then value.take 32 else value)

/-- `Address(_: BigUInt)`. Of a number that needs more than 20 bytes it keeps the first
20, not the last. The string always passes the checks of `Address.init(_:)`. -/
def addressOfUInt (value : Nat) : Address :=
  Address.ofData (leftPadded 20 (endTruncated 20 (lib.dataEthHex (Nat.toDigits 16 value))))

def decodeAddress (value : Data) : Address := addressOfUInt lib (decodeUInt value)

def encodeAddress (value : Address) : Data :=
  encodeUInt lib (Bytes.toNat (lib.dataEthHex value.value))

/-- `decodeTupleUInt(_:_:)`, on a count that fits `Int`. -/
def decodeTupleUInt (value : Data) (count : Nat) : Except Trap (List Nat) := do
  let size ← if isInt (count * 32) then pure (count * 32) else .error .overflow
  if value.length < size then return []
  return (List.range count).map fun i => decodeUInt ((value.drop (32 * i)).take 32)

def decodeArrayUInt (value : Data) : Except Trap (List Nat) :=
  if value.isEmpty then .ok []
  else
    let offset := decodeUInt value
    if offset < value.length then
      let data := value.drop offset
      let count := decodeUInt data
      -- one word for the count itself, then `count` items
      if (1 + count) * 32 ≥ data.length then do
        if data.length < 32 then .error .removeFirst
        if isInt count then decodeTupleUInt (data.drop 32) count else .error .overflow
      else .ok []
    else .ok []

def decodeArrayAddress (value : Data) : Except Trap (List Address) := do
  let values ← decodeArrayUInt value
  return values.map (addressOfUInt lib)

def headUInt (value : Nat) : Data := encodeUInt lib value

/-- `tailUInt(_:)`: a number is encoded in the head alone. -/
def tailUInt (_ : Nat) : Data := []

/-- `encodeTupleUInt(_:)`: all the heads, then all the tails. -/
def encodeTupleUInt (value : List Nat) : Data :=
  (value.map (headUInt lib) ++ value.map tailUInt).flatten

def encodeArrayUInt (value : List Nat) : Data :=
  encodeUInt lib 32 ++ encodeUInt lib value.length ++ encodeTupleUInt lib value

def encodeArrayAddress (value : List Address) : Data :=
  encodeArrayUInt lib (value.map fun a => Bytes.toNat (lib.dataEthHex a.value))

def encodeBytes (value : Data) : Data :=
  let byteLength :=
    if value.length % 32 = 0 then value.length else value.length + 32 - value.length % 32
  encodeUInt lib value.length ++ rightPadded byteLength value

/-- `decodeBytes(_:)`. The length has to fit `Int`; there may be fewer bytes than it says. -/
def decodeBytes (value : Data) : Except Trap Data :=
  let count := decodeUInt value
  let encoded := value.drop 32
  if isInt count then .ok (encoded.take count) else .error .overflow

def invocation (selector : String) (args : List Data) : Data :=
  method lib selector ++ args.flatten

end EthereumContractProxy

open EthereumContractProxy

/-! ### `SafeOwnerManagerContractProxy` -/

namespace SafeOwnerManagerContractProxy

variable (lib : ThirdParty)

/-- The head of the owner manager's linked list, address `0x00…01`. -/
def sentinelAddress : Address := Address.ofData (leftPadded 20 [0x1])

/-- `getOwners()`, on the data the node answers with. -/
def getOwners (answer : Data) : Except Trap (List Address) := decodeArrayAddress lib answer

/-- `getThreshold()`, on the data the node answers with. -/
def getThreshold (answer : Data) : Except Trap Int :=
  if isInt (decodeUInt answer) then .ok (decodeUInt answer) else .error .overflow

/-- `previousOwner(to:)`, on the owners the contract lists. -/
def previousOwner (owners : List Address) (owner : Address) : Option Address :=
  match owners.findIdx? (fun a => lowercased a.value = lowercased owner.value) with
  | none => none
  | some index => if index > 0 then owners[index - 1]? else some sentinelAddress

def addOwner (address : Address) (threshold : Nat) : Data :=
  invocation lib "addOwnerWithThreshold(address,uint256)"
    [encodeAddress lib address, encodeUInt lib threshold]

/-- `decodeAddOwnerArguments(from:)`: the new owner and the threshold. -/
def decodeAddOwnerArguments (data : Data) : Except Trap (Option (Address × Int)) :=
  let argumentLength := 32
  let selector := method lib "addOwnerWithThreshold(address,uint256)"
  if data.length = selector.length + 2 * argumentLength ∧ data.take selector.length = selector then
    let input := data.drop selector.length
    let threshold := decodeUInt (input.drop argumentLength)
    if isInt threshold then .ok (some (decodeAddress lib input, threshold)) else .error .overflow
  else .ok none

def swapOwner (prevOwner old new : Address) : Data :=
  invocation lib "swapOwner(address,address,address)"
    [encodeAddress lib prevOwner, encodeAddress lib old, encodeAddress lib new]

/-- `decodeSwapOwnerArguments(from:)`: the previous, the old and the new owner. -/
def decodeSwapOwnerArguments (data : Data) : Option (Address × Address × Address) :=
  let argumentLength := 32
  let selector := method lib "swapOwner(address,address,address)"
  if data.length = selector.length + 3 * argumentLength ∧ data.take selector.length = selector then
    let input := data.drop selector.length
    some (decodeAddress lib input, decodeAddress lib (input.drop argumentLength),
      decodeAddress lib (input.drop (2 * argumentLength)))
  else none

def removeOwner (prevOwner owner : Address) (threshold : Nat) : Data :=
  invocation lib "removeOwner(address,address,uint256)"
    [encodeAddress lib prevOwner, encodeAddress lib owner, encodeUInt lib threshold]

end SafeOwnerManagerContractProxy

/-! ### `ERC20TokenContractProxy` -/

namespace ERC20TokenContractProxy

variable (lib : ThirdParty)

/-- `transferMethodSignature`. -/
def transferMethodSignature : String := "transfer(address,uint256)"

/-- `transfer(to:amount:)`. -/
def transfer (recipient : Address) (amount : Int) : Except Trap Data := do
  precondition (decide (0 ≤ amount)) "BigUInt(amount)"
  return invocation lib transferMethodSignature
    [encodeAddress lib recipient, encodeUInt lib amount.toNat]

/-- `data.removeFirst(count)`. -/
def removeFirst (count : Nat) (data : Data) : Except Trap Data :=
  if data.length < count then .error .removeFirst else .ok (data.drop count)

/-- `decodedTransfer(from:)`. The arguments are cut off before their number is
checked. -/
def decodedTransfer (data : Data) : Except Trap (Option (Address × Int)) :=
  let head := invocation lib transferMethodSignature []
  if data.take head.length = head then do
    let argumentsData := data.drop head.length
    let recipient := decodeAddress lib argumentsData
    let argumentsData ← removeFirst 32 argumentsData
    let amount := decodeUInt argumentsData
    let argumentsData ← removeFirst 32 argumentsData
    if argumentsData.isEmpty then return some (recipient, amount) else return none
  else .ok none

end ERC20TokenContractProxy

/-! ### `MultiSendContractProxy` -/

inductive MultiSendTransactionOperation
  | call
  | delegateCall
  deriving DecidableEq, Repr

def MultiSendTransactionOperation.rawValue : MultiSendTransactionOperation → Nat
  | call => 0
  | delegateCall => 1

/-- One transaction of a multi-send. -/
structure MultiSendTransaction where
  operation : MultiSendTransactionOperation
  toAddress : Address
  value : Int
  data : Data

namespace MultiSendContractProxy

variable (lib : ThirdParty)

/-- What one transaction contributes to the argument of `multiSend(bytes)`. -/
def encodeTransaction (tx : MultiSendTransaction) : Data :=
  let bytesOffsetInTransaction := 4 * 32
  encodeUInt lib tx.operation.rawValue ++ encodeAddress lib tx.toAddress ++
    encodeUInt lib tx.value.natAbs ++ encodeUInt lib bytesOffsetInTransaction ++
    encodeBytes lib tx.data

def multiSend (transactions : List MultiSendTransaction) : Data :=
  let argumentData := transactions.flatMap (encodeTransaction lib)
  let bytesOffsetInInvocation := 32
  invocation lib "multiSend(bytes)"
    [encodeUInt lib bytesOffsetInInvocation ++ encodeBytes lib argumentData]

end MultiSendContractProxy

end MultisigWallet
