import MultisigWallet.ContractProxy
import MultisigWallet.Encryption

/-!
# MultisigWallet.SafeCreation

The request for a new Safe, the answer of the relay, and `SafeCreationResponseValidator`: the
wallet computes the set-up call and the address of the contract from what it asked for, and
compares them with the answer.

A request can only be made with at least one owner and a threshold between one and the number
of owners. An answer is what the JSON decoder returns, with a payment that fits `Int`.
-/

namespace MultisigWallet

open EthereumContractProxy

/-! ### Requests and responses -/

/-- `SafeCreationRequest`. -/
structure SafeCreationRequest where
  saltNonce : Str
  owners : List Str
  threshold : Int
  paymentToken : Str
  saltNonce_decimal : ∃ n : Nat, saltNonce = Nat.toDigits 10 n
  one_le_threshold : 1 ≤ threshold
  threshold_le : threshold ≤ owners.length
  /-- The set-up call of all the owners fits into memory. -/
  owners_fit : 32 * (8 + owners.length) < 2 ^ 63

/-- `SafeCreationRequest.Response`, without the gas estimates, which nothing reads. -/
structure SafeCreationResponse where
  safe : Str
  masterCopy : Str
  proxyFactory : Str
  paymentToken : Str
  payment : Int
  paymentReceiver : Str
  setupData : Str
  payment_isInt : isInt payment = true

/-- `setupDataValue`. -/
def SafeCreationResponse.setupDataValue (lib : ThirdParty) (response : SafeCreationResponse) :
    Data :=
  lib.dataHex response.setupData

namespace SafeContractMetadata

variable (m : SafeContractMetadata)

/-- `isValidMasterCopy(address:)`. -/
def isValidMasterCopy (address : Address) : Bool :=
  m.metadata.any fun c => lowercased c.address.value = lowercased address.value

/-- `isValidProxyFactory(address:)`. -/
def isValidProxyFactory (address : Address) : Bool :=
  lowercased m.proxyFactoryAddress.value = lowercased address.value

/-- `isValidPaymentRecevier(address:)`. -/
def isValidPaymentRecevier (address : Address) : Bool :=
  decide (lowercased m.safeFunderAddress.value = lowercased address.value) ||
    decide (address = Address.zero)

/-- `deploymentCode(masterCopyAddress:)`. -/
def deploymentCode (lib : ThirdParty) (masterCopyAddress : Address) : Option Data :=
  (m.find masterCopyAddress).map fun c => c.proxyCode ++ encodeAddress lib masterCopyAddress

end SafeContractMetadata

/-! ### `GnosisSafeContractProxy` -/

namespace GnosisSafeContractProxy

variable (lib : ThirdParty)

/-- `encodeUInt(_:)` of a signed number, which traps below zero. -/
def encodeInt (value : Int) : Except Trap Data := do
  precondition (decide (0 ≤ value)) "BigUInt(value)"
  return encodeUInt lib value.toNat

/-- `setupSignature`. -/
def setupSignature : String := "setup(address[],uint256,address,bytes,address,uint256,address)"

/-- `setup(owners:threshold:to:data:paymentToken:payment:paymentReceiver:)`. Empty data is
encoded with a word of padding. -/
def setup (owners : List Address) (threshold : Int) (recipient : Address) (data : Data)
    (paymentToken : Address) (payment : Int) (paymentReceiver : Address) : Except Trap Data := do
  let thresholdData ← encodeInt lib threshold
  let dataOffset : Int := 7 * 32 + 1 * 32 + owners.length * 32
  if isInt dataOffset then
    let dataOffsetData ← encodeInt lib dataOffset
    let paymentData ← encodeInt lib payment
    return invocation lib setupSignature
      ([encodeUInt lib (7 * 32), thresholdData, encodeAddress lib recipient, dataOffsetData,
        encodeAddress lib paymentToken, paymentData, encodeAddress lib paymentReceiver,
        encodeUInt lib owners.length] ++ owners.map (encodeAddress lib) ++
        [encodeBytes lib data, if data.isEmpty then encodeUInt lib 0 else []])
  else .error .overflow

/-- `Int(value)`, which traps on a number of more than 63 bits. -/
def intOfUInt (value : Nat) : Except Trap Nat :=
  if isInt value then .ok value else .error .overflow

/-- `data.advanced(by: amount)`, which traps if nothing is left. -/
def advanced (amount : Nat) (data : Data) : Except Trap Data := do
  precondition (decide (amount < data.length)) "length > 0"
  return data.drop amount

/-- The loop over the owners of `decodeSetup(from:)`. -/
def decodeOwners : Nat → Data → Except Trap (List Address)
  | 0, _ => .ok []
  | addressArrayLength + 1, addressArrayData => do
      let address := decodeAddress lib addressArrayData
      let addressArrayData ← ERC20TokenContractProxy.removeFirst 32 addressArrayData
      let owners ← decodeOwners addressArrayLength addressArrayData
      return address :: owners

/-- What `decodeSetup(from:)` returns. -/
structure SetupArguments where
  owners : List Address
  threshold : Int
  recipient : Address
  data : Data
  paymentToken : Address
  payment : Int
  paymentReceiver : Address
  deriving DecidableEq, Repr

/-- `decodeSetup(from:)`. -/
def decodeSetup (data : Data) : Except Trap (Option SetupArguments) := do
  let selector := method lib setupSignature
  if selector <+: data then
    let input ← ERC20TokenContractProxy.removeFirst selector.length data
    let addressArrayOffset := decodeUInt input
    let input ← ERC20TokenContractProxy.removeFirst 32 input
    let threshold ← intOfUInt (decodeUInt input)
    let input ← ERC20TokenContractProxy.removeFirst 32 input
    let recipient := decodeAddress lib input
    let input ← ERC20TokenContractProxy.removeFirst 32 input
    let dataOffset := decodeUInt input
    let input ← ERC20TokenContractProxy.removeFirst 32 input
    let paymentToken := decodeAddress lib input
    let input ← ERC20TokenContractProxy.removeFirst 32 input
    let payment := decodeUInt input
    let input ← ERC20TokenContractProxy.removeFirst 32 input
    let paymentReceiver := decodeAddress lib input
    let _ ← ERC20TokenContractProxy.removeFirst 32 input
    let arguments ← advanced selector.length data
    let addressArrayData ← advanced (← intOfUInt addressArrayOffset) arguments
    let addressArrayLength ← intOfUInt (decodeUInt addressArrayData)
    let addressArrayData ← ERC20TokenContractProxy.removeFirst 32 addressArrayData
    let owners ← decodeOwners lib addressArrayLength addressArrayData
    let arguments ← advanced selector.length data
    let dataArgumentData ← advanced (← intOfUInt dataOffset) arguments
    let dataArgumentLength ← intOfUInt (decodeUInt dataArgumentData)
    let dataArgumentData ← ERC20TokenContractProxy.removeFirst 32 dataArgumentData
    return some ⟨owners, threshold, recipient, dataArgumentData.take dataArgumentLength,
      paymentToken, payment, paymentReceiver⟩
  else return none

end GnosisSafeContractProxy

/-! ### `SafeCreationResponseValidator` -/

/-- `SafeCreationValidationError`. -/
inductive SafeCreationValidationError
  | invalidSignature
  | invalidTransaction
  | invalidPaymentToken
  | invalidMasterCopy
  | invalidProxyFactory
  | invalidPaymentReceiver
  | invalidSetupData
  | deploymentCodeNotFound
  | invalidAddress
  deriving DecidableEq, Repr

namespace SafeCreationResponseValidator

variable (lib : ThirdParty) (metadata : SafeContractMetadata)

/-- `expectedSetupData(from:request:)`. -/
def expectedSetupData (response : SafeCreationResponse) (request : SafeCreationRequest) :
    Except Trap Data := do
  let owners ← request.owners.mapM (Address.ofString lib)
  let paymentToken ← Address.ofString lib request.paymentToken
  let paymentReceiver ← Address.ofString lib response.paymentReceiver
  GnosisSafeContractProxy.setup lib owners request.threshold Address.zero [] paymentToken
    response.payment paymentReceiver

/-- `address(from:request:)`. -/
def address (response : SafeCreationResponse) (request : SafeCreationRequest) :
    Except Trap Address := do
  let hash := lib.hashSHA3_256
  let saltNonce ← unwrap "BigUInt(request.saltNonce)" (lib.bigUInt request.saltNonce)
  let salt := hash (hash (response.setupDataValue lib) ++ encodeUInt lib saltNonce)
  precondition (salt.length == 32) "Salt must be always 32 bytes"
  let masterCopy ← Address.ofString lib response.masterCopy
  let initCode ← unwrap "repository.deploymentCode(masterCopyAddress: response.masterCopyAddress)"
    (metadata.deploymentCode lib masterCopy)
  let initAddress := lib.dataHex metadata.proxyFactoryAddress.value
  precondition (initAddress.length == 20) "Init address must always be 20 bytes"
  let preimage := [0xff] ++ initAddress ++ salt ++ hash initCode
  precondition (preimage.length == 85) "Preimage must always be 85 bytes"
  Address.ofString lib (hexMark ++ Bytes.toHex (((hash preimage).drop 12).take 20))

/-- The checks of `validate(_:request:)` before the set-up data. -/
def validateParties (response : SafeCreationResponse) (request : SafeCreationRequest) :
    Except Trap (Except SafeCreationValidationError Unit) :=
  if response.paymentToken = request.paymentToken then do
    let masterCopy ← Address.ofString lib response.masterCopy
    if metadata.isValidMasterCopy masterCopy then
      let proxyFactory ← Address.ofString lib response.proxyFactory
      if metadata.isValidProxyFactory proxyFactory then
        let paymentReceiver ← Address.ofString lib response.paymentReceiver
        if metadata.isValidPaymentRecevier paymentReceiver then return .ok ()
        else return .error .invalidPaymentReceiver
      else return .error .invalidProxyFactory
    else return .error .invalidMasterCopy
  else .ok (.error .invalidPaymentToken)

/-- `validate(_:request:)`. -/
def validate (response : SafeCreationResponse) (request : SafeCreationRequest) :
    Except Trap (Except SafeCreationValidationError Unit) := do
  match ← validateParties lib metadata response request with
  | .error error => return .error error
  | .ok () => do
      let expected ← expectedSetupData lib response request
      if response.setupDataValue lib = expected then
        let safe ← Address.ofString lib response.safe
        let address ← address lib metadata response request
        if lowercased safe.value = lowercased address.value then return .ok ()
        else return .error .invalidAddress
      else return .error .invalidSetupData

end SafeCreationResponseValidator

end MultisigWallet
