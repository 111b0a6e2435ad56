import MultisigWallet.RecoveryService

/-!
# MultisigWallet.RecoveryCreation

`createRecoveryTransaction()` with what it posts and publishes. The builder's fields are implicitly
unwrapped: `pullData()` fills them in one `do` block, posts the error that ends it, and the checks
that follow read whatever has been filled. `RecoveryTransactionBuilder` is the builder with every
field set.
-/

namespace MultisigWallet

/-- What is posted to the error stream. -/
inductive PostedError
  /-- The error of `getOwners()`, as it was thrown. -/
  | getOwners
  /-- The error of `getThreshold()`. -/
  | getThreshold
  /-- The error of `updateAccountsBalances()`. -/
  | updateAccountsBalances
  /-- `serviceError(from:)` of the relay's error. -/
  | estimateTransaction
  /-- `RecoveryServiceError.unsupportedWalletConfiguration(_:)`. -/
  | unsupportedWalletConfiguration (message : String)
  deriving DecidableEq, Repr

/-- What the four calls answer; `none` when a call throws. -/
structure CreationAnswers where
  /-- `getOwners()`. -/
  owners : Option Data
  /-- `getThreshold()`. -/
  threshold : Option Data
  /-- `updateAccountsBalances()`. -/
  balances : Option Unit
  /-- `estimateTransaction(request:)`. -/
  estimate : Option EstimateTransactionResponse
  deriving DecidableEq

/-- `description` of a scheme. -/
def WalletScheme.description (s : WalletScheme) : String :=
  "(" ++ toString s.confirmations ++ "/" ++ toString s.owners ++ ")"

/-- The fields of the builder; those that `pullData()` fills may be `nil`. -/
structure BuilderFields where
  wallet : Wallet
  oldScheme : Option WalletScheme := none
  newScheme : Option WalletScheme := none
  readonlyOwnerAddresses : Option (List Str) := none
  ownerList : Option OwnerLinkedList := none
  modifiableOwners : Option (List Owner) := none
  multiSendContractAddress : Address
  transaction : Transaction

namespace BuilderFields

open RecoveryTransactionBuilder

variable (lib : ThirdParty)

/-- `init(multiSendContractAddress:)`. -/
def new (wallet : Wallet) (multiSendContractAddress : Address) (transactionID : TransactionID)
    (now : Date) : Except Trap BuilderFields := do
  let address ← unwrap "wallet.address" wallet.address
  let accountID : AccountID := ⟨Token.Ether.id, wallet.id⟩
  let transaction := Transaction.new transactionID .walletRecovery wallet.id accountID now now
  let transaction ← transaction.change (.sender (some address)) now
  let transaction ← transaction.change (.amount (some (.ether 0))) now
  return {
    wallet := wallet
    multiSendContractAddress := multiSendContractAddress
    transaction := transaction }

/-- The assignments of `pullData()`, once both queries have been answered. -/
def fill (b : BuilderFields) : Except Trap BuilderFields := do
  let ownerList ← ({} : OwnerLinkedList).addAll ((unknownOwners b.wallet).map (·.address))
  return { b with
    oldScheme := some (oldWalletScheme b.wallet)
    newScheme := some (newWalletScheme b.wallet)
    ownerList := some ownerList
    readonlyOwnerAddresses := some (readonlyAddresses b.wallet)
    modifiableOwners := some (mutableOwners b.wallet) }

/-- `pullData()`: the fields as they are when the block ends, and what it posts. -/
def pullData (b : BuilderFields) (answers : CreationAnswers) :
    Except Trap (BuilderFields × List PostedError) := do
  let wallet ← b.wallet.removeOwner .unknown
  match answers.owners with
  | none => return ({ b with wallet := wallet }, [.getOwners])
  | some owners => do
      let remoteOwners ← SafeOwnerManagerContractProxy.getOwners lib owners
      let wallet ← addUnknownOwners wallet remoteOwners
      match answers.threshold with
      | none => return ({ b with wallet := wallet }, [.getThreshold])
      | some threshold => do
          let remoteThreshold ← SafeOwnerManagerContractProxy.getThreshold threshold
          let b ← { b with wallet := wallet.changeConfirmationCount remoteThreshold }.fill
          return (b, if answers.balances = none then [.updateAccountsBalances] else [])

/-- `isSupportedSafeOwners()`: what is posted if they are not. -/
def isSupportedSafeOwners (b : BuilderFields) : Except Trap (Option PostedError) := do
  let modifiableOwners ← unwrap "modifiableOwners" b.modifiableOwners
  if [1, 2].contains modifiableOwners.length then return none
  else
    return some (.unsupportedWalletConfiguration ("Expected one of [1, 2] mutable owners" ++
      ", but found " ++ toString modifiableOwners.length))

/-- `isSupportedScheme()`: what is posted if it is not. -/
def isSupportedScheme (b : BuilderFields) : Except Trap (Option PostedError) := do
  let oldScheme ← unwrap "oldScheme" b.oldScheme
  let newScheme ← unwrap "newScheme" b.newScheme
  let supportedSchemes : List WalletScheme := [.withoutExtension, .withExtension]
  if supportedSchemes.contains oldScheme && supportedSchemes.contains newScheme then return none
  else
    return some (.unsupportedWalletConfiguration
      ("Expected [" ++ WalletScheme.withoutExtension.description ++ ", " ++
        WalletScheme.withExtension.description ++ "] confirmations/owners, but got " ++
        oldScheme.description))

/-- The builder, when all of its fields are read. -/
def filled (b : BuilderFields) : Except Trap RecoveryTransactionBuilder := do
  let oldScheme ← unwrap "oldScheme" b.oldScheme
  let newScheme ← unwrap "newScheme" b.newScheme
  let ownerList ← unwrap "ownerList" b.ownerList
  let modifiableOwners ← unwrap "modifiableOwners" b.modifiableOwners
  return {
    wallet := b.wallet
    oldScheme := oldScheme
    newScheme := newScheme
    ownerList := ownerList
    modifiableOwners := modifiableOwners
    multiSendContractAddress := b.multiSendContractAddress
    transaction := b.transaction }

end BuilderFields

/-- What a call leaves: the device, what was posted, and whether `WalletBecameReadyForRecovery` was
published. -/
structure CreationOutcome where
  device : Device
  errors : List PostedError
  published : Bool
  deriving DecidableEq

namespace RecoveryDomainService

variable (lib : ThirdParty) (metadata : SafeContractMetadata)

/-- The part of `main()` that comes after the checks; `none` if there is no estimation. -/
def complete (b : RecoveryTransactionBuilder) (d : Device) (tokens : List Token)
    (estimation : Option EstimateTransactionResponse) (now : Date) :
    Except Trap (Option RecoveryTransactionBuilder) := do
  let b ← b.buildData lib now
  match ← estimate lib b d.wallet fun _ => estimation with
  | none => return none
  | some response => do
      let b ← calculateFees b tokens response now
      let b ← sealTransaction lib metadata b d.wallet now
      let b ← sign lib metadata b d now
      return some b

/-- `main()`. -/
def main (d : Device) (tokens : List Token) (id : TransactionID) (answers : CreationAnswers)
    (now : Date) : Except Trap CreationOutcome := do
  let b ← BuilderFields.new d.wallet metadata.multiSendContractAddress id now
  let (b, errors) ← b.pullData lib answers
  match ← b.isSupportedSafeOwners with
  | some error => return ⟨d, errors ++ [error], false⟩
  | none => do
      match ← b.isSupportedScheme with
      | some error => return ⟨d, errors ++ [error], false⟩
      | none => do
          let b ← b.filled
          match ← complete lib metadata b d tokens answers.estimate now with
          | none => return ⟨d, errors ++ [.estimateTransaction], false⟩
          | some b =>
              let d := { d with transaction := some b.transaction }
              return ⟨d.saveWallet b.wallet, errors, true⟩

/-- `createRecoveryTransaction()`, with what it posts and publishes. -/
def createRecoveryTransactionLogged (d : Device) (tokens : List Token) (id : TransactionID)
    (answers : CreationAnswers) (now : Date) : Except Trap CreationOutcome :=
  main lib metadata { d with transaction := none } tokens id answers now

end RecoveryDomainService

end MultisigWallet
