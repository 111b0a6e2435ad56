import MultisigWallet.PostProcessing

/-!
# MultisigWallet.WalletSettings

`WalletSettingsDomainService`: the transaction that gives a wallet a new recovery phrase.

The transaction swaps the two owners that are neither this device nor the browser extension
for the new account and the one derived from it. It is prepared with two calls of made-up
addresses, so that its fee can be shown, and gets the real calls once the phrase is known.

What the wallet becomes when the transaction is processed is left to a closure that waits
for the event. Closures of an event run later and in any order, so having a closure waiting,
having it dispatched and running it are three different things.
-/

namespace MultisigWallet

/-- `externallyOwnedAccountRepository.remove(address:)`. -/
def Repositories.removeAccount (r : Repositories) (address : Address) : Repositories :=
  { r with externallyOwnedAccounts := r.externallyOwnedAccounts.filter (·.1 ≠ address) }

namespace WalletSettingsDomainService

/-! ### The two swaps -/

/-- `removeFirst()`. -/
def removeFirst : List Address → Except Trap (Address × List Address)
  | [] => .error .removeFirst
  | owner :: owners => .ok (owner, owners)

/-- `ownerList.list[index]`. -/
def listed (ownerList : OwnerLinkedList) (index : Nat) : Except Trap Address :=
  match ownerList.list[index]? with
  | none => .error .indexOutOfRange
  | some owner => .ok owner

variable (lib : ThirdParty)

/-- The call that swaps two owners, and the list after it. -/
def swapData (ownerList : OwnerLinkedList) (oldOwner newOwner : Address) :
    Except Trap (Data × OwnerLinkedList) := do
  let prevOwner ← ownerList.addressBefore oldOwner
  return (SafeOwnerManagerContractProxy.swapOwner lib prevOwner oldOwner newOwner,
    ownerList.replace oldOwner newOwner)

/-- The calls of `estimateRecoveryPhraseTransaction(_:)`, on what the contract answers. -/
def fakeCalls (answer : Data) : Except Trap (List Data) := do
  let remoteOwners ← SafeOwnerManagerContractProxy.getOwners lib answer
  let ownerList ← ({} : OwnerLinkedList).addAll remoteOwners
  let oldOwner1 ← listed ownerList 1
  let (owner1Data, ownerList) ← swapData lib ownerList oldOwner1
    (Address.ofData (List.replicate 20 1))
  let oldOwner2 ← listed ownerList 2
  let (owner2Data, _) ← swapData lib ownerList oldOwner2 (Address.ofData (List.replicate 20 2))
  return [owner1Data, owner2Data]

/-- The owners without the one with `role`. The contract's addresses are in lower case. -/
def withoutOwner (wallet : Wallet) (role : OwnerRole) (owners : List Address) :
    Except Trap (List Address) :=
  match wallet.owner role with
  | none => .ok owners
  | some owner => do
      let address ← Address.ofString lib (lowercased owner.address.value)
      return owners.erase address

/-- The calls of `updateRecoveryPhraseTransaction(_:with:)`, on what the contract answers. -/
def realCalls (wallet : Wallet) (newOwner1 newOwner2 : Address) (answer : Data) :
    Except Trap (List Data) := do
  let remoteOwners ← SafeOwnerManagerContractProxy.getOwners lib answer
  let ownerList ← ({} : OwnerLinkedList).addAll remoteOwners
  let modifiableOwners ← withoutOwner lib wallet .thisDevice remoteOwners
  let modifiableOwners ← withoutOwner lib wallet .browserExtension modifiableOwners
  let (oldOwner1, modifiableOwners) ← removeFirst modifiableOwners
  let (owner1Data, ownerList) ← swapData lib ownerList oldOwner1 newOwner1
  let (oldOwner2, _) ← removeFirst modifiableOwners
  let (owner2Data, _) ← swapData lib ownerList oldOwner2 newOwner2
  return [owner1Data, owner2Data]

/-! ### Estimating -/

variable (metadata : SafeContractMetadata)

/-- Both calls of the wallet contract in one, and what the relay estimates for it. -/
def estimate (wallet : Wallet) (calls : List Data) (relay : EstimationRelay) :
    Except Trap (Data × Option EstimateTransactionResponse) := do
  let address ← unwrap "wallet.address" wallet.address
  let data := MultiSendContractProxy.multiSend lib (calls.map fun call => ⟨.call, address, 0, call⟩)
  let recipient ← unwrap "address(from: multiSendProxy.contract.value)"
    (EncryptionService.address lib metadata.multiSendContractAddress.value)
  let request ← EstimateTransactionRequest.new lib address recipient (stringOfInt 0)
    (hexMark ++ Bytes.toHex data) .delegateCall (wallet.feePaymentTokenAddress.map (·.value))
  return (data, relay request)

/-- `calculateFees(basedOn:)`. The fee is in Ether, whatever the relay charges. -/
def calculateFees (response : EstimateTransactionResponse) :
    Except Trap (TokenAmount × TransactionFeeEstimate × Int) := do
  let gasPrice : TokenAmount := ⟨response.gasPrice, Token.Ether⟩
  let estimate : TransactionFeeEstimate :=
    ⟨response.safeTxGas, response.dataGas, response.operationalGas, gasPrice⟩
  let gas ← addInt estimate.gas estimate.dataGas
  let nextNonce ← response.nextNonce
  return (⟨gas * estimate.gasPrice.amount, gasPrice.token⟩, estimate, nextNonce)

/-- The fields of the transaction that an estimation sets. -/
def changeFees (tx : Transaction) (response : EstimateTransactionResponse) (clock : Clock) :
    Except Trap Transaction := do
  let (fee, estimate, nonce) ← calculateFees response
  let tx ← tx.change (.fee (some fee)) (clock 0)
  let tx ← tx.change (.feeEstimate (some estimate)) (clock 1)
  tx.change (.nonce (some (stringOfInt nonce))) (clock 2)

/-- `createReplaceRecoveryPhraseTransaction()`, where the repository's `nextID()` is `id`. -/
def createReplaceRecoveryPhraseTransaction (r : Repositories) (id : TransactionID)
    (clock : Clock) : Except Trap Repositories := do
  let wallet ← unwrap "selectedWallet()" r.selected
  let tx := Transaction.new id .replaceRecoveryPhrase wallet.id ⟨Token.Ether.id, wallet.id⟩
    (clock 0) (clock 1)
  let sender ← unwrap "wallet.address" wallet.address
  let tx ← tx.change (.sender (some sender)) (clock 2)
  let recipient ← unwrap "address(from: multiSendAddess.value)"
    (EncryptionService.address lib metadata.multiSendContractAddress.value)
  let tx ← tx.change (.recipient (some recipient)) (clock 3)
  let tx ← tx.change (.amount (some (.ether 0))) (clock 4)
  let tx ← tx.change (.operation (some .delegateCall)) (clock 5)
  return r.save tx

/-- `estimateRecoveryPhraseTransaction(_:)`. An error of the node or of the relay is posted, and
nothing is saved. -/
def estimateRecoveryPhraseTransaction (r : Repositories) (id : TransactionID)
    (answer : Option Data) (relay : EstimationRelay) (clock : Clock) :
    Except Trap Repositories := do
  let wallet ← unwrap "selectedWallet()" r.selected
  let tx ← unwrap "transactionRepository.find(id:)" (r.find id)
  if tx.data = none then
    let _ ← unwrap "wallet.address" wallet.address
    match answer with
    | none => return r
    | some answer => do
        let calls ← fakeCalls lib answer
        match ← estimate lib metadata wallet calls relay with
        | (_, none) => return r
        | (_, some response) => return r.save (← changeFees tx response clock)
  else return r

/-- `isRecoveryPhraseTransactionReadyToStart(_:)`. -/
def isRecoveryPhraseTransactionReadyToStart (r : Repositories) (id : TransactionID)
    (accounts : Accounts) : Except Trap Bool := do
  let tx ← unwrap "transactionRepository.find(id:)" (r.find id)
  match (accounts tx.accountID).join with
  | none => return false
  | some balance =>
      match tx.feeEstimate with
      | none => return false
      | some estimate => return decide (estimate.totalDisplayedToUser.amount ≤ balance)

/-! ### Updating -/

/-- The closure that waits for the transaction. -/
structure Handler where
  /-- Not captured: the wallet as it was found. -/
  walletBefore : Wallet
  /-- The wallet object that the closure captures. -/
  wallet : Wallet
  id : TransactionID
  newPaperWallet : Address
  newOwner1 : Address
  newOwner2 : Address
  deriving DecidableEq

/-- `updateRecoveryPhraseTransaction(_:with:)`, with the closure it subscribes. `derivedEOA` is the
address of the account that third-party code derives from the new one. -/
def updateRecoveryPhraseTransaction (r : Repositories) (id : TransactionID)
    (newPaperWallet derivedEOA : Address) (answer : Option Data) (relay : EstimationRelay)
    (clock : Clock) : Except Trap (Option Handler × Repositories) := do
  let walletBefore ← unwrap "selectedWallet()" r.selected
  let tx ← unwrap "transactionRepository.find(id:)" (r.find id)
  let _ ← unwrap "externallyOwnedAccountRepository.find(by: newPaperWallet)"
    (r.privateKey newPaperWallet)
  let _ ← unwrap "wallet.address" walletBefore.address
  match answer with
  | none => return (none, r)
  | some answer => do
      let newOwner1 := newPaperWallet
      let newOwner2 := derivedEOA
      let calls ← realCalls lib walletBefore newOwner1 newOwner2 answer
      match ← estimate lib metadata walletBefore calls relay with
      | (_, none) => return (none, r)
      | (data, some response) => do
          let tx ← changeFees tx response clock
          let tx ← tx.change (.data (some data)) (clock 3)
          let hash ← EncryptionService.hash lib metadata r.wallets tx
          let tx ← tx.change (.hash (some hash)) (clock 4)
          let tx ← tx.proceed (clock 5) (clock 6)
          let wallet ← walletBefore.addOwner ⟨newOwner1, .unknown⟩
          let wallet ← wallet.addOwner ⟨newOwner2, .unknown⟩
          return (some ⟨walletBefore, wallet, id, newPaperWallet, newOwner1, newOwner2⟩,
            (r.save tx).saveWallet wallet)

/-- The new owners of a transaction that has succeeded are given their roles on a wallet that is
found once more. It hides the captured one, and is not saved. -/
def addNewOwners (h : Handler) (r : Repositories) (tx : Transaction) : Except Trap Unit :=
  if tx.status = .success then do
    let wallet ← unwrap "walletRepository.find(id: walletID)"
      (findWallet r.wallets h.walletBefore.id)
    let wallet ← wallet.addOwner ⟨h.newOwner1, .paperWallet⟩
    let _ ← wallet.addOwner ⟨h.newOwner2, .paperWalletDerived⟩
    return ()
  else return ()

/-- The closure runs. What it leaves of the object it captured, whether it has unsubscribed, and
what is stored then. -/
def transactionStatusUpdated (h : Handler) (r : Repositories) :
    Except Trap (Handler × Bool × Repositories) :=
  match r.find h.id with
  | none => .ok (h, true, r)
  | some tx =>
      if tx.status = .pending then .ok (h, false, r)
      else do
        addNewOwners h r tx
        let wallet ← h.wallet.removeOwner .unknown
        let h := { h with wallet }
        let r := r.saveWallet wallet
        if (r.privateKey h.newPaperWallet).isSome then
          return (h, true, r.removeAccount h.newPaperWallet)
        else return (h, true, r)

/-- `cancelPhraseRecovery()`. -/
def cancelPhraseRecovery (r : Repositories) : Except Trap Repositories := do
  let wallet ← unwrap "selectedWallet()" r.selected
  let wallet ← wallet.removeOwner .unknown
  return r.saveWallet wallet

/-! ### Steps -/

/-- What the service works on. -/
structure Settings where
  repositories : Repositories
  /-- The closures made so far. -/
  handlers : List Handler := []
  /-- Those that wait for `TransactionStatusUpdated`, by their place among `handlers`. -/
  subscriptions : List Nat := []
  /-- Those that an event was dispatched to. -/
  dispatched : List Nat := []
  deriving DecidableEq

/-- What happens next. -/
inductive Step
  | update (id : TransactionID) (newPaperWallet derivedEOA : Address) (answer : Option Data)
      (relay : EstimationRelay) (clock : Clock)
  | cancel
  /-- `TransactionStatusUpdated` is published. -/
  | publish
  /-- A dispatched closure runs. -/
  | run (index : Nat)
  /-- Other parts of the app save something. -/
  | change (r : Repositories)

/-- One of them. A closure that unsubscribes takes all subscriptions of the service with it. -/
def step (s : Settings) : Step → Except Trap Settings
  | .update id newPaperWallet derivedEOA answer relay clock => do
      match ← updateRecoveryPhraseTransaction lib metadata s.repositories id newPaperWallet
        derivedEOA answer relay clock with
      | (none, r) => return { s with repositories := r }
      | (some h, r) => return { s with
          repositories := r
          handlers := s.handlers ++ [h]
          subscriptions := s.subscriptions ++ [s.handlers.length] }
  | .cancel => do
      let r ← cancelPhraseRecovery s.repositories
      return { s with repositories := r }
  | .publish => .ok { s with dispatched := s.dispatched ++ s.subscriptions }
  | .run index =>
      match s.dispatched[index]?.bind fun i => s.handlers[i]?.map fun h => (i, h) with
      | none => .ok s
      | some (i, h) => do
          let (h, unsubscribed, r) ← transactionStatusUpdated h s.repositories
          return {
            repositories := r
            handlers := s.handlers.set i h
            subscriptions := if unsubscribed then [] else s.subscriptions
            dispatched := s.dispatched.eraseIdx index }
  | .change r => .ok { s with repositories := r }

end WalletSettingsDomainService

end MultisigWallet
