import MultisigWallet.AddressFormatter

/-!
# MultisigWallet.SendInput

`SendInputViewModel`, behind the screen where an amount and a recipient are entered. The fee of the
transfer is estimated by an operation on a queue of its own, which runs one operation at a time;
every change of the input cancels the operations there are and adds a new one. Meanwhile the main
thread shows what is known.

The main thread and the operation share the fields of the model and take turns as they like. A turn
is one call: `updateFeeData()` and the others are not interrupted, but `estimateTransferFee` reads
its arguments in one turn and has its answer in another, and `DispatchQueue.main.sync` waits until
the main thread has nothing to do. Of a `TokenData` only the address and the balance matter here.
-/

namespace MultisigWallet

/-- What the view model uses of a `TokenData`. -/
structure TokenBalance where
  address : TokenID
  balance : Option Int
  deriving DecidableEq, Repr

/-- `withBalance(_:)`. -/
def TokenBalance.withBalance (t : TokenBalance) (balance : Option Int) : TokenBalance :=
  { t with balance := balance }

/-- What `WalletApplicationService` answers at some moment. -/
structure SendWallet where
  /-- `feePaymentTokenData.address`. -/
  feeTokenID : TokenID
  tokenData : TokenID → Option TokenBalance
  /-- `estimateTransferFee(amount:address:)`. -/
  estimateTransferFee : Int → Option Str → Option Int

structure SendInputViewModel where
  transferTokenID : TokenID
  amount : Option Int := none
  recipient : Option Str := none
  estimatedFee : Option Int := none
  resultingBalanceTokenData : Option TokenBalance := none
  feeBalanceTokenData : Option TokenBalance := none
  feeEstimatedAmountTokenData : Option TokenBalance := none
  feeResultingBalanceTokenData : Option TokenBalance := none
  canProceedToSigning : Bool := false
  deriving DecidableEq, Repr

namespace SendInputViewModel

variable (lib : ThirdParty) (w : SendWallet) (m : SendInputViewModel)

/-- `accountBalanceTokenData`. -/
def accountBalanceTokenData : Except Trap TokenBalance :=
  unwrap "walletService.tokenData(id: transferTokenID.id)" (w.tokenData m.transferTokenID)

/-- `updateFeeData()`. -/
def updateFeeData : Except Trap SendInputViewModel := do
  let feeTokenBalance ← unwrap "walletService.tokenData(id: feeTokenID.id)"
    (w.tokenData w.feeTokenID)
  return { m with
    feeBalanceTokenData := some feeTokenBalance
    feeEstimatedAmountTokenData :=
      some (feeTokenBalance.withBalance (m.estimatedFee.map fun fee => -fee)) }

/-- `updateResultingData()`. -/
def updateResultingData : Except Trap SendInputViewModel := do
  let feeEstimated ← unwrap "feeEstimatedAmountTokenData" m.feeEstimatedAmountTokenData
  let feeBalance ← unwrap "feeBalanceTokenData" m.feeBalanceTokenData
  let account ← m.accountBalanceTokenData w
  let intAmount := m.amount.getD 0
  let feeAmount := |feeEstimated.balance.getD 0|
  let feeAccountbalance := feeBalance.balance.getD 0
  let accountBalance := account.balance.getD 0
  if w.feeTokenID = m.transferTokenID then
    let newBalance := feeAccountbalance - intAmount - feeAmount
    return { m with feeResultingBalanceTokenData := some (feeBalance.withBalance newBalance) }
  else
    return { m with
      resultingBalanceTokenData := some (account.withBalance (accountBalance - intAmount))
      feeResultingBalanceTokenData :=
        some (feeBalance.withBalance (feeAccountbalance - feeAmount)) }

/-- `isValidAddress(_:)`. -/
def isValidAddress : Option Str → Except Trap Bool
  | none => .ok false
  | some string => do return (← EthereumAddressFormatter.string lib {} string).isSome

/-- `hasEnoughFunds()`. -/
def hasEnoughFunds : Except Trap Bool := do
  let feeEstimated ← unwrap "feeEstimatedAmountTokenData" m.feeEstimatedAmountTokenData
  match feeEstimated.balance with
  | none => return false
  | some estimatedAmount =>
      let account ← m.accountBalanceTokenData w
      let feeBalanceTokenData ← unwrap "feeBalanceTokenData" m.feeBalanceTokenData
      let accountBalance := account.balance.getD 0
      let intAmount := m.amount.getD 0
      let feeBalance := feeBalanceTokenData.balance.getD 0
      let feeAmount := |estimatedAmount|
      if w.feeTokenID = m.transferTokenID then
        return decide (intAmount + feeAmount ≤ accountBalance)
      else return decide (intAmount ≤ accountBalance) && decide (feeAmount ≤ feeBalance)

/-- The first statement of `notifyUpdated()`. -/
def updateCanProceed : Except Trap SendInputViewModel := do
  let hasEnough ← m.hasEnoughFunds w
  let isValid ← isValidAddress lib m.recipient
  return { m with canProceedToSigning := hasEnough && isValid }

end SendInputViewModel

/-! ### Threads -/

/-- A call of `update()` on the main thread. -/
inductive SendMainStep
  | enqueueFeeEstimation
  | updateFeeData
  | updateResultingData
  /-- `notifyUpdated()`, with the call of `updateBlock`. -/
  | notifyUpdated
  deriving DecidableEq, Repr

/-- A turn of the block of `enqueueFeeEstimation()`. -/
inductive SendOperationStep
  /-- `if op.isCancelled { return }`. -/
  | checkCancelled
  /-- `estimateTransferFee` is called, and the arguments are read. -/
  | estimateTransferFee
  /-- It returns, and `estimatedFee` is set. -/
  | setEstimatedFee (amount : Int) (address : Option Str)
  | updateFeeData
  | updateResultingData
  | updateCanProceed
  /-- `DispatchQueue.main.sync(execute: updateBlock)`. -/
  | updateBlock
  deriving DecidableEq, Repr

/-- A `CancellableBlockOperation`. -/
structure SendOperation where
  isCancelled : Bool := false
  /-- What is left to do of the block. -/
  todo : List SendOperationStep
  deriving DecidableEq, Repr

namespace SendOperation

/-- From the second check of `isCancelled` on. -/
def update : List SendOperationStep :=
  [.checkCancelled, .updateFeeData, .updateResultingData, .updateCanProceed, .updateBlock]

/-- The block. A cancelled operation does not start, which is as if its first check failed. -/
def block : List SendOperationStep := .checkCancelled :: .estimateTransferFee :: update

end SendOperation

structure SendProcess where
  model : SendInputViewModel
  wallet : SendWallet
  /-- What the main thread is still to do of a call of `update()`. -/
  main : List SendMainStep := []
  /-- `inputQueue`; the first operation is the one that runs. -/
  operations : List SendOperation := []
  /-- `nextBarButton.isEnabled`, which `updateBlock` sets. -/
  isNextEnabled : Bool := false

inductive SendAction
  | change (amount : Int)
  | changeRecipient (recipient : Option Str)
  | update
  | resetEstimation
  /-- The wallet answers otherwise from now on. -/
  | walletDidChange (wallet : SendWallet)
  /-- The main thread takes a turn. -/
  | runMain
  /-- The operation that runs takes a turn. -/
  | runOperation

namespace SendProcess

/-- `init(tokenID:)`. -/
def init (wallet : SendWallet) (tokenID : TokenID) : SendProcess :=
  { model := { transferTokenID := tokenID }, wallet := wallet }

/-- `update()`, before its first statement. -/
def update (p : SendProcess) (model : SendInputViewModel) : SendProcess :=
  { p with
    model := model
    main := [.enqueueFeeEstimation, .updateFeeData, .updateResultingData, .notifyUpdated] }

/-- `updateBlock`, as far as the button goes. -/
def updateBlock (p : SendProcess) : SendProcess :=
  { p with isNextEnabled := p.model.canProceedToSigning }

/-- `enqueueFeeEstimation()`. -/
def enqueueFeeEstimation (p : SendProcess) : SendProcess :=
  { p with operations := p.operations.map (fun op => { op with isCancelled := true }) ++
      [{ todo := SendOperation.block }] }

/-- A statement of the main thread. -/
def runMainStep (lib : ThirdParty) (p : SendProcess) : SendMainStep → Except Trap SendProcess
  | .enqueueFeeEstimation => .ok p.enqueueFeeEstimation
  | .updateFeeData => do return { p with model := ← p.model.updateFeeData p.wallet }
  | .updateResultingData => do return { p with model := ← p.model.updateResultingData p.wallet }
  | .notifyUpdated => do
      return updateBlock { p with model := ← p.model.updateCanProceed lib p.wallet }

/-- A statement of the operation that runs, with what is left to do after it. The main thread has
nothing to do where `updateBlock` is executed. -/
def runOperationStep (lib : ThirdParty) (p : SendProcess) (isCancelled : Bool)
    (rest : List SendOperationStep) :
    SendOperationStep → Except Trap (SendProcess × List SendOperationStep)
  | .checkCancelled => .ok (p, if isCancelled then [] else rest)
  | .estimateTransferFee =>
      .ok (p, .setEstimatedFee (p.model.amount.getD 0) p.model.recipient :: rest)
  | .setEstimatedFee amount address =>
      let fee := p.wallet.estimateTransferFee amount address
      .ok ({ p with model := { p.model with estimatedFee := fee } }, rest)
  | .updateFeeData => do return ({ p with model := ← p.model.updateFeeData p.wallet }, rest)
  | .updateResultingData => do
      return ({ p with model := ← p.model.updateResultingData p.wallet }, rest)
  | .updateCanProceed => do
      return ({ p with model := ← p.model.updateCanProceed lib p.wallet }, rest)
  | .updateBlock => .ok (p.updateBlock, rest)

/-- The operation leaves the queue when it is done. -/
def setTodo (p : SendProcess) (op : SendOperation) (others : List SendOperation) :
    List SendOperationStep → SendProcess
  | [] => { p with operations := others }
  | step :: todo => { p with operations := { op with todo := step :: todo } :: others }

/-- A turn of the main thread. -/
def runMain (lib : ThirdParty) (p : SendProcess) : Except Trap SendProcess :=
  match p.main with
  | [] => .ok p
  | s :: main => runMainStep lib { p with main := main } s

/-- A turn of the operation that runs. -/
def runOperation (lib : ThirdParty) (p : SendProcess) : Except Trap SendProcess :=
  match p.operations with
  | [] => .ok p
  | op :: others =>
      match op.todo with
      | [] => .ok { p with operations := others }
      | s :: todo =>
          if s = .updateBlock ∧ p.main ≠ [] then .ok p
          else do
            let (q, todo) ← runOperationStep lib p op.isCancelled todo s
            return q.setTodo op others todo

/-- A step. The user does nothing while the main thread is busy. -/
def step (lib : ThirdParty) (p : SendProcess) : SendAction → Except Trap SendProcess
  | .change amount =>
      .ok (if p.main ≠ [] ∨ p.model.amount = some amount then p
        else p.update { p.model with amount := some amount })
  | .changeRecipient recipient =>
      .ok (if p.main ≠ [] ∨ p.model.recipient = recipient then p
        else p.update { p.model with recipient := recipient })
  | .update => .ok (if p.main ≠ [] then p else p.update p.model)
  | .resetEstimation =>
      .ok (if p.main ≠ [] then p else { p with model := { p.model with estimatedFee := none } })
  | .walletDidChange wallet => .ok { p with wallet := wallet }
  | .runMain => p.runMain lib
  | .runOperation => p.runOperation lib

end SendProcess

end MultisigWallet
