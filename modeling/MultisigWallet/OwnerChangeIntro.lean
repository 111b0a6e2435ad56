import MultisigWallet.BrowserExtension
import MultisigWallet.Lib.Transition

/-!
# MultisigWallet.OwnerChangeIntro

`RBEIntroViewController`, the first screen of every change of the browser extension or of the
recovery phrase. It has a transaction created, shows what it costs, and starts it when the user
wants to. What a tap does depends on the state of the screen, and the calls of the `RBEStarter` are
made by operations in the background.

An operation takes a turn for each thing it does, and between two turns the user may tap anything.
`DispatchQueue.main.sync` is one turn, in which the main thread executes the whole block.
-/

namespace MultisigWallet

namespace RBEIntroViewController

/-- What the starter would answer at some moment. -/
structure RBEStarter where
  create : TransactionID
  estimate : TransactionID → RBEEstimationResult
  start : TransactionID → Except Thrown Unit

/-- The states of the screen. -/
inductive State
  | loading
  | invalid (error : Thrown)
  | ready
  | starting
  | error (error : Thrown)
  | started
  | cancelling
  deriving DecidableEq, Repr

/-- The only button on the right of the navigation bar. -/
inductive BarButton
  | start
  | retry
  deriving DecidableEq, Repr

/-- `OwnerModificationFeeCalculation`. -/
structure FeeCalculation where
  /-- The lines of the balances and of the fee; otherwise they say that they are loaded. -/
  data : Option RBEFeeCalculationData := none
  balanceError : Option Thrown := none
  errorLine : Option Thrown := none
  deriving DecidableEq, Repr

/-- The block of an operation that has not returned. -/
inductive Operation
  /-- `controller.transactionID ?? controller.starter?.create()`. -/
  | findTransaction
  | setTransaction (transactionID : TransactionID)
  | estimate (transactionID : TransactionID)
  /-- The block for the main thread, of `reload(controller:)`. -/
  | report (estimation : RBEEstimationResult)
  /-- `guard let transaction = controller.transactionID`, and the call of the starter. -/
  | start
  /-- The block for the main thread, of `doStart(controller:)`. -/
  | reportStart (result : Except Thrown Unit)
  deriving DecidableEq

/-- A call of the starter, with what it returned. -/
inductive StarterCall
  | create (transactionID : TransactionID)
  | estimate (transactionID : TransactionID) (result : RBEEstimationResult)
  | start (transactionID : TransactionID) (result : Except Thrown Unit)
  deriving DecidableEq

/-- The screen, with the operations in the background. -/
structure Controller where
  /-- `starter != nil`. -/
  hasStarter : Bool
  state : State := .loading
  transactionID : Option TransactionID := none
  calculationData : Option RBEFeeCalculationData := none
  feeCalculation : FeeCalculation := {}
  /-- The title view is a `LoadingTitleView`. -/
  isLoading : Bool := false
  button : Option BarButton := none
  isStartEnabled : Bool := true
  isRetryEnabled : Bool := true
  /-- The errors of the alerts that were presented. -/
  alerts : List Thrown := []
  operations : List Operation := []
  calls : List StarterCall := []
  /-- The transaction at each call of `rbeIntroViewControllerDidStart()`. -/
  started : List (Option TransactionID) := []
  deriving DecidableEq

namespace Controller

variable (c : Controller)

/-- `reloadData()`. -/
def reloadData : Controller := { c with feeCalculation := { data := c.calculationData } }

/-- `setBalanceError(_:)`, or the line of the error. -/
def showError (error : Thrown) : Controller :=
  if error = .fee .insufficientBalance then
    { c with feeCalculation := { c.feeCalculation with balanceError := some error } }
  else { c with feeCalculation := { c.feeCalculation with errorLine := some error } }

/-- `didEnter(controller:)`. -/
def didEnter : State → Controller
  | .loading => { c with
      isLoading := true, button := some .start, isStartEnabled := false, feeCalculation := {}
      operations := c.operations ++ [.findTransaction] }
  | .invalid error =>
      { c with isLoading := false, button := some .retry, isRetryEnabled := true }.reloadData
        |>.showError error
  | .ready => { c.reloadData with
      isLoading := false, isStartEnabled := true, button := some .start }
  | .starting => { c with
      isLoading := true, button := some .start, isStartEnabled := false
      operations := c.operations ++ [.start] }
  | .error error => { c with
      alerts := c.alerts ++ [error], isLoading := false, button := some .start
      isStartEnabled := true }
  | .started => { c with
      isLoading := false, isStartEnabled := true, button := some .start
      started := c.started ++ [c.transactionID] }
  | .cancelling => c

/-- `transition(to:)`. -/
def transition (newState : State) : Controller := { c with state := newState }.didEnter newState

/-! ### Actions -/

/-- `handleError(_:)`. -/
def handleError (error : Thrown) : Controller :=
  match c.state with
  | .loading => c.transition (.invalid error)
  | .starting => c.transition (.error error)
  | _ => c

/-- `didLoad()`. -/
def didLoad : Controller :=
  match c.state with
  | .loading => c.transition .ready
  | _ => c

/-- `didStart()`. -/
def didStart : Controller :=
  match c.state with
  | .starting => c.transition .started
  | _ => c

/-- `back()`. -/
def back : Controller :=
  match c.state with
  | .loading | .invalid _ | .ready | .error _ => c.transition .cancelling
  | .starting | .started | .cancelling => c

/-- `start()`. -/
def start : Controller :=
  match c.state with
  | .ready | .error _ | .started => c.transition .starting
  | .loading | .invalid _ | .starting | .cancelling => c

/-- `retry()`. -/
def retry : Controller :=
  match c.state with
  | .invalid _ => c.transition .loading
  | _ => c

/-! ### Operations -/

/-- A turn of an operation, and what is left of it. -/
def turn (starter : RBEStarter) : Operation → Controller × Option Operation
  | .findTransaction =>
      match c.transactionID with
      | some id => (c, some (.setTransaction id))
      | none =>
          if c.hasStarter then
            let id := starter.create
            ({ c with calls := c.calls ++ [.create id] }, some (.setTransaction id))
          else (c, none)
  | .setTransaction id => ({ c with transactionID := some id }, some (.estimate id))
  | .estimate id =>
      if c.hasStarter then
        let estimation := starter.estimate id
        ({ c with calls := c.calls ++ [.estimate id estimation] }, some (.report estimation))
      else (c, none)
  | .report estimation =>
      let c := { c with calculationData := estimation.feeCalculation }
      match estimation.error with
      | some error => (c.handleError error, none)
      | none => (c.didLoad, none)
  | .start =>
      match c.transactionID with
      | none => (c, none)
      | some id =>
          if c.hasStarter then
            let result := starter.start id
            ({ c with calls := c.calls ++ [.start id result] }, some (.reportStart result))
          else (c, some (.reportStart (.ok ())))
  | .reportStart (.ok ()) => (c.didStart, none)
  | .reportStart (.error error) => (c.handleError error, none)

end Controller

/-- What happens to the screen. -/
inductive Action
  | back
  | start
  | retry
  /-- An operation, by its place among those there are, takes its turn. -/
  | turn (i : Nat) (starter : RBEStarter)

namespace Controller

/-- A turn of the operation at a place; it gives its place up for the time of its turn. -/
def turnAt (c : Controller) (i : Nat) (starter : RBEStarter) : Controller :=
  match c.operations[i]? with
  | none => c
  | some operation =>
      let (c, left) := { c with operations := c.operations.eraseIdx i }.turn starter operation
      { c with operations := c.operations ++ left.toList }

def step (c : Controller) : Action → Except Trap Controller
  | .back => .ok c.back
  | .start => .ok c.start
  | .retry => .ok c.retry
  | .turn i starter => .ok (c.turnAt i starter)

/-- The screen after `viewDidLoad()`. -/
def viewDidLoad (hasStarter : Bool) : Controller :=
  { hasStarter := hasStarter : Controller }.transition .loading

end Controller

end RBEIntroViewController

end MultisigWallet
