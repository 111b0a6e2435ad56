import MultisigWallet.Transaction

/-!
# MultisigWallet.Polling

Asking a service again and again. `Worker` repeats a job until it says that it should stop, and
`repeatBlock(every:block:)` stops it also after the third failure in a row; the application service
waits so for a transaction and observes a balance. `RetryWithIncreasingDelay` asks a bounded number
of times and waits longer after each failure.

The answers of the service are a list, of which a job takes one each time; the worker is `polling`
when it has used up those there are.
-/

namespace MultisigWallet

/-! ### Errors -/

inductive NetworkServiceError
  | networkError
  | serverError
  | clientError
  deriving DecidableEq, Repr

/-- What a call of a service throws. -/
inductive ServiceError
  | service (error : NetworkServiceError)
  /-- `JSONHTTPClient.Error.networkRequestFailed`, with the status if there is a response. -/
  | networkRequestFailed (statusCode : Option Int)
  | other (text : Str)
  deriving DecidableEq, Repr

namespace EthereumApplicationService

/-- What the application service throws. -/
inductive Error
  | networkError
  | serverError
  | clientError
  | other (text : Str)
  deriving DecidableEq, Repr

/-- `error(from:)` of a `NetworkServiceError`. -/
def errorFromService : NetworkServiceError → Error
  | .clientError => .clientError
  | .networkError => .networkError
  | .serverError => .serverError

/-- `error(from:)` of a response. -/
def errorFromResponse : Option Int → Error
  | some statusCode => if 400 ≤ statusCode ∧ statusCode < 500 then .clientError else .serverError
  | none => .networkError

/-- `handleNodeServiceErrors(_:)`, and `handleRelayServiceErrors(_:)`. -/
def handleServiceErrors {α : Type} : Except ServiceError α → Except Error α
  | .ok value => .ok value
  | .error (.service error) => .error (errorFromService error)
  | .error (.networkRequestFailed response) => .error (errorFromResponse response)
  | .error (.other text) => .error (.other text)

/-! ### Repeating -/

/-- How far a worker came; `state` is what its job wrote. -/
inductive Polled (σ : Type)
  | polling (state : σ)
  | returned (state : σ)
  | threw (error : Error) (state : σ)
  deriving DecidableEq

def Polled.state {σ : Type} : Polled σ → σ
  | polling s => s
  | returned s => s
  | threw _ s => s

section

variable {σ α : Type} (block : σ → α → σ × Bool)

/-- The loop of `repeatBlock(every:block:)`. The block writes its state and says whether to stop,
once its call has not thrown. -/
def repeatLoop : σ → Int → List (Except Error α) → Polled σ
  | s, _, [] => .polling s
  | s, _, .ok value :: answers =>
      let (s, result) := block s value
      if result then .returned s else repeatLoop s 3 answers
  | s, retryCount, .error error :: answers =>
      if retryCount - 1 = 0 then .threw error s else repeatLoop s (retryCount - 1) answers

/-- `repeatBlock(every:block:)`. -/
def repeatBlock (s : σ) (answers : List (Except Error α)) : Polled σ := repeatLoop block s 3 answers

end

/-- What is written by the block of `observeChangesInBalance(address:every:block:)`, with the
balances that were told to the observer. -/
structure Observing where
  balance : Option Int := none
  told : List Int := []
  deriving DecidableEq

/-- `observeChangesInBalance(address:every:block:)`. The observer may remember what it was told. -/
def observeChangesInBalance (observer : List Int → Bool)
    (answers : List (Except ServiceError Int)) : Polled Observing :=
  repeatBlock (fun s newBalance =>
    if some newBalance ≠ s.balance then
      let told := s.told ++ [newBalance]
      (⟨some newBalance, told⟩, observer told)
    else (⟨some newBalance, s.told⟩, false)) {} (answers.map handleServiceErrors)

/-- The worker of `waitForCreationTransaction(address:)` and `waitForPendingTransaction(hash:)`,
which stops at the first value there is. -/
def waitForValue {α : Type} (answers : List (Except ServiceError (Option α))) :
    Polled (Option α) :=
  repeatBlock (fun _ value => (value, value.isSome)) none (answers.map handleServiceErrors)

/-- What is done with the value once the worker has stopped; nothing is returned before. -/
def finish {α β : Type} (name : String) (f : α → β) :
    Polled (Option α) → Except Trap (Option (Except Error β))
  | .polling _ => .ok none
  | .threw error _ => .ok (some (.error error))
  | .returned value => do return some (.ok (f (← unwrap name value)))

/-- `waitForCreationTransaction(address:)`. -/
def waitForCreationTransaction (answers : List (Except ServiceError (Option Str))) :
    Except Trap (Option (Except Error Str)) :=
  finish "hash" id (waitForValue answers)

/-- `waitForPendingTransaction(hash:)`; of a receipt the status is read. -/
def waitForPendingTransaction (answers : List (Except ServiceError (Option TransactionStatus))) :
    Except Trap (Option (Except Error Bool)) :=
  finish "receipt" (· = .success) (waitForValue answers)

end EthereumApplicationService

/-! ### A bounded number of attempts -/

namespace RetryWithIncreasingDelay

variable {α ε : Type}

/-- What `start()` came to, and how long it waited each time. -/
structure Retried (α ε : Type) where
  result : Except ε α
  waits : List Int

/-- The loop of `start()`; `main i` is what the closure does when it is called again after `i`
failures. -/
def loop (main : Nat → Except ε α) (delayIncrement : Int) :
    Nat → Nat → Int → Option ε → List Int → Except Trap (Retried α ε)
  | 0, _, _, error, waits => do return ⟨.error (← unwrap "error" error), waits⟩
  | attempts + 1, i, delay, _, waits =>
      match main i with
      | .ok value => .ok ⟨.ok value, waits⟩
      | .error error =>
          loop main delayIncrement attempts (i + 1) (delay + delayIncrement) (some error)
            (waits ++ [delay])

/-- `init(maxAttempts:startDelay:_:)` and `start()`. -/
def start (maxAttempts : Nat) (startDelay : Int) (main : Nat → Except ε α) :
    Except Trap (Retried α ε) := do
  precondition (decide (0 < maxAttempts)) "maxAttempts > 0"
  loop main startDelay maxAttempts 0 startDelay none []

end RetryWithIncreasingDelay

end MultisigWallet
