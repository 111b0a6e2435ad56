import MultisigWallet.Deployment

/-!
# MultisigWallet.Synchronisation

The synchronisation loop. `startSyncLoop` dispatches a block that makes a `Repeater`, assigns it
to `syncLoopRepeater` and runs it until it is stopped; `stopSyncLoop` stops the repeater that is
assigned. The app calls them as it moves between foreground and background, and a dispatched
block begins whenever the queue gets to it.

What runs between two looks at `isStopped` is one step, the look included.
-/

namespace MultisigWallet

/-- What the closure of the repeater does. -/
inductive SyncAction
  /-- The closure is called. -/
  | iteration
  | syncTransactions
  | syncAccounts
  | postProcessTransactions
  deriving DecidableEq, Repr

/-- Where the thread of a repeater is. The first three are the places in the closure before the
looks at `isStopped`. -/
inductive SyncPoint
  | syncTransactions
  | syncAccounts
  | postProcessTransactions
  /-- After the closure. -/
  | mainReturned
  | wait
  | returned
  deriving DecidableEq, Repr

/-- A `Repeater` that was started, and its thread. -/
structure SyncLoop where
  state : RepeaterState
  point : SyncPoint
  deriving DecidableEq, Repr

namespace SyncLoop

def isStopped (l : SyncLoop) : Bool := l.state = .stopped

/-- `stop()`. -/
def stop (l : SyncLoop) : SyncLoop := { l with state := .stopped }

/-- The first lines of `start()`, on a new repeater. -/
def start : SyncLoop := ⟨.running, .syncTransactions⟩

/-- What the thread does up to the next look, and the actions it performs. -/
def advance (l : SyncLoop) : SyncLoop × List SyncAction :=
  match l.point with
  | .syncTransactions =>
      if l.isStopped then ({ l with point := .mainReturned }, [])
      else ({ l with point := .syncAccounts }, [.syncTransactions])
  | .syncAccounts =>
      if l.isStopped then ({ l with point := .mainReturned }, [])
      else ({ l with point := .postProcessTransactions }, [.syncAccounts])
  | .postProcessTransactions =>
      if l.isStopped then ({ l with point := .mainReturned }, [])
      else ({ l with point := .mainReturned }, [.postProcessTransactions])
  | .mainReturned =>
      if l.isStopped then ({ l with point := .returned }, [])
      else (⟨.waiting, .wait⟩, [])
  | .wait =>
      if l.isStopped then ({ l with point := .returned }, [])
      else (⟨.running, .syncTransactions⟩, [.iteration])
  | .returned => (l, [])

end SyncLoop

/-- The service, and the threads of its loops. -/
structure SynchronisationService where
  /-- The place of the repeater among `loops`. -/
  syncLoopRepeater : Option Nat := none
  /-- How many blocks of `startSyncLoop` have not begun. -/
  dispatched : Nat := 0
  loops : List SyncLoop := []
  /-- Not stored: what the loops have done so far. -/
  performed : List SyncAction := []
  deriving DecidableEq, Repr

namespace SynchronisationService

/-- `startSyncLoop()`. -/
def startSyncLoop (s : SynchronisationService) : SynchronisationService :=
  if s.syncLoopRepeater.isNone then { s with dispatched := s.dispatched + 1 } else s

/-- `stopSyncLoop()`. -/
def stopSyncLoop (s : SynchronisationService) : SynchronisationService :=
  match s.syncLoopRepeater with
  | some repeater =>
      { s with
        loops := s.loops.modify repeater SyncLoop.stop
        syncLoopRepeater := none }
  | none => s

/-- A block of `startSyncLoop` begins, if there is one. -/
def beginBlock (s : SynchronisationService) : SynchronisationService :=
  match s.dispatched with
  | 0 => s
  | dispatched + 1 =>
      { syncLoopRepeater := some s.loops.length
        dispatched := dispatched
        loops := s.loops ++ [SyncLoop.start]
        performed := s.performed ++ [.iteration] }

/-- The thread of a loop goes on, if there is one. -/
def advance (s : SynchronisationService) (loop : Nat) : SynchronisationService :=
  match s.loops[loop]? with
  | none => s
  | some l =>
      { s with
        loops := s.loops.set loop l.advance.1
        performed := s.performed ++ l.advance.2 }

/-- What happens next. -/
inductive Step
  | startSyncLoop
  | stopSyncLoop
  | beginBlock
  | advance (loop : Nat)
  deriving DecidableEq, Repr

/-- The calls of the app. -/
def Step.isCall : Step → Bool
  | startSyncLoop => true
  | stopSyncLoop => true
  | beginBlock => false
  | advance _ => false

/-- One step. -/
def step (s : SynchronisationService) : Step → Except Trap SynchronisationService
  | .startSyncLoop => .ok s.startSyncLoop
  | .stopSyncLoop => .ok s.stopSyncLoop
  | .beginBlock => .ok s.beginBlock
  | .advance loop => .ok (s.advance loop)

end SynchronisationService

end MultisigWallet
