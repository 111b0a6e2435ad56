import MultisigWallet.Base
import MultisigWallet.Lib.SerialQueue

/-!
# MultisigWallet.FileSystemGuard

While the device is locked the database files cannot be opened. `FileSystemGuard` is told when the
protected data become available and unavailable, and `DataProtectionAwareCSQLite3` lets a thread
wait for it before it opens a file: a background thread at a semaphore that the guard signals, the
main thread by asking again and again whether there is access.

The methods of the guard only put a block on its serial queue, so that a thread, the device and
the queue take their steps in any order. Semaphores are numbered by the call of `sqlite3_open`
that made them, and only that call waits at them.
-/

namespace MultisigWallet

/-- A block on the queue of a guard. -/
inductive FileSystemGuard.Block
  | addUnlockSemaphore (semaphore : Nat)
  | didUnlock
  | didLock
  deriving DecidableEq, Repr

structure FileSystemGuard where
  hasAccess : Bool := true
  semaphores : List Nat := []
  /-- Not stored: the semaphores that were signalled, in order. -/
  signals : List Nat := []
  deriving DecidableEq, Repr

namespace FileSystemGuard

/-- `checkSemaphore(_:)`. -/
def checkSemaphore (g : FileSystemGuard) (sema : Nat) : FileSystemGuard × Bool :=
  (if g.hasAccess then { g with signals := g.signals ++ [sema] } else g, g.hasAccess)

/-- The `while` loop of `didUnlock()`. -/
def checkSemaphores (g : FileSystemGuard) : List Nat → FileSystemGuard
  | [] => g
  | sema :: semaphores =>
      checkSemaphores ({ g with semaphores := semaphores }.checkSemaphore sema).1 semaphores

/-- What the block does that a method puts on the queue. -/
def perform (g : FileSystemGuard) : Block → FileSystemGuard
  | .addUnlockSemaphore semaphore =>
      let (g, isSignalled) := g.checkSemaphore semaphore
      if isSignalled then g else { g with semaphores := g.semaphores ++ [semaphore] }
  | .didUnlock => { g with hasAccess := true }.checkSemaphores g.semaphores
  | .didLock => { g with hasAccess := false }

end FileSystemGuard

/-- A call of `DataProtectionAwareCSQLite3.sqlite3_open(_:_:)`. -/
structure GuardedOpen where
  isMainThread : Bool
  /-- It called `super.sqlite3_open`. -/
  isOpened : Bool := false
  deriving DecidableEq, Repr

/-- The guard, and the threads that open databases. -/
structure GuardedProcess where
  queue : SerialQueue FileSystemGuard FileSystemGuard.Block := ⟨{}, []⟩
  opens : List GuardedOpen := []
  /-- Not stored: the blocks of all calls of the methods so far. -/
  calls : List FileSystemGuard.Block := []

inductive GuardedAction
  /-- A thread calls `sqlite3_open`. -/
  | sqlite3_open (isMainThread : Bool)
  /-- `protectedDataDidBecomeAvailableNotification`. -/
  | didUnlock
  /-- `protectedDataWillBecomeUnavailableNotification`. -/
  | didLock
  /-- The queue of the guard runs a block. -/
  | runBlock
  /-- The thread of that call gets to run. -/
  | resume (semaphore : Nat)
  deriving DecidableEq, Repr

namespace GuardedProcess

/-- Whether the call gets past its wait. Nobody else waits at its semaphore. -/
def canOpen (p : GuardedProcess) (semaphore : Nat) (o : GuardedOpen) : Bool :=
  if o.isMainThread then p.queue.state.hasAccess
  else decide (semaphore ∈ p.queue.state.signals)

def call (p : GuardedProcess) (block : FileSystemGuard.Block) : GuardedProcess :=
  { p with queue := p.queue.async block, calls := p.calls ++ [block] }

def step (p : GuardedProcess) : GuardedAction → Except Trap GuardedProcess
  | .sqlite3_open isMainThread =>
      let semaphore := p.opens.length
      .ok (call { p with opens := p.opens ++ [{ isMainThread := isMainThread }] }
        (.addUnlockSemaphore semaphore))
  | .didUnlock => .ok (p.call .didUnlock)
  | .didLock => .ok (p.call .didLock)
  | .runBlock => .ok { p with queue := p.queue.runNext FileSystemGuard.perform }
  | .resume semaphore =>
      match p.opens[semaphore]? with
      | none => .ok p
      | some o =>
          if p.canOpen semaphore o then
            .ok { p with opens := p.opens.set semaphore { o with isOpened := true } }
          else .ok p

end GuardedProcess

end MultisigWallet
