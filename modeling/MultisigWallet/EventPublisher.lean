import MultisigWallet.EventRelay

/-!
# MultisigWallet.EventPublisher

`EventPublisher` calls closures that are subscribed for classes of events. What its methods do is
queued: `subscribe`, `unsubscribe` and `publish` only put a block on a serial queue, which runs
the blocks one after the other, in order. The block of `publish` does not call the closures
either. It hands each of them to a concurrent queue, and that queue may begin what it is handed
in any order and have any number of closures running.

Subscriptions and events are numbered by the call that made them. Subscribers are referenced
weakly by the source; the ones of the model are never deallocated.
-/

namespace MultisigWallet

/-- An element of `subscriptions`; the closure is that of the call `id`. -/
structure Subscription (T S : Type) where
  id : Nat
  subscriber : S
  type : T
  deriving DecidableEq, Repr

/-- An event; `id` is the call that published it. -/
structure PublishedEvent (T : Type) where
  id : Nat
  type : T
  deriving DecidableEq, Repr

/-- A call of a closure. -/
structure Delivery (T S : Type) where
  subscription : Subscription T S
  event : PublishedEvent T
  deriving DecidableEq, Repr

namespace EventPublisher

/-- A block on the serial queue. -/
inductive Block (T S : Type)
  | subscribe (subscription : Subscription T S)
  | unsubscribe (subscriber : S)
  | publish (event : PublishedEvent T)
  deriving DecidableEq, Repr

/-- A call of a method. -/
inductive Call (T S : Type)
  | subscribe (subscriber : S) (type : T)
  | unsubscribe (subscriber : S)
  | publish (type : T)
  deriving DecidableEq, Repr

/-- The block the `id`-th call queues. -/
def Call.block {T S : Type} (id : Nat) : Call T S → Block T S
  | .subscribe subscriber type => .subscribe ⟨id, subscriber, type⟩
  | .unsubscribe subscriber => .unsubscribe subscriber
  | .publish type => .publish ⟨id, type⟩

end EventPublisher

/-- The publisher and its queues. -/
structure EventPublisher (T S : Type) where
  subscriptions : List (Subscription T S) := []
  /-- The serial queue, the next block first. -/
  queue : List (EventPublisher.Block T S) := []
  /-- What the concurrent queue was handed and has not begun, in the order it was handed. -/
  dispatched : List (Delivery T S) := []
  running : List (Delivery T S) := []
  /-- Not stored: the blocks of all calls so far. -/
  calls : List (EventPublisher.Block T S) := []
  /-- Not stored: the closures called so far, in the order they began. -/
  begun : List (Delivery T S) := []
  deriving DecidableEq, Repr

namespace EventPublisher

variable {T S : Type} [DecidableEq T] [DecidableEq S] (domainEvent : T)

/-- What a block of the serial queue does to the subscriptions, and what it hands to the
concurrent queue. -/
def Block.perform (subscriptions : List (Subscription T S)) :
    Block T S → List (Subscription T S) × List (Delivery T S)
  | .subscribe subscription => (subscriptions ++ [subscription], [])
  | .unsubscribe subscriber => (subscriptions.filter (·.subscriber ≠ subscriber), [])
  | .publish event =>
      (subscriptions, (subscriptions.filter (matchesEvent domainEvent ·.type event.type)).map
        fun subscription => ⟨subscription, event⟩)

/-- What happens next. -/
inductive Step (T S : Type)
  /-- A method is called, by anyone: a closure that is running may be the caller. -/
  | call (call : Call T S)
  /-- The serial queue runs its next block. -/
  | drain
  /-- The concurrent queue begins one of the closures it was handed. -/
  | begin (index : Nat)
  /-- A closure returns. -/
  | finish (index : Nat)
  deriving DecidableEq, Repr

/-- One step. Nothing happens when there is no such block. -/
def step (p : EventPublisher T S) : Step T S → Except Trap (EventPublisher T S)
  | .call call =>
      let block := call.block p.calls.length
      .ok { p with queue := p.queue ++ [block], calls := p.calls ++ [block] }
  | .drain =>
      match p.queue with
      | [] => .ok p
      | block :: queue =>
          let (subscriptions, deliveries) := block.perform domainEvent p.subscriptions
          .ok { p with
            subscriptions := subscriptions
            queue := queue
            dispatched := p.dispatched ++ deliveries }
  | .begin index =>
      match p.dispatched[index]? with
      | none => .ok p
      | some delivery =>
          .ok { p with
            dispatched := p.dispatched.eraseIdx index
            running := p.running ++ [delivery]
            begun := p.begun ++ [delivery] }
  | .finish index => .ok { p with running := p.running.eraseIdx index }

end EventPublisher

end MultisigWallet
