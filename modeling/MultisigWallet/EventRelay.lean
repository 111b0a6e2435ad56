import MultisigWallet.Deployment
import MultisigWallet.Lib.Transition

/-!
# MultisigWallet.EventRelay

`EventRelay` notifies the application's subscribers of domain events. A subscriber may hold
any number of subscriptions; subscribers are referenced weakly, and what a deallocated one
leaves behind is removed before the next event is relayed.

The classes of events are a type `T` with a distinguished `domainEvent`, the class all others
inherit from: a subscription for it matches every event. Subscribers are a type `S`.
-/

namespace MultisigWallet

/-- `$0.type == type(of: event) || $0.type == DomainEvent.self`. -/
def matchesEvent {T : Type} [DecidableEq T] (domainEvent type event : T) : Bool :=
  type = event ∨ type = domainEvent

/-- The class of an event, of those the application's services subscribe to. -/
inductive EventType
  /-- `DomainEvent.self`. -/
  | domainEvent
  | wallet (event : DomainEvent)
  | accountsBalancesUpdated
  | tokensDisplayListChanged
  deriving DecidableEq, Repr

/-- An element of `subscribers`, with its weak reference. -/
structure EventRelay.Entry (T S : Type) where
  type : T
  ref : Option S
  deriving DecidableEq, Repr

/-- The `subscribers` of an `EventRelay`. -/
abbrev EventRelay (T S : Type) := List (EventRelay.Entry T S)

namespace EventRelay

variable {T S : Type}

/-- `subscribe(_:for:)`. -/
def subscribe (relay : EventRelay T S) (subject : S) (event : T) : EventRelay T S :=
  relay ++ [⟨event, some subject⟩]

/-- `removeWeakNils()`. -/
def removeWeakNils (relay : EventRelay T S) : EventRelay T S := relay.filter (·.ref.isSome)

/-- `handleEvent(_:)`: the subscribers that are notified, in order. -/
def handleEvent [DecidableEq T] (domainEvent : T) (relay : EventRelay T S) (event : T) :
    List S × EventRelay T S :=
  let relay := removeWeakNils relay
  ((relay.filter fun e => matchesEvent domainEvent e.type event).filterMap (·.ref), relay)

variable [DecidableEq S]

/-- `unsubscribe(_:)`. -/
def unsubscribe (relay : EventRelay T S) (subject : S) : EventRelay T S :=
  match relay.findIdx? (·.ref = some subject) with
  | some index => relay.eraseIdx index
  | none => relay

/-- The weak references to `subject` become `nil`. -/
def deallocate (relay : EventRelay T S) (subject : S) : EventRelay T S :=
  relay.map fun e => if e.ref = some subject then { e with ref := none } else e

/-! ### Calls -/

/-- What can happen to a relay. -/
inductive Call (T S : Type)
  | subscribe (subject : S) (event : T)
  | unsubscribe (subject : S)
  | handleEvent (event : T)
  | deallocate (subject : S)
  deriving DecidableEq, Repr

/-- One of them. -/
def step [DecidableEq T] (domainEvent : T) (relay : EventRelay T S) : Call T S → Except Trap (EventRelay T S)
  | .subscribe subject event => .ok (relay.subscribe subject event)
  | .unsubscribe subject => .ok (relay.unsubscribe subject)
  | .handleEvent event => .ok (relay.handleEvent domainEvent event).2
  | .deallocate subject => .ok (relay.deallocate subject)

omit [DecidableEq S] in
/-- What the services do to subscribe `subject`: all it had before is meant to go. -/
def resubscribe (subject : S) (events : List T) : List (Call T S) :=
  .unsubscribe subject :: events.map (.subscribe subject)

end EventRelay

namespace WalletApplicationService

open EventRelay

variable {S : Type}

/-- What `deployWallet(subscriber:onError:)` does to the relay. -/
def deployWallet (subscriber : S) : List (Call EventType S) :=
  resubscribe subscriber
    [.wallet .deploymentStarted, .wallet .startedWaitingForFirstDeposit,
      .wallet .startedWaitingForRemainingFeeAmount, .wallet .deploymentFunded,
      .wallet .creationStarted, .wallet .walletTransactionHashIsKnown, .wallet .walletCreated,
      .wallet .walletCreationFailed]

/-- What `subscribeOnTokensUpdates(subscriber:)` does to the relay. -/
def subscribeOnTokensUpdates (subscriber : S) : List (Call EventType S) :=
  resubscribe subscriber [.accountsBalancesUpdated, .tokensDisplayListChanged]

end WalletApplicationService

end MultisigWallet
