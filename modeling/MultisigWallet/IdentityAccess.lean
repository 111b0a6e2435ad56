import MultisigWallet.Base
import MultisigWallet.Lib.Transition

/-!
# MultisigWallet.IdentityAccess

Logging in: `IdentityService`, `Gatekeeper` and `Session`.

The user and the gatekeeper are stored apart. The gatekeeper has the session, counts the
attempts that failed and blocks further ones; the user has the identifier of a session. The user
is authenticated while the two are of the same session and it is active.

Times and durations are in ticks, and no operation assumes that a clock only goes forward. An
operation that *throws* returns its error, and a save of the user may throw; the gatekeeper is
saved with `try!`.
-/

namespace MultisigWallet

namespace IdentityAccess

abbrev TimeInterval := Int
abbrev UserID := BaseID
abbrev SessionID := BaseID

/-- Whatever the operations throw. -/
inductive Error
  | sessionDurationMustBePositive
  | maxFailedAttemptsMustBePositive
  | blockDurationMustBeNonNegative
  | invalidDuration
  | sessionWasActiveAlready
  | sessionIsNotActive
  | sessionWasFinishedAlready
  | accessBlocked
  | gatekeeperNotFound
  | userAlreadyRegistered
  | emptyPassword
  | passwordTooShort
  | passwordMissingLetter
  | passwordMissingDigit
  | passwordHasTrippleChar
  | primaryUserNotFound
  /-- Of the repository of users, or of the biometric service. -/
  | service
  deriving DecidableEq, Repr

/-- `assertTrue(_:_:)`. -/
def assertTrue (condition : Bool) (error : Error) : Except Error Unit :=
  if condition then .ok () else .error error

/-! ### Policy -/

/-- `AuthenticationPolicy`. -/
structure AuthenticationPolicy where
  sessionDuration : TimeInterval
  maxFailedAttempts : Int
  blockDuration : TimeInterval
  sessionDuration_pos : 0 < sessionDuration
  maxFailedAttempts_pos : 0 < maxFailedAttempts
  blockDuration_nonneg : 0 ≤ blockDuration
  deriving DecidableEq

namespace AuthenticationPolicy

/-- `init(sessionDuration:maxFailedAttempts:blockDuration:)`. -/
def create (sessionDuration : TimeInterval) (maxFailedAttempts : Int)
    (blockDuration : TimeInterval) : Except Error AuthenticationPolicy :=
  if hs : 0 < sessionDuration then
    if hm : 0 < maxFailedAttempts then
      if hb : 0 ≤ blockDuration then
        .ok ⟨sessionDuration, maxFailedAttempts, blockDuration, hs, hm, hb⟩
      else .error .blockDurationMustBeNonNegative
    else .error .maxFailedAttemptsMustBePositive
  else .error .sessionDurationMustBePositive

/-- `withSessionDuration(_:)`. -/
def withSessionDuration (p : AuthenticationPolicy) (newValue : TimeInterval) :
    Except Error AuthenticationPolicy :=
  create newValue p.maxFailedAttempts p.blockDuration

/-- `withMaxFailedAttempts(_:)`. -/
def withMaxFailedAttempts (p : AuthenticationPolicy) (newValue : Int) :
    Except Error AuthenticationPolicy :=
  create p.sessionDuration newValue p.blockDuration

/-- `withBlockDuration(_:)`. -/
def withBlockDuration (p : AuthenticationPolicy) (newValue : TimeInterval) :
    Except Error AuthenticationPolicy :=
  create p.sessionDuration p.maxFailedAttempts newValue

end AuthenticationPolicy

/-! ### Sessions -/

/-- The `Session` entity. -/
structure Session where
  id : SessionID
  duration : TimeInterval
  duration_pos : 0 < duration
  startedAt : Option Date := none
  endedAt : Option Date := none
  updatedAt : Option Date := none
  deriving DecidableEq

namespace Session

/-- `init(id:durationInSeconds:)`. -/
def create (id : SessionID) (durationInSeconds : TimeInterval) : Except Error Session :=
  if h : 0 < durationInSeconds then
    .ok { id := id, duration := durationInSeconds, duration_pos := h }
  else .error .invalidDuration

/-- `startTime ... endTime`. -/
def closedRange (startTime endTime : Date) : Except Trap (Date × Date) := do
  precondition (decide (startTime ≤ endTime)) "Can't form Range with upperBound < lowerBound"
  return (startTime, endTime)

/-- `isActiveAt(_:)`. -/
def isActiveAt (s : Session) (time : Date) : Except Trap Bool :=
  match s.endedAt, s.startedAt with
  | some _, _ => .ok false
  | none, none => .ok false
  | none, some startTime => do
      let endTime := s.updatedAt.getD startTime + s.duration
      let activeTimePeriod ← closedRange startTime endTime
      return decide (activeTimePeriod.1 ≤ time ∧ time ≤ activeTimePeriod.2)

/-- `start(_:)`. -/
def start (s : Session) (time : Date) : Except Trap (Except Error Session) :=
  match s.endedAt with
  | some _ => .ok (.error .sessionWasFinishedAlready)
  | none => do
      if ← s.isActiveAt time then return .error .sessionWasActiveAlready
      else return .ok { s with startedAt := some time }

/-- `finish(_:)`. -/
def finish (s : Session) (time : Date) : Except Trap (Except Error Session) := do
  if ← s.isActiveAt time then return .ok { s with endedAt := some time }
  else return .error .sessionIsNotActive

/-- `renew(_:)`. -/
def renew (s : Session) (time : Date) : Except Trap (Except Error Session) := do
  if ← s.isActiveAt time then return .ok { s with updatedAt := some time }
  else return .error .sessionIsNotActive

end Session

/-! ### The gatekeeper -/

/-- The `Gatekeeper` entity. -/
structure Gatekeeper where
  policy : AuthenticationPolicy
  session : Option Session := none
  failedAttemptCount : Int := 0
  accessDeniedAt : Option Date := none
  deriving DecidableEq

namespace Gatekeeper

/-- `reset()`. -/
def reset (g : Gatekeeper) : Gatekeeper := { policy := g.policy }

/-- The assignment to `policy`, of which `didSet` resets the gatekeeper. -/
def changePolicy (g : Gatekeeper) (policy : AuthenticationPolicy) : Gatekeeper :=
  { g with policy := policy }.reset

/-- `changeSessionDuration(_:)`. -/
def changeSessionDuration (g : Gatekeeper) (newValue : TimeInterval) : Except Error Gatekeeper :=
  return g.changePolicy (← g.policy.withSessionDuration newValue)

/-- `changeMaxFailedAttempts(_:)`. -/
def changeMaxFailedAttempts (g : Gatekeeper) (newValue : Int) : Except Error Gatekeeper :=
  return g.changePolicy (← g.policy.withMaxFailedAttempts newValue)

/-- `changeBlockDuration(_:)`. -/
def changeBlockDuration (g : Gatekeeper) (newValue : TimeInterval) : Except Error Gatekeeper :=
  return g.changePolicy (← g.policy.withBlockDuration newValue)

/-- `isAccessPossible(at:)`. -/
def isAccessPossible (g : Gatekeeper) (time : Date) : Bool :=
  match g.accessDeniedAt with
  | none => true
  | some deniedTime =>
      let isBlockPeriodExpired := decide (time ≥ deniedTime + g.policy.blockDuration)
      let hasMoreAttempts := decide (g.failedAttemptCount < g.policy.maxFailedAttempts)
      hasMoreAttempts || isBlockPeriodExpired

/-- `allowAccess(at:)`; `id` is the identifier of the new session. -/
def allowAccess (g : Gatekeeper) (time : Date) (id : SessionID) :
    Except Trap (Except Error Gatekeeper) :=
  match assertTrue (g.isAccessPossible time) .accessBlocked,
      Session.create id g.policy.sessionDuration with
  | .error error, _ => .ok (.error error)
  | .ok (), .error error => .ok (.error error)
  | .ok (), .ok session => do
      match ← session.start time with
      | .error error => return .error error
      | .ok session => return .ok { policy := g.policy, session := some session }

/-- `denyAccess(at:)`. -/
def denyAccess (g : Gatekeeper) (time : Date) : Except Trap Gatekeeper := do
  let failedAttemptCount ← addInt g.failedAttemptCount 1
  return { g with
    session := none
    failedAttemptCount := failedAttemptCount
    accessDeniedAt := some time }

/-- `hasAccess(session:at:)`. -/
def hasAccess (g : Gatekeeper) (id : SessionID) (time : Date) : Except Trap Bool :=
  match g.session with
  | none => .ok false
  | some session => if session.id = id then session.isActiveAt time else .ok false

/-- `useAccess(at:)`. -/
def useAccess (g : Gatekeeper) (time : Date) : Except Trap (Except Error Gatekeeper) :=
  match assertTrue (g.isAccessPossible time) .accessBlocked, g.session with
  | .error error, _ => .ok (.error error)
  | .ok (), none => .ok (.ok g)
  | .ok (), some session => do
      match ← session.renew time with
      | .error error => return .error error
      | .ok session => return .ok { g with session := some session }

end Gatekeeper

/-! ### The identity service -/

/-- The `User` entity. -/
structure User where
  id : UserID
  password : Str
  sessionID : Option SessionID := none
  deriving DecidableEq

/-- What the two repositories hold. -/
structure Identity where
  user : Option User
  gatekeeper : Option Gatekeeper

/-- The encryption service, and the character sets of Foundation. -/
structure Services where
  encrypted : Str → Str
  letters : Char → Bool
  decimalDigits : Char → Bool

/-- The loop of `hasNoTrippleChar`. -/
def hasNoTrippleCharFrom : Char → Nat → Str → Bool
  | _, _, [] => true
  | previous, sequenceLength, c :: cs =>
      if c = previous then
        if sequenceLength + 1 = 3 then false else hasNoTrippleCharFrom previous (sequenceLength + 1) cs
      else hasNoTrippleCharFrom c 1 cs

/-- `hasNoTrippleChar`; shorter strings have none anyway. -/
def hasNoTrippleChar : Str → Bool
  | [] => true
  | c :: cs => if (c :: cs).length > 2 then hasNoTrippleCharFrom c 1 cs else true

/-- What a call of the service came to. `authenticate` returns `nil` both if it is blocked and
if the credentials are wrong; only in the second case has it checked them. -/
inductive Outcome
  | returned
  | blocked
  | denied
  | authenticated (user : UserID)
  | threw (error : Error)
  deriving DecidableEq

namespace Identity

/-- `isUserAuthenticated(at:)`. -/
def isUserAuthenticated (s : Identity) (time : Date) : Except Trap Bool :=
  match s.gatekeeper, s.user.bind User.sessionID with
  | some gatekeeper, some sessionID => gatekeeper.hasAccess sessionID time
  | _, _ => .ok false

/-- `userRepository.save(_:)`; `stored` says whether it returns. -/
def saveUser (s : Identity) (user : User) (stored : Bool) (outcome : Outcome) :
    Identity × Outcome :=
  if stored then ({ s with user := some user }, outcome) else (s, .threw .service)

variable (services : Services)

/-- `validatePlaintextPassword(_:)`. -/
def validatePlaintextPassword (password : Str) : Except Error Unit := do
  assertTrue (!password.isEmpty) .emptyPassword
  assertTrue (password.length ≥ 6) .passwordTooShort
  assertTrue (password.any services.letters) .passwordMissingLetter
  assertTrue (password.any services.decimalDigits) .passwordMissingDigit
  assertTrue (hasNoTrippleChar password) .passwordHasTrippleChar

/-- `registerUser(password:)`; `activated` says whether the biometric service returns. -/
def registerUser (s : Identity) (password : Str) (id : UserID) (stored activated : Bool) :
    Identity × Outcome :=
  match assertTrue s.user.isNone .userAlreadyRegistered,
      validatePlaintextPassword services password with
  | .error error, _ => (s, .threw error)
  | .ok (), .error error => (s, .threw error)
  | .ok (), .ok () =>
      s.saveUser ⟨id, services.encrypted password, none⟩ stored
        (if activated then .returned else .threw .service)

/-- `updatePrimaryUserPassword(with:)`. -/
def updatePrimaryUserPassword (s : Identity) (password : Str) (stored : Bool) :
    Identity × Outcome :=
  match s.user, validatePlaintextPassword services password with
  | none, _ => (s, .threw .primaryUserNotFound)
  | some _, .error error => (s, .threw error)
  | some user, .ok () => s.saveUser ⟨user.id, services.encrypted password, none⟩ stored .returned

/-- `authenticate(at:_:)`; `credentials` is what the closure finds if it is called. -/
def authenticate (s : Identity) (time : Date) (id : SessionID) (stored : Bool)
    (credentials : Option User) : Except Trap (Identity × Outcome) :=
  match s.gatekeeper with
  | none => .ok (s, .threw .gatekeeperNotFound)
  | some gatekeeper =>
      if gatekeeper.isAccessPossible time then
        match credentials with
        | none => do
            let gatekeeper ← gatekeeper.denyAccess time
            return ({ s with gatekeeper := some gatekeeper }, .denied)
        | some user => do
            match ← gatekeeper.allowAccess time id with
            | .error error => return (s, .threw error)
            | .ok gatekeeper =>
                return { s with gatekeeper := some gatekeeper }.saveUser
                  { user with sessionID := some id } stored (.authenticated user.id)
      else .ok (s, .blocked)

/-- `authenticateUser(password:at:)`. -/
def authenticateUser (s : Identity) (password : Str) (time : Date) (id : SessionID)
    (stored : Bool) : Except Trap (Identity × Outcome) :=
  s.authenticate time id stored (s.user.filter (·.password = services.encrypted password))

/-- `authenticateUserBiometrically(at:)`; `recognized` is what the biometric service says. -/
def authenticateUserBiometrically (s : Identity) (recognized : Bool) (time : Date)
    (id : SessionID) (stored : Bool) : Except Trap (Identity × Outcome) :=
  s.authenticate time id stored (if recognized then s.user else none)

/-- A change of the stored gatekeeper, if there is one. -/
def changeGatekeeper (s : Identity) (change : Gatekeeper → Except Error Gatekeeper) :
    Identity × Outcome :=
  match s.gatekeeper with
  | none => (s, .returned)
  | some gatekeeper =>
      match change gatekeeper with
      | .error error => (s, .threw error)
      | .ok gatekeeper => ({ s with gatekeeper := some gatekeeper }, .returned)

/-- `useAccess(at:)` on the stored gatekeeper. -/
def useAccess (s : Identity) (time : Date) : Except Trap (Identity × Outcome) :=
  match s.gatekeeper with
  | none => .ok (s, .returned)
  | some gatekeeper => do
      match ← gatekeeper.useAccess time with
      | .error error => return (s, .threw error)
      | .ok gatekeeper => return ({ s with gatekeeper := some gatekeeper }, .returned)

/-- `AuthenticationApplicationService.reset()`; `removed` says whether the removal of the user
returns. -/
def reset (s : Identity) (removed : Bool) : Identity × Outcome :=
  if s.user.isNone || removed then
    ({ user := none, gatekeeper := s.gatekeeper.map Gatekeeper.reset }, .returned)
  else (s, .threw .service)

end Identity

/-! ### Runs -/

/-- A call, with all it gets from outside. -/
inductive Call
  | registerUser (password : Str) (id : UserID) (stored activated : Bool)
  | updatePrimaryUserPassword (password : Str) (stored : Bool)
  | authenticateUser (password : Str) (time : Date) (id : SessionID) (stored : Bool)
  | authenticateUserBiometrically (recognized : Bool) (time : Date) (id : SessionID)
      (stored : Bool)
  | useAccess (time : Date)
  | configureSession (duration : TimeInterval)
  | configureMaxPasswordAttempts (count : Int)
  | configureBlockDuration (duration : TimeInterval)
  | resetGatekeeper
  | reset (removed : Bool)
  deriving DecidableEq

/-- The stored identity, and every call so far with its outcome. -/
structure History where
  identity : Identity
  log : List (Call × Outcome) := []

variable (services : Services)

/-- What a call does. -/
def Call.perform (s : Identity) : Call → Except Trap (Identity × Outcome)
  | registerUser password id stored activated =>
      .ok (s.registerUser services password id stored activated)
  | updatePrimaryUserPassword password stored =>
      .ok (s.updatePrimaryUserPassword services password stored)
  | authenticateUser password time id stored =>
      s.authenticateUser services password time id stored
  | authenticateUserBiometrically recognized time id stored =>
      s.authenticateUserBiometrically recognized time id stored
  | useAccess time => s.useAccess time
  | configureSession duration => .ok (s.changeGatekeeper (·.changeSessionDuration duration))
  | configureMaxPasswordAttempts count =>
      .ok (s.changeGatekeeper (·.changeMaxFailedAttempts count))
  | configureBlockDuration duration => .ok (s.changeGatekeeper (·.changeBlockDuration duration))
  | resetGatekeeper => .ok (s.changeGatekeeper fun g => .ok g.reset)
  | reset removed => .ok (s.reset removed)

/-- One call. -/
def step (h : History) (call : Call) : Except Trap History := do
  let (identity, outcome) ← call.perform services h.identity
  return ⟨identity, h.log ++ [(call, outcome)]⟩

end IdentityAccess

end MultisigWallet
