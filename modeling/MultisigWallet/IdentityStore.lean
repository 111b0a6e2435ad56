import MultisigWallet.DBTransactionRepository
import MultisigWallet.IdentityAccess
import MultisigWallet.Lib.Rows

/-!
# MultisigWallet.IdentityStore

How the user and the gatekeeper are stored. Each has a table, of which the repositories read the
first row; the identity service reads and writes the rows one call at a time. The tables are made,
and the only gatekeeper there will be, at the first launch of the app.

The statement that was prepared for a table that does not exist is an error of the database. The
repository of gatekeepers calls the database with `try!`, that of users lets errors through where
it writes, and finds no user where it reads.
-/

namespace MultisigWallet

namespace IdentityAccess

abbrev GatekeeperID := BaseID

/-- A row of `tbl_gatekeeper`. -/
structure GatekeeperRow where
  gatekeeperID : Str
  sessionID : Option Str
  sessionDuration : Option TimeInterval
  sessionStartedAt : Option Str
  sessionEndedAt : Option Str
  sessionUpdatedAt : Option Str
  policySessionDuration : TimeInterval
  policyMaxFailedAttempts : Int
  policyBlockDuration : TimeInterval
  failedAttemptCount : Int
  accessDeniedAt : Option Str
  deriving DecidableEq, Repr

/-- A row of `tbl_user`. -/
structure UserRow where
  userID : Str
  password : Str
  sessionID : Option Str
  deriving DecidableEq, Repr

/-- The database; a table is `none` as long as it was not created. -/
structure IdentityDatabase where
  users : Option (List UserRow) := none
  gatekeepers : Option (List GatekeeperRow) := none
  deriving DecidableEq

/-- `try!` on an error of the database. -/
def databaseError : Trap := .preconditionFailure "try! db.execute"

/-! ### Repositories -/

namespace DBSingleGatekeeperRepository

variable (text : DateText)

/-- `insertionBindings(_:)`. -/
def insertionBindings (id : GatekeeperID) (g : Gatekeeper) : GatekeeperRow where
  gatekeeperID := id
  sessionID := g.session.map (·.id)
  sessionDuration := g.session.map (·.duration)
  sessionStartedAt := (g.session.bind (·.startedAt)).map text.string
  sessionEndedAt := (g.session.bind (·.endedAt)).map text.string
  sessionUpdatedAt := (g.session.bind (·.updatedAt)).map text.string
  policySessionDuration := g.policy.sessionDuration
  policyMaxFailedAttempts := g.policy.maxFailedAttempts
  policyBlockDuration := g.policy.blockDuration
  failedAttemptCount := g.failedAttemptCount
  accessDeniedAt := g.accessDeniedAt.map text.string

/-- `Session(id:duration:startedAt:endedAt:updatedAt:)`, on the columns of a row. -/
def session (row : GatekeeperRow) : Except Error (Option Session) :=
  match row.sessionID, row.sessionDuration with
  | some id, some duration => do
      let session ← Session.create id duration
      return some { session with
        startedAt := row.sessionStartedAt.bind text.timeInterval
        endedAt := row.sessionEndedAt.bind text.timeInterval
        updatedAt := row.sessionUpdatedAt.bind text.timeInterval }
  | _, _ => .ok none

/-- `objectFromResultSet(_:)`. -/
def objectFromResultSet (row : GatekeeperRow) : Except Error (GatekeeperID × Gatekeeper) := do
  let session ← session text row
  let policy ← AuthenticationPolicy.create row.policySessionDuration row.policyMaxFailedAttempts
    row.policyBlockDuration
  return (row.gatekeeperID, {
    policy := policy
    session := session
    failedAttemptCount := row.failedAttemptCount
    accessDeniedAt := row.accessDeniedAt.bind text.timeInterval })

/-- `save(_:)`. -/
def save (db : IdentityDatabase) (id : GatekeeperID) (g : Gatekeeper) :
    Except Trap IdentityDatabase :=
  match db.gatekeepers with
  | none => .error databaseError
  | some rows =>
      let row := insertionBindings text id g
      .ok { db with gatekeepers := some (Rows.replaced GatekeeperRow.gatekeeperID rows row) }

/-- `gatekeeper()`: the first row. -/
def gatekeeper (db : IdentityDatabase) : Except Trap (Option (GatekeeperID × Gatekeeper)) :=
  match db.gatekeepers with
  | none => .error databaseError
  | some [] => .ok none
  | some (row :: _) =>
      match objectFromResultSet text row with
      | .ok g => .ok (some g)
      | .error _ => .error databaseError

end DBSingleGatekeeperRepository

namespace DBSingleUserRepository

def userRow (u : User) : UserRow := ⟨u.id, u.password, u.sessionID⟩

/-- `userFromResultSet(_:)`. -/
def userFromResultSet (row : UserRow) : User := ⟨row.userID, row.password, row.sessionID⟩

/-- `save(_:)`; `none` when it throws. -/
def save (db : IdentityDatabase) (u : User) (stored : Bool) : Option IdentityDatabase :=
  match db.users with
  | none => none
  | some rows =>
      if stored then some { db with users := some (Rows.replaced UserRow.userID rows (userRow u)) }
      else none

/-- `remove(_:)`; `none` when it throws. -/
def remove (db : IdentityDatabase) (u : User) (removed : Bool) : Option IdentityDatabase :=
  match db.users with
  | none => none
  | some rows =>
      if removed then some { db with users := some (rows.filter (·.userID ≠ u.id)) } else none

/-- `primaryUser()`. -/
def primaryUser (db : IdentityDatabase) : Option User :=
  (db.users.bind List.head?).map userFromResultSet

/-- `user(encryptedPassword:)`. -/
def user (db : IdentityDatabase) (encryptedPassword : Str) : Option User :=
  (db.users.bind fun rows => rows.find? (·.password = encryptedPassword)).map userFromResultSet

end DBSingleUserRepository

/-! ### The services -/

namespace IdentityDatabase

variable (text : DateText) (services : Services) (db : IdentityDatabase)

/-- `userRepository.save(_:)`. -/
def saveUser (user : User) (stored : Bool) (outcome : Outcome) : IdentityDatabase × Outcome :=
  match DBSingleUserRepository.save db user stored with
  | some db => (db, outcome)
  | none => (db, .threw .service)

/-- `isUserAuthenticated(at:)`. -/
def isUserAuthenticated (time : Date) : Except Trap Bool := do
  match ← DBSingleGatekeeperRepository.gatekeeper text db with
  | none => return false
  | some (_, gatekeeper) =>
      match (DBSingleUserRepository.primaryUser db).bind User.sessionID with
      | none => return false
      | some sessionID => gatekeeper.hasAccess sessionID time

/-- `registerUser(password:)`. -/
def registerUser (password : Str) (id : UserID) (stored activated : Bool) :
    IdentityDatabase × Outcome :=
  match assertTrue (DBSingleUserRepository.primaryUser db).isNone .userAlreadyRegistered with
  | .error error => (db, .threw error)
  | .ok () =>
      match Identity.validatePlaintextPassword services password with
      | .error error => (db, .threw error)
      | .ok () =>
          db.saveUser ⟨id, services.encrypted password, none⟩ stored
            (if activated then .returned else .threw .service)

/-- `updatePrimaryUserPassword(with:)`. -/
def updatePrimaryUserPassword (password : Str) (stored : Bool) : IdentityDatabase × Outcome :=
  match DBSingleUserRepository.primaryUser db with
  | none => (db, .threw .primaryUserNotFound)
  | some user =>
      match Identity.validatePlaintextPassword services password with
      | .error error => (db, .threw error)
      | .ok () => db.saveUser ⟨user.id, services.encrypted password, none⟩ stored .returned

/-- `authenticate(at:_:)`; the closure reads the user. -/
def authenticate (time : Date) (id : SessionID) (stored : Bool) (credentials : Option User) :
    Except Trap (IdentityDatabase × Outcome) := do
  match ← DBSingleGatekeeperRepository.gatekeeper text db with
  | none => return (db, .threw .gatekeeperNotFound)
  | some (gatekeeperID, gatekeeper) =>
      if gatekeeper.isAccessPossible time then
        match credentials with
        | none => do
            let gatekeeper ← gatekeeper.denyAccess time
            let db ← DBSingleGatekeeperRepository.save text db gatekeeperID gatekeeper
            return (db, .denied)
        | some user => do
            match ← gatekeeper.allowAccess time id with
            | .error error => return (db, .threw error)
            | .ok gatekeeper => do
                let db ← DBSingleGatekeeperRepository.save text db gatekeeperID gatekeeper
                return db.saveUser { user with sessionID := some id } stored
                  (.authenticated user.id)
      else return (db, .blocked)

/-- `authenticateUser(password:at:)`. -/
def authenticateUser (password : Str) (time : Date) (id : SessionID) (stored : Bool) :
    Except Trap (IdentityDatabase × Outcome) :=
  db.authenticate text time id stored
    (DBSingleUserRepository.user db (services.encrypted password))

/-- `authenticateUserBiometrically(at:)`. -/
def authenticateUserBiometrically (recognized : Bool) (time : Date) (id : SessionID)
    (stored : Bool) : Except Trap (IdentityDatabase × Outcome) :=
  db.authenticate text time id stored
    (if recognized then DBSingleUserRepository.primaryUser db else none)

/-- A change of the stored gatekeeper, if there is one. -/
def changeGatekeeper (change : Gatekeeper → Except Trap (Except Error Gatekeeper)) :
    Except Trap (IdentityDatabase × Outcome) := do
  match ← DBSingleGatekeeperRepository.gatekeeper text db with
  | none => return (db, .returned)
  | some (id, gatekeeper) => do
      match ← change gatekeeper with
      | .error error => return (db, .threw error)
      | .ok gatekeeper =>
          return (← DBSingleGatekeeperRepository.save text db id gatekeeper, .returned)

/-- `reset()` of the application service. -/
def reset (removed : Bool) : Except Trap (IdentityDatabase × Outcome) :=
  let cleared := match DBSingleUserRepository.primaryUser db with
    | none => some db
    | some user => DBSingleUserRepository.remove db user removed
  match cleared with
  | none => .ok (db, .threw .service)
  | some db => db.changeGatekeeper text fun g => .ok (.ok g.reset)

/-- What a call does. -/
def perform : Call → Except Trap (IdentityDatabase × Outcome)
  | .registerUser password id stored activated =>
      .ok (db.registerUser services password id stored activated)
  | .updatePrimaryUserPassword password stored =>
      .ok (db.updatePrimaryUserPassword services password stored)
  | .authenticateUser password time id stored =>
      db.authenticateUser text services password time id stored
  | .authenticateUserBiometrically recognized time id stored =>
      db.authenticateUserBiometrically text recognized time id stored
  | .useAccess time => db.changeGatekeeper text (·.useAccess time)
  | .configureSession duration =>
      db.changeGatekeeper text fun g => .ok (g.changeSessionDuration duration)
  | .configureMaxPasswordAttempts count =>
      db.changeGatekeeper text fun g => .ok (g.changeMaxFailedAttempts count)
  | .configureBlockDuration duration =>
      db.changeGatekeeper text fun g => .ok (g.changeBlockDuration duration)
  | .resetGatekeeper => db.changeGatekeeper text fun g => .ok (.ok g.reset)
  | .reset removed => db.reset text removed

end IdentityDatabase

/-! ### Launches -/

/-- What `setUpIdentityAccessDatabase(with:)` asks for, in seconds. -/
def configuredPolicy : AuthenticationPolicy :=
  ⟨60, 3, 15, by decide, by decide, by decide⟩

/-- The first branch of `setUpIdentityAccessDatabase(with:)`, of which the process survives the
given number of statements; `none` is a database whose file does not exist. -/
def createDatabase (text : DateText) (id : GatekeeperID) : Nat → Option IdentityDatabase
  | 0 => none
  | 1 => some {}
  | 2 => some { users := some [] }
  | 3 => some { users := some [], gatekeepers := some [] }
  | _ =>
      let gatekeeper : Gatekeeper := { policy := configuredPolicy }
      let row := DBSingleGatekeeperRepository.insertionBindings text id gatekeeper
      some { users := some [], gatekeepers := some [row] }

/-- What happens to the database. -/
inductive StoreAction
  | call (call : Call)
  /-- The app is launched, and a gatekeeper would get this identifier. -/
  | launch (id : GatekeeperID) (statements : Nat)
  /-- `AppDelegate.resetAll()`; `try? db.destroy()` destroys the database or not. -/
  | resetAll (destroyed : Bool) (id : GatekeeperID) (statements : Nat)
  deriving DecidableEq

/-- The database, and every call so far with its outcome. -/
structure StoredHistory where
  database : Option IdentityDatabase
  log : List (Call × Outcome) := []
  deriving DecidableEq

namespace StoredHistory

variable (text : DateText) (services : Services) (h : StoredHistory)

/-- `setUpIdentityAccessDatabase(with:)`, `if !db.exists`. -/
def launch (id : GatekeeperID) (statements : Nat) : StoredHistory :=
  { h with database := h.database <|> createDatabase text id statements }

def step : StoreAction → Except Trap StoredHistory
  | .call call => do
      -- No table is there of a database that is not.
      let (db, outcome) ← (h.database.getD {}).perform text services call
      return ⟨h.database.map fun _ => db, h.log ++ [(call, outcome)]⟩
  | .launch id statements => .ok (h.launch text id statements)
  | .resetAll destroyed id statements =>
      .ok ({ h with database := if destroyed then none else h.database }.launch text id statements)

end StoredHistory

end IdentityAccess

end MultisigWallet
