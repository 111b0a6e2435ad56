import Mathlib.Data.List.Infix
import MultisigWallet.Base
import MultisigWallet.Lib.Handles
import MultisigWallet.Lib.Separated
import MultisigWallet.Lib.Throwing

/-!
# MultisigWallet.SQLite

The classes over SQLite's C interface that every repository goes through: `SQLiteDatabase` opens
and closes connections, a `SQLiteConnection` prepares statements and finalises them when it is
closed, a `SQLiteStatement` takes bindings and is executed, and a `SQLiteResultSet` steps through
its rows.

SQLite and the file manager are not part of the program. What they answer is a list that the calls
use up, one answer a call, and a call that has no answer yet is **waiting**: the loops that ask
again while the database is busy run as long as the answers let them. Every call is recorded.
Objects are numbered in the order they are made, statements within their connection; `connections`
is kept in the dictionary of a thread, so that there is one list for each thread.
-/

namespace MultisigWallet

/-! ### The C interface -/

namespace CSQLite3

def SQLITE_OK : Int := 0
def SQLITE_ERROR : Int := 1
def SQLITE_BUSY : Int := 5
def SQLITE_IOERR : Int := 10
def SQLITE_MISUSE : Int := 21
def SQLITE_AUTH : Int := 23
def SQLITE_RANGE : Int := 25
def SQLITE_ROW : Int := 100
def SQLITE_DONE : Int := 101

end CSQLite3

/-- `SQLBindable`. A double is its bit pattern. -/
inductive SQLBindable
  | int (value : Int)
  | double (bits : UInt64)
  | string (value : Str)
  | data (value : Data)
  | bool (value : Bool)
  deriving DecidableEq, Repr

/-- What one of the `sqlite3_bind_*` functions is given. -/
inductive SQLValue
  | null
  | int64 (value : Int)
  | double (bits : UInt64)
  /-- A C string; its terminating zero counts. -/
  | text (characters : Str)
  | blob (bytes : Data)
  deriving DecidableEq, Repr

/-- The `switch` of `bind(_:)`, with the setter of each case. -/
def SQLBindable.value : Option SQLBindable → SQLValue
  | none => .null
  | some (.int value) => .int64 value
  | some (.double bits) => .double bits
  | some (.string value) => .text (value ++ [Char.ofNat 0])
  | some (.data value) => .blob value
  | some (.bool value) => .int64 (if value = false then 0 else 1)

/-- A prepared statement, by its connection and its place in `statements`. -/
structure StatementID where
  connection : Nat
  index : Nat
  deriving DecidableEq, Repr

/-- A call of the C interface or of the file manager, with what of its answer matters to the use
of the handles. Rows are of any type. -/
inductive SQLiteCall (ρ : Type)
  | sqlite3_open (connection : Nat) (status : Int) (handle : Bool)
  | sqlite3_prepare_v2 (statement : StatementID) (sql : Str) (status : Int) (handle : Bool)
  | sqlite3_bind (statement : StatementID) (index : Int) (value : SQLValue)
  | sqlite3_bind_parameter_index (statement : StatementID) (key : Str)
  | sqlite3_step (statement : StatementID) (status : Int) (row : ρ)
  | sqlite3_reset (statement : StatementID)
  /-- The functions that read the columns of the current row. -/
  | sqlite3_column (statement : StatementID)
  | sqlite3_finalize (statement : StatementID)
  | sqlite3_get_autocommit (connection : Nat)
  | sqlite3_errmsg (connection : Nat)
  | sqlite3_errstr (status : Int)
  | sqlite3_close (connection : Nat) (status : Int)
  | fileManager (function : String)
  deriving DecidableEq

/-- An answer. `handle` says whether a pointer was written, or whether a file is there. -/
structure SQLiteAnswer (ρ : Type) where
  status : Int
  handle : Bool
  message : Option Str
  row : ρ

/-! ### Objects -/

/-- `SQLiteDatabase.Error`, the cases that are thrown, and what the file manager and the closures
of `execute` throw. -/
inductive SQLiteError
  | applicationSupportDirNotFound
  | databaseAlreadyExists
  | failedToCreateDatabase
  | databaseDoesNotExist
  | invalidSQLiteVersion
  | failedToOpenDatabase (message : Str)
  | failedToCloseDatabase (message : Str)
  | connectionIsNotOpened
  | invalidSQLStatement (message : Str)
  | attemptToExecuteFinalizedStatement
  | connectionIsAlreadyClosed
  | statementWasAlreadyExecuted
  | runtimeError (message : Str)
  | invalidStatementState
  | transactionMustBeRolledBack
  | failedToSetStatementParameter (message : Str)
  | statementParameterIndexOutOfRange
  | attemptToBindExecutedStatement
  | attemptToBindFinalizedStatement
  | fileManager (message : Str)
  | resultMap (message : Str)
  deriving DecidableEq, Repr

structure SQLiteStatement where
  sql : Str
  isFinalized : Bool := false
  isExecuted : Bool := false
  /-- Not stored: `execute()` returned a `SQLiteResultSet` over the statement. -/
  hasResultSet : Bool := false
  deriving DecidableEq, Repr

structure SQLiteConnection where
  isOpened : Bool := false
  isClosed : Bool := false
  statements : List SQLiteStatement := []
  deriving DecidableEq, Repr

/-- The versions `connection()` compares: of the linked library and of the headers. -/
structure SQLiteVersions where
  libVersion : Str
  headerVersion : Str
  libSourceId : Str
  headerSourceId : Str
  libVersionNumber : Int
  headerVersionNumber : Int
  deriving DecidableEq, Repr

structure SQLiteState (ρ : Type) where
  versions : SQLiteVersions
  /-- Whether `url` is set. -/
  hasURL : Bool := false
  /-- Every `SQLiteConnection` made so far. -/
  objects : List SQLiteConnection := []
  /-- `connections`, by thread. -/
  connections : Nat → List Nat := fun _ => []
  /-- The answers that are still to come. -/
  answers : List (SQLiteAnswer ρ)
  /-- Not stored: the calls so far. -/
  calls : List (SQLiteCall ρ) := []

/-- Why a computation does not come to its end. -/
inductive SQLiteHalt
  | trap (trap : Trap)
  /-- A call was not answered yet. -/
  | waiting
  deriving DecidableEq, Repr

abbrev SQLite (ρ α : Type) := Throwing (SQLiteState ρ) SQLiteError SQLiteHalt α

variable {ρ : Type}

namespace SQLite

/-- A call, recorded with its answer. -/
def ask (call : SQLiteAnswer ρ → SQLiteCall ρ) : SQLite ρ (SQLiteAnswer ρ) := fun s =>
  match s.answers with
  | [] => (.halted .waiting, s)
  | a :: answers => (.returned a, { s with answers := answers, calls := s.calls ++ [call a] })

/-- A call whose answer is not looked at. -/
def tell (call : SQLiteCall ρ) : SQLite ρ Unit :=
  Throwing.modify fun s => { s with calls := s.calls ++ [call] }

/-- How often a loop can go round until every answer is used up. -/
def fuel : SQLite ρ Nat := fun s => (.returned (s.answers.length + 1), s)

/-- The connection object of that number; programs have no others. -/
def object (c : Nat) : SQLite ρ SQLiteConnection := fun s =>
  match s.objects[c]? with
  | some o => (.returned o, s)
  | none => (.halted (.trap .indexOutOfRange), s)

def modifyObject (c : Nat) (f : SQLiteConnection → SQLiteConnection) : SQLite ρ Unit :=
  Throwing.modify fun s => { s with objects := s.objects.modify c f }

/-- The statement object. -/
def statementObject (i : StatementID) : SQLite ρ SQLiteStatement := do
  let o ← object i.connection
  match o.statements[i.index]? with
  | some t => pure t
  | none => Throwing.halt (.trap .indexOutOfRange)

def modifyStatement (i : StatementID) (f : SQLiteStatement → SQLiteStatement) : SQLite ρ Unit :=
  modifyObject i.connection fun o => { o with statements := o.statements.modify i.index f }

/-- `sqlite3_errstr(_:)`. -/
def errstr (status : Int) : SQLite ρ Str := do
  let a ← ask fun _ => .sqlite3_errstr status
  return a.message.getD []

/-- `SQLiteDatabase.errorMessage(from:_:_:)` of a connection that has a database pointer. -/
def errorMessage (c : Nat) (status : Int) : SQLite ρ Str := do
  let a ← ask fun _ => .sqlite3_errmsg c
  match a.message with
  | some message => return message
  | none => errstr status

/-! ### `SQLiteConnection` -/

/-- `"status: (\(status)) \(message)"`. -/
def statusText (status : Int) (message : Str) : Str :=
  "status: (".toList ++ stringOfInt status ++ ") ".toList ++ message

def maxIOErrorRetryCount : Nat := 3

/-- The loop of `waitWhileBusy(_:)`. -/
def waitWhileBusyLoop (expression : SQLite ρ (SQLiteAnswer ρ)) :
    Nat → Nat → SQLite ρ (SQLiteAnswer ρ)
  | 0, _ => Throwing.halt .waiting
  | fuel + 1, ioErrorRetry => do
      let a ← expression
      if a.status = CSQLite3.SQLITE_BUSY then
        waitWhileBusyLoop expression fuel ioErrorRetry
      else if a.status = CSQLite3.SQLITE_AUTH ∨ a.status = CSQLite3.SQLITE_IOERR then
        -- The last retry falls through to the `default`.
        if maxIOErrorRetryCount ≤ ioErrorRetry then return a
        else waitWhileBusyLoop expression fuel (ioErrorRetry + 1)
      else return a

/-- `waitWhileBusy(_:)`. -/
def waitWhileBusy (expression : SQLite ρ (SQLiteAnswer ρ)) : SQLite ρ (SQLiteAnswer ρ) := do
  waitWhileBusyLoop expression (← fuel) 0

/-- `assertOpened()`. -/
def assertOpened (c : Nat) : SQLite ρ Unit := do
  let o ← object c
  Throwing.check o.isOpened .connectionIsNotOpened
  Throwing.check (!o.isClosed) .connectionIsAlreadyClosed

/-- `open(url:)`. The database pointer is not set yet when opening fails. -/
def openConnection (c : Nat) : SQLite ρ Unit := do
  let o ← object c
  Throwing.check (!o.isClosed) .connectionIsAlreadyClosed
  let a ← waitWhileBusy (ask fun a => .sqlite3_open c a.status a.handle)
  if a.status ≠ CSQLite3.SQLITE_OK then
    let message ← errstr a.status
    Throwing.fail (.failedToOpenDatabase (statusText a.status message))
  else
    Throwing.check a.handle (.failedToOpenDatabase "connection is nil".toList)
    modifyObject c fun o => { o with isOpened := true }

/-- `prepare(statement:)`. -/
def prepare (c : Nat) (sql : Str) : SQLite ρ StatementID := do
  assertOpened c
  let o ← object c
  let i : StatementID := ⟨c, o.statements.length⟩
  let a ← waitWhileBusy (ask fun a => .sqlite3_prepare_v2 i sql a.status a.handle)
  if a.status ≠ CSQLite3.SQLITE_OK then
    let message ← errorMessage c a.status
    Throwing.fail (.invalidSQLStatement (statusText a.status message ++ ": ".toList ++ sql))
  else
    Throwing.check a.handle (.invalidSQLStatement ("unknown error: ".toList ++ sql))
    modifyObject c fun o => { o with statements := o.statements ++ [{ sql := sql }] }
    return i

/-- `lastErrorMessage()` of a connection. -/
def connectionErrorMessage (c : Nat) : SQLite ρ (Option Str) := do
  let o ← object c
  if o.isOpened then
    let a ← ask fun _ => .sqlite3_errmsg c
    return a.message
  else return none

/-- `finalize()`. -/
def finalize (i : StatementID) : SQLite ρ Unit := do
  tell (.sqlite3_finalize i)
  modifyStatement i fun t => { t with isFinalized := true }

/-- `destroyAllStatements()`. -/
def destroyAllStatements (c : Nat) : SQLite ρ Unit := do
  let o ← object c
  Throwing.each (fun index => finalize ⟨c, index⟩) (List.range o.statements.length)

/-- `close()` of a connection. -/
def closeConnection (c : Nat) : SQLite ρ Unit := do
  assertOpened c
  destroyAllStatements c
  let a ← waitWhileBusy (ask fun a => .sqlite3_close c a.status)
  if a.status ≠ CSQLite3.SQLITE_OK then
    let message ← errorMessage c a.status
    Throwing.fail (.failedToCloseDatabase message)
  else modifyObject c fun o => { o with isClosed := true }

/-! ### `SQLiteStatement` -/

/-- `assertCanBind()`. -/
def assertCanBind (i : StatementID) : SQLite ρ Unit := do
  let t ← statementObject i
  Throwing.check (!t.isExecuted) .attemptToBindExecutedStatement
  Throwing.check (!t.isFinalized) .attemptToBindFinalizedStatement

/-- `assertBindSuccess(_:)`. -/
def assertBindSuccess (i : StatementID) (status : Int) : SQLite ρ Unit := do
  Throwing.check (status ≠ CSQLite3.SQLITE_RANGE) .statementParameterIndexOutOfRange
  if status ≠ CSQLite3.SQLITE_OK then
    let message ← errorMessage i.connection status
    Throwing.fail (.failedToSetStatementParameter message)
  else return ()

/-- `set(_:at:)` and `setNil(at:)`. -/
def set (i : StatementID) (value : SQLValue) (index : Int) : SQLite ρ Unit := do
  assertCanBind i
  let a ← ask fun _ => .sqlite3_bind i index value
  assertBindSuccess i a.status

/-- `set(_:forKey:)` and `setNil(forKey:)`. The parameter is looked up before the statement is
checked. -/
def setForKey (i : StatementID) (value : SQLValue) (key : Str) : SQLite ρ Unit := do
  let a ← ask fun _ => .sqlite3_bind_parameter_index i key
  set i value a.status

/-- `bind(_:)` of an array. -/
def bindArray (i : StatementID) (bindings : List (Option SQLBindable)) : SQLite ρ Unit :=
  Throwing.each (fun b => set i (SQLBindable.value b.1) b.2) (bindings.zipIdx 1)

/-- `bind(_:)` of a dictionary, in the order it is gone through. -/
def bindDictionary (i : StatementID) (bindings : List (Str × Option SQLBindable)) : SQLite ρ Unit :=
  Throwing.each (fun b => setForKey i (SQLBindable.value b.2) b.1) bindings

/-- The loop of `SQLiteResultSet.init(db:stmt:sqlite:)`. -/
def resetLoop (i : StatementID) : Nat → SQLite ρ Unit
  | 0 => Throwing.halt .waiting
  | fuel + 1 => do
      let a ← ask fun _ => .sqlite3_reset i
      if a.status = CSQLite3.SQLITE_BUSY then resetLoop i fuel
      else if a.status ≠ CSQLite3.SQLITE_OK then
        let _ ← errorMessage i.connection a.status
        Throwing.halt (.trap (.preconditionFailure "sqlite3_reset"))
      else return ()

/-- `SQLiteResultSet.init(db:stmt:sqlite:)`. -/
def makeResultSet (i : StatementID) : SQLite ρ Unit := do
  resetLoop i (← fuel)
  tell (.sqlite3_column i)
  modifyStatement i fun t => { t with hasResultSet := true }

/-- `sql.localizedCaseInsensitiveContains("commit")`. -/
def isCommitStatement (sql : Str) : Bool := decide ("commit".toList <:+: lowercased sql)

/-- `execute()` of a statement; true if it returns a result set. -/
def executeStatementLoop (i : StatementID) : Nat → SQLite ρ Bool
  | 0 => Throwing.halt .waiting
  | fuel + 1 => do
      let t ← statementObject i
      Throwing.check (!t.isFinalized) .attemptToExecuteFinalizedStatement
      Throwing.check (!t.isExecuted) .statementWasAlreadyExecuted
      let a ← ask fun a => .sqlite3_step i a.status a.row
      if a.status = CSQLite3.SQLITE_DONE then
        modifyStatement i fun t => { t with isExecuted := true }
        return false
      else if a.status = CSQLite3.SQLITE_ROW then
        modifyStatement i fun t => { t with isExecuted := true }
        makeResultSet i
        return true
      else if a.status = CSQLite3.SQLITE_BUSY then
        let autocommit ← ask fun _ => .sqlite3_get_autocommit i.connection
        let isInsideExplicitTransaction := decide (autocommit.status = 0)
        if isCommitStatement t.sql || !isInsideExplicitTransaction then
          executeStatementLoop i fuel
        else Throwing.fail .transactionMustBeRolledBack
      else if a.status = CSQLite3.SQLITE_ERROR then
        let message ← ask fun _ => .sqlite3_errmsg i.connection
        Throwing.fail (.runtimeError (message.message.getD []))
      else if a.status = CSQLite3.SQLITE_MISUSE then Throwing.fail .invalidStatementState
      else
        let _ ← errorMessage i.connection a.status
        Throwing.halt (.trap (.preconditionFailure "Unexpected sqlite3_step() status"))

/-- `execute()` of a statement. -/
def executeStatement (i : StatementID) : SQLite ρ Bool := do
  executeStatementLoop i (← fuel)

/-! ### `SQLiteResultSet` -/

/-- `advanceToNextRow()`, with the row it moves to. -/
def advanceLoop (i : StatementID) : Nat → SQLite ρ (Option ρ)
  | 0 => Throwing.halt .waiting
  | fuel + 1 => do
      let a ← ask fun a => .sqlite3_step i a.status a.row
      if a.status = CSQLite3.SQLITE_DONE then return none
      else if a.status = CSQLite3.SQLITE_ROW then return some a.row
      else if a.status = CSQLite3.SQLITE_BUSY then
        let autocommit ← ask fun _ => .sqlite3_get_autocommit i.connection
        if autocommit.status ≠ 0 then advanceLoop i fuel
        else Throwing.fail .transactionMustBeRolledBack
      else
        let _ ← errorMessage i.connection a.status
        Throwing.halt (.trap (.preconditionFailure "Unexpected sqlite3_step() status"))

def advanceToNextRow (i : StatementID) : SQLite ρ (Option ρ) := do
  advanceLoop i (← fuel)

/-! ### `Connection` and `SQLiteDatabase` -/

/-- The `while` loop of `Connection.execute(sql:bindings:dict:resultMap:)`. -/
def rowLoop {τ : Type} (i : StatementID) (resultMap : ρ → Except Str (Option τ)) :
    Nat → SQLite ρ (List (Option τ))
  | 0 => Throwing.halt .waiting
  | fuel + 1 => do
      match ← advanceToNextRow i with
      | none => return []
      | some row =>
          tell (.sqlite3_column i)
          match resultMap row with
          | .error e => Throwing.fail (.resultMap e)
          | .ok value => return value :: (← rowLoop i resultMap fuel)

/-- `Connection.execute(sql:bindings:dict:resultMap:)`. -/
def executeOn {τ : Type} (c : Nat) (sql : Str) (bindings : List (Option SQLBindable))
    (dict : List (Str × Option SQLBindable)) (resultMap : ρ → Except Str (Option τ)) :
    SQLite ρ (List (Option τ)) := do
  let i ← prepare c sql
  bindArray i bindings
  bindDictionary i dict
  if ← executeStatement i then
    rowLoop i resultMap (← fuel)
  else return []

/-- A function of the file manager that may throw. -/
def fileManager (function : String) : SQLite ρ Bool := do
  let a ← ask fun _ => .fileManager function
  if a.status ≠ 0 then Throwing.fail (.fileManager (a.message.getD []))
  else return a.handle

/-- `buildURL()`. -/
def buildURL : SQLite ρ Unit := do
  let s ← Throwing.get
  if s.hasURL then return ()
  else
    let _ ← fileManager "url"
    let appSupportDir ← ask fun _ => .fileManager "fileExists"
    Throwing.check appSupportDir.handle .applicationSupportDirNotFound
    let bundleDir ← ask fun _ => .fileManager "fileExists"
    if bundleDir.handle = false then
      let _ ← fileManager "createDirectory"
    Throwing.modify fun s => { s with hasURL := true }

/-- `create()`. -/
def create : SQLite ρ Unit := do
  buildURL
  let a ← ask fun _ => .fileManager "fileExists"
  Throwing.check (!a.handle) .databaseAlreadyExists
  let didCreate ← ask fun _ => .fileManager "createFile"
  if didCreate.handle = false then Throwing.fail .failedToCreateDatabase
  else return ()

/-- `Version.init(_:)`. -/
def version (s : Str) : Str × Str × Str :=
  let parts := Separated.components ['.'] s
  (parts.getD 0 [], parts.getD 1 [], parts.getD 2 [])

/-- The assertions on the versions in `connection()`. -/
def isValidVersion (v : SQLiteVersions) : Bool :=
  decide ((version v.libVersion).1 = (version v.headerVersion).1) &&
    (decide (version v.libVersion ≠ version v.headerVersion) ||
      decide (v.libSourceId.take 80 = v.headerSourceId.take 80) &&
        decide (v.libVersionNumber = v.headerVersionNumber))

/-- `SQLiteConnection(sqlite:)`. -/
def makeConnection : SQLite ρ Nat := fun s =>
  (.returned s.objects.length, { s with objects := s.objects ++ [{}] })

def retain (thread c : Nat) : SQLite ρ Unit :=
  Throwing.modify fun s =>
    { s with connections := Function.update s.connections thread (s.connections thread ++ [c]) }

/-- `connection()`. -/
def connection (thread : Nat) : SQLite ρ Nat := do
  buildURL
  let a ← ask fun _ => .fileManager "fileExists"
  Throwing.check a.handle .databaseDoesNotExist
  let s ← Throwing.get
  Throwing.check (isValidVersion s.versions) .invalidSQLiteVersion
  let c ← makeConnection
  openConnection c
  retain thread c
  return c

/-- `close(_:)`. -/
def close (thread c : Nat) : SQLite ρ Unit := do
  closeConnection c
  Throwing.modify fun s =>
    { s with connections := Function.update s.connections thread ((s.connections thread).erase c) }

/-- `destroy()`. -/
def destroy (thread : Nat) : SQLite ρ Unit := do
  let s ← Throwing.get
  Throwing.each closeConnection (s.connections thread)
  Throwing.modify fun s => { s with connections := Function.update s.connections thread [] }
  Throwing.attempt buildURL
  let s ← Throwing.get
  if s.hasURL then
    let a ← ask fun _ => .fileManager "fileExists"
    if a.handle then
      let _ ← fileManager "removeItem"
  else return ()

/-- `Database.execute(sql:bindings:dict:resultMap:)`. -/
def execute {τ : Type} (thread : Nat) (sql : Str) (bindings : List (Option SQLBindable))
    (dict : List (Str × Option SQLBindable)) (resultMap : ρ → Except Str (Option τ)) :
    SQLite ρ (List (Option τ)) := do
  let c ← connection thread
  Throwing.deferring (Throwing.attempt (close thread c)) (executeOn c sql bindings dict resultMap)

end SQLite

/-! ### Programs -/

/-- A call of a public method. The rows a closure is given are mapped to values of type `τ`. -/
inductive SQLiteAction (ρ τ : Type)
  | create
  | connection (thread : Nat)
  | close (thread connection : Nat)
  | destroy (thread : Nat)
  | execute (thread : Nat) (sql : Str) (bindings : List (Option SQLBindable))
      (dict : List (Str × Option SQLBindable)) (resultMap : ρ → Except Str (Option τ))
  | prepare (connection : Nat) (sql : Str)
  | connectionErrorMessage (connection : Nat)
  | set (statement : StatementID) (value : Option SQLBindable) (index : Int)
  | setForKey (statement : StatementID) (value : Option SQLBindable) (key : Str)
  | executeStatement (statement : StatementID)
  /-- Of the result set of the statement, if there is one. -/
  | advanceToNextRow (statement : StatementID)

/-- A program that uses databases. -/
structure SQLiteProcess (ρ : Type) where
  state : SQLiteState ρ
  /-- The process was stopped, or waits for an answer. -/
  halted : Bool := false

namespace SQLite

/-- A computation without its value. -/
def run {α : Type} (m : SQLite ρ α) : SQLite ρ Unit := do
  let _ ← m
  return ()

/-- The method a call is of. -/
def perform {τ : Type} : SQLiteAction ρ τ → SQLite ρ Unit
  | .create => create
  | .connection thread => run (connection thread)
  | .close thread c => close thread c
  | .destroy thread => destroy thread
  | .execute thread sql bindings dict resultMap => run (execute thread sql bindings dict resultMap)
  | .prepare c sql => run (prepare c sql)
  | .connectionErrorMessage c => run (connectionErrorMessage c)
  | .set i value index => set i (SQLBindable.value value) index
  | .setForKey i value key => setForKey i (SQLBindable.value value) key
  | .executeStatement i => run (executeStatement i)
  | .advanceToNextRow i => do
      let t ← statementObject i
      if t.hasResultSet then run (advanceToNextRow i) else return ()

/-- One call. What it throws is caught by the program. -/
def step {τ : Type} (p : SQLiteProcess ρ) (a : SQLiteAction ρ τ) :
    Except Trap (SQLiteProcess ρ) :=
  if p.halted then .ok p
  else
    match perform a p.state with
    | (.halted _, t) => .ok ⟨t, true⟩
    | (_, t) => .ok ⟨t, false⟩

/-- Whether a statement object was finalised. -/
def isFinalized (s : SQLiteState ρ) (i : StatementID) : Bool :=
  (s.objects[i.connection]?.bind (·.statements[i.index]?)).all (·.isFinalized)

/-- Whether a connection object was closed. -/
def isClosed (s : SQLiteState ρ) (c : Nat) : Bool := s.objects[c]?.all (·.isClosed)

end SQLite

end MultisigWallet
