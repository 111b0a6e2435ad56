import MultisigWallet.Base
import Mathlib.Data.Char
import Mathlib.Data.List.Lex
import Mathlib.Data.List.Sort

/-!
# MultisigWallet.DBMigration

Database migrations. The database remembers the identifiers of the migrations it has been
through, an app registers the ones it knows, and at every launch those that are new to the
database are run in one transaction.

What a migration does to the database is an argument: `setUp` maps the contents of the other
tables to what it makes of them, or throws. The transaction is all or nothing.
-/

namespace MultisigWallet

abbrev MigrationID := BaseID

/-- `Migration`; `setUp` is `none` when it throws. -/
structure Migration (δ : Type) where
  id : MigrationID
  setUp : δ → Option δ

/-- The database: `tbl_migrations`, whose rows are identifiers, and the other tables. -/
structure MigratedDatabase (δ : Type) where
  contents : δ
  recorded : List MigrationID
  deriving DecidableEq

namespace DBMigrationRepository

variable {δ : Type}

/-- `save(_:connection:)`: `INSERT OR REPLACE`. -/
def save (db : MigratedDatabase δ) (id : MigrationID) : MigratedDatabase δ :=
  { db with recorded := db.recorded.filter (· ≠ id) ++ [id] }

/-- `findLatest()`: `ORDER BY id DESC LIMIT 1`. -/
def findLatest (db : MigratedDatabase δ) : Option MigrationID :=
  (db.recorded.insertionSort fun a b => b ≤ a).head?

/-- `pendingMigrations()`. -/
def pendingMigrations (db : MigratedDatabase δ) (registered : List (Migration δ)) :
    List (Migration δ) :=
  let migrations := registered.insertionSort fun a b => a.id ≤ b.id
  match (findLatest db).bind fun latestInDB => migrations.findIdx? (·.id = latestInDB) with
  | some index => if index < migrations.length - 1 then migrations.drop (index + 1) else []
  | none => migrations

/-- `executeInTransaction(_:)`. What was done by a closure that throws is rolled back, and so it
is when SQLite does not commit. -/
def executeInTransaction (db : MigratedDatabase δ)
    (closure : MigratedDatabase δ → Option (MigratedDatabase δ)) (commits : Bool) :
    Option (MigratedDatabase δ) :=
  if commits then closure db else none

end DBMigrationRepository

namespace DBMigrationService

open DBMigrationRepository

variable {δ : Type}

/-- The loop of `migrate()`. -/
def setUpAll : List (Migration δ) → MigratedDatabase δ → Option (MigratedDatabase δ)
  | [], db => some db
  | migration :: migrations, db => do
      let contents ← migration.setUp db.contents
      setUpAll migrations (save { db with contents } migration.id)

/-- A call of `setUp`. -/
structure SetUpCall where
  id : MigrationID
  throws : Bool
  deriving DecidableEq

/-- The calls of `setUp` that the loop makes: up to the first that throws. -/
def called : List (Migration δ) → δ → List SetUpCall
  | [], _ => []
  | migration :: migrations, contents =>
      match migration.setUp contents with
      | none => [⟨migration.id, true⟩]
      | some contents => ⟨migration.id, false⟩ :: called migrations contents

/-- `migrate()`; `none` when it throws. -/
def migrate (db : MigratedDatabase δ) (registered : List (Migration δ)) (commits : Bool) :
    Option (MigratedDatabase δ) :=
  let pendingMigrations := pendingMigrations db registered
  if pendingMigrations.isEmpty then some db
  else executeInTransaction db (setUpAll pendingMigrations) commits

/-- `skipMigrationsBeforeAndIncluding(_:)`; `none` when it throws. -/
def skipMigrationsBeforeAndIncluding (db : MigratedDatabase δ) (id : MigrationID)
    (commits : Bool) : Option (MigratedDatabase δ) :=
  executeInTransaction db (fun db => some (save db id)) commits

end DBMigrationService

/-! ### Launches -/

/-- A launch of some version of the app. `skipped` is a migration it skips to, together with
whether SQLite commits that. -/
structure Launch (δ : Type) where
  skipped : Option (MigrationID × Bool)
  registered : List (Migration δ)
  commits : Bool
  distinct : (registered.map (·.id)).Nodup

/-- The database, and the migrations it has been through since it was made. -/
structure Installation (δ : Type) where
  database : MigratedDatabase δ
  /-- Identifiers of the committed migrations, the latest one last. -/
  committed : List MigrationID
  deriving DecidableEq

namespace Installation

open DBMigrationRepository DBMigrationService

variable {δ : Type}

/-- The database as `migrate()` finds it. A skip that throws is logged. -/
def skip (db : MigratedDatabase δ) (l : Launch δ) : MigratedDatabase δ :=
  match l.skipped with
  | none => db
  | some (id, commits) => (skipMigrationsBeforeAndIncluding db id commits).getD db

/-- One launch. Migrations that throw are logged. -/
def launch (s : Installation δ) (l : Launch δ) : Except Trap (Installation δ) :=
  let db := skip s.database l
  match migrate db l.registered l.commits with
  | none => .ok { s with database := db }
  | some database =>
      .ok ⟨database, s.committed ++ (pendingMigrations db l.registered).map (·.id)⟩

end Installation

end MultisigWallet
