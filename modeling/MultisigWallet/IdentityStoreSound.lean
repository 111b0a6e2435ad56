import MultisigWallet.DBTransactionRepositorySound
import MultisigWallet.IdentityAccessSound
import MultisigWallet.IdentityStore
import MultisigWallet.Lib.Refinement

/-!
# MultisigWallet.IdentityStoreSound

The identity service over its tables does what it does with a user and a gatekeeper in two
variables. Each table has one row at most, under one identifier, and the row is all of the object
(`Represents`); every call leaves it so, and comes to the same (`perform_agrees`). Hence what is
proved of the runs of the service is true of the app, across launches.

It rests on the first launch. The tables and the gatekeeper are made in four statements, and only
where there is no file; a process that ends between the first and the last of them leaves the app
without a gatekeeper for good (`gatekeeper_iff`).
-/

namespace MultisigWallet

namespace IdentityAccess

variable {text : DateText} {services : Services} {db : IdentityDatabase} {s : Identity}
  {id : GatekeeperID} {g : Gatekeeper}

/-! ### Rows -/

theorem date_read (text : DateText) (date : Option Date) :
    (date.map text.string).bind text.timeInterval = date := by
  cases date with
  | none => rfl
  | some date => exact text.timeInterval_string date

theorem policy_read (p : AuthenticationPolicy) :
    AuthenticationPolicy.create p.sessionDuration p.maxFailedAttempts p.blockDuration = .ok p := by
  unfold AuthenticationPolicy.create
  rw [dif_pos p.sessionDuration_pos, dif_pos p.maxFailedAttempts_pos,
    dif_pos p.blockDuration_nonneg]

namespace DBSingleGatekeeperRepository

theorem session_read (id : GatekeeperID) (g : Gatekeeper) :
    session text (insertionBindings text id g) = .ok g.session := by
  unfold session insertionBindings
  cases g.session with
  | none => rfl
  | some session =>
      simp only [Option.map_some, Option.bind_some, date_read]
      unfold Session.create
      rw [dif_pos session.duration_pos]
      rfl

/-- A gatekeeper is read as it was written. -/
theorem objectFromResultSet_insertionBindings (id : GatekeeperID) (g : Gatekeeper) :
    objectFromResultSet text (insertionBindings text id g) = .ok (id, g) := by
  have hpolicy := policy_read g.policy
  have hdenied := date_read text g.accessDeniedAt
  unfold objectFromResultSet
  rw [session_read]
  unfold insertionBindings
  simp only [hpolicy, hdenied]
  rfl

end DBSingleGatekeeperRepository

/-! ### Tables -/

/-- The tables hold the user and the gatekeeper, and nothing else. -/
structure Represents (text : DateText) (db : IdentityDatabase) (s : Identity) : Prop where
  users : db.users = some (s.user.toList.map DBSingleUserRepository.userRow)
  gatekeepers : ∃ id, db.gatekeepers =
    some (s.gatekeeper.toList.map (DBSingleGatekeeperRepository.insertionBindings text id))

theorem Represents.primaryUser (h : Represents text db s) :
    DBSingleUserRepository.primaryUser db = s.user := by
  unfold DBSingleUserRepository.primaryUser
  rw [h.users]
  cases s.user <;> rfl

theorem Represents.user (h : Represents text db s) (encryptedPassword : Str) :
    DBSingleUserRepository.user db encryptedPassword =
      s.user.filter (·.password = encryptedPassword) := by
  unfold DBSingleUserRepository.user
  rw [h.users]
  cases s.user with
  | none => rfl
  | some u =>
      by_cases hpassword : u.password = encryptedPassword
      · simp only [Option.filter, Option.toList_some, List.map_cons, List.map_nil,
          Option.bind_some, List.find?_cons, DBSingleUserRepository.userRow, hpassword, decide_true]
        exact congrArg some (congrArg (User.mk u.id · u.sessionID) hpassword.symm)
      · simp [Option.filter, DBSingleUserRepository.userRow, hpassword]

theorem gatekeeper_read (h : db.gatekeepers =
    some (s.gatekeeper.toList.map (DBSingleGatekeeperRepository.insertionBindings text id))) :
    DBSingleGatekeeperRepository.gatekeeper text db = .ok (s.gatekeeper.map fun g => (id, g)) := by
  unfold DBSingleGatekeeperRepository.gatekeeper
  rw [h]
  cases s.gatekeeper with
  | none => rfl
  | some g =>
      simp only [Option.toList_some, List.map_cons,
        DBSingleGatekeeperRepository.objectFromResultSet_insertionBindings]
      rfl

/-- The row of the gatekeeper is replaced. -/
theorem gatekeeper_saved (hdb : Represents text db s) (h : db.gatekeepers =
      some (s.gatekeeper.toList.map (DBSingleGatekeeperRepository.insertionBindings text id)))
    (g : Gatekeeper) : ∃ db', DBSingleGatekeeperRepository.save text db id g = .ok db' ∧
      Represents text db' { s with gatekeeper := some g } := by
  unfold DBSingleGatekeeperRepository.save
  rw [h]
  refine ⟨_, rfl, hdb.users, id, ?_⟩
  cases s.gatekeeper with
  | none => rfl
  | some g' => simp [Rows.replaced, DBSingleGatekeeperRepository.insertionBindings]

/-- The service stores no second user. -/
theorem saveUser_agrees (h : Represents text db s) {u : User} (hu : ∀ v ∈ s.user, v.id = u.id)
    (stored : Bool) (outcome : Outcome) :
    Represents text (db.saveUser u stored outcome).1 (s.saveUser u stored outcome).1 ∧
      (db.saveUser u stored outcome).2 = (s.saveUser u stored outcome).2 := by
  unfold IdentityDatabase.saveUser DBSingleUserRepository.save Identity.saveUser
  rw [h.users]
  cases stored with
  | false => exact ⟨h, rfl⟩
  | true =>
      refine ⟨⟨?_, h.gatekeepers⟩, rfl⟩
      cases huser : s.user with
      | none => rfl
      | some v =>
          have hid := hu v huser
          simp [Rows.replaced, DBSingleUserRepository.userRow, hid]

/-! ### Calls -/

/-- Two calls came to the same. -/
def Same (text : DateText) (x : IdentityDatabase × Outcome) (y : Identity × Outcome) : Prop :=
  Represents text x.1 y.1 ∧ x.2 = y.2

theorem Represents.isUserAuthenticated (h : Represents text db s) (time : Date) :
    db.isUserAuthenticated text time = s.isUserAuthenticated time := by
  obtain ⟨id, hid⟩ := h.gatekeepers
  unfold IdentityDatabase.isUserAuthenticated Identity.isUserAuthenticated
  rw [gatekeeper_read hid, h.primaryUser]
  cases s.gatekeeper with
  | none => rfl
  | some g => cases s.user.bind User.sessionID <;> rfl

theorem authenticate_agrees (h : Represents text db s) (time : Date) (session : SessionID)
    (stored : Bool) {credentials : Option User} (hu : ∀ u ∈ credentials, s.user = some u) :
    Refinement.Agree (Same text) (db.authenticate text time session stored credentials)
      (s.authenticate time session stored credentials) := by
  obtain ⟨id, hid⟩ := h.gatekeepers
  unfold IdentityDatabase.authenticate Identity.authenticate
  rw [gatekeeper_read hid]
  cases hg : s.gatekeeper with
  | none => exact .ok ⟨h, rfl⟩
  | some g =>
      simp only [Option.map_some, bind, Except.bind, pure, Except.pure]
      by_cases hpossible : g.isAccessPossible time
      · simp only [hpossible, if_true]
        cases credentials with
        | none =>
            cases hdeny : g.denyAccess time with
            | error e => exact .error e
            | ok g' =>
                obtain ⟨db', hsave, hdb'⟩ := gatekeeper_saved h hid g'
                simp only [hsave]
                exact .ok ⟨hdb', rfl⟩
        | some u =>
            cases hallow : g.allowAccess time session with
            | error e => exact .error e
            | ok result =>
                cases result with
                | error e => exact .ok ⟨h, rfl⟩
                | ok g' =>
                    obtain ⟨db', hsave, hdb'⟩ := gatekeeper_saved h hid g'
                    simp only [hsave]
                    refine .ok (saveUser_agrees hdb' (fun v hv => ?_) stored _)
                    obtain rfl := Option.some.inj ((hu u rfl).symm.trans hv)
                    rfl
      · simp only [hpossible]
        exact .ok ⟨h, rfl⟩

/-- A change of the stored gatekeeper that may trap. -/
def Identity.changed (s : Identity) (change : Gatekeeper → Except Trap (Except Error Gatekeeper)) :
    Except Trap (Identity × Outcome) :=
  match s.gatekeeper with
  | none => .ok (s, .returned)
  | some gatekeeper => do
      match ← change gatekeeper with
      | .error error => return (s, .threw error)
      | .ok gatekeeper => return ({ s with gatekeeper := some gatekeeper }, .returned)

theorem changeGatekeeper_eq (s : Identity) (change : Gatekeeper → Except Error Gatekeeper) :
    .ok (s.changeGatekeeper change) = s.changed fun g => .ok (change g) := by
  unfold Identity.changeGatekeeper Identity.changed
  cases s.gatekeeper with
  | none => rfl
  | some g =>
      simp only [bind, Except.bind]
      cases change g <;> rfl

theorem changed_agrees (h : Represents text db s)
    (change : Gatekeeper → Except Trap (Except Error Gatekeeper)) :
    Refinement.Agree (Same text) (db.changeGatekeeper text change) (s.changed change) := by
  obtain ⟨id, hid⟩ := h.gatekeepers
  unfold IdentityDatabase.changeGatekeeper Identity.changed
  rw [gatekeeper_read hid]
  cases hg : s.gatekeeper with
  | none => exact .ok ⟨h, rfl⟩
  | some g =>
      simp only [Option.map_some, bind, Except.bind, pure, Except.pure]
      cases hchange : change g with
      | error e => exact .error e
      | ok result =>
          cases result with
          | error e => exact .ok ⟨h, rfl⟩
          | ok g' =>
              obtain ⟨db', hsave, hdb'⟩ := gatekeeper_saved h hid g'
              simp only [hsave]
              exact .ok ⟨hdb', rfl⟩

theorem registerUser_agrees (h : Represents text db s) (password : Str) (id : UserID)
    (stored activated : Bool) :
    Same text (db.registerUser services password id stored activated)
      (s.registerUser services password id stored activated) := by
  unfold IdentityDatabase.registerUser Identity.registerUser
  rw [h.primaryUser]
  cases hfree : assertTrue s.user.isNone .userAlreadyRegistered with
  | error e => exact ⟨h, rfl⟩
  | ok _ =>
      cases Identity.validatePlaintextPassword services password with
      | error e => exact ⟨h, rfl⟩
      | ok _ =>
          refine saveUser_agrees h (fun v hv => ?_) stored _
          rw [hv] at hfree
          cases hfree

theorem updatePrimaryUserPassword_agrees (h : Represents text db s) (password : Str)
    (stored : Bool) : Same text (db.updatePrimaryUserPassword services password stored)
      (s.updatePrimaryUserPassword services password stored) := by
  unfold IdentityDatabase.updatePrimaryUserPassword Identity.updatePrimaryUserPassword
  rw [h.primaryUser]
  cases huser : s.user with
  | none => exact ⟨h, rfl⟩
  | some u =>
      cases Identity.validatePlaintextPassword services password with
      | error e => exact ⟨h, rfl⟩
      | ok _ =>
          refine saveUser_agrees h (fun v hv => ?_) stored _
          obtain rfl := Option.some.inj (huser.symm.trans hv)
          rfl

theorem reset_agrees (h : Represents text db s) (removed : Bool) :
    Refinement.Agree (Same text) (db.reset text removed) (.ok (s.reset removed)) := by
  have hreset : ∀ s : Identity, .ok ({ s with gatekeeper := s.gatekeeper.map Gatekeeper.reset },
      .returned) = s.changed fun g => .ok (.ok g.reset) := by
    intro s
    unfold Identity.changed
    cases s with
    | mk user gatekeeper => cases gatekeeper <;> rfl
  unfold IdentityDatabase.reset Identity.reset
  rw [h.primaryUser]
  cases huser : s.user with
  | none =>
      have hs : ({ user := none, gatekeeper := s.gatekeeper.map Gatekeeper.reset } : Identity) =
          { s with gatekeeper := s.gatekeeper.map Gatekeeper.reset } := by rw [huser]
      simp only [Option.isNone_none, Bool.true_or, if_true, hs, hreset]
      exact changed_agrees h _
  | some u =>
      unfold DBSingleUserRepository.remove
      rw [h.users, huser]
      cases removed with
      | false => exact .ok ⟨h, rfl⟩
      | true =>
          have hdb : Represents text { db with users := some [] } { s with user := none } :=
            ⟨rfl, h.gatekeepers⟩
          have hchanged := changed_agrees hdb fun g => .ok (.ok g.reset)
          rw [← hreset] at hchanged
          simpa [DBSingleUserRepository.userRow] using hchanged

/-- Every call comes to the same over the tables. -/
theorem perform_agrees (h : Represents text db s) (call : Call) :
    Refinement.Agree (Same text) (db.perform text services call) (call.perform services s) := by
  cases call with
  | registerUser password id stored activated =>
      exact .ok (registerUser_agrees h password id stored activated)
  | updatePrimaryUserPassword password stored =>
      exact .ok (updatePrimaryUserPassword_agrees h password stored)
  | authenticateUser password time id stored =>
      simp only [IdentityDatabase.perform, Call.perform, IdentityDatabase.authenticateUser, h.user]
      exact authenticate_agrees h time id stored fun u hu => (Option.filter_eq_some_iff.mp hu).1
  | authenticateUserBiometrically recognized time id stored =>
      simp only [IdentityDatabase.perform, Call.perform,
        IdentityDatabase.authenticateUserBiometrically, h.primaryUser]
      refine authenticate_agrees h time id stored fun u hu => ?_
      cases recognized with
      | false => cases hu
      | true => exact hu
  | useAccess time => exact changed_agrees h _
  | configureSession duration =>
      simp only [IdentityDatabase.perform, Call.perform]
      rw [changeGatekeeper_eq s (·.changeSessionDuration duration)]
      exact changed_agrees h _
  | configureMaxPasswordAttempts count =>
      simp only [IdentityDatabase.perform, Call.perform]
      rw [changeGatekeeper_eq s (·.changeMaxFailedAttempts count)]
      exact changed_agrees h _
  | configureBlockDuration duration =>
      simp only [IdentityDatabase.perform, Call.perform]
      rw [changeGatekeeper_eq s (·.changeBlockDuration duration)]
      exact changed_agrees h _
  | resetGatekeeper =>
      simp only [IdentityDatabase.perform, Call.perform]
      rw [changeGatekeeper_eq s fun g => .ok g.reset]
      exact changed_agrees h _
  | reset removed => exact reset_agrees h removed

/-! ### Runs -/

/-- What the first launch configures. -/
def configured : Identity := ⟨none, some { policy := configuredPolicy }⟩

/-- With the user and the gatekeeper in two variables, launches change nothing. -/
def historyStep (services : Services) (k : History) : StoreAction → Except Trap History
  | .call call => step services k call
  | .launch _ _ => .ok k
  | .resetAll destroyed _ _ => .ok (if destroyed then { k with identity := configured } else k)

/-- The process survives the statements that make a new database. -/
def StoreAction.Completes : StoreAction → Prop
  | .resetAll true _ statements => 4 ≤ statements
  | _ => True

instance : DecidablePred StoreAction.Completes
  | .call _ => .isTrue trivial
  | .launch _ _ => .isTrue trivial
  | .resetAll true _ statements => Nat.decLe 4 statements
  | .resetAll false _ _ => .isTrue trivial

/-- There is a database, and it represents the identity. -/
structure Stores (text : DateText) (h : StoredHistory) (k : History) : Prop where
  database : ∃ db, h.database = some db ∧ Represents text db k.identity
  log : h.log = k.log

theorem createDatabase_eq (text : DateText) (id : GatekeeperID) {statements : Nat}
    (h : 4 ≤ statements) :
    ∃ db, createDatabase text id statements = some db ∧ Represents text db configured := by
  obtain ⟨n, rfl⟩ := Nat.exists_eq_add_of_le' h
  exact ⟨_, rfl, rfl, id, rfl⟩

/-- The service over the tables refines the service over two variables. -/
theorem store_refines (text : DateText) (services : Services) :
    Refinement.Refines (StoredHistory.step text services) (historyStep services)
      StoreAction.Completes (Stores text) := by
  intro h k action hguard hR
  obtain ⟨db, hdb, hrep⟩ := hR.database
  have hlog := hR.log
  cases action with
  | call call =>
      simp only [StoredHistory.step, historyStep, step, hdb, hlog, Option.getD_some]
      refine (perform_agrees hrep call).bind fun x y hsame => ?_
      exact .ok ⟨⟨x.1, rfl, hsame.1⟩, by rw [hsame.2]⟩
  | launch id statements => exact .ok ⟨⟨db, by rw [StoredHistory.launch, hdb]; rfl, hrep⟩, hlog⟩
  | resetAll destroyed id statements =>
      cases destroyed with
      | false => exact .ok ⟨⟨db, by simp [StoredHistory.launch, hdb], hrep⟩, hlog⟩
      | true =>
          obtain ⟨db', hdb', hrep'⟩ := createDatabase_eq text id hguard
          exact .ok ⟨⟨db', hdb', hrep'⟩, hlog⟩

/-- The app does with its database what it does with a user and a gatekeeper in two variables:
whatever is called, and however often it is launched, it traps where that does, and otherwise all
calls came to the same, the rows are the user and the gatekeeper, and at any time the user is
authenticated or not as there. -/
theorem store_agrees (text : DateText) (services : Services) (id : GatekeeperID) {statements : Nat}
    (hstatements : 4 ≤ statements) {actions : List StoreAction}
    (hactions : ∀ a ∈ actions, a.Completes) :
    Refinement.Agree (fun h k => Stores text h k ∧ ∀ time,
        (h.database.getD {}).isUserAuthenticated text time = k.identity.isUserAuthenticated time)
      (Transition.run (StoredHistory.step text services)
        ⟨createDatabase text id statements, []⟩ actions)
      (Transition.run (historyStep services) ⟨configured, []⟩ actions) := by
  have hstart : Stores text ⟨createDatabase text id statements, []⟩ ⟨configured, []⟩ :=
    ⟨createDatabase_eq text id hstatements, rfl⟩
  refine ((store_refines text services).run hactions hstart).mono fun h k hstores => ?_
  obtain ⟨db, hdb, hrep⟩ := hstores.database
  exact ⟨hstores, fun time => by rw [hdb]; exact hrep.isUserAuthenticated time⟩

/-- A user who logs in after the app was launched again. -/
theorem store_agrees_login :
    ∃ h, Transition.run (StoredHistory.step DBTransactionRepository.seconds plainServices)
        ⟨createDatabase DBTransactionRepository.seconds ['g'] 4, []⟩
        [.call (.registerUser "secret0".toList ['u'] true true), .launch ['h'] 0,
          .call (.authenticateUser "secret0".toList 10 ['s'] true)] = .ok h ∧
      (h.database.getD {}).isUserAuthenticated DBTransactionRepository.seconds 20 = .ok true := by
  let actions : List StoreAction := [.call (.registerUser "secret0".toList ['u'] true true),
    .launch ['h'] 0, .call (.authenticateUser "secret0".toList 10 ['s'] true)]
  have hcompletes : ∀ a ∈ actions, a.Completes := by decide
  have hagree := store_agrees DBTransactionRepository.seconds plainServices ['g'] (Nat.le_refl 4)
    hcompletes
  obtain ⟨k, hk, hauthenticated⟩ := exists_ok_of_any
    (x := Transition.run (historyStep plainServices) ⟨configured, []⟩
      [.call (.registerUser "secret0".toList ['u'] true true), .launch ['h'] 0,
        .call (.authenticateUser "secret0".toList 10 ['s'] true)])
    (p := fun k => decide (k.identity.isUserAuthenticated 20 = .ok true)) (by decide +kernel)
  rw [show Transition.run (historyStep plainServices) ⟨configured, []⟩ actions = .ok k from hk]
    at hagree
  obtain ⟨h, hh, -, hsame⟩ := hagree.of_ok
  exact ⟨h, hh, (hsame 20).trans (of_decide_eq_true hauthenticated)⟩

/-! ### A first launch that does not complete -/

theorem remove_gatekeepers {u : User} {removed : Bool} {db' : IdentityDatabase}
    (h : DBSingleUserRepository.remove db u removed = some db') :
    db'.gatekeepers = db.gatekeepers := by
  unfold DBSingleUserRepository.remove at h
  cases hrows : db.users with
  | none =>
      rw [hrows] at h
      cases h
  | some rows =>
      rw [hrows] at h
      cases removed with
      | false => cases h
      | true =>
          obtain rfl := Option.some.inj h
          rfl

/-- What a call does to the table of gatekeepers. -/
inductive Touched (db db' : IdentityDatabase) : Outcome → Prop
  | kept {outcome : Outcome} (heq : db'.gatekeepers = db.gatekeepers)
      (houtcome : ∀ user, outcome ≠ .authenticated user) : Touched db db' outcome
  | saved {outcome : Outcome} (hrow : db.gatekeepers.getD [] ≠ [])
      (hsaved : db'.gatekeepers.getD [] ≠ []) : Touched db db' outcome

theorem row_of_gatekeeper
    (h : DBSingleGatekeeperRepository.gatekeeper text db = .ok (some (id, g))) :
    db.gatekeepers.getD [] ≠ [] := by
  unfold DBSingleGatekeeperRepository.gatekeeper at h
  cases hrows : db.gatekeepers with
  | none =>
      rw [hrows] at h
      cases h
  | some rows =>
      cases rows with
      | nil =>
          rw [hrows] at h
          cases h
      | cons row rows => simp

theorem row_of_save {db' : IdentityDatabase}
    (h : DBSingleGatekeeperRepository.save text db id g = .ok db') :
    db'.gatekeepers.getD [] ≠ [] := by
  unfold DBSingleGatekeeperRepository.save at h
  cases hrows : db.gatekeepers with
  | none =>
      rw [hrows] at h
      cases h
  | some rows =>
      rw [hrows] at h
      obtain rfl := Except.ok.inj h
      simp [Rows.replaced]

theorem saveUser_gatekeepers (db : IdentityDatabase) (u : User) (stored : Bool)
    (outcome : Outcome) : (db.saveUser u stored outcome).1.gatekeepers = db.gatekeepers := by
  unfold IdentityDatabase.saveUser DBSingleUserRepository.save
  cases db.users with
  | none => rfl
  | some rows => cases stored <;> rfl

theorem saveUser_touched (db : IdentityDatabase) (u : User) (stored : Bool) {outcome : Outcome}
    (houtcome : ∀ user, outcome ≠ .authenticated user) :
    Touched db (db.saveUser u stored outcome).1 (db.saveUser u stored outcome).2 := by
  refine .kept (saveUser_gatekeepers db u stored outcome) ?_
  unfold IdentityDatabase.saveUser
  cases DBSingleUserRepository.save db u stored with
  | none => simp
  | some db' => exact houtcome

theorem authenticate_touched {time : Date} {session : SessionID} {stored : Bool}
    {credentials : Option User} {db' : IdentityDatabase} {outcome : Outcome}
    (h : db.authenticate text time session stored credentials = .ok (db', outcome)) :
    Touched db db' outcome := by
  obtain ⟨gatekeeper, hgatekeeper, h⟩ := bind_ok.mp h
  cases gatekeeper with
  | none =>
      obtain ⟨rfl, rfl⟩ := Prod.mk.inj (Except.ok.inj h)
      exact .kept rfl (by simp)
  | some found =>
      obtain ⟨id, g⟩ := found
      have hrow := row_of_gatekeeper hgatekeeper
      dsimp only at h
      split at h
      · cases credentials with
        | none =>
            obtain ⟨g', -, h⟩ := bind_ok.mp h
            obtain ⟨saved, hsave, h⟩ := bind_ok.mp h
            obtain ⟨rfl, rfl⟩ := Prod.mk.inj (Except.ok.inj h)
            exact .saved hrow (row_of_save hsave)
        | some user =>
            obtain ⟨r, -, h⟩ := bind_ok.mp h
            cases r with
            | error e =>
                obtain ⟨rfl, rfl⟩ := Prod.mk.inj (Except.ok.inj h)
                exact .kept rfl (by simp)
            | ok g' =>
                obtain ⟨saved, hsave, h⟩ := bind_ok.mp h
                have hsaved := saveUser_gatekeepers saved { user with sessionID := some session }
                  stored (.authenticated user.id)
                rw [Except.ok.inj h] at hsaved
                exact .saved hrow (hsaved ▸ row_of_save hsave)
      · obtain ⟨rfl, rfl⟩ := Prod.mk.inj (Except.ok.inj h)
        exact .kept rfl (by simp)

theorem changeGatekeeper_touched {change : Gatekeeper → Except Trap (Except Error Gatekeeper)}
    {db' : IdentityDatabase} {outcome : Outcome}
    (h : db.changeGatekeeper text change = .ok (db', outcome)) : Touched db db' outcome := by
  obtain ⟨gatekeeper, hgatekeeper, h⟩ := bind_ok.mp h
  cases gatekeeper with
  | none =>
      obtain ⟨rfl, rfl⟩ := Prod.mk.inj (Except.ok.inj h)
      exact .kept rfl (by simp)
  | some found =>
      obtain ⟨id, g⟩ := found
      obtain ⟨r, -, h⟩ := bind_ok.mp h
      cases r with
      | error e =>
          obtain ⟨rfl, rfl⟩ := Prod.mk.inj (Except.ok.inj h)
          exact .kept rfl (by simp)
      | ok g' =>
          obtain ⟨saved, hsave, h⟩ := bind_ok.mp h
          obtain ⟨rfl, rfl⟩ := Prod.mk.inj (Except.ok.inj h)
          exact .saved (row_of_gatekeeper hgatekeeper) (row_of_save hsave)

theorem perform_touched {call : Call} {db' : IdentityDatabase} {outcome : Outcome}
    (h : db.perform text services call = .ok (db', outcome)) : Touched db db' outcome := by
  cases call with
  | registerUser password id stored activated =>
      obtain ⟨rfl, rfl⟩ := Prod.mk.inj (Except.ok.inj h)
      cases assertTrue (DBSingleUserRepository.primaryUser db).isNone .userAlreadyRegistered with
      | error e => exact .kept rfl (by simp)
      | ok _ =>
          cases Identity.validatePlaintextPassword services password with
          | error e => exact .kept rfl (by simp)
          | ok _ => exact saveUser_touched db _ stored (by cases activated <;> simp)
  | updatePrimaryUserPassword password stored =>
      obtain ⟨rfl, rfl⟩ := Prod.mk.inj (Except.ok.inj h)
      cases DBSingleUserRepository.primaryUser db with
      | none => exact .kept rfl (by simp)
      | some user =>
          cases Identity.validatePlaintextPassword services password with
          | error e => exact .kept rfl (by simp)
          | ok _ => exact saveUser_touched db _ stored (by simp)
  | authenticateUser password time id stored => exact authenticate_touched h
  | authenticateUserBiometrically recognized time id stored => exact authenticate_touched h
  | useAccess time => exact changeGatekeeper_touched h
  | configureSession duration => exact changeGatekeeper_touched h
  | configureMaxPasswordAttempts count => exact changeGatekeeper_touched h
  | configureBlockDuration duration => exact changeGatekeeper_touched h
  | resetGatekeeper => exact changeGatekeeper_touched h
  | reset removed =>
      simp only [IdentityDatabase.perform, IdentityDatabase.reset] at h
      cases huser : DBSingleUserRepository.primaryUser db with
      | none =>
          rw [huser] at h
          exact changeGatekeeper_touched h
      | some user =>
          simp only [huser] at h
          cases hremove : DBSingleUserRepository.remove db user removed with
          | none =>
              rw [hremove] at h
              obtain ⟨rfl, rfl⟩ := Prod.mk.inj (Except.ok.inj h)
              exact .kept rfl (by simp)
          | some cleared =>
              rw [hremove] at h
              have hsame := remove_gatekeepers hremove
              cases changeGatekeeper_touched h with
              | kept heq houtcome => exact .kept (heq.trans hsame) houtcome
              | saved hrow hsaved => exact .saved (hsame ▸ hrow) hsaved

/-- No call makes a first row of the table of gatekeepers, or takes the only one away. -/
theorem Touched.row {db' : IdentityDatabase} {outcome : Outcome} (h : Touched db db' outcome) :
    db'.gatekeepers.getD [] = [] ↔ db.gatekeepers.getD [] = [] := by
  cases h with
  | kept heq houtcome => rw [heq]
  | saved hrow hsaved => exact iff_of_false hsaved hrow

/-- Without a gatekeeper nobody is authenticated. -/
theorem Touched.outcome {db' : IdentityDatabase} {outcome : Outcome} (h : Touched db db' outcome)
    (hrow : db.gatekeepers.getD [] = []) (user : UserID) : outcome ≠ .authenticated user := by
  cases h with
  | kept heq houtcome => exact houtcome user
  | saved hne hsaved => exact absurd hrow hne

/-- The action destroys the database. -/
def StoreAction.destroys : StoreAction → Bool
  | .resetAll destroyed _ _ => destroyed
  | _ => false

/-- There is a database, without a row of a gatekeeper exactly if it was made so, and then nobody
was authenticated. -/
structure Launched (bare : Prop) (h : StoredHistory) : Prop where
  database : ∃ db, h.database = some db ∧ (db.gatekeepers.getD [] = [] ↔ bare)
  log : bare → ∀ e ∈ h.log, ∀ user, e.2 ≠ .authenticated user

theorem Launched.step {bare : Prop} {h h' : StoredHistory} {action : StoreAction}
    (hkeeps : action.destroys = false) (hlaunched : Launched bare h)
    (hstep : h.step text services action = .ok h') : Launched bare h' := by
  obtain ⟨db, hdb, hrow⟩ := hlaunched.database
  cases action with
  | call call =>
      obtain ⟨⟨db', outcome⟩, hperform, hret⟩ := bind_ok.mp hstep
      obtain rfl := Except.ok.inj hret
      rw [hdb] at hperform
      have htouched := perform_touched hperform
      refine ⟨⟨db', by rw [hdb]; rfl, htouched.row.trans hrow⟩, fun hbare e he => ?_⟩
      rcases List.mem_append.mp he with hold | hnew
      · exact hlaunched.log hbare e hold
      · obtain rfl := List.mem_singleton.mp hnew
        exact htouched.outcome (hrow.mpr hbare)
  | launch id statements =>
      obtain rfl := Except.ok.inj hstep
      exact ⟨⟨db, by rw [StoredHistory.launch, hdb]; rfl, hrow⟩, hlaunched.log⟩
  | resetAll destroyed id statements =>
      obtain rfl : destroyed = false := hkeeps
      obtain rfl := Except.ok.inj hstep
      exact ⟨⟨db, by simp [StoredHistory.launch, hdb], hrow⟩, hlaunched.log⟩

theorem createDatabase_row (text : DateText) (id : GatekeeperID) {statements : Nat}
    (hstarted : 0 < statements) : ∃ db, createDatabase text id statements = some db ∧
      (db.gatekeepers.getD [] = [] ↔ statements < 4) :=
  match statements, hstarted with
  | 1, _ => ⟨_, rfl, by simp⟩
  | 2, _ => ⟨_, rfl, by simp⟩
  | 3, _ => ⟨_, rfl, by simp⟩
  | n + 4, _ => ⟨_, rfl, by simp⟩

/-- The first launch decides. However often the app is launched again, and whatever is called: as
long as the database is not destroyed there is a gatekeeper in it exactly if the process survived
all four statements, and without one nobody is ever authenticated. -/
theorem gatekeeper_iff (text : DateText) (services : Services) (id : GatekeeperID)
    {statements : Nat} (hstarted : 0 < statements) {actions : List StoreAction}
    (hkeeps : ∀ a ∈ actions, a.destroys = false) {h : StoredHistory}
    (hrun : Transition.run (StoredHistory.step text services)
      ⟨createDatabase text id statements, []⟩ actions = .ok h) :
    ((∃ db g, h.database = some db ∧
        DBSingleGatekeeperRepository.gatekeeper text db = .ok (some g)) ↔ 4 ≤ statements) ∧
      (statements < 4 → ∀ e ∈ h.log, ∀ user, e.2 ≠ .authenticated user) := by
  have hlaunched : Launched (statements < 4) h :=
    Transition.run_invariant_of_allowed (fun _ _ _ hkeep hl hstep => Launched.step hkeep hl hstep)
      ⟨createDatabase_row text id hstarted, fun _ _ he => absurd he List.not_mem_nil⟩
      (Transition.allowed_of_forall fun a ha _ => hkeeps a ha) hrun
  obtain ⟨db, hdb, hrow⟩ := hlaunched.database
  refine ⟨⟨?_, ?_⟩, hlaunched.log⟩
  · intro hexists
    obtain ⟨db', ⟨id', g⟩, hdb', hg⟩ := hexists
    obtain rfl := Option.some.inj (hdb.symm.trans hdb')
    exact Nat.le_of_not_lt fun hbare => row_of_gatekeeper hg (hrow.mpr hbare)
  · intro hcomplete
    have hcompletes : ∀ a ∈ actions, a.Completes := fun a ha => by
      have hkeep := hkeeps a ha
      cases a with
      | call call => trivial
      | launch id statements => trivial
      | resetAll destroyed id statements =>
          obtain rfl : destroyed = false := hkeep
          trivial
    have hagree := (store_refines text services).run
      (s := ⟨createDatabase text id statements, []⟩) (t := ⟨configured, []⟩) hcompletes
      ⟨createDatabase_eq text id hcomplete, rfl⟩
    rw [hrun] at hagree
    obtain ⟨k, -, hstores⟩ := hagree.ok_inv
    obtain ⟨db', hdb', hrep⟩ := hstores.database
    obtain rfl := Option.some.inj (hdb.symm.trans hdb')
    obtain ⟨id', hid⟩ := hrep.gatekeepers
    cases hg : k.identity.gatekeeper with
    | none =>
        rw [hid, hg] at hrow
        exact absurd (hrow.mp rfl) (by omega)
    | some g => exact ⟨db, (id', g), hdb, by rw [gatekeeper_read hid, hg]; rfl⟩

/-- The process ended after the tables were made. -/
theorem gatekeeper_iff_bare :
    ∃ h, Transition.run (StoredHistory.step DBTransactionRepository.seconds plainServices)
        ⟨createDatabase DBTransactionRepository.seconds ['g'] 3, []⟩
        [.launch ['h'] 4, .call (.registerUser "secret0".toList ['u'] true true),
          .call (.authenticateUser "secret0".toList 10 ['s'] true)] = .ok h ∧
      ¬ ∃ db g, h.database = some db ∧ DBSingleGatekeeperRepository.gatekeeper
        DBTransactionRepository.seconds db = .ok (some g) := by
  obtain ⟨h, hrun, -⟩ := exists_ok_of_any
    (x := Transition.run (StoredHistory.step DBTransactionRepository.seconds plainServices)
      ⟨createDatabase DBTransactionRepository.seconds ['g'] 3, []⟩
      [.launch ['h'] 4, .call (.registerUser "secret0".toList ['u'] true true),
        .call (.authenticateUser "secret0".toList 10 ['s'] true)])
    (p := fun _ => true) (by decide +kernel)
  have hiff := (gatekeeper_iff DBTransactionRepository.seconds plainServices ['g'] (by decide)
    (by decide) hrun).1
  exact ⟨h, hrun, fun hexists => absurd (hiff.mp hexists) (by decide)⟩

end IdentityAccess

end MultisigWallet
