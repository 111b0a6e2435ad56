import Mathlib.Data.List.Induction
import MultisigWallet.SQLiteSound

/-!
# MultisigWallet.SQLiteRows

How often a statement is stepped. Only `execute()` and `advanceToNextRow()` step statements; all
other computations are **quiet**. A statement that is done at its first step is never stepped
again, so that no update is applied twice, and what `Connection.execute` returns are the rows
SQLite went through after the statement was reset, each once and in order.
-/

namespace MultisigWallet

namespace SQLite

variable {ρ τ : Type} {s t u : SQLiteState ρ} {c : Nat} {i : StatementID} {call : SQLiteCall ρ}

/-! ### Quiet computations -/

/-- The calls that step or reset a statement. -/
def isStep : SQLiteCall ρ → Bool
  | .sqlite3_step _ _ _ => true
  | .sqlite3_reset _ => true
  | _ => false

def steps (calls : List (SQLiteCall ρ)) : List (SQLiteCall ρ) := calls.filter isStep

/-- What looks at the steps only. -/
theorem foldl_steps {β : Type} {f : β → SQLiteCall ρ → β}
    (hf : ∀ b call, isStep call = false → f b call = b) (calls : List (SQLiteCall ρ)) (b : β) :
    (steps calls).foldl f b = calls.foldl f b := by
  induction calls generalizing b with
  | nil => rfl
  | cons call calls ih =>
      cases hcall : isStep call with
      | true =>
          rw [steps, List.filter_cons_of_pos hcall, List.foldl_cons, List.foldl_cons, ← steps, ih]
      | false =>
          rw [steps, List.filter_cons_of_neg (by simp [hcall]), List.foldl_cons, hf b call hcall,
            ← steps, ih]

/-- `isExecuted` of a statement object, and whether there is a result set of it. -/
def executed (objects : List SQLiteConnection) (i : StatementID) : Option (Bool × Bool) :=
  (objects[i.connection]?.bind (·.statements[i.index]?)).map fun t => (t.isExecuted, t.hasResultSet)

/-- No statement was stepped, and no statement object is another one; there may be new ones. -/
structure Quiet (s t : SQLiteState ρ) : Prop where
  calls : ∃ more, t.calls = s.calls ++ more ∧ steps more = []
  executed : ∀ i, executed t.objects i = executed s.objects i ∨
    executed s.objects i = none ∧ executed t.objects i = some (false, false)

theorem Quiet.refl (s : SQLiteState ρ) : Quiet s s :=
  ⟨⟨[], (List.append_nil _).symm, rfl⟩, fun _ => .inl rfl⟩

theorem steps_append (calls more : List (SQLiteCall ρ)) :
    steps (calls ++ more) = steps calls ++ steps more :=
  List.filter_append calls more

theorem Quiet.steps (h : Quiet s t) : steps t.calls = steps s.calls := by
  obtain ⟨more, hmore, hnone⟩ := h.calls
  rw [hmore, steps_append, hnone, List.append_nil]

theorem Quiet.trans (h : Quiet s t) (h' : Quiet t u) : Quiet s u := by
  obtain ⟨more, hmore, hnone⟩ := h.calls
  obtain ⟨more', hmore', hnone'⟩ := h'.calls
  refine ⟨⟨more ++ more', by rw [hmore', hmore, List.append_assoc], ?_⟩, fun i => ?_⟩
  · rw [steps_append, hnone, hnone', List.append_nil]
  rcases h.executed i with hi | ⟨hs, hi⟩
  · rw [← hi]
    exact h'.executed i
  · rcases h'.executed i with hi' | ⟨ht, -⟩
    · exact .inr ⟨hs, hi'.trans hi⟩
    · rw [ht] at hi
      cases hi

theorem Quiet.asked (h : Quiet s t) (ha : Asked t call u) (hcall : isStep call = false) :
    Quiet s u :=
  h.trans ⟨⟨[call], ha.calls, by simp [SQLite.steps, hcall]⟩, fun i => .inl (by rw [ha.objects])⟩

theorem executed_modify (f : SQLiteConnection → SQLiteConnection) (objects : List SQLiteConnection)
    (c : Nat) (i : StatementID) : executed (objects.modify c f) i =
      (objects[i.connection]?.bind fun o =>
        (if c = i.connection then f o else o).statements[i.index]?).map
          fun t => (t.isExecuted, t.hasResultSet) := by
  rw [executed, List.getElem?_modify]
  cases objects[i.connection]? with
  | none => rfl
  | some o => rfl

/-- The statements of a connection may change as long as their flags stay, and be more. -/
theorem Quiet.modify {f : SQLiteConnection → SQLiteConnection} (h : Quiet s t)
    (hf : ∀ o (k : Nat), ((f o).statements[k]?).map (fun t => (t.isExecuted, t.hasResultSet)) =
        (o.statements[k]?).map (fun t => (t.isExecuted, t.hasResultSet)) ∨
      o.statements[k]? = none ∧
        ((f o).statements[k]?).map (fun t => (t.isExecuted, t.hasResultSet)) =
          some (false, false)) :
    Quiet s { t with objects := t.objects.modify c f } := by
  refine h.trans ⟨⟨[], (List.append_nil _).symm, rfl⟩, fun i => ?_⟩
  show SQLite.executed (t.objects.modify c f) i = _ ∨
    _ ∧ SQLite.executed (t.objects.modify c f) i = _
  rw [executed_modify, SQLite.executed]
  cases t.objects[i.connection]? with
  | none => exact .inl rfl
  | some o =>
      rw [Option.bind_some, Option.bind_some]
      split
      · refine (hf o i.index).imp id fun hnew => ?_
        rw [hnew.1]
        exact ⟨rfl, hnew.2⟩
      · exact .inl rfl

section

variable {mk : SQLiteAnswer ρ → SQLiteCall ρ}

theorem quiet_ask (hmk : ∀ a, isStep (mk a) = false) :
    Throwing.Keeps (Quiet s) (Quiet s) (ask mk) :=
  fun _ hs => ask_does (fun a _ ha => hs.asked ha (hmk a)) hs

theorem quiet_tell (hcall : isStep call = false) : Throwing.Keeps (Quiet s) (Quiet s) (tell call) :=
  .modify fun _ hs => hs.asked ⟨rfl, rfl, rfl⟩ hcall

/-- What touches neither the objects nor the record. -/
theorem quiet_modify {f : SQLiteState ρ → SQLiteState ρ} (hobjects : ∀ s, (f s).objects = s.objects)
    (hcalls : ∀ s, (f s).calls = s.calls) :
    Throwing.Keeps (Quiet s) (Quiet s) (Throwing.modify f : SQLite ρ Unit) :=
  .modify fun t hs => hs.trans
    ⟨⟨[], by rw [hcalls, List.append_nil], rfl⟩, fun i => .inl (by rw [hobjects])⟩

/-- The flags of a connection. -/
theorem quiet_modifyObject {f : SQLiteConnection → SQLiteConnection}
    (hf : ∀ o, (f o).statements = o.statements) :
    Throwing.Keeps (Quiet s) (Quiet s) (modifyObject c f) :=
  .modify fun _ hs => hs.modify fun o k => .inl (by rw [hf])

theorem keepsAll_object {I : SQLiteState ρ → Prop} (d : Nat) : Throwing.Keeps I I (object d) :=
  fun _ hs => object_does (fun _ _ => hs) hs

theorem keepsAll_statementObject {I : SQLiteState ρ → Prop} (i : StatementID) :
    Throwing.Keeps I I (statementObject i) :=
  fun _ hs => statementObject_does (fun _ _ _ _ => hs) hs

theorem quiet_errstr (status : Int) :
    Throwing.Keeps (Quiet s) (Quiet s) (errstr status : SQLite ρ Str) :=
  (quiet_ask fun _ => rfl).bind fun _ => .pure _

theorem quiet_errorMessage (d : Nat) (status : Int) :
    Throwing.Keeps (Quiet s) (Quiet s) (errorMessage d status : SQLite ρ Str) := by
  refine (quiet_ask fun _ => rfl).bind fun a => ?_
  cases a.message with
  | some message => exact .pure message
  | none => exact quiet_errstr status

theorem quiet_waitWhileBusy (hmk : ∀ a, isStep (mk a) = false) :
    Throwing.Keeps (Quiet s) (Quiet s) (waitWhileBusy (ask mk)) :=
  fun _ hs => waitWhileBusy_does (I := Quiet s) (fun _ hu => ask_does (fun a _ ha =>
    ⟨fun _ => hu.asked ha (hmk a), fun _ => hu.asked ha (hmk a)⟩) hu) (fun _ hu => hu) hs

theorem quiet_assertOpened (d : Nat) :
    Throwing.Keeps (Quiet s) (Quiet s) (assertOpened d : SQLite ρ Unit) :=
  (keepsAll_object d).bind fun _ => (Throwing.Keeps.check _ _).bind fun _ => .check _ _

theorem quiet_prepare (c : Nat) (sql : Str) :
    Throwing.Keeps (Quiet s) (Quiet s) (prepare c sql : SQLite ρ StatementID) := by
  refine (quiet_assertOpened c).bind fun _ => (keepsAll_object c).bind fun o =>
    (quiet_waitWhileBusy fun _ => rfl).bind fun a => .ite ?_ ?_
  · exact (quiet_errorMessage _ _).bind fun _ => .fail _
  · refine (Throwing.Keeps.check _ _).bind fun _ => Throwing.Keeps.bind (.modify fun t ht => ?_)
      fun _ => .pure _
    refine ht.modify fun o k => ?_
    rw [List.getElem?_append]
    split
    · exact .inl rfl
    · next hk =>
        have hnone : o.statements[k]? = none := List.getElem?_eq_none (Nat.le_of_not_lt hk)
        rw [hnone]
        by_cases hlast : k = o.statements.length
        · subst hlast
          exact .inr ⟨rfl, by simp⟩
        · exact .inl (by rw [List.getElem?_eq_none (by simp; omega)])

theorem quiet_set (i : StatementID) (value : SQLValue) (index : Int) :
    Throwing.Keeps (Quiet s) (Quiet s) (set i value index : SQLite ρ Unit) := by
  refine Throwing.Keeps.bind ?_ fun _ => (quiet_ask fun _ => rfl).bind fun a =>
    (Throwing.Keeps.check _ _).bind fun _ => .ite ?_ (.pure _)
  · exact (keepsAll_statementObject i).bind fun _ => (Throwing.Keeps.check _ _).bind
      fun _ => .check _ _
  · exact (quiet_errorMessage _ _).bind fun _ => .fail _

theorem quiet_setForKey (i : StatementID) (value : SQLValue) (key : Str) :
    Throwing.Keeps (Quiet s) (Quiet s) (setForKey i value key : SQLite ρ Unit) :=
  (quiet_ask fun _ => rfl).bind fun a => quiet_set i value a.status

theorem quiet_openConnection (c : Nat) :
    Throwing.Keeps (Quiet s) (Quiet s) (openConnection c : SQLite ρ Unit) := by
  refine (keepsAll_object c).bind fun _ => (Throwing.Keeps.check _ _).bind fun _ =>
    (quiet_waitWhileBusy fun _ => rfl).bind fun a => .ite ?_ ?_
  · exact (quiet_errstr _).bind fun _ => .fail _
  · exact (Throwing.Keeps.check _ _).bind fun _ => quiet_modifyObject (by intro o; rfl)

theorem quiet_finalize (i : StatementID) :
    Throwing.Keeps (Quiet s) (Quiet s) (finalize i : SQLite ρ Unit) := by
  refine (quiet_tell rfl).bind fun _ => .modify fun t ht => ht.modify fun o k => .inl ?_
  show ((o.statements.modify i.index _)[k]?).map _ = _
  rw [List.getElem?_modify]
  cases o.statements[k]? with
  | none => rfl
  | some t =>
      by_cases hk : i.index = k
      · simp [hk]
      · simp [hk]

theorem quiet_closeConnection (c : Nat) :
    Throwing.Keeps (Quiet s) (Quiet s) (closeConnection c : SQLite ρ Unit) := by
  refine (quiet_assertOpened c).bind fun _ => Throwing.Keeps.bind ?_ fun _ =>
    (quiet_waitWhileBusy fun _ => rfl).bind fun a => .ite ?_ (quiet_modifyObject (by intro o; rfl))
  · exact (keepsAll_object c).bind fun o => .each fun k _ => quiet_finalize _
  · exact (quiet_errorMessage _ _).bind fun _ => .fail _

theorem quiet_fileManager (function : String) :
    Throwing.Keeps (Quiet s) (Quiet s) (fileManager function : SQLite ρ Bool) :=
  (quiet_ask fun _ => rfl).bind fun _ => .ite (.fail _) (.pure _)

theorem quiet_buildURL : Throwing.Keeps (Quiet s) (Quiet s) (buildURL : SQLite ρ Unit) := by
  have hset : Throwing.Keeps (Quiet s) (Quiet s)
      (Throwing.modify fun s => { s with hasURL := true } : SQLite ρ Unit) :=
    quiet_modify (by intro s; rfl) (by intro s; rfl)
  refine Throwing.Keeps.get.bind fun _ => .ite (.pure _) ?_
  refine (quiet_fileManager _).bind fun _ => (quiet_ask fun _ => rfl).bind fun _ =>
    (Throwing.Keeps.check _ _).bind fun _ => (quiet_ask fun _ => rfl).bind fun _ => ?_
  exact .ite ((quiet_fileManager _).bind fun _ => hset) hset

theorem quiet_connection (thread : Nat) :
    Throwing.Keeps (Quiet s) (Quiet s) (connection thread : SQLite ρ Nat) := by
  refine quiet_buildURL.bind fun _ => (quiet_ask fun _ => rfl).bind fun _ =>
    (Throwing.Keeps.check _ _).bind fun _ => Throwing.Keeps.get.bind fun _ =>
      (Throwing.Keeps.check _ _).bind fun _ => Throwing.Keeps.bind ?_ fun c =>
        (quiet_openConnection c).bind fun _ =>
          (quiet_modify (by intro s; rfl) (by intro s; rfl)).bind fun _ => .pure c
  -- The object that is made has no statements.
  refine fun t ht => .of_returned rfl
    (ht.trans ⟨⟨[], (List.append_nil _).symm, rfl⟩, fun i => .inl ?_⟩)
  show executed (t.objects ++ [⟨false, false, []⟩]) i = executed t.objects i
  rw [executed, executed, List.getElem?_append]
  split
  · rfl
  · next hlt =>
      rw [List.getElem?_eq_none (Nat.le_of_not_lt hlt)]
      cases hlast : [(⟨false, false, []⟩ : SQLiteConnection)][i.connection - t.objects.length]? with
      | none => rfl
      | some o =>
          rw [List.mem_singleton.mp (List.mem_of_getElem? hlast)]
          rfl

theorem quiet_close (thread c : Nat) :
    Throwing.Keeps (Quiet s) (Quiet s) (close thread c : SQLite ρ Unit) :=
  (quiet_closeConnection c).bind fun _ => quiet_modify (by intro s; rfl) (by intro s; rfl)

theorem quiet_destroy (thread : Nat) :
    Throwing.Keeps (Quiet s) (Quiet s) (destroy thread : SQLite ρ Unit) := by
  refine Throwing.Keeps.get.bind fun _ => (Throwing.Keeps.each fun c _ =>
    quiet_closeConnection c).bind fun _ => (quiet_modify (by intro s; rfl) (by intro s; rfl)).bind
      fun _ => quiet_buildURL.attempt.bind fun _ => Throwing.Keeps.get.bind
        fun _ => .ite ?_ (.pure _)
  exact (quiet_ask fun _ => rfl).bind fun _ =>
    .ite ((quiet_fileManager _).bind fun _ => .pure _) (.pure _)

end

/-! ### Statements that are done at once -/

/-- How far a statement got. -/
inductive Phase
  | fresh
  /-- The first step that was not busy had no row. -/
  | finished
  | rows
  /-- It was finished, and was stepped again. -/
  | again
  deriving DecidableEq, Repr

/-- A call, seen from the statement `i`. -/
def Phase.next (i : StatementID) (phase : Phase) : SQLiteCall ρ → Phase
  | .sqlite3_step j status _ =>
      if j ≠ i then phase
      else
        match phase with
        | .fresh =>
            if status = CSQLite3.SQLITE_DONE then .finished
            else if status = CSQLite3.SQLITE_ROW then .rows
            else .fresh
        | .finished => .again
        | .rows => .rows
        | .again => .again
  | _ => phase

def phase (i : StatementID) (calls : List (SQLiteCall ρ)) : Phase :=
  calls.foldl (Phase.next i) .fresh

theorem phase_concat (i : StatementID) (calls : List (SQLiteCall ρ)) (call : SQLiteCall ρ) :
    phase i (calls ++ [call]) = (phase i calls).next i call := by
  simp [phase]

theorem Phase.next_other {j : StatementID} (hj : j ≠ i) (ph : Phase) (status : Int) (row : ρ) :
    ph.next i (.sqlite3_step j status row) = ph := by
  simp [Phase.next, hj]

theorem Phase.next_fresh (status : Int) (row : ρ) :
    Phase.next i .fresh (.sqlite3_step i status row) =
      if status = CSQLite3.SQLITE_DONE then .finished
      else if status = CSQLite3.SQLITE_ROW then .rows else .fresh := by
  simp [Phase.next]

theorem Phase.next_rows (status : Int) (row : ρ) :
    Phase.next i .rows (.sqlite3_step i status row) = .rows := by
  simp [Phase.next]

theorem Phase.next_of_not_isStep (i : StatementID) (phase : Phase) (hcall : isStep call = false) :
    phase.next i call = phase := by
  cases call <;> first | rfl | cases hcall

/-- Only the steps matter. -/
theorem phase_steps (i : StatementID) (calls : List (SQLiteCall ρ)) :
    phase i (steps calls) = phase i calls :=
  foldl_steps (fun phase _ hcall => Phase.next_of_not_isStep i phase hcall) calls .fresh

/-- What a phase means for the flags of the statement object. -/
inductive Phase.Fits : Phase → Option (Bool × Bool) → Prop
  | none : Fits .fresh none
  | fresh : Fits .fresh (some (false, false))
  | finished : Fits .finished (some (true, false))
  | rows (hasResultSet : Bool) : Fits .rows (some (true, hasResultSet))

/-- The flags of every statement object fit its phase. -/
def Once (s : SQLiteState ρ) : Prop := ∀ i, (phase i s.calls).Fits (executed s.objects i)

/-- A statement that has rows. -/
def HasRows (i : StatementID) (s : SQLiteState ρ) : Prop := Once s ∧ phase i s.calls = .rows

theorem Once.quiet (hs : Once s) (h : Quiet s t) : Once t := by
  intro i
  have hphase : phase i t.calls = phase i s.calls := by
    rw [← phase_steps, h.steps, phase_steps]
  rw [hphase]
  rcases h.executed i with hi | ⟨hs', hi⟩
  · rw [hi]
    exact hs i
  · have hfits := hs i
    rw [hs'] at hfits
    rw [hi]
    generalize phase i s.calls = ph at hfits ⊢
    cases hfits
    exact .fresh

theorem HasRows.quiet (hs : HasRows i s) (h : Quiet s t) : HasRows i t :=
  ⟨hs.1.quiet h, by rw [← phase_steps, h.steps, phase_steps]; exact hs.2⟩

theorem keeps_once {α : Type} {m : SQLite ρ α} (hm : ∀ s, Throwing.Keeps (Quiet s) (Quiet s) m) :
    Throwing.Keeps Once Once m :=
  fun s hs => (hm s s (Quiet.refl s)).weaken (fun _ _ h => hs.quiet h) (fun _ _ h => hs.quiet h)
    (fun _ _ h => hs.quiet h)

theorem keeps_hasRows {α : Type} {m : SQLite ρ α}
    (hm : ∀ s, Throwing.Keeps (Quiet s) (Quiet s) m) :
    Throwing.Keeps (HasRows i) Once m :=
  fun s hs => (hm s s (Quiet.refl s)).weaken (fun _ _ h => hs.quiet h) (fun _ _ h => hs.quiet h)
    (fun _ _ h => hs.1.quiet h)

/-- A call that no phase changes at. -/
theorem Once.asked (hs : Once s) (ha : Asked s call t)
    (hcall : ∀ i, (phase i s.calls).next i call = phase i s.calls) : Once t := by
  intro i
  rw [ha.calls, ha.objects, phase_concat, hcall]
  exact hs i

theorem HasRows.asked (hs : HasRows i s) (ha : Asked s call t)
    (hcall : ∀ j, (phase j s.calls).next j call = phase j s.calls) : HasRows i t :=
  ⟨hs.1.asked ha hcall, by rw [ha.calls, phase_concat, hcall]; exact hs.2⟩

theorem executed_modifyStatement {f : SQLiteStatement → SQLiteStatement}
    {g : Bool × Bool → Bool × Bool}
    (hfg : ∀ t, ((f t).isExecuted, (f t).hasResultSet) = g (t.isExecuted, t.hasResultSet))
    (objects : List SQLiteConnection) (i j : StatementID) :
    executed (objects.modify i.connection fun o =>
        { o with statements := o.statements.modify i.index f }) j =
      if i = j then (executed objects j).map g else executed objects j := by
  rw [executed_modify, executed]
  cases objects[j.connection]? with
  | none => simp
  | some o =>
      rw [Option.bind_some, Option.bind_some]
      by_cases hc : i.connection = j.connection
      · rw [if_pos hc]
        show ((o.statements.modify i.index f)[j.index]?).map _ = _
        rw [List.getElem?_modify]
        by_cases hk : i.index = j.index
        · have hij : i = j := by
            cases i
            cases j
            simp_all
          cases o.statements[j.index]? with
          | none => simp
          | some t => simp [hij, hfg]
        · have hij : i ≠ j := fun h => hk (by rw [h])
          cases o.statements[j.index]? with
          | none => simp
          | some t => simp [hk, hij]
      · rw [if_neg hc, if_neg fun h => hc (by rw [h])]

/-- `hasResultSet` is set where there are rows. -/
theorem makeResultSet_once (i : StatementID) :
    Throwing.Keeps (HasRows i) Once (makeResultSet i : SQLite ρ Unit) := by
  have hreset : ∀ n, Throwing.Keeps (HasRows i) Once (resetLoop i n : SQLite ρ Unit) := by
    intro n
    induction n with
    | zero => exact .halt (fun _ h => h.1) _
    | succ n ih =>
        have hask : Throwing.Keeps (HasRows i) Once (ask (ρ := ρ) fun _ => .sqlite3_reset i) :=
          fun _ hs => ask_does (fun _ _ ha => hs.asked ha fun _ => rfl) hs.1
        refine hask.bind fun a => .ite ih (.ite ?_ (.pure _))
        exact (keeps_hasRows fun _ => quiet_errorMessage _ _).bind fun _ => .halt (fun _ h => h.1) _
  refine keeps_fuel.bind fun n => (hreset n).bind fun _ =>
    (keeps_hasRows fun _ => quiet_tell rfl).bind fun _ => .modify fun s hs => ⟨fun j => ?_, hs.2⟩
  show (phase j s.calls).Fits (executed (s.objects.modify _ _) j)
  rw [executed_modifyStatement (g := fun flags => (flags.1, true)) (by intro t; rfl)]
  have hfits := hs.1 j
  split
  · next hij =>
      subst hij
      rw [hs.2] at hfits ⊢
      cases hobject : executed s.objects i with
      | none =>
          rw [hobject] at hfits
          cases hfits
      | some flags =>
          rw [hobject] at hfits
          cases hfits
          exact .rows true
  · exact hfits

/-- `isExecuted` is set where a step was not busy. -/
theorem setExecuted_does {s : SQLiteState ρ} {p : Phase} (hs : ∀ j, j ≠ i →
      (phase j s.calls).Fits (executed s.objects j))
    (hi : executed s.objects i = some (false, false)) (hph : phase i s.calls = p)
    (hfits : p.Fits (some (true, false))) {E : SQLiteError → SQLiteState ρ → Prop}
    {H : SQLiteHalt → SQLiteState ρ → Prop} :
    Throwing.Does (modifyStatement i fun t => { t with isExecuted := true }) s
      (fun _ t => Once t ∧ phase i t.calls = p) E H := by
  refine .modify ⟨fun j => ?_, hph⟩
  show (phase j s.calls).Fits (executed (s.objects.modify _ _) j)
  rw [executed_modifyStatement (g := fun flags => (true, flags.2)) (by intro t; rfl)]
  split
  · next hij =>
      subst hij
      rw [hi, hph]
      exact hfits
  · next hij => exact hs j (Ne.symm hij)

theorem executeStatementLoop_once (i : StatementID) (n : Nat) {s : SQLiteState ρ} (hs : Once s) :
    Throwing.Does (executeStatementLoop i n) s
      (fun rows t => Once t ∧ (rows = true → HasRows i t)) (fun _ => Once) (fun _ => Once) := by
  induction n generalizing s with
  | zero => exact .halt hs
  | succ n ih =>
      refine Throwing.Does.bind (statementObject_does (Q := fun t u => u = s ∧
        executed s.objects i = some (t.isExecuted, t.hasResultSet))
        (fun o t ho ht => ⟨rfl, by simp [executed, ho, ht]⟩) hs) ?_
      rintro t u ⟨rfl, ht⟩
      refine Throwing.Does.bind (.check (Q := fun _ v => v = u) (fun _ => rfl) fun _ => hs) ?_
      rintro - v rfl
      refine Throwing.Does.bind (.check (Q := fun _ w => w = v ∧
        executed v.objects i = some (false, false) ∧ phase i v.calls = .fresh)
        (fun hnot => ⟨rfl, ?_⟩) fun _ => hs) ?_
      · -- The statement was not executed, so its phase is the first one.
        have hfits := hs i
        rw [ht] at hfits ⊢
        rw [Bool.not_eq_eq_eq_not, Bool.not_true] at hnot
        rw [hnot] at hfits ⊢
        generalize phase i v.calls = ph at hfits ⊢
        generalize t.hasResultSet = r at hfits ⊢
        cases hfits
        exact ⟨rfl, rfl⟩
      rintro - w ⟨rfl, hi, hfresh⟩
      refine Throwing.Does.bind (ask_does (Q := fun a x =>
        executed x.objects i = some (false, false) ∧
        phase i x.calls = Phase.next i .fresh (.sqlite3_step i a.status a.row) ∧
        ∀ j, j ≠ i → (phase j x.calls).Fits (executed x.objects j))
        (fun a x ha => ⟨by rw [ha.objects, hi], by rw [ha.calls, phase_concat, hfresh],
          fun j hj => ?_⟩) hs) ?_
      · rw [ha.calls, ha.objects, phase_concat, Phase.next_other (Ne.symm hj)]
        exact hs j
      rintro a x ⟨hi, hphase, hothers⟩
      -- Where the step is neither, the phase does not move.
      have hstay : a.status ≠ CSQLite3.SQLITE_DONE → a.status ≠ CSQLite3.SQLITE_ROW → Once x := by
        intro hdone hrow j
        by_cases hj : j = i
        · subst hj
          rw [hphase, hi, Phase.next_fresh, if_neg hdone, if_neg hrow]
          exact .fresh
        · exact hothers j hj
      split
      · next hdone =>
          refine Throwing.Does.bind (setExecuted_does hothers hi (p := .finished) ?_ .finished)
            fun _ y hy => .pure ⟨hy.1, nofun⟩
          rw [hphase, Phase.next_fresh, if_pos hdone]
      · next hdone =>
          split
          · next hrow =>
              refine Throwing.Does.bind (setExecuted_does hothers hi (p := .rows) ?_ (.rows false))
                fun _ y hy => Throwing.Does.bind ((makeResultSet_once i y hy).weaken
                  (fun _ _ h => h) (fun _ _ h => h.1) (fun _ _ h => h)) fun _ z hz =>
                    .pure ⟨hz.1, fun _ => hz⟩
              rw [hphase, Phase.next_fresh, if_neg hdone, if_pos hrow]
          · next hrow =>
              have hx := hstay hdone hrow
              split
              · refine Throwing.Does.bind (keeps_once (fun _ => quiet_ask fun _ => rfl) x hx)
                  fun _ y hy => ?_
                dsimp only
                split
                · exact ih hy
                · exact .fail hy
              · split
                · exact Throwing.Does.bind (keeps_once (fun _ => quiet_ask fun _ => rfl) x hx)
                    fun _ _ hy => .fail hy
                · split
                  · exact .fail hx
                  · exact Throwing.Does.bind (keeps_once (fun _ => quiet_errorMessage _ _) x hx)
                      fun _ _ hy => .halt hy

theorem advanceLoop_once (i : StatementID) (n : Nat) :
    Throwing.Keeps (HasRows i) Once (advanceLoop i n : SQLite ρ (Option ρ)) := by
  induction n with
  | zero => exact .halt (fun _ h => h.1) _
  | succ n ih =>
      have hask : Throwing.Keeps (HasRows i) Once
          (ask (ρ := ρ) fun a => .sqlite3_step i a.status a.row) := by
        refine fun s hs => ask_does (fun a t ha => hs.asked ha fun j => ?_) hs.1
        by_cases hj : j = i
        · subst hj
          rw [hs.2, Phase.next_rows]
        · exact Phase.next_other (Ne.symm hj) _ _ _
      refine hask.bind fun a => .ite (.pure _) (.ite (.pure _) (.ite ?_ ?_))
      · exact (keeps_hasRows fun _ => quiet_ask fun _ => rfl).bind fun _ => .ite ih (.fail _)
      · exact (keeps_hasRows fun _ => quiet_errorMessage _ _).bind fun _ => .halt (fun _ h => h.1) _

theorem rowLoop_once (i : StatementID) (resultMap : ρ → Except Str (Option τ)) (n : Nat) :
    Throwing.Keeps (HasRows i) Once (rowLoop i resultMap n) := by
  induction n with
  | zero => exact .halt (fun _ h => h.1) _
  | succ n ih =>
      refine (keeps_fuel.bind fun n => advanceLoop_once i n).bind fun row => ?_
      cases row with
      | none => exact .pure _
      | some row =>
          refine (keeps_hasRows fun _ => quiet_tell rfl).bind fun _ => ?_
          cases hmap : resultMap row with
          | error e => exact .fail _
          | ok value => exact ih.bind fun _ => .pure _

theorem executeOn_once (c : Nat) (sql : Str) (bindings : List (Option SQLBindable))
    (dict : List (Str × Option SQLBindable)) (resultMap : ρ → Except Str (Option τ)) :
    Throwing.Keeps Once Once (executeOn c sql bindings dict resultMap) := by
  refine (keeps_once fun _ => quiet_prepare c sql).bind fun i =>
    (keeps_once fun _ => .each fun _ _ => quiet_set i _ _).bind fun _ =>
      (keeps_once fun _ => .each fun _ _ => quiet_setForKey i _ _).bind fun _ => ?_
  intro s hs
  refine Throwing.Does.bind (Throwing.Does.bind (fuel_does hs)
    fun n t ht => executeStatementLoop_once i n ht) ?_
  rintro rows t ⟨ht, hrows⟩
  cases rows with
  | false => exact .pure ht
  | true =>
      exact ((keeps_fuel.bind fun n => rowLoop_once i resultMap n) t (hrows rfl)).weaken
        (fun _ _ h => h.1) (fun _ _ h => h.1) (fun _ _ h => h)

/-- What one call does. -/
theorem perform_once (a : SQLiteAction ρ τ) : Throwing.Keeps Once Once (perform a) := by
  have hrun : ∀ {α : Type} {m : SQLite ρ α}, Throwing.Keeps Once Once m →
      Throwing.Keeps Once Once (run m) := fun hm => hm.bind fun _ => .pure _
  cases a with
  | create =>
      exact keeps_once fun _ => quiet_buildURL.bind fun _ => (quiet_ask fun _ => rfl).bind fun _ =>
        (Throwing.Keeps.check _ _).bind fun _ => (quiet_ask fun _ => rfl).bind fun _ =>
          .ite (.fail _) (.pure _)
  | connection thread => exact hrun (keeps_once fun _ => quiet_connection thread)
  | close thread c => exact keeps_once fun _ => quiet_close thread c
  | destroy thread => exact keeps_once fun _ => quiet_destroy thread
  | execute thread sql bindings dict resultMap =>
      exact hrun ((keeps_once fun _ => quiet_connection thread).bind fun c =>
        .deferring (keeps_once fun _ => quiet_close thread c).attempt
          (executeOn_once c sql bindings dict resultMap))
  | prepare c sql => exact hrun (keeps_once fun _ => quiet_prepare c sql)
  | connectionErrorMessage c =>
      exact hrun (keeps_once fun _ => (keepsAll_object c).bind fun _ =>
        .ite ((quiet_ask fun _ => rfl).bind fun _ => .pure _) (.pure _))
  | set i value index => exact keeps_once fun _ => quiet_set i _ _
  | setForKey i value key => exact keeps_once fun _ => quiet_setForKey i _ _
  | executeStatement i =>
      exact hrun fun s hs => Throwing.Does.bind (fuel_does hs) fun n t ht =>
        (executeStatementLoop_once i n ht).weaken (fun _ _ h => h.1) (fun _ _ h => h)
          (fun _ _ h => h)
  | advanceToNextRow i =>
      intro s hs
      refine Throwing.Does.bind (statementObject_does (Q := fun t u => u = s ∧
        executed s.objects i = some (t.isExecuted, t.hasResultSet))
        (fun o t ho ht => ⟨rfl, by simp [executed, ho, ht]⟩) hs) ?_
      rintro t u ⟨rfl, ht⟩
      split
      · next hresult =>
          -- A statement with a result set has rows.
          have hrows : phase i u.calls = .rows := by
            have hfits := hs i
            rw [ht, hresult] at hfits
            generalize phase i u.calls = ph at hfits ⊢
            generalize t.isExecuted = e at hfits
            cases hfits
            rfl
          exact ((keeps_fuel.bind fun n => advanceLoop_once i n).bind fun _ => .pure _) u
              ⟨hs, hrows⟩
            |>.weaken (fun _ _ h => h.1) (fun _ _ h => h.1) (fun _ _ h => h)
      · exact .pure hs

theorem once_step {p q : SQLiteProcess ρ} {a : SQLiteAction ρ τ} (hp : Once p.state)
    (hstep : step p a = .ok q) : Once q.state := by
  unfold step at hstep
  cases hrunning : p.halted with
  | true =>
      rw [hrunning, if_pos rfl, Except.ok.injEq] at hstep
      exact hstep ▸ hp
  | false =>
      rw [hrunning, if_neg Bool.false_ne_true] at hstep
      have hdoes := perform_once a p.state hp
      rcases hm : perform a p.state with ⟨o, t⟩
      rw [hm] at hstep
      cases o with
      | returned _ =>
          obtain rfl := Except.ok.inj hstep
          exact hdoes.returns _ t hm
      | threw e =>
          obtain rfl := Except.ok.inj hstep
          exact hdoes.throws e t hm
      | halted x =>
          obtain rfl := Except.ok.inj hstep
          exact hdoes.halts x t hm

theorem Phase.foldl_again (i : StatementID) (calls : List (SQLiteCall ρ)) :
    calls.foldl (Phase.next i) .again = .again := by
  induction calls with
  | nil => rfl
  | cons call calls ih =>
      rw [List.foldl_cons]
      have hnext : Phase.next i .again call = .again := by
        cases call <;> simp [Phase.next]
      rw [hnext, ih]

/-- Before a statement had a row it is fresh, or finished. -/
theorem phase_of_no_row {front : List (SQLiteCall ρ)} (hs : phase i front ≠ .again)
    (hrow : ∀ row, .sqlite3_step i CSQLite3.SQLITE_ROW row ∉ front) :
    phase i front = .fresh ∨ phase i front = .finished := by
  induction front using List.reverseRecOn with
  | nil => exact .inl rfl
  | append_singleton front call ih =>
      rw [phase_concat] at hs ⊢
      have hfront : phase i front ≠ .again := fun h => hs (by
        rw [h]
        exact Phase.foldl_again i [call])
      have ih := ih hfront fun row hmem => hrow row (List.mem_append_left _ hmem)
      cases hcall : isStep call with
      | false =>
          rw [Phase.next_of_not_isStep i _ hcall]
          exact ih
      | true =>
          cases call with
          | sqlite3_step j status row =>
              by_cases hj : j = i
              · subst hj
                rcases ih with ih | ih
                · have hne : status ≠ CSQLite3.SQLITE_ROW := fun h =>
                    hrow row (h ▸ List.mem_append_right _ (List.mem_singleton_self _))
                  rw [ih, Phase.next_fresh, if_neg hne]
                  split
                  · exact .inr rfl
                  · exact .inl rfl
                · rw [ih] at hs
                  exact absurd (by simp [Phase.next]) hs
              · rw [Phase.next_other hj]
                exact ih
          | sqlite3_reset j => exact ih
          | _ => cases hcall

/-- A finished statement that is stepped is one that is stepped again. -/
theorem Phase.foldl_finished (i : StatementID) (calls : List (SQLiteCall ρ)) :
    (∀ status row, .sqlite3_step i status row ∉ calls) ∨
      calls.foldl (Phase.next i) .finished = .again := by
  induction calls with
  | nil => exact .inl fun _ _ => List.not_mem_nil
  | cons call calls ih =>
      rw [List.foldl_cons]
      by_cases hcall : ∃ status row, call = .sqlite3_step i status row
      · obtain ⟨status, row, rfl⟩ := hcall
        refine .inr ?_
        rw [show Phase.next i .finished (.sqlite3_step i status row) = .again by simp [Phase.next]]
        exact Phase.foldl_again i calls
      · have hstay : Phase.next i .finished call = .finished := by
          cases call with
          | sqlite3_step j status row =>
              exact Phase.next_other (fun hj => hcall ⟨status, row, by rw [hj]⟩) _ _ _
          | _ => rfl
        rw [hstay]
        refine ih.imp_left fun h status row hmem => ?_
        rcases List.mem_cons.mp hmem with heq | hmem
        · exact hcall ⟨status, row, heq.symm⟩
        · exact h status row hmem

/-- No statement takes effect twice: once a step of a statement that never had a row was answered
with `SQLITE_DONE`, the statement is not stepped again, whatever methods are called in whatever
order and however often the database was busy before. -/
theorem done_stepped_once {versions : SQLiteVersions} {answers : List (SQLiteAnswer ρ)}
    {as : List (SQLiteAction ρ τ)} {p : SQLiteProcess ρ}
    (hrun : Transition.run step (start versions answers) as = .ok p)
    {front rest : List (SQLiteCall ρ)} {row : ρ}
    (hcalls : p.state.calls = front ++ .sqlite3_step i CSQLite3.SQLITE_DONE row :: rest)
    (hrow : ∀ row, .sqlite3_step i CSQLite3.SQLITE_ROW row ∉ front) :
    ∀ status row, .sqlite3_step i status row ∉ rest := by
  have hstart : Once (start versions answers).state := fun _ => .none
  have hs : Once p.state :=
    Transition.run_invariant (I := fun p => Once p.state) (fun _ _ _ => once_step) hstart hrun
  have hphase : phase i p.state.calls ≠ .again := fun h => by
    have hfits := hs i
    rw [h] at hfits
    cases hfits
  have hsplit : phase i p.state.calls = rest.foldl (Phase.next i)
      ((phase i front).next i (.sqlite3_step i CSQLite3.SQLITE_DONE row)) := by
    rw [hcalls, phase, List.foldl_append, List.foldl_cons]
    rfl
  rw [hsplit] at hphase
  have hfront : phase i front ≠ .again := fun h => hphase (by
    rw [h]
    exact Phase.foldl_again i (.sqlite3_step i CSQLite3.SQLITE_DONE row :: rest))
  rcases phase_of_no_row hfront hrow with h | h
  · rw [h, Phase.next_fresh, if_pos rfl] at hphase
    exact (Phase.foldl_finished i rest).resolve_right hphase
  · rw [h, show Phase.next i .finished (.sqlite3_step i CSQLite3.SQLITE_DONE row) = .again by
      simp [Phase.next]] at hphase
    exact absurd (Phase.foldl_again i rest) hphase

/-- An `INSERT` that was busy once, and is executed again by its program. -/
theorem done_stepped_once_insert : ∃ p : SQLiteProcess Unit,
    p.state.calls.length = 11 ∧
      ∀ status row, .sqlite3_step ⟨0, 0⟩ status row ∉ p.state.calls.drop 9 := by
  let answer (status : Int) : SQLiteAnswer Unit := ⟨status, true, none, ()⟩
  let begun := start ⟨[], [], [], [], 0, 0⟩
    [answer 0, answer 0, answer 0, answer 0, answer 0, answer 0, answer 5, answer 1, answer 101,
      answer 0]
  let as : List (SQLiteAction Unit Unit) :=
    [.connection 0, .prepare 0 [], .executeStatement ⟨0, 0⟩, .executeStatement ⟨0, 0⟩, .close 0 0]
  let front : List (SQLiteCall Unit) :=
    [.fileManager "url", .fileManager "fileExists", .fileManager "fileExists",
      .fileManager "fileExists", .sqlite3_open 0 0 true, .sqlite3_prepare_v2 ⟨0, 0⟩ [] 0 true,
      .sqlite3_step ⟨0, 0⟩ 5 (), .sqlite3_get_autocommit 0]
  obtain ⟨p, hrun, hp⟩ := exists_ok_of_any (x := Transition.run step begun as)
    (p := fun p => decide (p.state.calls = front ++ .sqlite3_step ⟨0, 0⟩ 101 () ::
      [.sqlite3_finalize ⟨0, 0⟩, .sqlite3_close 0 0]))
    (by decide +kernel)
  have hcalls := of_decide_eq_true hp
  have hrow : ∀ row, .sqlite3_step ⟨0, 0⟩ CSQLite3.SQLITE_ROW row ∉ front := by
    intro row
    cases row
    decide
  exact ⟨p, by rw [hcalls]; rfl, by
    rw [hcalls]
    exact done_stepped_once hrun hcalls hrow⟩

end SQLite

end MultisigWallet
