import MultisigWallet.SQLiteRows

/-!
# MultisigWallet.SQLiteResults

What `Database.execute` returns. Executing a statement that has rows steps onto the first of them,
and the result set resets the statement before it goes through them again, so the steps have to be
read with the resets: `cursor` is what SQLite has gone through since the last one. The values that
are returned are those of the rows of the cursor, and the cursor came to its end.
-/

namespace MultisigWallet

namespace SQLite

variable {ρ τ : Type} {s t u : SQLiteState ρ} {sql : Str} {i : StatementID} {call : SQLiteCall ρ}

/-! ### Cursors -/

/-- Where a statement stands. -/
structure Cursor (ρ : Type) where
  /-- The rows since the statement was reset. -/
  rows : List ρ
  /-- There are no more. -/
  isDone : Bool

def Cursor.next (i : StatementID) (cursor : Cursor ρ) : SQLiteCall ρ → Cursor ρ
  | .sqlite3_step j status row =>
      if j ≠ i then cursor
      else if status = CSQLite3.SQLITE_DONE then ⟨cursor.rows, true⟩
      else if status = CSQLite3.SQLITE_ROW then ⟨cursor.rows ++ [row], false⟩
      else cursor
  | .sqlite3_reset j => if j ≠ i then cursor else ⟨[], false⟩
  | _ => cursor

def cursor (i : StatementID) (calls : List (SQLiteCall ρ)) : Cursor ρ :=
  calls.foldl (Cursor.next i) ⟨[], false⟩

/-- After the rows of a cursor, with the row a result set moves to. -/
def Cursor.moved (rows : List ρ) : Option ρ → Cursor ρ
  | none => ⟨rows, true⟩
  | some row => ⟨rows ++ [row], false⟩

theorem Cursor.next_done (cursor : Cursor ρ) (row : ρ) :
    cursor.next i (.sqlite3_step i CSQLite3.SQLITE_DONE row) = ⟨cursor.rows, true⟩ := by
  simp [Cursor.next]

theorem Cursor.next_row (cursor : Cursor ρ) (row : ρ) :
    cursor.next i (.sqlite3_step i CSQLite3.SQLITE_ROW row) = ⟨cursor.rows ++ [row], false⟩ := by
  simp [Cursor.next, CSQLite3.SQLITE_ROW, CSQLite3.SQLITE_DONE]

theorem Cursor.next_other {status : Int} (cursor : Cursor ρ) (row : ρ)
    (hdone : status ≠ CSQLite3.SQLITE_DONE) (hrow : status ≠ CSQLite3.SQLITE_ROW) :
    cursor.next i (.sqlite3_step i status row) = cursor := by
  simp [Cursor.next, hdone, hrow]

theorem Cursor.next_reset (cursor : Cursor ρ) :
    cursor.next i (.sqlite3_reset i) = ⟨[], false⟩ := by
  simp [Cursor.next]

theorem cursor_append_of_no_steps {calls more : List (SQLiteCall ρ)} (hmore : steps more = []) :
    cursor i (calls ++ more) = cursor i calls := by
  have hnext : ∀ (k : Cursor ρ) call, isStep call = false → k.next i call = k := by
    intro k call hcall
    cases call <;> first | rfl | cases hcall
  rw [cursor, ← foldl_steps hnext, steps_append, hmore, List.append_nil, foldl_steps hnext]
  rfl

/-- Since `s` the statement `i` was prepared for a text, and its cursor went to `k`. -/
def Reads (s : SQLiteState ρ) (sql : Str) (i : StatementID) (k : Cursor ρ) (t : SQLiteState ρ) :
    Prop :=
  ∃ more, t.calls = s.calls ++ more ∧
    .sqlite3_prepare_v2 i sql CSQLite3.SQLITE_OK true ∈ more ∧ cursor i more = k

theorem Reads.quiet {k : Cursor ρ} (h : Reads s sql i k t) (hq : Quiet t u) :
    Reads s sql i k u := by
  obtain ⟨more, hmore, hprepared, hk⟩ := h
  obtain ⟨more', hmore', hnone⟩ := hq.calls
  refine ⟨more ++ more', by rw [hmore', hmore, List.append_assoc],
    List.mem_append_left _ hprepared, ?_⟩
  rw [cursor_append_of_no_steps hnone, hk]

theorem Reads.asked {k : Cursor ρ} (h : Reads s sql i k t) (ha : Asked t call u) :
    Reads s sql i (k.next i call) u := by
  obtain ⟨more, hmore, hprepared, hk⟩ := h
  refine ⟨more ++ [call], by rw [ha.calls, hmore, List.append_assoc],
    List.mem_append_left _ hprepared, ?_⟩
  rw [cursor, List.foldl_append, ← cursor, hk]
  rfl

/-- Nothing is said of a computation that throws or halts. -/
abbrev Returns {α : Type} (m : SQLite ρ α) (s : SQLiteState ρ) (Q : α → SQLiteState ρ → Prop) :
    Prop :=
  Throwing.Does m s Q (fun _ _ => True) (fun _ _ => True)

theorem returns_of_quiet {α : Type} {m : SQLite ρ α} {k : Cursor ρ}
    (hm : Throwing.Keeps (Quiet t) (Quiet t) m) (h : Reads s sql i k t) :
    Returns m t fun _ => Reads s sql i k :=
  (hm t (Quiet.refl t)).weaken (fun _ _ hq => h.quiet hq) (fun _ _ _ => trivial)
    (fun _ _ _ => trivial)

theorem returns_of_quietly {α : Type} {m : SQLite ρ α} (hm : Throwing.Keeps (Quiet s) (Quiet s) m)
    (h : Quiet s t) : Returns m t fun _ => Quiet s :=
  (hm t h).weaken (fun _ _ hq => hq) (fun _ _ _ => trivial) (fun _ _ _ => trivial)

theorem modifyStatement_reads {k : Cursor ρ} (f : SQLiteStatement → SQLiteStatement)
    (h : Reads s sql i k t) : Returns (modifyStatement i f) t fun _ => Reads s sql i k :=
  .modify h

/-! ### The loops -/

/-- A result set starts at the first row again. -/
theorem makeResultSet_reads {k : Cursor ρ} (h : Reads s sql i k t) :
    Returns (makeResultSet i) t fun _ => Reads s sql i ⟨[], false⟩ := by
  have hreset : ∀ n k t, Reads s sql i k t →
      Returns (resetLoop i n) t fun _ => Reads s sql i ⟨[], false⟩ := by
    intro n
    induction n with
    | zero => exact fun _ _ _ => .halt trivial
    | succ n ih =>
        intro k t ht
        refine Throwing.Does.bind (ask_does (Q := fun _ => Reads s sql i ⟨[], false⟩)
          (fun a u ha => Cursor.next_reset k ▸ ht.asked ha) trivial) fun a u hu => ?_
        split
        · exact ih _ u hu
        · split
          · exact Throwing.Does.bind (returns_of_quiet (quiet_errorMessage _ _) hu)
              fun _ _ _ => .halt trivial
          · exact .pure hu
  refine Throwing.Does.bind (fuel_does h) fun n u hu =>
    Throwing.Does.bind (hreset n k u hu) fun _ v hv => ?_
  refine Throwing.Does.bind (returns_of_quiet (quiet_tell rfl) hv) fun _ w hw => ?_
  exact modifyStatement_reads _ hw

theorem executeStatementLoop_reads (n : Nat) (h : Reads s sql i ⟨[], false⟩ t) :
    Returns (executeStatementLoop i n) t fun rows => Reads s sql i ⟨[], !rows⟩ := by
  induction n generalizing t with
  | zero => exact .halt trivial
  | succ n ih =>
      refine Throwing.Does.bind (returns_of_quiet (keepsAll_statementObject i) h) fun o u hu => ?_
      refine Throwing.Does.bind (returns_of_quiet (.check _ _) hu) fun _ v hv => ?_
      refine Throwing.Does.bind (returns_of_quiet (.check _ _) hv) fun _ w hw => ?_
      refine Throwing.Does.bind (ask_does (Q := fun a => Reads s sql i
        (Cursor.next i ⟨[], false⟩ (.sqlite3_step i a.status a.row)))
        (fun a x ha => hw.asked ha) trivial) fun a x hx => ?_
      split
      · next hdone =>
          rw [hdone, Cursor.next_done] at hx
          exact Throwing.Does.bind (modifyStatement_reads _ hx) fun _ _ hy => .pure hy
      · next hdone =>
          split
          · refine Throwing.Does.bind (modifyStatement_reads _ hx) fun _ y hy => ?_
            exact Throwing.Does.bind (makeResultSet_reads hy) fun _ _ hz => .pure hz
          · next hrow =>
              rw [Cursor.next_other _ _ hdone hrow] at hx
              split
              · refine Throwing.Does.bind (returns_of_quiet (quiet_ask fun _ => rfl) hx)
                  fun _ y hy => ?_
                dsimp only
                split
                · exact ih hy
                · exact .fail trivial
              · split
                · exact Throwing.Does.bind (returns_of_quiet (quiet_ask fun _ => rfl) hx)
                    fun _ _ _ => .fail trivial
                · split
                  · exact .fail trivial
                  · exact Throwing.Does.bind (returns_of_quiet (quiet_errorMessage _ _) hx)
                      fun _ _ _ => .halt trivial

theorem advanceLoop_reads (n : Nat) {rows : List ρ} (h : Reads s sql i ⟨rows, false⟩ t) :
    Returns (advanceLoop i n) t fun row => Reads s sql i (Cursor.moved rows row) := by
  induction n generalizing t with
  | zero => exact .halt trivial
  | succ n ih =>
      refine Throwing.Does.bind (ask_does (Q := fun a => Reads s sql i
        (Cursor.next i ⟨rows, false⟩ (.sqlite3_step i a.status a.row)))
        (fun a u ha => h.asked ha) trivial) fun a u hu => ?_
      split
      · next hdone =>
          rw [hdone, Cursor.next_done] at hu
          exact .pure hu
      · next hdone =>
          split
          · next hrow =>
              rw [hrow, Cursor.next_row] at hu
              exact .pure hu
          · next hrow =>
              rw [Cursor.next_other _ _ hdone hrow] at hu
              split
              · refine Throwing.Does.bind (returns_of_quiet (quiet_ask fun _ => rfl) hu)
                  fun _ v hv => ?_
                split
                · exact ih hv
                · exact .fail trivial
              · exact Throwing.Does.bind (returns_of_quiet (quiet_errorMessage _ _) hu)
                  fun _ _ _ => .halt trivial

/-- The rows from the cursor on. The induction is on the fuel, with the rows read before. -/
theorem rowLoop_reads (resultMap : ρ → Except Str (Option τ)) (n : Nat) {rows : List ρ}
    (h : Reads s sql i ⟨rows, false⟩ t) :
    Returns (rowLoop i resultMap n) t fun values u =>
      ∃ news, Reads s sql i ⟨rows ++ news, true⟩ u ∧ news.mapM resultMap = .ok values := by
  induction n generalizing rows t with
  | zero => exact .halt trivial
  | succ n ih =>
      refine Throwing.Does.bind (Throwing.Does.bind (fuel_does h) fun n u hu =>
        advanceLoop_reads n hu) fun row v hv => ?_
      cases row with
      | none => exact .pure ⟨[], by rw [List.append_nil]; exact hv, rfl⟩
      | some row =>
          refine Throwing.Does.bind (returns_of_quiet (quiet_tell rfl) hv) fun _ w hw => ?_
          cases hmap : resultMap row with
          | error e => exact .fail trivial
          | ok value =>
              refine Throwing.Does.bind (ih hw) fun values x hx => ?_
              obtain ⟨news, hnews, hvalues⟩ := hx
              refine .pure ⟨row :: news, ?_, ?_⟩
              · rw [← List.append_cons] at hnews
                exact hnews
              · rw [List.mapM_cons, hmap, hvalues]
                rfl

/-! ### `execute` -/

/-- A statement that is prepared was not stepped yet. -/
theorem prepare_reads (c : Nat) (sql : Str) (h : Quiet s t) :
    Returns (prepare c sql) t fun i => Reads s sql i ⟨[], false⟩ := by
  refine Throwing.Does.bind (returns_of_quietly (quiet_assertOpened c) h) fun _ u hu => ?_
  refine Throwing.Does.bind (returns_of_quietly (keepsAll_object c) hu) fun o v hv => ?_
  -- The last call of the loop is the one that is answered.
  have hloop : Returns (waitWhileBusy (ask fun a =>
      .sqlite3_prepare_v2 ⟨c, o.statements.length⟩ sql a.status a.handle)) v fun a w =>
        ∃ x, Quiet s x ∧
          Asked x (.sqlite3_prepare_v2 ⟨c, o.statements.length⟩ sql a.status a.handle) w :=
    waitWhileBusy_does (I := Quiet s) (fun w hw => ask_does (fun a x ha => ⟨fun _ =>
      hw.asked ha rfl, fun _ => ⟨w, hw, ha⟩⟩) trivial) (fun _ _ => trivial) hv
  refine Throwing.Does.bind hloop fun a w hw => ?_
  split
  · refine Throwing.Does.bind (M := fun _ _ => True) ?_ fun _ _ _ => .fail trivial
    exact (quiet_errorMessage c _ w (Quiet.refl w)).weaken (fun _ _ _ => trivial)
      (fun _ _ _ => trivial) (fun _ _ _ => trivial)
  · next hstatus =>
      obtain ⟨x, hx, ha⟩ := hw
      obtain ⟨more, hmore, hnone⟩ := hx.calls
      refine Throwing.Does.bind (M := fun _ y => y = w ∧ a.handle = true)
        (.check (fun hhandle => ⟨rfl, hhandle⟩) fun _ => trivial) fun _ y hy => ?_
      obtain ⟨rfl, hhandle⟩ := hy
      rw [hhandle, not_not.mp hstatus] at ha
      have hreads : Reads s sql ⟨c, o.statements.length⟩ ⟨[], false⟩ y := by
        refine ⟨more ++ [_], by rw [ha.calls, hmore, List.append_assoc],
          List.mem_append_right _ (List.mem_singleton_self _), ?_⟩
        rw [cursor_append_of_no_steps rfl, ← List.nil_append more, cursor_append_of_no_steps hnone]
        rfl
      exact Throwing.Does.bind (.modify hreads) fun _ _ hz => .pure hz

theorem executeOn_reads (c : Nat) (sql : Str) (bindings : List (Option SQLBindable))
    (dict : List (Str × Option SQLBindable)) (resultMap : ρ → Except Str (Option τ))
    (h : Quiet s t) :
    Returns (executeOn c sql bindings dict resultMap) t fun values u => ∃ i rows,
      Reads s sql i ⟨rows, true⟩ u ∧ rows.mapM resultMap = .ok values := by
  refine Throwing.Does.bind (prepare_reads c sql h) fun i u hu => ?_
  refine Throwing.Does.bind (returns_of_quiet (.each fun _ _ => quiet_set i _ _) hu)
    fun _ v hv => ?_
  refine Throwing.Does.bind (returns_of_quiet (.each fun _ _ => quiet_setForKey i _ _) hv)
    fun _ w hw => ?_
  refine Throwing.Does.bind (Throwing.Does.bind (fuel_does hw) fun n x hx =>
    executeStatementLoop_reads n hx) fun rows y hy => ?_
  cases rows with
  | false => exact .pure ⟨i, [], hy, rfl⟩
  | true =>
      refine (Throwing.Does.bind (fuel_does hy) fun n z hz => rowLoop_reads resultMap n hz).weaken
        (fun values z hz => ?_) (fun _ _ h => h) (fun _ _ h => h)
      obtain ⟨news, hnews, hvalues⟩ := hz
      exact ⟨i, news, hnews, hvalues⟩

/-- What `Database.execute` returns are the values of the rows SQLite went through since the
statement was reset, each once and in order, and SQLite had no more. It does not matter how often
the database was busy in between, or that the first row was stepped onto before the reset. -/
theorem execute_maps_rows (thread : Nat) (sql : Str) (bindings : List (Option SQLBindable))
    (dict : List (Str × Option SQLBindable)) (resultMap : ρ → Except Str (Option τ))
    (s : SQLiteState ρ) :
    Returns (execute thread sql bindings dict resultMap) s fun values t => ∃ i more rows,
      t.calls = s.calls ++ more ∧ .sqlite3_prepare_v2 i sql CSQLite3.SQLITE_OK true ∈ more ∧
        cursor i more = ⟨rows, true⟩ ∧ rows.mapM resultMap = .ok values := by
  have hconnection := (quiet_connection (s := s) thread s (Quiet.refl s)).weaken
    (F := fun _ _ => True) (K := fun _ _ => True) (fun _ _ h => h) (fun _ _ _ => trivial)
    (fun _ _ _ => trivial)
  refine Throwing.Does.bind hconnection fun c t ht => ?_
  refine Throwing.Does.deferring (executeOn_reads c sql bindings dict resultMap ht)
    (fun values u hu => ?_) (fun _ u _ => ?_)
  · obtain ⟨i, rows, hreads, hvalues⟩ := hu
    refine (returns_of_quiet (quiet_close thread c).attempt hreads).weaken (fun _ v hv => ?_)
      (fun _ _ h => h) (fun _ _ h => h)
    obtain ⟨more, hmore, hprepared, hcursor⟩ := hv
    exact ⟨i, more, rows, hmore, hprepared, hcursor, hvalues⟩
  · exact ((quiet_close thread c).attempt u (Quiet.refl u)).weaken (fun _ _ _ => trivial)
      (fun _ _ _ => trivial) (fun _ _ _ => trivial)

end SQLite

end MultisigWallet
