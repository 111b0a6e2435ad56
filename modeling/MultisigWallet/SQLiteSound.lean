import Mathlib.Data.List.Induction
import MultisigWallet.SQLite

/-!
# MultisigWallet.SQLiteSound

What the classes over SQLite do with its handles. The record of the calls is read as a record of
handle events, and `Recorded` ties it to the flags of the objects: a connection handle is live
while its object is open and not closed, a statement handle while its object is not finalised.

The code keeps this as long as `sqlite3_close` does what it is documented to do, once every
statement is finalised: succeed, or be busy and be asked again (`CloseAnswered`).
-/

namespace MultisigWallet

/-! ### Handle events -/

inductive SQLiteHandle
  | connection (connection : Nat)
  | statement (statement : StatementID)
  deriving DecidableEq, Repr

/-- A statement handle is part of the connection it was prepared on. -/
def SQLiteHandle.within : SQLiteHandle → SQLiteHandle → Bool
  | .statement i, .connection c => i.connection = c
  | _, _ => false

open Handles (Event) in
/-- What a call does to the handles. -/
def SQLiteCall.events {ρ : Type} : SQLiteCall ρ → List (Event SQLiteHandle)
  | .sqlite3_open c status handle =>
      if status = CSQLite3.SQLITE_OK ∧ handle = true then [.acquire (.connection c)] else []
  | .sqlite3_prepare_v2 i _ status handle =>
      .use (.connection i.connection) ::
        if status = CSQLite3.SQLITE_OK ∧ handle = true then [.acquire (.statement i)] else []
  | .sqlite3_bind i _ _ => [.use (.statement i)]
  | .sqlite3_bind_parameter_index i _ => [.use (.statement i)]
  | .sqlite3_step i _ _ => [.use (.statement i)]
  | .sqlite3_reset i => [.use (.statement i)]
  | .sqlite3_column i => [.use (.statement i)]
  | .sqlite3_finalize i => [.release (.statement i)]
  | .sqlite3_get_autocommit c => [.use (.connection c)]
  | .sqlite3_errmsg c => [.use (.connection c)]
  | .sqlite3_errstr _ => []
  | .sqlite3_close c status =>
      if status = CSQLite3.SQLITE_OK then [.release (.connection c)] else [.use (.connection c)]
  | .fileManager _ => []

namespace SQLite

variable {ρ τ : Type}

def events (calls : List (SQLiteCall ρ)) : List (Handles.Event SQLiteHandle) :=
  calls.flatMap SQLiteCall.events

/-- The handles are used as SQLite allows. -/
def UsedLegally (calls : List (SQLiteCall ρ)) : Prop :=
  Handles.Legal SQLiteHandle.within (events calls)

/-- `sqlite3_close` succeeds or is busy. -/
def closeAnswered : SQLiteCall ρ → Bool
  | .sqlite3_close _ status => status = CSQLite3.SQLITE_OK || status = CSQLite3.SQLITE_BUSY
  | _ => true

def CloseAnswered (calls : List (SQLiteCall ρ)) : Prop :=
  ∀ call ∈ calls, closeAnswered call = true

instance CloseAnswered.decidable (calls : List (SQLiteCall ρ)) : Decidable (CloseAnswered calls) :=
  inferInstanceAs (Decidable (∀ call ∈ calls, closeAnswered call = true))

/-- What of a connection object the handles depend on. -/
structure Flags where
  isOpened : Bool
  isClosed : Bool
  /-- `isFinalized` of its statements. -/
  finalized : List Bool
  deriving DecidableEq, Repr

attribute [ext] Flags

def flags (o : SQLiteConnection) : Flags :=
  ⟨o.isOpened, o.isClosed, o.statements.map (·.isFinalized)⟩

/-- The objects say that a handle is live. -/
def IsLive (objects : List Flags) : SQLiteHandle → Prop
  | .connection c => ∃ o, objects[c]? = some o ∧ o.isOpened = true ∧ o.isClosed = false
  | .statement i => ∃ o, objects[i.connection]? = some o ∧ o.finalized[i.index]? = some false

/-- The objects say that a handle was released. -/
def IsReleased (objects : List Flags) : SQLiteHandle → Prop
  | .connection c => ∃ o, objects[c]? = some o ∧ o.isClosed = true
  | .statement i => ∃ o, objects[i.connection]? = some o ∧ o.finalized[i.index]? = some true

/-- The record is legal, and the objects say what is live after it. -/
def Recorded (objects : List Flags) (calls : List (SQLiteCall ρ)) : Prop :=
  ∃ l, Transition.run (Handles.step SQLiteHandle.within) {} (events calls) = .ok l ∧
    (∀ h, h ∈ l.live ↔ IsLive objects h) ∧ ∀ h ∈ l.released, IsReleased objects h

/-- Statements are finalised when their connection is closed, all of them and not sooner. -/
def Tidy (o : Flags) : Prop :=
  (∀ b ∈ o.finalized, b = o.isClosed) ∧
    (o.isOpened = false → o.finalized = [] ∧ o.isClosed = false)

def views (s : SQLiteState ρ) : List Flags := s.objects.map flags

/-- The invariant between two operations. -/
def Sound (s : SQLiteState ρ) : Prop :=
  CloseAnswered s.calls → (∀ o ∈ views s, Tidy o) ∧ Recorded (views s) s.calls

/-- What is left of it where a computation halts. -/
def Legal (s : SQLiteState ρ) : Prop := CloseAnswered s.calls → UsedLegally s.calls

variable {objects objects' : List Flags} {calls more : List (SQLiteCall ρ)}
  {call : SQLiteCall ρ} {s t : SQLiteState ρ} {c : Nat} {i : StatementID} {h : SQLiteHandle}

theorem CloseAnswered.left (hc : CloseAnswered (calls ++ more)) : CloseAnswered calls :=
  fun call hmem => hc call (List.mem_append_left _ hmem)

theorem Recorded.legal (hr : Recorded objects calls) : UsedLegally calls := by
  obtain ⟨l, hl, -⟩ := hr
  exact ⟨l, hl⟩

theorem Sound.legal (hs : Sound s) : Legal s := fun hc => (hs hc).2.legal

/-! ### The record grows -/

theorem events_concat (calls : List (SQLiteCall ρ)) (call : SQLiteCall ρ) :
    events (calls ++ [call]) = events calls ++ call.events := by
  simp [events]

/-- A call that has nothing to do with a handle. -/
theorem Recorded.skip (hr : Recorded objects calls) (hcall : call.events = []) :
    Recorded objects (calls ++ [call]) := by
  unfold Recorded
  rw [events_concat, hcall, List.append_nil]
  exact hr

theorem Recorded.use (hr : Recorded objects calls) (hcall : call.events = [.use h])
    (hlive : IsLive objects h) : Recorded objects (calls ++ [call]) := by
  obtain ⟨l, hl, hmem, hreleased⟩ := hr
  refine ⟨l, ?_, hmem, hreleased⟩
  rw [events_concat, hcall]
  exact Transition.run_append_ok.mpr ⟨l, hl, Transition.run_cons_ok.mpr
    ⟨l, Handles.step_use_ok.mpr ⟨(hmem h).mpr hlive, rfl⟩, rfl⟩⟩

theorem Recorded.acquire {u : List (Handles.Event SQLiteHandle)} (hr : Recorded objects calls)
    (hcall : call.events = u ++ [.acquire h])
    (hbefore : ∀ e ∈ u, ∃ k, e = .use k ∧ IsLive objects k)
    (hlive : ¬ IsLive objects h) (hreleased : ¬ IsReleased objects h)
    (hlive' : ∀ k, IsLive objects' k ↔ IsLive objects k ∨ k = h)
    (hreleased' : ∀ k, IsReleased objects k → IsReleased objects' k) :
    Recorded objects' (calls ++ [call]) := by
  obtain ⟨l, hl, hmem, hrel⟩ := hr
  have hrun : Transition.run (Handles.step SQLiteHandle.within) l u = .ok l := by
    clear hcall
    induction u with
    | nil => rfl
    | cons e u ih =>
        obtain ⟨⟨k, rfl, hk⟩, hrest⟩ := List.forall_mem_cons.mp hbefore
        exact Transition.run_cons_ok.mpr
          ⟨l, Handles.step_use_ok.mpr ⟨(hmem k).mpr hk, rfl⟩, ih hrest⟩
  refine ⟨{ l with live := l.live ++ [h] }, ?_, fun k => ?_, fun k hk => hreleased' k (hrel k hk)⟩
  · rw [events_concat, hcall]
    refine Transition.run_append_ok.mpr ⟨l, hl, Transition.run_append_ok.mpr ⟨l, hrun, ?_⟩⟩
    exact Transition.run_cons_ok.mpr ⟨_, Handles.step_acquire_ok.mpr
      ⟨fun hin => hlive ((hmem h).mp hin), fun hin => hreleased (hrel h hin), rfl⟩, rfl⟩
  · rw [List.mem_append, List.mem_singleton, hmem k, hlive' k]

theorem Recorded.release (hr : Recorded objects calls) (hcall : call.events = [.release h])
    (hlive : IsLive objects h) (hparts : ∀ k, IsLive objects k → k.within h = false)
    (hlive' : ∀ k, IsLive objects' k ↔ IsLive objects k ∧ k ≠ h)
    (hreleased' : ∀ k, IsReleased objects k ∨ k = h → IsReleased objects' k) :
    Recorded objects' (calls ++ [call]) := by
  obtain ⟨l, hl, hmem, hrel⟩ := hr
  refine ⟨⟨l.live.filter (· ≠ h), l.released ++ [h]⟩, ?_, fun k => ?_, fun k hk => ?_⟩
  · rw [events_concat, hcall]
    exact Transition.run_append_ok.mpr ⟨l, hl, Transition.run_cons_ok.mpr
      ⟨_, Handles.step_release_ok.mpr ⟨(hmem h).mpr hlive,
        fun k hk => hparts k ((hmem k).mp hk), rfl⟩, rfl⟩⟩
  · rw [List.mem_filter, hmem k, hlive' k, decide_eq_true_eq]
  · rcases List.mem_append.mp hk with hk | hk
    · exact hreleased' k (.inl (hrel k hk))
    · exact hreleased' k (.inr (List.mem_singleton.mp hk))

/-! ### The elementary computations -/

/-- A call was made, and nothing else. -/
structure Asked (s : SQLiteState ρ) (call : SQLiteCall ρ) (t : SQLiteState ρ) : Prop where
  objects : t.objects = s.objects
  connections : t.connections = s.connections
  calls : t.calls = s.calls ++ [call]

section

variable {α : Type} {Q : α → SQLiteState ρ → Prop} {E : SQLiteError → SQLiteState ρ → Prop}
  {H : SQLiteHalt → SQLiteState ρ → Prop}

theorem ask_does {mk : SQLiteAnswer ρ → SQLiteCall ρ} {Q : SQLiteAnswer ρ → SQLiteState ρ → Prop}
    (hpost : ∀ a t, Asked s (mk a) t → Q a t) (hstop : H .waiting s) :
    Throwing.Does (ask mk) s Q E H := by
  cases ha : s.answers with
  | nil => exact .of_halted (by rw [ask, ha]) hstop
  | cons a answers =>
      have hask : ask mk s =
          (.returned a, { s with answers := answers, calls := s.calls ++ [mk a] }) := by
        rw [ask, ha]
      exact .of_returned hask (hpost a _ ⟨rfl, rfl, rfl⟩)

theorem object_does {Q : SQLiteConnection → SQLiteState ρ → Prop}
    (hpost : ∀ o, s.objects[c]? = some o → Q o s) (hstop : H (.trap .indexOutOfRange) s) :
    Throwing.Does (object c) s Q E H := by
  cases ho : s.objects[c]? with
  | none => exact .of_halted (by rw [object, ho]) hstop
  | some o => exact .of_returned (by rw [object, ho]) (hpost o ho)

theorem statementObject_does {Q : SQLiteStatement → SQLiteState ρ → Prop}
    (hpost : ∀ o t, s.objects[i.connection]? = some o → o.statements[i.index]? = some t → Q t s)
    (hstop : H (.trap .indexOutOfRange) s) :
    Throwing.Does (statementObject i) s Q E H := by
  refine Throwing.Does.bind (object_does (Q := fun o u => s.objects[i.connection]? = some o ∧ u = s)
    (fun o ho => ⟨ho, rfl⟩) hstop) ?_
  rintro o u ⟨ho, rfl⟩
  cases ht : o.statements[i.index]? with
  | none => exact .halt hstop
  | some t => exact .pure (hpost o t ho ht)

end

/-! ### Where the flags stay as they are -/

/-- The invariant, with the flags at hand. -/
def At (objects : List Flags) (s : SQLiteState ρ) : Prop := Sound s ∧ views s = objects

theorem Sound.at (hs : Sound s) : At (views s) s := ⟨hs, rfl⟩

theorem At.legal (hs : At objects s) : Legal s := hs.1.legal

theorem Asked.views (ha : Asked s call t) : views t = views s := by
  rw [SQLite.views, ha.objects]
  rfl

theorem At.skip (hs : At objects s) (ha : Asked s call t) (hcall : call.events = []) :
    At objects t := by
  refine ⟨fun hc => ?_, ha.views.trans hs.2⟩
  rw [ha.calls] at hc ⊢
  rw [ha.views]
  obtain ⟨htidy, hrecorded⟩ := hs.1 hc.left
  exact ⟨htidy, hrecorded.skip hcall⟩

theorem At.use (hs : At objects s) (ha : Asked s call t) (hcall : call.events = [.use h])
    (hlive : CloseAnswered s.calls → IsLive objects h) : At objects t := by
  refine ⟨fun hc => ?_, ha.views.trans hs.2⟩
  rw [ha.calls] at hc ⊢
  rw [ha.views]
  obtain ⟨htidy, hrecorded⟩ := hs.1 hc.left
  refine ⟨htidy, hrecorded.use hcall ?_⟩
  rw [hs.2]
  exact hlive hc.left

/-- The pointer of a connection can be used. -/
def Usable (ρ : Type) (objects : List Flags) (c : Nat) : Prop :=
  ∀ s : SQLiteState ρ, At objects s → CloseAnswered s.calls → IsLive objects (.connection c)

/-- A statement that can be used belongs to a connection that can be used. -/
theorem usable_of_liveStatement (hlive : IsLive objects (.statement i)) :
    Usable ρ objects i.connection := by
  intro s hs hc
  obtain ⟨o, ho, hfinalized⟩ := hlive
  have htidy : Tidy o := (hs.1 hc).1 o (hs.2 ▸ List.mem_of_getElem? ho)
  refine ⟨o, ho, ?_, (htidy.1 false (List.mem_of_getElem? hfinalized)).symm⟩
  cases hopened : o.isOpened with
  | true => rfl
  | false =>
      rw [(htidy.2 hopened).1] at hfinalized
      cases hfinalized

theorem usable_of_live (hlive : IsLive objects (.connection c)) : Usable ρ objects c :=
  fun _ _ _ => hlive

theorem keeps_skip {mk : SQLiteAnswer ρ → SQLiteCall ρ} (hmk : ∀ a, (mk a).events = []) :
    Throwing.Keeps (At objects) Legal (ask mk) :=
  fun _ hs => ask_does (fun a _ ha => hs.skip ha (hmk a)) hs.legal

theorem keeps_useStatement {mk : SQLiteAnswer ρ → SQLiteCall ρ}
    (hmk : ∀ a, (mk a).events = [.use (.statement i)]) (hlive : IsLive objects (.statement i)) :
    Throwing.Keeps (At objects) Legal (ask mk) :=
  fun _ hs => ask_does (fun a _ ha => hs.use ha (hmk a) fun _ => hlive) hs.legal

theorem keeps_useConnection {mk : SQLiteAnswer ρ → SQLiteCall ρ}
    (hmk : ∀ a, (mk a).events = [.use (.connection c)]) (husable : Usable ρ objects c) :
    Throwing.Keeps (At objects) Legal (ask mk) :=
  fun s hs => ask_does (fun a _ ha => hs.use ha (hmk a) (husable s hs)) hs.legal

theorem fuel_does {I : SQLiteState ρ → Prop} {E : SQLiteError → SQLiteState ρ → Prop}
    {H : SQLiteHalt → SQLiteState ρ → Prop} (hs : I s) :
    Throwing.Does (fuel : SQLite ρ Nat) s (fun _ => I) E H :=
  .of_returned rfl hs

theorem keeps_fuel {I J : SQLiteState ρ → Prop} : Throwing.Keeps I J (fuel : SQLite ρ Nat) :=
  fun _ hs => fuel_does hs

theorem keeps_errstr (status : Int) :
    Throwing.Keeps (At objects) Legal (errstr status : SQLite ρ Str) :=
  (keeps_skip fun _ => rfl).bind fun _ => .pure _

theorem keeps_errorMessage (husable : Usable ρ objects c) (status : Int) :
    Throwing.Keeps (At objects) Legal (errorMessage (ρ := ρ) c status) := by
  refine (keeps_useConnection (fun _ => rfl) husable).bind fun a => ?_
  cases a.message with
  | some message => exact .pure message
  | none => exact keeps_errstr status

theorem keeps_assertBindSuccess (husable : Usable ρ objects i.connection) (status : Int) :
    Throwing.Keeps (At objects) Legal (assertBindSuccess (ρ := ρ) i status) := by
  refine (Throwing.Keeps.check _ _).bind fun _ => .ite ?_ (.pure _)
  exact (keeps_errorMessage husable status).bind fun _ => .fail _

/-- Whoever gets past `assertCanBind` has a statement that is not finalised. -/
theorem assertCanBind_does (hs : At objects s) :
    Throwing.Does (assertCanBind i) s
      (fun _ t => At objects t ∧ IsLive objects (.statement i))
      (fun _ => At objects) (fun _ => Legal) := by
  refine Throwing.Does.bind (statementObject_does
    (Q := fun t u => u = s ∧ ∃ o, (views s)[i.connection]? = some o ∧
      o.finalized[i.index]? = some t.isFinalized)
      (fun o t ho ht => ⟨rfl, flags o, ?_, ?_⟩) hs.legal) ?_
  · rw [views, List.getElem?_map, ho]
    rfl
  · rw [flags, List.getElem?_map, ht]
    rfl
  · rintro t u ⟨rfl, o, ho, hfinalized⟩
    refine Throwing.Does.bind ((Throwing.Keeps.check (J := Legal) _ _) u hs) fun _ w hw => ?_
    refine .check (fun hnot => ⟨hw, o, hs.2 ▸ ho, ?_⟩) fun _ => hw
    simpa [hfinalized] using hnot

theorem keeps_set (value : SQLValue) (index : Int) :
    Throwing.Keeps (At objects) Legal (set (ρ := ρ) i value index) := by
  intro s hs
  refine (assertCanBind_does hs).bind ?_
  rintro - t ⟨ht, hlive⟩
  exact (((keeps_useStatement (fun _ => rfl) hlive).bind fun a =>
    keeps_assertBindSuccess (usable_of_liveStatement hlive) a.status) t ht)

theorem keeps_setForKey (hlive : IsLive objects (.statement i)) (value : SQLValue) (key : Str) :
    Throwing.Keeps (At objects) Legal (setForKey (ρ := ρ) i value key) :=
  (keeps_useStatement (fun _ => rfl) hlive).bind fun a => keeps_set value a.status

/-- Only the flags of a statement that are not about its handle change. -/
theorem keeps_modifyStatement {f : SQLiteStatement → SQLiteStatement}
    (hf : ∀ t, (f t).isFinalized = t.isFinalized) {J : SQLiteState ρ → Prop} :
    Throwing.Keeps (At objects) J (modifyStatement (ρ := ρ) i f) := by
  refine .modify fun s hs => ?_
  have hflags : ∀ o : SQLiteConnection,
      flags { o with statements := o.statements.modify i.index f } = flags o := by
    intro o
    have hmap : (o.statements.modify i.index f).map (·.isFinalized) =
        o.statements.map (·.isFinalized) := by
      refine List.ext_getElem? fun k => ?_
      rw [List.getElem?_map, List.getElem?_map, List.getElem?_modify]
      cases o.statements[k]? with
      | none => rfl
      | some t =>
          by_cases hk : i.index = k
          · simp [hk, hf]
          · simp [hk]
    rw [flags, flags, hmap]
  have hviews : (s.objects.modify i.connection fun o =>
      { o with statements := o.statements.modify i.index f }).map flags = views s := by
    refine List.ext_getElem? fun k => ?_
    rw [views, List.getElem?_map, List.getElem?_map, List.getElem?_modify]
    cases s.objects[k]? with
    | none => rfl
    | some o =>
        by_cases hk : i.connection = k
        · simp [hk, hflags]
        · simp [hk]
  refine ⟨fun hc => ?_, hviews.trans hs.2⟩
  show (∀ o ∈ List.map flags _, Tidy o) ∧ Recorded (List.map flags _) s.calls
  rw [hviews]
  exact hs.1 hc

theorem keeps_resetLoop (hlive : IsLive objects (.statement i)) (n : Nat) :
    Throwing.Keeps (At objects) Legal (resetLoop (ρ := ρ) i n) := by
  induction n with
  | zero => exact .halt (fun _ => At.legal) _
  | succ n ih =>
      refine (keeps_useStatement (fun _ => rfl) hlive).bind fun a => .ite ih (.ite ?_ (.pure _))
      exact (keeps_errorMessage (usable_of_liveStatement hlive) a.status).bind
        fun _ => .halt (fun _ => At.legal) _

theorem keeps_tellColumn (hlive : IsLive objects (.statement i)) :
    Throwing.Keeps (At objects) Legal (tell (ρ := ρ) (.sqlite3_column i)) :=
  .modify fun _ hs => hs.use ⟨rfl, rfl, rfl⟩ rfl fun _ => hlive

theorem keeps_makeResultSet (hlive : IsLive objects (.statement i)) :
    Throwing.Keeps (At objects) Legal (makeResultSet (ρ := ρ) i) :=
  keeps_fuel.bind fun n => (keeps_resetLoop hlive n).bind fun _ =>
    (keeps_tellColumn hlive).bind fun _ => keeps_modifyStatement (by intro t; rfl)

theorem keeps_advanceLoop (hlive : IsLive objects (.statement i)) (n : Nat) :
    Throwing.Keeps (At objects) Legal (advanceLoop (ρ := ρ) i n) := by
  have husable := usable_of_liveStatement (ρ := ρ) hlive
  induction n with
  | zero => exact .halt (fun _ => At.legal) _
  | succ n ih =>
      refine (keeps_useStatement (fun _ => rfl) hlive).bind fun a =>
        .ite (.pure _) (.ite (.pure _) (.ite ?_ ?_))
      · exact (keeps_useConnection (fun _ => rfl) husable).bind fun _ => .ite ih (.fail _)
      · exact (keeps_errorMessage husable a.status).bind fun _ => .halt (fun _ => At.legal) _

theorem keeps_advanceToNextRow (hlive : IsLive objects (.statement i)) :
    Throwing.Keeps (At objects) Legal (advanceToNextRow (ρ := ρ) i) :=
  keeps_fuel.bind fun n => keeps_advanceLoop hlive n

theorem keeps_rowLoop (hlive : IsLive objects (.statement i))
    (resultMap : ρ → Except Str (Option τ)) (n : Nat) :
    Throwing.Keeps (At objects) Legal (rowLoop (ρ := ρ) i resultMap n) := by
  induction n with
  | zero => exact .halt (fun _ => At.legal) _
  | succ n ih =>
      refine (keeps_advanceToNextRow hlive).bind fun row => ?_
      cases row with
      | none => exact .pure _
      | some row =>
          refine (keeps_tellColumn hlive).bind fun _ => ?_
          cases hmap : resultMap row with
          | error e => exact .fail _
          | ok value => exact ih.bind fun _ => .pure _

/-- A statement that was executed and has rows is not finalised. -/
theorem executeStatementLoop_does (n : Nat) {s : SQLiteState ρ} (hs : At objects s) :
    Throwing.Does (executeStatementLoop i n) s
      (fun rows t => At objects t ∧ (rows = true → IsLive objects (.statement i)))
      (fun _ => At objects) (fun _ => Legal) := by
  induction n generalizing s with
  | zero => exact .halt hs.legal
  | succ n ih =>
      refine Throwing.Does.bind (statementObject_does
        (Q := fun t u => u = s ∧ ∃ o, (views s)[i.connection]? = some o ∧
          o.finalized[i.index]? = some t.isFinalized) (fun o t ho ht => ⟨rfl, flags o, ?_, ?_⟩)
          hs.legal) ?_
      · rw [views, List.getElem?_map, ho]
        rfl
      · rw [flags, List.getElem?_map, ht]
        rfl
      rintro t u ⟨rfl, o, ho, hfinalized⟩
      refine Throwing.Does.bind (.check (Q := fun _ v => At objects v ∧
        IsLive objects (.statement i)) (fun hnot => ⟨hs, o, hs.2 ▸ ho, ?_⟩) fun _ => hs) ?_
      · simpa [hfinalized] using hnot
      rintro - v ⟨hv, hlive⟩
      have husable := usable_of_liveStatement (ρ := ρ) hlive
      refine Throwing.Does.bind ((Throwing.Keeps.check (J := Legal) _ _) v hv) fun _ w hw => ?_
      refine Throwing.Does.bind (keeps_useStatement (fun _ => rfl) hlive w hw) fun a x hx => ?_
      split
      · refine Throwing.Does.bind (keeps_modifyStatement (by intro t; rfl) x hx) fun _ y hy => ?_
        exact .pure ⟨hy, nofun⟩
      · split
        · refine Throwing.Does.bind (keeps_modifyStatement (by intro t; rfl) x hx) fun _ y hy => ?_
          refine Throwing.Does.bind (keeps_makeResultSet hlive y hy) fun _ z hz => ?_
          exact .pure ⟨hz, fun _ => hlive⟩
        · split
          · refine Throwing.Does.bind (keeps_useConnection (fun _ => rfl) husable x hx)
              fun _ y hy => ?_
            dsimp only
            split
            · exact ih hy
            · exact .fail hy
          · split
            · refine Throwing.Does.bind (keeps_useConnection (fun _ => rfl) husable x hx)
                fun _ y hy => ?_
              exact .fail hy
            · split
              · exact .fail hx
              · refine Throwing.Does.bind (keeps_errorMessage husable a.status x hx)
                  fun _ y hy => ?_
                exact .halt hy.legal

/-! ### Where a flag changes -/

theorem getElem?_modify_self {α : Type} {l : List α} {c : Nat} {a : α} (f : α → α)
    (ha : l[c]? = some a) : (l.modify c f)[c]? = some (f a) := by
  simp [ha]

theorem views_modifyObject {f : SQLiteConnection → SQLiteConnection} {g : Flags → Flags}
    (hfg : ∀ o, flags (f o) = g (flags o)) (s : SQLiteState ρ) (c : Nat) :
    (s.objects.modify c f).map flags = (views s).modify c g := by
  refine List.ext_getElem? fun k => ?_
  rw [views, List.getElem?_map, List.getElem?_modify, List.getElem?_modify, List.getElem?_map]
  cases s.objects[k]? with
  | none => rfl
  | some o =>
      by_cases hk : c = k
      · simp [hk, hfg]
      · simp [hk]

section

variable {o : Flags} {k : Nat}

def Flags.open (o : Flags) : Flags := { o with isOpened := true }

def Flags.close (o : Flags) : Flags := { o with isClosed := true }

def Flags.addStatement (o : Flags) : Flags := { o with finalized := o.finalized ++ [false] }

def Flags.finalize (k : Nat) (o : Flags) : Flags := { o with finalized := o.finalized.set k true }

theorem isLive_open (ho : objects[c]? = some ⟨false, false, []⟩) (h : SQLiteHandle) :
    IsLive (objects.modify c Flags.open) h ↔ IsLive objects h ∨ h = .connection c := by
  cases h with
  | connection d =>
      by_cases hd : c = d
      · subst hd
        simp [IsLive, ho, Flags.open]
      · simp [IsLive, hd, Ne.symm hd]
  | statement j =>
      by_cases hd : c = j.connection
      · simp [IsLive, ← hd, ho, Flags.open]
      · simp [IsLive, hd]

theorem isReleased_modify {f : Flags → Flags}
    (hclosed : ∀ o, o.isClosed = true → (f o).isClosed = true)
    (hfinalized : ∀ (o : Flags) (k : Nat),
      o.finalized[k]? = some true → (f o).finalized[k]? = some true)
    (h : SQLiteHandle) (hr : IsReleased objects h) : IsReleased (objects.modify c f) h := by
  cases h with
  | connection d =>
      obtain ⟨o, ho, hc⟩ := hr
      by_cases hd : c = d
      · subst hd
        exact ⟨f o, getElem?_modify_self f ho, hclosed o hc⟩
      · exact ⟨o, by simp [hd, ho], hc⟩
  | statement j =>
      obtain ⟨o, ho, hc⟩ := hr
      by_cases hd : c = j.connection
      · subst hd
        exact ⟨f o, getElem?_modify_self f ho, hfinalized o j.index hc⟩
      · exact ⟨o, by simp [hd, ho], hc⟩

theorem isLive_addStatement (ho : objects[c]? = some o) (h : SQLiteHandle) :
    IsLive (objects.modify c Flags.addStatement) h ↔
      IsLive objects h ∨ h = .statement ⟨c, o.finalized.length⟩ := by
  cases h with
  | connection d =>
      by_cases hd : c = d
      · subst hd
        simp [IsLive, ho, Flags.addStatement]
      · simp [IsLive, hd]
  | statement j =>
      obtain ⟨d, k⟩ := j
      by_cases hd : c = d
      · subst hd
        simp only [IsLive, getElem?_modify_self _ ho, ho, Option.some.injEq, exists_eq_left',
          Flags.addStatement, SQLiteHandle.statement.injEq, StatementID.mk.injEq, true_and]
        rw [List.getElem?_append]
        split
        · next hk => exact ⟨.inl, fun hor => hor.resolve_right (Nat.ne_of_lt hk)⟩
        · next hk =>
            have hnone : o.finalized[k]? = none := List.getElem?_eq_none (Nat.le_of_not_lt hk)
            simp only [hnone, reduceCtorEq, false_or]
            constructor
            · intro hlast
              have := (List.getElem?_eq_some_iff.mp hlast).1
              simp only [List.length_singleton] at this
              omega
            · rintro rfl
              simp
      · simp [IsLive, hd, Ne.symm hd]

theorem isLive_finalize (ho : objects[c]? = some o) (hk : k < o.finalized.length)
    (h : SQLiteHandle) :
    IsLive (objects.modify c (Flags.finalize k)) h ↔
      IsLive objects h ∧ h ≠ .statement ⟨c, k⟩ := by
  cases h with
  | connection d =>
      by_cases hd : c = d
      · subst hd
        simp [IsLive, ho, Flags.finalize]
      · simp [IsLive, hd]
  | statement j =>
      obtain ⟨d, m⟩ := j
      by_cases hd : c = d
      · subst hd
        by_cases hm : k = m
        · subst hm
          simp [IsLive, ho, Flags.finalize, hk]
        · simp [IsLive, ho, Flags.finalize, hm, Ne.symm hm]
      · simp [IsLive, hd, Ne.symm hd]

theorem isLive_close (h : SQLiteHandle) :
    IsLive (objects.modify c Flags.close) h ↔ IsLive objects h ∧ h ≠ .connection c := by
  cases h with
  | connection d =>
      by_cases hd : c = d
      · subst hd
        simp [IsLive, Flags.close]
      · simp [IsLive, hd, Ne.symm hd]
  | statement j =>
      by_cases hd : c = j.connection
      · simp [IsLive, ← hd, Flags.close]
      · simp [IsLive, hd]

end

/-! ### Waiting -/

section

variable {Q : SQLiteAnswer ρ → SQLiteState ρ → Prop} {E : SQLiteError → SQLiteState ρ → Prop}
  {H : SQLiteHalt → SQLiteState ρ → Prop} {I : SQLiteState ρ → Prop}
  {expression : SQLite ρ (SQLiteAnswer ρ)}

/-- `I` holds before each attempt. The answer that is returned is not the busy one. -/
theorem waitWhileBusyLoop_does
    (hask : ∀ s, I s → Throwing.Does expression s
      (fun a t => (a.status ≠ CSQLite3.SQLITE_OK → I t) ∧
        (a.status ≠ CSQLite3.SQLITE_BUSY → Q a t)) E H)
    (hstop : ∀ s, I s → H .waiting s) (n retry : Nat) (hs : I s) :
    Throwing.Does (waitWhileBusyLoop expression n retry) s Q E H := by
  induction n generalizing retry s with
  | zero => exact .halt (hstop s hs)
  | succ n ih =>
      refine Throwing.Does.bind (hask s hs) ?_
      rintro a t ⟨hagain, hpost⟩
      split
      · next hbusy => exact ih retry (hagain (by rw [hbusy]; decide))
      · next hbusy =>
          split
          · next hio =>
              split
              · exact .pure (hpost hbusy)
              · refine ih (retry + 1) (hagain fun hok => ?_)
                rw [hok] at hio
                exact absurd hio (by decide)
          · exact .pure (hpost hbusy)

theorem waitWhileBusy_does
    (hask : ∀ s, I s → Throwing.Does expression s
      (fun a t => (a.status ≠ CSQLite3.SQLITE_OK → I t) ∧
        (a.status ≠ CSQLite3.SQLITE_BUSY → Q a t)) E H)
    (hstop : ∀ s, I s → H .waiting s) (hs : I s) :
    Throwing.Does (waitWhileBusy expression) s Q E H :=
  Throwing.Does.bind (fuel_does hs) fun n _ ht => waitWhileBusyLoop_does hask hstop n 0 ht

end

/-! ### Connections -/

/-- The record is one flag ahead of the objects. -/
def Ahead (objects objects' : List Flags) (s : SQLiteState ρ) : Prop :=
  views s = objects ∧ (CloseAnswered s.calls → (∀ o ∈ objects, Tidy o) ∧ Recorded objects' s.calls)

/-- The objects follow. -/
theorem Ahead.catchUp {f : SQLiteConnection → SQLiteConnection} {g : Flags → Flags}
    (hfg : ∀ o, flags (f o) = g (flags o)) (hs : Ahead objects (objects.modify c g) s)
    (htidy : CloseAnswered s.calls → ∀ o, objects[c]? = some o → Tidy o → Tidy (g o)) :
    Sound { s with objects := s.objects.modify c f } := by
  obtain ⟨hviews, hs⟩ := hs
  have hnew : views { s with objects := s.objects.modify c f } = objects.modify c g := by
    rw [← hviews]
    exact views_modifyObject hfg s c
  intro hc
  obtain ⟨hall, hrecorded⟩ := hs hc
  rw [hnew]
  refine ⟨fun o ho => ?_, hrecorded⟩
  obtain ⟨k, hk⟩ := List.getElem?_of_mem ho
  rw [List.getElem?_modify] at hk
  obtain ⟨o', ho', rfl⟩ := Option.map_eq_some_iff.mp hk
  by_cases hck : c = k
  · subst hck
    simpa using htidy hc o' ho' (hall o' (List.mem_of_getElem? ho'))
  · simpa [hck] using hall o' (List.mem_of_getElem? ho')

theorem does_of_keeps {α : Type} {m : SQLite ρ α} (hm : Throwing.Keeps (At objects) Legal m)
    (hs : At objects s) :
    Throwing.Does m s (fun _ => At objects) (fun _ => Sound) (fun _ => Legal) :=
  (hm s hs).weaken (fun _ _ h => h) (fun _ _ h => h.1) (fun _ _ h => h)

/-- `SQLiteConnection(sqlite:)` makes an object whose flags are not set. -/
theorem makeConnection_does {E : SQLiteError → SQLiteState ρ → Prop}
    {H : SQLiteHalt → SQLiteState ρ → Prop} (hs : Sound s) :
    Throwing.Does makeConnection s
      (fun c t => Sound t ∧ (views t)[c]? = some ⟨false, false, []⟩) E H := by
  have hmake : makeConnection s =
      (.returned s.objects.length, { s with objects := s.objects ++ [{}] }) := rfl
  refine .of_returned hmake ⟨fun hc => ?_, ?_⟩
  · have hnew :
        views { s with objects := s.objects ++ [{}] } = views s ++ [⟨false, false, []⟩] := by
      simp [views, flags]
    have hat : ∀ (k : Nat) (o : Flags), (views s ++ [⟨false, false, []⟩])[k]? = some o →
        (views s)[k]? = some o ∨ o = ⟨false, false, []⟩ := by
      intro k o hk
      rw [List.getElem?_append] at hk
      split at hk
      · exact .inl hk
      · exact .inr (List.mem_singleton.mp (List.mem_of_getElem? hk))
    have hold : ∀ (k : Nat) (o : Flags), (views s)[k]? = some o →
        (views s ++ [⟨false, false, []⟩])[k]? = some o :=
      fun k o hk => by rw [List.getElem?_append_left (List.getElem?_eq_some_iff.mp hk).1, hk]
    obtain ⟨hall, l, hl, hlive, hreleased⟩ := hs hc
    rw [hnew]
    refine ⟨fun o ho => ?_, l, hl, fun h => (hlive h).trans ?_, fun h hh => ?_⟩
    · rcases List.mem_append.mp ho with ho | ho
      · exact hall o ho
      · rw [List.mem_singleton.mp ho]
        exact ⟨nofun, fun _ => ⟨rfl, rfl⟩⟩
    · -- The new object adds nothing to what is live.
      cases h with
      | connection d =>
          constructor
          · intro hd
            obtain ⟨o, ho, hflags⟩ := hd
            exact ⟨o, hold d o ho, hflags⟩
          · intro hd
            obtain ⟨o, ho, hopened, hclosed⟩ := hd
            rcases hat d o ho with ho | rfl
            · exact ⟨o, ho, hopened, hclosed⟩
            · cases hopened
      | statement j =>
          constructor
          · intro hd
            obtain ⟨o, ho, hflags⟩ := hd
            exact ⟨o, hold j.connection o ho, hflags⟩
          · intro hd
            obtain ⟨o, ho, hfinalized⟩ := hd
            rcases hat j.connection o ho with ho | rfl
            · exact ⟨o, ho, hfinalized⟩
            · cases hfinalized
    · have hh := hreleased h hh
      cases h with
      | connection d =>
          obtain ⟨o, ho, hflags⟩ := hh
          exact ⟨o, hold d o ho, hflags⟩
      | statement j =>
          obtain ⟨o, ho, hflags⟩ := hh
          exact ⟨o, hold j.connection o ho, hflags⟩
  · simp [views, flags]

theorem openConnection_does (hs : Sound s) (hfresh : (views s)[c]? = some ⟨false, false, []⟩) :
    Throwing.Does (openConnection c) s (fun _ => Sound) (fun _ => Sound) (fun _ => Legal) := by
  refine Throwing.Does.bind (object_does (Q := fun _ u => u = s) (fun _ _ => rfl) hs.legal) ?_
  rintro o u rfl
  refine Throwing.Does.bind (does_of_keeps (.check _ _) hs.at) fun _ v hv => ?_
  refine Throwing.Does.bind (waitWhileBusy_does (I := At (views u)) (Q := fun a t =>
    (a.status = CSQLite3.SQLITE_OK ∧ a.handle = true →
      Ahead (views u) ((views u).modify c Flags.open) t) ∧
    (¬ (a.status = CSQLite3.SQLITE_OK ∧ a.handle = true) → At (views u) t))
    (fun w hw => ask_does (fun a t ha => ?_) hw.legal) (fun w hw => hw.legal) hv) ?_
  · refine ⟨fun hne => hw.skip ha ?_, fun _ => ⟨fun hok => ⟨ha.views.trans hw.2, fun hc => ?_⟩,
      fun hnot => hw.skip ha ?_⟩⟩
    · simp [SQLiteCall.events, hne]
    · rw [ha.calls] at hc ⊢
      obtain ⟨hall, hrecorded⟩ := hw.1 hc.left
      rw [hw.2] at hall hrecorded
      refine ⟨hall, hrecorded.acquire (u := []) (h := .connection c) ?_ (by simp) ?_ ?_
        (isLive_open hfresh) (isReleased_modify (fun _ h => h) fun _ _ h => h)⟩
      · simp [SQLiteCall.events, hok]
      · rintro ⟨o, ho, hopened, -⟩
        rw [hfresh, Option.some.injEq] at ho
        subst ho
        cases hopened
      · rintro ⟨o, ho, hclosed⟩
        rw [hfresh, Option.some.injEq] at ho
        subst ho
        cases hclosed
    · simp only [SQLiteCall.events, if_neg hnot]
  · rintro a t ⟨hok, hnot⟩
    split
    · next hstatus =>
        have ht := hnot fun h => hstatus h.1
        refine Throwing.Does.bind (does_of_keeps (keeps_errstr a.status) ht) fun _ x hx => ?_
        exact .fail hx.1
    · next hstatus =>
        rw [not_not] at hstatus
        refine Throwing.Does.bind (.check (Q := fun _ => Ahead (views u) _)
          (fun hhandle => hok ⟨hstatus, hhandle⟩) fun hhandle => (hnot ?_).1) fun _ x hx => ?_
        · rw [hhandle]
          simp
        · refine .modify (hx.catchUp (fun _ => rfl) fun _ o ho _ => ?_)
          rw [hfresh, Option.some.injEq] at ho
          subst ho
          exact ⟨nofun, nofun⟩

/-- Whoever gets past `assertOpened` has a connection that can be used. -/
theorem assertOpened_does (hs : At objects s) :
    Throwing.Does (assertOpened c) s
      (fun _ t => At objects t ∧ IsLive objects (.connection c)) (fun _ => Sound)
      (fun _ => Legal) := by
  refine Throwing.Does.bind (object_does
    (Q := fun o u => At objects u ∧ objects[c]? = some (flags o))
    (fun o ho => ⟨hs, ?_⟩) hs.legal) ?_
  · rw [← hs.2, views, List.getElem?_map, ho]
    rfl
  · rintro o u ⟨hu, ho⟩
    refine Throwing.Does.bind (.check (Q := fun _ v => At objects v ∧ o.isOpened = true)
      (fun hopened => ⟨hu, hopened⟩) fun _ => hu.1) ?_
    rintro - v ⟨hv, hopened⟩
    exact .check (fun hclosed => ⟨hv, flags o, ho, hopened, by simpa [flags] using hclosed⟩)
      fun _ => hv.1

theorem prepare_does (sql : Str) (hs : Sound s) :
    Throwing.Does (prepare c sql) s
      (fun i t => Sound t ∧ IsLive (views t) (.statement i)) (fun _ => Sound) (fun _ => Legal) := by
  refine Throwing.Does.bind (assertOpened_does hs.at) ?_
  rintro - u ⟨hu, hlive⟩
  refine Throwing.Does.bind (object_does (Q := fun o v => At (views s) v ∧
    (views s)[c]? = some (flags o)) (fun o ho => ⟨hu, ?_⟩) hu.legal) ?_
  · rw [← hu.2, views, List.getElem?_map, ho]
    rfl
  rintro o v ⟨hv, ho⟩
  have hlength : (flags o).finalized.length = o.statements.length := by simp [flags]
  have hnew : IsLive ((views s).modify c Flags.addStatement)
      (.statement ⟨c, o.statements.length⟩) :=
    (isLive_addStatement ho _).mpr (.inr (by rw [hlength]))
  have husable := usable_of_live (ρ := ρ) hlive
  refine Throwing.Does.bind (waitWhileBusy_does (I := At (views s)) (Q := fun a t =>
    (a.status = CSQLite3.SQLITE_OK ∧ a.handle = true →
      Ahead (views s) ((views s).modify c Flags.addStatement) t) ∧
    (¬ (a.status = CSQLite3.SQLITE_OK ∧ a.handle = true) → At (views s) t))
    (fun w hw => ask_does (fun a t ha => ?_) hw.legal) (fun w hw => hw.legal) hv) ?_
  · refine ⟨fun hne => hw.use ha ?_ (husable w hw), fun _ =>
      ⟨fun hok => ⟨ha.views.trans hw.2, fun hc => ?_⟩, fun hnot => hw.use ha ?_ (husable w hw)⟩⟩
    · simp [SQLiteCall.events, hne]
    · rw [ha.calls] at hc ⊢
      obtain ⟨hall, hrecorded⟩ := hw.1 hc.left
      rw [hw.2] at hall hrecorded
      refine ⟨hall, hrecorded.acquire (u := [.use (.connection c)])
        (h := .statement ⟨c, o.statements.length⟩) ?_ ?_ ?_ ?_ ?_
        (isReleased_modify (fun _ h => h) fun _ _ h => ?_)⟩
      · simp [SQLiteCall.events, hok]
      · simpa using hlive
      · rintro ⟨o', ho', hfinalized⟩
        obtain rfl : flags o = o' := Option.some.inj (ho.symm.trans ho')
        have := (List.getElem?_eq_some_iff.mp hfinalized).1
        exact absurd this (by simp [hlength])
      · rintro ⟨o', ho', hfinalized⟩
        obtain rfl : flags o = o' := Option.some.inj (ho.symm.trans ho')
        have := (List.getElem?_eq_some_iff.mp hfinalized).1
        exact absurd this (by simp [hlength])
      · intro k
        rw [isLive_addStatement ho, hlength]
      · rw [Flags.addStatement, List.getElem?_append_left (List.getElem?_eq_some_iff.mp h).1, h]
    · simp only [SQLiteCall.events, if_neg hnot]
  · rintro a t ⟨hok, hnot⟩
    split
    · next hstatus =>
        have ht := hnot fun h => hstatus h.1
        refine Throwing.Does.bind (does_of_keeps (keeps_errorMessage husable a.status) ht)
          fun _ x hx => ?_
        exact .fail hx.1
    · next hstatus =>
        rw [not_not] at hstatus
        refine Throwing.Does.bind (.check (Q := fun _ => Ahead (views s) _)
          (fun hhandle => hok ⟨hstatus, hhandle⟩) fun hhandle => (hnot ?_).1) fun _ x hx => ?_
        · rw [hhandle]
          simp
        · have hadd : ∀ o : SQLiteConnection,
              flags { o with statements := o.statements ++ [{ sql := sql }] } =
                (flags o).addStatement := fun o => by simp [flags, Flags.addStatement]
          refine Throwing.Does.bind (.modify (Q := fun _ y => Sound y ∧
            views y = (views s).modify c Flags.addStatement) ⟨hx.catchUp hadd ?_, ?_⟩) ?_
          · intro _ o' ho' htidy
            obtain ⟨o', ho'', hopened, hclosed⟩ := hlive
            obtain rfl := Option.some.inj (ho'.symm.trans ho'')
            refine ⟨fun b hb => ?_, fun hnot => ?_⟩
            · rcases List.mem_append.mp hb with hb | hb
              · exact htidy.1 b hb
              · rw [List.mem_singleton.mp hb]
                exact hclosed.symm
            · rw [Flags.addStatement, hopened] at hnot
              cases hnot
          · rw [← hx.1]
            exact views_modifyObject hadd x c
          · rintro - y ⟨hy, hviews⟩
            exact .pure ⟨hy, by rw [hviews]; exact hnew⟩

theorem flags_finalize (k : Nat) (o : SQLiteConnection) :
    flags { o with statements := o.statements.modify k fun t => { t with isFinalized := true } } =
      (flags o).finalize k := by
  have hmap : (o.statements.modify k fun t => { t with isFinalized := true }).map (·.isFinalized) =
      (o.statements.map (·.isFinalized)).set k true := by
    refine List.ext_getElem? fun m => ?_
    rw [List.getElem?_map, List.getElem?_modify, List.getElem?_set, List.getElem?_map]
    cases hm : o.statements[m]? with
    | none =>
        have := List.getElem?_eq_none_iff.mp hm
        by_cases hkm : k = m
        · subst hkm
          simp [Nat.not_lt.mpr this]
        · simp [hkm]
    | some t =>
        have := (List.getElem?_eq_some_iff.mp hm).1
        by_cases hkm : k = m
        · subst hkm
          simp [this]
        · simp [hkm]
  rw [flags, Flags.finalize, flags, hmap]

/-- `k` of the `n` statements of a connection are finalised. -/
def Closing (c n k : Nat) (s : SQLiteState ρ) : Prop :=
  CloseAnswered s.calls →
    (∀ (d : Nat) (o : Flags), d ≠ c → (views s)[d]? = some o → Tidy o) ∧
    Recorded (views s) s.calls ∧
    (views s)[c]? = some ⟨true, false, List.replicate k true ++ List.replicate (n - k) false⟩

theorem Closing.legal {n k : Nat} (hs : Closing c n k s) : Legal s := fun hc => (hs hc).2.1.legal

theorem finalize_does {k n : Nat} {E : SQLiteError → SQLiteState ρ → Prop} (hk : k < n)
    (hs : Closing c n k s) :
    Throwing.Does (finalize ⟨c, k⟩) s (fun _ => Closing c n (k + 1)) E (fun _ => Legal) := by
  refine .of_returned rfl fun hc => ?_
  have hall : views { s with
      objects := s.objects.modify c fun o =>
        { o with statements := o.statements.modify k fun t => { t with isFinalized := true } }
      calls := s.calls ++ [.sqlite3_finalize ⟨c, k⟩] } = (views s).modify c (Flags.finalize k) :=
    views_modifyObject (flags_finalize k) s c
  obtain ⟨hothers, hrecorded, hviews⟩ := hs hc.left
  rw [hall]
  have hlt : k < (List.replicate k true ++ List.replicate (n - k) false).length := by
    simp only [List.length_append, List.length_replicate]
    omega
  refine ⟨fun d o hd ho => hothers d o hd (by simpa [Ne.symm hd] using ho), ?_, ?_⟩
  · refine hrecorded.release (h := .statement ⟨c, k⟩) rfl ⟨_, hviews, ?_⟩ (fun h _ => ?_)
      (isLive_finalize hviews hlt) (fun h hh => ?_)
    · rw [List.getElem?_append_right (by simp)]
      simp only [List.length_replicate, Nat.sub_self]
      exact List.getElem?_replicate_of_lt (by omega)
    · cases h <;> rfl
    · rcases hh with hh | rfl
      · refine isReleased_modify (f := Flags.finalize k) (fun _ h => h) (fun o m hm => ?_) h hh
        rw [Flags.finalize, List.getElem?_set]
        split
        · next hkm =>
            have := (List.getElem?_eq_some_iff.mp hm).1
            rw [if_pos (hkm ▸ this)]
        · exact hm
      · refine ⟨_, getElem?_modify_self _ hviews, ?_⟩
        rw [Flags.finalize, List.getElem?_set_self hlt]
  · rw [getElem?_modify_self _ hviews, Flags.finalize]
    have hsplit : List.replicate (n - k) false = false :: List.replicate (n - (k + 1)) false := by
      rw [show n - k = n - (k + 1) + 1 by omega, List.replicate_succ]
    have hset : (List.replicate k true ++ List.replicate (n - k) false).set k true =
        List.replicate (k + 1) true ++ List.replicate (n - (k + 1)) false := by
      rw [hsplit, List.set_append_right _ _ (by simp), List.replicate_succ']
      simp
    rw [hset]

/-- Once `sqlite3_close` failed nothing is promised. -/
theorem keeps_broken {mk : SQLiteAnswer ρ → SQLiteCall ρ} :
    Throwing.Keeps (fun s => ¬ CloseAnswered s.calls) Legal (ask mk) := fun s hs =>
  ask_does (fun _ _ ha hc => hs (by rw [ha.calls] at hc; exact hc.left)) fun hc => absurd hc hs

theorem keeps_broken_errorMessage (c : Nat) (status : Int) :
    Throwing.Keeps (fun s : SQLiteState ρ => ¬ CloseAnswered s.calls) Legal
      (errorMessage c status) := by
  refine keeps_broken.bind fun a => ?_
  cases a.message with
  | some message => exact .pure message
  | none => exact keeps_broken.bind fun _ => .pure _

theorem closeConnection_does (hs : Sound s) :
    Throwing.Does (closeConnection c) s (fun _ => Sound) (fun _ => Sound) (fun _ => Legal) := by
  refine Throwing.Does.bind (assertOpened_does hs.at) ?_
  rintro - u ⟨hu, hlive⟩
  have hdestroy : Throwing.Does (destroyAllStatements c) u
      (fun _ t => ∃ n, Closing c n n t) (fun _ => Sound) (fun _ => Legal) := by
    refine Throwing.Does.bind (object_does (Q := fun o v =>
      Closing c o.statements.length 0 v) (fun o ho hc => ?_) hu.legal) ?_
    · obtain ⟨hall, hrecorded⟩ := hu.1 hc
      have ho' : (views u)[c]? = some (flags o) := by rw [views, List.getElem?_map, ho]; rfl
      obtain ⟨f, hf, hopened, hclosed⟩ := hlive
      obtain rfl : flags o = f := Option.some.inj (by rw [← ho', ← hf, hu.2])
      refine ⟨fun d o' _ hd => hall o' (List.mem_of_getElem? hd), hrecorded, ?_⟩
      have hfalse : (flags o).finalized = List.replicate o.statements.length false := by
        refine List.eq_replicate_iff.mpr ⟨by simp [flags], fun b hb => ?_⟩
        rw [(hall _ (List.mem_of_getElem? ho')).1 b hb, hclosed]
      rw [ho', Flags.ext (y := ⟨true, false, _⟩) hopened hclosed hfalse]
      rfl
    · intro o v hv
      have hloop := Throwing.Does.each_range' (f := fun k => finalize (ρ := ρ) ⟨c, k⟩)
        (P := fun k => Closing c o.statements.length k) (E := fun _ => Sound)
        (H := fun _ => Legal) (i := 0) (n := o.statements.length)
        (fun k w _ hk hw => finalize_does (by omega) hw) hv
      rw [List.range_eq_range']
      exact hloop.weaken (fun _ _ h => ⟨_, by simpa using h⟩) (fun _ _ h => h) (fun _ _ h => h)
  refine Throwing.Does.bind hdestroy ?_
  rintro - v ⟨n, hv⟩
  refine Throwing.Does.bind (waitWhileBusy_does (I := Closing c n n) (Q := fun a t =>
    (a.status = CSQLite3.SQLITE_OK → CloseAnswered t.calls →
      (∀ (d : Nat) (o : Flags), d ≠ c → (views t)[d]? = some o → Tidy o) ∧
      Recorded ((views t).modify c Flags.close) t.calls ∧
      (views t)[c]? = some ⟨true, false, List.replicate n true⟩) ∧
    (a.status ≠ CSQLite3.SQLITE_OK → ¬ CloseAnswered t.calls))
    (fun w hw => ask_does (fun a t ha => ⟨fun hne hc => ?_, fun hbusy => ⟨fun hok hc => ?_,
      fun hne hc => ?_⟩⟩) hw.legal) (fun w hw => hw.legal) hv) ?_
  · rw [ha.calls] at hc ⊢
    rw [ha.views]
    obtain ⟨hothers, hrecorded, hviews⟩ := hw hc.left
    refine ⟨hothers, hrecorded.use (h := .connection c) ?_ ⟨_, hviews, rfl, rfl⟩, hviews⟩
    simp [SQLiteCall.events, hne]
  · rw [ha.calls] at hc ⊢
    rw [ha.views]
    obtain ⟨hothers, hrecorded, hviews⟩ := hw hc.left
    rw [Nat.sub_self, List.replicate_zero, List.append_nil] at hviews
    refine ⟨hothers, hrecorded.release (h := .connection c) ?_ ⟨_, hviews, rfl, rfl⟩
      (fun h hh => ?_)
      isLive_close (fun h hh => ?_), hviews⟩
    · simp [SQLiteCall.events, hok]
    · cases h with
      | connection d => rfl
      | statement j =>
          -- Its statements are finalised.
          obtain ⟨o, ho, hfinalized⟩ := hh
          refine decide_eq_false fun hjc => ?_
          rw [hjc, hviews, Option.some.injEq] at ho
          subst ho
          have := List.mem_replicate.mp (List.mem_of_getElem? hfinalized)
          exact Bool.false_ne_true this.2
    · rcases hh with hh | rfl
      · exact isReleased_modify (f := Flags.close) (fun _ _ => rfl) (fun _ _ h => h) h hh
      · exact ⟨_, getElem?_modify_self _ hviews, rfl⟩
  · rw [ha.calls] at hc
    have hanswer : closeAnswered (.sqlite3_close (ρ := ρ) c a.status) = true :=
      hc _ (List.mem_append_right _ (List.mem_singleton_self _))
    simp [closeAnswered, hne, hbusy] at hanswer
  · rintro a t ⟨hok, hbroken⟩
    split
    · next hne =>
        refine Throwing.Does.bind ((keeps_broken_errorMessage c a.status t (hbroken hne)).weaken
          (fun _ _ h => h) (fun _ _ h hc => absurd hc h) (fun _ _ h => h)) fun _ x hx => ?_
        exact .fail fun hc => absurd hc hx
    · next hne =>
        rw [not_not] at hne
        refine .modify fun hc => ?_
        obtain ⟨hothers, hrecorded, hviews⟩ := hok hne hc
        have hnew : views { t with
            objects := t.objects.modify c fun o => { o with isClosed := true } } =
              (views t).modify c Flags.close :=
          views_modifyObject (fun _ => rfl) t c
        rw [hnew]
        refine ⟨fun o ho => ?_, hrecorded⟩
        obtain ⟨k, hk⟩ := List.getElem?_of_mem ho
        by_cases hck : c = k
        · subst hck
          rw [getElem?_modify_self _ hviews, Option.some.injEq] at hk
          subst hk
          exact ⟨fun b hb => (List.mem_replicate.mp hb).2, nofun⟩
        · exact hothers k o (Ne.symm hck) (by simpa [hck] using hk)

/-! ### The database -/

theorem keeps_sound {α : Type} {m : SQLite ρ α}
    (hm : ∀ objects, Throwing.Keeps (At objects) Legal m) : Throwing.Keeps Sound Legal m :=
  fun s hs => (does_of_keeps (hm (views s)) hs.at).weaken (fun _ _ h => h.1) (fun _ _ h => h)
    (fun _ _ h => h)

/-- What changes neither the objects nor the record. -/
theorem keeps_modify {f : SQLiteState ρ → SQLiteState ρ} {J : SQLiteState ρ → Prop}
    (hobjects : ∀ s, (f s).objects = s.objects) (hcalls : ∀ s, (f s).calls = s.calls) :
    Throwing.Keeps (At objects) J (Throwing.modify f : SQLite ρ Unit) := by
  refine .modify fun s hs => ?_
  have hviews : views (f s) = views s := by
    rw [views, hobjects]
    rfl
  refine ⟨?_, hviews.trans hs.2⟩
  unfold Sound
  rw [hviews, hcalls]
  exact hs.1

theorem keeps_fileManager (function : String) :
    Throwing.Keeps (At objects) Legal (fileManager (ρ := ρ) function) :=
  (keeps_skip fun _ => rfl).bind fun _ => .ite (.fail _) (.pure _)

theorem keeps_buildURL : Throwing.Keeps (At objects) Legal (buildURL (ρ := ρ)) := by
  have hskip : ∀ function, Throwing.Keeps (At objects) Legal
      (ask (ρ := ρ) fun _ => .fileManager function) := fun _ => keeps_skip fun _ => rfl
  have hset : Throwing.Keeps (At objects) Legal
      (Throwing.modify fun s => { s with hasURL := true } : SQLite ρ Unit) :=
    keeps_modify (by intro s; rfl) (by intro s; rfl)
  refine Throwing.Keeps.get.bind fun s => .ite (.pure _) ?_
  refine (keeps_fileManager _).bind fun _ => (hskip _).bind fun _ => (Throwing.Keeps.check _ _).bind
    fun _ => (hskip _).bind fun _ => ?_
  exact .ite ((keeps_fileManager _).bind fun _ => hset) hset

theorem keeps_create : Throwing.Keeps Sound Legal (create (ρ := ρ)) :=
  keeps_sound fun _ => keeps_buildURL.bind fun _ => (keeps_skip fun _ => rfl).bind fun _ =>
    (Throwing.Keeps.check _ _).bind fun _ => (keeps_skip fun _ => rfl).bind fun _ =>
      .ite (.fail _) (.pure _)

theorem keeps_connection (thread : Nat) :
    Throwing.Keeps Sound Legal (connection (ρ := ρ) thread) := by
  refine (keeps_sound fun _ => keeps_buildURL).bind fun _ =>
    (keeps_sound fun _ => keeps_skip fun _ => rfl).bind fun _ =>
      (Throwing.Keeps.check _ _).bind fun _ => Throwing.Keeps.get.bind fun _ =>
        (Throwing.Keeps.check _ _).bind fun _ => ?_
  intro s hs
  refine Throwing.Does.bind (makeConnection_does hs) ?_
  rintro c t ⟨ht, hfresh⟩
  refine Throwing.Does.bind (openConnection_does ht hfresh) fun _ u hu => ?_
  exact ((keeps_sound fun _ => keeps_modify (by intro s; rfl) (by intro s; rfl)).bind
    fun _ => .pure c) u hu

theorem keeps_close (thread c : Nat) : Throwing.Keeps Sound Legal (close (ρ := ρ) thread c) :=
  Throwing.Keeps.bind (fun _ hs => closeConnection_does hs) fun _ =>
    keeps_sound fun _ => keeps_modify (by intro s; rfl) (by intro s; rfl)

theorem keeps_destroy (thread : Nat) : Throwing.Keeps Sound Legal (destroy (ρ := ρ) thread) := by
  refine Throwing.Keeps.get.bind fun _ => (Throwing.Keeps.each fun c _ s hs =>
    closeConnection_does hs).bind fun _ => ?_
  refine (keeps_sound fun _ => keeps_modify (by intro s; rfl) (by intro s; rfl)).bind fun _ =>
    (keeps_sound fun _ => keeps_buildURL).attempt.bind fun _ => Throwing.Keeps.get.bind fun s => ?_
  refine .ite ((keeps_sound fun _ => keeps_skip fun _ => rfl).bind fun _ => .ite ?_ (.pure _))
    (.pure _)
  exact (keeps_sound fun _ => keeps_fileManager _).bind fun _ => .pure _

theorem keeps_executeOn (c : Nat) (sql : Str) (bindings : List (Option SQLBindable))
    (dict : List (Str × Option SQLBindable)) (resultMap : ρ → Except Str (Option τ)) :
    Throwing.Keeps Sound Legal (executeOn c sql bindings dict resultMap) := by
  intro s hs
  refine Throwing.Does.bind (prepare_does sql hs) ?_
  rintro i t ⟨ht, hlive⟩
  have hbind : Throwing.Keeps (At (views t)) Legal (bindArray (ρ := ρ) i bindings) :=
    .each fun b _ => keeps_set _ _
  have hdict : Throwing.Keeps (At (views t)) Legal (bindDictionary (ρ := ρ) i dict) :=
    .each fun b _ => keeps_setForKey hlive _ _
  refine Throwing.Does.bind (does_of_keeps hbind ht.at) fun _ u hu => ?_
  refine Throwing.Does.bind (does_of_keeps hdict hu) fun _ v hv => ?_
  refine Throwing.Does.bind (fuel_does hv |>.bind fun n w hw => executeStatementLoop_does n hw
    |>.weaken (fun _ _ h => h) (fun _ _ h => h.1) (fun _ _ h => h)) ?_
  rintro rows w ⟨hw, hrows⟩
  cases rows with
  | false => exact .pure hw.1
  | true =>
      refine Throwing.Does.bind (fuel_does hw) fun n x hx => ?_
      exact (does_of_keeps (keeps_rowLoop (hrows rfl) resultMap n) hx).weaken (fun _ _ h => h.1)
        (fun _ _ h => h) (fun _ _ h => h)

theorem keeps_execute (thread : Nat) (sql : Str) (bindings : List (Option SQLBindable))
    (dict : List (Str × Option SQLBindable)) (resultMap : ρ → Except Str (Option τ)) :
    Throwing.Keeps Sound Legal (execute thread sql bindings dict resultMap) :=
  (keeps_connection thread).bind fun c =>
    .deferring (keeps_close thread c).attempt (keeps_executeOn c sql bindings dict resultMap)

/-! ### Runs -/

/-- The methods that do not look whether the connection was closed are not called when it was:
`advanceToNextRow`, the setters by name, and the error message of a connection. -/
def keepsOpen (p : SQLiteProcess ρ) : SQLiteAction ρ τ → Bool
  | .advanceToNextRow i => p.halted || !isFinalized p.state i
  | .setForKey i _ _ => p.halted || !isFinalized p.state i
  | .connectionErrorMessage c => p.halted || !isClosed p.state c
  | _ => true

theorem isLive_of_not_isFinalized (hi : isFinalized s i = false) :
    IsLive (views s) (.statement i) := by
  unfold isFinalized at hi
  cases ho : s.objects[i.connection]? with
  | none =>
      rw [ho] at hi
      cases hi
  | some o =>
      rw [ho, Option.bind_some] at hi
      cases ht : o.statements[i.index]? with
      | none =>
          rw [ht] at hi
          cases hi
      | some t =>
          rw [ht] at hi
          refine ⟨flags o, ?_, ?_⟩
          · rw [views, List.getElem?_map, ho]
            rfl
          · rw [flags, List.getElem?_map, ht]
            exact congrArg some hi

theorem keeps_run {α : Type} {I J : SQLiteState ρ → Prop} {m : SQLite ρ α}
    (hm : Throwing.Keeps I J m) : Throwing.Keeps I J (run m) :=
  hm.bind fun _ => .pure _

/-- What one call does to a sound state. -/
theorem perform_does {a : SQLiteAction ρ τ} {p : SQLiteProcess ρ} (hs : Sound p.state)
    (hrunning : p.halted = false) (ha : keepsOpen p a = true) :
    Throwing.Does (perform a) p.state (fun _ => Sound) (fun _ => Sound) (fun _ => Legal) := by
  cases a with
  | create => exact keeps_create _ hs
  | connection thread => exact keeps_run (keeps_connection thread) _ hs
  | close thread c => exact keeps_close thread c _ hs
  | destroy thread => exact keeps_destroy thread _ hs
  | execute thread sql bindings dict resultMap =>
      exact keeps_run (keeps_execute thread sql bindings dict resultMap) _ hs
  | prepare c sql =>
      exact ((prepare_does sql hs).weaken (fun _ _ h => h.1) (fun _ _ h => h) (fun _ _ h => h)).bind
        fun _ _ h => .pure h
  | connectionErrorMessage c =>
      have hopen : isClosed p.state c = false := by simpa [keepsOpen, hrunning] using ha
      refine Throwing.Does.bind (Throwing.Does.bind (object_does (Q := fun o u =>
        u = p.state ∧ p.state.objects[c]? = some o) (fun o ho => ⟨rfl, ho⟩) hs.legal)
        (Q := fun _ => Sound) ?_) fun _ _ h => .pure h
      rintro o u ⟨rfl, ho⟩
      split
      · next hopened =>
          have hlive : IsLive (views p.state) (.connection c) := by
            refine ⟨flags o, ?_, hopened, ?_⟩
            · rw [views, List.getElem?_map, ho]
              rfl
            · simpa [isClosed, ho, flags] using hopen
          refine Throwing.Does.bind (does_of_keeps (keeps_useConnection (fun _ => rfl)
            (usable_of_live hlive)) hs.at) fun _ _ h => .pure h.1
      · exact .pure hs
  | set i value index =>
      exact (does_of_keeps (keeps_set _ _) hs.at).weaken (fun _ _ h => h.1) (fun _ _ h => h)
        (fun _ _ h => h)
  | setForKey i value key =>
      have hlive : isFinalized p.state i = false := by simpa [keepsOpen, hrunning] using ha
      exact (does_of_keeps (keeps_setForKey (isLive_of_not_isFinalized hlive) _ _) hs.at).weaken
        (fun _ _ h => h.1) (fun _ _ h => h) (fun _ _ h => h)
  | executeStatement i =>
      refine Throwing.Does.bind (Throwing.Does.bind (fuel_does hs.at) fun n u hu =>
        (executeStatementLoop_does n hu).weaken (fun _ _ h => h.1) (fun _ _ h => h.1)
          (fun _ _ h => h)) fun _ _ h => .pure h.1
  | advanceToNextRow i =>
      have hlive : isFinalized p.state i = false := by simpa [keepsOpen, hrunning] using ha
      refine Throwing.Does.bind (statementObject_does (Q := fun _ u => u = p.state)
        (fun _ _ _ _ => rfl) hs.legal) ?_
      rintro t u rfl
      split
      · exact (does_of_keeps (keeps_run (keeps_advanceToNextRow (isLive_of_not_isFinalized hlive)))
          hs.at).weaken (fun _ _ h => h.1) (fun _ _ h => h) (fun _ _ h => h)
      · exact .pure hs

/-- The invariant of a process. -/
def ProcessSound (p : SQLiteProcess ρ) : Prop :=
  Legal p.state ∧ (p.halted = false → Sound p.state)

theorem processSound_step {p q : SQLiteProcess ρ} {a : SQLiteAction ρ τ} (ha : keepsOpen p a = true)
    (hp : ProcessSound p) (hstep : step p a = .ok q) : ProcessSound q := by
  unfold step at hstep
  cases hrunning : p.halted with
  | true =>
      rw [hrunning, if_pos rfl, Except.ok.injEq] at hstep
      exact hstep ▸ hp
  | false =>
      rw [hrunning, if_neg Bool.false_ne_true] at hstep
      have hdoes := perform_does (hp.2 hrunning) hrunning ha
      rcases hm : perform a p.state with ⟨o, t⟩
      rw [hm] at hstep
      cases o with
      | returned _ =>
          obtain rfl := Except.ok.inj hstep
          have ht := hdoes.returns _ t hm
          exact ⟨ht.legal, fun _ => ht⟩
      | threw e =>
          obtain rfl := Except.ok.inj hstep
          have ht := hdoes.throws e t hm
          exact ⟨ht.legal, fun _ => ht⟩
      | halted x =>
          obtain rfl := Except.ok.inj hstep
          exact ⟨hdoes.halts x t hm, nofun⟩

/-- A process that has not done anything. -/
def start (versions : SQLiteVersions) (answers : List (SQLiteAnswer ρ)) : SQLiteProcess ρ :=
  ⟨{ versions := versions, answers := answers }, false⟩

theorem sound_start (versions : SQLiteVersions) (answers : List (SQLiteAnswer ρ)) :
    Sound (start versions answers).state := by
  refine fun _ => ⟨by simp [views, start], {}, rfl, fun h => ?_,
    fun h hh => absurd hh List.not_mem_nil⟩
  refine ⟨fun hh => absurd hh List.not_mem_nil, fun hh => ?_⟩
  cases h with
  | connection d =>
      obtain ⟨o, ho, -⟩ := hh
      cases ho
  | statement j =>
      obtain ⟨o, ho, -⟩ := hh
      cases ho

end SQLite

end MultisigWallet
