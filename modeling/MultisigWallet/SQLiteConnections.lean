import Mathlib.Data.List.Nodup
import MultisigWallet.SQLiteSound

/-!
# MultisigWallet.SQLiteConnections

Which connections are open. A computation on the statements of one connection leaves every other
connection alone, and its own flags (`Within`), so that `Database.execute` closes what it opened on
every way out of it, and the list a thread retains is the list of its open connections as long as
every connection is closed by the thread that opened it.
-/

namespace MultisigWallet

namespace SQLite

variable {ρ τ : Type} {s t u : SQLiteState ρ} {c : Nat} {i : StatementID} {call : SQLiteCall ρ}

/-! ### Work on one connection -/

/-- Only the statements of the connection `c` may be others. -/
structure Within (c : Nat) (s t : SQLiteState ρ) : Prop where
  connections : t.connections = s.connections
  length : t.objects.length = s.objects.length
  others : ∀ d, d ≠ c → t.objects[d]? = s.objects[d]?
  opened : t.objects[c]?.map (·.isOpened) = s.objects[c]?.map (·.isOpened)
  closed : t.objects[c]?.map (·.isClosed) = s.objects[c]?.map (·.isClosed)
  calls : s.calls <+: t.calls

theorem Within.refl (c : Nat) (s : SQLiteState ρ) : Within c s s :=
  ⟨rfl, rfl, fun _ _ => rfl, rfl, rfl, List.prefix_refl _⟩

theorem Asked.calls_prefix (ha : Asked s call t) : s.calls <+: t.calls :=
  ⟨[call], ha.calls.symm⟩

theorem Within.asked (h : Within c s t) (ha : Asked t call u) : Within c s u := by
  obtain ⟨h1, h2, h3, h4, h5, h6⟩ := h
  refine ⟨ha.connections.trans h1, ?_, ?_, ?_, ?_, h6.trans ha.calls_prefix⟩
  all_goals rw [ha.objects]
  · exact h2
  · exact h3
  · exact h4
  · exact h5

theorem Within.modify {f : SQLiteConnection → SQLiteConnection} (h : Within c s t)
    (hopened : ∀ o, (f o).isOpened = o.isOpened) (hclosed : ∀ o, (f o).isClosed = o.isClosed) :
    Within c s { t with objects := t.objects.modify c f } := by
  have hmap : ∀ {β : Type} (g : SQLiteConnection → β), (∀ o, g (f o) = g o) →
      (t.objects.modify c f)[c]?.map g = t.objects[c]?.map g := by
    intro β g hg
    rw [List.getElem?_modify]
    cases t.objects[c]? with
    | none => rfl
    | some o => simp [hg]
  refine ⟨h.connections, ?_, fun d hd => ?_, ?_, ?_, h.calls⟩
  · rw [List.length_modify]
    exact h.length
  · rw [List.getElem?_modify]
    simpa [Ne.symm hd] using h.others d hd
  · exact (hmap _ hopened).trans h.opened
  · exact (hmap _ hclosed).trans h.closed

/-- What holds wherever a computation halts. -/
abbrev Anywhere (_ : SQLiteState ρ) : Prop := True

section

variable {I : SQLiteState ρ → Prop}

theorem keeps_object (d : Nat) : Throwing.Keeps I Anywhere (object d) :=
  fun _ hs => object_does (fun _ _ => hs) trivial

theorem keeps_statementObject (i : StatementID) : Throwing.Keeps I Anywhere (statementObject i) :=
  fun _ hs => statementObject_does (fun _ _ _ _ => hs) trivial

end

section

variable {mk : SQLiteAnswer ρ → SQLiteCall ρ}

theorem within_ask : Throwing.Keeps (Within c s) Anywhere (ask mk) :=
  fun _ hs => ask_does (fun _ _ ha => hs.asked ha) trivial

theorem within_tell : Throwing.Keeps (Within c s) Anywhere (tell call) :=
  .modify fun _ hs => hs.asked ⟨rfl, rfl, rfl⟩

theorem within_modifyStatement (f : SQLiteStatement → SQLiteStatement) (hi : i.connection = c) :
    Throwing.Keeps (Within c s) Anywhere (modifyStatement i f) :=
  .modify fun _ hs => hi ▸ (hi ▸ hs : Within i.connection s _).modify (fun _ => rfl) (fun _ => rfl)

theorem within_errstr (status : Int) :
    Throwing.Keeps (Within c s) Anywhere (errstr status : SQLite ρ Str) :=
  within_ask.bind fun _ => .pure _

theorem within_errorMessage (d : Nat) (status : Int) :
    Throwing.Keeps (Within c s) Anywhere (errorMessage d status : SQLite ρ Str) := by
  refine within_ask.bind fun a => ?_
  cases a.message with
  | some message => exact .pure message
  | none => exact within_errstr status

theorem within_waitWhileBusy : Throwing.Keeps (Within c s) Anywhere (waitWhileBusy (ask mk)) :=
  fun _ hs => waitWhileBusy_does (I := Within c s) (fun _ hu =>
    ask_does (fun _ _ ha => ⟨fun _ => hu.asked ha, fun _ => hu.asked ha⟩) trivial)
      (fun _ _ => trivial) hs

theorem within_assertOpened (d : Nat) :
    Throwing.Keeps (Within c s) Anywhere (assertOpened d : SQLite ρ Unit) :=
  (keeps_object d).bind fun _ => (Throwing.Keeps.check _ _).bind fun _ => .check _ _

/-- The statement that is prepared is one of the connection. -/
theorem within_prepare (sql : Str) {t : SQLiteState ρ} (ht : Within c s t) :
    Throwing.Does (prepare c sql) t (fun i u => Within c s u ∧ i.connection = c)
      (fun _ => Within c s) (fun _ => Anywhere) := by
  refine Throwing.Does.bind (within_assertOpened c t ht) fun _ u hu => ?_
  refine Throwing.Does.bind (keeps_object c u hu) fun o v hv => ?_
  refine Throwing.Does.bind (within_waitWhileBusy v hv) fun a w hw => ?_
  split
  · refine Throwing.Does.bind (within_errorMessage c a.status w hw) fun _ x hx => .fail hx
  · refine Throwing.Does.bind ((Throwing.Keeps.check (J := Anywhere) _ _) w hw) fun _ x hx => ?_
    refine Throwing.Does.bind (.modify (Q := fun _ => Within c s)
      (hx.modify (by intro o; rfl) (by intro o; rfl))) fun _ y hy => .pure ⟨hy, rfl⟩

theorem within_assertCanBind (i : StatementID) :
    Throwing.Keeps (Within c s) Anywhere (assertCanBind i : SQLite ρ Unit) :=
  (keeps_statementObject i).bind fun _ => (Throwing.Keeps.check _ _).bind fun _ => .check _ _

theorem within_set (i : StatementID) (value : SQLValue) (index : Int) :
    Throwing.Keeps (Within c s) Anywhere (set i value index : SQLite ρ Unit) := by
  refine (within_assertCanBind i).bind fun _ => within_ask.bind fun a =>
    (Throwing.Keeps.check _ _).bind fun _ => .ite ?_ (.pure _)
  exact (within_errorMessage _ _).bind fun _ => .fail _

theorem within_resetLoop (i : StatementID) (n : Nat) :
    Throwing.Keeps (Within c s) Anywhere (resetLoop i n : SQLite ρ Unit) := by
  induction n with
  | zero => exact .halt (fun _ _ => trivial) _
  | succ n ih =>
      refine within_ask.bind fun a => .ite ih (.ite ?_ (.pure _))
      exact (within_errorMessage _ _).bind fun _ => .halt (fun _ _ => trivial) _

theorem within_executeStatementLoop (hi : i.connection = c) (n : Nat) :
    Throwing.Keeps (Within c s) Anywhere (executeStatementLoop i n : SQLite ρ Bool) := by
  have hmodify := fun f => within_modifyStatement (s := s) f hi
  induction n with
  | zero => exact .halt (fun _ _ => trivial) _
  | succ n ih =>
      refine (keeps_statementObject i).bind fun _ => (Throwing.Keeps.check _ _).bind fun _ =>
        (Throwing.Keeps.check _ _).bind fun _ => within_ask.bind fun a => ?_
      refine .ite ((hmodify _).bind fun _ => .pure _)
        (.ite ?_ (.ite ?_ (.ite ?_ (.ite (.fail _) ?_))))
      · refine (hmodify _).bind fun _ => Throwing.Keeps.bind ?_ fun _ => .pure _
        exact keeps_fuel.bind fun n => (within_resetLoop i n).bind fun _ =>
          within_tell.bind fun _ => hmodify _
      · exact within_ask.bind fun _ => .ite ih (.fail _)
      · exact within_ask.bind fun _ => .fail _
      · exact (within_errorMessage _ _).bind fun _ => .halt (fun _ _ => trivial) _

theorem within_advanceLoop (i : StatementID) (n : Nat) :
    Throwing.Keeps (Within c s) Anywhere (advanceLoop i n : SQLite ρ (Option ρ)) := by
  induction n with
  | zero => exact .halt (fun _ _ => trivial) _
  | succ n ih =>
      refine within_ask.bind fun a => .ite (.pure _) (.ite (.pure _) (.ite ?_ ?_))
      · exact within_ask.bind fun _ => .ite ih (.fail _)
      · exact (within_errorMessage _ _).bind fun _ => .halt (fun _ _ => trivial) _

theorem within_rowLoop (i : StatementID) (resultMap : ρ → Except Str (Option τ)) (n : Nat) :
    Throwing.Keeps (Within c s) Anywhere (rowLoop i resultMap n) := by
  induction n with
  | zero => exact .halt (fun _ _ => trivial) _
  | succ n ih =>
      refine (keeps_fuel.bind fun n => within_advanceLoop i n).bind fun row => ?_
      cases row with
      | none => exact .pure _
      | some row =>
          refine within_tell.bind fun _ => ?_
          cases hmap : resultMap row with
          | error e => exact .fail _
          | ok value => exact ih.bind fun _ => .pure _

theorem within_executeOn (sql : Str) (bindings : List (Option SQLBindable))
    (dict : List (Str × Option SQLBindable)) (resultMap : ρ → Except Str (Option τ)) :
    Throwing.Keeps (Within c s) Anywhere (executeOn c sql bindings dict resultMap) := by
  intro t ht
  refine Throwing.Does.bind (within_prepare sql ht) ?_
  rintro i u ⟨hu, hi⟩
  have hbind : Throwing.Keeps (Within c s) Anywhere (bindArray (ρ := ρ) i bindings) :=
    .each fun _ _ => within_set i _ _
  have hdict : Throwing.Keeps (Within c s) Anywhere (bindDictionary (ρ := ρ) i dict) :=
    .each fun _ _ => within_ask.bind fun _ => within_set i _ _
  refine (hbind.bind fun _ => hdict.bind fun _ => (keeps_fuel.bind fun n =>
    within_executeStatementLoop hi n).bind fun rows => ?_) u hu
  exact .ite (keeps_fuel.bind fun n => within_rowLoop i resultMap n) (.pure _)

end

/-! ### Opening and closing -/

/-- The connection object is opened and not closed. -/
def IsOpen (s : SQLiteState ρ) (c : Nat) : Prop :=
  ∃ o, s.objects[c]? = some o ∧ o.isOpened = true ∧ o.isClosed = false

theorem Within.isOpen {d : Nat} (h : Within c s t) : IsOpen t d ↔ IsOpen s d := by
  unfold IsOpen
  by_cases hd : d = c
  · subst hd
    have hopened := h.opened
    have hclosed := h.closed
    cases hs : s.objects[d]? with
    | none =>
        rw [hs, Option.map_none, Option.map_eq_none_iff] at hopened
        simp [hopened]
    | some o =>
        rw [hs, Option.map_some, Option.map_eq_some_iff] at hopened
        obtain ⟨o', ho', heq⟩ := hopened
        rw [hs, ho', Option.map_some, Option.map_some, Option.some.injEq] at hclosed
        simp [ho', heq, hclosed]
  · rw [h.others d hd]

/-- The connection `c` was open, and is closed. -/
structure Closed (c : Nat) (s t : SQLiteState ρ) : Prop where
  connections : t.connections = s.connections
  length : t.objects.length = s.objects.length
  others : ∀ d, d ≠ c → t.objects[d]? = s.objects[d]?
  calls : s.calls <+: t.calls
  before : IsOpen s c
  after : ∃ o, t.objects[c]? = some o ∧ o.isClosed = true

theorem Closed.isOpen {d : Nat} (h : Closed c s t) : IsOpen t d ↔ IsOpen s d ∧ d ≠ c := by
  by_cases hd : d = c
  · subst hd
    obtain ⟨o, ho, hclosed⟩ := h.after
    simp [IsOpen, ho, hclosed]
  · simp [IsOpen, h.others d hd, hd]

/-- `P` holds if `sqlite3_close` never failed, also on the way from `s` to `t`. -/
def Provided (s t : SQLiteState ρ) (P : Prop) : Prop :=
  s.calls <+: t.calls ∧ (CloseAnswered t.calls → P)

theorem Provided.trans {P P' : Prop} (h : Provided s t P)
    (h' : P → Provided t u P') (hcalls : t.calls <+: u.calls) : Provided s u P' := by
  refine ⟨h.1.trans hcalls, fun hc => ?_⟩
  obtain ⟨more, hmore⟩ := hcalls
  exact (h' (h.2 (hmore ▸ hc).left)).2 hc

theorem assertOpened_opens (s : SQLiteState ρ) (c : Nat) :
    Throwing.Does (assertOpened c) s (fun _ t => t = s ∧ IsOpen s c)
      (fun _ t => t = s ∧ ¬ IsOpen s c) (fun _ => Anywhere) := by
  refine Throwing.Does.bind (object_does (Q := fun o u => u = s ∧ s.objects[c]? = some o)
    (fun o ho => ⟨rfl, ho⟩) trivial) ?_
  rintro o u ⟨rfl, ho⟩
  refine Throwing.Does.bind (.check (Q := fun _ v => v = u ∧ o.isOpened = true)
    (fun h => ⟨rfl, h⟩) fun h => ⟨rfl, ?_⟩) ?_
  · rintro ⟨o', ho', hopened, -⟩
    obtain rfl := Option.some.inj (ho.symm.trans ho')
    exact Bool.false_ne_true (h.symm.trans hopened)
  · rintro - v ⟨rfl, hopened⟩
    refine .check (fun h => ⟨rfl, o, ho, hopened, by simpa using h⟩) fun h => ⟨rfl, ?_⟩
    rintro ⟨o', ho', -, hclosed⟩
    obtain rfl := Option.some.inj (ho.symm.trans ho')
    simp [hclosed] at h

/-- Closing throws only at a connection that is not open, unless `sqlite3_close` fails. -/
theorem closeConnection_closes (s : SQLiteState ρ) (c : Nat) :
    Throwing.Does (closeConnection c) s (fun _ => Closed c s)
      (fun _ t => Provided s t (t = s ∧ ¬ IsOpen s c)) (fun _ => Anywhere) := by
  refine Throwing.Does.bind ((assertOpened_opens s c).weaken (fun _ _ h => h)
    (fun _ t h => ⟨h.1 ▸ List.prefix_refl _, fun _ => h⟩) (fun _ _ h => h)) ?_
  rintro - u ⟨rfl, hopen⟩
  refine Throwing.Does.bind (m := destroyAllStatements c) (M := fun _ => Within c u) ?_
    fun _ v hv => ?_
  · refine Throwing.Does.bind (object_does (Q := fun _ => Within c u) (fun _ _ => Within.refl c u)
      trivial) fun o v hv => Throwing.Does.each (fun index _ w hw => ?_) hv
    refine Throwing.Does.bind (.modify (Q := fun _ => Within c u)
      (hw.asked ⟨rfl, rfl, rfl⟩)) fun _ x hx => ?_
    exact .modify (hx.modify (by intro o; rfl) (by intro o; rfl))
  refine Throwing.Does.bind (waitWhileBusy_does (I := Within c u) (Q := fun a t =>
    Within c u t ∧ (a.status ≠ CSQLite3.SQLITE_OK → ¬ CloseAnswered t.calls))
    (fun w hw => ask_does (fun a t ha => ?_) trivial) (fun _ _ => trivial) hv) ?_
  · have ht := hw.asked ha
    refine ⟨fun _ => ht, fun hbusy => ⟨ht, fun hne hc => ?_⟩⟩
    rw [ha.calls] at hc
    have hanswer : closeAnswered (.sqlite3_close (ρ := ρ) c a.status) = true :=
      hc _ (List.mem_append_right _ (List.mem_singleton_self _))
    simp [closeAnswered, hne, hbusy] at hanswer
  · rintro a w ⟨hw, hbroken⟩
    split
    · next hne =>
        have hmessage := ((within_errorMessage c a.status).and
          ((keeps_broken_errorMessage c a.status).weakenHalt fun _ _ => trivial)) w
            ⟨hw, hbroken hne⟩
        have hthrown : ∀ x, Within c u x ∧ ¬ CloseAnswered x.calls →
            Provided u x (x = u ∧ ¬ IsOpen u c) :=
          fun x hx => ⟨hx.1.calls, fun hc => absurd hc hx.2⟩
        exact Throwing.Does.bind (hmessage.weaken (fun _ _ h => h) (fun _ x h => hthrown x h)
          (fun _ _ _ => trivial)) fun _ x hx => .fail (hthrown x hx)
    · obtain ⟨o, ho, -, -⟩ := hw.isOpen.mpr hopen
      exact .modify ⟨hw.connections, by rw [List.length_modify, hw.length],
        fun d hd => by simpa [Ne.symm hd] using hw.others d hd, hw.calls, hopen,
        _, getElem?_modify_self _ ho, rfl⟩

/-- Neither objects nor lists change. -/
structure Same (s t : SQLiteState ρ) : Prop where
  objects : t.objects = s.objects
  connections : t.connections = s.connections
  calls : s.calls <+: t.calls

theorem Same.refl (s : SQLiteState ρ) : Same s s := ⟨rfl, rfl, List.prefix_refl _⟩

theorem Same.isOpen {d : Nat} (h : Same s t) : IsOpen t d ↔ IsOpen s d := by
  unfold IsOpen
  rw [h.objects]

theorem same_ask {mk : SQLiteAnswer ρ → SQLiteCall ρ} : Throwing.Keeps (Same s) Anywhere (ask mk) :=
  fun _ hs => ask_does (fun _ _ ha => ⟨ha.objects.trans hs.objects,
    ha.connections.trans hs.connections, hs.calls.trans ha.calls_prefix⟩) trivial

theorem same_fileManager (function : String) :
    Throwing.Keeps (Same s) Anywhere (fileManager function : SQLite ρ Bool) :=
  same_ask.bind fun _ => .ite (.fail _) (.pure _)

theorem same_buildURL : Throwing.Keeps (Same s) Anywhere (buildURL : SQLite ρ Unit) := by
  have hset : Throwing.Keeps (Same s) Anywhere
      (Throwing.modify fun s => { s with hasURL := true } : SQLite ρ Unit) :=
    .modify fun _ hs => ⟨hs.objects, hs.connections, hs.calls⟩
  refine Throwing.Keeps.get.bind fun _ => .ite (.pure _) ?_
  refine (same_fileManager _).bind fun _ => same_ask.bind fun _ => (Throwing.Keeps.check _ _).bind
    fun _ => same_ask.bind fun _ => ?_
  exact .ite ((same_fileManager _).bind fun _ => hset) hset

/-- A connection was made: one that is open, or one that never will be. -/
def Made (isOpened : Bool) (s t : SQLiteState ρ) : Prop :=
  s.calls <+: t.calls ∧ t.objects = s.objects ++ [⟨isOpened, false, []⟩]

/-- `connection()` retains the connection it made and opened. -/
theorem connection_opens (thread : Nat) (s : SQLiteState ρ) :
    Throwing.Does (connection thread) s
      (fun c t => c = s.objects.length ∧ Made true s t ∧
        t.connections = Function.update s.connections thread (s.connections thread ++ [c]))
      (fun _ t => Same s t ∨ t.connections = s.connections ∧ Made false s t)
      (fun _ => Anywhere) := by
  have hsame : ∀ {α : Type} {m : SQLite ρ α} {t : SQLiteState ρ},
      Throwing.Keeps (Same s) Anywhere m →
      Same s t → Throwing.Does m t (fun _ => Same s)
        (fun _ u => Same s u ∨ u.connections = s.connections ∧ Made false s u)
        (fun _ => Anywhere) := fun hm ht =>
    (hm _ ht).weaken (fun _ _ h => h) (fun _ _ h => .inl h) (fun _ _ h => h)
  refine Throwing.Does.bind (hsame same_buildURL (Same.refl s)) fun _ t ht => ?_
  refine Throwing.Does.bind (hsame same_ask ht) fun _ t ht => ?_
  refine Throwing.Does.bind (hsame (.check _ _) ht) fun _ t ht => ?_
  refine Throwing.Does.bind (hsame .get ht) fun _ t ht => ?_
  refine Throwing.Does.bind (hsame (.check _ _) ht) fun _ t ht => ?_
  -- From here on there is an object, and it is the last one.
  let I (t : SQLiteState ρ) : Prop := t.connections = s.connections ∧ Made false s t
  have hmake : makeConnection t =
      (.returned t.objects.length, { t with objects := t.objects ++ [{}] }) := rfl
  refine Throwing.Does.bind (.of_returned (Q := fun c u => c = s.objects.length ∧ I u) hmake
    ⟨by rw [ht.objects], ht.connections, ht.calls, ?_⟩) ?_
  · show t.objects ++ [⟨false, false, []⟩] = _
    rw [ht.objects]
  rintro c u ⟨rfl, hu⟩
  have hkeeps : ∀ {α : Type} {m : SQLite ρ α} {t : SQLiteState ρ}, Throwing.Keeps I Anywhere m →
      I t → Throwing.Does m t (fun _ => I)
        (fun _ u => Same s u ∨ u.connections = s.connections ∧ Made false s u)
        (fun _ => Anywhere) := fun hm ht =>
    (hm _ ht).weaken (fun _ _ h => h) (fun _ _ h => .inr h) (fun _ _ h => h)
  have hask : ∀ {mk : SQLiteAnswer ρ → SQLiteCall ρ}, Throwing.Keeps I Anywhere (ask mk) :=
    fun _ hs => ask_does (fun _ _ ha => ⟨ha.connections.trans hs.1, hs.2.1.trans ha.calls_prefix,
      ha.objects.trans hs.2.2⟩) trivial
  have hopen : Throwing.Does (openConnection s.objects.length) u
      (fun _ v => v.connections = s.connections ∧ Made true s v)
      (fun _ v => Same s v ∨ v.connections = s.connections ∧ Made false s v)
      (fun _ => Anywhere) := by
    refine Throwing.Does.bind (hkeeps (keeps_object _) hu) fun o v hv => ?_
    refine Throwing.Does.bind (hkeeps (.check _ _) hv) fun _ v hv => ?_
    refine Throwing.Does.bind (waitWhileBusy_does (I := I) (Q := fun _ => I) (fun w hw =>
      (hask w hw).weaken (fun _ _ h => ⟨fun _ => h, fun _ => h⟩) (fun _ _ h => .inr h)
        (fun _ _ h => h)) (fun _ _ => trivial) hv) fun a w hw => ?_
    split
    · exact Throwing.Does.bind (hkeeps (hask.bind fun _ => .pure _) hw)
        fun _ _ hx => .fail (.inr hx)
    · refine Throwing.Does.bind (hkeeps (.check _ _) hw) fun _ x hx =>
        .modify ⟨hx.1, hx.2.1, ?_⟩
      show x.objects.modify _ _ = _
      rw [hx.2.2, List.modify_eq_take_cons_drop (by simp)]
      simp
  refine Throwing.Does.bind hopen ?_
  rintro - v ⟨hconnections, hmade⟩
  refine Throwing.Does.bind (.modify (Q := fun _ w => Made true s w ∧ w.connections =
    Function.update s.connections thread (s.connections thread ++ [s.objects.length]))
      ⟨hmade, ?_⟩) ?_
  · rw [hconnections]
  · rintro - w ⟨hmade, hconnections⟩
    exact .pure ⟨rfl, hmade, hconnections⟩

/-- Closing on a thread, from a state where the connection is open. -/
theorem close_closes (thread : Nat) (s : SQLiteState ρ) (c : Nat) :
    Throwing.Does (close thread c) s
      (fun _ t => Closed c s { t with connections := s.connections } ∧ t.connections =
        Function.update s.connections thread ((s.connections thread).erase c))
      (fun _ t => Provided s t (t = s ∧ ¬ IsOpen s c)) (fun _ => Anywhere) := by
  refine Throwing.Does.bind (closeConnection_closes s c) fun _ t ht => .modify ⟨?_, ?_⟩
  · exact ⟨rfl, ht.length, ht.others, ht.calls, ht.before, ht.after⟩
  · show Function.update t.connections thread _ = _
    rw [ht.connections]

/-- The lists are as before, and so are the objects, up to new ones that are not open. -/
structure Restored (s t : SQLiteState ρ) : Prop where
  connections : t.connections = s.connections
  objects : ∃ news, t.objects = s.objects ++ news ∧
    ∀ o ∈ news, o.isOpened = true → o.isClosed = true

theorem Restored.isOpen {d : Nat} (h : Restored s t) : IsOpen t d ↔ IsOpen s d := by
  obtain ⟨news, hnews, hclosed⟩ := h.objects
  unfold IsOpen
  rw [hnews, List.getElem?_append]
  split
  · rfl
  · next hlt =>
      constructor
      · intro h
        obtain ⟨o, ho, hopened, hnot⟩ := h
        rw [hclosed o (List.mem_of_getElem? ho) hopened] at hnot
        cases hnot
      · intro h
        obtain ⟨o, ho, -⟩ := h
        exact absurd (List.getElem?_eq_some_iff.mp ho).1 hlt

/-- However `Database.execute` ends for its caller, the connection it opened is closed. -/
theorem execute_restores (thread : Nat) (sql : Str) (bindings : List (Option SQLBindable))
    (dict : List (Str × Option SQLBindable)) (resultMap : ρ → Except Str (Option τ))
    (s : SQLiteState ρ) :
    Throwing.Does (execute thread sql bindings dict resultMap) s
      (fun _ t => Provided s t (s.objects.length ∉ s.connections thread → Restored s t))
      (fun _ t => Provided s t (s.objects.length ∉ s.connections thread → Restored s t))
      (fun _ => Anywhere) := by
  refine Throwing.Does.bind ((connection_opens thread s).weaken (fun _ _ h => h)
    (fun _ t h => ?_) (fun _ _ h => h)) ?_
  · rcases h with hsame | ⟨hlists, hcalls, hobjects⟩
    · exact ⟨hsame.calls, fun _ _ => ⟨hsame.connections, [], by rw [hsame.objects, List.append_nil],
        nofun⟩⟩
    · exact ⟨hcalls, fun _ _ => ⟨hlists, _, hobjects, by simp⟩⟩
  · rintro c u ⟨rfl, ⟨hcalls, hmade⟩, hconnections⟩
    have hopen : IsOpen u s.objects.length := ⟨⟨true, false, []⟩, by rw [hmade]; simp, rfl, rfl⟩
    have hclose : ∀ v, Within s.objects.length u v → Throwing.Does
        (Throwing.attempt (close thread s.objects.length)) v
        (fun _ w => Provided s w (s.objects.length ∉ s.connections thread → Restored s w))
        (fun _ w => Provided s w (s.objects.length ∉ s.connections thread → Restored s w))
        (fun _ => Anywhere) := by
      intro v hv
      refine (close_closes thread v s.objects.length).attempt ?_ ?_
      · rintro - w ⟨hclosed, hlists⟩
        refine ⟨hcalls.trans (hv.calls.trans hclosed.calls), fun _ hfresh => ?_⟩
        have hothers : ∀ d, d ≠ s.objects.length → w.objects[d]? = u.objects[d]? :=
          fun d hd => (hclosed.others d hd).trans (hv.others d hd)
        have hlength : w.objects.length = s.objects.length + 1 := by
          rw [show w.objects.length = v.objects.length from hclosed.length, hv.length, hmade]
          simp
        obtain ⟨o, ho, ho'⟩ := hclosed.after
        refine ⟨?_, [o], List.ext_getElem? fun d => ?_, by simpa using fun _ => ho'⟩
        · rw [hlists, hv.connections, hconnections, Function.update_self, Function.update_idem,
            List.erase_append_right _ hfresh]
          simp
        · rw [List.getElem?_append]
          split
          · next hd =>
              rw [hothers d (Nat.ne_of_lt hd), hmade, List.getElem?_append_left hd]
          · next hd =>
              by_cases heq : d = s.objects.length
              · subst heq
                simpa using ho
              · rw [List.getElem?_eq_none (by omega), List.getElem?_eq_none (by simp; omega)]
      · intro e w hw
        refine ⟨hcalls.trans (hv.calls.trans hw.1), fun hc _ => ?_⟩
        obtain ⟨rfl, hnot⟩ := hw.2 hc
        exact absurd (hv.isOpen.mpr hopen) hnot
    exact ((within_executeOn sql bindings dict resultMap) u (Within.refl _ _)).deferring
      (fun _ v hv => hclose v hv) (fun _ v hv => hclose v hv)

/-! ### The lists -/

/-- Each open connection is in the list of one thread, once, and the lists have no others. -/
structure Listed (s : SQLiteState ρ) : Prop where
  nodup : ∀ thread, (s.connections thread).Nodup
  apart : ∀ thread thread' c, c ∈ s.connections thread → c ∈ s.connections thread' →
    thread = thread'
  isOpen_iff : ∀ c, IsOpen s c ↔ ∃ thread, c ∈ s.connections thread

theorem Listed.congr (h : Listed s) (hconnections : t.connections = s.connections)
    (hopen : ∀ c, IsOpen t c ↔ IsOpen s c) : Listed t := by
  obtain ⟨hnodup, hapart, hiff⟩ := h
  refine ⟨?_, ?_, fun c => (hopen c).trans ?_⟩
  all_goals rw [hconnections]
  · exact hnodup
  · exact hapart
  · exact hiff c

/-- A number that no object has yet is in no list. -/
theorem Listed.fresh (h : Listed s) (thread : Nat) : s.objects.length ∉ s.connections thread := by
  intro hmem
  obtain ⟨o, ho, -⟩ := (h.isOpen_iff _).mpr ⟨thread, hmem⟩
  exact absurd (List.getElem?_eq_some_iff.mp ho).1 (Nat.lt_irrefl _)

theorem Listed.opened {thread : Nat} (h : Listed s) (hmade : Made true s t)
    (hconnections : t.connections = Function.update s.connections thread
      (s.connections thread ++ [s.objects.length])) : Listed t := by
  have hopen : ∀ c, IsOpen t c ↔ IsOpen s c ∨ c = s.objects.length := by
    intro c
    unfold IsOpen
    rw [hmade.2, List.getElem?_append]
    split
    · next hlt => simp [Nat.ne_of_lt hlt]
    · next hlt =>
        have hnone : s.objects[c]? = none := List.getElem?_eq_none (Nat.le_of_not_lt hlt)
        by_cases hc : c = s.objects.length
        · subst hc
          simp
        · rw [List.getElem?_eq_none (by simp; omega)]
          simp [hnone, hc]
  have hmem : ∀ th c, c ∈ t.connections th ↔
      c ∈ s.connections th ∨ (th = thread ∧ c = s.objects.length) := by
    intro th c
    rw [hconnections]
    by_cases hth : th = thread
    · subst hth
      simp
    · simp [hth]
  refine ⟨fun th => ?_, fun th th' c hc hc' => ?_, fun c => ?_⟩
  · rw [hconnections]
    by_cases hth : th = thread
    · subst hth
      rw [Function.update_self]
      exact List.Nodup.append (h.nodup th) (List.nodup_singleton _) (by simpa using h.fresh th)
    · rw [Function.update_of_ne hth]
      exact h.nodup th
  · rcases (hmem th c).mp hc with hc | ⟨rfl, rfl⟩
    · rcases (hmem th' c).mp hc' with hc' | ⟨rfl, rfl⟩
      · exact h.apart th th' c hc hc'
      · exact absurd hc (h.fresh th)
    · rcases (hmem th' _).mp hc' with hc' | ⟨rfl, -⟩
      · exact absurd hc' (h.fresh th')
      · rfl
  · rw [hopen, h.isOpen_iff]
    constructor
    · rintro (⟨th, hc⟩ | rfl)
      · exact ⟨th, (hmem th c).mpr (.inl hc)⟩
      · exact ⟨thread, (hmem thread _).mpr (.inr ⟨rfl, rfl⟩)⟩
    · intro hc
      obtain ⟨th, hc⟩ := hc
      exact ((hmem th c).mp hc).imp (fun hc => ⟨th, hc⟩) (·.2)

theorem Listed.closed {thread : Nat} (h : Listed s) (hc : c ∈ s.connections thread)
    (hclosed : Closed c s { t with connections := s.connections })
    (hconnections : t.connections = Function.update s.connections thread
      ((s.connections thread).erase c)) : Listed t := by
  have hopen : ∀ d, IsOpen t d ↔ IsOpen s d ∧ d ≠ c := fun d => hclosed.isOpen
  have hmem : ∀ th d, d ∈ t.connections th ↔ d ∈ s.connections th ∧ d ≠ c := by
    intro th d
    rw [hconnections]
    by_cases hth : th = thread
    · subst hth
      rw [Function.update_self, (h.nodup th).mem_erase_iff, and_comm]
    · rw [Function.update_of_ne hth]
      refine (and_iff_left_of_imp fun hd hdc => hth ?_).symm
      exact h.apart th thread c (hdc ▸ hd) hc
  refine ⟨fun th => ?_, fun th th' d hd hd' => ?_, fun d => ?_⟩
  · rw [hconnections]
    by_cases hth : th = thread
    · subst hth
      rw [Function.update_self]
      exact (h.nodup th).erase c
    · rw [Function.update_of_ne hth]
      exact h.nodup th
  · exact h.apart th th' d ((hmem th d).mp hd).1 ((hmem th' d).mp hd').1
  · rw [hopen, h.isOpen_iff]
    simp only [hmem, exists_and_right]

/-- A thread has no connection any more, the other threads have theirs. -/
structure Destroyed (thread : Nat) (s t : SQLiteState ρ) : Prop where
  connections : t.connections = Function.update s.connections thread []
  isOpen : ∀ d, IsOpen t d ↔ IsOpen s d ∧ d ∉ s.connections thread

theorem Listed.destroyed {thread : Nat} (h : Listed s) (ht : Destroyed thread s t) : Listed t := by
  have hmem : ∀ th d, d ∈ t.connections th ↔ d ∈ s.connections th ∧ th ≠ thread := by
    intro th d
    rw [ht.connections]
    by_cases hth : th = thread
    · subst hth
      simp
    · simp [hth]
  refine ⟨fun th => ?_, fun th th' d hd hd' => ?_, fun d => ?_⟩
  · rw [ht.connections]
    by_cases hth : th = thread
    · subst hth
      simp
    · rw [Function.update_of_ne hth]
      exact h.nodup th
  · exact h.apart th th' d ((hmem th d).mp hd).1 ((hmem th' d).mp hd').1
  · rw [ht.isOpen, h.isOpen_iff]
    constructor
    · rintro ⟨⟨th, hd⟩, hnot⟩
      exact ⟨th, (hmem th d).mpr ⟨hd, fun heq => hnot (heq ▸ hd)⟩⟩
    · intro hd
      obtain ⟨th, hd⟩ := hd
      obtain ⟨hd, hth⟩ := (hmem th d).mp hd
      exact ⟨⟨th, hd⟩, fun hd' => hth (h.apart th thread d hd hd')⟩

/-- The connections of `s` on a thread are closed one after the other; `done` of them are. -/
theorem each_closes {thread : Nat} (left done : List Nat)
    (hsplit : done ++ left = s.connections thread) {u : SQLiteState ρ}
    (hcalls : s.calls <+: u.calls) (hconnections : u.connections = s.connections)
    (hopen : ∀ d, IsOpen u d ↔ IsOpen s d ∧ d ∉ done) :
    Throwing.Does (Throwing.each closeConnection left) u
      (fun _ t => s.calls <+: t.calls ∧ t.connections = s.connections ∧
        ∀ d, IsOpen t d ↔ IsOpen s d ∧ d ∉ s.connections thread)
      (fun _ t => Provided s t (¬ Listed s)) (fun _ => Anywhere) := by
  induction left generalizing done u with
  | nil =>
      rw [List.append_nil] at hsplit
      exact .pure ⟨hcalls, hconnections, hsplit ▸ hopen⟩
  | cons c left ih =>
      have hfirst := (closeConnection_closes u c).weaken (fun _ _ h => h)
        (fun _ t (h : Provided u t _) => (⟨hcalls.trans h.1, fun hc hlisted => ?_⟩ :
          Provided s t (¬ Listed s))) (fun _ _ h => h)
      · refine Throwing.Does.bind (f := fun _ => Throwing.each closeConnection left) hfirst
          fun _ v hv => ?_
        refine ih (done ++ [c]) (by rw [← hsplit, List.append_assoc, List.singleton_append])
          (hcalls.trans hv.calls) (hv.connections.trans hconnections) fun d => ?_
        rw [hv.isOpen, hopen]
        simp only [List.mem_append, List.mem_singleton, not_or, and_assoc]
      · -- The connection is in the list of the thread, so it was open.
        have hmem : c ∈ s.connections thread := hsplit ▸ List.mem_append_right _ List.mem_cons_self
        have hnodup : (done ++ c :: left).Nodup := hsplit ▸ hlisted.nodup thread
        have hnot : c ∉ done := fun hc =>
          (List.nodup_append.mp hnodup).2.2 c hc c List.mem_cons_self rfl
        exact (h.2 hc).2 ((hopen c).mpr ⟨(hlisted.isOpen_iff c).mpr ⟨thread, hmem⟩, hnot⟩)

/-- What `destroy()` leaves behind, also when removing the file fails. -/
theorem destroy_closes (thread : Nat) (s : SQLiteState ρ) :
    Throwing.Does (destroy thread) s
      (fun _ t => Provided s t (Listed s → Destroyed thread s t))
      (fun _ t => Provided s t (Listed s → Destroyed thread s t)) (fun _ => Anywhere) := by
  refine Throwing.Does.bind (.get (Q := fun a t => a = s ∧ t = s) ⟨rfl, rfl⟩) ?_
  rintro a t ⟨ha, ht⟩
  rw [ha, ht]
  refine Throwing.Does.bind ((each_closes (s.connections thread) [] rfl (List.prefix_refl _) rfl
    (by simp)).weaken (fun _ _ h => h) (fun _ t h => ⟨h.1, fun hc hl => absurd hl (h.2 hc)⟩)
      (fun _ _ h => h)) ?_
  rintro - u ⟨hcalls, hconnections, hopen⟩
  refine Throwing.Does.bind (.modify (Q := fun _ v => s.calls <+: v.calls ∧ Destroyed thread s v)
    ⟨hcalls, ?_, hopen⟩) ?_
  · rw [hconnections]
  rintro - v ⟨hcalls, hv⟩
  have hend : ∀ w, Same v w → Provided s w (Listed s → Destroyed thread s w) := fun w h =>
    ⟨hcalls.trans h.calls, fun _ _ => ⟨h.connections.trans hv.connections,
      fun d => h.isOpen.trans (hv.isOpen d)⟩⟩
  have hrest : Throwing.Keeps (Same v) Anywhere (do
      Throwing.attempt buildURL
      let s ← Throwing.get
      if s.hasURL then
        let a ← ask fun _ => .fileManager "fileExists"
        if a.handle then
          let _ ← fileManager "removeItem"
      else return () : SQLite ρ Unit) :=
    same_buildURL.attempt.bind fun _ => Throwing.Keeps.get.bind fun _ => .ite
      (same_ask.bind fun _ => .ite ((same_fileManager _).bind fun _ => .pure _) (.pure _)) (.pure _)
  exact (hrest v (Same.refl v)).weaken (fun _ w h => hend w h) (fun _ w h => hend w h)
    (fun _ _ h => h)

/-! ### Runs -/

/-- Whether a connection is open. -/
def isOpen (s : SQLiteState ρ) (c : Nat) : Bool :=
  s.objects[c]?.any fun o => o.isOpened && !o.isClosed

theorem isOpen_iff : isOpen s c = true ↔ IsOpen s c := by
  unfold isOpen IsOpen
  cases s.objects[c]? with
  | none => simp
  | some o => simp

/-- A connection that is open is closed by the thread that opened it. -/
def closesOwn (p : SQLiteProcess ρ) : SQLiteAction ρ τ → Bool
  | .close thread c =>
      p.halted || !isOpen p.state c || decide (c ∈ p.state.connections thread)
  | _ => true

/-- The programs this is about. -/
def disciplined (p : SQLiteProcess ρ) (a : SQLiteAction ρ τ) : Bool :=
  keepsOpen p a && closesOwn p a

theorem does_of_within {α : Type} {m : SQLite ρ α} (hm : Throwing.Keeps (Within c s) Anywhere m) :
    Throwing.Does m s (fun _ t => Provided s t (Listed s → Listed t))
      (fun _ t => Provided s t (Listed s → Listed t)) (fun _ => Anywhere) := by
  have hlisted : ∀ t, Within c s t → Provided s t (Listed s → Listed t) := fun t h =>
    ⟨h.calls, fun _ hs => hs.congr h.connections fun _ => h.isOpen⟩
  exact (hm s (Within.refl c s)).weaken (fun _ t h => hlisted t h) (fun _ t h => hlisted t h)
    (fun _ _ h => h)

theorem does_run {α : Type} {m : SQLite ρ α} {P : SQLiteState ρ → Prop}
    (hm : Throwing.Does m s (fun _ => P) (fun _ => P) (fun _ => Anywhere)) :
    Throwing.Does (run m) s (fun _ => P) (fun _ => P) (fun _ => Anywhere) :=
  hm.bind fun _ _ h => .pure h

/-- What one call does to the lists. -/
theorem perform_lists {a : SQLiteAction ρ τ} {p : SQLiteProcess ρ} (hrunning : p.halted = false)
    (ha : closesOwn p a = true) :
    Throwing.Does (perform a) p.state
      (fun _ t => Provided p.state t (Listed p.state → Listed t))
      (fun _ t => Provided p.state t (Listed p.state → Listed t)) (fun _ => Anywhere) := by
  have hsame : ∀ t, Same p.state t → Provided p.state t (Listed p.state → Listed t) := fun t h =>
    ⟨h.calls, fun _ hs => hs.congr h.connections fun _ => h.isOpen⟩
  cases a with
  | create =>
      have hcreate : Throwing.Keeps (Same p.state) Anywhere (create (ρ := ρ)) :=
        same_buildURL.bind fun _ => same_ask.bind fun _ => (Throwing.Keeps.check _ _).bind fun _ =>
          same_ask.bind fun _ => .ite (.fail _) (.pure _)
      exact (hcreate p.state (Same.refl _)).weaken (fun _ t h => hsame t h) (fun _ t h => hsame t h)
        (fun _ _ h => h)
  | connection thread =>
      refine does_run ((connection_opens thread p.state).weaken ?_ ?_ (fun _ _ h => h))
      · rintro c t ⟨rfl, hmade, hconnections⟩
        exact ⟨hmade.1, fun _ hs => hs.opened hmade hconnections⟩
      · rintro e t (hs | ⟨hconnections, hcalls, hobjects⟩)
        · exact hsame t hs
        · have hrestored : Restored p.state t := ⟨hconnections, _, hobjects, by simp⟩
          exact ⟨hcalls, fun _ hs => hs.congr hconnections fun _ => hrestored.isOpen⟩
  | close thread c =>
      refine (close_closes thread p.state c).weaken ?_ ?_ (fun _ _ h => h)
      · rintro - t ⟨hclosed, hconnections⟩
        refine ⟨hclosed.calls, fun _ hs => hs.closed ?_ hclosed hconnections⟩
        have hopen : isOpen p.state c = true := isOpen_iff.mpr hclosed.before
        simpa [closesOwn, hrunning, hopen] using ha
      · rintro e t ⟨hcalls, hthrown⟩
        exact ⟨hcalls, fun hc hs => (hthrown hc).1 ▸ hs⟩
  | destroy thread =>
      exact (destroy_closes thread p.state).weaken
        (fun _ t h => ⟨h.1, fun hc hs => hs.destroyed (h.2 hc hs)⟩)
        (fun _ t h => ⟨h.1, fun hc hs => hs.destroyed (h.2 hc hs)⟩) (fun _ _ h => h)
  | execute thread sql bindings dict resultMap =>
      have hlisted : ∀ t, Provided p.state t
          (p.state.objects.length ∉ p.state.connections thread → Restored p.state t) →
          Provided p.state t (Listed p.state → Listed t) := fun t h => ⟨h.1, fun hc hs => by
        have hrestored := h.2 hc (hs.fresh thread)
        exact hs.congr hrestored.connections fun _ => hrestored.isOpen⟩
      exact does_run ((execute_restores thread sql bindings dict resultMap p.state).weaken
        (fun _ t h => hlisted t h) (fun _ t h => hlisted t h) (fun _ _ h => h))
  | prepare c sql =>
      have hprepare : Throwing.Keeps (Within c p.state) Anywhere (prepare (ρ := ρ) c sql) :=
        fun t ht => (within_prepare sql ht).weaken (fun _ _ h => h.1) (fun _ _ h => h)
          (fun _ _ h => h)
      exact does_run (does_of_within hprepare)
  | connectionErrorMessage c =>
      exact does_run (does_of_within (c := c) ((keeps_object c).bind fun _ =>
        .ite (within_ask.bind fun _ => .pure _) (.pure _)))
  | set i value index => exact does_of_within (c := i.connection) (within_set i _ _)
  | setForKey i value key =>
      exact does_of_within (c := i.connection) (within_ask.bind fun _ => within_set i _ _)
  | executeStatement i =>
      exact does_run (does_of_within (keeps_fuel.bind fun n => within_executeStatementLoop rfl n))
  | advanceToNextRow i =>
      refine does_of_within (c := i.connection)
        ((keeps_statementObject i).bind fun _ => .ite ?_ (.pure _))
      exact (keeps_fuel.bind fun n => within_advanceLoop i n).bind fun _ => .pure _

/-- The invariant of a process. -/
def ProcessListed (p : SQLiteProcess ρ) : Prop :=
  p.halted = false → CloseAnswered p.state.calls → Listed p.state

theorem processListed_step {p q : SQLiteProcess ρ} {a : SQLiteAction ρ τ}
    (ha : closesOwn p a = true) (hp : ProcessListed p) (hstep : step p a = .ok q) :
    ProcessListed q := by
  unfold step at hstep
  cases hrunning : p.halted with
  | true =>
      rw [hrunning, if_pos rfl, Except.ok.injEq] at hstep
      exact hstep ▸ hp
  | false =>
      rw [hrunning, if_neg Bool.false_ne_true] at hstep
      have hdoes := perform_lists hrunning ha
      have hend : ∀ t, Provided p.state t (Listed p.state → Listed t) →
          ProcessListed ⟨t, false⟩ := by
        rintro t ⟨⟨more, hmore⟩, hlisted⟩ - hc
        exact hlisted hc (hp hrunning (CloseAnswered.left (hmore ▸ hc)))
      rcases hm : perform a p.state with ⟨o, t⟩
      rw [hm] at hstep
      cases o with
      | returned _ =>
          obtain rfl := Except.ok.inj hstep
          exact hend t (hdoes.returns _ t hm)
      | threw e =>
          obtain rfl := Except.ok.inj hstep
          exact hend t (hdoes.throws e t hm)
      | halted x =>
          obtain rfl := Except.ok.inj hstep
          exact nofun

theorem listed_start (versions : SQLiteVersions) (answers : List (SQLiteAnswer ρ)) :
    Listed (start versions answers).state where
  nodup _ := List.nodup_nil
  apart _ _ _ h := absurd h List.not_mem_nil
  isOpen_iff _ := by
    constructor
    · intro h
      obtain ⟨o, ho, -⟩ := h
      cases ho
    · intro h
      obtain ⟨thread, hc⟩ := h
      cases hc

section

variable {versions : SQLiteVersions} {answers : List (SQLiteAnswer ρ)}
  {as : List (SQLiteAction ρ τ)} {p : SQLiteProcess ρ}

/-- A disciplined program reaches sound states with their connections in the lists. -/
theorem reached
    (hall : Transition.Allowed step (fun p a => disciplined p a = true) (start versions answers) as)
    (hrun : Transition.run step (start versions answers) as = .ok p) :
    ProcessSound p ∧ ProcessListed p := by
  have hsound := sound_start versions answers
  refine Transition.run_invariant_of_allowed (I := fun p => ProcessSound p ∧ ProcessListed p)
    (fun p a q ha hp hstep => ?_) ⟨⟨hsound.legal, fun _ => hsound⟩, fun _ _ => listed_start _ _⟩
    hall hrun
  obtain ⟨hkeeps, hcloses⟩ := Bool.and_eq_true_iff.mp ha
  exact ⟨processSound_step hkeeps hp.1 hstep, processListed_step hcloses hp.2 hstep⟩

end

end SQLite

end MultisigWallet
