import MultisigWallet.Lib.Transition
import MultisigWallet.TransactionDomain

/-!
# MultisigWallet.TransactionDomainSound

Which passes over the pending transactions are announced. A pass that comes to its end announces
whatever it saved. A pass that the node's error ends announces nothing, and what it saved before
is not pending any more: no later pass looks at it.

`Processed` is what a pass did to the repositories, `updateEach_cases` what there is to know of
the loop; the rest is read off these two.
-/

namespace MultisigWallet

namespace NodeAnswer

/-- One of the two calls throws. -/
def fails : NodeAnswer → Bool
  | ⟨none, _⟩ => true
  | ⟨some none, _⟩ => false
  | ⟨some (some _), block⟩ => block.isNone

/-- The transaction has a receipt and the receipt's block was got. -/
def mined : NodeAnswer → Bool
  | ⟨some (some _), some _⟩ => true
  | _ => false

/-- There is no receipt yet. -/
def absent : NodeAnswer := ⟨some none, some none⟩

end NodeAnswer

namespace TransactionDomainService

variable {r r' : Repositories} {tx : Transaction} {id : TransactionID}

/-- The status of a transaction that was mined. -/
def Final (tx : Transaction) : Prop := tx.status = .success ∨ tx.status = .failed

/-! ### What a pass saves -/

/-- The transactions `done` were saved one after the other, each with its final status. -/
inductive Processed : List Transaction → Repositories → Repositories → Prop
  | nil (r : Repositories) : Processed [] r r
  | cons {x x' : Transaction} {done : List Transaction} {r r' : Repositories} (hid : x'.id = x.id)
      (hfinal : Final x') (hrest : Processed done (r.save x') r') : Processed (x :: done) r r'

theorem mem_save : tx ∈ (r.save x).transactions ↔ (tx ∈ r.transactions ∧ tx.id ≠ x.id) ∨ tx = x := by
  simp [Repositories.save]

theorem ids_save {x : Transaction} (h : (r.transactions.map (·.id)).Nodup) :
    ((r.save x).transactions.map (·.id)).Nodup :=
  Rows.nodup_replaced Transaction.id h rfl

variable {done : List Transaction}

theorem Processed.ids (hp : Processed done r r') (h : (r.transactions.map (·.id)).Nodup) :
    (r'.transactions.map (·.id)).Nodup := by
  induction hp with
  | nil => exact h
  | cons _ _ _ ih => exact ih (ids_save h)

/-- What is not new was there before. -/
theorem Processed.mem (hp : Processed done r r') (h : tx ∈ r'.transactions) :
    tx ∈ r.transactions ∨ (done ≠ [] ∧ Final tx) := by
  induction hp with
  | nil => exact .inl h
  | cons hid hfinal _ ih =>
      rcases ih h with hold | ⟨-, hnew⟩
      · rcases mem_save.mp hold with ⟨hold, -⟩ | rfl
        · exact .inl hold
        · exact .inr ⟨List.cons_ne_nil _ _, hfinal⟩
      · exact .inr ⟨List.cons_ne_nil _ _, hnew⟩

/-- A final status stays. -/
theorem Processed.final (hp : Processed done r r') (h : ∃ tx ∈ r.transactions, tx.id = id ∧ Final tx) :
    ∃ tx ∈ r'.transactions, tx.id = id ∧ Final tx := by
  induction hp with
  | nil => exact h
  | @cons x x' _ _ _ hid hfinal _ ih =>
      refine ih ?_
      obtain ⟨tx, htx, htxId, htxFinal⟩ := h
      by_cases heq : tx.id = x'.id
      · exact ⟨x', mem_save.mpr (.inr rfl), heq.symm.trans htxId, hfinal⟩
      · exact ⟨tx, mem_save.mpr (.inl ⟨htx, heq⟩), htxId, htxFinal⟩

theorem Processed.exists_final (hp : Processed done r r') (h : tx ∈ done) :
    ∃ tx' ∈ r'.transactions, tx'.id = tx.id ∧ Final tx' := by
  induction hp with
  | nil => cases h
  | @cons x x' _ _ _ hid hfinal hrest ih =>
      rcases List.mem_cons.mp h with rfl | h
      · exact hrest.final ⟨x', mem_save.mpr (.inr rfl), hid, hfinal⟩
      · exact ih h

/-! ### The loop -/

theorem succeed_ok {tx' : Transaction} {d₁ d₂ : Date} (h : tx.succeed d₁ d₂ = .ok tx') :
    tx'.id = tx.id ∧ Final tx' := by
  unfold Transaction.succeed at h
  split at h
  · rw [← Except.ok.inj h]
    exact ⟨rfl, .inl rfl⟩
  · cases h

theorem fail_ok {tx' : Transaction} {d₁ d₂ : Date} (h : tx.fail d₁ d₂ = .ok tx') :
    tx'.id = tx.id ∧ Final tx' := by
  unfold Transaction.fail at h
  split at h
  · rw [← Except.ok.inj h]
    exact ⟨rfl, .inr rfl⟩
  · cases h

theorem process_ok {status : TransactionStatus} {block : Option Date} {clock : Clock}
    (h : process r tx status block clock = .ok r') :
    ∃ tx', tx'.id = tx.id ∧ Final tx' ∧ r' = r.save tx' := by
  unfold process at h
  split at h
  · obtain ⟨tx', htx', h⟩ := bind_ok.mp h
    obtain ⟨date, -, h⟩ := bind_ok.mp h
    exact ⟨(tx'.timestampProcessed date).timestampUpdated (clock 2), (succeed_ok htx').1,
      (succeed_ok htx').2, (Except.ok.inj h).symm⟩
  · obtain ⟨tx', htx', h⟩ := bind_ok.mp h
    obtain ⟨date, -, h⟩ := bind_ok.mp h
    exact ⟨(tx'.timestampProcessed date).timestampUpdated (clock 2), (fail_ok htx').1,
      (fail_ok htx').2, (Except.ok.inj h).symm⟩

/-- How the loop ends: after the last transaction, or at the first one the node fails for. -/
theorem updateEach_cases {node : TransactionID → NodeAnswer} {transactions : List Transaction}
    {hasUpdates : Bool} {result : Option Bool} {clock : Clock}
    (h : updateEach node transactions hasUpdates r clock = .ok (result, r')) :
    ((∀ x ∈ transactions, (node x.id).fails = false) ∧
        result = some (hasUpdates || transactions.any fun x => (node x.id).mined) ∧
        Processed (transactions.filter fun x => (node x.id).mined) r r') ∨
      ∃ before x after, transactions = before ++ x :: after ∧ (node x.id).fails = true ∧
        (∀ y ∈ before, (node y.id).fails = false) ∧ result = none ∧
        Processed (before.filter fun x => (node x.id).mined) r r' := by
  induction transactions generalizing hasUpdates r clock with
  | nil =>
      obtain ⟨rfl, rfl⟩ := Prod.mk.inj (Except.ok.inj h)
      exact .inl ⟨fun _ hx => (nomatch hx), by simp, .nil r⟩
  | cons x transactions ih =>
      rw [updateEach] at h
      obtain ⟨_, -, h⟩ := bind_ok.mp h
      cases hanswer : node x.id with
      | mk receipt block =>
        rw [hanswer] at h
        match receipt, block with
        | none, _ =>
            obtain ⟨rfl, rfl⟩ := Prod.mk.inj (Except.ok.inj h)
            exact .inr ⟨[], x, transactions, rfl, by rw [hanswer]; rfl, fun _ hy => (nomatch hy), rfl,
              .nil r⟩
        | some (some _), none =>
            obtain ⟨rfl, rfl⟩ := Prod.mk.inj (Except.ok.inj h)
            exact .inr ⟨[], x, transactions, rfl, by rw [hanswer]; rfl, fun _ hy => (nomatch hy), rfl,
              .nil r⟩
        | some none, block =>
            have hfails : (node x.id).fails = false := by rw [hanswer]; rfl
            have hmined : ¬ (node x.id).mined = true := by simp [hanswer, NodeAnswer.mined]
            rcases ih h with ⟨hall, hresult, hp⟩ | ⟨before, y, after, rfl, hy, hall, hresult, hp⟩
            · refine .inl ⟨List.forall_mem_cons.mpr ⟨hfails, hall⟩, ?_, ?_⟩
              · simpa [hmined] using hresult
              · simpa [hmined] using hp
            · refine .inr ⟨x :: before, y, after, rfl, hy, List.forall_mem_cons.mpr ⟨hfails, hall⟩,
                hresult, ?_⟩
              simpa [hmined] using hp
        | some (some status), some block =>
            have hfails : (node x.id).fails = false := by rw [hanswer]; rfl
            have hmined : (node x.id).mined = true := by simp [hanswer, NodeAnswer.mined]
            obtain ⟨r₁, hprocess, h⟩ := bind_ok.mp h
            obtain ⟨x', hid, hfinal, rfl⟩ := process_ok hprocess
            rcases ih h with ⟨hall, hresult, hp⟩ | ⟨before, y, after, rfl, hy, hall, hresult, hp⟩
            · refine .inl ⟨List.forall_mem_cons.mpr ⟨hfails, hall⟩, ?_, ?_⟩
              · simpa [hmined] using hresult
              · simpa [hmined] using Processed.cons hid hfinal hp
            · refine .inr ⟨x :: before, y, after, rfl, hy, List.forall_mem_cons.mpr ⟨hfails, hall⟩,
                hresult, ?_⟩
              simpa [hmined] using Processed.cons hid hfinal hp

/-- Where nothing is mined and nothing fails, the loop does nothing. -/
theorem updateEach_absent {transactions : List Transaction} (r : Repositories)
    (hhash : ∀ x ∈ transactions, x.transactionHash ≠ none) (clock : Clock) :
    updateEach (fun _ => .absent) transactions false r clock = .ok (some false, r) := by
  induction transactions with
  | nil => rfl
  | cons x transactions ih =>
      obtain ⟨hash, hx⟩ := Option.ne_none_iff_exists'.mp (hhash x List.mem_cons_self)
      rw [updateEach, hx]
      exact ih fun y hy => hhash y (List.mem_cons_of_mem x hy)

/-! ### Announcing -/

variable {s s' : Announcements} {call : Call}

/-- The call saves a final status for a transaction that was pending. -/
def Persists (s s' : Announcements) : Prop :=
  ∃ tx ∈ s.repositories.transactions, tx.status = .pending ∧
    ∃ tx' ∈ s'.repositories.transactions, tx'.id = tx.id ∧ Final tx'

/-- A call that finds nothing mined. -/
def Call.Quiet (call : Call) : Prop := ∀ id, (call.node id).mined = false

/-- An event is published between `s` and `s'`, or by one of the next calls, however many of them
find nothing mined. -/
def Announced (s s' : Announcements) : Prop :=
  ∃ n, ∀ later : List Call, n ≤ later.length → (∀ call ∈ later, call.Quiet) →
    ∀ t, Transition.run step s' later = .ok t → s.published < t.published

/-- If the node fails for a transaction, none of those before the first such is mined. -/
def FailsFirst (s : Announcements) (call : Call) : Prop :=
  (∃ x ∈ pendingTransactions s.repositories, (call.node x.id).fails = true) →
    ∀ y ∈ (pendingTransactions s.repositories).takeWhile fun x => !(call.node x.id).fails,
      (call.node y.id).mined = false

instance (s : Announcements) (call : Call) : Decidable (FailsFirst s call) :=
  inferInstanceAs (Decidable ((∃ x ∈ pendingTransactions s.repositories,
    (call.node x.id).fails = true) →
      ∀ y ∈ (pendingTransactions s.repositories).takeWhile fun x => !(call.node x.id).fails,
        (call.node y.id).mined = false))

/-- What the repositories promise. -/
structure Sound (s : Announcements) : Prop where
  ids : (s.repositories.transactions.map (·.id)).Nodup
  hashes : ∀ tx ∈ s.repositories.transactions, tx.status = .pending → tx.transactionHash ≠ none

theorem mem_pendingTransactions :
    tx ∈ pendingTransactions r ↔ tx ∈ r.transactions ∧ tx.status = .pending := by
  simp [pendingTransactions]

/-- What a call saves and announces: `done` are the transactions it saves. -/
theorem step_cases (h : step s call = .ok s') :
    ∃ done, (∀ x ∈ done, x ∈ pendingTransactions s.repositories ∧ (call.node x.id).mined = true) ∧
      Processed done s.repositories s'.repositories ∧
      ((s'.published = s.published + 1 ∧ done ≠ [] ∧ FailsFirst s call) ∨
        (s'.published = s.published ∧ (done = [] ↔ FailsFirst s call))) := by
  obtain ⟨⟨result, r⟩, hloop, h⟩ := bind_ok.mp h
  obtain rfl := (Except.ok.inj h).symm
  rcases updateEach_cases hloop with ⟨hall, rfl, hp⟩ | ⟨before, x, after, hsplit, hx, hall, rfl, hp⟩
  · refine ⟨_, fun y hy => List.mem_filter.mp hy, hp, ?_⟩
    -- the node never fails
    have hfirst : FailsFirst s call := by
      rintro ⟨x, hmem, hx⟩
      rw [hall x hmem] at hx
      cases hx
    cases hany : (pendingTransactions s.repositories).any fun x => (call.node x.id).mined with
    | true =>
        obtain ⟨y, hy, hmined⟩ := List.any_eq_true.mp hany
        exact .inl ⟨by simp, List.ne_nil_of_mem (List.mem_filter.mpr ⟨hy, hmined⟩), hfirst⟩
    | false =>
        refine .inr ⟨by simp, iff_of_true ?_ hfirst⟩
        rw [List.filter_eq_nil_iff]
        exact fun y hy hmined => by simpa [hmined] using List.any_eq_false.mp hany y hy
  · refine ⟨_, fun y hy => ?_, hp, .inr ⟨by simp, ?_⟩⟩
    · obtain ⟨hy, hmined⟩ := List.mem_filter.mp hy
      exact ⟨by rw [hsplit]; exact List.mem_append_left _ hy, hmined⟩
    · have hbefore : (pendingTransactions s.repositories).takeWhile
          (fun x => !(call.node x.id).fails) = before := by
        rw [hsplit, List.takeWhile_append_of_pos (by simpa using hall)]
        simp [hx]
      rw [List.filter_eq_nil_iff, FailsFirst, hbefore]
      constructor
      · intro hnone _ y hy
        simpa using hnone y hy
      · intro hfirst y hy
        simpa using hfirst ⟨x, by simp [hsplit], hx⟩ y hy

theorem Sound.step (hs : Sound s) (h : TransactionDomainService.step s call = .ok s') : Sound s' := by
  obtain ⟨done, -, hp, -⟩ := step_cases h
  refine ⟨hp.ids hs.ids, fun tx htx hpending => ?_⟩
  rcases hp.mem htx with hold | ⟨-, hfinal⟩
  · exact hs.hashes tx hold hpending
  · rcases hfinal with hfinal | hfinal <;> simp [hpending] at hfinal

/-- A call persists a status exactly if it saves a transaction at all. -/
theorem persists_iff (hs : Sound s) {done : List Transaction}
    (hdone : ∀ x ∈ done, x ∈ pendingTransactions s.repositories)
    (hp : Processed done s.repositories s'.repositories) : Persists s s' ↔ done ≠ [] := by
  constructor
  · rintro ⟨tx, htx, hpending, tx', htx', hid, hfinal⟩
    rcases hp.mem htx' with hold | ⟨hne, -⟩
    · rw [List.inj_on_of_nodup_map hs.ids hold htx hid, Final, hpending] at hfinal
      simp at hfinal
    · exact hne
  · intro hne
    obtain ⟨x, hx⟩ := List.exists_mem_of_ne_nil done hne
    obtain ⟨hmem, hpending⟩ := mem_pendingTransactions.mp (hdone x hx)
    exact ⟨x, hmem, hpending, hp.exists_final hx⟩

theorem step_published (h : step s call = .ok s') : s.published ≤ s'.published := by
  obtain ⟨done, -, -, ⟨hpublished, -⟩ | ⟨hpublished, -⟩⟩ := step_cases h <;> omega

theorem step_absent (hs : Sound s) (clock : Clock) : step s ⟨fun _ => .absent, clock⟩ = .ok s := by
  have hhash : ∀ x ∈ pendingTransactions s.repositories, x.transactionHash ≠ none := fun x hx =>
    hs.hashes x (mem_pendingTransactions.mp hx).1 (mem_pendingTransactions.mp hx).2
  exact bind_ok.mpr ⟨_, updateEach_absent s.repositories hhash clock, rfl⟩

/-- As long as nothing is mined, nothing happens. -/
theorem run_absent (hs : Sound s) (clock : Clock) (n : Nat) :
    Transition.run step s (List.replicate n ⟨fun _ => .absent, clock⟩) = .ok s := by
  induction n with
  | zero => rfl
  | succ n ih => exact Transition.run_cons_ok.mpr ⟨s, step_absent hs clock, ih⟩

/-- What is not announced at once is never announced, unless something else is mined. -/
theorem announced_iff (hs : Sound s) (h : step s call = .ok s') :
    Announced s s' ↔ s.published < s'.published := by
  constructor
  · rintro ⟨n, hn⟩
    let absent : Call := ⟨fun _ => .absent, fun _ => 0⟩
    refine hn (List.replicate n absent) (by simp) ?_ s' (run_absent (hs.step h) _ n)
    intro call hcall
    rw [List.eq_of_mem_replicate hcall]
    exact fun _ => rfl
  · intro hlt
    refine ⟨0, fun later _ _ t ht => hlt.trans_le ?_⟩
    exact Transition.run_invariant (I := fun t => s'.published ≤ t.published)
      (fun s a t hs hst => hs.trans (step_published hst)) (le_refl _) ht

namespace Sample

/-- A submitted transaction. -/
def submitted (name : Char) : Transaction :=
  { id := [name], type := .transfer, walletID := ['w'], accountID := ⟨['e'], ['w']⟩,
    status := .pending, transactionHash := some ⟨[name]⟩ }

/-- Two submitted transactions. -/
def start : Announcements := ⟨⟨[submitted 'a', submitted 'b'], [], none, [], []⟩, 0⟩

/-- The first one is mined, and the node answers `second` for the other one. -/
def answering (second : NodeAnswer) : Call where
  node id := if id = ['a'] then ⟨some (some .success), some (some 1)⟩ else second
  clock _ := 2

theorem start_sound : Sound start := ⟨by decide, by decide⟩

/-- The first transaction with its new status. -/
def succeeded : Transaction :=
  { submitted 'a' with status := .success, processedDate := some 1, updatedDate := some 2 }

end Sample

end TransactionDomainService

end MultisigWallet
