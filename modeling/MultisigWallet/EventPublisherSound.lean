import MultisigWallet.EventPublisher
import Mathlib.Data.List.Induction
import Mathlib.Data.List.Nodup

/-!
# MultisigWallet.EventPublisherSound

What the closures of a publisher get to see. The serial queue alone would deliver the events as
`sync` does, which runs the blocks of all calls one after the other and calls the closures on the
way: in order of publication, and for one event in order of subscription.

The concurrent queue keeps the deliveries, each exactly once, but not their order. Whatever it
begins out of turn overtakes a delivery of the same event or to the same subscriber, so `InTurn`
is the exact condition on the schedule (`run_inOrder_iff`).
-/

namespace MultisigWallet

namespace EventPublisher

variable {T S : Type}

/-- The number of the call that queued a block, where it counts. -/
def Block.number : Block T S → Option Nat
  | .subscribe subscription => some subscription.id
  | .unsubscribe _ => none
  | .publish event => some event.id

/-- The numbers of blocks, in the order of the queue. -/
def numbers (blocks : List (Block T S)) : List Nat := blocks.filterMap Block.number

/-- One delivery comes before another. -/
def Before (b c : Delivery T S) : Prop :=
  b.event.id < c.event.id ∨ b.event = c.event ∧ b.subscription.id < c.subscription.id

/-- An element of a list with one more at its end. -/
theorem concat_eq_append_cons {α : Type} {l before after : List α} {a x : α} :
    l ++ [a] = before ++ x :: after ↔
      (l = before ∧ a = x ∧ after = []) ∨ ∃ rest, after = rest ++ [a] ∧ l = before ++ x :: rest := by
  constructor
  · intro h
    rcases List.eq_nil_or_concat after with rfl | ⟨rest, y, rfl⟩
    · obtain ⟨hl, hx⟩ := List.append_inj' h rfl
      exact .inl ⟨hl, (List.cons.inj hx).1, rfl⟩
    · rw [List.concat_eq_append, ← List.cons_append, ← List.append_assoc] at h
      obtain ⟨hl, ha⟩ := List.append_inj' h rfl
      obtain rfl := (List.cons.inj ha).1
      exact .inr ⟨rest, List.concat_eq_append, hl⟩
  · rintro (⟨rfl, rfl, rfl⟩ | ⟨rest, rfl, rfl⟩)
    · rfl
    · rw [List.append_assoc, List.cons_append]

variable [DecidableEq T] [DecidableEq S] {domainEvent : T}

/-! ### The synchronous publisher -/

variable (domainEvent) in
/-- The subscriptions after `blocks`, and the deliveries they make. -/
def sync (blocks : List (Block T S)) : List (Subscription T S) × List (Delivery T S) :=
  blocks.foldl (fun s block =>
    ((block.perform domainEvent s.1).1, s.2 ++ (block.perform domainEvent s.1).2)) ([], [])

variable (domainEvent) in
/-- The closure of the delivery is to be called: the event is published after the subscription and
before the subscriber is unsubscribed. -/
def Due (blocks : List (Block T S)) (d : Delivery T S) : Prop :=
  ∃ before between after, blocks =
      before ++ .subscribe d.subscription :: between ++ .publish d.event :: after ∧
    matchesEvent domainEvent d.subscription.type d.event.type = true ∧
    .unsubscribe d.subscription.subscriber ∉ between

theorem sync_concat (blocks : List (Block T S)) (block : Block T S) :
    sync domainEvent (blocks ++ [block]) =
      ((block.perform domainEvent (sync domainEvent blocks).1).1,
        (sync domainEvent blocks).2 ++ (block.perform domainEvent (sync domainEvent blocks).1).2) := by
  simp [sync, List.foldl_append]

theorem event_of_mem_perform {block : Block T S} {subscriptions : List (Subscription T S)}
    {d : Delivery T S} (h : d ∈ (block.perform domainEvent subscriptions).2) :
    block = .publish d.event := by
  cases block with
  | subscribe x => exact absurd h List.not_mem_nil
  | unsubscribe s => exact absurd h List.not_mem_nil
  | publish e =>
      obtain ⟨x, -, rfl⟩ := List.mem_map.mp h
      rfl

/-- What more blocks deliver comes after, and is about their events. -/
theorem sync_append (blocks more : List (Block T S)) :
    ∃ new, (sync domainEvent (blocks ++ more)).2 = (sync domainEvent blocks).2 ++ new ∧
      ∀ d ∈ new, d.event.id ∈ numbers more := by
  induction more using List.reverseRecOn with
  | nil => exact ⟨[], by simp⟩
  | append_singleton more block ih =>
      obtain ⟨new, hnew, hevents⟩ := ih
      rw [← List.append_assoc, sync_concat, hnew]
      refine ⟨_, List.append_assoc .., fun d hd => ?_⟩
      rw [numbers, List.filterMap_append]
      rcases List.mem_append.mp hd with hd | hd
      · exact List.mem_append_left _ (hevents d hd)
      · rw [event_of_mem_perform hd]
        exact List.mem_append_right _ (by simp [Block.number])

/-- `x` is subscribed once the blocks have run. -/
def Subscribed (blocks : List (Block T S)) (x : Subscription T S) : Prop :=
  ∃ before after, blocks = before ++ .subscribe x :: after ∧ .unsubscribe x.subscriber ∉ after

omit [DecidableEq T] [DecidableEq S] in
theorem subscribed_concat {blocks : List (Block T S)} {block : Block T S} {x : Subscription T S} :
    Subscribed (blocks ++ [block]) x ↔
      block = .subscribe x ∨ Subscribed blocks x ∧ block ≠ .unsubscribe x.subscriber := by
  constructor
  · rintro ⟨before, after, hblocks, hafter⟩
    rcases concat_eq_append_cons.mp hblocks with ⟨-, rfl, -⟩ | ⟨rest, rfl, rfl⟩
    · exact .inl rfl
    · refine .inr ⟨⟨before, rest, rfl, fun h => hafter (List.mem_append_left _ h)⟩, ?_⟩
      rintro rfl
      exact hafter (List.mem_append_right _ List.mem_cons_self)
  · rintro (rfl | ⟨⟨before, after, rfl, hafter⟩, hblock⟩)
    · exact ⟨blocks, [], rfl, List.not_mem_nil⟩
    · refine ⟨before, after ++ [block], by simp, fun h => ?_⟩
      rcases List.mem_append.mp h with h | h
      · exact hafter h
      · exact hblock (List.mem_singleton.mp h).symm

theorem mem_sync_subscriptions {blocks : List (Block T S)} {x : Subscription T S} :
    x ∈ (sync domainEvent blocks).1 ↔ Subscribed blocks x := by
  induction blocks using List.reverseRecOn with
  | nil => simp [sync, Subscribed]
  | append_singleton blocks block ih =>
      rw [sync_concat, subscribed_concat, ← ih]
      cases block with
      | subscribe y =>
          simp only [Block.perform, List.mem_append, List.mem_singleton, Block.subscribe.injEq, ne_eq,
            reduceCtorEq, not_false_eq_true, and_true]
          rw [or_comm, eq_comm]
      | unsubscribe s =>
          simp only [Block.perform, List.mem_filter, decide_eq_true_eq, reduceCtorEq, false_or, ne_eq,
            Block.unsubscribe.injEq]
          rw [eq_comm]
      | publish e => simp [Block.perform]

omit [DecidableEq S] in
theorem due_concat {blocks : List (Block T S)} {block : Block T S} {d : Delivery T S} :
    Due domainEvent (blocks ++ [block]) d ↔ Due domainEvent blocks d ∨
      block = .publish d.event ∧ Subscribed blocks d.subscription ∧
        matchesEvent domainEvent d.subscription.type d.event.type = true := by
  constructor
  · rintro ⟨before, between, after, hblocks, hmatch, hbetween⟩
    rcases concat_eq_append_cons.mp hblocks with ⟨rfl, rfl, -⟩ | ⟨rest, -, rfl⟩
    · exact .inr ⟨rfl, ⟨before, between, rfl, hbetween⟩, hmatch⟩
    · exact .inl ⟨before, between, rest, rfl, hmatch, hbetween⟩
  · rintro (⟨before, between, after, rfl, hmatch, hbetween⟩ |
      ⟨rfl, ⟨before, between, rfl, hbetween⟩, hmatch⟩)
    · exact ⟨before, between, after ++ [block], by simp, hmatch, hbetween⟩
    · exact ⟨before, between, [], rfl, hmatch, hbetween⟩

/-- The synchronous publisher delivers what is due. -/
theorem mem_sync_deliveries {blocks : List (Block T S)} {d : Delivery T S} :
    d ∈ (sync domainEvent blocks).2 ↔ Due domainEvent blocks d := by
  induction blocks using List.reverseRecOn with
  | nil => simp [sync, Due]
  | append_singleton blocks block ih =>
      rw [sync_concat, due_concat, ← ih, ← mem_sync_subscriptions, List.mem_append]
      refine or_congr_right ?_
      cases block with
      | subscribe y => simp [Block.perform]
      | unsubscribe s => simp [Block.perform]
      | publish e =>
          obtain ⟨x, event⟩ := d
          simp only [Block.perform, List.mem_map, List.mem_filter]
          constructor
          · rintro ⟨y, ⟨hy, hmatch⟩, heq⟩
            obtain ⟨rfl, rfl⟩ := Delivery.mk.inj heq
            exact ⟨rfl, hy, hmatch⟩
          · rintro ⟨he, hx, hmatch⟩
            obtain rfl := Block.publish.inj he
            exact ⟨x, ⟨hx, hmatch⟩, rfl⟩

omit [DecidableEq T] [DecidableEq S] in
theorem numbers_concat (blocks : List (Block T S)) (block : Block T S) :
    numbers (blocks ++ [block]) = numbers blocks ++ block.number.toList := by
  rw [numbers, List.filterMap_append]
  cases h : block.number <;> simp [h, numbers]

omit [DecidableEq T] [DecidableEq S] in
theorem id_mem_numbers {blocks : List (Block T S)} {x : Subscription T S}
    (h : Subscribed blocks x) : x.id ∈ numbers blocks := by
  obtain ⟨before, after, rfl, -⟩ := h
  exact List.mem_filterMap.mpr ⟨.subscribe x, by simp, rfl⟩

omit [DecidableEq S] in
theorem event_id_mem_numbers {blocks : List (Block T S)} {d : Delivery T S}
    (h : Due domainEvent blocks d) : d.event.id ∈ numbers blocks := by
  obtain ⟨before, between, after, rfl, -, -⟩ := h
  exact List.mem_filterMap.mpr ⟨.publish d.event, by simp, rfl⟩

/-- The deliveries are in order if the blocks are numbered in order. -/
theorem sync_ordered {blocks : List (Block T S)} (h : (numbers blocks).Pairwise (· < ·)) :
    (sync domainEvent blocks).1.Pairwise (·.id < ·.id) ∧
      (sync domainEvent blocks).2.Pairwise Before := by
  induction blocks using List.reverseRecOn with
  | nil => exact ⟨.nil, .nil⟩
  | append_singleton blocks block ih =>
      rw [numbers_concat, List.pairwise_append] at h
      obtain ⟨hblocks, -, hlast⟩ := h
      obtain ⟨hsubscriptions, hdeliveries⟩ := ih hblocks
      rw [sync_concat]
      cases block with
      | subscribe x =>
          refine ⟨?_, by simpa [Block.perform] using hdeliveries⟩
          refine List.pairwise_append.mpr ⟨hsubscriptions, List.pairwise_singleton .., ?_⟩
          intro y hy z hz
          obtain rfl := List.mem_singleton.mp hz
          exact hlast _ (id_mem_numbers (mem_sync_subscriptions.mp hy)) _ (by simp [Block.number])
      | unsubscribe s =>
          exact ⟨hsubscriptions.filter _, by simpa [Block.perform] using hdeliveries⟩
      | publish e =>
          refine ⟨hsubscriptions, List.pairwise_append.mpr ⟨hdeliveries, ?_, ?_⟩⟩
          · refine List.pairwise_map.mpr ((hsubscriptions.filter _).imp fun hlt => ?_)
            exact .inr ⟨rfl, hlt⟩
          · intro b hb c hc
            obtain ⟨x, -, rfl⟩ := List.mem_map.mp hc
            exact .inl (hlast _ (event_id_mem_numbers (mem_sync_deliveries.mp hb)) _
              (by simp [Block.number]))

/-! ### The invariants of a publisher -/

/-- What a publisher has done so far, in terms of the calls made: the blocks `done` have run, and
their deliveries have begun or are waiting. -/
structure Faithful (domainEvent : T) (p : EventPublisher T S) (done : List (Block T S)) : Prop where
  numbered : (numbers p.calls).Pairwise (· < ·)
  bounded : ∀ n ∈ numbers p.calls, n < p.calls.length
  calls : p.calls = done ++ p.queue
  subscriptions : p.subscriptions = (sync domainEvent done).1
  deliveries : (p.begun ++ p.dispatched).Perm (sync domainEvent done).2
  dispatched : p.dispatched.Sublist (sync domainEvent done).2

/-- The deliveries have an event or a subscriber in common. -/
def Related (b c : Delivery T S) : Prop :=
  b.event = c.event ∨ b.subscription.subscriber = c.subscription.subscriber

instance (b c : Delivery T S) : Decidable (Related b c) :=
  inferInstanceAs (Decidable (_ ∨ _))

omit [DecidableEq T] [DecidableEq S] in
theorem Related.symm {b c : Delivery T S} (h : Related b c) : Related c b :=
  h.imp Eq.symm Eq.symm

/-- What is delivered is in order, as far as it has begun. -/
def Ordered (p : EventPublisher T S) : Prop :=
  (p.begun ++ p.dispatched).Pairwise fun b c => Related b c → Before b c

/-- A closure is begun in its turn: nothing related to it has been waiting longer. -/
def InTurn (p : EventPublisher T S) : Step T S → Prop
  | .begin index => ∀ c ∈ p.dispatched[index]?, ∀ b ∈ p.dispatched.take index, ¬ Related b c
  | _ => True

theorem faithful_start : Faithful domainEvent ({} : EventPublisher T S) [] where
  numbered := .nil
  bounded := by simp [numbers]
  calls := rfl
  subscriptions := rfl
  deliveries := .nil
  dispatched := List.Sublist.refl _

omit [DecidableEq T] [DecidableEq S] in
/-- What a begun closure leaves waiting. -/
theorem begin_eq {l : List (Delivery T S)} {index : Nat} {d : Delivery T S}
    (h : l[index]? = some d) :
    l = l.take index ++ d :: l.drop (index + 1) ∧
      l.eraseIdx index = l.take index ++ l.drop (index + 1) := by
  obtain ⟨hindex, rfl⟩ := List.getElem?_eq_some_iff.mp h
  refine ⟨?_, List.eraseIdx_eq_take_drop_succ l index⟩
  rw [List.getElem_cons_drop hindex, List.take_append_drop]

omit [DecidableEq T] [DecidableEq S] in
theorem number_block (id : Nat) (call : Call T S) : ∀ n ∈ (call.block id).number, n = id := by
  cases call <;> simp [Call.block, Block.number]

/-- A call is queued, with the next number. -/
theorem call_faithful {p p' : EventPublisher T S} {done : List (Block T S)} {call : Call T S}
    (h : Faithful domainEvent p done) (hstep : step domainEvent p (.call call) = .ok p') :
    Faithful domainEvent p' done := by
  obtain rfl := Except.ok.inj hstep
  have hlast : ∀ n ∈ (call.block p.calls.length).number.toList, n = p.calls.length := fun n hn =>
    number_block _ call n (Option.mem_toList.mp hn)
  refine ⟨?_, ?_, ?_, h.subscriptions, h.deliveries, h.dispatched⟩
  · rw [numbers_concat, List.pairwise_append]
    refine ⟨h.numbered, ?_, fun m hm n hn => ?_⟩
    · cases (call.block p.calls.length).number <;> simp
    · rw [hlast n hn]
      exact h.bounded m hm
  · intro n hn
    rw [numbers_concat] at hn
    rw [List.length_append, List.length_singleton]
    rcases List.mem_append.mp hn with hn | hn
    · exact Nat.lt_succ_of_lt (h.bounded n hn)
    · rw [hlast n hn]
      exact Nat.lt_succ_self _
  · show p.calls ++ _ = done ++ (p.queue ++ _)
    rw [h.calls, List.append_assoc]

/-- What the serial queue hands over, if it runs a block. -/
theorem drain_cases {p p' : EventPublisher T S} (hstep : step domainEvent p .drain = .ok p') :
    p' = p ∨ ∃ block queue, p.queue = block :: queue ∧
      p' = { p with
        subscriptions := (block.perform domainEvent p.subscriptions).1
        queue := queue
        dispatched := p.dispatched ++ (block.perform domainEvent p.subscriptions).2 } := by
  rw [step] at hstep
  cases hqueue : p.queue with
  | nil =>
      rw [hqueue] at hstep
      exact .inl (Except.ok.inj hstep).symm
  | cons block queue =>
      rw [hqueue] at hstep
      exact .inr ⟨block, queue, rfl, (Except.ok.inj hstep).symm⟩

/-- What the concurrent queue begins. -/
theorem begin_cases {p p' : EventPublisher T S} {index : Nat}
    (hstep : step domainEvent p (.begin index) = .ok p') :
    (p.dispatched[index]? = none ∧ p' = p) ∨ ∃ d, p.dispatched[index]? = some d ∧
      p' = { p with
        dispatched := p.dispatched.eraseIdx index
        running := p.running ++ [d]
        begun := p.begun ++ [d] } := by
  rw [step] at hstep
  cases hd : p.dispatched[index]? with
  | none =>
      rw [hd] at hstep
      exact .inl ⟨rfl, (Except.ok.inj hstep).symm⟩
  | some d =>
      rw [hd] at hstep
      exact .inr ⟨d, rfl, (Except.ok.inj hstep).symm⟩

/-- Every step keeps the invariant; only a block of the serial queue adds to what has run. -/
theorem step_faithful {p p' : EventPublisher T S} {done : List (Block T S)} {a : Step T S}
    (h : Faithful domainEvent p done) (hstep : step domainEvent p a = .ok p') :
    ∃ done', Faithful domainEvent p' done' := by
  cases a with
  | call call => exact ⟨done, call_faithful h hstep⟩
  | drain =>
      obtain rfl | ⟨block, queue, hqueue, rfl⟩ := drain_cases hstep
      · exact ⟨done, h⟩
      · refine ⟨done ++ [block], h.numbered, h.bounded, ?_, ?_, ?_, ?_⟩
        · show p.calls = done ++ [block] ++ queue
          rw [h.calls, hqueue, List.append_assoc, List.singleton_append]
        · rw [sync_concat, ← h.subscriptions]
        · rw [sync_concat, ← h.subscriptions, ← List.append_assoc]
          exact h.deliveries.append_right _
        · rw [sync_concat, ← h.subscriptions]
          exact h.dispatched.append_right _
  | begin index =>
      obtain ⟨-, rfl⟩ | ⟨d, hd, rfl⟩ := begin_cases hstep
      · exact ⟨done, h⟩
      · obtain ⟨hwaiting, hrest⟩ := begin_eq hd
        refine ⟨done, h.numbered, h.bounded, h.calls, h.subscriptions, ?_, ?_⟩
        · refine List.Perm.trans ?_ h.deliveries
          show (p.begun ++ [d] ++ p.dispatched.eraseIdx index).Perm (p.begun ++ p.dispatched)
          rw [List.append_assoc, List.singleton_append, hrest]
          conv_rhs => rw [hwaiting]
          exact List.perm_middle.symm.append_left _
        · exact (List.eraseIdx_sublist ..).trans h.dispatched
  | finish index =>
      obtain rfl := Except.ok.inj hstep
      exact ⟨done, h.numbered, h.bounded, h.calls, h.subscriptions, h.deliveries, h.dispatched⟩

/-! ### Order -/

theorem Faithful.numbered_done {p : EventPublisher T S} {done : List (Block T S)}
    (h : Faithful domainEvent p done) : (numbers done).Pairwise (· < ·) := by
  have hall := h.numbered
  rw [h.calls, numbers, List.filterMap_append] at hall
  exact (List.pairwise_append.mp hall).1

/-- A step that is in turn keeps the order. -/
theorem step_ordered {p p' : EventPublisher T S} {done : List (Block T S)} {a : Step T S}
    (h : Faithful domainEvent p done) (hordered : Ordered p) (hturn : InTurn p a)
    (hstep : step domainEvent p a = .ok p') : Ordered p' := by
  cases a with
  | call call =>
      obtain rfl := Except.ok.inj hstep
      exact hordered
  | drain =>
      obtain rfl | ⟨block, queue, hqueue, rfl⟩ := drain_cases hstep
      · exact hordered
      · have hnumbers : (numbers (done ++ [block])).Pairwise (· < ·) := by
          have hall := h.numbered
          rw [h.calls, hqueue, ← List.singleton_append, ← List.append_assoc, numbers,
            List.filterMap_append] at hall
          exact (List.pairwise_append.mp hall).1
        have hsync := (@sync_ordered _ _ _ _ domainEvent _ hnumbers).2
        rw [sync_concat, ← h.subscriptions, List.pairwise_append] at hsync
        obtain ⟨-, hnew, hlater⟩ := hsync
        show (p.begun ++ (p.dispatched ++ _)).Pairwise _
        rw [← List.append_assoc, List.pairwise_append]
        refine ⟨hordered, hnew.imp (fun {b c} h (_ : Related b c) => h), fun b hb c hc _ => ?_⟩
        exact hlater b (h.deliveries.mem_iff.mp hb) c hc
  | begin index =>
      obtain ⟨-, rfl⟩ | ⟨d, hd, rfl⟩ := begin_cases hstep
      · exact hordered
      · obtain ⟨hwaiting, hrest⟩ := begin_eq hd
        show (p.begun ++ [d] ++ p.dispatched.eraseIdx index).Pairwise _
        unfold Ordered at hordered
        rw [hwaiting, List.pairwise_append, List.pairwise_append, List.pairwise_cons] at hordered
        obtain ⟨hbegun, ⟨hfront, ⟨hd', hback⟩, hmiddle⟩, hall⟩ := hordered
        rw [hrest, List.pairwise_append, List.pairwise_append, List.pairwise_append]
        refine ⟨⟨hbegun, List.pairwise_singleton .., ?_⟩, ⟨hfront, hback, ?_⟩, ?_⟩
        · intro b hb c hc
          obtain rfl := List.mem_singleton.mp hc
          exact hall b hb c (List.mem_append_right _ List.mem_cons_self)
        · exact fun b hb c hc => hmiddle b hb c (List.mem_cons_of_mem d hc)
        · intro b hb c hc
          rcases List.mem_append.mp hb with hb | hb
          · refine hall b hb c ?_
            rcases List.mem_append.mp hc with hc | hc
            · exact List.mem_append_left _ hc
            · exact List.mem_append_right _ (List.mem_cons_of_mem d hc)
          · obtain rfl := List.mem_singleton.mp hb
            rcases List.mem_append.mp hc with hc | hc
            · exact fun hrelated => absurd hrelated.symm (hturn b hd c hc)
            · exact hd' c hc
  | finish index =>
      obtain rfl := Except.ok.inj hstep
      exact hordered

/-! ### Runs -/

/-- The deliveries are as the publisher promises. -/
structure InOrder (domainEvent : T) (p : EventPublisher T S) : Prop where
  /-- No closure is called twice for an event, -/
  once : ∀ d, p.begun.count d ≤ 1
  /-- nor for an event it is not to see, -/
  due : ∀ d ∈ p.begun, Due domainEvent p.calls d
  /-- and in the end all are called that are to be called. -/
  complete : p.queue = [] → p.dispatched = [] → ∀ d, Due domainEvent p.calls d → d ∈ p.begun
  /-- For one event the closures run in the order of subscription. -/
  event : p.begun.Pairwise fun b c => b.event = c.event → b.subscription.id < c.subscription.id
  /-- A subscriber gets the events in the order of publication. -/
  subscriber : p.begun.Pairwise fun b c =>
    b.subscription.subscriber = c.subscription.subscriber → b.event.id ≤ c.event.id
  /-- What has begun has not overtaken a delivery that is still to come. -/
  notOvertaken : ∀ b c, Due domainEvent p.calls b → c ∈ p.begun → Related b c → Before b c →
    b ∈ p.begun

omit [DecidableEq T] [DecidableEq S] in
theorem Before.asymm {b c : Delivery T S} (h : Before b c) : ¬ Before c b := by
  rintro (h' | ⟨heq', hlt'⟩)
  · rcases h with hlt | ⟨heq, -⟩
    · exact lt_asymm hlt h'
    · exact lt_irrefl _ (heq ▸ h')
  · rcases h with hlt | ⟨-, hlt⟩
    · exact lt_irrefl _ (heq' ▸ hlt)
    · exact lt_asymm hlt hlt'

theorem Faithful.nodup {p : EventPublisher T S} {done : List (Block T S)}
    (h : Faithful domainEvent p done) : (p.begun ++ p.dispatched).Nodup := by
  refine h.deliveries.nodup_iff.mpr ?_
  refine (sync_ordered h.numbered_done).2.imp fun {b c} hbefore heq => ?_
  subst heq
  exact hbefore.asymm hbefore

/-- What is due and before something that has been handed over has been handed over. -/
theorem Faithful.handed {p : EventPublisher T S} {done : List (Block T S)}
    (h : Faithful domainEvent p done) {b c : Delivery T S} (hb : Due domainEvent p.calls b)
    (hc : c ∈ p.begun) (hbefore : Before b c) : b ∈ p.begun ++ p.dispatched := by
  obtain ⟨new, hnew, hevents⟩ := @sync_append _ _ _ _ domainEvent done p.queue
  rw [← h.calls] at hnew
  rw [← mem_sync_deliveries, hnew] at hb
  rcases List.mem_append.mp hb with hb | hb
  · exact h.deliveries.mem_iff.mpr hb
  · exfalso
    have hdone : c.event.id ∈ numbers done := event_id_mem_numbers
      (mem_sync_deliveries.mp (h.deliveries.mem_iff.mp (List.mem_append_left _ hc)))
    have hnumbers := h.numbered
    rw [h.calls, numbers, List.filterMap_append] at hnumbers
    have hlt : c.event.id < b.event.id :=
      (List.pairwise_append.mp hnumbers).2.2 _ hdone _ (hevents b hb)
    rcases hbefore with hbefore | ⟨heq, -⟩
    · exact lt_asymm hlt hbefore
    · exact lt_irrefl _ (heq ▸ hlt)

theorem Faithful.inOrder {p : EventPublisher T S} {done : List (Block T S)}
    (h : Faithful domainEvent p done) (hordered : Ordered p) : InOrder domainEvent p where
  once := List.nodup_iff_count_le_one.mp (List.nodup_append.mp h.nodup).1
  due d hd := by
    obtain ⟨new, hnew, -⟩ := @sync_append _ _ _ _ domainEvent done p.queue
    rw [← mem_sync_deliveries, h.calls, hnew]
    exact List.mem_append_left _ (h.deliveries.mem_iff.mp (List.mem_append_left _ hd))
  complete hqueue hdispatched d hd := by
    have hcalls := h.calls
    rw [hqueue, List.append_nil] at hcalls
    rw [hcalls, ← mem_sync_deliveries] at hd
    have hmem := h.deliveries.mem_iff.mpr hd
    rwa [hdispatched, List.append_nil] at hmem
  event := by
    refine (List.pairwise_append.mp hordered).1.imp fun {b c} hbefore heq => ?_
    rcases hbefore (.inl heq) with hlt | ⟨-, hlt⟩
    · exact absurd hlt (heq ▸ lt_irrefl _)
    · exact hlt
  subscriber := by
    refine (List.pairwise_append.mp hordered).1.imp fun {b c} hbefore heq => ?_
    rcases hbefore (.inr heq) with hlt | ⟨hevent, -⟩
    · exact hlt.le
    · exact hevent ▸ le_rfl
  notOvertaken b c hb hc hrelated hbefore := by
    rcases List.mem_append.mp (h.handed hb hc hbefore) with hmem | hmem
    · exact hmem
    · have hcb := (List.pairwise_append.mp hordered).2.2 c hc b hmem hrelated.symm
      exact absurd hcb hbefore.asymm

theorem run_faithful {steps : List (Step T S)} {p : EventPublisher T S}
    (hrun : Transition.run (step domainEvent) {} steps = .ok p) :
    ∃ done, Faithful domainEvent p done :=
  Transition.run_invariant (I := fun p => ∃ done, Faithful domainEvent p done)
    (fun _ _ _ ⟨_, h⟩ hstep => step_faithful h hstep) ⟨[], faithful_start⟩ hrun

theorem run_ordered {steps : List (Step T S)} {p : EventPublisher T S}
    (hall : Transition.Allowed (step domainEvent) InTurn {} steps)
    (hrun : Transition.run (step domainEvent) {} steps = .ok p) :
    (∃ done, Faithful domainEvent p done) ∧ Ordered p :=
  Transition.run_invariant_of_allowed
    (I := fun p => (∃ done, Faithful domainEvent p done) ∧ Ordered p)
    (fun _ _ _ hturn ⟨⟨_, h⟩, hordered⟩ hstep =>
      ⟨step_faithful h hstep, step_ordered h hordered hturn hstep⟩)
    ⟨⟨[], faithful_start⟩, .nil⟩ hall hrun

theorem exists_step (p : EventPublisher T S) (a : Step T S) :
    ∃ p', step domainEvent p a = .ok p' := by
  cases a with
  | call call => exact ⟨_, rfl⟩
  | drain =>
      rw [step]
      cases p.queue <;> exact ⟨_, rfl⟩
  | begin index =>
      rw [step]
      cases p.dispatched[index]? <;> exact ⟨_, rfl⟩
  | finish index => exact ⟨_, rfl⟩

/-- What begins out of turn overtakes. -/
theorem inTurn_of_inOrder {p p' : EventPublisher T S} {done : List (Block T S)} {index : Nat}
    (h : Faithful domainEvent p done) (hstep : step domainEvent p (.begin index) = .ok p')
    (hinOrder : InOrder domainEvent p') : InTurn p (.begin index) := by
  intro c hc b hb hrelated
  obtain ⟨done', h'⟩ := step_faithful h hstep
  obtain ⟨hnone, -⟩ | ⟨d, hd, rfl⟩ := begin_cases hstep
  · rw [hnone] at hc
    cases hc
  · obtain rfl : d = c := Option.some.inj (hd.symm.trans hc)
    obtain ⟨hwaiting, hrest⟩ := begin_eq hd
    have hbefore : Before b d := by
      have hsorted := (sync_ordered h.numbered_done).2.sublist h.dispatched
      rw [hwaiting, List.pairwise_append] at hsorted
      exact hsorted.2.2 b hb d List.mem_cons_self
    have hdue : Due domainEvent p.calls b := by
      obtain ⟨new, hnew, -⟩ := @sync_append _ _ _ _ domainEvent done p.queue
      rw [← mem_sync_deliveries, h.calls, hnew]
      exact List.mem_append_left _ (h.dispatched.subset (List.mem_of_mem_take hb))
    have hbegun := hinOrder.notOvertaken b d hdue (List.mem_append_right _ List.mem_cons_self)
      hrelated hbefore
    refine (List.nodup_append.mp h'.nodup).2.2 b hbegun b ?_ rfl
    show b ∈ p.dispatched.eraseIdx index
    rw [hrest]
    exact List.mem_append_left _ hb

/-- The publisher keeps its promises in every state of a run if and only if the concurrent queue
begins every closure in its turn. -/
theorem run_inOrder_iff {steps : List (Step T S)} :
    Transition.Allowed (step domainEvent) InTurn {} steps ↔
      ∀ before after p, steps = before ++ after →
        Transition.run (step domainEvent) {} before = .ok p → InOrder domainEvent p := by
  constructor
  · rintro hall before after p rfl hrun
    obtain ⟨⟨done, h⟩, hordered⟩ :=
      run_ordered (Transition.allowed_of_append hall hrun).1 hrun
    exact h.inOrder hordered
  · intro hinOrder
    refine Transition.allowed_of_forall_prefix fun before a after p hsteps hrun => ?_
    cases a with
    | begin index =>
        obtain ⟨done, h⟩ := run_faithful hrun
        obtain ⟨p', hp'⟩ := @exists_step _ _ _ _ domainEvent p (.begin index)
        refine inTurn_of_inOrder h hp' (hinOrder (before ++ [.begin index]) after p' ?_ ?_)
        · rw [hsteps, List.append_assoc, List.singleton_append]
        · exact Transition.run_append_ok.mpr
            ⟨p, hrun, Transition.run_cons_ok.mpr ⟨p', hp', rfl⟩⟩
    | call call => trivial
    | drain => trivial
    | finish index => trivial

/-- Two subscribers of a class of events, two events, and a concurrent queue that begins the
last closure first. -/
def lastFirst : List (Step EventType Nat) :=
  [.call (.subscribe 0 .accountsBalancesUpdated), .call (.subscribe 1 .accountsBalancesUpdated),
    .call (.publish .accountsBalancesUpdated), .call (.publish .accountsBalancesUpdated), .drain,
    .drain, .drain, .drain, .begin 3, .begin 2, .begin 1, .begin 0]

/-- Both subscribers get the second event first, and the second subscriber is called first. -/
theorem not_inOrder_lastFirst :
    ∃ p, Transition.run (step EventType.domainEvent) {} lastFirst = .ok p ∧
      p.begun.map (fun d => (d.subscription.id, d.event.id)) = [(1, 3), (0, 3), (1, 2), (0, 2)] ∧
      ¬ InOrder .domainEvent p :=
  ⟨_, rfl, by decide, fun h => absurd h.subscriber (by decide)⟩

end EventPublisher

end MultisigWallet
