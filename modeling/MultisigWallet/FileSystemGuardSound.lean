import Mathlib.Data.List.Nodup
import Mathlib.Data.List.Range
import MultisigWallet.FileSystemGuard
import MultisigWallet.Lib.Transition

/-!
# MultisigWallet.FileSystemGuardSound

What the guard promises the threads that open databases, whatever order the calls, the blocks of
the queue and the threads take. A background thread comes through only if the guard had access when
it was asked, or was unlocked afterwards; semaphores are signalled once and in the order they were
added; and no signal gets lost: once the device is unlocked and the queue has run its blocks, every
thread that waits opens its database.
-/

namespace MultisigWallet

namespace FileSystemGuard

variable {done : List Block} {g : FileSystemGuard} {block : Block} {k : Nat}

/-! ### What the calls amount to -/

/-- The access after a block. -/
def accessNext (hasAccess : Bool) : Block → Bool
  | .addUnlockSemaphore _ => hasAccess
  | .didUnlock => true
  | .didLock => false

/-- The access after the calls. -/
def accessAfter (calls : List Block) : Bool := calls.foldl accessNext true

def Block.semaphore : Block → Option Nat
  | .addUnlockSemaphore semaphore => some semaphore
  | _ => none

/-- The semaphores that were added. -/
def requests (calls : List Block) : List Nat := calls.filterMap Block.semaphore

/-- The guard had access when the semaphore came, or was unlocked afterwards. -/
def Granted (calls : List Block) (k : Nat) : Prop :=
  ∃ before after, calls = before ++ .addUnlockSemaphore k :: after ∧
    (accessAfter before = true ∨ .didUnlock ∈ after)

theorem accessAfter_concat (calls : List Block) (block : Block) :
    accessAfter (calls ++ [block]) = accessNext (accessAfter calls) block := by
  simp [accessAfter]

theorem requests_append (calls more : List Block) :
    requests (calls ++ more) = requests calls ++ requests more :=
  List.filterMap_append

theorem mem_requests {calls : List Block} : k ∈ requests calls ↔ .addUnlockSemaphore k ∈ calls := by
  rw [requests, List.mem_filterMap]
  constructor
  · intro h
    obtain ⟨block, hmem, hblock⟩ := h
    cases block with
    | addUnlockSemaphore semaphore => exact Option.some.inj hblock ▸ hmem
    | didUnlock => cases hblock
    | didLock => cases hblock
  · exact fun h => ⟨_, h, rfl⟩

theorem Granted.requested {calls : List Block} (h : Granted calls k) : k ∈ requests calls := by
  obtain ⟨before, after, rfl, -⟩ := h
  simp [mem_requests]

theorem Granted.append {calls : List Block} (h : Granted calls k) (more : List Block) :
    Granted (calls ++ more) k := by
  obtain ⟨before, after, rfl, hgrant⟩ := h
  refine ⟨before, after ++ more, by simp, hgrant.imp_right fun h => ?_⟩
  exact List.mem_append_left _ h

/-- A block grants what it adds with access, and an unlocking all that was added before. -/
theorem granted_concat {calls : List Block} :
    Granted (calls ++ [block]) k ↔ Granted calls k ∨
      block = .addUnlockSemaphore k ∧ accessAfter calls = true ∨
      block = .didUnlock ∧ k ∈ requests calls := by
  constructor
  · intro h
    obtain ⟨before, after, hsplit, hgrant⟩ := h
    rcases List.eq_nil_or_concat' after with rfl | ⟨after, last, rfl⟩
    · obtain ⟨rfl, hlast⟩ := List.append_inj' hsplit rfl
      exact .inr (.inl ⟨List.singleton_inj.mp hlast, hgrant.resolve_right List.not_mem_nil⟩)
    · rw [← List.cons_append, ← List.append_assoc] at hsplit
      obtain ⟨rfl, hlast⟩ := List.append_inj' hsplit rfl
      rcases hgrant with hgrant | hgrant
      · exact .inl ⟨before, after, rfl, .inl hgrant⟩
      · rcases List.mem_append.mp hgrant with hafter | hunlock
        · exact .inl ⟨before, after, rfl, .inr hafter⟩
        · refine .inr (.inr ⟨?_, by simp [mem_requests]⟩)
          rw [List.singleton_inj.mp hlast, List.mem_singleton.mp hunlock]
  · intro h
    rcases h with h | ⟨rfl, haccess⟩ | ⟨rfl, hmem⟩
    · exact h.append [block]
    · exact ⟨calls, [], rfl, .inl haccess⟩
    · obtain ⟨before, after, rfl⟩ := List.append_of_mem (mem_requests.mp hmem)
      exact ⟨before, after ++ [.didUnlock], by simp, .inr (by simp)⟩

/-! ### The guard after some blocks -/

/-- What the guard is after the blocks `done`. -/
structure Follows (done : List Block) (g : FileSystemGuard) : Prop where
  access : g.hasAccess = accessAfter done
  /-- The semaphores are signalled in the order they were added. -/
  order : g.signals ++ g.semaphores = requests done
  /-- Nobody waits without reason. -/
  idle : g.hasAccess = true → g.semaphores = []
  granted : ∀ k, k ∈ g.signals ↔ Granted done k

/-- With access the loop signals every semaphore. -/
theorem checkSemaphores_eq (semaphores signals : List Nat) :
    checkSemaphores ⟨true, semaphores, signals⟩ semaphores = ⟨true, [], signals ++ semaphores⟩ := by
  induction semaphores generalizing signals with
  | nil => simp [checkSemaphores]
  | cons semaphore semaphores ih =>
      show checkSemaphores ⟨true, semaphores, signals ++ [semaphore]⟩ semaphores = _
      rw [ih, List.append_assoc, List.singleton_append]

theorem perform_didUnlock : g.perform .didUnlock = ⟨true, [], g.signals ++ g.semaphores⟩ :=
  checkSemaphores_eq g.semaphores g.signals

theorem perform_add (h : g.hasAccess = true) :
    g.perform (.addUnlockSemaphore k) = { g with signals := g.signals ++ [k] } := by
  simp [perform, checkSemaphore, h]

theorem perform_add_locked (h : g.hasAccess = false) :
    g.perform (.addUnlockSemaphore k) = { g with semaphores := g.semaphores ++ [k] } := by
  simp [perform, checkSemaphore, h]

theorem follows_start : Follows [] {} := by
  refine ⟨rfl, rfl, fun _ => rfl, fun k => ⟨fun h => absurd h List.not_mem_nil, fun h => ?_⟩⟩
  exact absurd h.requested List.not_mem_nil

theorem Follows.perform (h : Follows done g) (block : Block) :
    Follows (done ++ [block]) (g.perform block) := by
  cases block with
  | addUnlockSemaphore semaphore =>
      cases haccess : g.hasAccess with
      | true =>
          have hafter := h.access ▸ haccess
          have horder := h.order
          rw [h.idle haccess, List.append_nil] at horder
          rw [perform_add haccess]
          refine ⟨?_, ?_, fun _ => h.idle haccess, fun k => ?_⟩
          · rw [accessAfter_concat]
            exact h.access
          · show g.signals ++ [semaphore] ++ g.semaphores = _
            rw [h.idle haccess, List.append_nil, horder, requests_append]
            rfl
          · rw [granted_concat, List.mem_append, List.mem_singleton, h.granted]
            simp [hafter, eq_comm]
      | false =>
          have hafter := h.access ▸ haccess
          rw [perform_add_locked haccess]
          refine ⟨?_, ?_, fun hlocked => ?_, fun k => ?_⟩
          · rw [accessAfter_concat]
            exact h.access
          · show g.signals ++ (g.semaphores ++ [semaphore]) = _
            rw [← List.append_assoc, h.order, requests_append]
            rfl
          · rw [show g.hasAccess = true from hlocked] at haccess
            cases haccess
          · rw [granted_concat]
            simp [hafter, h.granted]
  | didUnlock =>
      rw [perform_didUnlock]
      refine ⟨?_, ?_, fun _ => rfl, fun k => ?_⟩
      · rw [accessAfter_concat]
        rfl
      · rw [List.append_nil, h.order, requests_append]
        exact (List.append_nil _).symm
      · -- What was granted was requested, so the last case covers it.
        rw [h.order, granted_concat]
        constructor
        · exact fun hk => .inr (.inr ⟨rfl, hk⟩)
        · intro hk
          rcases hk with hk | ⟨hblock, -⟩ | ⟨-, hk⟩
          · exact hk.requested
          · cases hblock
          · exact hk
  | didLock =>
      refine ⟨?_, ?_, fun hlocked => ?_, fun k => ?_⟩
      · rw [accessAfter_concat]
        rfl
      · show g.signals ++ g.semaphores = _
        rw [h.order, requests_append]
        exact (List.append_nil _).symm
      · cases hlocked
      · rw [granted_concat]
        show k ∈ g.signals ↔ _
        simp [h.granted]

theorem Follows.signals_subset (block : Block) (h : k ∈ g.signals) :
    k ∈ (g.perform block).signals := by
  cases block with
  | addUnlockSemaphore semaphore =>
      cases haccess : g.hasAccess with
      | true =>
          rw [perform_add haccess]
          exact List.mem_append_left _ h
      | false =>
          rw [perform_add_locked haccess]
          exact h
  | didUnlock =>
      rw [perform_didUnlock]
      exact List.mem_append_left _ h
  | didLock => exact h

end FileSystemGuard

namespace GuardedProcess

open FileSystemGuard

variable {p q : GuardedProcess} {a : GuardedAction} {done : List Block}

/-! ### One step -/

/-- Of the blocks of the calls, `done` were run. Each call of `sqlite3_open` added its semaphore. -/
structure Kept (p : GuardedProcess) (done : List Block) : Prop where
  ran : SerialQueue.Ran FileSystemGuard.perform {} p.calls done p.queue
  requested : requests p.calls = List.range p.opens.length
  opened : ∀ k o, p.opens[k]? = some o → o.isMainThread = false → o.isOpened = true →
    k ∈ p.queue.state.signals

theorem kept_start : Kept {} [] := by
  refine ⟨SerialQueue.ran_start _, rfl, fun k o ho => ?_⟩
  cases ho

theorem Kept.follows (h : Kept p done) : Follows done p.queue.state :=
  h.ran.invariant follows_start fun _ _ block hs => hs.perform block

theorem Kept.call (h : Kept p done) {block : Block} (hblock : requests [block] = []) :
    Kept (p.call block) done := by
  refine ⟨h.ran.async block, ?_, h.opened⟩
  show requests (p.calls ++ [block]) = _
  rw [requests_append, hblock, List.append_nil]
  exact h.requested

/-- A resumed thread opens its database, or has to wait on. -/
theorem step_resume (k : Nat) :
    (p.step (.resume k) = .ok p ∧ ∀ o, p.opens[k]? = some o → p.canOpen k o = false) ∨
      ∃ o, p.opens[k]? = some o ∧ p.canOpen k o = true ∧
        p.step (.resume k) = .ok { p with opens := p.opens.set k { o with isOpened := true } } := by
  cases ho : p.opens[k]? with
  | none =>
      refine .inl ⟨by rw [step, ho], fun o h => ?_⟩
      cases h
  | some o =>
      cases hcan : p.canOpen k o with
      | true => exact .inr ⟨o, rfl, hcan, by simp [step, ho, hcan]⟩
      | false =>
          refine .inl ⟨by simp [step, ho, hcan], fun o' ho' => ?_⟩
          exact Option.some.inj ho' ▸ hcan

theorem Kept.step (h : Kept p done) (hstep : p.step a = .ok q) : ∃ done, Kept q done := by
  cases a with
  | sqlite3_open isMainThread =>
      obtain rfl := Except.ok.inj hstep
      refine ⟨done, h.ran.async _, ?_, fun k o ho hmain hopened => ?_⟩
      · show requests (p.calls ++ [_]) = List.range (p.opens ++ [_]).length
        rw [requests_append, h.requested, List.length_append, List.length_singleton,
          List.range_succ]
        rfl
      · have ho' : (p.opens ++ [⟨isMainThread, false⟩])[k]? = some o := ho
        rw [List.getElem?_append] at ho'
        split at ho'
        · exact h.opened k o ho' hmain hopened
        · -- The thread of the new call did not get to run yet.
          have hnew := List.mem_singleton.mp (List.mem_of_getElem? ho')
          rw [hnew] at hopened
          cases hopened
  | didUnlock =>
      obtain rfl := Except.ok.inj hstep
      exact ⟨done, h.call rfl⟩
  | didLock =>
      obtain rfl := Except.ok.inj hstep
      exact ⟨done, h.call rfl⟩
  | runBlock =>
      obtain rfl := Except.ok.inj hstep
      obtain ⟨done', -, hran⟩ := h.ran.runNext
      refine ⟨done', hran, h.requested, fun k o ho hmain hopened => ?_⟩
      have hmem := h.opened k o ho hmain hopened
      cases hblocks : p.queue.blocks with
      | nil =>
          rw [SerialQueue.runNext_of_nil hblocks]
          exact hmem
      | cons block blocks =>
          rw [SerialQueue.runNext_of_cons hblocks]
          exact Follows.signals_subset block hmem
  | resume semaphore =>
      rcases step_resume (p := p) semaphore with ⟨hsame, -⟩ | ⟨o, ho, hcan, hopens⟩
      · rw [hsame] at hstep
        exact ⟨done, Except.ok.inj hstep ▸ h⟩
      · rw [hopens] at hstep
        obtain rfl := Except.ok.inj hstep
        refine ⟨done, h.ran, ?_, fun k o' ho' hmain hopened => ?_⟩
        · rw [List.length_set]
          exact h.requested
        · rw [List.getElem?_set] at ho'
          split at ho'
          · next hk =>
              subst hk
              split at ho'
              · obtain rfl := Option.some.inj ho'
                have hbackground : o.isMainThread = false := hmain
                rw [canOpen, if_neg (by simp [hbackground])] at hcan
                exact of_decide_eq_true hcan
              · cases ho'
          · exact h.opened k o' ho' hmain hopened

/-! ### Runs -/

/-- What holds of the threads when the blocks `done` were run. -/
structure Guarded (p : GuardedProcess) (done : List Block) : Prop where
  calls : p.calls = done ++ p.queue.blocks
  follows : Follows done p.queue.state
  signalled_once : p.queue.state.signals.Nodup
  /-- A background thread came through. -/
  opened : ∀ k o, p.opens[k]? = some o → o.isMainThread = false → o.isOpened = true →
    Granted done k

theorem Kept.guarded (h : Kept p done) : Guarded p done := by
  have hfollows := h.follows
  refine ⟨h.ran.calls, hfollows, ?_, fun k o ho hmain hopened => ?_⟩
  · have hnodup : (requests done).Nodup := by
      have hrange := List.nodup_range (n := p.opens.length)
      rw [← h.requested, h.ran.calls, requests_append] at hrange
      exact (List.nodup_append.mp hrange).1
    rw [← hfollows.order] at hnodup
    exact (List.nodup_append.mp hnodup).1
  · exact (hfollows.granted k).mp (h.opened k o ho hmain hopened)

theorem kept_run {as : List GuardedAction} (hrun : Transition.run step {} as = .ok p) :
    ∃ done, Kept p done :=
  Transition.run_invariant (I := fun p => ∃ done, Kept p done)
    (fun _ _ _ h hstep => h.elim fun _ h => h.step hstep) ⟨[], kept_start⟩ hrun

/-- Whatever order the calls, the blocks and the threads take: a background thread opens its
database only if the guard had access when the semaphore came, or was unlocked afterwards.
Semaphores are signalled in the order they were added, each at most once, and none is kept while
there is access. -/
theorem background_opens_granted {as : List GuardedAction}
    (hrun : Transition.run step {} as = .ok p) : ∃ done, Guarded p done := by
  obtain ⟨done, h⟩ := kept_run hrun
  exact ⟨done, h.guarded⟩

/-- Two threads that come while the device is locked, and one after. -/
theorem background_opens_granted_three : ∃ p : GuardedProcess, ∃ done,
    p.queue.state.signals = [0, 1] ∧ p.opens.map (·.isOpened) = [false, true, false] ∧
      Guarded p done := by
  have hrun : Transition.run step {} [.didLock, .sqlite3_open false, .runBlock,
      .sqlite3_open false, .runBlock, .didUnlock, .runBlock, .runBlock, .sqlite3_open false,
      .resume 1, .resume 2] = .ok
      ⟨⟨⟨true, [], [0, 1]⟩, [.addUnlockSemaphore 2]⟩,
        [⟨false, false⟩, ⟨false, true⟩, ⟨false, false⟩],
        [.didLock, .addUnlockSemaphore 0, .addUnlockSemaphore 1, .didUnlock,
          .addUnlockSemaphore 2]⟩ := rfl
  obtain ⟨done, h⟩ := background_opens_granted hrun
  exact ⟨_, done, rfl, rfl, h⟩

/-! ### No signal gets lost -/

/-- A step of the queue or of a thread. -/
def isScheduled : GuardedAction → Bool
  | .runBlock => true
  | .resume _ => true
  | _ => false

/-- After all calls there is access, and at most `n` blocks are left. -/
structure Unlocked (n : Nat) (p : GuardedProcess) : Prop where
  kept : ∃ done, Kept p done
  access : accessAfter p.calls = true
  left : p.queue.blocks.length ≤ n

/-- When all blocks were run, every thread that waits can go on. -/
theorem Unlocked.canOpen (h : Unlocked 0 p) {k : Nat} {o : GuardedOpen}
    (ho : p.opens[k]? = some o) :
    p.canOpen k o = true := by
  obtain ⟨done, hkept⟩ := h.kept
  have hfollows := hkept.follows
  have hdone : done = p.calls :=
    hkept.ran.of_nil (List.length_eq_zero_iff.mp (Nat.le_zero.mp h.left))
  have haccess : p.queue.state.hasAccess = true := by
    rw [hfollows.access, hdone]
    exact h.access
  rw [GuardedProcess.canOpen]
  split
  · exact haccess
  · have horder := hfollows.order
    rw [hfollows.idle haccess, List.append_nil, hdone, hkept.requested] at horder
    rw [horder, decide_eq_true_iff, List.mem_range]
    exact (List.getElem?_eq_some_iff.mp ho).1

theorem unlocked_step {n : Nat} (h : Unlocked n p) (ha : isScheduled a = true)
    (hstep : p.step a = .ok q) : Unlocked (if a = .runBlock then n - 1 else n) q := by
  obtain ⟨done, hkept⟩ := h.kept
  have hq := hkept.step hstep
  cases a with
  | runBlock =>
      obtain rfl := Except.ok.inj hstep
      refine ⟨hq, h.access, ?_⟩
      rw [if_pos rfl]
      have hleft := h.left
      show (p.queue.runNext _).blocks.length ≤ n - 1
      cases hblocks : p.queue.blocks with
      | nil =>
          rw [SerialQueue.runNext_of_nil hblocks, hblocks]
          exact Nat.zero_le _
      | cons block blocks =>
          rw [SerialQueue.runNext_of_cons hblocks]
          rw [hblocks, List.length_cons] at hleft
          exact Nat.le_sub_one_of_lt hleft
  | resume semaphore =>
      rw [if_neg (by simp)]
      rcases step_resume (p := p) semaphore with ⟨hsame, -⟩ | ⟨o, -, -, hopens⟩
      · rw [hsame] at hstep
        exact Except.ok.inj hstep ▸ h
      · rw [hopens] at hstep
        obtain rfl := Except.ok.inj hstep
        exact ⟨hq, h.access, h.left⟩
  | _ => cases ha

/-- The blocks that are left get fewer with each one that is run. -/
theorem unlocked_run {n : Nat} {as : List GuardedAction} (h : Unlocked n p)
    (has : ∀ a ∈ as, isScheduled a = true) (hrun : Transition.run step p as = .ok q) :
    Unlocked (n - as.count .runBlock) q := by
  induction as generalizing p n with
  | nil =>
      obtain rfl := Except.ok.inj hrun
      exact h
  | cons a as ih =>
      obtain ⟨ha, has⟩ := List.forall_mem_cons.mp has
      obtain ⟨u, hstep, hrun⟩ := Transition.run_cons_ok.mp hrun
      have hq := ih (unlocked_step h ha hstep) has hrun
      refine ⟨hq.kept, hq.access, hq.left.trans ?_⟩
      by_cases hblock : a = .runBlock
      · rw [if_pos hblock, hblock, List.count_cons_self]
        omega
      · rw [if_neg hblock, List.count_cons_of_ne hblock]

/-- The call has opened its database. -/
def Opened (p : GuardedProcess) (k : Nat) : Prop :=
  ∀ o, p.opens[k]? = some o → o.isOpened = true

theorem Opened.step {k : Nat} (h : Opened p k) (ha : isScheduled a = true)
    (hstep : p.step a = .ok q) : Opened q k := by
  cases a with
  | runBlock =>
      obtain rfl := Except.ok.inj hstep
      exact h
  | resume semaphore =>
      rcases step_resume (p := p) semaphore with ⟨hsame, -⟩ | ⟨o, -, -, hopens⟩
      · rw [hsame] at hstep
        exact Except.ok.inj hstep ▸ h
      · rw [hopens] at hstep
        obtain rfl := Except.ok.inj hstep
        intro o' ho'
        rw [List.getElem?_set] at ho'
        split at ho'
        · split at ho'
          · exact Option.some.inj ho' ▸ rfl
          · cases ho'
        · exact h o' ho'
  | _ => cases ha

/-- A thread that is resumed now has opened its database in the end. -/
theorem Unlocked.opened {k : Nat} {as : List GuardedAction} (h : Unlocked 0 p)
    (has : ∀ a ∈ as, isScheduled a = true) (hk : Opened p k ∨ .resume k ∈ as)
    (hrun : Transition.run step p as = .ok q) : Opened q k := by
  induction as generalizing p with
  | nil =>
      obtain rfl := Except.ok.inj hrun
      exact hk.resolve_right List.not_mem_nil
  | cons a as ih =>
      obtain ⟨ha, has⟩ := List.forall_mem_cons.mp has
      obtain ⟨u, hstep, hrun⟩ := Transition.run_cons_ok.mp hrun
      have hu : Unlocked 0 u := by
        have hu := unlocked_step h ha hstep
        split at hu <;> exact hu
      refine ih hu has ?_ hrun
      rcases hk with hk | hk
      · exact .inl (hk.step ha hstep)
      · rcases List.mem_cons.mp hk with rfl | hk
        · refine .inl fun o ho => ?_
          rcases step_resume (p := p) k with ⟨hsame, hstuck⟩ | ⟨o', ho', -, hopens⟩
          · rw [hsame] at hstep
            obtain rfl := Except.ok.inj hstep
            -- No thread has to wait on.
            have hcan := h.canOpen ho
            rw [hstuck o ho] at hcan
            cases hcan
          · rw [hopens] at hstep
            obtain rfl := Except.ok.inj hstep
            rw [List.getElem?_set_self (List.getElem?_eq_some_iff.mp ho').1] at ho
            exact Option.some.inj ho ▸ rfl
        · exact .inr hk

/-- No signal gets lost. If the last the guard was told is that the device is unlocked, then a
thread that gets to run after the queue has run its blocks opens its database, whatever order the
blocks and the threads take. -/
theorem unlocked_opens {as more rest : List GuardedAction}
    (hrun : Transition.run step {} as = .ok p) (haccess : accessAfter p.calls = true)
    (hscheduled : ∀ a ∈ more ++ rest, isScheduled a = true)
    (hblocks : p.queue.blocks.length ≤ more.count .runBlock)
    (hq : Transition.run step p (more ++ rest) = .ok q) {k : Nat} (hk : .resume k ∈ rest) :
    Opened q k := by
  obtain ⟨u, hmore, hrest⟩ := Transition.run_append_ok.mp hq
  have hp : Unlocked p.queue.blocks.length p := ⟨kept_run hrun, haccess, Nat.le_refl _⟩
  have hu := unlocked_run hp (fun a ha => hscheduled a (List.mem_append_left _ ha)) hmore
  rw [Nat.sub_eq_zero_of_le hblocks] at hu
  exact hu.opened (fun a ha => hscheduled a (List.mem_append_right _ ha)) (.inr hk) hrest

/-- A background thread and the main thread, both stuck while the device was locked. -/
theorem unlocked_opens_both : ∃ p q : GuardedProcess,
    p.opens.map (·.isOpened) = [false, false] ∧ p.queue.blocks.length = 2 ∧
      Opened q 0 ∧ Opened q 1 := by
  let calls : List Block :=
    [.didLock, .addUnlockSemaphore 0, .addUnlockSemaphore 1, .didUnlock]
  let p : GuardedProcess :=
    ⟨⟨⟨false, [0], []⟩, [.addUnlockSemaphore 1, .didUnlock]⟩,
      [⟨false, false⟩, ⟨true, false⟩], calls⟩
  let q : GuardedProcess := ⟨⟨⟨true, [], [0, 1]⟩, []⟩, [⟨false, true⟩, ⟨true, true⟩], calls⟩
  have hrun : Transition.run step {} [.didLock, .runBlock, .sqlite3_open false,
      .sqlite3_open true, .resume 0, .resume 1, .runBlock, .didUnlock] = .ok p := rfl
  have hq : Transition.run step p ([.runBlock, .resume 0, .runBlock] ++ [.resume 1, .resume 0]) =
      .ok q := rfl
  exact ⟨p, q, rfl, rfl, unlocked_opens hrun rfl (by decide) (by decide) hq (by decide),
    unlocked_opens hrun rfl (by decide) (by decide) hq (by decide)⟩

end GuardedProcess

end MultisigWallet
