import Mathlib.Tactic.Ring
import MultisigWallet.Lib.Streak
import MultisigWallet.Polling

/-!
# MultisigWallet.PollingSound

What a worker has done, whatever the service answers. It goes on until a value stops it or until
the third failure in a row: the count of `repeatBlock(every:block:)` is what the streak of failures
at the end leaves of three (`repeatLoop_outcome`). The observer of a balance is told every change
once; what is waited for is there when it is unwrapped.
-/

namespace MultisigWallet

namespace EthereumApplicationService

section

variable {σ α : Type} (block : σ → α → σ × Bool)

/-- The call threw. -/
def failed : Except Error α → Bool
  | .ok _ => false
  | .error _ => true

/-- The state after answers of which none stopped the worker. -/
def advance : σ → List (Except Error α) → Option σ
  | s, [] => some s
  | s, .ok value :: answers =>
      if (block s value).2 then none else advance (block s value).1 answers
  | s, .error _ :: answers => advance s answers

/-- Where the worker is after the answers, which it began in the state `s`. -/
inductive Outcome (s : σ) : List (Except Error α) → Polled σ → Prop
  | polling {answers : List (Except Error α)} {t : σ} (hfailed : Streak.Below failed 3 answers)
      (hadvance : advance block s answers = some t) : Outcome s answers (.polling t)
  | returned {before after : List (Except Error α)} {value : α} {t : σ}
      (hfailed : Streak.Below failed 3 before) (hadvance : advance block s before = some t)
      (hstop : (block t value).2 = true) :
      Outcome s (before ++ .ok value :: after) (.returned (block t value).1)
  | threw {before after : List (Except Error α)} {error : Error} {t : σ}
      (hfailed : Streak.Below failed 3 before)
      (hthird : Streak.atEnd failed (before ++ [.error error]) = 3)
      (hadvance : advance block s before = some t) :
      Outcome s (before ++ .error error :: after) (.threw error t)

variable {block} {s t : σ}

theorem advance_append (before after : List (Except Error α)) :
    advance block s (before ++ after) =
      (advance block s before).bind fun t => advance block t after := by
  induction before generalizing s with
  | nil => rfl
  | cons answer before ih =>
      cases answer with
      | error e => exact ih
      | ok value =>
          rw [List.cons_append, advance, advance]
          by_cases hstop : (block s value).2 = true
          · simp [hstop]
          · rw [if_neg hstop, if_neg hstop]
            exact ih

theorem advance_concat {before : List (Except Error α)} {answer : Except Error α} :
    advance block s (before ++ [answer]) = some t ↔
      ∃ u, advance block s before = some u ∧ advance block u [answer] = some t := by
  rw [advance_append, Option.bind_eq_some_iff]

/-- The retries that are left are those that the failures at the end left. -/
theorem repeatLoop_outcome {past answers : List (Except Error α)} {s₀ : σ}
    (hfailed : Streak.Below failed 3 past) (hadvance : advance block s₀ past = some s) :
    Outcome block s₀ (past ++ answers)
      (repeatLoop block s (3 - Streak.atEnd failed past) answers) := by
  induction answers generalizing past s with
  | nil =>
      rw [List.append_nil]
      exact .polling hfailed hadvance
  | cons answer answers ih =>
      cases answer with
      | ok value =>
          unfold repeatLoop
          by_cases hstop : (block s value).2 = true
          · simp only [hstop, if_true]
            exact .returned hfailed hadvance hstop
          · have hend : Streak.atEnd failed (past ++ [.ok value]) = 0 :=
              Streak.atEnd_concat_neg rfl
            have hnext : advance block s₀ (past ++ [.ok value]) = some (block s value).1 := by
              rw [advance_append, hadvance, Option.bind_some, advance, if_neg hstop, advance]
            have hrest := ih (Streak.below_concat.mpr ⟨hfailed, by omega⟩) hnext
            rw [hend, List.append_assoc] at hrest
            simp only [hstop]
            exact hrest
      | error e =>
          have hend : Streak.atEnd failed (past ++ [.error e]) = Streak.atEnd failed past + 1 :=
            Streak.atEnd_concat_pos rfl
          unfold repeatLoop
          by_cases hthird : (3 : Int) - Streak.atEnd failed past - 1 = 0
          · rw [if_pos hthird]
            exact .threw hfailed (by omega) hadvance
          · have hnext : advance block s₀ (past ++ [.error e]) = some s := by
              rw [advance_append, hadvance]
              rfl
            have hbelow : Streak.atEnd failed past < 3 :=
              hfailed _ (List.rtakeWhile_suffix _ _).isInfix fun a ha => List.mem_rtakeWhile_imp ha
            have hrest := ih (Streak.below_concat.mpr ⟨hfailed, by omega⟩) hnext
            have hcount : (3 : Int) - (Streak.atEnd failed past + 1 : Nat) =
                3 - Streak.atEnd failed past - 1 := by omega
            rw [hend, List.append_assoc, hcount] at hrest
            rw [if_neg hthird]
            exact hrest

theorem repeatBlock_outcome (s : σ) (answers : List (Except Error α)) :
    Outcome block s answers (repeatBlock block s answers) :=
  repeatLoop_outcome (Streak.below_nil (by decide)) rfl

/-- The values among the answers. -/
def values (answers : List (Except Error α)) : List α := answers.filterMap Except.toOption

theorem values_ok (before : List (Except Error α)) (value : α) :
    values (before ++ [.ok value]) = values before ++ [value] := by
  simp [values, Except.toOption]

theorem values_error (before : List (Except Error α)) (error : Error) :
    values (before ++ [.error error]) = values before := by
  simp [values, Except.toOption]

end

/-! ### Changes of a balance -/

section

variable (observer : List Int → Bool)

/-- The observer did not stop the worker. -/
def GoesOn (told : List Int) : Prop :=
  ∀ front, front <+: told → front ≠ [] → observer front = false

/-- What an observer was told, after which answers. -/
inductive Observed : List (Except Error Int) → Polled Observing → Prop
  | polling {answers : List (Except Error Int)} {t : Observing}
      (hfailed : Streak.Below failed 3 answers)
      (htold : t.told = (values answers).destutter (· ≠ ·)) (hobserver : GoesOn observer t.told) :
      Observed answers (.polling t)
  | returned {before after : List (Except Error Int)} {newBalance : Int} {t : Observing}
      (hfailed : Streak.Below failed 3 before)
      (htold : t.told = (values (before ++ [.ok newBalance])).destutter (· ≠ ·))
      (hstop : observer t.told = true) (hobserver : GoesOn observer t.told.dropLast) :
      Observed (before ++ .ok newBalance :: after) (.returned t)
  | threw {before after : List (Except Error Int)} {error : Error} {t : Observing}
      (hfailed : Streak.Below failed 3 before)
      (hthird : Streak.atEnd failed (before ++ [.error error]) = 3)
      (htold : t.told = (values before).destutter (· ≠ ·)) (hobserver : GoesOn observer t.told) :
      Observed (before ++ .error error :: after) (.threw error t)

/-- The block of `observeChangesInBalance(address:every:block:)`. -/
def observe (s : Observing) (newBalance : Int) : Observing × Bool :=
  if some newBalance ≠ s.balance then
    (⟨some newBalance, s.told ++ [newBalance]⟩, observer (s.told ++ [newBalance]))
  else (⟨some newBalance, s.told⟩, false)

variable {observer}

theorem goesOn_concat {told : List Int} {newBalance : Int} :
    GoesOn observer (told ++ [newBalance]) ↔
      GoesOn observer told ∧ observer (told ++ [newBalance]) = false := by
  unfold GoesOn
  constructor
  · intro h
    refine ⟨fun front hfront => h front (hfront.trans (List.prefix_append _ _)), ?_⟩
    exact h _ (List.prefix_refl _) (by simp)
  · intro h front hfront hne
    rcases List.prefix_concat_iff.mp hfront with rfl | hfront
    · exact h.2
    · exact h.1 front hfront hne

theorem observe_same {s : Observing} {newBalance : Int} (h : s.balance = some newBalance) :
    observe observer s newBalance = (⟨some newBalance, s.told⟩, false) := by
  simp [observe, h]

theorem observe_changed {s : Observing} {newBalance : Int} (h : s.balance ≠ some newBalance) :
    observe observer s newBalance =
      (⟨some newBalance, s.told ++ [newBalance]⟩, observer (s.told ++ [newBalance])) := by
  simp [observe, h.symm]

theorem advance_observe {answers : List (Except Error Int)} {t : Observing}
    (h : advance (observe observer) {} answers = some t) :
    t.balance = (values answers).getLast? ∧ t.told = (values answers).destutter (· ≠ ·) ∧
      GoesOn observer t.told := by
  induction answers using List.reverseRecOn generalizing t with
  | nil =>
      obtain rfl := Option.some.inj h
      exact ⟨rfl, rfl, fun front hfront hne => absurd (List.prefix_nil.mp hfront) hne⟩
  | append_singleton before answer ih =>
      obtain ⟨u, hu, ht⟩ := advance_concat.mp h
      obtain ⟨hbalance, htold, hobserver⟩ := ih hu
      cases answer with
      | error e =>
          obtain rfl := Option.some.inj ht
          rw [values_error]
          exact ⟨hbalance, htold, hobserver⟩
      | ok newBalance =>
          have hstop : (observe observer u newBalance).2 = false := by
            by_contra hstop
            simp [advance, hstop] at ht
          have hu : (observe observer u newBalance).1 = t := by
            simpa [advance, hstop] using ht
          rw [values_ok, Streak.destutter_concat, ← hbalance, ← htold]
          by_cases hsame : u.balance = some newBalance
          · rw [observe_same hsame] at hu
            subst hu
            simpa [hsame] using hobserver
          · rw [observe_changed hsame] at hu hstop
            subst hu
            simpa [hsame] using goesOn_concat.mpr ⟨hobserver, hstop⟩

/-- Whatever the service answers: the observer is told the first balance and every balance that
differs from the one before it, in order and each once, also when calls failed in between. The
worker ends once the observer wants it to, or at the third failure in a row, whose error is thrown;
otherwise it goes on. -/
theorem observeChangesInBalance_observed (observer : List Int → Bool)
    (answers : List (Except ServiceError Int)) :
    Observed observer (answers.map handleServiceErrors)
      (observeChangesInBalance observer answers) := by
  have houtcome : Outcome (observe observer) {} (answers.map handleServiceErrors)
      (observeChangesInBalance observer answers) := repeatBlock_outcome _ _
  generalize answers.map handleServiceErrors = handled at houtcome
  generalize observeChangesInBalance observer answers = polled at houtcome
  cases houtcome with
  | polling hfailed hadvance =>
      obtain ⟨-, htold, hobserver⟩ := advance_observe hadvance
      exact .polling hfailed htold hobserver
  | threw hfailed hthird hadvance =>
      obtain ⟨-, htold, hobserver⟩ := advance_observe hadvance
      exact .threw hfailed hthird htold hobserver
  | @returned before after newBalance t hfailed hadvance hstop =>
      obtain ⟨hbalance, htold, hobserver⟩ := advance_observe hadvance
      have hchanged : t.balance ≠ some newBalance := by
        intro hsame
        rw [observe_same hsame] at hstop
        cases hstop
      rw [observe_changed hchanged] at hstop ⊢
      refine .returned hfailed ?_ hstop (by simpa using hobserver)
      rw [values_ok, Streak.destutter_concat, ← hbalance, if_neg hchanged, htold]

/-- The observer wants no more than two balances. -/
example : (observeChangesInBalance (fun told => decide (told.length = 2)) [.ok 5,
    .error (.networkRequestFailed none), .ok 5, .error (.other []), .ok 7, .ok 9]).state.told =
      [5, 7] := by decide

end

/-! ### Waiting for a value -/

section

variable {α β : Type}

/-- What a worker that waits for a value comes to. -/
inductive Awaited (f : α → β) :
    List (Except Error (Option α)) → Option (Except Error β) → Prop
  | polling {answers : List (Except Error (Option α))} (hfailed : Streak.Below failed 3 answers)
      (hnone : ∀ value ∈ values answers, value = none) : Awaited f answers none
  | returned {before after : List (Except Error (Option α))} {value : α}
      (hfailed : Streak.Below failed 3 before) (hnone : ∀ value ∈ values before, value = none) :
      Awaited f (before ++ .ok (some value) :: after) (some (.ok (f value)))
  | threw {before after : List (Except Error (Option α))} {error : Error}
      (hfailed : Streak.Below failed 3 before)
      (hthird : Streak.atEnd failed (before ++ [.error error]) = 3)
      (hnone : ∀ value ∈ values before, value = none) :
      Awaited f (before ++ .error error :: after) (some (.error error))

theorem values_none {answers : List (Except Error (Option α))} {s t : Option α}
    (h : advance (fun _ value => (value, Option.isSome value)) s answers = some t) :
    ∀ value ∈ values answers, value = none := by
  induction answers generalizing s with
  | nil => simp [values]
  | cons answer answers ih =>
      cases answer with
      | error e => exact ih h
      | ok value =>
          cases value with
          | some value => cases h
          | none =>
              intro value hvalue
              rcases List.mem_cons.mp hvalue with rfl | hvalue
              · rfl
              · exact ih h value hvalue

theorem finish_awaited (name : String) (f : α → β)
    (answers : List (Except ServiceError (Option α))) :
    ∃ r, finish name f (waitForValue answers) = .ok r ∧
      Awaited f (answers.map handleServiceErrors) r := by
  have houtcome : Outcome (fun _ value => (value, Option.isSome value)) none
      (answers.map handleServiceErrors) (waitForValue answers) := repeatBlock_outcome _ _
  generalize answers.map handleServiceErrors = handled at houtcome
  generalize waitForValue answers = polled at houtcome
  cases houtcome with
  | polling hfailed hadvance => exact ⟨_, rfl, .polling hfailed (values_none hadvance)⟩
  | threw hfailed hthird hadvance => exact ⟨_, rfl, .threw hfailed hthird (values_none hadvance)⟩
  | @returned before after value t hfailed hadvance hstop =>
      obtain ⟨value, rfl⟩ := Option.isSome_iff_exists.mp hstop
      exact ⟨_, rfl, .returned hfailed (values_none hadvance)⟩

/-- What is waited for is unwrapped when it is there, whatever the service answers: the first value
is returned unless three calls in a row fail before. -/
theorem waits_awaited (answers : List (Except ServiceError (Option Str)))
    (receipts : List (Except ServiceError (Option TransactionStatus))) :
    (∃ r, waitForCreationTransaction answers = .ok r ∧
        Awaited id (answers.map handleServiceErrors) r) ∧
      ∃ r, waitForPendingTransaction receipts = .ok r ∧
        Awaited (fun status => decide (status = .success)) (receipts.map handleServiceErrors) r :=
  ⟨finish_awaited _ _ answers, finish_awaited _ _ receipts⟩

end

end EthereumApplicationService

/-! ### A bounded number of attempts -/

namespace RetryWithIncreasingDelay

variable {α ε : Type} {main : Nat → Except ε α}

/-- The waits after so many failures. -/
def delays (startDelay : Int) (failures : Nat) : List Int :=
  (List.range failures).map fun i => startDelay * (i + 1)

theorem delays_succ (startDelay : Int) (failures : Nat) :
    delays startDelay (failures + 1) =
      delays startDelay failures ++ [startDelay * (failures + 1)] := by
  simp [delays, List.range_succ]

/-- All the waits together. -/
theorem sum_delays (startDelay : Int) (failures : Nat) :
    2 * (delays startDelay failures).sum = startDelay * (failures * (failures + 1)) := by
  induction failures with
  | zero => simp [delays]
  | succ failures ih =>
      rw [delays_succ, List.sum_append, List.sum_singleton, mul_add, ih]
      push_cast
      ring

/-- What `start()` comes to after so many attempts. -/
inductive Tried (main : Nat → Except ε α) (maxAttempts : Nat) (startDelay : Int) :
    Retried α ε → Prop
  | succeeded {failures : Nat} {value : α} (hless : failures < maxAttempts)
      (hfailed : ∀ i < failures, ∃ e, main i = .error e) (hvalue : main failures = .ok value) :
      Tried main maxAttempts startDelay ⟨.ok value, delays startDelay failures⟩
  | failed {last : Nat} {error : ε} (hlast : maxAttempts = last + 1)
      (hfailed : ∀ i < maxAttempts, ∃ e, main i = .error e) (herror : main last = .error error) :
      Tried main maxAttempts startDelay ⟨.error error, delays startDelay maxAttempts⟩

/-- The error that is kept is the one of the last attempt. -/
theorem loop_tried {startDelay : Int} {attempts failures : Nat} {error : Option ε}
    (hattempts : 0 < failures + attempts)
    (hfailed : ∀ i < failures, ∃ e, main i = .error e)
    (herror : ∀ last, failures = last + 1 → ∃ e, error = some e ∧ main last = .error e) :
    ∃ r, loop main startDelay attempts failures (startDelay * (failures + 1)) error
        (delays startDelay failures) = .ok r ∧
      Tried main (failures + attempts) startDelay r := by
  induction attempts generalizing failures error with
  | zero =>
      obtain ⟨last, rfl⟩ := Nat.exists_eq_succ_of_ne_zero (Nat.pos_iff_ne_zero.mp hattempts)
      obtain ⟨e, rfl, he⟩ := herror last rfl
      exact ⟨_, rfl, .failed rfl hfailed he⟩
  | succ attempts ih =>
      unfold loop
      cases hmain : main failures with
      | ok value => exact ⟨_, rfl, .succeeded (by omega) hfailed hmain⟩
      | error e =>
          have hnext : startDelay * (failures + 1) + startDelay =
              startDelay * ((failures + 1 : Nat) + 1) := by
            push_cast
            ring
          simp only [hnext, ← delays_succ]
          rw [show failures + (attempts + 1) = failures + 1 + attempts by omega]
          refine ih (by omega) (fun i hi => ?_) fun last hlast => ?_
          · rcases Nat.lt_succ_iff_lt_or_eq.mp hi with hi | rfl
            · exact hfailed i hi
            · exact ⟨e, hmain⟩
          · obtain rfl := Nat.succ.inj hlast
            exact ⟨e, rfl, hmain⟩

/-- The first success among the allowed attempts is returned, after waits of one, two, three times
the delay and so on; the error of the last attempt is thrown, after one more wait, if there is
none. -/
theorem start_tried (startDelay : Int) {maxAttempts : Nat} (hpositive : 0 < maxAttempts)
    (main : Nat → Except ε α) :
    ∃ r, start maxAttempts startDelay main = .ok r ∧ Tried main maxAttempts startDelay r ∧
      ∃ failures ≤ maxAttempts, r.waits.length = failures ∧
        2 * r.waits.sum = startDelay * (failures * (failures + 1)) := by
  have hloop : ∃ r, loop main startDelay maxAttempts 0 (startDelay * ((0 : Nat) + 1)) none
      (delays startDelay 0) = .ok r ∧ Tried main (0 + maxAttempts) startDelay r :=
    loop_tried (by omega) (by simp) (by simp)
  obtain ⟨r, hr, htried⟩ := hloop
  rw [Nat.zero_add] at htried
  refine ⟨r, ?_, htried, ?_⟩
  · unfold start
    rw [bind_ok]
    refine ⟨(), precondition_ok.mpr (decide_eq_true hpositive), ?_⟩
    simpa [delays] using hr
  · cases htried with
    | @succeeded failures value hless hfailed hvalue =>
        exact ⟨failures, hless.le, by simp [delays], sum_delays startDelay failures⟩
    | failed hlast hfailed herror =>
        exact ⟨maxAttempts, Nat.le_refl _, by simp [delays], sum_delays startDelay maxAttempts⟩

/-- The third attempt succeeds, after waits of five and of ten seconds. -/
theorem start_tried_third :
    ∃ r, start 3 5 (fun i => if i < 2 then .error () else .ok i) = .ok r ∧ r.waits = [5, 10] ∧
      ∃ failures : Nat, failures ≤ 3 ∧ 2 * r.waits.sum = 5 * (failures * (failures + 1)) := by
  obtain ⟨r, hr, htried, failures, hfailures, -, hsum⟩ :=
    start_tried 5 (Nat.zero_lt_succ 2) fun i => if i < 2 then .error () else .ok i
  refine ⟨r, hr, ?_, failures, hfailures, hsum⟩
  obtain rfl := Except.ok.inj hr
  rfl

end RetryWithIncreasingDelay

end MultisigWallet
