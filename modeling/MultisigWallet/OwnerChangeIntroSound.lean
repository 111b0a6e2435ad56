import MultisigWallet.OwnerChangeIntro
import MultisigWallet.OwnerChangeSound

/-!
# MultisigWallet.OwnerChangeIntroSound

What the screen does whatever the user taps, and whenever the operations take their turns. There is
one operation at most: the states that add one are only left by its last block, or for good. So the
calls of the starter come in order (`calls_orderly`): one transaction is created, its cost is
estimated until an estimate has no error, and from then on that transaction is started, once for
each tap. `Stage` is this order together with what is under way.
-/

namespace MultisigWallet

namespace RBEIntroViewController

/-- A transaction was created, and no estimate of it was without an error. -/
def Rejected (id : TransactionID) (calls : List StarterCall) : Prop :=
  ∃ failed : List RBEEstimationResult, (∀ r ∈ failed, r.error ≠ none) ∧
    calls = .create id :: failed.map (.estimate id)

/-- An estimate of the transaction had no error, and since then it is only started. -/
def Passed (id : TransactionID) (passed : RBEEstimationResult) (calls : List StarterCall) : Prop :=
  ∃ (before : List StarterCall) (results : List (Except Thrown Unit)), Rejected id before ∧
    passed.error = none ∧ calls = before ++ .estimate id passed :: results.map (.start id)

/-- The calls that came first are those that should. -/
inductive Orderly : List StarterCall → Prop
  | nothing : Orderly []
  | rejected {id : TransactionID} {calls : List StarterCall} (h : Rejected id calls) : Orderly calls
  | passed {id : TransactionID} {passed : RBEEstimationResult} {calls : List StarterCall}
      (h : Passed id passed calls) : Orderly calls

section Calls

variable {id : TransactionID} {r : RBEEstimationResult} {calls : List StarterCall}

theorem rejected_created (id : TransactionID) : Rejected id [.create id] :=
  ⟨[], by simp, rfl⟩

theorem Rejected.estimate (h : Rejected id calls) (hr : r.error ≠ none) :
    Rejected id (calls ++ [.estimate id r]) := by
  obtain ⟨failed, hfailed, rfl⟩ := h
  refine ⟨failed ++ [r], fun r' hr' => ?_, by simp⟩
  rcases List.mem_append.mp hr' with hold | hnew
  · exact hfailed r' hold
  · exact List.mem_singleton.mp hnew ▸ hr

theorem Rejected.passes (h : Rejected id calls) (hr : r.error = none) :
    Passed id r (calls ++ [.estimate id r]) :=
  ⟨calls, [], h, hr, rfl⟩

theorem Passed.start (h : Passed id r calls) (result : Except Thrown Unit) :
    Passed id r (calls ++ [.start id result]) := by
  obtain ⟨before, results, hbefore, hr, rfl⟩ := h
  exact ⟨before, results ++ [result], hbefore, hr, by simp⟩

theorem Passed.error_eq (h : Passed id r calls) : r.error = none := by
  obtain ⟨before, results, hbefore, hr, hcalls⟩ := h
  exact hr

/-- The transactions of the calls that started one. -/
def startedBy (calls : List StarterCall) : List (Option TransactionID) :=
  calls.filterMap fun
    | .start id (.ok ()) => some (some id)
    | _ => none

theorem startedBy_append (calls : List StarterCall) (call : StarterCall) :
    startedBy (calls ++ [call]) = startedBy calls ++ startedBy [call] :=
  List.filterMap_append ..

end Calls

/-! ### Stages -/

/-- An operation that loads, the transaction of the screen, and which calls there were. -/
inductive LoadingStage : Operation → Option TransactionID → List StarterCall → Prop
  | findingNone : LoadingStage .findTransaction none []
  | finding {id : TransactionID} {calls : List StarterCall} (hcalls : Rejected id calls) :
      LoadingStage .findTransaction (some id) calls
  | setting {id : TransactionID} {found : Option TransactionID} {calls : List StarterCall}
      (hcalls : Rejected id calls) : LoadingStage (.setTransaction id) found calls
  | estimating {id : TransactionID} {calls : List StarterCall} (hcalls : Rejected id calls) :
      LoadingStage (.estimate id) (some id) calls
  | rejected {id : TransactionID} {r : RBEEstimationResult} {calls : List StarterCall}
      (hr : r.error ≠ none) (hcalls : Rejected id calls) :
      LoadingStage (.report r) (some id) calls
  | passed {id : TransactionID} {r : RBEEstimationResult} {calls : List StarterCall}
      (hcalls : Passed id r calls) : LoadingStage (.report r) (some id) calls

/-- What the screen is doing and shows, and which calls there were. -/
inductive Stage : State → List Operation → Option TransactionID → List StarterCall →
    FeeCalculation → Prop
  | loading {s : State} {operation : Operation} {found : Option TransactionID}
      {calls : List StarterCall} {fee : FeeCalculation} (hs : s = .loading ∨ s = .cancelling)
      (hloading : LoadingStage operation found calls) : Stage s [operation] found calls fee
  | invalid {error : Thrown} {id : TransactionID} {calls : List StarterCall} {fee : FeeCalculation}
      (hcalls : Rejected id calls) : Stage (.invalid error) [] (some id) calls fee
  | idle {s : State} {id : TransactionID} {r : RBEEstimationResult} {calls : List StarterCall}
      (hs : s = .ready ∨ s = .started ∨ ∃ error, s = .error error) (hcalls : Passed id r calls) :
      Stage s [] (some id) calls { data := r.feeCalculation }
  | starting {operation : Operation} {id : TransactionID} {r : RBEEstimationResult}
      {calls : List StarterCall}
      (hoperation : operation = .start ∨ ∃ result, operation = .reportStart result)
      (hcalls : Passed id r calls) :
      Stage .starting [operation] (some id) calls { data := r.feeCalculation }
  | cancelled {found : Option TransactionID} {calls : List StarterCall} {fee : FeeCalculation}
      (hcalls : Orderly calls) : Stage .cancelling [] found calls fee

theorem LoadingStage.orderly {operation : Operation} {found : Option TransactionID}
    {calls : List StarterCall} (h : LoadingStage operation found calls) : Orderly calls := by
  cases h with
  | findingNone => exact .nothing
  | finding hcalls => exact .rejected hcalls
  | setting hcalls => exact .rejected hcalls
  | estimating hcalls => exact .rejected hcalls
  | rejected hr hcalls => exact .rejected hcalls
  | passed hcalls => exact .passed hcalls

theorem Stage.orderly {s : State} {operations : List Operation} {found : Option TransactionID}
    {calls : List StarterCall} {fee : FeeCalculation} (h : Stage s operations found calls fee) :
    Orderly calls := by
  cases h with
  | loading hs hloading => exact hloading.orderly
  | invalid hcalls => exact .rejected hcalls
  | idle hs hcalls => exact .passed hcalls
  | starting hoperation hcalls => exact .passed hcalls
  | cancelled hcalls => exact hcalls

/-- What the bar shows in a state: the title that loads, the button, and whether it starts. -/
inductive Bar : State → Bool → Option BarButton → Bool → Prop
  | loading : Bar .loading true (some .start) false
  | invalid {error : Thrown} : Bar (.invalid error) false (some .retry) false
  | idle {s : State} (hs : s = .ready ∨ s = .started ∨ ∃ error, s = .error error) :
      Bar s false (some .start) true
  | starting : Bar .starting true (some .start) false
  | cancelling {isLoading : Bool} {button : Option BarButton} {isStartEnabled : Bool} :
      Bar .cancelling isLoading button isStartEnabled

/-- The operation will tell the delegate that the transaction was started. -/
def telling (operations : List Operation) (found : Option TransactionID) :
    List (Option TransactionID) :=
  if .reportStart (.ok ()) ∈ operations then [found] else []

namespace Controller

variable {c d : Controller}

/-- The stage of a screen. -/
structure Staged (c : Controller) : Prop where
  hasStarter : c.hasStarter = true
  stage : Stage c.state c.operations c.transactionID c.calls c.feeCalculation
  bar : Bar c.state c.isLoading c.button c.isStartEnabled
  started : c.started ++ telling c.operations c.transactionID = startedBy c.calls

theorem staged_viewDidLoad : (viewDidLoad true).Staged :=
  ⟨rfl, .loading (.inl rfl) .findingNone, .loading, rfl⟩

/-! ### Taps -/

theorem Staged.back (h : c.Staged) : c.back.Staged := by
  obtain ⟨hstarter, hstage, hbar, hstarted⟩ := h
  cases c with
  | mk hasStarter state transactionID calculationData feeCalculation isLoading button
      isStartEnabled isRetryEnabled alerts operations calls started =>
      cases hstage with
      | loading hs hloading =>
          rcases hs with rfl | rfl
          · exact ⟨hstarter, .loading (.inr rfl) hloading, .cancelling, hstarted⟩
          · exact ⟨hstarter, .loading (.inr rfl) hloading, .cancelling, hstarted⟩
      | invalid hcalls => exact ⟨hstarter, .cancelled (.rejected hcalls), .cancelling, hstarted⟩
      | idle hs hcalls =>
          rcases hs with rfl | rfl | ⟨error, rfl⟩
          · exact ⟨hstarter, .cancelled (.passed hcalls), .cancelling, hstarted⟩
          · exact ⟨hstarter, .idle (.inr (.inl rfl)) hcalls, hbar, hstarted⟩
          · exact ⟨hstarter, .cancelled (.passed hcalls), .cancelling, hstarted⟩
      | starting hoperation hcalls => exact ⟨hstarter, .starting hoperation hcalls, hbar, hstarted⟩
      | cancelled hcalls => exact ⟨hstarter, .cancelled hcalls, hbar, hstarted⟩

theorem Staged.start (h : c.Staged) : c.start.Staged := by
  obtain ⟨hstarter, hstage, hbar, hstarted⟩ := h
  cases c with
  | mk hasStarter state transactionID calculationData feeCalculation isLoading button
      isStartEnabled isRetryEnabled alerts operations calls started =>
      cases hstage with
      | loading hs hloading =>
          rcases hs with rfl | rfl
          · exact ⟨hstarter, .loading (.inl rfl) hloading, hbar, hstarted⟩
          · exact ⟨hstarter, .loading (.inr rfl) hloading, hbar, hstarted⟩
      | invalid hcalls => exact ⟨hstarter, .invalid hcalls, hbar, hstarted⟩
      | idle hs hcalls =>
          rcases hs with rfl | rfl | ⟨error, rfl⟩ <;>
            exact ⟨hstarter, .starting (.inl rfl) hcalls, .starting, hstarted⟩
      | starting hoperation hcalls => exact ⟨hstarter, .starting hoperation hcalls, hbar, hstarted⟩
      | cancelled hcalls => exact ⟨hstarter, .cancelled hcalls, hbar, hstarted⟩

theorem Staged.retry (h : c.Staged) : c.retry.Staged := by
  obtain ⟨hstarter, hstage, hbar, hstarted⟩ := h
  cases c with
  | mk hasStarter state transactionID calculationData feeCalculation isLoading button
      isStartEnabled isRetryEnabled alerts operations calls started =>
      cases hstage with
      | loading hs hloading =>
          rcases hs with rfl | rfl
          · exact ⟨hstarter, .loading (.inl rfl) hloading, hbar, hstarted⟩
          · exact ⟨hstarter, .loading (.inr rfl) hloading, hbar, hstarted⟩
      | invalid hcalls =>
          exact ⟨hstarter, .loading (.inl rfl) (.finding hcalls), .loading, hstarted⟩
      | idle hs hcalls =>
          rcases hs with rfl | rfl | ⟨error, rfl⟩
          · exact ⟨hstarter, .idle (.inl rfl) hcalls, hbar, hstarted⟩
          · exact ⟨hstarter, .idle (.inr (.inl rfl)) hcalls, hbar, hstarted⟩
          · exact ⟨hstarter, .idle (.inr (.inr ⟨error, rfl⟩)) hcalls, hbar, hstarted⟩
      | starting hoperation hcalls => exact ⟨hstarter, .starting hoperation hcalls, hbar, hstarted⟩
      | cancelled hcalls => exact ⟨hstarter, .cancelled hcalls, hbar, hstarted⟩

/-! ### Turns -/

theorem Staged.length_le (h : c.Staged) : c.operations.length ≤ 1 := by
  have hstage := h.stage
  cases c with
  | mk hasStarter state transactionID calculationData feeCalculation isLoading button
      isStartEnabled isRetryEnabled alerts operations calls started =>
      cases hstage <;> simp

/-- There is no operation at another place. -/
theorem Staged.turnAt_succ (h : c.Staged) (i : Nat) (starter : RBEStarter) :
    c.turnAt (i + 1) starter = c := by
  have hnone : c.operations[i + 1]? = none :=
    List.getElem?_eq_none (h.length_le.trans (Nat.le_add_left 1 i))
  unfold Controller.turnAt
  rw [hnone]

theorem turnAt_zero {operation : Operation} (h : c.operations = [operation])
    (starter : RBEStarter) : c.turnAt 0 starter =
      { ({ c with operations := [] }.turn starter operation).1 with
        operations := ({ c with operations := [] }.turn starter operation).1.operations ++
          ({ c with operations := [] }.turn starter operation).2.toList } := by
  unfold Controller.turnAt
  rw [h]
  rfl

theorem turn_report_error {r : RBEEstimationResult} {error : Thrown} (h : r.error = some error)
    (c : Controller) (starter : RBEStarter) : c.turn starter (.report r) =
      ({ c with calculationData := r.feeCalculation }.handleError error, none) := by
  simp only [turn, h]

theorem turn_report {r : RBEEstimationResult} (h : r.error = none) (c : Controller)
    (starter : RBEStarter) : c.turn starter (.report r) =
      ({ c with calculationData := r.feeCalculation }.didLoad, none) := by
  simp only [turn, h]

/-- The error is only shown. -/
theorem transition_invalid (c : Controller) (error : Thrown) :
    ∃ fee, c.transition (.invalid error) = { c with
      state := .invalid error, feeCalculation := fee, isLoading := false, button := some .retry
      isRetryEnabled := true } := by
  by_cases herror : error = .fee .insufficientBalance
  · exact ⟨_, by simp only [transition, didEnter, showError, if_pos herror]; rfl⟩
  · exact ⟨_, by simp only [transition, didEnter, showError, if_neg herror]; rfl⟩

theorem Staged.turnAt (h : c.Staged) (i : Nat) (starter : RBEStarter) :
    (c.turnAt i starter).Staged := by
  cases i with
  | succ i =>
      rw [h.turnAt_succ i starter]
      exact h
  | zero =>
  obtain ⟨hstarter, hstage, hbar, hstarted⟩ := h
  cases c with
  | mk hasStarter state transactionID calculationData feeCalculation isLoading button
      isStartEnabled isRetryEnabled alerts operations calls started =>
      obtain rfl : hasStarter = true := hstarter
      cases hstage with
      | loading hs hloading =>
          cases hloading with
          | findingNone => exact ⟨rfl, .loading hs (.setting (rejected_created _)), hbar, hstarted⟩
          | finding hcalls => exact ⟨rfl, .loading hs (.setting hcalls), hbar, hstarted⟩
          | setting hcalls =>
              exact ⟨rfl, .loading hs (.estimating hcalls), hbar, hstarted⟩
          | @estimating id calls hcalls =>
              have hcalled : started ++ [] = startedBy
                  (calls ++ [.estimate id (starter.estimate id)]) := by
                rw [startedBy_append]
                exact hstarted.trans (List.append_nil _).symm
              cases hr : (starter.estimate id).error with
              | none => exact ⟨rfl, .loading hs (.passed (hcalls.passes hr)), hbar, hcalled⟩
              | some error =>
                  have hne : (starter.estimate id).error ≠ none := by simp [hr]
                  exact ⟨rfl, .loading hs (.rejected hne (hcalls.estimate hne)), hbar, hcalled⟩
          | @rejected id r calls hr hcalls =>
              obtain ⟨error, herror⟩ := Option.ne_none_iff_exists'.mp hr
              rw [turnAt_zero rfl, turn_report_error herror]
              rcases hs with rfl | rfl
              · unfold handleError
                obtain ⟨fee, hfee⟩ := transition_invalid _ error
                dsimp only
                rw [hfee]
                cases hbar with
                | loading => exact ⟨rfl, .invalid hcalls, .invalid, hstarted⟩
                | idle hs => simp at hs
              · exact ⟨rfl, .cancelled (.rejected hcalls), hbar, hstarted⟩
          | @passed id r calls hcalls =>
              have hr := hcalls.error_eq
              rw [turnAt_zero rfl, turn_report hr]
              rcases hs with rfl | rfl
              · exact ⟨rfl, .idle (.inl rfl) hcalls, .idle (.inl rfl), hstarted⟩
              · exact ⟨rfl, .cancelled (.passed hcalls), hbar, hstarted⟩
      | invalid hcalls => exact ⟨rfl, .invalid hcalls, hbar, hstarted⟩
      | idle hs hcalls => exact ⟨rfl, .idle hs hcalls, hbar, hstarted⟩
      | @starting operation id r calls hoperation hcalls =>
          rcases hoperation with rfl | ⟨result, rfl⟩
          · refine ⟨rfl, .starting (.inr ⟨_, rfl⟩) (hcalls.start _), hbar, ?_⟩
            have htold : started ++ telling [.reportStart (starter.start id)] (some id) =
                startedBy (calls ++ [.start id (starter.start id)]) := by
              rw [startedBy_append, ← hstarted]
              cases hresult : starter.start id <;> simp [telling, startedBy]
            exact htold
          · cases result with
            | ok result =>
                refine ⟨rfl, .idle (.inr (.inl rfl)) hcalls, .idle (.inr (.inl rfl)), ?_⟩
                exact (List.append_nil _).trans hstarted
            | error error =>
                exact ⟨rfl, .idle (.inr (.inr ⟨error, rfl⟩)) hcalls,
                  .idle (.inr (.inr ⟨error, rfl⟩)), hstarted⟩
      | cancelled hcalls => exact ⟨rfl, .cancelled hcalls, hbar, hstarted⟩

theorem Staged.step {action : Action} (h : c.Staged) (hstep : c.step action = .ok d) :
    d.Staged := by
  cases action with
  | back => exact Except.ok.inj hstep ▸ h.back
  | start => exact Except.ok.inj hstep ▸ h.start
  | retry => exact Except.ok.inj hstep ▸ h.retry
  | turn i starter => exact Except.ok.inj hstep ▸ h.turnAt i starter

theorem staged_run {actions : List Action}
    (hrun : Transition.run step (viewDidLoad true) actions = .ok c) : c.Staged :=
  Transition.run_invariant (fun _ _ _ h hstep => h.step hstep) staged_viewDidLoad hrun

/-- Whatever the user taps, and whenever the operations take their turns: the starter is called in
order, and the delegate was told of the starts that returned, each once, but for the last one while
its operation has not reported it. -/
theorem calls_orderly {actions : List Action}
    (hrun : Transition.run step (viewDidLoad true) actions = .ok c) :
    Orderly c.calls ∧ c.started <+: startedBy c.calls ∧
      (c.operations = [] → c.started = startedBy c.calls) := by
  have hstaged := staged_run hrun
  refine ⟨hstaged.stage.orderly, ⟨_, hstaged.started⟩, fun hnone => ?_⟩
  have hstarted := hstaged.started
  rw [hnone] at hstarted
  exact (List.append_nil _).symm.trans hstarted

/-- Every estimate is without an error, and starting fails or not. -/
def startsWith (result : Except Thrown Unit) : RBEStarter :=
  ⟨['t'], fun _ => ⟨none, none⟩, fun _ => result⟩

/-- A start that fails, and one that has not reported yet. -/
theorem calls_orderly_again :
    ∃ c, Transition.run step (viewDidLoad true)
        (List.replicate 4 (.turn 0 (startsWith (.ok ()))) ++
          [.start, .turn 0 (startsWith (.error .network)), .turn 0 (startsWith (.ok ())), .start,
            .retry, .turn 0 (startsWith (.ok ())), .back]) = .ok c ∧
      c.state = .starting ∧ c.alerts = [.network] ∧ c.started <+: startedBy c.calls := by
  have hrun : Transition.run step (viewDidLoad true)
      (List.replicate 4 (.turn 0 (startsWith (.ok ()))) ++
        [.start, .turn 0 (startsWith (.error .network)), .turn 0 (startsWith (.ok ())), .start,
          .retry, .turn 0 (startsWith (.ok ())), .back]) = .ok _ := rfl
  exact ⟨_, hrun, rfl, rfl, (calls_orderly hrun).2.1⟩

/-! ### What is started can be paid -/

/-- The result is one of the service, over whatever is stored and answered at that moment. -/
def Served (lib : ThirdParty) (id : TransactionID) (r : RBEEstimationResult) : Prop :=
  ∃ flow repositories answer relay accounts clock repositories',
    OwnerModificationApplicationService.estimate lib flow repositories id answer relay accounts
      clock = .ok (r, repositories')

theorem Served.affordable {lib : ThirdParty} {id : TransactionID} {r : RBEEstimationResult}
    (h : Served lib id r) (hr : r.error = none) :
    ∃ d, r = ⟨some d, none⟩ ∧ d.balance.amount = d.currentBalance.amount + d.networkFee.amount ∧
      0 ≤ d.balance.amount := by
  obtain ⟨flow, repositories, answer, relay, accounts, clock, repositories', h⟩ := h
  obtain ⟨r₁, -, h⟩ := bind_ok.mp h
  obtain ⟨⟨fee, r₂⟩, -, h⟩ := bind_ok.mp h
  cases fee with
  | error e =>
      obtain ⟨rfl, -⟩ := Prod.mk.inj (Except.ok.inj h)
      cases hr
  | ok fee =>
      obtain ⟨balance, hbalance, h⟩ := bind_ok.mp h
      obtain ⟨remaining, hremaining, h⟩ := bind_ok.mp h
      obtain ⟨balance', hbalance', hremaining⟩ := bind_ok.mp hremaining
      obtain rfl := Except.ok.inj (hbalance.symm.trans hbalance')
      obtain rfl := Except.ok.inj hremaining
      obtain ⟨rfl, -⟩ := Prod.mk.inj (Except.ok.inj h)
      have hpaid : ¬ balance.amount + -fee.amount < 0 := by
        intro hnegative
        simp [hnegative] at hr
      refine ⟨⟨balance, ⟨-fee.amount, fee.token⟩, ⟨balance.amount + -fee.amount, balance.token⟩⟩,
        ?_, rfl, Int.not_lt.mp hpaid⟩
      simp only [if_neg hpaid]

theorem mem_of_passed {id : TransactionID} {r : RBEEstimationResult} {calls : List StarterCall}
    (h : Passed id r calls) : .estimate id r ∈ calls := by
  obtain ⟨before, results, -, -, rfl⟩ := h
  simp

theorem passed_of_start {id : TransactionID} {result : Except Thrown Unit}
    {calls : List StarterCall} (h : Orderly calls) (hstart : .start id result ∈ calls) :
    ∃ r, Passed id r calls := by
  have hnone : ∀ {id' : TransactionID} {before : List StarterCall}, Rejected id' before →
      .start id result ∉ before := by
    intro id' before hbefore
    obtain ⟨failed, -, rfl⟩ := hbefore
    simp
  cases h with
  | nothing => cases hstart
  | rejected h => exact absurd hstart (hnone h)
  | @passed id' r calls h =>
      obtain ⟨before, results, hbefore, hr, rfl⟩ := h
      have hid : id' = id := by
        rcases List.mem_append.mp hstart with hold | hnew
        · exact absurd hold (hnone hbefore)
        · simp at hnew
          exact hnew.2
      exact ⟨r, hid ▸ ⟨before, results, hbefore, hr, rfl⟩⟩

/-- A transaction is only started after an estimate whose resulting balance was not negative, and
where the user can start it, that estimate is what the screen shows. -/
theorem started_affordable {lib : ThirdParty} {actions : List Action}
    (hrun : Transition.run step (viewDidLoad true) actions = .ok c)
    (hserved : ∀ id r, .estimate id r ∈ c.calls → Served lib id r) :
    (∀ id result, .start id result ∈ c.calls → ∃ d, .estimate id ⟨some d, none⟩ ∈ c.calls ∧
        d.balance.amount = d.currentBalance.amount + d.networkFee.amount ∧
        0 ≤ d.balance.amount) ∧
      (c.isStartEnabled = true → c.state ≠ .cancelling → ∃ id d, c.transactionID = some id ∧
        .estimate id ⟨some d, none⟩ ∈ c.calls ∧ c.feeCalculation = { data := some d } ∧
        0 ≤ d.balance.amount) := by
  obtain ⟨hstarter, hstage, hbar, hstarted⟩ := staged_run hrun
  constructor
  · intro id result hstart
    obtain ⟨r, hpassed⟩ := passed_of_start hstage.orderly hstart
    have hmem := mem_of_passed hpassed
    obtain ⟨d, rfl, hsum, hpositive⟩ := (hserved id r hmem).affordable hpassed.error_eq
    exact ⟨d, hmem, hsum, hpositive⟩
  · intro henabled hstate
    generalize c.isLoading = isLoading at hbar
    generalize c.button = button at hbar
    rw [henabled] at hbar
    generalize c.state = s at hstage hbar hstate
    generalize c.operations = operations at hstage
    generalize hfound : c.transactionID = found at hstage
    generalize hcalls : c.calls = calls at hstage hserved
    generalize hfee : c.feeCalculation = fee at hstage
    cases hbar with
    | cancelling => exact absurd rfl hstate
    | idle hs =>
        cases hstage with
        | @idle s id r calls hs' hpassed =>
            have hmem := mem_of_passed hpassed
            obtain ⟨d, rfl, hsum, hpositive⟩ := (hserved id r hmem).affordable hpassed.error_eq
            exact ⟨id, d, rfl, hmem, rfl, hpositive⟩
        | loading hs' hloading => rcases hs' with rfl | rfl <;> simp at hs
        | invalid hcalls => simp at hs
        | starting hoperation hcalls => simp at hs
        | cancelled hcalls => simp at hs

/-- The extension is replaced, and the fee is one Wei for each gas. -/
theorem started_affordable_replacement :
    ∃ (starter : RBEStarter) (c : Controller), Transition.run step (viewDidLoad true)
        (List.replicate 4 (.turn 0 starter) ++ [.start, .turn 0 starter, .turn 0 starter]) =
          .ok c ∧ c.state = .started ∧
      ∃ d, .estimate ['t'] ⟨some d, none⟩ ∈ c.calls ∧ 0 ≤ d.balance.amount := by
  have heval : ((do
      let r ← OwnerModificationApplicationService.create .replace
        OwnerModificationApplicationService.replacementFlow.repositories ['t'] fun _ => 0
      let e ← OwnerModificationApplicationService.estimate reference .replace r ['t']
        ReplaceBrowserExtensionDomainService.ownersAnswer
        ReplaceBrowserExtensionDomainService.estimationRelay (fun _ => some (some 1000000))
        fun _ => 0
      return (r, e) : Except Trap _).toOption.any fun e => e.2.1.error = none) = true := by
    decide +kernel
  obtain ⟨⟨r, result, r'⟩, hboth, hnone⟩ := exists_ok_of_any heval
  obtain ⟨r₁, -, hboth⟩ := bind_ok.mp hboth
  obtain ⟨e, hestimate, hboth⟩ := bind_ok.mp hboth
  obtain ⟨rfl, rfl⟩ := Prod.mk.inj (Except.ok.inj hboth)
  have hserved : Served reference ['t'] result := ⟨_, _, _, _, _, _, _, hestimate⟩
  obtain ⟨data, error⟩ := result
  obtain rfl : error = none := of_decide_eq_true hnone
  let starter : RBEStarter := ⟨['t'], fun _ => ⟨data, none⟩, fun _ => .ok ()⟩
  obtain ⟨c, hrun, hcalls, hstate⟩ : ∃ c, Transition.run step (viewDidLoad true)
        (List.replicate 4 (.turn 0 starter) ++ [.start, .turn 0 starter, .turn 0 starter]) =
          .ok c ∧ c.calls = [.create ['t'], .estimate ['t'] ⟨data, none⟩, .start ['t'] (.ok ())] ∧
      c.state = .started := ⟨_, rfl, rfl, rfl⟩
  have hall : ∀ id r, .estimate id r ∈ c.calls → Served reference id r := by
    intro id r hr
    rw [hcalls] at hr
    obtain ⟨rfl, rfl⟩ : id = ['t'] ∧ r = ⟨data, none⟩ := by simpa using hr
    exact hserved
  obtain ⟨d, hd, -, hpositive⟩ := (started_affordable hrun hall).1 ['t'] (.ok ()) (by simp [hcalls])
  exact ⟨starter, c, hrun, hstate, d, hd, hpositive⟩

/-! ### Loading ends -/

/-- The user waits for an operation. -/
def Busy (c : Controller) : Prop := c.state = .loading ∨ c.state = .starting

end Controller

/-- The turns that an operation still takes. -/
def Operation.turnsLeft : Operation → Nat
  | .findTransaction => 4
  | .setTransaction _ => 3
  | .estimate _ => 2
  | .report _ => 1
  | .start => 2
  | .reportStart _ => 1

/-- A turn of the first operation. -/
def Action.isTurn : Action → Bool
  | .turn 0 _ => true
  | _ => false

namespace Controller

variable {c d : Controller}

/-- The turns that the operations of a screen still take. -/
def turnsLeft (c : Controller) : Nat := (c.operations.map Operation.turnsLeft).sum

theorem Staged.turnsLeft_pos (h : c.Staged) (hbusy : c.Busy) : 0 < c.turnsLeft := by
  obtain ⟨hstarter, hstage, hbar, hstarted⟩ := h
  cases c with
  | mk hasStarter state transactionID calculationData feeCalculation isLoading button
      isStartEnabled isRetryEnabled alerts operations calls started =>
      unfold turnsLeft
      cases hstage with
      | @loading s operation => cases operation <;> simp [Operation.turnsLeft]
      | @starting operation => cases operation <;> simp [Operation.turnsLeft]
      | invalid hcalls => simp [Busy] at hbusy
      | idle hs hcalls => rcases hs with rfl | rfl | ⟨error, rfl⟩ <;> simp [Busy] at hbusy
      | cancelled hcalls => simp [Busy] at hbusy

theorem Staged.turnsLeft_le (h : c.Staged) : c.turnsLeft ≤ 4 := by
  obtain ⟨hstarter, hstage, hbar, hstarted⟩ := h
  cases c with
  | mk hasStarter state transactionID calculationData feeCalculation isLoading button
      isStartEnabled isRetryEnabled alerts operations calls started =>
      unfold turnsLeft
      cases hstage with
      | @loading s operation => cases operation <;> simp [Operation.turnsLeft]
      | @starting operation => cases operation <;> simp [Operation.turnsLeft]
      | invalid hcalls => simp
      | idle hs hcalls => simp
      | cancelled hcalls => simp

/-- A tap does nothing while the user waits, or ends it. -/
theorem Busy.tap (h : c.Busy) : c.start = c ∧ c.retry = c ∧ (c.back = c ∨ ¬ c.back.Busy) := by
  cases c with
  | mk hasStarter state transactionID calculationData feeCalculation isLoading button
      isStartEnabled isRetryEnabled alerts operations calls started =>
      rcases h with hstate | hstate
      · obtain rfl : state = .loading := hstate
        exact ⟨rfl, rfl, .inr (by simp [Busy, Controller.back, transition, didEnter])⟩
      · obtain rfl : state = .starting := hstate
        exact ⟨rfl, rfl, .inl rfl⟩

/-- While the user waits, a turn brings the end nearer. -/
theorem Staged.turnsLeft_turn (h : c.Staged) (starter : RBEStarter) (hc : c.Busy) :
    (c.turnAt 0 starter).turnsLeft < c.turnsLeft := by
  obtain ⟨hstarter, hstage, hbar, hstarted⟩ := h
  cases c with
  | mk hasStarter state transactionID calculationData feeCalculation isLoading button
      isStartEnabled isRetryEnabled alerts operations calls started =>
      obtain rfl : hasStarter = true := hstarter
      cases hstage with
      | loading hs hloading =>
          cases hloading with
          | findingNone => exact Nat.lt_succ_self 3
          | finding hcalls => exact Nat.lt_succ_self 3
          | setting hcalls => exact Nat.lt_succ_self 2
          | estimating hcalls => exact Nat.lt_succ_self 1
          | rejected hr hcalls =>
              obtain ⟨error, herror⟩ := Option.ne_none_iff_exists'.mp hr
              rw [turnAt_zero rfl, turn_report_error herror]
              rcases hs with rfl | rfl
              · unfold handleError
                obtain ⟨fee, hfee⟩ := transition_invalid _ error
                dsimp only
                rw [hfee]
                exact Nat.lt_succ_self 0
              · exact Nat.lt_succ_self 0
          | passed hcalls =>
              rw [turnAt_zero rfl, turn_report hcalls.error_eq]
              rcases hs with rfl | rfl <;> exact Nat.lt_succ_self 0
      | invalid hcalls => simp [Busy] at hc
      | idle hs hcalls => rcases hs with rfl | rfl | ⟨error, rfl⟩ <;> simp [Busy] at hc
      | starting hoperation hcalls =>
          rcases hoperation with rfl | ⟨result, rfl⟩
          · exact Nat.lt_succ_self 1
          · cases result with
            | ok result => exact Nat.lt_succ_self 0
            | error error => exact Nat.lt_succ_self 0
      | cancelled hcalls => simp [Busy] at hc

/-- While the user waits, every turn brings the end nearer, and no tap puts it off. -/
theorem Staged.turnsLeft_step {action : Action} (h : c.Staged) (hstep : c.step action = .ok d)
    (hc : c.Busy) (hd : d.Busy) : d.turnsLeft + [action].countP Action.isTurn ≤ c.turnsLeft := by
  obtain ⟨hstart, hretry, hback⟩ := hc.tap
  cases action with
  | start =>
      obtain rfl : c.start = d := Except.ok.inj hstep
      rw [hstart]
      exact Nat.le_refl _
  | retry =>
      obtain rfl : c.retry = d := Except.ok.inj hstep
      rw [hretry]
      exact Nat.le_refl _
  | back =>
      obtain rfl : c.back = d := Except.ok.inj hstep
      rcases hback with hback | hback
      · rw [hback]
        exact Nat.le_refl _
      · exact absurd hd hback
  | turn i starter =>
      obtain rfl : c.turnAt i starter = d := Except.ok.inj hstep
      cases i with
      | zero => exact h.turnsLeft_turn starter hc
      | succ i =>
          rw [h.turnAt_succ i starter]
          exact Nat.le_refl _

theorem Staged.ends {actions : List Action} (h : c.Staged)
    (hturns : c.turnsLeft ≤ actions.countP Action.isTurn) :
    ∃ first rest d, actions = first ++ rest ∧ Transition.run Controller.step c first = .ok d ∧
      ¬ d.Busy := by
  induction actions generalizing c with
  | nil =>
      refine ⟨[], [], c, rfl, rfl, fun hbusy => ?_⟩
      exact absurd (h.turnsLeft_pos hbusy) (Nat.not_lt.mpr hturns)
  | cons action actions ih =>
      by_cases hc : c.Busy
      · obtain ⟨u, hu⟩ : ∃ u, c.step action = .ok u := by cases action <;> exact ⟨_, rfl⟩
        by_cases hbusy : u.Busy
        · have hless := h.turnsLeft_step hu hc hbusy
          rw [List.countP_cons] at hturns
          rw [List.countP_singleton] at hless
          obtain ⟨first, rest, d, hactions, hrun, hd⟩ := ih (h.step hu) (by omega)
          refine ⟨action :: first, rest, d, by rw [hactions, List.cons_append], ?_, hd⟩
          exact Transition.run_cons_ok.mpr ⟨u, hu, hrun⟩
        · exact ⟨[action], actions, u, rfl, Transition.run_cons_ok.mpr ⟨u, hu, rfl⟩, hbusy⟩
      · exact ⟨[], action :: actions, c, rfl, rfl, hc⟩

/-- The user never waits for longer than an operation needs: within four turns of it, whatever is
tapped between them, there is a moment at which the screen neither loads nor starts. -/
theorem loading_ends {before actions : List Action}
    (hrun : Transition.run step (viewDidLoad true) before = .ok c)
    (hturns : 4 ≤ actions.countP Action.isTurn) :
    ∃ first rest d, actions = first ++ rest ∧
      Transition.run step (viewDidLoad true) (before ++ first) = .ok d ∧ ¬ d.Busy := by
  have hstaged := staged_run hrun
  obtain ⟨first, rest, d, hactions, hfirst, hd⟩ := hstaged.ends (hstaged.turnsLeft_le.trans hturns)
  exact ⟨first, rest, d, hactions, Transition.run_append_ok.mpr ⟨c, hrun, hfirst⟩, hd⟩

theorem loading_ends_start : ∃ first rest d,
    [Action.retry, .turn 0 (startsWith (.ok ())), .turn 0 (startsWith (.ok ())),
      .turn 0 (startsWith (.ok ())), .start, .turn 0 (startsWith (.ok ()))] = first ++ rest ∧
    Transition.run step (viewDidLoad true) (List.replicate 4 (.turn 0 (startsWith (.ok ()))) ++
      [.start] ++ first) = .ok d ∧ ¬ d.Busy := by
  have hrun : Transition.run step (viewDidLoad true)
      (List.replicate 4 (.turn 0 (startsWith (.ok ()))) ++ [.start]) = .ok _ := rfl
  exact loading_ends hrun (by decide)

end Controller

end RBEIntroViewController

end MultisigWallet
