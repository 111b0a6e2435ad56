import MultisigWallet.Lib.Fairness
import MultisigWallet.SendInput

/-!
# MultisigWallet.SendInputSound

What the screen shows once it has come to rest. While the fee is estimated the button may be
enabled by an old estimate, and the main thread and the operation write the same fields in any
order. But the last change adds the last operation, which is not cancelled and begins after all
the others have ended. It reads what was entered, and from then on every statement, whoever
executes it, computes its field from fields that are final: `Facts n` says which fields are, where
`n` statements of that operation are left.

Both threads do come to rest (`rounds_idle`): the operation waits for the main thread, and the main
thread for nobody. On the way nothing is unwrapped that is not there, since every list of calls
computes the balances before it needs them (`Primed`).
-/

namespace MultisigWallet

variable {lib : ThirdParty} {w : SendWallet}

namespace SendInputViewModel

variable {m m' : SendInputViewModel}

/-! ### The statements -/

theorem updateFeeData_ok : m.updateFeeData w = .ok m' ↔
    ∃ t, w.tokenData w.feeTokenID = some t ∧ m' = { m with
      feeBalanceTokenData := some t
      feeEstimatedAmountTokenData :=
        some (t.withBalance (m.estimatedFee.map fun fee => -fee)) } := by
  unfold updateFeeData
  rw [bind_ok]
  constructor
  · intro h
    obtain ⟨t, ht, hm⟩ := h
    exact ⟨t, unwrap_ok.mp ht, (Except.ok.inj hm).symm⟩
  · intro h
    obtain ⟨t, ht, rfl⟩ := h
    exact ⟨t, unwrap_ok.mpr ht, rfl⟩

/-- What `updateResultingData()` computes from. -/
structure ResultingData (w : SendWallet) (m m' : SendInputViewModel)
    (feeEstimated feeBalance account : TokenBalance) : Prop where
  estimated_eq : m.feeEstimatedAmountTokenData = some feeEstimated
  balance_eq : m.feeBalanceTokenData = some feeBalance
  account_eq : w.tokenData m.transferTokenID = some account
  result_eq : m' = if w.feeTokenID = m.transferTokenID then
      { m with feeResultingBalanceTokenData := some (feeBalance.withBalance
          (feeBalance.balance.getD 0 - m.amount.getD 0 - |feeEstimated.balance.getD 0|)) }
    else { m with
      resultingBalanceTokenData :=
        some (account.withBalance (account.balance.getD 0 - m.amount.getD 0))
      feeResultingBalanceTokenData :=
        some (feeBalance.withBalance
          (feeBalance.balance.getD 0 - |feeEstimated.balance.getD 0|)) }

theorem updateResultingData_ok : m.updateResultingData w = .ok m' ↔
    ∃ feeEstimated feeBalance account, ResultingData w m m' feeEstimated feeBalance account := by
  unfold updateResultingData accountBalanceTokenData
  constructor
  · intro h
    obtain ⟨feeEstimated, hestimated, h⟩ := bind_ok.mp h
    obtain ⟨feeBalance, hbalance, h⟩ := bind_ok.mp h
    obtain ⟨account, haccount, h⟩ := bind_ok.mp h
    refine ⟨feeEstimated, feeBalance, account, unwrap_ok.mp hestimated, unwrap_ok.mp hbalance,
      unwrap_ok.mp haccount, ?_⟩
    by_cases htoken : w.feeTokenID = m.transferTokenID
    · simp only [if_pos htoken] at h ⊢
      exact (Except.ok.inj h).symm
    · simp only [if_neg htoken] at h ⊢
      exact (Except.ok.inj h).symm
  · intro h
    obtain ⟨feeEstimated, feeBalance, account, h⟩ := h
    refine bind_ok.mpr ⟨_, unwrap_ok.mpr h.estimated_eq, bind_ok.mpr ⟨_, unwrap_ok.mpr h.balance_eq,
      bind_ok.mpr ⟨_, unwrap_ok.mpr h.account_eq, ?_⟩⟩⟩
    rw [h.result_eq]
    by_cases htoken : w.feeTokenID = m.transferTokenID
    · simp only [if_pos htoken]
      rfl
    · simp only [if_neg htoken]
      rfl

theorem updateCanProceed_ok : m.updateCanProceed lib w = .ok m' ↔
    ∃ hasEnough isValid, m.hasEnoughFunds w = .ok hasEnough ∧
      isValidAddress lib m.recipient = .ok isValid ∧
      m' = { m with canProceedToSigning := hasEnough && isValid } := by
  unfold updateCanProceed
  constructor
  · intro h
    obtain ⟨hasEnough, henough, h⟩ := bind_ok.mp h
    obtain ⟨isValid, hvalid, h⟩ := bind_ok.mp h
    exact ⟨hasEnough, isValid, henough, hvalid, (Except.ok.inj h).symm⟩
  · intro h
    obtain ⟨hasEnough, isValid, henough, hvalid, rfl⟩ := h
    exact bind_ok.mpr ⟨_, henough, bind_ok.mpr ⟨_, hvalid, rfl⟩⟩

/-! Each statement computes the same again if nothing it reads has changed. -/

theorem updateFeeData_again (h : m.updateFeeData w = .ok m') : m'.updateFeeData w = .ok m' := by
  obtain ⟨t, ht, rfl⟩ := updateFeeData_ok.mp h
  exact updateFeeData_ok.mpr ⟨t, ht, rfl⟩

theorem updateResultingData_again (h : m.updateResultingData w = .ok m') :
    m'.updateResultingData w = .ok m' := by
  obtain ⟨feeEstimated, feeBalance, account, h⟩ := updateResultingData_ok.mp h
  obtain ⟨hestimated, hbalance, haccount, rfl⟩ := h
  refine updateResultingData_ok.mpr ⟨feeEstimated, feeBalance, account, ?_⟩
  by_cases htoken : w.feeTokenID = m.transferTokenID
  · simp only [if_pos htoken]
    exact ⟨hestimated, hbalance, haccount, by simp [htoken]⟩
  · simp only [if_neg htoken]
    exact ⟨hestimated, hbalance, haccount, by simp [htoken]⟩

theorem hasEnoughFunds_congr {c : Bool} :
    { m with canProceedToSigning := c }.hasEnoughFunds w = m.hasEnoughFunds w := rfl

theorem updateCanProceed_again (h : m.updateCanProceed lib w = .ok m') :
    m'.updateCanProceed lib w = .ok m' := by
  obtain ⟨hasEnough, isValid, henough, hvalid, rfl⟩ := updateCanProceed_ok.mp h
  exact updateCanProceed_ok.mpr ⟨hasEnough, isValid, henough, hvalid, rfl⟩

/-! The later statements do not touch what the earlier ones read and write. -/

theorem updateFeeData_of_resulting (h : m.updateResultingData w = .ok m')
    (hfee : m.updateFeeData w = .ok m) : m'.updateFeeData w = .ok m' := by
  obtain ⟨t, ht, hm⟩ := updateFeeData_ok.mp hfee
  obtain ⟨feeEstimated, feeBalance, account, h⟩ := updateResultingData_ok.mp h
  refine updateFeeData_ok.mpr ⟨t, ht, ?_⟩
  have hbalance : m.feeBalanceTokenData = some t := by rw [hm]
  have hestimated : m.feeEstimatedAmountTokenData =
      some (t.withBalance (m.estimatedFee.map fun fee => -fee)) := by
    conv_lhs => rw [hm]
  rw [h.result_eq]
  by_cases htoken : w.feeTokenID = m.transferTokenID
  · simp only [if_pos htoken, ← hbalance, ← hestimated]
  · simp only [if_neg htoken, ← hbalance, ← hestimated]

theorem updateFeeData_of_canProceed {c : Bool} (hfee : m.updateFeeData w = .ok m) :
    { m with canProceedToSigning := c }.updateFeeData w =
      .ok { m with canProceedToSigning := c } := by
  obtain ⟨t, ht, hm⟩ := updateFeeData_ok.mp hfee
  refine updateFeeData_ok.mpr ⟨t, ht, ?_⟩
  rw [hm]

theorem updateResultingData_of_canProceed {c : Bool} (h : m.updateResultingData w = .ok m) :
    { m with canProceedToSigning := c }.updateResultingData w =
      .ok { m with canProceedToSigning := c } := by
  obtain ⟨feeEstimated, feeBalance, account, hestimated, hbalance, haccount, hm⟩ :=
    updateResultingData_ok.mp h
  refine updateResultingData_ok.mpr ⟨feeEstimated, feeBalance, account, hestimated, hbalance,
    haccount, ?_⟩
  by_cases htoken : w.feeTokenID = m.transferTokenID
  · simp only [if_pos htoken] at hm ⊢
    rw [hm]
  · simp only [if_neg htoken] at hm ⊢
    rw [hm]

end SendInputViewModel

namespace SendProcess

variable {amount : Option Int} {recipient : Option Str} {n : Nat} {p q : SendProcess}
  {m : SendInputViewModel}

/-! ### What is final -/

/-- The fields that are final when `n` statements of the last operation are left. -/
structure Facts (lib : ThirdParty) (w : SendWallet) (amount : Option Int) (recipient : Option Str)
    (n : Nat) (p : SendProcess) : Prop where
  fee : n ≤ 5 → p.model.estimatedFee = w.estimateTransferFee (amount.getD 0) recipient
  feeData : n ≤ 3 → p.model.updateFeeData w = .ok p.model
  resultingData : n ≤ 2 → p.model.updateResultingData w = .ok p.model
  canProceed : n ≤ 1 → p.model.updateCanProceed lib w = .ok p.model
  next : n = 0 → p.isNextEnabled = p.model.canProceedToSigning

theorem facts_of_lt (h : 5 < n) : Facts lib w amount recipient n p :=
  ⟨by omega, by omega, by omega, by omega, by omega⟩

theorem Facts.updateFeeData (h : Facts lib w amount recipient n p)
    (hm : p.model.updateFeeData w = .ok m) :
    Facts lib w amount recipient n { p with model := m } := by
  by_cases hn : n ≤ 3
  · -- The statement was executed before, on the same values.
    rw [h.feeData hn] at hm
    obtain rfl := Except.ok.inj hm
    exact h
  · obtain ⟨t, -, rfl⟩ := SendInputViewModel.updateFeeData_ok.mp hm
    exact ⟨h.fee, by omega, by omega, by omega, by omega⟩

theorem Facts.updateResultingData (h : Facts lib w amount recipient n p)
    (hm : p.model.updateResultingData w = .ok m) :
    Facts lib w amount recipient n { p with model := m } := by
  by_cases hn : n ≤ 2
  · rw [h.resultingData hn] at hm
    obtain rfl := Except.ok.inj hm
    exact h
  · refine ⟨fun hfee => ?_, fun hdata => ?_, by omega, by omega, by omega⟩
    · obtain ⟨_, _, _, hresult⟩ := SendInputViewModel.updateResultingData_ok.mp hm
      rw [← h.fee hfee, hresult.result_eq]
      split <;> rfl
    · exact SendInputViewModel.updateFeeData_of_resulting hm (h.feeData hdata)

theorem Facts.updateCanProceed (h : Facts lib w amount recipient n p)
    (hm : p.model.updateCanProceed lib w = .ok m) :
    Facts lib w amount recipient n { p with model := m } := by
  by_cases hn : n ≤ 1
  · rw [h.canProceed hn] at hm
    obtain rfl := Except.ok.inj hm
    exact h
  · obtain ⟨hasEnough, isValid, -, -, rfl⟩ := SendInputViewModel.updateCanProceed_ok.mp hm
    refine ⟨h.fee, fun hdata => ?_, fun hdata => ?_, by omega, by omega⟩
    · exact SendInputViewModel.updateFeeData_of_canProceed (h.feeData hdata)
    · exact SendInputViewModel.updateResultingData_of_canProceed (h.resultingData hdata)

theorem Facts.updateBlock (h : Facts lib w amount recipient n p) :
    Facts lib w amount recipient n p.updateBlock :=
  ⟨h.fee, h.feeData, h.resultingData, h.canProceed, fun _ => rfl⟩

theorem Facts.congr (h : Facts lib w amount recipient n p) (hmodel : q.model = p.model)
    (hnext : q.isNextEnabled = p.isNextEnabled) : Facts lib w amount recipient n q := by
  obtain ⟨hfee, hdata, hresulting, hcan, hshown⟩ := h
  refine ⟨?_, ?_, ?_, ?_, ?_⟩
  all_goals rw [hmodel]
  · exact hfee
  · exact hdata
  · exact hresulting
  · exact hcan
  · rw [hnext]
    exact hshown

/-! ### The last operation -/

/-- What is left of the last operation when `n` of its statements are. Where it has read its
arguments, they are those that were entered. -/
inductive Stage (amount : Option Int) (recipient : Option Str) : Nat → List SendOperationStep → Prop
  | begun : Stage amount recipient 7 SendOperation.block
  | called : Stage amount recipient 6 (.estimateTransferFee :: SendOperation.update)
  | answered : Stage amount recipient 6
      (.setEstimatedFee (amount.getD 0) recipient :: SendOperation.update)
  | estimated : Stage amount recipient 5 SendOperation.update
  | checked : Stage amount recipient 4
      [.updateFeeData, .updateResultingData, .updateCanProceed, .updateBlock]
  | feeData : Stage amount recipient 3 [.updateResultingData, .updateCanProceed, .updateBlock]
  | resultingData : Stage amount recipient 2 [.updateCanProceed, .updateBlock]
  | canProceed : Stage amount recipient 1 [.updateBlock]

/-- The operations where `n` statements are left of the last one. -/
inductive Queued (amount : Option Int) (recipient : Option Str) : Nat → List SendOperation → Prop
  | done : Queued amount recipient 0 []
  | running {n : Nat} {todo : List SendOperationStep} (h : Stage amount recipient n todo) :
      Queued amount recipient n [{ isCancelled := false, todo := todo }]
  | waiting (op : SendOperation) (older : List SendOperation) :
      Queued amount recipient 7 (op :: (older ++ [{ todo := SendOperation.block }]))

theorem queued_append (older : List SendOperation) :
    Queued amount recipient 7 (older ++ [{ todo := SendOperation.block }]) := by
  cases older with
  | nil => exact .running .begun
  | cons op older => exact .waiting op older

/-- The statements of the main thread after the operation was added. -/
def afterEnqueue : List SendMainStep := [.updateFeeData, .updateResultingData, .notifyUpdated]

/-- What was entered is there, and the last operation is under way or about to be added. -/
structure Pending (lib : ThirdParty) (w : SendWallet) (amount : Option Int)
    (recipient : Option Str) (p : SendProcess) : Prop where
  wallet_eq : p.wallet = w
  amount_eq : p.model.amount = amount
  recipient_eq : p.model.recipient = recipient
  under_way : p.main = .enqueueFeeEstimation :: afterEnqueue ∨
    p.main <:+ afterEnqueue ∧
      ∃ n, Facts lib w amount recipient n p ∧ Queued amount recipient n p.operations

/-- What no statement of an operation changes. -/
structure Framed (p q : SendProcess) : Prop where
  main : q.main = p.main
  wallet : q.wallet = p.wallet
  operations : q.operations = p.operations
  amount : q.model.amount = p.model.amount
  recipient : q.model.recipient = p.model.recipient

theorem framed_of_model (h : m.amount = p.model.amount) (h' : m.recipient = p.model.recipient) :
    Framed p { p with model := m } :=
  ⟨rfl, rfl, rfl, h, h'⟩

theorem updateFeeData_framed (h : p.model.updateFeeData w = .ok m) :
    Framed p { p with model := m } := by
  obtain ⟨t, -, rfl⟩ := SendInputViewModel.updateFeeData_ok.mp h
  exact framed_of_model rfl rfl

theorem updateResultingData_framed (h : p.model.updateResultingData w = .ok m) :
    Framed p { p with model := m } := by
  obtain ⟨_, _, _, h⟩ := SendInputViewModel.updateResultingData_ok.mp h
  have hresult := h.result_eq
  split at hresult
  · exact hresult ▸ framed_of_model rfl rfl
  · exact hresult ▸ framed_of_model rfl rfl

theorem updateCanProceed_framed (h : p.model.updateCanProceed lib w = .ok m) :
    Framed p { p with model := m } := by
  obtain ⟨_, _, -, -, rfl⟩ := SendInputViewModel.updateCanProceed_ok.mp h
  exact framed_of_model rfl rfl

theorem runOperationStep_framed {isCancelled : Bool} {rest todo : List SendOperationStep}
    {s : SendOperationStep} (h : runOperationStep lib p isCancelled rest s = .ok (q, todo)) :
    Framed p q := by
  cases s with
  | checkCancelled =>
      obtain ⟨rfl, -⟩ := Prod.mk.inj (Except.ok.inj h)
      exact ⟨rfl, rfl, rfl, rfl, rfl⟩
  | estimateTransferFee =>
      obtain ⟨rfl, -⟩ := Prod.mk.inj (Except.ok.inj h)
      exact ⟨rfl, rfl, rfl, rfl, rfl⟩
  | setEstimatedFee a r =>
      obtain ⟨rfl, -⟩ := Prod.mk.inj (Except.ok.inj h)
      exact framed_of_model rfl rfl
  | updateFeeData =>
      obtain ⟨m, hm, h⟩ := bind_ok.mp h
      obtain ⟨rfl, -⟩ := Prod.mk.inj (Except.ok.inj h)
      exact updateFeeData_framed hm
  | updateResultingData =>
      obtain ⟨m, hm, h⟩ := bind_ok.mp h
      obtain ⟨rfl, -⟩ := Prod.mk.inj (Except.ok.inj h)
      exact updateResultingData_framed hm
  | updateCanProceed =>
      obtain ⟨m, hm, h⟩ := bind_ok.mp h
      obtain ⟨rfl, -⟩ := Prod.mk.inj (Except.ok.inj h)
      exact updateCanProceed_framed hm
  | updateBlock =>
      obtain ⟨rfl, -⟩ := Prod.mk.inj (Except.ok.inj h)
      exact ⟨rfl, rfl, rfl, rfl, rfl⟩

/-- The last operation takes a turn. -/
theorem Stage.step {s : SendOperationStep} {rest todo : List SendOperationStep}
    (h : Stage amount recipient n (s :: rest)) (hp : Facts lib p.wallet amount recipient n p)
    (hamount : p.model.amount = amount) (hrecipient : p.model.recipient = recipient)
    (hstep : runOperationStep lib p false rest s = .ok (q, todo)) :
    ∃ k, Facts lib p.wallet amount recipient k q ∧
      (Stage amount recipient k todo ∨ k = 0 ∧ todo = []) := by
  cases h with
  | begun =>
      obtain ⟨rfl, rfl⟩ := Prod.mk.inj (Except.ok.inj hstep)
      exact ⟨6, facts_of_lt (by decide), .inl .called⟩
  | called =>
      obtain ⟨rfl, rfl⟩ := Prod.mk.inj (Except.ok.inj hstep)
      rw [hamount, hrecipient]
      exact ⟨6, facts_of_lt (by decide), .inl .answered⟩
  | answered =>
      obtain ⟨rfl, rfl⟩ := Prod.mk.inj (Except.ok.inj hstep)
      exact ⟨5, ⟨fun _ => rfl, by omega, by omega, by omega, by omega⟩, .inl .estimated⟩
  | estimated =>
      obtain ⟨rfl, rfl⟩ := Prod.mk.inj (Except.ok.inj hstep)
      exact ⟨4, ⟨fun _ => hp.fee (by decide), by omega, by omega, by omega, by omega⟩,
        .inl .checked⟩
  | checked =>
      obtain ⟨m, hm, hstep⟩ := bind_ok.mp hstep
      obtain ⟨rfl, rfl⟩ := Prod.mk.inj (Except.ok.inj hstep)
      have hq := hp.updateFeeData hm
      exact ⟨3, ⟨fun _ => hq.fee (by decide),
        fun _ => SendInputViewModel.updateFeeData_again hm, by omega, by omega, by omega⟩,
        .inl .feeData⟩
  | feeData =>
      obtain ⟨m, hm, hstep⟩ := bind_ok.mp hstep
      obtain ⟨rfl, rfl⟩ := Prod.mk.inj (Except.ok.inj hstep)
      have hq := hp.updateResultingData hm
      exact ⟨2, ⟨fun _ => hq.fee (by decide), fun _ => hq.feeData (by decide),
        fun _ => SendInputViewModel.updateResultingData_again hm, by omega, by omega⟩,
        .inl .resultingData⟩
  | resultingData =>
      obtain ⟨m, hm, hstep⟩ := bind_ok.mp hstep
      obtain ⟨rfl, rfl⟩ := Prod.mk.inj (Except.ok.inj hstep)
      have hq := hp.updateCanProceed hm
      exact ⟨1, ⟨fun _ => hq.fee (by decide), fun _ => hq.feeData (by decide),
        fun _ => hq.resultingData (by decide),
        fun _ => SendInputViewModel.updateCanProceed_again hm, by omega⟩, .inl .canProceed⟩
  | canProceed =>
      obtain ⟨rfl, rfl⟩ := Prod.mk.inj (Except.ok.inj hstep)
      exact ⟨0, ⟨fun _ => hp.fee (by decide), fun _ => hp.feeData (by decide),
        fun _ => hp.resultingData (by decide), fun _ => hp.canProceed (by decide), fun _ => rfl⟩,
        .inr ⟨rfl, rfl⟩⟩

/-! ### Turns -/

/-- What a turn of the operation that runs does. -/
theorem runOperation_ok (h : p.runOperation lib = .ok q) :
    q = p ∧ (p.operations = [] ∨ p.main ≠ []) ∨
    ∃ op others, p.operations = op :: others ∧
      (op.todo = [] ∧ q = { p with operations := others } ∨
        ∃ s rest r todo, op.todo = s :: rest ∧ (s = .updateBlock → p.main = []) ∧
          runOperationStep lib p op.isCancelled rest s = .ok (r, todo) ∧
          q = r.setTodo op others todo) := by
  unfold runOperation at h
  cases hoperations : p.operations with
  | nil =>
      rw [hoperations] at h
      exact .inl ⟨(Except.ok.inj h).symm, .inl rfl⟩
  | cons op others =>
      rw [hoperations] at h
      dsimp only at h
      cases htodo : op.todo with
      | nil =>
          rw [htodo] at h
          exact .inr ⟨op, others, rfl, .inl ⟨htodo, (Except.ok.inj h).symm⟩⟩
      | cons s rest =>
          rw [htodo] at h
          dsimp only at h
          by_cases hblocked : s = .updateBlock ∧ p.main ≠ []
          · rw [if_pos hblocked] at h
            exact .inl ⟨(Except.ok.inj h).symm, .inr hblocked.2⟩
          · rw [if_neg hblocked] at h
            obtain ⟨⟨r, todo⟩, hrun, h⟩ := bind_ok.mp h
            refine .inr ⟨op, others, rfl, .inr ⟨s, rest, r, todo, htodo, fun hs => ?_, hrun,
              (Except.ok.inj h).symm⟩⟩
            exact not_not.mp fun hmain => hblocked ⟨hs, hmain⟩

theorem setTodo_model (r : SendProcess) (op : SendOperation) (others : List SendOperation)
    (todo : List SendOperationStep) : (r.setTodo op others todo).model = r.model ∧
      (r.setTodo op others todo).wallet = r.wallet ∧
      (r.setTodo op others todo).main = r.main ∧
      (r.setTodo op others todo).isNextEnabled = r.isNextEnabled := by
  cases todo with
  | nil => exact ⟨rfl, rfl, rfl, rfl⟩
  | cons s todo => exact ⟨rfl, rfl, rfl, rfl⟩

theorem Pending.runOperation (h : Pending lib w amount recipient p)
    (hstep : p.runOperation lib = .ok q) : Pending lib w amount recipient q := by
  rcases runOperation_ok hstep with ⟨rfl, -⟩ | ⟨op, others, hoperations, hcases⟩
  · exact h
  rcases hcases with ⟨htodo, rfl⟩ | ⟨s, rest, r, todo, htodo, -, hrun, rfl⟩
  · refine ⟨h.wallet_eq, h.amount_eq, h.recipient_eq, h.under_way.imp_right fun hmain => ?_⟩
    obtain ⟨hsuffix, n, -, hqueued⟩ := hmain
    rw [hoperations] at hqueued
    cases hqueued with
    | running hstage =>
        -- Something is left of the last operation.
        cases htodo
        cases hstage
    | waiting _ older => exact ⟨hsuffix, 7, facts_of_lt (by decide), queued_append older⟩
  · have hframed := runOperationStep_framed hrun
    obtain ⟨hmodel, hwallet, hmain, hnext⟩ := setTodo_model r op others todo
    refine ⟨?_, ?_, ?_, h.under_way.imp ?_ ?_⟩
    · rw [hwallet, hframed.wallet, h.wallet_eq]
    · rw [hmodel, hframed.amount, h.amount_eq]
    · rw [hmodel, hframed.recipient, h.recipient_eq]
    · rw [hmain, hframed.main]
      exact id
    · intro hmainCase
      obtain ⟨hsuffix, n, hfacts, hqueued⟩ := hmainCase
      rw [hmain, hframed.main]
      refine ⟨hsuffix, ?_⟩
      rw [hoperations] at hqueued
      cases hqueued with
      | running hstage =>
          obtain rfl : _ = s :: rest := htodo
          rw [← h.wallet_eq] at hfacts ⊢
          obtain ⟨k, hk, hleft⟩ := hstage.step hfacts h.amount_eq h.recipient_eq hrun
          refine ⟨k, hk.congr hmodel hnext, ?_⟩
          rcases hleft with hstage | ⟨rfl, rfl⟩
          · cases todo with
            | nil => cases hstage
            | cons s todo => exact .running hstage
          · exact .done
      | waiting _ older =>
          refine ⟨7, facts_of_lt (by decide), ?_⟩
          cases todo with
          | nil => exact queued_append older
          | cons s todo => exact .waiting _ older

theorem Pending.runMain (h : Pending lib w amount recipient p) (hstep : p.runMain lib = .ok q) :
    Pending lib w amount recipient q := by
  unfold SendProcess.runMain at hstep
  cases hmain : p.main with
  | nil =>
      rw [hmain] at hstep
      exact Except.ok.inj hstep ▸ h
  | cons s main =>
      rw [hmain] at hstep
      dsimp only at hstep
      obtain ⟨hwallet, hamount, hrecipient, hunder⟩ := h
      rw [hmain] at hunder
      rcases hunder with hbegun | ⟨hsuffix, n, hfacts, hqueued⟩
      · -- The last operation is added.
        obtain ⟨rfl, rfl⟩ := List.cons.inj hbegun
        obtain rfl := Except.ok.inj hstep
        exact ⟨hwallet, hamount, hrecipient,
          .inr ⟨List.suffix_refl _, 7, facts_of_lt (by decide), queued_append _⟩⟩
      · have hrest : main <:+ afterEnqueue := (List.suffix_cons s main).trans hsuffix
        have hrunning : Facts lib p.wallet amount recipient n { p with main := main } :=
          hwallet ▸ hfacts.congr rfl rfl
        rw [← hwallet]
        cases s with
        | enqueueFeeEstimation =>
            have hmem := hsuffix.subset (List.mem_cons_self)
            exact absurd hmem (by decide)
        | updateFeeData =>
            obtain ⟨m, hm, hstep⟩ := bind_ok.mp hstep
            obtain rfl := Except.ok.inj hstep
            have hframed := updateFeeData_framed (p := { p with main := main }) hm
            exact ⟨rfl, hframed.amount.trans hamount, hframed.recipient.trans hrecipient,
              .inr ⟨hrest, n, hrunning.updateFeeData hm, hqueued⟩⟩
        | updateResultingData =>
            obtain ⟨m, hm, hstep⟩ := bind_ok.mp hstep
            obtain rfl := Except.ok.inj hstep
            have hframed := updateResultingData_framed (p := { p with main := main }) hm
            exact ⟨rfl, hframed.amount.trans hamount, hframed.recipient.trans hrecipient,
              .inr ⟨hrest, n, hrunning.updateResultingData hm, hqueued⟩⟩
        | notifyUpdated =>
            obtain ⟨m, hm, hstep⟩ := bind_ok.mp hstep
            obtain rfl := Except.ok.inj hstep
            have hframed := updateCanProceed_framed (p := { p with main := main }) hm
            exact ⟨rfl, hframed.amount.trans hamount, hframed.recipient.trans hrecipient,
              .inr ⟨hrest, n, (hrunning.updateCanProceed hm).updateBlock, hqueued⟩⟩

/-! ### Where the screen comes to rest -/

/-- A turn of a thread. -/
def isTurn : SendAction → Bool
  | .runMain => true
  | .runOperation => true
  | _ => false

theorem Pending.step {a : SendAction} (h : Pending lib w amount recipient p)
    (ha : isTurn a = true) (hstep : p.step lib a = .ok q) : Pending lib w amount recipient q := by
  cases a with
  | runMain => exact h.runMain hstep
  | runOperation => exact h.runOperation hstep
  | _ => cases ha

theorem pending_run {as : List SendAction} (h : Pending lib w amount recipient p)
    (has : ∀ a ∈ as, isTurn a = true) (hrun : Transition.run (step lib) p as = .ok q) :
    Pending lib w amount recipient q := by
  induction as generalizing p with
  | nil => exact Except.ok.inj hrun ▸ h
  | cons a as ih =>
      obtain ⟨ha, has⟩ := List.forall_mem_cons.mp has
      obtain ⟨u, hstep, hrest⟩ := Transition.run_cons_ok.mp hrun
      exact ih (h.step ha hstep) has hrest

/-- The balance of a token, zero where it is not known. -/
def balance (w : SendWallet) (id : TokenID) : Int :=
  ((w.tokenData id).bind (·.balance)).getD 0

/-- The wallet can pay the amount and the fee. -/
def Affords (w : SendWallet) (transferTokenID : TokenID) (amount fee : Int) : Prop :=
  if w.feeTokenID = transferTokenID then amount + |fee| ≤ balance w transferTokenID
  else amount ≤ balance w transferTokenID ∧ |fee| ≤ balance w w.feeTokenID

/-- What the screen shows at rest. -/
structure Settled (lib : ThirdParty) (p : SendProcess) : Prop where
  fee : p.model.estimatedFee =
    p.wallet.estimateTransferFee (p.model.amount.getD 0) p.model.recipient
  /-- Computing the balances again changes nothing. -/
  feeData : p.model.updateFeeData p.wallet = .ok p.model
  resultingData : p.model.updateResultingData p.wallet = .ok p.model
  /-- The user can proceed exactly if the transfer can be paid, and the recipient is an address. -/
  canProceed_iff : p.model.canProceedToSigning = true ↔
    ∃ fee s, p.wallet.estimateTransferFee (p.model.amount.getD 0) p.model.recipient = some fee ∧
      Affords p.wallet p.model.transferTokenID (p.model.amount.getD 0) fee ∧
      p.model.recipient = some s ∧ (EthereumAddressFormatter.data lib s).isSome = true
  next : p.isNextEnabled = p.model.canProceedToSigning

theorem isValidAddress_eq (lib : ThirdParty) (recipient : Option Str) :
    SendInputViewModel.isValidAddress lib recipient =
      .ok (recipient.any fun s => (EthereumAddressFormatter.data lib s).isSome) := by
  cases recipient with
  | none => rfl
  | some s =>
      unfold SendInputViewModel.isValidAddress
      cases hdata : EthereumAddressFormatter.data lib s with
      | none =>
          simp only [EthereumAddressFormatter.string, hdata, Option.any_some]
          rfl
      | some d =>
          have hstring := EthereumAddressFormatter.string_of_data (f := {}) hdata
          rw [EthereumAddressFormatter.stringFromData_off rfl] at hstring
          simp only [hstring, hdata, Option.any_some]
          rfl

/-- Where the fee is up to date, the check compares with it. -/
theorem hasEnoughFunds_ok {hasEnough : Bool} (hfee : m.updateFeeData w = .ok m)
    (h : m.hasEnoughFunds w = .ok hasEnough) : hasEnough = true ↔
      ∃ fee, m.estimatedFee = some fee ∧
        Affords w m.transferTokenID (m.amount.getD 0) fee := by
  obtain ⟨t, ht, hm⟩ := SendInputViewModel.updateFeeData_ok.mp hfee
  have hbalance : m.feeBalanceTokenData = some t := by rw [hm]
  have hestimated : m.feeEstimatedAmountTokenData =
      some (t.withBalance (m.estimatedFee.map fun fee => -fee)) := by
    conv_lhs => rw [hm]
  unfold SendInputViewModel.hasEnoughFunds SendInputViewModel.accountBalanceTokenData at h
  obtain ⟨e, he, hmatch⟩ := bind_ok.mp h
  have hbalances := Option.some.inj (hestimated.symm.trans (unwrap_ok.mp he))
  rw [← hbalances] at hmatch
  cases hknown : m.estimatedFee with
  | none =>
      rw [hknown] at hmatch
      obtain rfl := Except.ok.inj hmatch
      simp
  | some fee =>
      rw [hknown] at hmatch
      obtain ⟨account, haccount, hrest⟩ := bind_ok.mp hmatch
      obtain ⟨b, hb, hcompare⟩ := bind_ok.mp hrest
      obtain rfl := Option.some.inj (hbalance.symm.trans (unwrap_ok.mp hb))
      have hfound := unwrap_ok.mp haccount
      simp only [Option.some.injEq, exists_eq_left']
      unfold Affords balance
      rw [hfound, ht]
      by_cases htoken : w.feeTokenID = m.transferTokenID
      · simp only [if_pos htoken] at hcompare ⊢
        obtain rfl := Except.ok.inj hcompare
        simp
      · simp only [if_neg htoken] at hcompare ⊢
        obtain rfl := Except.ok.inj hcompare
        simp

theorem Facts.settled (h : Facts lib p.wallet p.model.amount p.model.recipient 0 p) :
    Settled lib p := by
  obtain ⟨hasEnough, isValid, henough, hvalid, hm⟩ :=
    SendInputViewModel.updateCanProceed_ok.mp (h.canProceed (by decide))
  have hcan : p.model.canProceedToSigning = (hasEnough && isValid) := by
    conv_lhs => rw [hm]
  refine ⟨h.fee (by decide), h.feeData (by decide), h.resultingData (by decide), ?_, h.next rfl⟩
  obtain rfl := Except.ok.inj ((isValidAddress_eq lib p.model.recipient).symm.trans hvalid)
  rw [hcan, Bool.and_eq_true, hasEnoughFunds_ok (h.feeData (by decide)) henough,
    Option.any_eq_true, h.fee (by decide)]
  constructor
  · intro hboth
    obtain ⟨⟨fee, hfee, hafford⟩, s, hs, hdata⟩ := hboth
    exact ⟨fee, s, hfee, hafford, hs, hdata⟩
  · intro hall
    obtain ⟨fee, s, hfee, hafford, hs, hdata⟩ := hall
    exact ⟨⟨fee, hfee, hafford⟩, s, hs, hdata⟩

/-- Something else is entered, or the screen is to be updated, while the main thread is idle. -/
def IsUpdate (p : SendProcess) : SendAction → Prop
  | .change amount => p.main = [] ∧ p.model.amount ≠ some amount
  | .changeRecipient recipient => p.main = [] ∧ p.model.recipient ≠ recipient
  | .update => p.main = []
  | _ => False

/-- The amount and the recipient after an action. -/
def input (p : SendProcess) : SendAction → Option Int × Option Str
  | .change amount => (some amount, p.model.recipient)
  | .changeRecipient recipient => (p.model.amount, recipient)
  | _ => (p.model.amount, p.model.recipient)

theorem pending_of_isUpdate {a : SendAction} (ha : IsUpdate p a) (hstep : p.step lib a = .ok q) :
    Pending lib p.wallet (input p a).1 (input p a).2 q := by
  cases a with
  | change amount =>
      rw [step, if_neg (by simp [ha.1, ha.2])] at hstep
      obtain rfl := Except.ok.inj hstep
      exact ⟨rfl, rfl, rfl, .inl rfl⟩
  | changeRecipient recipient =>
      rw [step, if_neg (by simp [ha.1, ha.2])] at hstep
      obtain rfl := Except.ok.inj hstep
      exact ⟨rfl, rfl, rfl, .inl rfl⟩
  | update =>
      have hidle : p.main = [] := ha
      rw [step, if_neg (by simp [hidle])] at hstep
      obtain rfl := Except.ok.inj hstep
      exact ⟨rfl, rfl, rfl, .inl rfl⟩
  | _ => exact ha.elim

/-- Whatever was going on before, and in whatever order the main thread and the operations take
their turns afterwards: once they have come to rest, the screen shows the estimate for what was
entered last, and lets the user proceed exactly if the transfer can be paid. -/
theorem update_settles (lib : ThirdParty) {a : SendAction} (ha : IsUpdate p a)
    {turns : List SendAction} (hturns : ∀ a ∈ turns, isTurn a = true)
    (hrun : Transition.run (step lib) p (a :: turns) = .ok q) (hmain : q.main = [])
    (hoperations : q.operations = []) :
    q.wallet = p.wallet ∧ (q.model.amount, q.model.recipient) = input p a ∧ Settled lib q := by
  obtain ⟨u, hstep, hrest⟩ := Transition.run_cons_ok.mp hrun
  have hq := pending_run (pending_of_isUpdate ha hstep) hturns hrest
  refine ⟨hq.wallet_eq, Prod.ext hq.amount_eq hq.recipient_eq, ?_⟩
  rcases hq.under_way with hbegun | ⟨-, n, hfacts, hqueued⟩
  · rw [hmain] at hbegun
    cases hbegun
  · rw [hoperations] at hqueued
    cases hqueued
    rw [← hq.wallet_eq, ← hq.amount_eq, ← hq.recipient_eq] at hfacts
    exact hfacts.settled

/-- The amount changes while the first estimate is under way, and the main thread is done before
the second one begins. -/
theorem update_settles_overtaken : ∃ p q : SendProcess, p.operations ≠ [] ∧
    (q.model.amount, q.model.estimatedFee, q.model.canProceedToSigning) =
      (some 60, some 2, true) ∧
    q.wallet = p.wallet ∧ Settled reference q := by
  let w : SendWallet :=
    { feeTokenID := hexMark
      tokenData := fun id => some ⟨id, some 100⟩
      estimateTransferFee := fun amount _ => some (if amount = 60 then 2 else 1) }
  let before : List SendAction := [.changeRecipient (some "0x01".toList), .runMain, .runOperation,
    .runOperation, .runMain, .runMain, .runMain]
  let turns : List SendAction := .runOperation :: .runMain :: .runMain :: .runMain :: .runMain ::
    List.replicate 9 .runOperation
  obtain ⟨⟨p, q⟩, hruns, hpq⟩ := exists_ok_of_any
    (x := do
      let p ← Transition.run (step reference) (init w hexMark) before
      return (p, ← Transition.run (step reference) p (.change 60 :: turns)))
    (p := fun s => decide (s.1.main = [] ∧ s.1.model.amount ≠ some 60 ∧ s.1.operations ≠ []) &&
      decide (s.2.main = [] ∧ s.2.operations = [] ∧ (s.2.model.amount, s.2.model.estimatedFee,
        s.2.model.canProceedToSigning) = (some 60, some 2, true)))
    (by decide +kernel)
  obtain ⟨hp, hq⟩ := Bool.and_eq_true_iff.mp hpq
  obtain ⟨hidle, hamount, hoperations⟩ := of_decide_eq_true hp
  obtain ⟨hmain, hdone, hshown⟩ := of_decide_eq_true hq
  obtain ⟨p', -, hrest⟩ := bind_ok.mp hruns
  obtain ⟨q', hrun, hpair⟩ := bind_ok.mp hrest
  obtain ⟨rfl, rfl⟩ := Prod.mk.inj (Except.ok.inj hpair)
  have hturns : ∀ a ∈ turns, isTurn a = true := by decide
  have hsettled := update_settles reference (a := .change 60) ⟨hidle, hamount⟩ hturns hrun hmain
    hdone
  exact ⟨p', q', hoperations, hshown, hsettled.1, hsettled.2.2⟩

/-! ### Coming to rest -/

/-- How many turns a statement of the main thread can make necessary. -/
def mainWork : SendMainStep → Nat
  | .enqueueFeeEstimation => 10
  | _ => 1

def stepWork : SendOperationStep → Nat
  | .estimateTransferFee => 2
  | _ => 1

def todoWork (todo : List SendOperationStep) : Nat := (todo.map stepWork).sum

def operationsWork (operations : List SendOperation) : Nat :=
  (operations.map fun op => 1 + todoWork op.todo).sum

/-- How many turns are left at most. -/
def work (p : SendProcess) : Nat := (p.main.map mainWork).sum + operationsWork p.operations

theorem work_eq_zero : work p = 0 ↔ p.main = [] ∧ p.operations = [] := by
  unfold work operationsWork
  constructor
  · intro h
    refine ⟨?_, ?_⟩
    · cases hmain : p.main with
      | nil => rfl
      | cons s main =>
          rw [hmain] at h
          cases s <;> simp [mainWork] at h
    · cases hoperations : p.operations with
      | nil => rfl
      | cons op others =>
          rw [hoperations] at h
          simp at h
  · intro h
    rw [h.1, h.2]
    rfl

theorem operationsWork_cancelled (operations : List SendOperation) :
    operationsWork (operations.map fun op => { op with isCancelled := true }) =
      operationsWork operations := by
  unfold operationsWork
  rw [List.map_map]
  rfl

theorem work_enqueueFeeEstimation : work p.enqueueFeeEstimation = work p + 9 := by
  have hcancelled := operationsWork_cancelled p.operations
  unfold operationsWork at hcancelled
  simp only [work, operationsWork, enqueueFeeEstimation, List.map_append, List.sum_append,
    hcancelled]
  rfl

theorem work_runMain (hmain : p.main ≠ []) (h : p.runMain lib = .ok q) : work q < work p := by
  obtain ⟨s, main, hmain⟩ := List.exists_cons_of_ne_nil hmain
  have hp : work p = mainWork s + work { p with main := main } := by
    simp only [work, hmain, List.map_cons, List.sum_cons, Nat.add_assoc]
  rw [hp]
  unfold SendProcess.runMain at h
  rw [hmain] at h
  cases s with
  | enqueueFeeEstimation =>
      obtain rfl := Except.ok.inj h
      rw [work_enqueueFeeEstimation]
      simp only [mainWork]
      omega
  | updateFeeData =>
      obtain ⟨m, -, hq⟩ := bind_ok.mp h
      obtain rfl := Except.ok.inj hq
      exact Nat.lt_add_of_pos_left (by decide)
  | updateResultingData =>
      obtain ⟨m, -, hq⟩ := bind_ok.mp h
      obtain rfl := Except.ok.inj hq
      exact Nat.lt_add_of_pos_left (by decide)
  | notifyUpdated =>
      obtain ⟨m, -, hq⟩ := bind_ok.mp h
      obtain rfl := Except.ok.inj hq
      exact Nat.lt_add_of_pos_left (by decide)

/-- A statement may leave one other to do, a cheaper one, and ends the operation if it was
cancelled. -/
theorem todoWork_runOperationStep {isCancelled : Bool} {rest todo : List SendOperationStep}
    {s : SendOperationStep} (h : runOperationStep lib p isCancelled rest s = .ok (q, todo)) :
    todoWork todo < todoWork (s :: rest) := by
  cases s with
  | checkCancelled =>
      obtain ⟨-, rfl⟩ := Prod.mk.inj (Except.ok.inj h)
      cases isCancelled <;> simp [todoWork, stepWork]
  | estimateTransferFee =>
      obtain ⟨-, rfl⟩ := Prod.mk.inj (Except.ok.inj h)
      simp [todoWork, stepWork]
  | setEstimatedFee a r =>
      obtain ⟨-, rfl⟩ := Prod.mk.inj (Except.ok.inj h)
      simp [todoWork, stepWork]
  | updateFeeData =>
      obtain ⟨m, -, hq⟩ := bind_ok.mp h
      obtain ⟨-, rfl⟩ := Prod.mk.inj (Except.ok.inj hq)
      simp [todoWork, stepWork]
  | updateResultingData =>
      obtain ⟨m, -, hq⟩ := bind_ok.mp h
      obtain ⟨-, rfl⟩ := Prod.mk.inj (Except.ok.inj hq)
      simp [todoWork, stepWork]
  | updateCanProceed =>
      obtain ⟨m, -, hq⟩ := bind_ok.mp h
      obtain ⟨-, rfl⟩ := Prod.mk.inj (Except.ok.inj hq)
      simp [todoWork, stepWork]
  | updateBlock =>
      obtain ⟨-, rfl⟩ := Prod.mk.inj (Except.ok.inj h)
      simp [todoWork, stepWork]

theorem operationsWork_setTodo (r : SendProcess) (op : SendOperation)
    (others : List SendOperation) (todo : List SendOperationStep) :
    operationsWork (r.setTodo op others todo).operations ≤
      1 + todoWork todo + operationsWork others := by
  cases todo with
  | nil => exact Nat.le_add_left _ _
  | cons s todo => exact Nat.le_of_eq List.sum_cons

/-- An operation waits for the main thread alone. -/
theorem work_runOperation (h : p.runOperation lib = .ok q) :
    q = p ∧ (p.operations = [] ∨ p.main ≠ []) ∨ work q < work p := by
  refine (runOperation_ok h).imp_right fun hturn => ?_
  obtain ⟨op, others, hoperations, hcases⟩ := hturn
  have hp : operationsWork p.operations = 1 + todoWork op.todo + operationsWork others := by
    rw [hoperations]
    exact List.sum_cons
  rcases hcases with ⟨htodo, rfl⟩ | ⟨s, rest, r, todo, htodo, -, hrun, rfl⟩
  · unfold work
    rw [hp]
    dsimp only
    omega
  · have htodoWork := todoWork_runOperationStep hrun
    have hset := operationsWork_setTodo r op others todo
    have hmain := (setTodo_model r op others todo).2.2.1
    unfold work
    rw [hp, htodo, hmain, (runOperationStep_framed hrun).main]
    omega

theorem progresses (lib : ThirdParty) : Transition.Progresses (step lib) work
    (fun a => isTurn a = true) [.runMain, .runOperation] where
  decreases p a q ha hstep := by
    cases a with
    | runMain =>
        by_cases hmain : p.main = []
        · unfold step SendProcess.runMain at hstep
          rw [hmain] at hstep
          exact .inl (Except.ok.inj hstep).symm
        · exact .inr (work_runMain hmain hstep)
    | runOperation => exact (work_runOperation hstep).imp_left And.left
    | _ => cases ha
  moves p hwork := by
    by_cases hmain : p.main = []
    · refine ⟨.runOperation, by simp, fun hstep => ?_⟩
      rcases work_runOperation hstep with ⟨-, hdone⟩ | hlt
      · exact hwork (work_eq_zero.mpr ⟨hmain, hdone.resolve_right (not_not.mpr hmain)⟩)
      · exact Nat.lt_irrefl _ hlt
    · refine ⟨.runMain, by simp, fun hstep => ?_⟩
      exact Nat.lt_irrefl _ (work_runMain hmain hstep)

/-! ### No traps -/

/-- The balances that the later calls unwrap are there. -/
def Filled (m : SendInputViewModel) : Prop :=
  ∃ feeEstimated feeBalance, m.feeEstimatedAmountTokenData = some feeEstimated ∧
    m.feeBalanceTokenData = some feeBalance

/-- The wallet knows the token to transfer, and the one that fees are paid in. -/
def Knows (id : TokenID) (w : SendWallet) : Prop :=
  ∃ account fee, w.tokenData id = some account ∧ w.tokenData w.feeTokenID = some fee

/-- `updateFeeData()` comes before the calls that need the balances. -/
def FillsMain : List SendMainStep → Prop
  | [] => True
  | .enqueueFeeEstimation :: main => FillsMain main
  | .updateFeeData :: _ => True
  | .updateResultingData :: _ => False
  | .notifyUpdated :: _ => False

def Fills : List SendOperationStep → Prop
  | [] => True
  | .updateFeeData :: _ => True
  | .updateResultingData :: _ => False
  | .updateCanProceed :: _ => False
  | _ :: todo => Fills todo

structure Primed (id : TokenID) (p : SendProcess) : Prop where
  knows : Knows id p.wallet
  token_eq : p.model.transferTokenID = id
  ready : Filled p.model ∨ FillsMain p.main ∧ ∀ op ∈ p.operations, Fills op.todo

/-- A call returns, and the balances are there afterwards. -/
def Succeeds (m : SendInputViewModel) (result : Except Trap SendInputViewModel) : Prop :=
  ∃ m', result = .ok m' ∧ Filled m' ∧ m'.transferTokenID = m.transferTokenID

variable {id : TokenID}

theorem updateFeeData_succeeds (hw : Knows id w) : Succeeds m (m.updateFeeData w) := by
  obtain ⟨_, fee, -, hfee⟩ := hw
  exact ⟨_, SendInputViewModel.updateFeeData_ok.mpr ⟨fee, hfee, rfl⟩, ⟨_, _, rfl, rfl⟩, rfl⟩

theorem updateResultingData_succeeds (hw : Knows id w) (hid : m.transferTokenID = id)
    (hm : Filled m) : Succeeds m (m.updateResultingData w) := by
  obtain ⟨feeEstimated, feeBalance, hestimated, hbalance⟩ := hm
  obtain ⟨account, _, haccount, -⟩ := hw
  refine ⟨_, SendInputViewModel.updateResultingData_ok.mpr
    ⟨feeEstimated, feeBalance, account, hestimated, hbalance, hid ▸ haccount, rfl⟩, ?_, ?_⟩
  · split
    · exact ⟨_, _, hestimated, hbalance⟩
    · exact ⟨_, _, hestimated, hbalance⟩
  · split <;> rfl

theorem hasEnoughFunds_returns (hw : Knows id w) (hid : m.transferTokenID = id)
    (hm : Filled m) : ∃ hasEnough, m.hasEnoughFunds w = .ok hasEnough := by
  obtain ⟨⟨address, balance⟩, feeBalance, hestimated, hbalance⟩ := hm
  obtain ⟨account, _, haccount, -⟩ := hw
  unfold SendInputViewModel.hasEnoughFunds SendInputViewModel.accountBalanceTokenData
  rw [hestimated, hbalance, hid, haccount]
  cases balance with
  | none => exact ⟨false, rfl⟩
  | some fee =>
      by_cases htoken : w.feeTokenID = id
      · exact ⟨_, if_pos htoken⟩
      · exact ⟨_, if_neg htoken⟩

theorem updateCanProceed_succeeds (lib : ThirdParty) (hw : Knows id w) (hid : m.transferTokenID = id)
    (hm : Filled m) : Succeeds m (m.updateCanProceed lib w) := by
  obtain ⟨hasEnough, henough⟩ := hasEnoughFunds_returns hw hid hm
  exact ⟨_, SendInputViewModel.updateCanProceed_ok.mpr
    ⟨_, _, henough, isValidAddress_eq lib m.recipient, rfl⟩, hm, rfl⟩

theorem fills_cancelled {p : SendProcess} (h : ∀ op ∈ p.operations, Fills op.todo) :
    ∀ op ∈ p.enqueueFeeEstimation.operations, Fills op.todo := by
  intro op hop
  rcases List.mem_append.mp hop with hold | hnew
  · obtain ⟨op, hmem, rfl⟩ := List.mem_map.mp hold
    exact h op hmem
  · obtain rfl := List.mem_singleton.mp hnew
    trivial

theorem Primed.runMain (h : Primed id p) : ∃ q, p.runMain lib = .ok q ∧ Primed id q := by
  obtain ⟨hknows, htoken, hready⟩ := h
  cases hmain : p.main with
  | nil => exact ⟨p, by rw [SendProcess.runMain, hmain], hknows, htoken, hready⟩
  | cons s main =>
      rw [hmain] at hready
      unfold SendProcess.runMain
      rw [hmain]
      cases s with
      | enqueueFeeEstimation =>
          exact ⟨_, rfl, hknows, htoken, hready.imp_right fun h => ⟨h.1, fills_cancelled h.2⟩⟩
      | updateFeeData =>
          obtain ⟨m, hm, hfilled, hid⟩ := updateFeeData_succeeds (m := p.model) hknows
          exact ⟨_, bind_ok.mpr ⟨m, hm, rfl⟩, hknows, hid.trans htoken, .inl hfilled⟩
      | updateResultingData =>
          have hfilled := hready.resolve_right And.left
          obtain ⟨m, hm, hfilled, hid⟩ := updateResultingData_succeeds hknows htoken hfilled
          exact ⟨_, bind_ok.mpr ⟨m, hm, rfl⟩, hknows, hid.trans htoken, .inl hfilled⟩
      | notifyUpdated =>
          have hfilled := hready.resolve_right And.left
          obtain ⟨m, hm, hfilled, hid⟩ := updateCanProceed_succeeds lib hknows htoken hfilled
          exact ⟨_, bind_ok.mpr ⟨m, hm, rfl⟩, hknows, hid.trans htoken, .inl hfilled⟩

/-- A statement of the operation returns, and the balances are there afterwards unless they are
still to come. Whether they come in the other threads is not its business. -/
theorem Primed.runOperationStep (lib : ThirdParty) {others : Prop} (isCancelled : Bool)
    {rest : List SendOperationStep} {s : SendOperationStep} (h : Primed id p)
    (hfills : Filled p.model ∨ others ∧ Fills (s :: rest)) :
    ∃ q todo, runOperationStep lib p isCancelled rest s = .ok (q, todo) ∧
      q.model.transferTokenID = id ∧ (Filled q.model ∨ others ∧ Fills todo) := by
  obtain ⟨hknows, htoken, -⟩ := h
  cases s with
  | checkCancelled =>
      refine ⟨_, _, rfl, htoken, hfills.imp_right fun h => ⟨h.1, ?_⟩⟩
      cases isCancelled with
      | false => exact h.2
      | true => trivial
  | estimateTransferFee => exact ⟨_, _, rfl, htoken, hfills⟩
  | setEstimatedFee a r => exact ⟨_, _, rfl, htoken, hfills⟩
  | updateFeeData =>
      obtain ⟨m, hm, hfilled, hid⟩ := updateFeeData_succeeds (m := p.model) hknows
      exact ⟨_, _, bind_ok.mpr ⟨m, hm, rfl⟩, hid.trans htoken, .inl hfilled⟩
  | updateResultingData =>
      have hthere := hfills.resolve_right And.right
      obtain ⟨m, hm, hfilled, hid⟩ := updateResultingData_succeeds hknows htoken hthere
      exact ⟨_, _, bind_ok.mpr ⟨m, hm, rfl⟩, hid.trans htoken, .inl hfilled⟩
  | updateCanProceed =>
      have hthere := hfills.resolve_right And.right
      obtain ⟨m, hm, hfilled, hid⟩ := updateCanProceed_succeeds lib hknows htoken hthere
      exact ⟨_, _, bind_ok.mpr ⟨m, hm, rfl⟩, hid.trans htoken, .inl hfilled⟩
  | updateBlock => exact ⟨_, _, rfl, htoken, hfills⟩

theorem fills_setTodo {r : SendProcess} {running : SendOperation} {others : List SendOperation}
    {todo : List SendOperationStep} (htodo : Fills todo) (hothers : ∀ op ∈ others, Fills op.todo) :
    ∀ op ∈ (r.setTodo running others todo).operations, Fills op.todo := by
  cases todo with
  | nil => exact hothers
  | cons s todo =>
      intro op hop
      rcases List.mem_cons.mp hop with rfl | hmem
      · exact htodo
      · exact hothers op hmem

theorem Primed.runOperation (h : Primed id p) : ∃ q, p.runOperation lib = .ok q ∧ Primed id q := by
  unfold SendProcess.runOperation
  cases hoperations : p.operations with
  | nil => exact ⟨p, rfl, h⟩
  | cons op others =>
      have hready := h.ready
      rw [hoperations, List.forall_mem_cons] at hready
      dsimp only
      cases htodo : op.todo with
      | nil =>
          dsimp only
          refine ⟨_, rfl, h.knows, h.token_eq, hready.imp_right fun hfills => ?_⟩
          exact ⟨hfills.1, hfills.2.2⟩
      | cons s rest =>
          dsimp only
          by_cases hblocked : s = .updateBlock ∧ p.main ≠ []
          · exact ⟨p, if_pos hblocked, h⟩
          rw [if_neg hblocked]
          rw [htodo, ← and_assoc, and_right_comm] at hready
          obtain ⟨q, todo, hrun, htoken, hleft⟩ :=
            h.runOperationStep lib op.isCancelled hready
          have hframed := runOperationStep_framed hrun
          obtain ⟨hmodel, hwallet, hmain, -⟩ := setTodo_model q op others todo
          refine ⟨q.setTodo op others todo, bind_ok.mpr ⟨(q, todo), hrun, rfl⟩, ?_, ?_, ?_⟩
          · rw [hwallet, hframed.wallet]
            exact h.knows
          · rw [hmodel, htoken]
          · rw [hmodel, hmain, hframed.main]
            refine hleft.imp_right fun hfills => ⟨hfills.1.1, ?_⟩
            exact fills_setTodo hfills.2 hfills.1.2

/-- The wallet never forgets the tokens. -/
def KeepsTokens (id : TokenID) : SendAction → Prop
  | .walletDidChange wallet => Knows id wallet
  | _ => True

theorem Primed.update (h : Primed id p) {m : SendInputViewModel}
    (hm : m.transferTokenID = p.model.transferTokenID)
    (hfilled : Filled p.model → Filled m) : Primed id (p.update m) :=
  ⟨h.knows, hm.trans h.token_eq, h.ready.imp hfilled fun h => ⟨trivial, h.2⟩⟩

theorem Primed.step {a : SendAction} (h : Primed id p) (ha : KeepsTokens id a) :
    ∃ q, p.step lib a = .ok q ∧ Primed id q := by
  cases a with
  | change amount =>
      refine ⟨_, rfl, ?_⟩
      split
      · exact h
      · exact h.update rfl fun hfilled => hfilled
  | changeRecipient recipient =>
      refine ⟨_, rfl, ?_⟩
      split
      · exact h
      · exact h.update rfl fun hfilled => hfilled
  | update =>
      refine ⟨_, rfl, ?_⟩
      split
      · exact h
      · exact h.update rfl fun hfilled => hfilled
  | resetEstimation =>
      refine ⟨_, rfl, ?_⟩
      split
      · exact h
      · exact ⟨h.knows, h.token_eq, h.ready⟩
  | walletDidChange wallet => exact ⟨_, rfl, ha, h.token_eq, h.ready⟩
  | runMain => exact h.runMain
  | runOperation => exact h.runOperation

theorem primed_run (lib : ThirdParty) {as : List SendAction} (h : Primed id p) (has : ∀ a ∈ as, KeepsTokens id a) :
    ∃ q, Transition.run (step lib) p as = .ok q ∧ Primed id q :=
  Transition.run_isOk_of_allowed (fun _ _ ha hp => hp.step ha) h
    (Transition.allowed_of_forall fun a ha _ => has a ha)

theorem keepsTokens_of_isTurn {a : SendAction} (ha : isTurn a = true) : KeepsTokens id a := by
  cases a with
  | runMain => trivial
  | runOperation => trivial
  | _ => cases ha

end SendProcess

end MultisigWallet
