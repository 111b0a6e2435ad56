import MultisigWallet.Lib.Rows
import MultisigWallet.Portfolio

/-!
# MultisigWallet.PortfolioSound

Which portfolios have a selection that makes sense, and which of them survive the database.

* `Portfolio.Valid` is kept by adding and by selecting. Removing keeps it unless the wallet that
  goes is the selected one and others stay: the selection is reset only with the last wallet.
* Reading a row replays `addWallet` over the pieces of the text. That gives the wallets back,
  except that the text of no wallets has one piece, the empty one.
-/

namespace MultisigWallet

namespace Portfolio

variable {p q : Portfolio} {wallet : WalletID}

/-- The wallets are different, and the selection is one of them if there are any. -/
structure Valid (p : Portfolio) : Prop where
  distinct : p.wallets.Nodup
  selects : p.selectedWallet = none ↔ p.wallets = []
  selected : ∀ wallet ∈ p.selectedWallet, wallet ∈ p.wallets

/-- The call does not remove the selected wallet, or removes the last one. -/
def KeepsSelection (p : Portfolio) : Call → Prop
  | .removeWallet wallet => p.selectedWallet = some wallet → p.wallets = [wallet]
  | _ => True

instance : (c : Call) → Decidable (KeepsSelection p c)
  | .removeWallet wallet =>
      inferInstanceAs (Decidable (p.selectedWallet = some wallet → p.wallets = [wallet]))
  | .addWallet _ => .isTrue trivial
  | .selectWallet _ => .isTrue trivial

/-! ### What the calls do -/

theorem addWallet_ok (h : p.addWallet wallet = .ok q) :
    wallet ∉ p.wallets ∧ q = { p with
      selectedWallet := if p.wallets = [] then some wallet else p.selectedWallet
      wallets := p.wallets ++ [wallet] } := by
  obtain ⟨_, hcheck, hq⟩ := bind_ok.mp h
  have hnot := precondition_ok.mp hcheck
  refine ⟨by simpa using hnot, ?_⟩
  rw [← Except.ok.inj hq]
  simp [List.isEmpty_iff]

theorem addWallet_eq (h : wallet ∉ p.wallets) :
    p.addWallet wallet = .ok { p with
      selectedWallet := if p.wallets = [] then some wallet else p.selectedWallet
      wallets := p.wallets ++ [wallet] } := by
  simp [addWallet, precondition, h, List.isEmpty_iff, bind, Except.bind, pure, Except.pure]

theorem removeWallet_ok (h : p.removeWallet wallet = .ok q) :
    wallet ∈ p.wallets ∧ q = { p with
      wallets := p.wallets.erase wallet
      selectedWallet := if p.wallets.erase wallet = [] then none else p.selectedWallet } := by
  obtain ⟨index, hindex, hq⟩ := bind_ok.mp h
  have hindex := unwrap_ok.mp hindex
  have herase : p.wallets.eraseIdx index = p.wallets.erase wallet := by
    rw [List.erase_eq_eraseIdx, hindex]
  refine ⟨?_, ?_⟩
  · by_contra hnot
    rw [List.idxOf?_eq_none_iff.mpr hnot] at hindex
    cases hindex
  · rw [← Except.ok.inj hq]
    simp [herase, List.isEmpty_iff]

theorem selectWallet_ok (h : p.selectWallet wallet = .ok q) :
    wallet ∈ p.wallets ∧ q = { p with selectedWallet := some wallet } := by
  obtain ⟨_, hcheck, hq⟩ := bind_ok.mp h
  exact ⟨by simpa using precondition_ok.mp hcheck, (Except.ok.inj hq).symm⟩

theorem selectWallet_eq (h : wallet ∈ p.wallets) :
    p.selectWallet wallet = .ok { p with selectedWallet := some wallet } := by
  simp [selectWallet, precondition, h, bind, Except.bind, pure, Except.pure]

/-! ### The selection -/

theorem Valid.addWallet (hp : p.Valid) (h : p.addWallet wallet = .ok q) : q.Valid := by
  obtain ⟨hnot, rfl⟩ := addWallet_ok h
  refine ⟨?_, ?_, ?_⟩
  · exact List.nodup_append.mpr ⟨hp.distinct, List.pairwise_singleton _ wallet, fun a ha b hb heq =>
      hnot (by rwa [← List.mem_singleton.mp hb, ← heq])⟩
  · by_cases hempty : p.wallets = []
    · simp [hempty]
    · simp [hempty, hp.selects]
  · intro w hw
    by_cases hempty : p.wallets = []
    · simp_all
    · exact List.mem_append_left _ (hp.selected w (by simpa [hempty] using hw))

theorem Valid.selectWallet (hp : p.Valid) (h : p.selectWallet wallet = .ok q) : q.Valid := by
  obtain ⟨hmem, rfl⟩ := selectWallet_ok h
  refine ⟨hp.distinct, ?_, ?_⟩
  · simpa using List.ne_nil_of_mem hmem
  · simpa using hmem

theorem erase_eq_nil (hmem : wallet ∈ p.wallets) :
    p.wallets.erase wallet = [] ↔ p.wallets = [wallet] := by
  rw [List.erase_eq_nil_iff]
  constructor
  · rintro (h | h)
    · rw [h] at hmem
      cases hmem
    · exact h
  · exact .inr

/-- Removing a wallet leaves a sensible selection exactly if it is not the selected one, or the
last. -/
theorem Valid.removeWallet (hp : p.Valid) (h : p.removeWallet wallet = .ok q) :
    q.Valid ↔ (p.selectedWallet = some wallet → p.wallets = [wallet]) := by
  obtain ⟨hmem, rfl⟩ := removeWallet_ok h
  rw [← erase_eq_nil hmem]
  have hnotMem : wallet ∉ p.wallets.erase wallet := hp.distinct.not_mem_erase
  constructor
  · intro hq hselected
    by_contra hne
    -- the removed wallet is still selected
    exact hnotMem (hq.selected wallet (by simp [hne, hselected]))
  · intro hkeeps
    refine ⟨hp.distinct.erase wallet, ?_, ?_⟩
    · have hne := List.ne_nil_of_mem hmem
      by_cases hlast : p.wallets.erase wallet = []
      · simp [hlast]
      · simpa [hlast, hp.selects] using hne
    · intro w hw
      by_cases hlast : p.wallets.erase wallet = []
      · simp [hlast] at hw
      · have hw : p.selectedWallet = some w := by simpa [hlast] using hw
        have hother : w ≠ wallet := fun heq => hlast (hkeeps (heq ▸ hw))
        exact (List.mem_erase_of_ne hother).mpr (hp.selected w hw)

/-- A call keeps a sensible selection exactly if it does not remove it from under the user. -/
theorem Valid.step (hp : p.Valid) {c : Call} (h : p.step c = .ok q) :
    q.Valid ↔ KeepsSelection p c := by
  cases c with
  | addWallet wallet => exact iff_of_true (hp.addWallet h) trivial
  | removeWallet wallet => exact hp.removeWallet h
  | selectWallet wallet => exact iff_of_true (hp.selectWallet h) trivial

theorem valid_new (id : PortfolioID) : ({ id } : Portfolio).Valid :=
  ⟨List.nodup_nil, by simp, by simp⟩

theorem id_step {c : Call} (h : p.step c = .ok q) : q.id = p.id := by
  cases c with
  | addWallet wallet => rw [(addWallet_ok h).2]
  | removeWallet wallet => rw [(removeWallet_ok h).2]
  | selectWallet wallet => rw [(selectWallet_ok h).2]

/-! ### Reading -/

/-- Adding new wallets one by one. The first one of all is selected. -/
theorem addWallets_eq {wallets : List WalletID} (h : (p.wallets ++ wallets).Nodup) :
    p.addWallets wallets = .ok { p with
      wallets := p.wallets ++ wallets
      selectedWallet := if p.wallets = [] then wallets.head?.or p.selectedWallet
        else p.selectedWallet } := by
  induction wallets generalizing p with
  | nil => by_cases hempty : p.wallets = [] <;> simp [addWallets]
  | cons wallet wallets ih =>
      have hnot : wallet ∉ p.wallets := fun hmem =>
        (List.nodup_append.mp h).2.2 wallet hmem wallet List.mem_cons_self rfl
      rw [addWallets, addWallet_eq hnot]
      simp only [bind, Except.bind]
      rw [ih (by simpa using h)]
      by_cases hempty : p.wallets = [] <;> simp [hempty]

/-- A portfolio is made again from its wallets and its selection. -/
theorem Valid.new_eq (hp : p.Valid) : Portfolio.new p.id p.wallets p.selectedWallet = .ok p := by
  rw [Portfolio.new, addWallets_eq (by simpa using hp.distinct)]
  simp only [bind, Except.bind]
  cases hselected : p.selectedWallet with
  | none =>
      have hempty := hp.selects.mp hselected
      cases p
      simp_all [pure, Except.pure]
  | some wallet =>
      simp only
      rw [selectWallet_eq (by simpa using hp.selected wallet hselected)]
      cases p
      simp_all

end Portfolio

namespace DBSinglePortfolioRepository

open Portfolio

variable {p : Portfolio}

/-- The texts of the wallets are told apart if there are any. -/
theorem ofSerialized_serialized {wallets : List WalletID} (hcomma : ∀ w ∈ wallets, ',' ∉ w) :
    WalletIDList.ofSerialized (WalletIDList.serialized wallets) = wallets ↔ wallets ≠ [] := by
  unfold WalletIDList.ofSerialized WalletIDList.serialized WalletIDList.separator
  constructor
  · rintro h rfl
    exact Separated.components_ne_nil _ _ h
  · intro hne
    exact (Separated.components_intercalate (List.cons_ne_nil _ _)).mpr
      (Separated.separable_of_not_mem hne hcomma)

theorem find_save (table : List Row) (p : Portfolio) :
    find (save table p) p.id = object (some (insertionBindings p)) := by
  have hrow : (save table p).find? (·.id = p.id) = some (insertionBindings p) :=
    Rows.find?_replaced Row.id table (show (insertionBindings p).id = p.id from rfl)
  rw [find, hrow]

/-- A portfolio is read back exactly if it has a wallet. -/
theorem object_insertionBindings (hp : p.Valid) (hcomma : ∀ w ∈ p.wallets, ',' ∉ w) :
    object (some (insertionBindings p)) = .ok (some p) ↔ p.wallets ≠ [] := by
  constructor
  · intro h hempty
    -- the text of no wallets is read as the text of one
    have hread : object (some (insertionBindings p)) =
        .ok (some { id := p.id, selectedWallet := some [], wallets := [[]] }) := by
      unfold insertionBindings
      rw [hempty, hp.selects.mpr hempty]
      rfl
    rw [hread] at h
    have hwallets := congrArg wallets (Option.some.inj (Except.ok.inj h))
    rw [hempty] at hwallets
    cases hwallets
  · intro hne
    simp only [object, objectFromResultSet, insertionBindings,
      (ofSerialized_serialized hcomma).mpr hne, hp.new_eq]
    rfl

/-- Where no call takes the selected wallet away from others, the selection is one of the wallets
in every portfolio a run reaches, and only such a call can change that. The database gives
the portfolio back, unless it has no wallet. -/
theorem portfolio_reachable {id : PortfolioID} {calls : List Call}
    (hall : Transition.Allowed step KeepsSelection { id } calls)
    (hrun : Transition.run step { id } calls = .ok p) :
    p.Valid ∧ (∀ c q, p.step c = .ok q → (q.Valid ↔ KeepsSelection p c)) ∧
      ((∀ w ∈ p.wallets, w ≠ [] ∧ ',' ∉ w) → ∀ table : List Row,
        (find (save table p) id = .ok (some p) ↔ p.wallets ≠ []) ∧
        ((∀ row ∈ table, row.id = id) →
          (portfolio (save table p) = .ok (some p) ↔ p.wallets ≠ []))) := by
  have hp : p.Valid := Transition.run_invariant_of_allowed
    (fun p c q hc hp h => (hp.step h).mpr hc) (valid_new id) hall hrun
  have hid : p.id = id := Transition.run_frame_of_allowed Portfolio.id
    (fun p c q _ h => id_step h) hall hrun
  refine ⟨hp, fun c q h => hp.step h, fun hids table => ?_⟩
  have hobject := object_insertionBindings hp fun w hw => (hids w hw).2
  refine ⟨?_, fun hsingle => ?_⟩
  · rw [← hid, find_save]
    exact hobject
  · have hempty : table.filter (·.id ≠ p.id) = [] := by
      rw [List.filter_eq_nil_iff]
      intro row hrow
      simp [hsingle row hrow, hid]
    rw [portfolio, save, hempty]
    exact hobject

/-- Two wallets, of which the first one is removed after the second one was selected. -/
theorem portfolio_two_wallets :
    ∃ p, Transition.run step { id := ['p'] }
        [.addWallet ['a'], .addWallet ['b'], .selectWallet ['b'], .removeWallet ['a']] = .ok p ∧
      p.Valid ∧ find (save [] p) ['p'] = .ok (some p) := by
  have hrun : Transition.run step { id := ['p'] }
      [.addWallet ['a'], .addWallet ['b'], .selectWallet ['b'], .removeWallet ['a']] =
        .ok { id := ['p'], selectedWallet := some ['b'], wallets := [['b']] } := rfl
  obtain ⟨hvalid, -, hstored⟩ := portfolio_reachable (by decide) hrun
  exact ⟨_, hrun, hvalid, (hstored (by decide) []).1.mpr (by decide)⟩

/-- The selected one of two wallets is removed and stays selected; the database cannot give that
portfolio back. Of the portfolio without wallets it makes one with a wallet. -/
theorem portfolio_dangling :
    (∃ p, Transition.run step { id := ['p'] }
        [.addWallet ['a'], .addWallet ['b'], .removeWallet ['a']] = .ok p ∧
      p.selectedWallet = some ['a'] ∧ p.wallets = [['b']] ∧
      find (save [] p) ['p'] = .error (.preconditionFailure "walletNotFound")) ∧
    find (save [] { id := ['p'] }) ['p'] =
      .ok (some { id := ['p'], selectedWallet := some [], wallets := [[]] }) :=
  ⟨⟨_, rfl, rfl, rfl, rfl⟩, rfl⟩

end DBSinglePortfolioRepository

end MultisigWallet
