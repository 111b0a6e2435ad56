import MultisigWallet.DBTransactionRepository
import MultisigWallet.Reference
import MultisigWallet.TransactionSound

/-!
# MultisigWallet.DBTransactionRepositorySound

What a transaction must be like to come back from the database. The statuses promise the data
their transitions check (`Transaction.DataInvariant`), so reading never gets stuck on those.
What is left are the texts, which must be readable again, and the two dates a new transaction
has of its own: a date that was missing when it was saved is there afterwards.
-/

namespace MultisigWallet

/-! ### Numbers -/

theorem digitsOfString_toDigits (n : Nat) : digitsOfString (Nat.toDigits 10 n) = some n := by
  have hall : (Nat.toDigits 10 n).all Char.isDigit = true :=
    List.all_eq_true.mpr fun c hc => Nat.isDigit_of_mem_toDigits (by norm_num) (by norm_num) hc
  rw [digitsOfString, if_pos ⟨Nat.toDigits_ne_nil, hall⟩, Nat.ofDigitChars_ten_toDigits]

theorem mem_stringOfInt {n : Int} {c : Char} (h : c ∈ stringOfInt n) :
    c = '-' ∨ c.isDigit = true := by
  unfold stringOfInt at h
  split at h
  · exact (List.mem_cons.mp h).imp_right
      fun h => Nat.isDigit_of_mem_toDigits (by norm_num) (by norm_num) h
  · exact .inr (Nat.isDigit_of_mem_toDigits (by norm_num) (by norm_num) h)

theorem not_mem_stringOfInt (n : Int) {c : Char} (hminus : c ≠ '-') (hdigit : c.isDigit = false) :
    c ∉ stringOfInt n := by
  intro h
  rcases mem_stringOfInt h with h | h
  · exact hminus h
  · exact absurd h (by simp [hdigit])

/-- Printing and reading an `Int`, within its range. -/
theorem intOfString_stringOfInt (n : Int) :
    intOfString (stringOfInt n) = if isInt n then some n else none := by
  have hvalue : intOfString (stringOfInt n) = (some n).filter isInt := by
    unfold stringOfInt
    split
    · have hn : -((n.natAbs : Int)) = n := by omega
      simp only [intOfString, digitsOfString_toDigits, Option.map_some, hn, bind,
        Option.bind_some, pure]
    · have hn : ((n.natAbs : Int)) = n := by omega
      unfold intOfString
      split
      · rename_i digits heq
        have hmem : '-' ∈ Nat.toDigits 10 n.natAbs := heq ▸ List.mem_cons_self
        exact absurd (Nat.isDigit_of_mem_toDigits (by norm_num) (by norm_num) hmem) (by decide)
      · rename_i digits heq
        have hmem : '+' ∈ Nat.toDigits 10 n.natAbs := heq ▸ List.mem_cons_self
        exact absurd (Nat.isDigit_of_mem_toDigits (by norm_num) (by norm_num) hmem) (by decide)
      · simp only [digitsOfString_toDigits, Option.map_some, hn, bind,
          Option.bind_some, pure]
  rw [hvalue]
  simp [Option.filter]

/-! ### Addresses -/

/-- `Address.init(_:)` accepts the value of the address. -/
def Address.Accepted (lib : ThirdParty) (a : Address) : Prop :=
  hexMark <+: a.value ∧ ((lib.dataEthHex a.value).length = 20 ∨ lib.dataEthHex a.value = [])

theorem Address.ofString_value (lib : ThirdParty) (a b : Address) :
    Address.ofString lib a.value = .ok b ↔ a.Accepted lib ∧ b = a := by
  constructor
  · intro h
    obtain ⟨⟨⟩, hmark, h⟩ := bind_ok.mp h
    obtain ⟨⟨⟩, hdata, h⟩ := bind_ok.mp h
    obtain rfl := Except.ok.inj h
    exact ⟨⟨by simpa using precondition_ok.mp hmark, by simpa using precondition_ok.mp hdata⟩, rfl⟩
  · rintro ⟨⟨hmark, hdata⟩, rfl⟩
    exact bind_ok.mpr ⟨(), precondition_ok.mpr (by simpa using hmark),
      bind_ok.mpr ⟨(), precondition_ok.mpr (by simpa using hdata), rfl⟩⟩

/-! ### Tokens and amounts -/

variable {lib : ThirdParty}

namespace Token

/-- The five components are told apart when the token is read. -/
structure Storable (lib : ThirdParty) (token : Token) : Prop where
  code : Separated.Clear separator token.code
  name : Separated.Clear separator token.name
  address : Separated.Clear separator token.address.value
  logoUrl : ¬ separator <:+: token.logoUrl
  /-- As its type says. -/
  decimals : isInt token.decimals = true
  accepted : token.address.Accepted lib

theorem separator_ne_nil : separator ≠ [] := List.cons_ne_nil _ _

theorem clear_decimals (n : Int) : Separated.Clear separator (stringOfInt n) :=
  Separated.clear_of_not_mem (not_mem_stringOfInt n (by decide) (by decide))

theorem separable_iff {token : Token} :
    Separated.Separable separator [token.code, token.name, stringOfInt token.decimals,
      token.address.value, token.logoUrl] ↔
      Separated.Clear separator token.code ∧ Separated.Clear separator token.name ∧
        Separated.Clear separator token.address.value ∧ ¬ separator <:+: token.logoUrl := by
  simp only [Separated.Separable, clear_decimals, true_and]

/-- A token comes back exactly if it is storable. -/
theorem ofSerialized_serialized {token : Token} :
    ofSerialized lib token.serialized = .ok (some token) ↔ token.Storable lib := by
  constructor
  · intro h
    unfold ofSerialized at h
    split at h
    · rename_i code name decimals address logoUrl hcomponents
      -- joining what was read gives the text back, so the components were those joined
      have hjoined := Separated.intercalate_components separator_ne_nil token.serialized
      split at h
      · exact nomatch Except.ok.inj h
      · rename_i n hn
        obtain ⟨a, ha, h⟩ := bind_ok.mp h
        obtain rfl := Option.some.inj (Except.ok.inj h)
        obtain rfl := Address.ofString_ok ha
        rw [hcomponents] at hjoined
        have hdecimals : decimals = stringOfInt n := by
          simpa [serialized, List.intercalate] using hjoined
        rw [hdecimals] at hcomponents hn
        have hseparable := (Separated.components_intercalate separator_ne_nil).mp hcomponents
        obtain ⟨hcode, hname, haddress, hlogoUrl⟩ := separable_iff.mp hseparable
        have hint : isInt n = true := by
          rw [intOfString_stringOfInt] at hn
          exact (Option.ite_none_right_eq_some.mp hn).1
        exact ⟨hcode, hname, haddress, hlogoUrl, hint, ((Address.ofString_value lib _ _).mp ha).1⟩
    · exact nomatch Except.ok.inj h
  · intro h
    have hcomponents := (Separated.components_intercalate separator_ne_nil).mpr
      (separable_iff.mpr ⟨h.code, h.name, h.address, h.logoUrl⟩)
    unfold ofSerialized serialized
    rw [hcomponents]
    simp only [intOfString_stringOfInt, h.decimals, if_true]
    exact bind_ok.mpr ⟨token.address, (Address.ofString_value lib _ _).mpr ⟨h.accepted, rfl⟩, rfl⟩

end Token

namespace TokenAmount

/-- The token is storable, and does not look like two. -/
structure Storable (lib : ThirdParty) (amount : TokenAmount) : Prop where
  separator : ¬ separator <:+: amount.token.serialized
  token : amount.token.Storable lib

theorem separator_ne_nil : separator ≠ [] := List.cons_ne_nil _ _

theorem components_serialized (amount : TokenAmount) :
    Separated.components separator amount.serialized =
      stringOfInt amount.amount :: Separated.components separator amount.token.serialized := by
  have hclear : Separated.Clear separator (stringOfInt amount.amount) :=
    Separated.clear_of_not_mem (not_mem_stringOfInt _ (by decide) (by decide))
  rw [serialized, Separated.intercalate_cons _ _ (List.cons_ne_nil _ _),
    Separated.intercalate_singleton, Separated.components_append separator_ne_nil hclear]

/-- An amount comes back exactly if it is storable. -/
theorem ofSerialized_serialized {amount : TokenAmount} :
    ofSerialized lib amount.serialized = .ok (some amount) ↔ amount.Storable lib := by
  unfold ofSerialized
  rw [components_serialized]
  simp only [bigInt_stringOfInt]
  cases hcomponents : Separated.components separator amount.token.serialized with
  | nil => exact absurd hcomponents (Separated.components_ne_nil _ _)
  | cons token rest =>
      cases rest with
      | nil =>
          obtain rfl := Separated.eq_of_components hcomponents
          have hseparator := (Separated.components_eq_singleton separator_ne_nil).mp hcomponents
          constructor
          · intro h
            obtain ⟨token?, htoken, h⟩ := bind_ok.mp h
            cases token? with
            | none => exact nomatch Except.ok.inj h
            | some token =>
                obtain rfl : token = amount.token :=
                  congrArg TokenAmount.token (Option.some.inj (Except.ok.inj h))
                exact ⟨hseparator, Token.ofSerialized_serialized.mp htoken⟩
          · intro h
            exact bind_ok.mpr ⟨_, Token.ofSerialized_serialized.mpr h.token, rfl⟩
      | cons token' rest =>
          constructor
          · intro h
            obtain ⟨token?, -, h⟩ := bind_ok.mp h
            cases token? with
            | none => exact nomatch Except.ok.inj h
            | some token => exact nomatch Except.ok.inj h
          · intro h
            have hsingle := (Separated.components_eq_singleton separator_ne_nil).mpr h.separator
            exact nomatch hcomponents.symm.trans hsingle

end TokenAmount

/-! ### Signatures -/

/-- What is read text by text is read as a list. -/
theorem mapM_map_ok {α β γ : Type} {f : α → β} {read : β → Except Trap (Option γ)} {g : α → γ}
    {l : List α} (h : ∀ a ∈ l, read (f a) = .ok (some (g a))) :
    (l.map f).mapM read = .ok (l.map fun a => some (g a)) := by
  rw [List.mapM_map]
  exact mapM_eq_ok h

namespace DBTransactionRepository

theorem not_mem_hex {d : Data} {c : Char} (h : c ∉ Bytes.lowerHex) : c ∉ Bytes.toHex d :=
  fun hc => h (Bytes.mem_lowerHex_of_mem_toHex c hc)

theorem not_mem_address {a : Address} {c : Char} (ha : a.WellFormed) (hmark : c ∉ hexMark)
    (h : c ∉ Bytes.hexDigits) : c ∉ a.value := by
  obtain ⟨s, hs, -, hdigits⟩ := ha
  rw [hs, List.mem_append, not_or]
  exact ⟨hmark, fun hc => h (hdigits c hc)⟩

theorem dataEthHex_toHex (d : Data) : lib.dataEthHex (Bytes.toHex d) = d := by
  have hdigits : ∀ c ∈ Bytes.toHex d, c ∈ Bytes.hexDigits := fun c hc =>
    Bytes.lowerHex_subset_hexDigits c (Bytes.mem_lowerHex_of_mem_toHex c hc)
  have heven : ¬ (Bytes.toHex d).length % 2 = 1 := by
    rw [Bytes.length_toHex]
    omega
  rw [lib.dataEthHex_digits hdigits, if_neg heven, List.nil_append, Bytes.ofHex_toHex]

theorem deserializedSignature_ok {s : Signature} (h : s.address.WellFormed) :
    deserializedSignature lib (s.address.value ++ ',' :: Bytes.toHex s.data) = .ok (some s) := by
  have hjoined : s.address.value ++ ',' :: Bytes.toHex s.data =
      List.intercalate [','] [s.address.value, Bytes.toHex s.data] := by
    simp [List.intercalate]
  have hseparable : Separated.Separable [','] [s.address.value, Bytes.toHex s.data] :=
    ⟨Separated.clear_of_not_mem (not_mem_address h (by decide) (by decide)),
      Separated.not_infix_of_not_mem (not_mem_hex (by decide))⟩
  have hcomponents := (Separated.components_intercalate (List.cons_ne_nil _ _)).mpr hseparable
  unfold deserializedSignature
  rw [hjoined, hcomponents]
  simp only [dataEthHex_toHex]
  exact bind_ok.mpr ⟨s.address, h.ofString_eq lib, rfl⟩

/-- Signatures with well-formed addresses come back. -/
theorem deserializedSignatures_ok {signatures : List Signature}
    (h : ∀ s ∈ signatures, s.address.WellFormed) :
    deserializedSignatures lib (serializedSignatures signatures) = .ok signatures := by
  cases signatures with
  | nil => rfl
  | cons s signatures =>
      have hparts : ∀ part ∈ (s :: signatures).map
          (fun s => s.address.value ++ ',' :: Bytes.toHex s.data), ';' ∉ part := by
        intro part hpart
        obtain ⟨t, ht, rfl⟩ := List.mem_map.mp hpart
        rw [List.mem_append, List.mem_cons]
        rintro (hmem | hmem | hmem)
        · exact not_mem_address (h t ht) (by decide) (by decide) hmem
        · exact absurd hmem (by decide)
        · exact not_mem_hex (by decide) hmem
      have hseparable : Separated.Separable [';'] ((s :: signatures).map
          fun s => s.address.value ++ ',' :: Bytes.toHex s.data) :=
        Separated.separable_of_not_mem (List.cons_ne_nil _ _) hparts
      have hcomponents := (Separated.components_intercalate (List.cons_ne_nil _ _)).mpr hseparable
      unfold deserializedSignatures serializedSignatures
      rw [hcomponents]
      refine bind_ok.mpr ⟨_, mapM_map_ok fun s hs => deserializedSignature_ok (h s hs), ?_⟩
      simp [pure, Except.pure, List.filterMap_map]

/-! ### Filling the draft -/

/-- What the text columns of a row say. -/
structure Contents where
  sender : Option Address
  recipient : Option Address
  amount : Option TokenAmount
  fee : Option TokenAmount
  signatures : List Signature
  feeEstimate : Option TransactionFeeEstimate

/-- What they should say. -/
def Contents.of (t : Transaction) : Contents :=
  ⟨t.sender, t.recipient, t.amount, t.fee, t.signatures, t.feeEstimate⟩

/-- The text columns of `row` can be read, and say `c`. -/
structure Row.Reads (lib : ThirdParty) (row : Row) (c : Contents) : Prop where
  sender : read (Address.ofString lib) row.sender = .ok c.sender
  recipient : read (Address.ofString lib) row.recipient = .ok c.recipient
  amount : ∃ v, read (TokenAmount.ofSerialized lib) row.amount = .ok v ∧ v.join = c.amount
  fee : ∃ v, read (TokenAmount.ofSerialized lib) row.fee = .ok v ∧ v.join = c.fee
  signatures : ∃ v, read (deserializedSignatures lib) row.signatures = .ok v ∧
    v.getD [] = c.signatures
  feeEstimate : feeEstimate lib row = .ok c.feeEstimate

/-- A draft with the contents of a row. -/
def Contents.fill (c : Contents) (row : Row) (tx : Transaction) : Transaction :=
  { tx with
    sender := c.sender
    recipient := c.recipient
    amount := c.amount
    fee := c.fee
    signatures := c.signatures
    transactionHash := row.transactionHash.map .mk
    feeEstimate := c.feeEstimate
    data := row.data
    operation := row.operation.bind WalletOperation.ofRawValue
    nonce := row.nonce
    hash := row.hash }

/-- Reading that returns has read every text column. -/
theorem update_reads {row : Row} {tx tx' : Transaction} {clock : Clock}
    (h : update lib row tx clock = .ok tx') : ∃ c, row.Reads lib c := by
  obtain ⟨sender, hsender, h⟩ := bind_ok.mp h
  obtain ⟨tx₁, -, h⟩ := bind_ok.mp h
  obtain ⟨recipient, hrecipient, h⟩ := bind_ok.mp h
  obtain ⟨tx₂, -, h⟩ := bind_ok.mp h
  obtain ⟨amount, hamount, h⟩ := bind_ok.mp h
  obtain ⟨tx₃, -, h⟩ := bind_ok.mp h
  obtain ⟨fee, hfee, h⟩ := bind_ok.mp h
  obtain ⟨tx₄, -, h⟩ := bind_ok.mp h
  obtain ⟨signatures, hsignatures, h⟩ := bind_ok.mp h
  obtain ⟨tx₅, -, h⟩ := bind_ok.mp h
  obtain ⟨tx₆, -, h⟩ := bind_ok.mp h
  obtain ⟨estimate, hestimate, -⟩ := bind_ok.mp h
  exact ⟨⟨sender, recipient, amount.join, fee.join, signatures.getD [], estimate⟩,
    hsender, hrecipient, ⟨amount, hamount, rfl⟩, ⟨fee, hfee, rfl⟩,
    ⟨signatures, hsignatures, rfl⟩, hestimate⟩

/-- An overload of `change(...)` on a draft whose field is empty: afterwards the field has
the value, present or not. -/
theorem changeIfPresent_empty {α : Type} {tx : Transaction} {u : Date} {value : Option α}
    {edit : Option α → Transaction.Edit} (now : Date) (hstatus : tx.status = .draft)
    (hupdated : tx.updatedDate = some u) (hempty : tx.assign (edit none) = tx) :
    ∃ u, changeIfPresent tx (value.map fun v => edit (some v)) now =
      .ok ((tx.assign (edit value)).timestampUpdated u) := by
  cases value with
  | none =>
      refine ⟨u, congrArg Except.ok ?_⟩
      rw [hempty, Transaction.timestampUpdated, ← hupdated]
  | some v => exact ⟨now, Transaction.change_draft hstatus (edit (some v)) now⟩

theorem setHashIfPresent_empty {tx : Transaction} {u : Date} {hash : Option Str} (now : Date)
    (hstatus : tx.status = .draft) (hupdated : tx.updatedDate = some u)
    (hempty : tx.transactionHash = none) :
    ∃ u, setHashIfPresent tx hash now =
      .ok ({ tx with transactionHash := hash.map .mk }.timestampUpdated u) := by
  cases hash with
  | none =>
      refine ⟨u, congrArg Except.ok ?_⟩
      rw [Option.map_none, Transaction.timestampUpdated, ← hempty, ← hupdated]
  | some hash => exact ⟨now, Transaction.setHash_ok.mpr ⟨.inl hstatus, rfl⟩⟩

/-- Signatures that are all different are all added. -/
theorem addSignatures_draft {signatures : List Signature} {tx : Transaction} {u : Date}
    (clock : Clock) (hstatus : tx.status = .draft) (hupdated : tx.updatedDate = some u)
    (hnodup : (tx.signatures ++ signatures).Nodup) :
    ∃ u, addSignatures tx clock signatures =
      .ok ({ tx with signatures := tx.signatures ++ signatures }.timestampUpdated u) := by
  induction signatures generalizing tx u clock with
  | nil =>
      refine ⟨u, congrArg Except.ok ?_⟩
      rw [List.append_nil, Transaction.timestampUpdated, ← hupdated]
  | cons s signatures ih =>
      have hs : s ∉ tx.signatures := fun hmem =>
        (List.nodup_append.mp hnodup).2.2 s hmem s List.mem_cons_self rfl
      rw [List.append_cons] at hnodup ⊢
      obtain ⟨v, hv⟩ := @ih ({ tx with signatures := tx.signatures ++ [s] }.timestampUpdated
        (clock 0)) _ (fun n => clock (n + 1)) hstatus rfl hnodup
      refine ⟨v, bind_ok.mpr ⟨_, Transaction.addSignature_ok.mpr ⟨.inl hstatus, ?_⟩, hv⟩⟩
      rw [if_neg hs]

theorem ok_bind {α β : Type} (a : α) (k : α → Except Trap β) : (Except.ok a >>= k) = k a := rfl

theorem exists_bind_ok {α β : Type} {f : Except Trap α} {k : α → Except Trap β} {g : Date → α}
    {r : Date → β} (hf : ∃ u, f = .ok (g u)) (hk : ∀ u, ∃ v, k (g u) = .ok (r v)) :
    ∃ v, (f >>= k) = .ok (r v) := by
  obtain ⟨u, rfl⟩ := hf
  exact hk u

/-- A new transaction is filled with what the row says. -/
theorem update_new {row : Row} {c : Contents} (hreads : row.Reads lib c)
    (hnodup : c.signatures.Nodup) (id : TransactionID) (type : TransactionType)
    (walletID : WalletID) (accountID : AccountID) (created updated : Date) (clock : Clock) :
    ∃ u, update lib row (Transaction.new id type walletID accountID created updated) clock =
      .ok ((c.fill row (Transaction.new id type walletID accountID created updated))
        |>.timestampUpdated u) := by
  obtain ⟨sender, recipient, _, _, _, estimate⟩ := c
  obtain ⟨hsender, hrecipient, ⟨amount, hamount, rfl⟩, ⟨fee, hfee, rfl⟩,
    ⟨signatures, hsignatures, rfl⟩, hestimate⟩ := hreads
  simp only [update, updateRemaining, hsender, hrecipient, hamount, hfee, hsignatures, hestimate,
    ok_bind]
  refine exists_bind_ok (changeIfPresent_empty (clock 0) rfl rfl rfl) fun u => ?_
  refine exists_bind_ok (changeIfPresent_empty (clock 1) rfl rfl rfl) fun u => ?_
  refine exists_bind_ok (changeIfPresent_empty (clock 2) rfl rfl rfl) fun u => ?_
  refine exists_bind_ok (changeIfPresent_empty (clock 3) rfl rfl rfl) fun u => ?_
  refine exists_bind_ok (addSignatures_draft _ rfl rfl hnodup) fun u => ?_
  refine exists_bind_ok (setHashIfPresent_empty (clock 4) rfl rfl rfl) fun u => ?_
  refine exists_bind_ok (changeIfPresent_empty (clock 5) rfl rfl rfl) fun u => ?_
  refine exists_bind_ok (changeIfPresent_empty (clock 6) rfl rfl rfl) fun u => ?_
  refine exists_bind_ok (changeIfPresent_empty (clock 7) rfl rfl rfl) fun u => ?_
  refine exists_bind_ok (changeIfPresent_empty (clock 8) rfl rfl rfl) fun u => ?_
  exact changeIfPresent_empty (clock 9) rfl rfl rfl

/-! ### The way to the stored status -/

theorem succeed_pending {tx : Transaction} (h : tx.status = .pending) (d₁ d₂ : Date) :
    tx.succeed d₁ d₂ =
      .ok (((tx.changeStatus .success).timestampProcessed d₁).timestampUpdated d₂) := by
  unfold Transaction.succeed
  rw [h]

theorem fail_pending {tx : Transaction} (h : tx.status = .pending) (d₁ d₂ : Date) :
    tx.fail d₁ d₂ =
      .ok (((tx.changeStatus .failed).timestampProcessed d₁).timestampUpdated d₂) := by
  unfold Transaction.fail
  rw [h]

theorem discard_draft {tx : Transaction} (h : tx.status = .draft) (now : Date) :
    tx.discard now = .ok ((tx.timestampUpdated now).changeStatus .discarded) := by
  unfold Transaction.discard
  rw [h]

/-- `tx'` is `tx` in the status `target`. The dates that the transitions set are the update's
and those the status promises. -/
structure Replayed (target : TransactionStatus) (tx tx' : Transaction) : Prop where
  frame : ∃ u r s p, tx' = { tx with
    status := target
    updatedDate := some u
    rejectedDate := r
    submittedDate := s
    processedDate := p }
  rejected : target ≠ .rejected → tx'.rejectedDate = tx.rejectedDate
  submitted : ¬ Transaction.Submitted target → tx'.submittedDate = tx.submittedDate
  processed : ¬ Transaction.Processed target → tx'.processedDate = tx.processedDate

/-- The transitions from a draft end in the stored status. -/
theorem replay_replayed {target : TransactionStatus} {tx tx' : Transaction} {u : Date}
    {clock : Clock} (hstatus : tx.status = .draft) (hupdated : tx.updatedDate = some u)
    (h : replay target tx clock = .ok tx') : Replayed target tx tx' := by
  cases target with
  | draft =>
      obtain rfl := Except.ok.inj h
      exact ⟨⟨u, _, _, _, by rw [← hstatus, ← hupdated]⟩, fun _ => rfl, fun _ => rfl, fun _ => rfl⟩
  | signing =>
      obtain ⟨-, -, -, -, rfl⟩ := (Transaction.proceed_draft_ok hstatus).mp h
      exact ⟨⟨_, _, _, _, rfl⟩, fun _ => rfl, fun _ => rfl, fun _ => rfl⟩
  | pending =>
      obtain ⟨tx₁, h₁, h⟩ := bind_ok.mp h
      obtain ⟨-, -, -, -, rfl⟩ := (Transaction.proceed_draft_ok hstatus).mp h₁
      obtain ⟨-, rfl⟩ := (Transaction.proceed_signing_ok rfl).mp h
      exact ⟨⟨_, _, _, _, rfl⟩, fun _ => rfl, fun hs => absurd (.inl rfl) hs, fun _ => rfl⟩
  | rejected =>
      obtain ⟨tx₁, h₁, h⟩ := bind_ok.mp h
      obtain ⟨-, -, -, -, rfl⟩ := (Transaction.proceed_draft_ok hstatus).mp h₁
      obtain rfl := Except.ok.inj ((Transaction.reject_signing rfl _ _).symm.trans h)
      exact ⟨⟨_, _, _, _, rfl⟩, fun hr => absurd rfl hr, fun _ => rfl, fun _ => rfl⟩
  | failed =>
      obtain ⟨tx₁, h₁, h⟩ := bind_ok.mp h
      obtain ⟨-, -, -, -, rfl⟩ := (Transaction.proceed_draft_ok hstatus).mp h₁
      obtain ⟨tx₂, h₂, h⟩ := bind_ok.mp h
      obtain ⟨-, rfl⟩ := (Transaction.proceed_signing_ok rfl).mp h₂
      obtain rfl := Except.ok.inj ((fail_pending rfl _ _).symm.trans h)
      refine ⟨⟨clock 5, tx.rejectedDate, some (clock 2), some (clock 4), ?_⟩, fun _ => ?_,
        fun hs => absurd (.inr (.inr rfl)) hs,
        fun hp => absurd (.inr rfl) hp⟩
      all_goals simp only [Transaction.timestampUpdated, Transaction.timestampProcessed,
        Transaction.timestampSubmitted, Transaction.changeStatus]
  | success =>
      obtain ⟨tx₁, h₁, h⟩ := bind_ok.mp h
      obtain ⟨-, -, -, -, rfl⟩ := (Transaction.proceed_draft_ok hstatus).mp h₁
      obtain ⟨tx₂, h₂, h⟩ := bind_ok.mp h
      obtain ⟨-, rfl⟩ := (Transaction.proceed_signing_ok rfl).mp h₂
      obtain rfl := Except.ok.inj ((succeed_pending rfl _ _).symm.trans h)
      refine ⟨⟨clock 5, tx.rejectedDate, some (clock 2), some (clock 4), ?_⟩, fun _ => ?_,
        fun hs => absurd (.inr (.inl rfl)) hs,
        fun hp => absurd (.inl rfl) hp⟩
      all_goals simp only [Transaction.timestampUpdated, Transaction.timestampProcessed,
        Transaction.timestampSubmitted, Transaction.changeStatus]
  | discarded =>
      obtain rfl := Except.ok.inj ((discard_draft hstatus _).symm.trans h)
      exact ⟨⟨_, _, _, _, rfl⟩, fun _ => rfl, fun _ => rfl, fun _ => rfl⟩

/-- With the data its status promises, a draft gets to the status. -/
theorem replay_ok {t tx : Transaction} (clock : Clock) (hi : t.DataInvariant)
    (hstatus : tx.status = .draft) (hsender : tx.sender = t.sender)
    (hrecipient : tx.recipient = t.recipient) (hamount : tx.amount = t.amount)
    (hfee : tx.fee = t.fee) (hhash : tx.transactionHash = t.transactionHash) :
    ∃ tx', replay t.status tx clock = .ok tx' := by
  have hproceed : Transaction.Frozen t.status →
      tx.proceed (clock 0) (clock 1) = .ok ((tx.changeStatus .signing).timestampUpdated (clock 0)) := by
    intro hfrozen
    have hparameters := hi.parameters hfrozen
    simp only [ne_eq, ← Option.isSome_iff_ne_none] at hparameters
    rw [← hsender, ← hrecipient, ← hamount, ← hfee] at hparameters
    obtain ⟨h₁, h₂, h₃, h₄⟩ := hparameters
    exact (Transaction.proceed_draft_ok hstatus).mpr ⟨h₁, h₂, h₃, h₄, rfl⟩
  have hsubmit : Transaction.Submitted t.status →
      ((tx.changeStatus .signing).timestampUpdated (clock 0)).proceed (clock 2) (clock 3) =
        .ok (((((tx.changeStatus .signing).timestampUpdated (clock 0)).changeStatus .pending)
          |>.timestampSubmitted (clock 2)).timestampUpdated (clock 3)) := by
    intro hsubmitted
    refine (Transaction.proceed_signing_ok rfl).mpr ⟨?_, rfl⟩
    show tx.transactionHash.isSome = true
    rw [hhash, Option.isSome_iff_ne_none]
    exact (hi.submission hsubmitted).1
  unfold replay
  cases htarget : t.status with
  | draft => exact ⟨tx, rfl⟩
  | signing => exact ⟨_, hproceed (by simp [Transaction.Frozen, htarget])⟩
  | pending =>
      exact ⟨_, bind_ok.mpr ⟨_, hproceed (by simp [Transaction.Frozen, htarget]),
        hsubmit (by simp [Transaction.Submitted, htarget])⟩⟩
  | rejected =>
      exact ⟨_, bind_ok.mpr ⟨_, hproceed (by simp [Transaction.Frozen, htarget]),
        Transaction.reject_signing rfl _ _⟩⟩
  | failed =>
      exact ⟨_, bind_ok.mpr ⟨_, hproceed (by simp [Transaction.Frozen, htarget]),
        bind_ok.mpr ⟨_, hsubmit (by simp [Transaction.Submitted, htarget]),
          fail_pending rfl _ _⟩⟩⟩
  | success =>
      exact ⟨_, bind_ok.mpr ⟨_, hproceed (by simp [Transaction.Frozen, htarget]),
        bind_ok.mpr ⟨_, hsubmit (by simp [Transaction.Submitted, htarget]),
          succeed_pending rfl _ _⟩⟩⟩
  | discarded => exact ⟨_, discard_draft hstatus (clock 0)⟩

/-- A stored date replaces the one there is. -/
theorem timestamp_eq (tx : Transaction) (stamps : Timestamps) :
    timestamp tx stamps = { tx with
      createdDate := stamps.created <|> tx.createdDate
      updatedDate := stamps.updated <|> tx.updatedDate
      rejectedDate := stamps.rejected <|> tx.rejectedDate
      submittedDate := stamps.submitted <|> tx.submittedDate
      processedDate := stamps.processed <|> tx.processedDate } := by
  obtain ⟨_ | _, _ | _, _ | _, _ | _, _ | _⟩ := stamps <;> rfl

theorem fetchTimestamps_bindings (text : DateText) (t : Transaction) :
    fetchTimestamps text (bindings text t) =
      ⟨t.createdDate, t.updatedDate, t.rejectedDate, t.submittedDate, t.processedDate⟩ := by
  have hdate : ∀ date : Option Date, (date.map text.string).bind text.timeInterval = date := by
    intro date
    cases date with
    | none => rfl
    | some date => exact text.timeInterval_string date
  simp only [fetchTimestamps, bindings, hdate]

/-! ### Reachable transactions -/

theorem step_signatures_nodup {tx tx' : Transaction} {op : Transaction.Op}
    (hi : tx.signatures.Nodup) (h : tx.step op = .ok tx') : tx'.signatures.Nodup := by
  cases Transaction.step_effect h with
  | change edit now hs => cases edit <;> exact hi
  | addSignature s now hs hmem => exact List.nodup_append.mpr ⟨hi, List.nodup_singleton s,
      fun a ha b hb => by rw [List.mem_singleton.mp hb]; exact fun hab => hmem (hab ▸ ha)⟩
  | removeSignature s now hs hmem => exact hi.erase s
  | reset hs => exact List.nodup_nil
  | _ => exact hi

/-! ### What comes back -/

/-- `t'` is `t` in everything but its account. -/
structure ReadsBack (t t' : Transaction) : Prop where
  status : t'.status = t.status
  sender : t'.sender = t.sender
  recipient : t'.recipient = t.recipient
  amount : t'.amount = t.amount
  fee : t'.fee = t.fee
  feeEstimate : t'.feeEstimate = t.feeEstimate
  data : t'.data = t.data
  operation : t'.operation = t.operation
  nonce : t'.nonce = t.nonce
  hash : t'.hash = t.hash
  transactionHash : t'.transactionHash = t.transactionHash
  signatures : t'.signatures = t.signatures
  createdDate : t'.createdDate = t.createdDate
  updatedDate : t'.updatedDate = t.updatedDate
  rejectedDate : t'.rejectedDate = t.rejectedDate
  submittedDate : t'.submittedDate = t.submittedDate
  processedDate : t'.processedDate = t.processedDate

/-- Every text of the transaction can be read again, and it has the two dates that a new
transaction has. -/
structure Storable (lib : ThirdParty) (t : Transaction) : Prop where
  accountID : ((Separated.components [':'] t.accountID.value).filter (· ≠ [])).length = 2
  sender : ∀ a, t.sender = some a → a.Accepted lib
  recipient : ∀ a, t.recipient = some a → a.Accepted lib
  amount : ∀ v, t.amount = some v → v.Storable lib
  fee : ∀ v, t.fee = some v → v.Storable lib
  gasPrice : ∀ e, t.feeEstimate = some e → e.gasPrice.Storable lib
  createdDate : t.createdDate ≠ none
  updatedDate : t.updatedDate ≠ none

theorem accountID_ok {id : AccountID} :
    (∃ id', AccountID.ofString id.value = .ok id') ↔
      ((Separated.components [':'] id.value).filter (· ≠ [])).length = 2 := by
  unfold AccountID.ofString
  constructor
  · rintro ⟨id', h⟩
    split at h
    · rename_i heq
      rw [heq]
      rfl
    · exact nomatch h
  · intro h
    obtain ⟨tokenID, walletID, heq⟩ := List.length_eq_two.mp h
    rw [heq]
    exact ⟨_, rfl⟩

/-- An address column comes back exactly if the address is accepted. -/
theorem read_address {a : Option Address} :
    read (Address.ofString lib) (a.map (·.value)) = .ok a ↔
      ∀ b, a = some b → b.Accepted lib := by
  cases a with
  | none => exact iff_of_true rfl nofun
  | some a =>
      constructor
      · rintro h b ⟨⟩
        obtain ⟨b, hb, -⟩ := bind_ok.mp h
        exact ((Address.ofString_value lib a b).mp hb).1
      · intro h
        exact bind_ok.mpr ⟨a, (Address.ofString_value lib a a).mpr ⟨h a rfl, rfl⟩, rfl⟩

/-- An amount's column comes back exactly if the amount is storable. -/
theorem read_amount {v : Option TokenAmount} :
    (∃ w, read (TokenAmount.ofSerialized lib) (v.map (·.serialized)) = .ok w ∧ w.join = v) ↔
      ∀ amount, v = some amount → amount.Storable lib := by
  cases v with
  | none => exact iff_of_true ⟨none, rfl, rfl⟩ nofun
  | some v =>
      constructor
      · rintro ⟨w, hw, hv⟩ amount ⟨⟩
        obtain ⟨w, hread, h⟩ := bind_ok.mp hw
        obtain rfl := Except.ok.inj h
        obtain rfl : w = some v := hv
        exact TokenAmount.ofSerialized_serialized.mp hread
      · intro h
        exact ⟨_, bind_ok.mpr ⟨_, TokenAmount.ofSerialized_serialized.mpr (h v rfl), rfl⟩, rfl⟩

/-- The four columns of the fee estimate. -/
theorem feeEstimate_bindings {t : Transaction} (text : DateText) :
    feeEstimate lib (bindings text t) = .ok t.feeEstimate ↔
      ∀ e, t.feeEstimate = some e → e.gasPrice.Storable lib := by
  simp only [feeEstimate, bindings]
  cases t.feeEstimate with
  | none => exact iff_of_true rfl nofun
  | some e =>
      simp only [Option.map_some]
      constructor
      · rintro h _ ⟨⟩
        obtain ⟨gasPrice, hread, h⟩ := bind_ok.mp h
        obtain ⟨price, rfl, hprice⟩ := Option.map_eq_some_iff.mp (Except.ok.inj h)
        obtain rfl : price = e.gasPrice := congrArg TransactionFeeEstimate.gasPrice hprice
        exact TokenAmount.ofSerialized_serialized.mp hread
      · intro h
        exact bind_ok.mpr ⟨_, TokenAmount.ofSerialized_serialized.mpr (h e rfl), rfl⟩

theorem transactionType_ofRawValue (type : TransactionType) :
    TransactionType.ofRawValue type.rawValue = some type := by
  cases type <;> decide

theorem transactionStatus_ofRawValue (status : TransactionStatus) :
    TransactionStatus.ofRawValue status.rawValue = some status := by
  cases status <;> decide

theorem operation_ofRawValue (operation : Option WalletOperation) :
    (operation.map (·.rawValue)).bind WalletOperation.ofRawValue = operation := by
  cases operation with
  | none => rfl
  | some operation => cases operation <;> rfl

theorem transactionHash_mk (hash : Option TransactionHash) :
    (hash.map (·.value)).map TransactionHash.mk = hash := by
  cases hash <;> rfl

/-- Type and status are read as they were saved. -/
theorem transactionFromResultSet_bindings (text : DateText) (t : Transaction) (clock : Clock) :
    transactionFromResultSet lib text (bindings text t) clock = (do
      let accountID ← AccountID.ofString t.accountID.value
      let tx := Transaction.new t.id t.type t.walletID accountID (clock 0) (clock 1)
      let tx ← update lib (bindings text t) tx fun n => clock (n + 8)
      let tx ← replay t.status tx fun n => clock (n + 2)
      return some (timestamp tx (fetchTimestamps text (bindings text t)))) := by
  have htype : TransactionType.ofRawValue (bindings text t).transactionType = some t.type :=
    transactionType_ofRawValue t.type
  have hstatus : TransactionStatus.ofRawValue (bindings text t).transactionStatus =
      some t.status := transactionStatus_ofRawValue t.status
  unfold transactionFromResultSet
  rw [htype, hstatus]
  rfl

/-- The saved row is the one that is found. -/
theorem find_save (text : DateText) (table : List Row) (t : Transaction) (clock : Clock) :
    find lib text (save text table t) t.id clock =
      transactionFromResultSet lib text (bindings text t) clock := by
  have hrow : (save text table t).find? (·.id = t.id) = some (bindings text t) :=
    Rows.find?_replaced Row.id table (show (bindings text t).id = t.id from rfl)
  rw [find, hrow]

section

variable {t t' : Transaction} (text : DateText)

/-- What the columns of a storable transaction say. -/
theorem bindings_reads (h : Storable lib t) (hsignatures : ∀ s ∈ t.signatures, s.address.WellFormed) :
    (bindings text t).Reads lib (.of t) where
  sender := read_address.mpr h.sender
  recipient := read_address.mpr h.recipient
  amount := read_amount.mpr h.amount
  fee := read_amount.mpr h.fee
  signatures := ⟨_, bind_ok.mpr ⟨_, deserializedSignatures_ok hsignatures, rfl⟩, rfl⟩
  feeEstimate := (feeEstimate_bindings text).mpr h.gasPrice

theorem some_or_self {α : Type} {v : Option α} {a : Option α} (h : v ≠ none) :
    (v <|> a) = v := by
  cases v with
  | none => exact absurd rfl h
  | some v => rfl

theorem ne_none_of_or {α : Type} {v : Option α} {a : α} (h : (v <|> some a) = v) : v ≠ none := by
  rintro rfl
  exact nomatch h

theorem or_self_of {α : Type} {v a : Option α} (h : v = none → a = none) : (v <|> a) = v := by
  cases v with
  | none => exact h rfl
  | some v => rfl

/-- A storable transaction comes back. -/
theorem readsBack_of_storable (hi : t.DataInvariant) (hnodup : t.signatures.Nodup)
    (hsignatures : ∀ s ∈ t.signatures, s.address.WellFormed) (h : Storable lib t)
    (clock : Clock) :
    ∃ t', transactionFromResultSet lib text (bindings text t) clock = .ok (some t') ∧
      ReadsBack t t' := by
  obtain ⟨accountID, haccountID⟩ := accountID_ok.mpr h.accountID
  obtain ⟨u, hupdate⟩ := update_new (bindings_reads text h hsignatures) hnodup t.id t.type
    t.walletID accountID (clock 0) (clock 1) fun n => clock (n + 8)
  obtain ⟨tx, hreplay⟩ : ∃ tx, replay t.status (((Contents.of t).fill (bindings text t)
      (.new t.id t.type t.walletID accountID (clock 0) (clock 1))).timestampUpdated u)
      (fun n => clock (n + 2)) = .ok tx :=
    replay_ok _ hi rfl rfl rfl rfl rfl (transactionHash_mk t.transactionHash)
  have hreplayed := replay_replayed rfl rfl hreplay
  have hfind : transactionFromResultSet lib text (bindings text t) clock =
      .ok (some (timestamp tx (fetchTimestamps text (bindings text t)))) := by
    rw [transactionFromResultSet_bindings]
    exact bind_ok.mpr ⟨accountID, haccountID, bind_ok.mpr ⟨_, hupdate,
      bind_ok.mpr ⟨_, hreplay, rfl⟩⟩⟩
  refine ⟨_, hfind, ?_⟩
  obtain ⟨⟨u, r, s, p, rfl⟩, hrejected, hsubmitted, hprocessed⟩ := hreplayed
  rw [timestamp_eq, fetchTimestamps_bindings]
  exact {
    status := rfl
    sender := rfl
    recipient := rfl
    amount := rfl
    fee := rfl
    feeEstimate := rfl
    data := rfl
    operation := operation_ofRawValue t.operation
    nonce := rfl
    hash := rfl
    transactionHash := transactionHash_mk t.transactionHash
    signatures := rfl
    createdDate := some_or_self h.createdDate
    updatedDate := some_or_self h.updatedDate
    rejectedDate := or_self_of fun hnone => hrejected fun hs => hi.rejection hs hnone
    submittedDate := or_self_of fun hnone => hsubmitted fun hs => (hi.submission hs).2 hnone
    processedDate := or_self_of fun hnone => hprocessed fun hs => hi.processing hs hnone }

/-- What comes back unchanged was storable. -/
theorem storable_of_readsBack (hnodup : t.signatures.Nodup)
    (hsignatures : ∀ s ∈ t.signatures, s.address.WellFormed) {clock : Clock}
    (h : transactionFromResultSet lib text (bindings text t) clock = .ok (some t'))
    (hback : ReadsBack t t') : Storable lib t := by
  rw [transactionFromResultSet_bindings] at h
  obtain ⟨accountID, haccountID, h⟩ := bind_ok.mp h
  obtain ⟨tx₁, hupdate, h⟩ := bind_ok.mp h
  obtain ⟨tx, hreplay, h⟩ := bind_ok.mp h
  obtain rfl := Option.some.inj (Except.ok.inj h)
  obtain ⟨c, hreads⟩ := update_reads hupdate
  have hcolumn : c.signatures = t.signatures := by
    obtain ⟨v, hv, hc⟩ := hreads.signatures
    obtain ⟨l, hl, hv⟩ := bind_ok.mp hv
    obtain rfl := Except.ok.inj hv
    rw [deserializedSignatures_ok hsignatures] at hl
    rw [← hc, ← Except.ok.inj hl]
    rfl
  obtain ⟨u, hfilled⟩ := update_new hreads (hcolumn ▸ hnodup) t.id t.type t.walletID accountID
    (clock 0) (clock 1) fun n => clock (n + 8)
  obtain rfl := Except.ok.inj (hfilled.symm.trans hupdate)
  obtain ⟨⟨u, r, s, p, rfl⟩, -, -, -⟩ := replay_replayed rfl rfl hreplay
  rw [timestamp_eq, fetchTimestamps_bindings] at hback
  exact {
    accountID := accountID_ok.mp ⟨accountID, haccountID⟩
    sender := read_address.mp (hreads.sender.trans (congrArg Except.ok hback.sender))
    recipient := read_address.mp (hreads.recipient.trans (congrArg Except.ok hback.recipient))
    amount := by
      obtain ⟨v, hread, hv⟩ := hreads.amount
      exact read_amount.mp ⟨v, hread, hv.trans hback.amount⟩
    fee := by
      obtain ⟨v, hread, hv⟩ := hreads.fee
      exact read_amount.mp ⟨v, hread, hv.trans hback.fee⟩
    gasPrice := (feeEstimate_bindings text).mp
      (hreads.feeEstimate.trans (congrArg Except.ok hback.feeEstimate))
    createdDate := ne_none_of_or hback.createdDate
    updatedDate := ne_none_of_or hback.updatedDate }

end

/-! ### A payment that comes back, and one that does not -/

/-- Dates in whole seconds, as decimal numbers. -/
def seconds : DateText where
  string := stringOfInt
  timeInterval s := reference.bigInt s 10
  timeInterval_string := bigInt_stringOfInt reference

theorem ether_storable : Token.Ether.Storable reference where
  code := by decide
  name := by decide
  address := by decide
  logoUrl := by decide
  decimals := by decide
  accepted := ⟨by decide, .inl (by decide +kernel)⟩

theorem ether_amount_storable (n : Int) : (TokenAmount.ether n).Storable reference where
  separator := by
    show ¬ TokenAmount.separator <:+: Token.Ether.serialized
    decide +kernel
  token := ether_storable

/-- The calls of a payment, from its parameters to its success. -/
def payment (amount : TokenAmount) : List Transaction.Op :=
  [.change (.sender (some .zero)) 1, .change (.recipient (some .two)) 2,
    .change (.amount (some amount)) 3, .change (.fee (some (.ether 1))) 4, .proceed 5 5,
    .addSignature ⟨.zero, [1]⟩ 6, .setHash ⟨hexMark⟩ 7, .proceed 8 9, .succeed 10 11]

/-- The payment after these calls. -/
def paid (amount : TokenAmount) : Transaction :=
  { id := ['t'], type := .transfer, walletID := ['w'], accountID := ⟨['a'], ['w']⟩
    status := .success, sender := some .zero, recipient := some .two, amount := some amount
    fee := some (.ether 1), signatures := [⟨.zero, [1]⟩], createdDate := some 0
    updatedDate := some 11, submittedDate := some 8, processedDate := some 10
    transactionHash := some ⟨hexMark⟩ }

theorem run_payment (amount : TokenAmount) :
    Transition.run Transaction.step (.new ['t'] .transfer ['w'] ⟨['a'], ['w']⟩ 0 0)
      (payment amount) = .ok (paid amount) := rfl

theorem wellFormed_of_paid {amount : TokenAmount} :
    ∀ s ∈ (paid amount).signatures, s.address.WellFormed := by
  intro s hs
  obtain rfl := List.mem_singleton.mp hs
  exact Address.wellFormed_of_digits (by decide)

/-- A token whose name contains the separator. -/
def tilde : Token := ⟨['T'], ['a', '~', '~', '~', 'b'], 18, .two, []⟩

end DBTransactionRepository

end MultisigWallet
