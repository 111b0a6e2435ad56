import Mathlib.Data.List.Basic

/-!
# Computations that save as they go

A `Journal` is a computation over a store that may stop with an error and whose writes are
visible one by one: next to its result it returns the store after each write, in order, with
a label that says which write of the program it was. Cutting the list after `k` writes gives
the store a process leaves behind that dies there.

`Does m s post crash err` says what `m` does from the store `s`: every store it writes meets
`crash`, `post` holds of what it returns and of the store then, and `err` of the error it stops
with and of the store it leaves behind. The rules execute a computation symbolically, one for each way to build it.
-/

universe u

/-- How a computation went. -/
structure Journal.Outcome (ℓ σ ε : Type u) (α : Type u) where
  saves : List (ℓ × σ)
  result : Except ε α

/-- A computation over a store `σ`, with errors `ε` and labels `ℓ` for its writes. -/
def Journal (ℓ σ ε α : Type u) := σ → Journal.Outcome ℓ σ ε α

namespace Journal

variable {ℓ σ ε α β : Type u}

namespace Outcome

/-- The store after `k` writes, from the store `s`. -/
def after (o : Outcome ℓ σ ε α) (s : σ) (k : Nat) : σ :=
  ((o.saves.take k).getLast?.map (·.2)).getD s

/-- The store after all writes. -/
def final (o : Outcome ℓ σ ε α) (s : σ) : σ := (o.saves.getLast?.map (·.2)).getD s

end Outcome

protected def pure (a : α) : Journal ℓ σ ε α := fun _ => ⟨[], .ok a⟩

protected def bind (m : Journal ℓ σ ε α) (f : α → Journal ℓ σ ε β) : Journal ℓ σ ε β := fun s =>
  match (m s).result with
  | .error e => ⟨(m s).saves, .error e⟩
  | .ok a =>
      let o := f a ((m s).final s)
      ⟨(m s).saves ++ o.saves, o.result⟩

instance : Monad (Journal ℓ σ ε) where
  pure := Journal.pure
  bind := Journal.bind

/-- The store. -/
def get : Journal ℓ σ ε σ := fun s => ⟨[], .ok s⟩

/-- One write. -/
def modify (label : ℓ) (f : σ → σ) : Journal ℓ σ ε PUnit := fun s => ⟨[(label, f s)], .ok ⟨⟩⟩

/-- A computation that does not touch the store. -/
def lift (x : Except ε α) : Journal ℓ σ ε α := fun _ => ⟨[], x⟩

def fail (e : ε) : Journal ℓ σ ε α := lift (.error e)

/-! ### Values -/

/-- The computation without its value. -/
def forget (m : Journal ℓ σ ε α) : Journal ℓ σ ε PUnit := fun s =>
  ⟨(m s).saves, (m s).result.map fun _ => ⟨⟩⟩

theorem forget_bind (m : Journal ℓ σ ε α) (f : α → Journal ℓ σ ε β) :
    forget (m >>= f) = m >>= fun a => forget (f a) := by
  funext s
  show (⟨(Journal.bind m f s).saves, (Journal.bind m f s).result.map fun _ => ⟨⟩⟩ :
    Outcome ℓ σ ε PUnit) = Journal.bind m (fun a => forget (f a)) s
  unfold Journal.bind
  cases (m s).result with
  | error e => rfl
  | ok a => rfl

/-- Returning something at the end does not change what is written. -/
theorem forget_return (m : Journal ℓ σ ε PUnit) (a : α) :
    forget (m >>= fun _ => (pure a : Journal ℓ σ ε α)) = m := by
  funext s
  show (⟨(Journal.bind m (fun _ => Journal.pure a) s).saves,
    (Journal.bind m (fun _ => Journal.pure a) s).result.map fun _ => ⟨⟩⟩ : Outcome ℓ σ ε PUnit) = m s
  unfold Journal.bind
  cases h : (m s).result with
  | error e =>
      show (⟨(m s).saves, .error e⟩ : Outcome ℓ σ ε PUnit) = m s
      rw [← h]
  | ok a =>
      show (⟨(m s).saves ++ [], .ok ⟨⟩⟩ : Outcome ℓ σ ε PUnit) = m s
      rw [List.append_nil, ← h]

/-! ### Where a process may die -/

theorem final_append (o : Outcome ℓ σ ε α) (o' : Outcome ℓ σ ε β) (s : σ) :
    (⟨o.saves ++ o'.saves, o'.result⟩ : Outcome ℓ σ ε β).final s = o'.final (o.final s) := by
  simp only [Outcome.final, List.getLast?_append]
  cases o'.saves.getLast? <;> rfl

/-- What was there after `k` writes is the store of the start, or was written. -/
theorem after_cases (o : Outcome ℓ σ ε α) (s : σ) (k : Nat) :
    o.after s k = s ∨ ∃ e ∈ o.saves.take k, (o.saves.take k).getLast? = some e ∧
      o.after s k = e.2 := by
  unfold Outcome.after
  cases h : (o.saves.take k).getLast? with
  | none => exact .inl rfl
  | some e => exact .inr ⟨e, List.mem_of_getLast? h, rfl, rfl⟩

/-! ### What a computation does -/

/-- Run from the store `s`, every write of `m` meets `crash`; if `m` returns, `post` holds of
the value and of the store then, and if it stops, `err` holds of the error. -/
structure Does (m : Journal ℓ σ ε α) (s : σ) (post : α → σ → Prop) (crash : ℓ → σ → Prop)
    (err : ε → σ → Prop) : Prop where
  saves : ∀ e ∈ (m s).saves, crash e.1 e.2
  returns : ∀ a, (m s).result = .ok a → post a ((m s).final s)
  stops : ∀ e, (m s).result = .error e → err e ((m s).final s)

namespace Does

variable {s : σ} {m : Journal ℓ σ ε α} {post : α → σ → Prop} {crash : ℓ → σ → Prop}
  {err : ε → σ → Prop}

theorem pure {a : α} (h : post a s) : Does (Pure.pure a : Journal ℓ σ ε α) s post crash err where
  saves _ he := absurd he List.not_mem_nil
  returns _ hb := Except.ok.inj hb ▸ h
  stops _ he := nomatch he

theorem fail {e : ε} (h : err e s) : Does (Journal.fail e : Journal ℓ σ ε α) s post crash err where
  saves _ he := absurd he List.not_mem_nil
  returns _ ha := nomatch ha
  stops _ he := Except.error.inj he ▸ h

theorem modify {label : ℓ} {f : σ → σ} {post : PUnit → σ → Prop} (hcrash : crash label (f s))
    (hpost : post ⟨⟩ (f s)) : Does (Journal.modify label f : Journal ℓ σ ε PUnit) s post crash err where
  saves _ he := List.mem_singleton.mp he ▸ hcrash
  returns _ _ := hpost
  stops _ he := nomatch he

theorem bind {mid : α → σ → Prop} {post : β → σ → Prop} {f : α → Journal ℓ σ ε β}
    (hm : Does m s mid crash err) (hf : ∀ a t, mid a t → Does (f a) t post crash err) :
    Does (m >>= f) s post crash err := by
  have hrun : (m >>= f) s = Journal.bind m f s := rfl
  cases hresult : (m s).result with
  | error e =>
      have hbind : Journal.bind m f s = ⟨(m s).saves, .error e⟩ := by rw [Journal.bind, hresult]
      rw [← hrun] at hbind
      refine ⟨?_, ?_, ?_⟩
      · rw [hbind]
        exact hm.saves
      · rw [hbind]
        exact fun _ ha => nomatch ha
      · rw [hbind]
        exact fun e' he' => Except.error.inj he' ▸ hm.stops e hresult
  | ok a =>
      have hrest := hf a _ (hm.returns a hresult)
      have hbind : Journal.bind m f s = ⟨(m s).saves ++ (f a ((m s).final s)).saves,
          (f a ((m s).final s)).result⟩ := by rw [Journal.bind, hresult]
      rw [← hrun] at hbind
      refine ⟨?_, ?_, ?_⟩
      · rw [hbind]
        intro e he
        rcases List.mem_append.mp he with he | he
        · exact hm.saves e he
        · exact hrest.saves e he
      · rw [hbind, final_append]
        exact hrest.returns
      · rw [hbind, final_append]
        exact hrest.stops

theorem get_bind {post : β → σ → Prop} {f : σ → Journal ℓ σ ε β}
    (h : Does (f s) s post crash err) : Does (Journal.get >>= f) s post crash err := by
  have hget : Does (Journal.get : Journal ℓ σ ε σ) s (fun a t => a = s ∧ t = s) crash err :=
    ⟨fun _ he => absurd he List.not_mem_nil, fun _ ha => ⟨(Except.ok.inj ha).symm, rfl⟩,
      fun _ he => nomatch he⟩
  refine bind hget ?_
  rintro a t ⟨rfl, rfl⟩
  exact h

theorem modify_bind {label : ℓ} {g : σ → σ} {post : β → σ → Prop} {f : PUnit → Journal ℓ σ ε β}
    (hcrash : crash label (g s)) (h : Does (f ⟨⟩) (g s) post crash err) :
    Does (Journal.modify label g >>= f) s post crash err := by
  have hmodify : Does (Journal.modify label g : Journal ℓ σ ε PUnit) s (fun _ t => t = g s) crash
      err := modify hcrash rfl
  refine bind hmodify ?_
  rintro ⟨⟩ t rfl
  exact h

theorem lift_bind {x : Except ε α} {post : β → σ → Prop} {f : α → Journal ℓ σ ε β}
    (hok : ∀ a, x = .ok a → Does (f a) s post crash err) (herr : ∀ e, x = .error e → err e s) :
    Does (Journal.lift x >>= f) s post crash err := by
  have hlift : Does (Journal.lift x : Journal ℓ σ ε α) s (fun a t => x = .ok a ∧ t = s) crash err :=
    ⟨fun _ he => absurd he List.not_mem_nil, fun a ha => ⟨ha, rfl⟩, herr⟩
  refine bind hlift ?_
  rintro a t ⟨ha, rfl⟩
  exact hok a ha

theorem weaken {post' : α → σ → Prop} {crash' : ℓ → σ → Prop} {err' : ε → σ → Prop}
    (h : Does m s post crash err) (hpost : ∀ a t, post a t → post' a t)
    (hcrash : ∀ l t, crash l t → crash' l t) (herr : ∀ e t, err e t → err' e t) :
    Does m s post' crash' err' where
  saves e he := hcrash _ _ (h.saves e he)
  returns a ha := hpost a _ (h.returns a ha)
  stops e he := herr e _ (h.stops e he)

/-- The store a process leaves behind that dies after `k` writes: the one it started with,
or one that meets the crash condition of the last write. -/
theorem after (h : Does m s post crash err) (k : Nat) :
    (m s).after s k = s ∨ ∃ e, ((m s).saves.take k).getLast? = some e ∧
      crash e.1 ((m s).after s k) := by
  rcases after_cases (m s) s k with hs | ⟨e, he, hlast, hafter⟩
  · exact .inl hs
  · exact .inr ⟨e, hlast, hafter ▸ h.saves e (List.mem_of_mem_take he)⟩

end Does

end Journal
