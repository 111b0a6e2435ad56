import Mathlib.Data.List.Basic

/-!
# Computations that throw

A `Throwing` computation changes a state and returns, throws an error that its caller may catch,
or halts for good. What it changed before it threw or halted stays changed.

`Does m s Q E H` says what `m` does from the state `s`, for each of the three ways it can
end. The rules execute a computation symbolically, one for each way to build it. `Keeps I m` is the
case of an invariant, which holds at the end whichever way it is reached; it has its own rules,
so that a computation keeps what its parts keep.
-/

universe u v

/-- How a computation ends. -/
inductive Throwing.Outcome (ε η α : Type u)
  | returned (value : α)
  | threw (error : ε)
  | halted (halt : η)

def Throwing.Outcome.isHalted {ε η α : Type u} : Throwing.Outcome ε η α → Bool
  | .halted _ => true
  | _ => false

/-- A computation over states `σ`, with errors `ε` and reasons to halt `η`. -/
def Throwing (σ ε η α : Type u) := σ → Throwing.Outcome ε η α × σ

namespace Throwing

variable {σ ε η α β : Type u}

protected def pure (a : α) : Throwing σ ε η α := fun s => (.returned a, s)

protected def bind (m : Throwing σ ε η α) (f : α → Throwing σ ε η β) : Throwing σ ε η β := fun s =>
  match m s with
  | (.returned a, t) => f a t
  | (.threw e, t) => (.threw e, t)
  | (.halted h, t) => (.halted h, t)

instance : Monad (Throwing σ ε η) where
  pure := Throwing.pure
  bind := Throwing.bind

/-- The state. -/
def get : Throwing σ ε η σ := fun s => (.returned s, s)

def modify (f : σ → σ) : Throwing σ ε η PUnit := fun s => (.returned ⟨⟩, f s)

def fail (e : ε) : Throwing σ ε η α := fun s => (.threw e, s)

def halt (h : η) : Throwing σ ε η α := fun s => (.halted h, s)

/-- An assertion: throws unless `condition` holds. -/
def check (condition : Bool) (e : ε) : Throwing σ ε η PUnit :=
  if condition then Throwing.pure ⟨⟩ else fail e

/-- `try?`, the value thrown away. -/
def attempt (m : Throwing σ ε η α) : Throwing σ ε η PUnit := fun s =>
  match m s with
  | (.returned _, t) => (.returned ⟨⟩, t)
  | (.threw _, t) => (.returned ⟨⟩, t)
  | (.halted h, t) => (.halted h, t)

/-- `m`, and then `last` whether `m` returned or threw. `last` must not throw. -/
def deferring (last : Throwing σ ε η PUnit) (m : Throwing σ ε η α) : Throwing σ ε η α := fun s =>
  match m s with
  | (.halted h, t) => (.halted h, t)
  | (.returned a, t) => Throwing.bind last (fun _ => Throwing.pure a) t
  | (.threw e, t) => Throwing.bind last (fun _ => fail e) t

/-- `f` of each element in order. -/
def each {κ : Type v} (f : κ → Throwing σ ε η PUnit) : List κ → Throwing σ ε η PUnit
  | [] => Throwing.pure ⟨⟩
  | a :: as => Throwing.bind (f a) fun _ => each f as

/-! ### Runs -/

section Run

variable {s t : σ} {m : Throwing σ ε η α} {f : α → Throwing σ ε η β} {last : Throwing σ ε η PUnit}
  {a : α} {e : ε} {x : η}

theorem bind_of_returned (h : m s = (.returned a, t)) : (m >>= f) s = f a t := by
  show Throwing.bind m f s = _
  rw [Throwing.bind, h]

theorem bind_of_threw (h : m s = (.threw e, t)) : (m >>= f) s = (.threw e, t) := by
  show Throwing.bind m f s = _
  rw [Throwing.bind, h]

theorem bind_of_halted (h : m s = (.halted x, t)) : (m >>= f) s = (.halted x, t) := by
  show Throwing.bind m f s = _
  rw [Throwing.bind, h]

theorem deferring_of_returned (h : m s = (.returned a, t)) :
    deferring last m s = (last >>= fun _ => (Pure.pure a : Throwing σ ε η α)) t := by
  rw [deferring, h]
  rfl

theorem deferring_of_threw (h : m s = (.threw e, t)) :
    deferring last m s = (last >>= fun _ => (fail e : Throwing σ ε η α)) t := by
  rw [deferring, h]
  rfl

/-- An inversion of `>>=`, for a computation that returns. -/
theorem bind_returned {b : β} :
    (m >>= f) s = (.returned b, t) ↔ ∃ a u, m s = (.returned a, u) ∧ f a u = (.returned b, t) := by
  constructor
  · intro h
    rcases hm : m s with ⟨o, u⟩
    cases o with
    | returned a => exact ⟨a, u, rfl, by rw [← h, bind_of_returned hm]⟩
    | threw e =>
        rw [bind_of_threw hm] at h
        cases h
    | halted x =>
        rw [bind_of_halted hm] at h
        cases h
  · intro h
    obtain ⟨a, u, hm, hf⟩ := h
    rw [bind_of_returned hm, hf]

end Run

/-! ### What a computation does -/

/-- What holds when `m` ends that was run from `s`. -/
structure Does (m : Throwing σ ε η α) (s : σ) (Q : α → σ → Prop) (E : ε → σ → Prop)
    (H : η → σ → Prop) : Prop where
  returns : ∀ a t, m s = (.returned a, t) → Q a t
  throws : ∀ e t, m s = (.threw e, t) → E e t
  halts : ∀ x t, m s = (.halted x, t) → H x t

section Does

variable {s t : σ} {m : Throwing σ ε η α} {Q : α → σ → Prop} {E : ε → σ → Prop}
  {H : η → σ → Prop}

theorem Does.of_returned {a : α} (h : m s = (.returned a, t)) (hpost : Q a t) :
    Does m s Q E H := by
  refine ⟨fun b u hb => ?_, fun e u he => ?_, fun x u hx => ?_⟩
  · rw [h] at hb
    cases hb
    exact hpost
  · rw [h] at he
    cases he
  · rw [h] at hx
    cases hx

theorem Does.of_threw {e : ε} (h : m s = (.threw e, t)) (herr : E e t) :
    Does m s Q E H := by
  refine ⟨fun b u hb => ?_, fun e' u he => ?_, fun x u hx => ?_⟩
  · rw [h] at hb
    cases hb
  · rw [h] at he
    cases he
    exact herr
  · rw [h] at hx
    cases hx

theorem Does.of_halted {x : η} (h : m s = (.halted x, t)) (hstop : H x t) :
    Does m s Q E H := by
  refine ⟨fun b u hb => ?_, fun e u he => ?_, fun y u hy => ?_⟩
  · rw [h] at hb
    cases hb
  · rw [h] at he
    cases he
  · rw [h] at hy
    cases hy
    exact hstop

/-- A computation that goes on as another one does what that one does. -/
theorem Does.of_eq {β : Type u} {m : Throwing σ ε η β} {m' : Throwing σ ε η β}
    {Q : β → σ → Prop} (h : m s = m' t) (hm : Does m' t Q E H) :
    Does m s Q E H :=
  ⟨fun a u ha => hm.returns a u (h ▸ ha), fun e u he => hm.throws e u (h ▸ he),
    fun x u hx => hm.halts x u (h ▸ hx)⟩

theorem Does.pure {a : α} (h : Q a s) :
    Does (Pure.pure a : Throwing σ ε η α) s Q E H :=
  .of_returned rfl h

theorem Does.fail {e : ε} (h : E e s) :
    Does (Throwing.fail e : Throwing σ ε η α) s Q E H :=
  .of_threw rfl h

theorem Does.halt {x : η} (h : H x s) :
    Does (Throwing.halt x : Throwing σ ε η α) s Q E H :=
  .of_halted rfl h

theorem Does.get {Q : σ → σ → Prop} (h : Q s s) :
    Does (Throwing.get : Throwing σ ε η σ) s Q E H :=
  .of_returned rfl h

theorem Does.modify {f : σ → σ} {Q : PUnit → σ → Prop} (h : Q ⟨⟩ (f s)) :
    Does (Throwing.modify f : Throwing σ ε η PUnit) s Q E H :=
  .of_returned rfl h

theorem Does.check {condition : Bool} {e : ε} {Q : PUnit → σ → Prop}
    (hpost : condition = true → Q ⟨⟩ s) (herr : condition = false → E e s) :
    Does (Throwing.check condition e : Throwing σ ε η PUnit) s Q E H := by
  cases h : condition with
  | true => exact .of_returned rfl (hpost h)
  | false => exact .of_threw rfl (herr h)

theorem Does.bind {M : α → σ → Prop} {Q : β → σ → Prop} {f : α → Throwing σ ε η β}
    (hm : Does m s M E H) (hf : ∀ a t, M a t → Does (f a) t Q E H) :
    Does (m >>= f) s Q E H := by
  rcases h : m s with ⟨o, t⟩
  cases o with
  | returned a => exact .of_eq (bind_of_returned h) (hf a t (hm.returns a t h))
  | threw e => exact .of_threw (bind_of_threw h) (hm.throws e t h)
  | halted x => exact .of_halted (bind_of_halted h) (hm.halts x t h)

theorem Does.attempt {Q : PUnit → σ → Prop} {M : α → σ → Prop} {F : ε → σ → Prop}
    (hm : Does m s M F H) (hpost : ∀ a t, M a t → Q ⟨⟩ t)
    (herr : ∀ e t, F e t → Q ⟨⟩ t) : Does (Throwing.attempt m) s Q E H := by
  rcases h : m s with ⟨o, t⟩
  cases o with
  | returned a =>
      exact .of_returned (by rw [Throwing.attempt, h]) (hpost a t (hm.returns a t h))
  | threw e => exact .of_returned (by rw [Throwing.attempt, h]) (herr e t (hm.throws e t h))
  | halted x => exact .of_halted (by rw [Throwing.attempt, h]) (hm.halts x t h)

theorem Does.deferring {M : α → σ → Prop} {F : ε → σ → Prop} {last : Throwing σ ε η PUnit}
    (hm : Does m s M F H)
    (hlast : ∀ a t, M a t → Does last t (fun _ => Q a) E H)
    (hthrown : ∀ e t, F e t → Does last t (fun _ => E e) E H) :
    Does (Throwing.deferring last m) s Q E H := by
  rcases h : m s with ⟨o, t⟩
  cases o with
  | returned a =>
      exact .of_eq (deferring_of_returned h)
        ((hlast a t (hm.returns a t h)).bind fun _ _ hu => .pure hu)
  | threw e =>
      exact .of_eq (deferring_of_threw h)
        ((hthrown e t (hm.throws e t h)).bind fun _ _ hu => .fail hu)
  | halted x => exact .of_halted (by rw [Throwing.deferring, h]) (hm.halts x t h)

/-- A loop, with what holds before and after each of its passes. -/
theorem Does.each {κ : Type v} {f : κ → Throwing σ ε η PUnit} {P : σ → Prop} {as : List κ}
    (hf : ∀ a ∈ as, ∀ s, P s → Does (f a) s (fun _ => P) E H) (hs : P s) :
    Does (Throwing.each f as) s (fun _ => P) E H := by
  induction as generalizing s with
  | nil => exact .pure hs
  | cons a as ih =>
      obtain ⟨ha, has⟩ := List.forall_mem_cons.mp hf
      exact Does.bind (f := fun _ => Throwing.each f as) (ha s hs) fun _ t ht => ih has ht

/-- A loop over consecutive numbers, with what holds before each of its passes. -/
theorem Does.each_range' {f : Nat → Throwing σ ε η PUnit} {P : Nat → σ → Prop} {i n : Nat}
    (hf : ∀ k s, i ≤ k → k < i + n → P k s → Does (f k) s (fun _ => P (k + 1)) E H)
    (hs : P i s) :
    Does (Throwing.each f (List.range' i n)) s (fun _ => P (i + n)) E H := by
  induction n generalizing i s with
  | zero => exact .pure hs
  | succ n ih =>
      have hfirst := hf i s (Nat.le_refl _) (by omega) hs
      refine Does.bind (f := fun _ => Throwing.each f (List.range' (i + 1) n)) hfirst ?_
      intro _ t ht
      rw [show i + (n + 1) = i + 1 + n by omega]
      exact ih (fun k u hk hlt => hf k u (by omega) (by omega)) ht

theorem Does.weaken {R : α → σ → Prop} {F : ε → σ → Prop} {K : η → σ → Prop}
    (h : Does m s Q E H) (hpost : ∀ a t, Q a t → R a t)
    (herr : ∀ e t, E e t → F e t) (hstop : ∀ x t, H x t → K x t) :
    Does m s R F K where
  returns a t ht := hpost a t (h.returns a t ht)
  throws e t ht := herr e t (h.throws e t ht)
  halts x t ht := hstop x t (h.halts x t ht)

/-- Whatever way a computation ends. -/
theorem Does.final {P : σ → Prop} (h : Does m s (fun _ => P) (fun _ => P) (fun _ => P)) :
    P (m s).2 := by
  rcases hm : m s with ⟨o, t⟩
  cases o with
  | returned a => exact h.returns a t hm
  | threw e => exact h.throws e t hm
  | halted x => exact h.halts x t hm

/-- Whatever way it ends, if it does not halt. -/
theorem Does.final_of_not_halted {P : σ → Prop} (h : Does m s (fun _ => P) (fun _ => P) H)
    (hend : (m s).1.isHalted = false) : P (m s).2 := by
  rcases hm : m s with ⟨o, t⟩
  rw [hm] at hend
  cases o with
  | returned a => exact h.returns a t hm
  | threw e => exact h.throws e t hm
  | halted x => cases hend

end Does

/-! ### Invariants -/

/-- Run where `I` holds, `m` returns and throws where `I` holds, and halts where `J` holds. -/
def Keeps (I J : σ → Prop) (m : Throwing σ ε η α) : Prop :=
  ∀ s, I s → Does m s (fun _ => I) (fun _ => I) (fun _ => J)

namespace Keeps

variable {I J : σ → Prop} {m : Throwing σ ε η α}

theorem pure (a : α) : Keeps I J (Pure.pure a : Throwing σ ε η α) := fun _ hs => .pure hs

theorem fail (e : ε) : Keeps I J (Throwing.fail e : Throwing σ ε η α) := fun _ hs => .fail hs

theorem halt (hJ : ∀ s, I s → J s) (x : η) : Keeps I J (Throwing.halt x : Throwing σ ε η α) :=
  fun s hs => .halt (hJ s hs)

theorem get : Keeps I J (Throwing.get : Throwing σ ε η σ) := fun _ hs => .get hs

theorem check (condition : Bool) (e : ε) :
    Keeps I J (Throwing.check condition e : Throwing σ ε η PUnit) :=
  fun _ hs => .check (fun _ => hs) (fun _ => hs)

theorem modify {f : σ → σ} (h : ∀ s, I s → I (f s)) :
    Keeps I J (Throwing.modify f : Throwing σ ε η PUnit) :=
  fun s hs => .modify (h s hs)

theorem bind {f : α → Throwing σ ε η β} (hm : Keeps I J m) (hf : ∀ a, Keeps I J (f a)) :
    Keeps I J (m >>= f) :=
  fun s hs => (hm s hs).bind fun a t ht => hf a t ht

theorem ite {c : Prop} [Decidable c] {m' : Throwing σ ε η α} (h : Keeps I J m)
    (h' : Keeps I J m') : Keeps I J (if c then m else m') := by
  split
  · exact h
  · exact h'

theorem weakenHalt {K : σ → Prop} (hm : Keeps I J m) (h : ∀ s, J s → K s) : Keeps I K m :=
  fun s hs => (hm s hs).weaken (fun _ _ h => h) (fun _ _ h => h) (fun _ t ht => h t ht)

theorem and {I' : σ → Prop} (hm : Keeps I J m) (hm' : Keeps I' J m) :
    Keeps (fun s => I s ∧ I' s) J m := fun s hs =>
  ⟨fun a t h => ⟨(hm s hs.1).returns a t h, (hm' s hs.2).returns a t h⟩,
    fun e t h => ⟨(hm s hs.1).throws e t h, (hm' s hs.2).throws e t h⟩, (hm s hs.1).halts⟩

theorem attempt (hm : Keeps I J m) : Keeps I J (Throwing.attempt m) :=
  fun s hs => (hm s hs).attempt (fun _ _ h => h) (fun _ _ h => h)

theorem deferring {last : Throwing σ ε η PUnit} (hlast : Keeps I J last) (hm : Keeps I J m) :
    Keeps I J (Throwing.deferring last m) :=
  fun s hs => (hm s hs).deferring (fun _ t ht => hlast t ht) (fun _ t ht => hlast t ht)

theorem each {κ : Type v} {f : κ → Throwing σ ε η PUnit} {as : List κ}
    (hf : ∀ a ∈ as, Keeps I J (f a)) : Keeps I J (Throwing.each f as) :=
  fun _ hs => Does.each hf hs

end Keeps

end Throwing
