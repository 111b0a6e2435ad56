import Mathlib.Data.List.Infix

/-!
# Lists joined by a separator, and taken apart again

`components sep s` cuts `s` at the occurrences of `sep`, from left to right, and
`List.intercalate sep` joins what it is given. Joining always undoes cutting. Cutting undoes
joining exactly for the lists that are `Separable`: the separator must not occur in the last
component, and after each of the others it must not occur sooner than where it was put.
-/

namespace Separated

variable {α : Type*} {sep s a b : List α} {c : α} {cs rest : List (List α)}

/-! ### Joining -/

theorem intercalate_singleton (sep a : List α) : List.intercalate sep [a] = a := by
  simp [List.intercalate]

theorem intercalate_cons (sep a : List α) (h : cs ≠ []) :
    List.intercalate sep (a :: cs) = a ++ sep ++ List.intercalate sep cs := by
  cases cs with
  | nil => exact absurd rfl h
  | cons d cs => simp [List.intercalate]

theorem intercalate_concat (sep a : List α) (h : cs ≠ []) :
    List.intercalate sep (cs ++ [a]) = List.intercalate sep cs ++ (sep ++ a) := by
  induction cs with
  | nil => exact absurd rfl h
  | cons b cs ih =>
      cases cs with
      | nil =>
          rw [List.singleton_append, intercalate_cons sep b (List.cons_ne_nil a []),
            intercalate_singleton, intercalate_singleton, List.append_assoc]
      | cons c rest =>
          have hrest := List.cons_ne_nil c rest
          rw [List.cons_append, intercalate_cons sep b (List.append_ne_nil_of_left_ne_nil hrest [a]),
            intercalate_cons sep b hrest, ih hrest]
          simp only [List.append_assoc]

theorem prefix_append_iff (h : sep.length ≤ a.length) : sep <+: a ++ b ↔ sep <+: a :=
  ⟨fun hpre => List.prefix_of_prefix_length_le hpre (List.prefix_append a b) h,
    fun hpre => hpre.trans (List.prefix_append a b)⟩

/-! ### Components that can be told apart -/

/-- In `a` followed by `sep`, the separator does not occur sooner than after `a`. -/
def Clear (sep : List α) : List α → Prop
  | [] => True
  | c :: a => ¬ sep <+: c :: (a ++ sep) ∧ Clear sep a

/-- Components that can be told apart when they are joined. -/
def Separable (sep : List α) : List (List α) → Prop
  | [] => False
  | [c] => ¬ sep <:+: c
  | c :: d :: cs => Clear sep c ∧ Separable sep (d :: cs)

/-- A component without the first element of the separator hides nothing. -/
theorem clear_of_not_mem {d : α} (h : d ∉ a) : Clear (d :: sep) a := by
  induction a with
  | nil => trivial
  | cons c a ih =>
      have hne : d ≠ c := List.ne_of_not_mem_cons h
      exact ⟨fun hpre => hne (List.cons_prefix_cons.mp hpre).1, ih (List.not_mem_of_not_mem_cons h)⟩

theorem not_infix_of_not_mem {d : α} (h : d ∉ a) : ¬ d :: sep <:+: a :=
  fun hinside => h (hinside.subset List.mem_cons_self)

theorem separable_of_not_mem {d : α} (hne : cs ≠ []) (h : ∀ a ∈ cs, d ∉ a) :
    Separable (d :: sep) cs := by
  induction cs with
  | nil => exact absurd rfl hne
  | cons a cs ih =>
      have ha : d ∉ a := h a List.mem_cons_self
      cases cs with
      | nil => exact not_infix_of_not_mem ha
      | cons b rest =>
          exact ⟨clear_of_not_mem ha, ih (List.cons_ne_nil b rest)
            fun x hx => h x (List.mem_cons_of_mem a hx)⟩

/-! ### Cutting -/

section

variable [DecidableEq α]

/-- `c` as the first element of the first component. -/
def consHead (c : α) : List (List α) → List (List α)
  | [] => [[c]]
  | x :: xs => (c :: x) :: xs

/-- The components of a list whose first `skip` elements are the rest of a separator. -/
def componentsFrom (sep : List α) : Nat → List α → List (List α)
  | _, [] => [[]]
  | skip + 1, _ :: s => componentsFrom sep skip s
  | 0, c :: s =>
      if sep <+: c :: s then [] :: componentsFrom sep (sep.length - 1) s
      else consHead c (componentsFrom sep 0 s)

/-- What stands between the occurrences of `sep` in `s`. -/
def components (sep s : List α) : List (List α) := componentsFrom sep 0 s

instance Clear.decidable (sep : List α) : ∀ a, Decidable (Clear sep a)
  | [] => .isTrue trivial
  | c :: a =>
      have := Clear.decidable sep a
      inferInstanceAs (Decidable (¬ sep <+: c :: (a ++ sep) ∧ Clear sep a))

instance Separable.decidable (sep : List α) : ∀ cs, Decidable (Separable sep cs)
  | [] => .isFalse id
  | [c] => inferInstanceAs (Decidable (¬ sep <:+: c))
  | c :: d :: cs =>
      have := Separable.decidable sep (d :: cs)
      inferInstanceAs (Decidable (Clear sep c ∧ Separable sep (d :: cs)))

/-! ### What cutting finds -/

theorem componentsFrom_drop (sep : List α) (skip : Nat) (s : List α) :
    componentsFrom sep skip s = components sep (s.drop skip) := by
  induction s generalizing skip with
  | nil => cases skip <;> rfl
  | cons c s ih =>
      cases skip with
      | zero => rfl
      | succ skip => exact ih skip

theorem components_cut (h : sep <+: c :: s) :
    components sep (c :: s) = [] :: components sep (s.drop (sep.length - 1)) := by
  rw [components, componentsFrom, if_pos h, componentsFrom_drop]

theorem components_keep (h : ¬ sep <+: c :: s) :
    components sep (c :: s) = consHead c (components sep s) := by
  rw [components, componentsFrom, if_neg h, components]

theorem components_ne_nil (sep s : List α) : components sep s ≠ [] := by
  cases s with
  | nil => exact List.cons_ne_nil _ _
  | cons c s =>
      by_cases h : sep <+: c :: s
      · rw [components_cut h]
        exact List.cons_ne_nil _ _
      · rw [components_keep h]
        cases components sep s <;> exact List.cons_ne_nil _ _

/-- The separator in front is cut off. -/
theorem components_sep_append (hsep : sep ≠ []) (s : List α) :
    components sep (sep ++ s) = [] :: components sep s := by
  cases sep with
  | nil => exact absurd rfl hsep
  | cons d sep =>
      have hpre : d :: sep <+: d :: (sep ++ s) := List.prefix_append (d :: sep) s
      rw [List.cons_append, components_cut hpre]
      simp

/-- The first component of what was joined, if nothing hides where it ends. -/
theorem components_append (hsep : sep ≠ []) (h : Clear sep a) (s : List α) :
    components sep (a ++ sep ++ s) = a :: components sep s := by
  induction a with
  | nil => exact components_sep_append hsep s
  | cons c a ih =>
      obtain ⟨hnot, hclear⟩ := h
      have hnot : ¬ sep <+: c :: (a ++ sep ++ s) := by
        rw [← List.cons_append, prefix_append_iff (by simp; omega)]
        exact hnot
      rw [List.cons_append, List.cons_append, components_keep hnot, ih hclear]
      rfl

/-- Without the separator there is one component. -/
theorem components_eq_singleton (hsep : sep ≠ []) :
    components sep s = [s] ↔ ¬ sep <:+: s := by
  induction s with
  | nil => simp [components, componentsFrom, List.infix_nil, hsep]
  | cons c s ih =>
      rw [List.infix_cons_iff, not_or, ← ih]
      by_cases h : sep <+: c :: s
      · simp [components_cut h, h]
      · rw [components_keep h]
        cases hs : components sep s with
        | nil => exact absurd hs (components_ne_nil sep s)
        | cons x xs => simp [consHead, h]

/-- Where there are several components, the first one ends at a separator. -/
theorem exists_append_of_components (hsep : sep ≠ []) (h : components sep s = a :: b :: rest) :
    Clear sep a ∧ ∃ t, s = a ++ sep ++ t ∧ components sep t = b :: rest := by
  induction s generalizing a with
  | nil => simp [components, componentsFrom] at h
  | cons c s ih =>
      by_cases hpre : sep <+: c :: s
      · obtain ⟨t, ht⟩ := hpre
        rw [← ht, components_sep_append hsep] at h
        obtain ⟨rfl, hrest⟩ := List.cons.inj h
        exact ⟨trivial, t, ht.symm, hrest⟩
      · rw [components_keep hpre] at h
        cases hs : components sep s with
        | nil => exact absurd hs (components_ne_nil sep s)
        | cons x xs =>
            rw [hs] at h
            obtain ⟨rfl, rfl⟩ := List.cons.inj h
            obtain ⟨hclear, t, rfl, ht⟩ := ih hs
            refine ⟨⟨?_, hclear⟩, t, rfl, ht⟩
            rw [← List.cons_append, ← prefix_append_iff (b := t) (by simp; omega)]
            exact hpre

theorem eq_of_components (h : components sep s = [a]) : s = a := by
  induction s generalizing a with
  | nil => exact (List.cons.inj h).1
  | cons c s ih =>
      by_cases hpre : sep <+: c :: s
      · rw [components_cut hpre] at h
        exact absurd (List.cons.inj h).2 (components_ne_nil sep _)
      · rw [components_keep hpre] at h
        cases hs : components sep s with
        | nil => exact absurd hs (components_ne_nil sep s)
        | cons x xs =>
            rw [hs] at h
            obtain ⟨rfl, rfl⟩ := List.cons.inj h
            rw [ih hs]

/-- Joining undoes cutting. -/
theorem intercalate_components (hsep : sep ≠ []) (s : List α) :
    List.intercalate sep (components sep s) = s := by
  induction hcs : components sep s generalizing s with
  | nil => exact absurd hcs (components_ne_nil sep s)
  | cons a cs ih =>
      cases cs with
      | nil => rw [intercalate_singleton, eq_of_components hcs]
      | cons b rest =>
          obtain ⟨-, t, rfl, ht⟩ := exists_append_of_components hsep hcs
          rw [intercalate_cons sep a (List.cons_ne_nil b rest), ih t ht]

/-- Cutting undoes joining exactly for separable components. -/
theorem components_intercalate (hsep : sep ≠ []) :
    components sep (List.intercalate sep cs) = cs ↔ Separable sep cs := by
  induction cs with
  | nil => simp [Separable, List.intercalate, components, componentsFrom]
  | cons a cs ih =>
      cases cs with
      | nil => rw [intercalate_singleton, components_eq_singleton hsep, Separable]
      | cons b rest =>
          rw [intercalate_cons sep a (List.cons_ne_nil b rest), Separable]
          constructor
          · intro h
            obtain ⟨hclear, t, ht, hrest⟩ := exists_append_of_components hsep h
            refine ⟨hclear, ih.mp ?_⟩
            rw [List.append_cancel_left ht]
            exact hrest
          · rintro ⟨hclear, hseparable⟩
            rw [components_append hsep hclear, ih.mpr hseparable]

end

end Separated
