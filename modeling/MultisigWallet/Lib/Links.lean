import Mathlib.Data.List.Nodup

/-!
# Lists as chains of links

A singly linked list without repetitions is a list, and the pointer of `p` leads to `x`
when `x` stands right after `p`. The element before another one, replacing an element in
place and removing one are the operations a linked list has; the lemmas say what each
does to the links and to the set of elements.
-/

namespace Links

variable {α β : Type*}

/-- `x` stands right after `p` somewhere in the list. -/
def LinksTo : List α → α → α → Prop
  | a :: b :: l, p, x => (a = p ∧ b = x) ∨ LinksTo (b :: l) p x
  | _, _, _ => False

instance LinksTo.decidable [DecidableEq α] : ∀ (l : List α) (p x : α), Decidable (LinksTo l p x)
  | [], _, _ => .isFalse not_false
  | [_], _, _ => .isFalse not_false
  | _ :: b :: l, p, x =>
      have := LinksTo.decidable (b :: l) p x
      inferInstanceAs (Decidable (_ ∨ _))

theorem linksTo_append {as bs : List α} {p x : α} : LinksTo (as ++ p :: x :: bs) p x := by
  induction as with
  | nil => exact .inl ⟨rfl, rfl⟩
  | cons a as ih =>
      cases as with
      | nil => exact .inr ih
      | cons b as => exact .inr ih

/-- What is linked to is in the list, behind its head. -/
theorem LinksTo.mem_tail {l : List α} {p x : α} : LinksTo l p x → x ∈ l.tail := by
  induction l with
  | nil => exact False.elim
  | cons a l ih =>
      cases l with
      | nil => exact False.elim
      | cons b l =>
          rintro (⟨-, rfl⟩ | h)
          · exact List.mem_cons_self
          · exact List.mem_of_mem_tail (ih h)

variable [DecidableEq α] [DecidableEq β]

/-- The element before the first occurrence of `x`. -/
def before? (l : List α) (x : α) : Option α :=
  match l.idxOf? x with
  | some (i + 1) => l[i]?
  | _ => none

/-- `old` replaced by `new` wherever it stands. -/
def swap (l : List α) (old new : α) : List α := l.map fun a => if a = old then new else a

/-- An element other than the head has one before it, which links to it. -/
theorem exists_before {h : α} {l : List α} {x : α} (hx : x ∈ l) (hne : x ≠ h) :
    ∃ p, before? (h :: l) x = some p ∧ LinksTo (h :: l) p x ∧ p ∈ h :: l := by
  obtain ⟨as, bs, heq, hfirst⟩ := List.eq_append_cons_of_mem (List.mem_cons_of_mem h hx)
  -- `as` is not empty, since the list starts with `h`
  rcases List.eq_nil_or_concat as with rfl | ⟨as, p, rfl⟩
  · exact absurd (List.cons.inj heq).1.symm hne
  · have hlist : h :: l = as ++ p :: x :: bs := by simpa using heq
    have hidx : (as ++ p :: x :: bs).idxOf? x = some (as.length + 1) := by
      rw [List.concat_eq_append] at hfirst
      rw [show as ++ p :: x :: bs = (as ++ [p]) ++ x :: bs by simp, List.idxOf?,
        List.findIdx?_append, List.findIdx?_eq_none_iff.mpr]
      · simp [List.findIdx?_cons]
      · intro y hy
        simpa using fun hyx : y = x => hfirst (hyx ▸ hy)
    refine ⟨p, ?_, hlist ▸ linksTo_append, hlist ▸ by simp⟩
    rw [hlist, before?, hidx]
    simp

theorem mem_of_before? {l : List α} {x p : α} (h : before? l x = some p) : x ∈ l := by
  by_contra hx
  have hnone : l.idxOf? x = none :=
    List.findIdx?_eq_none_iff.mpr fun y hy => by simpa using fun hyx : y = x => hx (hyx ▸ hy)
  rw [before?, hnone] at h
  cases h

/-- Only the head has no element before it. -/
theorem before?_cons_isSome {h : α} {l : List α} {x : α} (hx : x ∈ l) :
    (before? (h :: l) x).isSome = true ↔ x ≠ h := by
  constructor
  · intro hsome heq
    rw [before?, heq, List.idxOf?_cons, BEq.rfl] at hsome
    exact Bool.false_ne_true hsome
  · intro hne
    obtain ⟨p, hp, -⟩ := exists_before hx hne
    rw [hp]
    rfl

/-- An element that comes after `x` is still there when `x` is replaced. -/
theorem mem_replace {l : List α} {x y : α} (h : List.Sublist [x, y] l) (new : α) :
    y ∈ l.replace x new := by
  induction l with
  | nil => cases h
  | cons a l ih =>
      rw [List.replace_cons]
      by_cases hax : a = x
      · have hy : y ∈ l := by
          cases h with
          | cons _ h => exact h.subset (List.mem_cons_of_mem x List.mem_cons_self)
          | cons_cons _ h => exact h.subset List.mem_cons_self
        rw [beq_iff_eq.mpr (Eq.symm hax)]
        exact List.mem_cons_of_mem _ hy
      · have hrest : List.Sublist [x, y] l := by
          cases h with
          | cons _ h => exact h
          | cons_cons _ _ => exact absurd rfl hax
        rw [beq_eq_false_iff_ne.mpr (Ne.symm hax)]
        exact List.mem_cons_of_mem a (ih hrest)

/-- What follows in the list does not matter. -/
theorem before?_append {l : List α} {x : α} (hx : x ∈ l) (t : List α) :
    before? (l ++ t) x = before? l x := by
  have hidx : (l ++ t).idxOf? x = l.idxOf? x := by
    rw [List.idxOf?, List.findIdx?_append]
    cases h : l.findIdx? (· == x) with
    | none => exact absurd (List.findIdx?_eq_none_iff.mp h x hx) (by simp)
    | some i => rw [Option.some_or]
  unfold before?
  rw [hidx]
  split
  case h_1 i h =>
    have hlt : i + 1 < l.length := (List.findIdx?_eq_some_iff_getElem.mp h).1
    rw [List.getElem?_append_left (by omega)]
  case h_2 => rfl

theorem mem_swap {l : List α} {old new x : α} :
    x ∈ swap l old new ↔ (x = new ∧ old ∈ l) ∨ (x ∈ l ∧ x ≠ old) := by
  constructor
  · intro hx
    obtain ⟨a, ha, rfl⟩ := List.mem_map.mp hx
    by_cases hao : a = old
    · subst hao
      exact .inl ⟨if_pos rfl, ha⟩
    · rw [if_neg hao]
      exact .inr ⟨ha, hao⟩
  · rintro (⟨rfl, hold⟩ | ⟨hx, hne⟩)
    · exact List.mem_map.mpr ⟨old, hold, if_pos rfl⟩
    · exact List.mem_map.mpr ⟨x, hx, if_neg hne⟩

theorem nodup_swap {l : List α} {old new : α} (hl : l.Nodup) (hnew : new ∉ l) :
    (swap l old new).Nodup := by
  refine hl.map_on ?_
  intro a ha b hb hab
  split at hab <;> split at hab <;> simp_all

/-- Swapping in the place of the one occurrence. -/
theorem replace_eq_swap {l : List α} {old : α} (hl : l.Nodup) (new : α) :
    l.replace old new = swap l old new := by
  induction l with
  | nil => rfl
  | cons a l ih =>
      obtain ⟨ha, hl⟩ := List.nodup_cons.mp hl
      rw [List.replace_cons, swap, List.map_cons]
      by_cases hao : a = old
      · subst hao
        have hrest : swap l a new = l := by
          refine (List.map_congr_left ?_).trans (List.map_id _)
          intro b hb
          exact if_neg fun hba : b = a => ha (hba ▸ hb)
        simp only [BEq.rfl, if_true]
        exact congrArg _ hrest.symm
      · simp only [beq_eq_false_iff_ne.mpr (Ne.symm hao), if_neg hao, ih hl]
        rfl

/-! ### Through an injection -/

variable {f : α → β}

theorem idxOf?_map {l : List α} {x : α} (hf : ∀ a ∈ l, f a = f x → a = x) :
    (l.map f).idxOf? (f x) = l.idxOf? x := by
  induction l with
  | nil => rfl
  | cons a l ih =>
      have ih := ih fun b hb => hf b (List.mem_cons_of_mem a hb)
      have ha : (f a == f x) = (a == x) := by
        rw [Bool.eq_iff_iff, beq_iff_eq, beq_iff_eq]
        exact ⟨hf a List.mem_cons_self, congrArg f⟩
      rw [List.map_cons, List.idxOf?_cons, List.idxOf?_cons, ih, ha]

theorem before?_map {l : List α} {x : α} (hf : ∀ a ∈ l, f a = f x → a = x) :
    before? (l.map f) (f x) = (before? l x).map f := by
  unfold before?
  rw [idxOf?_map hf]
  split <;> simp

theorem replace_map {l : List α} {x : α} (hf : ∀ a ∈ l, f a = f x → a = x) (y : α) :
    (l.map f).replace (f x) (f y) = (l.replace x y).map f := by
  induction l with
  | nil => rfl
  | cons a l ih =>
      have ih := ih fun b hb => hf b (List.mem_cons_of_mem a hb)
      rw [List.map_cons, List.replace_cons, List.replace_cons, ih]
      by_cases hax : a = x
      · subst hax
        simp
      · have hne : f a ≠ f x := fun h => hax (hf a List.mem_cons_self h)
        simp only [beq_eq_false_iff_ne.mpr (Ne.symm hax), beq_eq_false_iff_ne.mpr hne.symm,
          List.map_cons]

theorem erase_map {l : List α} {x : α} (hf : ∀ a ∈ l, f a = f x → a = x) :
    (l.map f).erase (f x) = (l.erase x).map f := by
  induction l with
  | nil => rfl
  | cons a l ih =>
      have ih := ih fun b hb => hf b (List.mem_cons_of_mem a hb)
      rw [List.map_cons]
      by_cases hax : a = x
      · rw [hax, List.erase_cons_head, List.erase_cons_head]
      · have hne : f a ≠ f x := fun h => hax (hf a List.mem_cons_self h)
        rw [List.erase_cons_tail (not_beq_of_ne hne), List.erase_cons_tail (not_beq_of_ne hax), ih,
          List.map_cons]

end Links
