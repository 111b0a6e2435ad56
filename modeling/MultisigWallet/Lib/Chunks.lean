import Mathlib.Data.List.Basic
import Mathlib.Data.List.ModifyLast
import Mathlib.Order.Lattice

/-!
# Chunks of a list

A list is cut into chunks of neighbours that agree on a key, in the way a loop does it: an element
goes to the last chunk if that one has its key, and else begins a new one. Every chunk carries its
key. If the keys of the list never increase, the keys of the chunks strictly decrease, so that
elements with one key are all in one chunk.
-/

namespace Chunks

variable {α κ : Type} [DecidableEq κ] {key : α → κ}

/-- Put an element behind the others. -/
def add (key : α → κ) (cs : List (κ × List α)) (a : α) : List (κ × List α) :=
  if cs.getLast?.map Prod.fst = some (key a) then cs.modifyLast fun c => (c.1, c.2 ++ [a])
  else cs ++ [(key a, [a])]

/-- The chunks of a list. -/
def ofList (key : α → κ) (as : List α) : List (κ × List α) := as.foldl (add key) []

/-- No chunk is empty, and all elements of a chunk have its key. -/
def Keyed (key : α → κ) (cs : List (κ × List α)) : Prop :=
  ∀ c ∈ cs, c.2 ≠ [] ∧ ∀ a ∈ c.2, key a = c.1

/-- The element extends the last chunk, or it begins a new one. -/
theorem add_cases (key : α → κ) (cs : List (κ × List α)) (a : α) :
    (∃ front as, cs = front ++ [(key a, as)] ∧ add key cs a = front ++ [(key a, as ++ [a])]) ∨
      ((∀ c ∈ cs.getLast?, c.1 ≠ key a) ∧ add key cs a = cs ++ [(key a, [a])]) := by
  rcases List.eq_nil_or_concat' cs with rfl | ⟨front, ⟨k, as⟩, rfl⟩
  · exact .inr ⟨by simp, rfl⟩
  · by_cases hk : k = key a
    · refine .inl ⟨front, as, by rw [hk], ?_⟩
      simp [add, hk, List.modifyLast_concat]
    · exact .inr ⟨by simp [hk], by simp [add, hk]⟩

/-- No element is lost, and the order stays. -/
theorem flatMap_add (cs : List (κ × List α)) (a : α) :
    (add key cs a).flatMap Prod.snd = cs.flatMap Prod.snd ++ [a] := by
  rcases add_cases key cs a with ⟨front, as, rfl, hadd⟩ | ⟨-, hadd⟩
  · simp [hadd]
  · simp [hadd]

theorem keyed_add {cs : List (κ × List α)} (h : Keyed key cs) (a : α) :
    Keyed key (add key cs a) := by
  intro c hc
  rcases add_cases key cs a with ⟨front, as, rfl, hadd⟩ | ⟨-, hadd⟩
  · rw [hadd] at hc
    rcases List.mem_append.mp hc with hc | hc
    · exact h c (List.mem_append_left _ hc)
    · obtain rfl := List.mem_singleton.mp hc
      have hlast := h (key a, as) (List.mem_append_right _ List.mem_cons_self)
      refine ⟨by simp, ?_⟩
      intro b hb
      rcases List.mem_append.mp hb with hb | hb
      · exact hlast.2 b hb
      · rw [List.mem_singleton.mp hb]
  · rw [hadd] at hc
    rcases List.mem_append.mp hc with hc | hc
    · exact h c hc
    · obtain rfl := List.mem_singleton.mp hc
      exact ⟨by simp, by simp⟩

theorem flatMap_foldl (cs : List (κ × List α)) (as : List α) :
    (as.foldl (add key) cs).flatMap Prod.snd = cs.flatMap Prod.snd ++ as := by
  induction as generalizing cs with
  | nil => simp
  | cons a as ih => rw [List.foldl_cons, ih, flatMap_add, List.append_assoc, List.singleton_append]

theorem flatMap_ofList (as : List α) : (ofList key as).flatMap Prod.snd = as :=
  flatMap_foldl [] as

theorem keyed_foldl {cs : List (κ × List α)} (h : Keyed key cs) (as : List α) :
    Keyed key (as.foldl (add key) cs) := by
  induction as generalizing cs with
  | nil => exact h
  | cons a as ih => exact ih (keyed_add h a)

theorem keyed_ofList (as : List α) : Keyed key (ofList key as) :=
  keyed_foldl (fun _ hc => absurd hc List.not_mem_nil) as

end Chunks

/-! ### Sorted lists -/

namespace Chunks

variable {α κ : Type} [LinearOrder κ] {key : α → κ}

theorem pairwise_add {cs : List (κ × List α)} (h : cs.Pairwise fun c d => d.1 < c.1) {a : α}
    (ha : ∀ c ∈ cs, key a ≤ c.1) : (add key cs a).Pairwise fun c d => d.1 < c.1 := by
  rcases add_cases key cs a with ⟨front, as, rfl, hadd⟩ | ⟨hlast, hadd⟩
  · rw [hadd]
    rw [List.pairwise_append] at h ⊢
    refine ⟨h.1, List.pairwise_singleton _ _, ?_⟩
    intro c hc d hd
    rw [List.mem_singleton.mp hd]
    exact h.2.2 c hc (key a, as) List.mem_cons_self
  · rw [hadd, List.pairwise_append]
    refine ⟨h, List.pairwise_singleton _ _, ?_⟩
    intro c hc d hd
    rw [List.mem_singleton.mp hd]
    -- the last chunk has another key, and the others have larger ones
    rcases List.eq_nil_or_concat' cs with rfl | ⟨front, last, rfl⟩
    · cases hc
    · have hlt : key a < last.1 :=
        lt_of_le_of_ne (ha last (by simp)) (Ne.symm (hlast last (by simp)))
      rcases List.mem_append.mp hc with hc | hc
      · exact lt_trans hlt ((List.pairwise_append.mp h).2.2 c hc last List.mem_cons_self)
      · rw [List.mem_singleton.mp hc]
        exact hlt

theorem mem_keys_add {cs : List (κ × List α)} {a : α} {c : κ × List α} (hc : c ∈ add key cs a) :
    c.1 = key a ∨ ∃ d ∈ cs, d.1 = c.1 := by
  rcases add_cases key cs a with ⟨front, as, rfl, hadd⟩ | ⟨-, hadd⟩
  · rw [hadd] at hc
    rcases List.mem_append.mp hc with hc | hc
    · exact .inr ⟨c, List.mem_append_left _ hc, rfl⟩
    · rw [List.mem_singleton.mp hc]
      exact .inl rfl
  · rw [hadd] at hc
    rcases List.mem_append.mp hc with hc | hc
    · exact .inr ⟨c, hc, rfl⟩
    · rw [List.mem_singleton.mp hc]
      exact .inl rfl

theorem pairwise_foldl {cs : List (κ × List α)} (h : cs.Pairwise fun c d => d.1 < c.1)
    {as : List α} (has : as.Pairwise fun a b => key b ≤ key a)
    (hle : ∀ c ∈ cs, ∀ a ∈ as, key a ≤ c.1) :
    (as.foldl (add key) cs).Pairwise fun c d => d.1 < c.1 := by
  induction as generalizing cs with
  | nil => exact h
  | cons a as ih =>
      obtain ⟨ha, has⟩ := List.pairwise_cons.mp has
      refine ih (pairwise_add h fun c hc => hle c hc a List.mem_cons_self) has ?_
      intro c hc b hb
      rcases mem_keys_add hc with hkey | ⟨d, hd, hkey⟩
      · rw [hkey]
        exact ha b hb
      · rw [← hkey]
        exact hle d hd b (List.mem_cons_of_mem a hb)

/-- In a list whose keys never increase, no two chunks have one key. -/
theorem pairwise_ofList {as : List α} (h : as.Pairwise fun a b => key b ≤ key a) :
    (ofList key as).Pairwise fun c d => d.1 < c.1 :=
  pairwise_foldl List.Pairwise.nil h fun _ hc => absurd hc List.not_mem_nil

end Chunks
