import Mathlib.Algebra.Order.Monoid.Defs
import Mathlib.Data.List.Induction

/-!
# Events in a sliding window

A list of times is **spaced** from a position on if from there each time is at least `d` later
than the one before. If the times are in order and spaced from position `m`, then no half-open
window of length `d` holds more than `m` of them (`countP_window_le`).
-/

namespace Window

variable {T : Type*} [AddCommMonoid T] [LinearOrder T]

/-- The times from the `m`-th on are at least `d` apart. -/
def Spaced (m : Nat) (d : T) (times : List T) : Prop :=
  ∀ i a b, m ≤ i + 1 → times[i]? = some a → times[i + 1]? = some b → a + d ≤ b

theorem spaced_nil (m : Nat) (d : T) : Spaced m d [] := by
  intro i a b _ ha
  simp at ha

theorem Spaced.of_append {m : Nat} {d c : T} {times : List T} (h : Spaced m d (times ++ [c])) :
    Spaced m d times := by
  intro i a b hi ha hb
  have hlt : i + 1 < times.length := (List.getElem?_eq_some_iff.mp hb).1
  refine h i a b hi ?_ ?_
  · rw [List.getElem?_append_left (by omega)]
    exact ha
  · rw [List.getElem?_append_left hlt]
    exact hb

/-- A time may be added if it keeps its distance, or if there are not `m` of them yet. -/
theorem Spaced.append {m : Nat} {d c : T} {times : List T} (h : Spaced m d times)
    (hc : times.length < m ∨ ∀ a ∈ times.getLast?, a + d ≤ c) : Spaced m d (times ++ [c]) := by
  intro i a b hi ha hb
  obtain ⟨hlt, -⟩ := List.getElem?_eq_some_iff.mp hb
  rw [List.length_append, List.length_singleton] at hlt
  by_cases hnext : i + 1 < times.length
  · rw [List.getElem?_append_left (by omega)] at ha
    rw [List.getElem?_append_left hnext] at hb
    exact h i a b hi ha hb
  · -- the new time and the one before it
    have hlen : times.length = i + 1 := by omega
    rw [List.getElem?_append_left (by omega)] at ha
    rw [← hlen, List.getElem?_concat_length] at hb
    obtain rfl := Option.some.inj hb
    rcases hc with hc | hc
    · omega
    · refine hc a ?_
      rw [List.getLast?_eq_getElem?, hlen]
      exact ha

variable [IsOrderedCancelAddMonoid T]

theorem countP_window_le {m : Nat} {d : T} {times : List T} (hm : 1 ≤ m)
    (hsorted : times.Pairwise (· ≤ ·)) (hspaced : Spaced m d times) (x : T) :
    times.countP (fun t => decide (x ≤ t ∧ t < x + d)) ≤ m := by
  induction times using List.reverseRecOn with
  | nil => simp
  | append_singleton times c ih =>
      rw [List.pairwise_append] at hsorted
      have ih := ih hsorted.1 hspaced.of_append
      rw [List.countP_append]
      by_cases hin : x ≤ c ∧ c < x + d
      · by_cases hlen : times.length < m
        · have hcount : times.countP (fun t => decide (x ≤ t ∧ t < x + d)) ≤ times.length :=
            List.countP_le_length
          simp only [List.countP_singleton, hin, and_self, decide_true, if_true]
          omega
        · -- the time before is `d` earlier, so it and all before it are out of the window
          have hzero : times.countP (fun t => decide (x ≤ t ∧ t < x + d)) = 0 := by
            rw [List.countP_eq_zero]
            intro a ha
            obtain ⟨front, last, hcat⟩ :=
              (List.eq_nil_or_concat times).resolve_left (List.ne_nil_of_mem ha)
            rw [List.concat_eq_append] at hcat
            subst hcat
            have hle : a ≤ last := by
              rcases List.mem_append.mp ha with ha | ha
              · exact (List.pairwise_append.mp hsorted.1).2.2 a ha last (by simp)
              · exact le_of_eq (List.mem_singleton.mp ha)
            have hgap : last + d ≤ c := by
              rw [List.length_append, List.length_singleton] at hlen
              exact hspaced front.length last c (by omega) (by simp) (by simp)
            have hlt : last < x := lt_of_add_lt_add_right (lt_of_le_of_lt hgap hin.2)
            simp [not_le.mpr (lt_of_le_of_lt hle hlt)]
          simp only [List.countP_singleton, hin, and_self, decide_true, if_true]
          omega
      · simp only [List.countP_singleton, hin, decide_false]
        simpa using ih

end Window
