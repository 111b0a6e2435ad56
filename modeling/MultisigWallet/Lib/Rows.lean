import Mathlib.Data.List.Nodup

/-!
# Rows with a key

A table is a list of rows, and `key` tells them apart. `INSERT OR REPLACE` takes the row with
the same key away and adds the new one at the end.
-/

namespace Rows

variable {α κ : Type*} [DecidableEq κ] (key : α → κ) {row : α} {k k' : κ}

/-! ### A row that was taken away -/

theorem find?_removed (rows : List α) (k : κ) :
    (rows.filter (key · ≠ k)).find? (key · = k) = none := by
  rw [List.find?_eq_none]
  intro r hr
  simpa using (List.mem_filter.mp hr).2

/-- The other rows are still found. -/
theorem find?_removed_of_ne (rows : List α) (h : k' ≠ k) :
    (rows.filter (key · ≠ k)).find? (key · = k') = rows.find? (key · = k') := by
  rw [List.find?_filter]
  congr 1
  funext r
  by_cases hr : key r = k'
  · simp [hr, h]
  · simp [hr]

/-! ### A row that was replaced -/

theorem find?_replaced (rows : List α) (h : key row = k) :
    (rows.filter (key · ≠ k) ++ [row]).find? (key · = k) = some row := by
  rw [List.find?_append, find?_removed, Option.none_or]
  simp [h]

theorem find?_replaced_of_ne (rows : List α) (h : key row = k) (hne : k' ≠ k) :
    (rows.filter (key · ≠ k) ++ [row]).find? (key · = k') = rows.find? (key · = k') := by
  have hlast : [row].find? (key · = k') = none := by simp [h, hne.symm]
  rw [List.find?_append, hlast, Option.or_none]
  exact find?_removed_of_ne key rows hne

theorem nodup_replaced {rows : List α} (hrows : (rows.map key).Nodup) (h : key row = k) :
    ((rows.filter (key · ≠ k) ++ [row]).map key).Nodup := by
  rw [List.map_append, List.nodup_append]
  refine ⟨hrows.sublist (List.filter_sublist.map key), by simp, ?_⟩
  intro a ha b hb
  obtain ⟨r, hr, rfl⟩ := List.mem_map.mp ha
  obtain rfl : b = k := by simpa [h] using hb
  simpa using (List.mem_filter.mp hr).2

/-! ### Rows replaced one after the other -/

/-- `INSERT OR REPLACE`. -/
def replaced (rows : List α) (row : α) : List α := rows.filter (key · ≠ key row) ++ [row]

theorem foldl_replaced {news rows : List α} (h : (news.map key).Nodup) :
    news.foldl (replaced key) rows = rows.filter (key · ∉ news.map key) ++ news := by
  induction news generalizing rows with
  | nil => simp
  | cons new news ih =>
      obtain ⟨hnew, hnews⟩ := List.nodup_cons.mp h
      rw [List.foldl_cons, ih hnews, replaced, List.filter_append, List.filter_filter]
      have hlast : [new].filter (key · ∉ news.map key) = [new] :=
        List.filter_eq_self.mpr fun r hr => by
          obtain rfl := List.mem_singleton.mp hr
          exact decide_eq_true hnew
      rw [hlast, List.append_assoc, List.singleton_append]
      congr 1
      refine List.filter_congr fun r _ => ?_
      by_cases hr : key r = key new
      · simp [hr]
      · simp [hr]

/-- Rows that are there already only move. -/
theorem foldl_replaced_perm {news rows : List α} (hrows : (rows.map key).Nodup)
    (h : ∀ new ∈ news, new ∈ rows) : (news.foldl (replaced key) rows).Perm rows := by
  induction news generalizing rows with
  | nil => exact List.Perm.refl rows
  | cons new news ih =>
      have hnew := h new List.mem_cons_self
      have hperm : (replaced key rows new).Perm rows := by
        obtain ⟨front, back, rfl⟩ := List.append_of_mem hnew
        rw [List.map_append, List.map_cons] at hrows
        obtain ⟨hfront, hback⟩ : (∀ r ∈ front, key r ≠ key new) ∧ ∀ r ∈ back, key r ≠ key new := by
          have hmiddle := List.nodup_middle.mp hrows
          have hnot := (List.nodup_cons.mp hmiddle).1
          rw [List.mem_append, not_or] at hnot
          exact ⟨fun r hr heq => hnot.1 (List.mem_map.mpr ⟨r, hr, heq⟩),
            fun r hr heq => hnot.2 (List.mem_map.mpr ⟨r, hr, heq⟩)⟩
        rw [replaced, List.filter_append, List.filter_cons_of_neg (by simp),
          List.filter_eq_self.mpr fun r hr => decide_eq_true (hfront r hr),
          List.filter_eq_self.mpr fun r hr => decide_eq_true (hback r hr)]
        exact (List.perm_append_singleton new (front ++ back)).trans List.perm_middle.symm
      refine (ih ((hperm.map key).nodup_iff.mpr hrows) fun r hr => ?_).trans hperm
      exact hperm.mem_iff.mpr (h r (List.mem_cons_of_mem new hr))

end Rows
