import Mathlib.Data.List.Sort
import Mathlib.Order.MinMax

/-!
# Record values of a list

The elements that exceed a starting value and everything before them: what an
online algorithm sees that keeps only the greatest value so far. `top` is that
register, `records` the values it takes.
-/
namespace Records

variable {α : Type*} [LinearOrder α]

/-- The greatest of `m` and the elements. -/
def top (m : α) (xs : List α) : α := xs.foldl max m

def records (m : α) : List α → List α
  | [] => []
  | x :: xs => if m < x then x :: records x xs else records m xs

variable {m k x : α} {xs : List α}

@[simp] theorem top_nil : top m [] = m := rfl

@[simp] theorem top_cons : top m (x :: xs) = top (max m x) xs := rfl

@[simp] theorem top_append_singleton : top m (xs ++ [x]) = max (top m xs) x := by
  simp [top]

theorem le_top : m ≤ top m xs := by
  induction xs generalizing m with
  | nil => exact le_refl m
  | cons x xs ih => exact (le_max_left m x).trans ih

theorem le_top_of_mem (h : x ∈ xs) : x ≤ top m xs := by
  induction xs generalizing m with
  | nil => cases h
  | cons y ys ih =>
    rcases List.mem_cons.mp h with rfl | h
    · exact (le_max_right m x).trans le_top
    · exact ih h

theorem records_append_singleton :
    records m (xs ++ [x]) = records m xs ++ if top m xs < x then [x] else [] := by
  induction xs generalizing m with
  | nil => rfl
  | cons y ys ih =>
    rw [List.cons_append, records, records, top_cons]
    split
    · rename_i hy
      rw [ih, max_eq_right hy.le, List.cons_append]
    · rename_i hy
      rw [ih, max_eq_left (not_lt.mp hy)]

/-- A record is an element greater than the start and than all that come before it. -/
theorem mem_records :
    k ∈ records m xs ↔ m < k ∧ k ∈ xs ∧ ∀ j ∈ xs.takeWhile (· ≠ k), j < k := by
  induction xs generalizing m with
  | nil => simp [records]
  | cons x xs ih =>
    rw [records]
    by_cases hk : x = k
    · subst hk
      by_cases hx : m < x
      · simp [hx]
      · rw [if_neg hx, ih]
        simp [hx]
    · have hbefore : (x :: xs).takeWhile (· ≠ k) = x :: xs.takeWhile (· ≠ k) := by
        simp [hk]
      rw [hbefore, List.forall_mem_cons, List.mem_cons, or_iff_right (Ne.symm hk)]
      split
      · rename_i hx
        rw [List.mem_cons, or_iff_right (Ne.symm hk), ih]
        exact ⟨fun ⟨hlt, hmem, hall⟩ => ⟨hx.trans hlt, hmem, hlt, hall⟩,
          fun ⟨_, hmem, hlt, hall⟩ => ⟨hlt, hmem, hall⟩⟩
      · rename_i hx
        rw [ih]
        exact ⟨fun ⟨hlt, hmem, hall⟩ => ⟨hlt, hmem, (not_lt.mp hx).trans_lt hlt, hall⟩,
          fun ⟨hlt, hmem, _, hall⟩ => ⟨hlt, hmem, hall⟩⟩

theorem lt_of_mem_records (h : k ∈ records m xs) : m < k := (mem_records.mp h).1

theorem records_pairwise : (records m xs).Pairwise (· < ·) := by
  induction xs generalizing m with
  | nil => exact List.Pairwise.nil
  | cons x xs ih =>
    rw [records]
    split
    · exact List.pairwise_cons.mpr ⟨fun k hk => lt_of_mem_records hk, ih⟩
    · exact ih

theorem records_nodup : (records m xs).Nodup := records_pairwise.imp fun h => h.ne

theorem le_top_of_mem_records (h : k ∈ records m xs) : k ≤ top m xs :=
  le_top_of_mem (mem_records.mp h).2.1

/-- In an increasing list every element is a record. -/
theorem records_of_increasing (h : (m :: xs).Pairwise (· < ·)) : records m xs = xs := by
  induction xs generalizing m with
  | nil => rfl
  | cons x xs ih =>
    obtain ⟨hm, hxs⟩ := List.pairwise_cons.mp h
    rw [records, if_pos (hm x List.mem_cons_self), ih hxs]

theorem top_le (hm : m ≤ k) (h : ∀ x ∈ xs, x ≤ k) : top m xs ≤ k := by
  induction xs generalizing m with
  | nil => exact hm
  | cons x xs ih =>
    obtain ⟨hx, hxs⟩ := List.forall_mem_cons.mp h
    exact ih (max_le hm hx) hxs

theorem top_of_increasing (h : (xs ++ [x]).Pairwise (· < ·)) (hx : m ≤ x) : top m (xs ++ [x]) = x := by
  obtain ⟨-, -, hlt⟩ := List.pairwise_append.mp h
  have hle : top m xs ≤ x := top_le hx fun y hy => (hlt y hy x List.mem_cons_self).le
  rw [top_append_singleton, max_eq_right hle]

end Records
