import Mathlib.Algebra.BigOperators.Group.List.Basic
import Mathlib.Algebra.Order.Ring.Nat

/-!
# Sums over an ordered map

A number for each value of a map, summed over the map. An insertion replaces the number
of the old value at the key by that of the new one.
-/
namespace MapSum

variable {κ α : Type*} [Ord κ]

/-- The sum of `f` over the values. -/
def sum (f : α → ℕ) (m : Std.TreeMap κ α) : ℕ := (m.toList.map fun e => f e.2).sum

@[simp] theorem sum_empty (f : α → ℕ) : sum f (∅ : Std.TreeMap κ α) = 0 := rfl

variable [Std.TransOrd κ] [Std.LawfulEqOrd κ] [DecidableEq κ]

/-- Where keys are distinct, at most one entry has a given key. -/
theorem sum_entries (f : α → ℕ) (k : κ) {entries : List (κ × α)}
    (hdistinct : entries.Pairwise (fun a b => ¬ compare a.1 b.1 = .eq)) :
    (entries.map fun e => f e.2).sum =
      ((entries.filter fun e => !(k == e.1)).map fun e => f e.2).sum +
        ((entries.find? fun e => k == e.1).map fun e => f e.2).getD 0 := by
  induction entries with
  | nil => rfl
  | cons e entries ih =>
    obtain ⟨hfirst, hrest⟩ := List.pairwise_cons.mp hdistinct
    by_cases he : k = e.1
    · have hnone : entries.filter (fun e => !(k == e.1)) = entries := by
        apply List.filter_eq_self.mpr
        intro e' he'
        have hne : k ≠ e'.1 := fun heq => hfirst e' he' (by rw [← he, ← heq]; exact Std.compare_self)
        simpa using hne
      rw [List.filter_cons_of_neg (by simp [he]), hnone, List.find?_cons_of_pos (by simp [he])]
      simp [Nat.add_comm]
    · rw [List.filter_cons_of_pos (by simpa using he), List.find?_cons_of_neg (by simpa using he)]
      rw [List.map_cons, List.sum_cons, List.map_cons, List.sum_cons, ih hrest, Nat.add_assoc]

theorem find?_toList (m : Std.TreeMap κ α) (k : κ) :
    (m.toList.find? fun e => k == e.1).map (·.2) = m[k]? := by
  cases hfind : m.toList.find? fun e => k == e.1 with
  | some e =>
    obtain ⟨k', v⟩ := e
    have hkey : k = k' := by simpa using List.find?_some hfind
    subst hkey
    exact (Std.TreeMap.mem_toList_iff_getElem?_eq_some.mp (List.mem_of_find?_eq_some hfind)).symm
  | none =>
    symm
    rw [Option.map_none, Option.eq_none_iff_forall_ne_some]
    intro v hv
    have hmem := Std.TreeMap.mem_toList_iff_getElem?_eq_some.mpr hv
    simpa using List.find?_eq_none.mp hfind _ hmem

theorem sum_insert (f : α → ℕ) (m : Std.TreeMap κ α) (k : κ) (v : α) :
    sum f (m.insert k v) + (m[k]?.map f).getD 0 = sum f m + f v := by
  have hperm := (Std.TreeMap.toList_insert_perm (t := m) (k := k) (v := v)).map fun e => f e.2
  have hold := sum_entries f k (Std.TreeMap.distinct_keys_toList (t := m))
  rw [sum, hperm.sum_eq, sum, hold, ← find?_toList, Option.map_map]
  have hfilter : (m.toList.filter fun e => decide ¬(k == e.1) = true) =
      m.toList.filter fun e => !(k == e.1) := by
    apply List.filter_congr
    intro e _
    by_cases hk : k = e.1 <;> simp [hk]
  simp only [List.map_cons, List.sum_cons, hfilter, Function.comp_def]
  omega

end MapSum
