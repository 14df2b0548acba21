import Mathlib.Data.List.Perm.Subperm
import Mathlib.Data.List.Range
import Mathlib.Data.List.Sort

/-!
# The elements at given places

What a channel has delivered, as the places of the messages in the list of those sent.
Places that are all different pick each element at most once, and increasing ones pick a
subsequence. A channel that is sent more keeps what it has delivered.
-/
namespace Places

variable {α : Type*}

/-- The elements of `xs` at these places. -/
def pick (xs : List α) (places : List ℕ) : List α := places.filterMap (xs[·]?)

variable {xs ys : List α} {places : List ℕ} {i : ℕ}

@[simp] theorem pick_nil : pick xs [] = [] := rfl

@[simp] theorem pick_concat : pick xs (places ++ [i]) = pick xs places ++ xs[i]?.toList := by
  rw [pick, List.filterMap_append, pick]
  cases h : xs[i]? <;> simp [h]

theorem pick_append (h : ∀ i ∈ places, i < xs.length) : pick (xs ++ ys) places = pick xs places := by
  apply List.filterMap_congr
  intro i hi
  exact List.getElem?_append_left (h i hi)

theorem pick_range : pick xs (List.range xs.length) = xs := by
  induction xs using List.reverseRecOn with
  | nil => rfl
  | append_singleton xs x ih =>
    rw [List.length_append, List.length_singleton, List.range_succ, pick_concat,
      pick_append (fun i hi => List.mem_range.mp hi), ih]
    simp

theorem subperm_map {β : Type*} (f : α → β) (h : xs.Subperm ys) : (xs.map f).Subperm (ys.map f) := by
  obtain ⟨found, hperm, hfound⟩ := h
  exact ⟨found.map f, hperm.map f, hfound.map f⟩

/-- Different places pick each element at most once. -/
theorem pick_subperm (hnodup : places.Nodup) (h : ∀ i ∈ places, i < xs.length) :
    (pick xs places).Subperm xs := by
  have hsub : places.Subperm (List.range xs.length) :=
    hnodup.subperm fun i hi => List.mem_range.mpr (h i hi)
  obtain ⟨found, hperm, hfound⟩ := hsub
  have hpick : (pick xs found).Sublist xs := by
    have hall := hfound.filterMap (xs[·]?)
    rwa [← pick, ← pick, pick_range] at hall
  exact ⟨pick xs found, hperm.filterMap _, hpick⟩

/-- Increasing places pick a subsequence. -/
theorem pick_sublist (hsorted : places.Pairwise (· < ·)) (h : ∀ i ∈ places, i < xs.length) :
    (pick xs places).Sublist xs := by
  have hnodup : places.Nodup := hsorted.imp fun hlt => hlt.ne
  have hsub : places.Subperm (List.range xs.length) :=
    hnodup.subperm fun i hi => List.mem_range.mpr (h i hi)
  have hfound : places.Sublist (List.range xs.length) :=
    List.sublist_of_subperm_of_pairwise hsub (hsorted.imp fun hlt => hlt.le)
      (List.pairwise_lt_range.imp fun hlt => hlt.le)
  have hall := hfound.filterMap (xs[·]?)
  rwa [← pick, ← pick, pick_range] at hall

end Places
