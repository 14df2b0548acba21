import Mathlib.Algebra.BigOperators.Group.List.Basic
import Mathlib.Algebra.Order.Ring.Nat

/-!
# A budget with debts

Each item has a target. Some items take a multiple of it, and what they take too much is
a debt. The others pay, each at most half of its own target. In the end everything that
was taken is what was granted, and the debt.
-/
namespace Budget

/-- An item takes a multiple of its target, or pays. -/
structure Item where
  borrows : Bool
  target : ℕ

/-- What an item takes at this debt. -/
def take (factor debt : ℕ) (item : Item) : ℕ :=
  if item.borrows then factor * item.target else item.target - min (item.target / 2) debt

/-- The debt after an item. -/
def owed (factor debt : ℕ) (item : Item) : ℕ :=
  if item.borrows then debt + (factor - 1) * item.target else debt - min (item.target / 2) debt

def takes (factor : ℕ) : ℕ → List Item → List ℕ
  | _, [] => []
  | debt, item :: items => take factor debt item :: takes factor (owed factor debt item) items

def debtAfter (factor debt : ℕ) (items : List Item) : ℕ := items.foldl (owed factor) debt

variable {factor debt : ℕ} {item : Item} {items items' : List Item}

@[simp] theorem debtAfter_nil : debtAfter factor debt [] = debt := rfl

@[simp] theorem debtAfter_cons :
    debtAfter factor debt (item :: items) = debtAfter factor (owed factor debt item) items := rfl

theorem debtAfter_append : debtAfter factor debt (items ++ items') =
    debtAfter factor (debtAfter factor debt items) items' := List.foldl_append

theorem takes_append : takes factor debt (items ++ items') =
    takes factor debt items ++ takes factor (debtAfter factor debt items) items' := by
  induction items generalizing debt with
  | nil => rfl
  | cons item items ih => rw [List.cons_append, takes, takes, ih, debtAfter_cons, List.cons_append]

theorem take_add_debt (hfactor : 1 ≤ factor) :
    take factor debt item + debt = item.target + owed factor debt item := by
  obtain ⟨rest, rfl⟩ := Nat.exists_eq_add_of_le hfactor
  unfold take owed
  split
  · rw [Nat.add_sub_cancel_left, Nat.add_mul]
    omega
  · omega

/-- What was taken, and the debt at the start, are the targets, and the debt at the end. -/
theorem sum_takes (hfactor : 1 ≤ factor) : (takes factor debt items).sum + debt =
    (items.map (·.target)).sum + debtAfter factor debt items := by
  induction items generalizing debt with
  | nil => simp [takes]
  | cons item items ih =>
    have hitem : take factor debt item + debt = item.target + owed factor debt item :=
      take_add_debt hfactor
    have hrest : (takes factor (owed factor debt item) items).sum + owed factor debt item =
      (items.map (·.target)).sum + debtAfter factor (owed factor debt item) items := ih
    rw [takes, List.sum_cons, List.map_cons, List.sum_cons, debtAfter_cons]
    omega

/-- Items that pay take off half of their targets, as long as there is a debt. -/
theorem debtAfter_of_paying (h : ∀ item ∈ items, item.borrows = false) :
    debtAfter factor debt items = debt - (items.map fun item => item.target / 2).sum := by
  induction items generalizing debt with
  | nil => simp
  | cons item items ih =>
    obtain ⟨hitem, hrest⟩ := List.forall_mem_cons.mp h
    rw [debtAfter_cons, ih hrest, List.map_cons, List.sum_cons, owed, hitem]
    simp only [Bool.false_eq_true, if_false]
    omega

/-- Who pays still takes half of the target or more. -/
theorem take_paying (factor debt target : ℕ) :
    target - target / 2 ≤ take factor debt ⟨false, target⟩ ∧
      take factor debt ⟨false, target⟩ ≤ target := by
  simp only [take, Bool.false_eq_true, if_false]
  omega

theorem forall₂_takes :
    List.Forall₂ (fun item taken => ∃ debt, taken = take factor debt item) items
      (takes factor debt items) := by
  induction items generalizing debt with
  | nil => exact .nil
  | cons item items ih => exact .cons ⟨debt, rfl⟩ ih

/-- With bounded targets the debt grows by at most so much for each item. -/
theorem debtAfter_le {bound : ℕ} (h : ∀ item ∈ items, item.target ≤ bound) :
    debtAfter factor debt items ≤ debt + (factor - 1) * bound * items.length := by
  induction items generalizing debt with
  | nil => simp
  | cons item items ih =>
    obtain ⟨hitem, hrest⟩ := List.forall_mem_cons.mp h
    have howed : owed factor debt item ≤ debt + (factor - 1) * bound := by
      have hmul : (factor - 1) * item.target ≤ (factor - 1) * bound := Nat.mul_le_mul_left _ hitem
      unfold owed
      split <;> omega
    calc debtAfter factor debt (item :: items)
        ≤ owed factor debt item + (factor - 1) * bound * items.length := ih hrest
      _ ≤ debt + (factor - 1) * bound + (factor - 1) * bound * items.length := by omega
      _ = debt + (factor - 1) * bound * (item :: items).length := by
        rw [List.length_cons, Nat.mul_add, Nat.mul_one]
        omega

end Budget
