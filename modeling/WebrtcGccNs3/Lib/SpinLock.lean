import Mathlib.Logic.Function.Basic

/-!
# Spin locks

A lock is a word that compare-and-swap takes from 0 to 1 on the way in and from 1 to 0
on the way out. The parties are any type, and so are the locks; a party holds at most
one lock at a time. `Exclusive` ties the words to the holders, and is kept by every
entry and every exit.
-/
namespace SpinLock

variable {ι κ : Type*}

/-- One turn of `while (!compare_and_swap(word, old, new))`: `none` goes round again. -/
def turn (old new word : Int) : Option Int := if word = old then some new else none

/-- Each word is 0 and nobody holds the lock, or 1 and exactly one party does. -/
def Exclusive (held : ι → Option κ) (word : κ → Int) : Prop :=
  ∀ k, (word k = 0 ∧ ∀ i, held i ≠ some k) ∨ (word k = 1 ∧ ∃! i, held i = some k)

section

variable {held held' : ι → Option κ} {word : κ → Int} {i j : ι} {k : κ}

theorem Exclusive.word_of_held (h : Exclusive held word) (hi : held i = some k) : word k = 1 := by
  rcases h k with ⟨-, hnone⟩ | ⟨hword, -⟩
  · exact absurd hi (hnone i)
  · exact hword

theorem Exclusive.unique (h : Exclusive held word) (hi : held i = some k) (hj : held j = some k) :
    i = j := by
  rcases h k with ⟨-, hnone⟩ | ⟨-, hone⟩
  · exact absurd hi (hnone i)
  · exact hone.unique hi hj

/-- The holder's way out succeeds at its first turn. -/
theorem Exclusive.turn_of_held (h : Exclusive held word) (hi : held i = some k) :
    turn 1 0 (word k) = some 0 := by
  rw [turn, if_pos (h.word_of_held hi)]

variable [DecidableEq ι]

/-- A lock that a party neither held nor takes keeps its holders. -/
theorem update_eq_some_iff {taken : Option κ} (hi : held i ≠ some k) (htaken : taken ≠ some k) :
    Function.update held i taken j = some k ↔ held j = some k := by
  by_cases hj : j = i
  · subst hj
    rw [Function.update_self]
    exact iff_of_false htaken hi
  · rw [Function.update_of_ne hj]

variable [DecidableEq κ]

theorem Exclusive.enter (h : Exclusive held word) {new : Int} (hturn : turn 0 1 (word k) = some new)
    (hi : held i = none) :
    Exclusive (Function.update held i (some k)) (Function.update word k new) := by
  have hfree : word k = 0 ∧ new = 1 := by
    rw [turn] at hturn
    split at hturn
    · next hzero => exact ⟨hzero, (Option.some.inj hturn).symm⟩
    · cases hturn
  obtain ⟨hzero, rfl⟩ := hfree
  have hnone : ∀ j, held j ≠ some k := by
    rcases h k with ⟨-, hnone⟩ | ⟨hone, -⟩
    · exact hnone
    · rw [hzero] at hone
      cases hone
  intro l
  by_cases hl : l = k
  · subst hl
    right
    refine ⟨Function.update_self .., i, Function.update_self .., fun j hj => ?_⟩
    by_contra hne
    exact hnone j (by simpa [Function.update_of_ne hne] using hj)
  · rw [Function.update_of_ne hl]
    have hold : held i ≠ some l := by simp [hi]
    have htaken : some k ≠ some l := by simpa using Ne.symm hl
    simpa only [ne_eq, update_eq_some_iff hold htaken] using h l

theorem Exclusive.leave (h : Exclusive held word) (hi : held i = some k) :
    Exclusive (Function.update held i none) (Function.update word k 0) := by
  intro l
  by_cases hl : l = k
  · subst hl
    left
    refine ⟨Function.update_self .., fun j hj => ?_⟩
    by_cases hji : j = i
    · subst hji
      rw [Function.update_self] at hj
      cases hj
    · rw [Function.update_of_ne hji] at hj
      exact hji (h.unique hj hi)
  · rw [Function.update_of_ne hl]
    have hold : held i ≠ some l := by simpa [hi] using Ne.symm hl
    have htaken : none ≠ some l := by simp
    simpa only [ne_eq, update_eq_some_iff hold htaken] using h l

end

end SpinLock
