import Mathlib.Algebra.Order.Monoid.Defs
import Mathlib.Algebra.Order.Monoid.Unbundled.Basic
import Mathlib.Data.List.Basic

/-!
# Thinning a stream of times

The first time is selected, and then each first one that comes at least `gap` after the
one selected before. A throttle does so online, with a register for the last selected
time. One that has zero in the register for "none yet" does so too, unless zero is
itself selected and another time comes soon after it.
-/
namespace Thinning

variable {T σ α β : Type*}

section Selection

variable [AddCommMonoid T] [LinearOrder T] {gap last t : T} {ts : List T}

/-- Which of the times are selected, after the last one was. -/
def greedyFrom (gap : T) (last : Option T) : List T → List Bool
  | [] => []
  | t :: ts =>
    if ∀ s ∈ last, s + gap ≤ t then true :: greedyFrom gap (some t) ts
    else false :: greedyFrom gap last ts

def greedy (gap : T) (ts : List T) : List Bool := greedyFrom gap none ts

/-- The same with a register, where zero is no time. -/
def registerFrom (gap last : T) : List T → List Bool
  | [] => []
  | t :: ts =>
    if last = 0 ∨ last + gap ≤ t then true :: registerFrom gap t ts
    else false :: registerFrom gap last ts

/-- The times that are chosen. -/
def selected : List Bool → List T → List T
  | true :: bs, t :: ts => t :: selected bs ts
  | false :: bs, _ :: ts => selected bs ts
  | _, _ => []

/-- If the first time is zero, the second comes at least `gap` after it. -/
def ZeroIsApart (gap : T) (ts : List T) : Prop := ts.head? = some 0 → ∀ t ∈ ts[1]?, gap ≤ t

theorem greedyFrom_cons_of_le (h : last + gap ≤ t) :
    greedyFrom gap (some last) (t :: ts) = true :: greedyFrom gap (some t) ts :=
  if_pos fun _ hs => Option.some.inj hs ▸ h

theorem greedyFrom_cons_of_not_le (h : ¬ last + gap ≤ t) :
    greedyFrom gap (some last) (t :: ts) = false :: greedyFrom gap (some last) ts :=
  if_neg fun hall => h (hall last rfl)

variable [IsOrderedAddMonoid T]

theorem registerFrom_of_pos (hgap : 0 ≤ gap) (hlast : 0 < last) (ts : List T) :
    registerFrom gap last ts = greedyFrom gap (some last) ts := by
  induction ts generalizing last with
  | nil => rfl
  | cons t ts ih =>
    rw [registerFrom]
    by_cases hle : last + gap ≤ t
    · have ht : 0 < t := (add_pos_of_pos_of_nonneg hlast hgap).trans_le hle
      rw [if_pos (Or.inr hle), greedyFrom_cons_of_le hle, ih ht]
    · have hnot : ¬ (last = 0 ∨ last + gap ≤ t) := not_or.mpr ⟨hlast.ne', hle⟩
      rw [if_neg hnot, greedyFrom_cons_of_not_le hle, ih hlast]

/-- Zero in the register after the first time makes the second one selected in any case. -/
theorem registerFrom_eq_greedy_iff (hgap : 0 < gap) (hts : ∀ t ∈ ts, 0 ≤ t) :
    registerFrom gap 0 ts = greedy gap ts ↔ ZeroIsApart gap ts := by
  rcases ts with _ | ⟨t, _ | ⟨u, ts⟩⟩
  · simp [registerFrom, greedy, greedyFrom, ZeroIsApart]
  · simp [registerFrom, greedy, greedyFrom, ZeroIsApart]
  have hfirst : registerFrom gap 0 (t :: u :: ts) = true :: registerFrom gap t (u :: ts) :=
    if_pos (Or.inl rfl)
  have hgreedy : greedy gap (t :: u :: ts) = true :: greedyFrom gap (some t) (u :: ts) := by
    simp [greedy, greedyFrom]
  rw [hfirst, hgreedy, List.cons_inj_right]
  rcases (hts t List.mem_cons_self).eq_or_lt with rfl | ht
  · have hsecond : registerFrom gap 0 (u :: ts) = true :: registerFrom gap u ts := if_pos (Or.inl rfl)
    have hapart : ZeroIsApart gap (0 :: u :: ts) ↔ gap ≤ u := by simp [ZeroIsApart]
    rw [hsecond, hapart]
    by_cases hle : gap ≤ u
    · have hsum : 0 + gap ≤ u := by rwa [zero_add]
      rw [greedyFrom_cons_of_le hsum, registerFrom_of_pos hgap.le (hgap.trans_le hle)]
      exact iff_of_true rfl hle
    · have hsum : ¬ 0 + gap ≤ u := by rwa [zero_add]
      rw [greedyFrom_cons_of_not_le hsum]
      exact iff_of_false (by simp) hle
  · refine iff_of_true (registerFrom_of_pos hgap.le ht _) fun hzero => ?_
    exact absurd (Option.some.inj hzero) ht.ne'

theorem pairwise_selected_from (hgap : 0 ≤ gap) (last : Option T) (ts : List T) :
    (∀ s ∈ last, ∀ t ∈ selected (greedyFrom gap last ts) ts, s + gap ≤ t) ∧
      (selected (greedyFrom gap last ts) ts).Pairwise fun s t => s + gap ≤ t := by
  induction ts generalizing last with
  | nil => simp [greedyFrom, selected]
  | cons t ts ih =>
    rw [greedyFrom]
    split
    · rename_i hle
      obtain ⟨hafter, hpairwise⟩ := ih (some t)
      refine ⟨fun s hs => List.forall_mem_cons.mpr ⟨hle s hs, fun u hu => ?_⟩,
        List.pairwise_cons.mpr ⟨hafter t rfl, hpairwise⟩⟩
      calc s + gap ≤ t := hle s hs
        _ ≤ t + gap := le_add_of_nonneg_right hgap
        _ ≤ u := hafter t rfl u hu
    · exact ih last

/-- What is selected is `gap` apart. -/
theorem pairwise_selected_greedy (hgap : 0 ≤ gap) (ts : List T) :
    (selected (greedy gap ts) ts).Pairwise fun s t => s + gap ≤ t :=
  (pairwise_selected_from hgap none ts).2

end Selection

section Throttle

variable [AddCommMonoid T] [LinearOrder T] [DecidableEq β]

/-- Which of the inputs change the output. -/
def emissions (f : σ → α → σ) (out : σ → β) : σ → List α → List Bool
  | _, [] => []
  | s, a :: as => decide (out (f s a) ≠ out s) :: emissions f out (f s a) as

/-- In the states of `I`, the input changes the output when its time is selected, and the
register is the time selected last. -/
structure Throttles (f : σ → α → σ) (out : σ → β) (time : α → T) (last : σ → T) (gap : T)
    (I : σ → Prop) : Prop where
  keeps : ∀ s a, I s → I (f s a)
  selects : ∀ s a, I s → last s = 0 ∨ last s + gap ≤ time a →
    out (f s a) ≠ out s ∧ last (f s a) = time a
  skips : ∀ s a, I s → ¬ (last s = 0 ∨ last s + gap ≤ time a) →
    out (f s a) = out s ∧ last (f s a) = last s

theorem Throttles.emissions_eq {f : σ → α → σ} {out : σ → β} {time : α → T} {last : σ → T} {gap : T}
    {I : σ → Prop} (h : Throttles f out time last gap I) {s : σ} (hs : I s) (as : List α) :
    emissions f out s as = registerFrom gap (last s) (as.map time) := by
  induction as generalizing s with
  | nil => rfl
  | cons a as ih =>
    rw [emissions, ih (h.keeps s a hs), List.map_cons, registerFrom]
    split
    · rename_i hsel
      obtain ⟨hout, hlast⟩ := h.selects s a hs hsel
      rw [hlast, decide_eq_true hout]
    · rename_i hskip
      obtain ⟨hout, hlast⟩ := h.skips s a hs hskip
      rw [hlast, decide_eq_false (not_not.mpr hout)]

end Throttle

end Thinning
