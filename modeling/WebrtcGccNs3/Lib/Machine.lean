import Mathlib.Order.Defs.LinearOrder
import Mathlib.Data.List.Induction

/-!
# Runs of a partial step function

A machine is a step function `σ → ι → Option σ`: an action that is not enabled
gives `none`. Nondeterminism (an environment, user code, an event order) is the
choice of the action list, so a statement about every run is a statement about
every list of actions. Invariants are proved for one step and carried to whole
runs here, once.
-/
namespace Machine

variable {σ ι τ κ : Type*}

/-- Take the actions in order; `none` as soon as one of them is not enabled. -/
def run (step : σ → ι → Option σ) : σ → List ι → Option σ
  | s, [] => some s
  | s, i :: is => (step s i).bind (run step · is)

/-- Every step of the run is taken from a state and by an action that `C` allows. -/
def AllSteps (step : σ → ι → Option σ) (C : σ → ι → Prop) : σ → List ι → Prop
  | _, [] => True
  | s, i :: is => C s i ∧ (step s i).elim True (AllSteps step C · is)

instance decidableElimTrue {p : σ → Prop} [DecidablePred p] (o : Option σ) : Decidable (o.elim True p) :=
  match o with
  | none => inferInstanceAs (Decidable True)
  | some s => inferInstanceAs (Decidable (p s))

instance decidableAllSteps (step : σ → ι → Option σ) (C : σ → ι → Prop)
    [∀ s i, Decidable (C s i)] : ∀ s is, Decidable (AllSteps step C s is)
  | _, [] => inferInstanceAs (Decidable True)
  | s, i :: is =>
    have : DecidablePred (AllSteps step C · is) := fun s' => decidableAllSteps step C s' is
    inferInstanceAs (Decidable (C s i ∧ (step s i).elim True (AllSteps step C · is)))

def Reachable (step : σ → ι → Option σ) (s s' : σ) : Prop :=
  ∃ is, run step s is = some s'

section Run

variable {step : σ → ι → Option σ} {C : σ → ι → Prop} {s s' s'' : σ} {i : ι} {is js : List ι}

@[simp] theorem run_nil : run step s [] = some s := rfl

theorem run_cons : run step s (i :: is) = (step s i).bind (run step · is) := rfl

theorem run_cons_eq_some :
    run step s (i :: is) = some s'' ↔ ∃ s', step s i = some s' ∧ run step s' is = some s'' := by
  rw [run_cons, Option.bind_eq_some_iff]

theorem run_append : run step s (is ++ js) = (run step s is).bind (run step · js) := by
  induction is generalizing s with
  | nil => rfl
  | cons i is ih =>
    rw [List.cons_append, run_cons, run_cons, Option.bind_assoc]
    exact congrArg _ (funext fun _ => ih)

theorem run_append_eq_some :
    run step s (is ++ js) = some s'' ↔ ∃ s', run step s is = some s' ∧ run step s' js = some s'' := by
  rw [run_append, Option.bind_eq_some_iff]

theorem run_snoc_eq_some :
    run step s (is ++ [i]) = some s'' ↔ ∃ s', run step s is = some s' ∧ step s' i = some s'' := by
  rw [run_append_eq_some]
  simp [run_cons_eq_some]

theorem Reachable.refl : Reachable step s s := ⟨[], rfl⟩

theorem Reachable.of_step (h : step s i = some s') : Reachable step s s' :=
  ⟨[i], run_cons_eq_some.mpr ⟨s', h, rfl⟩⟩

theorem Reachable.trans (h : Reachable step s s') (h' : Reachable step s' s'') :
    Reachable step s s'' := by
  obtain ⟨is, h⟩ := h
  obtain ⟨js, h'⟩ := h'
  exact ⟨is ++ js, run_append_eq_some.mpr ⟨s', h, h'⟩⟩

@[simp] theorem allSteps_nil : AllSteps step C s [] := trivial

theorem allSteps_cons : AllSteps step C s (i :: is) ↔
    C s i ∧ ∀ s', step s i = some s' → AllSteps step C s' is := by
  rw [AllSteps]
  cases step s i <;> simp

theorem AllSteps.and {D : σ → ι → Prop} (h : AllSteps step C s is) (h' : AllSteps step D s is) :
    AllSteps step (fun s i => C s i ∧ D s i) s is := by
  induction is generalizing s with
  | nil => trivial
  | cons i is ih =>
    obtain ⟨hc, h⟩ := allSteps_cons.mp h
    obtain ⟨hd, h'⟩ := allSteps_cons.mp h'
    exact allSteps_cons.mpr ⟨⟨hc, hd⟩, fun s' hs => ih (h s' hs) (h' s' hs)⟩

/-- A condition on the actions alone. -/
theorem allSteps_of_forall_mem (h : ∀ i ∈ is, ∀ s, C s i) (s : σ) : AllSteps step C s is := by
  induction is generalizing s with
  | nil => trivial
  | cons i is ih =>
    obtain ⟨hi, his⟩ := List.forall_mem_cons.mp h
    exact allSteps_cons.mpr ⟨hi s, fun s' _ => ih his s'⟩

/-- Each action of the run is allowed in the state in which it is taken. -/
theorem allSteps_iff : AllSteps step C s is ↔
    ∀ js i t, js ++ [i] <+: is → run step s js = some t → C t i := by
  induction is generalizing s with
  | nil => simp
  | cons k is ih =>
    rw [allSteps_cons]
    constructor
    · rintro ⟨hk, hrest⟩ js i t hpre ht
      cases js with
      | nil =>
        obtain rfl : i = k := (List.cons_prefix_cons.mp hpre).1
        exact Option.some.inj ht ▸ hk
      | cons j js =>
        rw [List.cons_append, List.cons_prefix_cons] at hpre
        obtain ⟨rfl, hpre⟩ := hpre
        obtain ⟨s', hs, ht⟩ := run_cons_eq_some.mp ht
        exact ih.mp (hrest s' hs) js i t hpre ht
    · intro h
      refine ⟨h [] k s (by simp) rfl, fun s' hs => ih.mpr fun js i t hpre ht => ?_⟩
      exact h (k :: js) i t (List.cons_prefix_cons.mpr ⟨rfl, hpre⟩) (run_cons_eq_some.mpr ⟨s', hs, ht⟩)

theorem AllSteps.of_prefix (h : AllSteps step C s is) (hpre : js <+: is) : AllSteps step C s js :=
  allSteps_iff.mpr fun ks i t hks ht => allSteps_iff.mp h ks i t (hks.trans hpre) ht

theorem AllSteps.snoc (h : AllSteps step C s is) (hlast : ∀ t, run step s is = some t → C t i) :
    AllSteps step C s (is ++ [i]) := by
  induction is generalizing s with
  | nil => exact allSteps_cons.mpr ⟨hlast s rfl, fun _ _ => trivial⟩
  | cons j is ih =>
    obtain ⟨hj, h⟩ := allSteps_cons.mp h
    refine allSteps_cons.mpr ⟨hj, fun s' hs => ih (h s' hs) fun t ht => ?_⟩
    exact hlast t (run_cons_eq_some.mpr ⟨s', hs, ht⟩)

/-- What each allowed step preserves, an allowed run preserves. -/
theorem invariant_of_allSteps {I : σ → Prop}
    (hstep : ∀ s i s', I s → C s i → step s i = some s' → I s')
    (hI : I s) (hC : AllSteps step C s is) (hrun : run step s is = some s') : I s' := by
  induction is generalizing s with
  | nil => exact Option.some.inj hrun ▸ hI
  | cons i is ih =>
    obtain ⟨t, ht, hrun⟩ := run_cons_eq_some.mp hrun
    obtain ⟨hc, hC⟩ := allSteps_cons.mp hC
    exact ih (hstep s i t hI hc ht) (hC t ht) hrun

/-- What every step preserves holds of every state that a run reaches. -/
theorem invariant {I : σ → Prop} (hstep : ∀ s i s', I s → step s i = some s' → I s')
    (hI : I s) (hrun : run step s is = some s') : I s' :=
  invariant_of_allSteps (C := fun _ _ => True) (fun s i s' h _ => hstep s i s' h) hI
    (allSteps_of_forall_mem (fun _ _ _ => trivial) s) hrun

/-- An invariant of the state and of the actions taken so far. -/
theorem invariant_of_history {I : List ι → σ → Prop} (hinit : I [] s)
    (hstep : ∀ js i t t', js ++ [i] <+: is → run step s js = some t → I js t → step t i = some t' →
      I (js ++ [i]) t')
    (hrun : run step s is = some s') : I is s' := by
  induction is using List.reverseRecOn generalizing s' with
  | nil => exact Option.some.inj hrun ▸ hinit
  | append_singleton is i ih =>
    obtain ⟨t, ht, hs⟩ := run_snoc_eq_some.mp hrun
    have hI := ih (fun js k t t' hpre => hstep js k t t' (hpre.trans (List.prefix_append is [i]))) ht
    exact hstep is i t s' (List.prefix_refl _) ht hI hs

end Run

section Simulation

variable {step : σ → ι → Option σ} {astep : τ → κ → Option τ}

/-- If each step from a state of the invariant is a run of the abstract machine
under `abs`, so is each run. -/
theorem simulate {I : σ → Prop} (abs : σ → τ)
    (hinv : ∀ s i s', I s → step s i = some s' → I s')
    (hsim : ∀ s i s', I s → step s i = some s' → Reachable astep (abs s) (abs s'))
    {s s' : σ} {is : List ι} (hI : I s) (hrun : run step s is = some s') :
    Reachable astep (abs s) (abs s') := by
  induction is generalizing s with
  | nil =>
    rw [Option.some.inj hrun]
    exact Reachable.refl
  | cons i is ih =>
    obtain ⟨t, ht, hrun⟩ := run_cons_eq_some.mp hrun
    exact (hsim s i t hI ht).trans (ih (hinv s i t hI ht) hrun)

end Simulation

end Machine
