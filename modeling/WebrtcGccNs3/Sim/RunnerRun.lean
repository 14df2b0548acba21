import WebrtcGccNs3.Lib.Machine
import WebrtcGccNs3.Sim.SequenceRunner

/-!
# Runs of one runner

A runner on its own: other code calls its member functions at any time, also from a
callback of its `RunReady`, and calls `RunReady` with any `at_time` when none is under
way. What such a run keeps of the runner's own data follows from its pieces: a
property may be broken while a `RunReady` is under way if its last piece restores it.
-/
namespace WebrtcGccNs3.Sim

structure RunnerRun (ρ α : Type) where
  runner : ρ
  /-- The locals of the `RunReady` whose callback is executing. -/
  activation : Option α

/-- Where a piece of `RunReady` leaves the runner: `P` holds in any case, `Q` at the end. -/
def Progress.Ends {ρ α : Type} (P Q : ρ → Prop) : Progress ρ α → Prop
  | .callback runner _ => P runner
  | .done runner => P runner ∧ Q runner

theorem Progress.Ends.imp {ρ α : Type} {P Q Q' : ρ → Prop} {progress : Progress ρ α}
    (h : progress.Ends P Q) (hq : ∀ r, Q r → Q' r) : progress.Ends P Q' := by
  cases progress with
  | callback runner locals => exact h
  | done runner => exact ⟨h.1, hq runner h.2⟩

namespace RunnerRun

variable {ρ α ν ι : Type}

inductive Act (ν ι : Type) where
  | call (now : Int) (op : ι)
  | runReady (now : Int) (atTime : Timestamp)
  | callbackReturns (now : Int) (answer : ν)

/-- Take over what a piece of `RunReady` did. -/
def proceed : Progress ρ α → RunnerRun ρ α
  | .callback runner locals => ⟨runner, some locals⟩
  | .done runner => ⟨runner, none⟩

def step (R : SequenceRunner ρ α ν ι) (s : RunnerRun ρ α) : Act ν ι → Option (RunnerRun ρ α)
  | .call now op => some { s with runner := R.call s.runner now op }
  | .runReady now atTime =>
    match s.activation with
    | none => some (proceed (R.runReady s.runner now atTime))
    | some _ => none
  | .callbackReturns now answer =>
    s.activation.map fun locals => proceed (R.resume s.runner locals now answer)

variable {R : SequenceRunner ρ α ν ι} {P Q : ρ → Prop} {s s' : RunnerRun ρ α} {a : Act ν ι}

/-- `P` holds of the runner, and `Q` outside `RunReady`. -/
def Holds (P Q : ρ → Prop) (s : RunnerRun ρ α) : Prop :=
  P s.runner ∧ (s.activation = none → Q s.runner)

theorem holds_proceed {progress : Progress ρ α} (h : progress.Ends P Q) :
    Holds P Q (proceed progress) := by
  cases progress with
  | callback runner locals => exact ⟨h, fun hidle => by cases hidle⟩
  | done runner => exact ⟨h.1, fun _ => h.2⟩

/-- A step of the run keeps the property, if calls keep it and the pieces of `RunReady`
end in it. -/
theorem holds_step
    (hcall : ∀ now op, Holds P Q s → a = .call now op → P (R.call s.runner now op) ∧
      (s.activation = none → Q (R.call s.runner now op)))
    (hrunReady : ∀ now atTime, P s.runner → s.activation = none → a = .runReady now atTime →
      (R.runReady s.runner now atTime).Ends P Q)
    (hresume : ∀ locals now answer, P s.runner → s.activation = some locals →
      a = .callbackReturns now answer → (R.resume s.runner locals now answer).Ends P Q)
    (h : Holds P Q s) (hs : step R s a = some s') : Holds P Q s' := by
  cases a with
  | call now op =>
    cases hs
    exact hcall now op h rfl
  | runReady now atTime =>
    simp only [step] at hs
    split at hs
    · rename_i hidle
      cases hs
      exact holds_proceed (hrunReady now atTime h.1 hidle rfl)
    · cases hs
  | callbackReturns now answer =>
    obtain ⟨locals, hlocals, rfl⟩ := Option.map_eq_some_iff.mp hs
    exact holds_proceed (hresume locals now answer h.1 hlocals rfl)

end RunnerRun

end WebrtcGccNs3.Sim
