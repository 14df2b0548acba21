import WebrtcGccNs3.Sim.CallStack
import WebrtcGccNs3.Sim.RunnerTimes

/-!
# The timer chain

`OnTaskTimer` leaves no registered runner due, and schedules itself for the earliest
one, unless none has a next run time. Nothing else touches the timer. So outside it the
pending event covers each time that a runner has stored, but for the times that runners
have been asked for since: by posts of other events, and by whatever code these run when
they yield. `RunReady` in such a yield computes next run times from stored ones, and so
adds none of its own.
-/
namespace WebrtcGccNs3.Sim

/-- The activation is one of `RunReady` of the runner. -/
def Frame.IsRunReady {α : Type} (r : Nat) : Frame α → Prop
  | .runReady r' _ => r' = r
  | _ => False

instance {α : Type} (r : Nat) : DecidablePred (Frame.IsRunReady (α := α) r)
  | .runReady r' _ => Nat.decEq r' r
  | .external | .onTaskTimer _ | .runReadyRunners _ | .yieldExecution _ | .send _ _ => isFalse id

/-- No `RunReady` of the runner is under way. -/
def Idle {α : Type} (stack : List (Frame α)) (r : Nat) : Prop := ∀ f ∈ stack, ¬ f.IsRunReady r

instance {α : Type} (stack : List (Frame α)) : DecidablePred (Idle stack) := fun r =>
  inferInstanceAs (Decidable (∀ f ∈ stack, ¬ f.IsRunReady r))

namespace TimeController

section NextRunTime

variable {ρ α ν ι : Type} {S : Setup ρ α ν ι} {s : TimeController ρ α ν ι}

end NextRunTime

variable {τ μ : Type} [DecidableEq μ] {mainThread : Nat} {stopUs : Int}
variable {s s' : SimulationTimeController τ μ} {a : Act Int (RunnerCall τ μ)}

/-- Runners register where they are made, and `Start` of a process thread overlooks no task. -/
def InScope (s : SimulationTimeController τ μ) : Act Int (RunnerCall τ μ) → Prop
  | .register r => (s.object r).Unused
  | .call r op => Idle s.stack r → (s.object r).StartCovers s.now op
  | _ => True

instance (s : SimulationTimeController τ μ) (a : Act Int (RunnerCall τ μ)) : Decidable (InScope s a) :=
  match a with
  | .register r => inferInstanceAs (Decidable (s.object r).Unused)
  | .call r op => inferInstanceAs (Decidable (Idle s.stack r → (s.object r).StartCovers s.now op))
  | .fireTimer | .timerTest | .external _ | .externalReturns | .scan | .runNext | .resume _
  | .unregister _ | .yieldExecution | .yieldReturns | .send _ | .sendReturns =>
    inferInstanceAs (Decidable True)

/-- An `OnTaskTimer` is pending that comes in time for the next run time, or `lateness` after it. -/
def TimerCovers (s : SimulationTimeController τ μ) (lateness : Int) (next : Timestamp) : Prop :=
  ∃ time ∈ s.timers, .micros (time - lateness) ≤ max (.micros s.now) next

/-- The runner has been asked for `T` outside `OnTaskTimer`, since it last fired. -/
def AskedSince (s : SimulationTimeController τ μ) (r : Nat) (T : Timestamp) : Prop :=
  ∃ now prompt, (r, now, prompt) ∈ s.prompts ∧ Runner.Asked now prompt T

/-- The time is covered, or the runner has been asked for it since. -/
def Accounted (s : SimulationTimeController τ μ) (r : Nat) (T : Timestamp) : Prop :=
  s.TimerCovers (s.object r).lateness T ∨ s.AskedSince r T

/-- The next run time is a time that is accounted for, or `lateness` after it. -/
def NextAccounted (s : SimulationTimeController τ μ) (r : Nat) : Prop :=
  ∃ T, s.Accounted r T ∧ T ≤ (s.object r).getNextRunTime ∧
    (s.object r).getNextRunTime ≤ T.plusMicros (s.object r).lateness

/-- All times of the registered runners are accounted for. -/
structure Known (idle : Nat → Prop) (s : SimulationTimeController τ μ) : Prop where
  stored : ∀ r ∈ s.runners, ∀ T, (s.object r).Stores s.now T → T ≠ .plusInfinity → s.Accounted r T
  next : ∀ r ∈ s.runners, idle r → (s.object r).getNextRunTime ≠ .plusInfinity → s.NextAccounted r

/-! ## The cover of a time -/

section Proceed

variable {r : Nat} {given : Timestamp → Prop} {progress : Progress (Runner τ μ) (RunnerLocals τ μ)}

end Proceed

section Call

variable {r : Nat} {op : RunnerCall τ μ}

end Call

/-! ## Steps and runs -/

/-- The invariant outside `OnTaskTimer`, from its first firing up to the stop. -/
def Chained (stopUs : Int) (s : SimulationTimeController τ μ) : Prop :=
  s.fired = true → s.now < stopUs → Outside s.stack → Known (Idle s.stack) s

/-- The part of a millisecond that a thread adds depends on when it runs. At 1.999 ms it asks to be
called at 10.999 ms for a message due at 10 ms, and at 5 ms, when another event posts to it and yields,
at 10 ms. -/
example : ∃ s : SimulationTimeController Nat Nat,
    Machine.run (step (simulation 0 1000000)) (initial (simulation 0 1000000) 1999 fun _ => .thread {})
      [.external 0, .register 1, .call 1 (.postDelayed 10 7), .call 1 (.post 8), .externalReturns,
        .fireTimer, .scan, .runNext, .resume 0, .scan, .timerTest, .external 5000, .call 1 (.post 9),
        .yieldExecution, .scan, .runNext, .resume 0, .scan, .yieldReturns, .externalReturns] = some s ∧
    s.timers = [10999] ∧ (s.object 1).getNextRunTime = .micros 10000 := ⟨_, rfl, rfl, rfl⟩

end TimeController

end WebrtcGccNs3.Sim
