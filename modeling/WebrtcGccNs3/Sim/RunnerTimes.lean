import WebrtcGccNs3.Sim.NextRunTime
import WebrtcGccNs3.Sim.ThreadDelay
import WebrtcGccNs3.Sim.Runner

/-!
# The times that a runner knows

A runner stores the times of its delayed tasks, modules and messages, and its next run
time is not later than they are, up to the part of a millisecond that a thread adds.
New times come from prompts only: a call lowers the next run time to the time it asks
for, and `RunReady` computes it from the stored ones. `Start` of a process thread is the
exception, as in `StartCovers`.
-/
namespace WebrtcGccNs3.Sim

namespace Runner

variable {τ μ : Type} {now : Int} {runner runner' : Runner τ μ} {T : Timestamp}

/-- The call asks the runner for `T` as its next run time. -/
def Asks (now : Int) : Runner τ μ → RunnerCall τ μ → Timestamp → Prop
  | .taskQueue _, .postTask _, T | .processThread _, .postTask _, T | .thread _, .post _, T =>
    T = .minusInfinity
  | .taskQueue _, .postDelayedTask _ milliseconds, T
  | .processThread _, .postDelayedTask _ milliseconds, T =>
    T = SimulatedTaskQueue.targetTime now milliseconds
  | .processThread p, .start answer, T => p.processThreadRunning = false ∧
    ∃ i < p.stoppedModules.length, T = (Timestamp.micros now).plusMillis (answer i)
  | .processThread _, .wakeUp _ answer, T => T = (Timestamp.micros now).plusMillis answer
  | .processThread p, .registerModule _ answer, T =>
    p.processThreadRunning = true ∧ T = (Timestamp.micros now).plusMillis answer
  | .thread _, .postDelayed delayMs _, T => T = SimulatedThread.millis (timeMillis now + delayMs)
  | .thread _, .postAt targetTimeMs _, T => T = SimulatedThread.millis targetTimeMs
  | _, _, _ => False

/-- So does the answer of `TimeUntilNextProcess`, after `Process` of a module. -/
def Asked (now : Int) :
    Prompt (Runner τ μ) (RunnerLocals τ μ) Int (RunnerCall τ μ) → Timestamp → Prop
  | .call runner op, T => runner.Asks now op T
  | .answer (.processThread (.processing _ _ _)) answer, T => T = (Timestamp.micros now).plusMillis answer
  | .answer _ _, _ => False

/-- The runner stores `T` for later. -/
def Stores (now : Int) : Runner τ μ → Timestamp → Prop
  | .taskQueue q, T => T ∈ q.delayedTasks.keys
  | .processThread p, T => T ∈ p.delayedTasks.keys ∨ T ∈ p.delayedModules.keys
  | .thread t, T => ∃ m ∈ t.messages, timeMillis now < m.due ∧ SimulatedThread.millis m.due = T

/-- By how much, in microseconds, the next run time can exceed a stored time. -/
def lateness : Runner τ μ → Int
  | .thread _ => 999
  | _ => 0

/-- The tasks of `queue_`. -/
def queued : Runner τ μ → List τ
  | .processThread p => p.queue
  | _ => []

/-- The next run time is as it should be outside `RunReady`. -/
structure OnTime (now : Int) (runner : Runner τ μ) : Prop where
  stored : ∀ T, runner.Stores now T → runner.getNextRunTime ≤ T.plusMicros runner.lateness
  queued : runner.queued ≠ [] → runner.getNextRunTime = .minusInfinity

/-- No bucket of `delayed_tasks_` is empty. -/
def Full : Runner τ μ → Prop
  | .processThread p => p.delayedTasks.Full
  | _ => True

/-- If the call is `Start` of a process thread, it overlooks no task. -/
def StartCovers (now : Int) : Runner τ μ → RunnerCall τ μ → Prop
  | .processThread p, .start answer => p.StartCovers now answer
  | _, _ => True

instance (now : Int) (runner : Runner τ μ) (op : RunnerCall τ μ) :
    Decidable (runner.StartCovers now op) := by
  unfold StartCovers
  split <;> infer_instance

/-- The runner is as it was made, as far as its times go. -/
def Unused : Runner τ μ → Prop
  | .taskQueue q => q.delayedTasks.keys = [] ∧ q.nextRunTime = .plusInfinity
  | .processThread p => p.queue.isEmpty ∧ p.delayedTasks.keys = [] ∧ p.delayedModules.keys = [] ∧
      p.nextRunTime = .plusInfinity
  | .thread t => t.messages.isEmpty ∧ t.nextRunTime = .plusInfinity

instance : DecidablePred (Unused (τ := τ) (μ := μ)) := fun runner => by
  cases runner <;> unfold Unused <;> infer_instance

def SameClass : Runner τ μ → Runner τ μ → Prop
  | .taskQueue _, .taskQueue _ | .processThread _, .processThread _ | .thread _, .thread _ => True
  | _, _ => False

/-- The locals are those of a `RunReady` of the runner's class, called at `now`. -/
def Runs (now : Int) : Runner τ μ → RunnerLocals τ μ → Prop
  | .taskQueue _, .taskQueue _ => True
  | .processThread _, .processThread (.processing _ _ atTime) => atTime = .micros now
  | .processThread _, .processThread (.running _ atTime) => atTime = .micros now
  | .thread _, .thread locals => locals.2 = .micros now
  | _, _ => False

theorem SameClass.lateness_eq (h : SameClass runner runner') : runner'.lateness = runner.lateness := by
  cases runner <;> cases runner' <;> first | rfl | exact absurd h id

theorem Unused.not_stores (h : runner.Unused) : ¬ runner.Stores now T := by
  cases runner with
  | taskQueue q => exact fun hmem => by simp [Stores, h.1] at hmem
  | processThread p => exact fun hmem => by simp [Stores, h.2.1, h.2.2.1] at hmem
  | thread t => exact fun ⟨m, hm, _⟩ => by simp [List.isEmpty_iff.mp h.1] at hm

theorem Unused.onTime (h : runner.Unused) : runner.OnTime now := by
  refine ⟨fun T hstores => absurd hstores h.not_stores, fun hqueued => ?_⟩
  cases runner with
  | processThread p => exact absurd (List.isEmpty_iff.mp h.1) hqueued
  | taskQueue q | thread t => exact absurd rfl hqueued

theorem Unused.full (h : runner.Unused) : runner.Full := by
  cases runner with
  | processThread p =>
    intro b hb
    have hnil : p.delayedTasks.buckets = [] := List.map_eq_nil_iff.mp h.2.1
    rw [hnil] at hb
    cases hb
  | taskQueue q | thread t => trivial

/-! ## Calls -/

/-- The runner keeps its times, and lowers the next run time to another. -/
structure Lowers (now : Int) (runner runner' : Runner τ μ) (T : Timestamp) : Prop where
  next : runner'.getNextRunTime = min runner.getNextRunTime T
  stored : ∀ T', runner'.Stores now T' → runner.Stores now T' ∨ T' = T
  queued : runner'.queued ≠ [] → runner.queued ≠ [] ∨ T = .minusInfinity
  full : runner.Full → runner'.Full
  sameClass : SameClass runner runner'

theorem lateness_nonneg (runner : Runner τ μ) : 0 ≤ runner.lateness := by
  cases runner <;> simp [lateness]

theorem Lowers.onTime (h : Lowers now runner runner' T) (honTime : runner.OnTime now) :
    runner'.OnTime now := by
  have hleft : runner'.getNextRunTime ≤ runner.getNextRunTime := h.next.trans_le (min_le_left _ _)
  have hright : runner'.getNextRunTime ≤ T := h.next.trans_le (min_le_right _ _)
  constructor
  · intro T' hstores
    rw [h.sameClass.lateness_eq]
    rcases h.stored T' hstores with hstores | rfl
    · exact hleft.trans (honTime.stored T' hstores)
    · exact hright.trans (Timestamp.le_plusMicros _ runner.lateness_nonneg)
  · intro hqueued
    refine le_antisymm ?_ (Timestamp.minusInfinity_le _)
    rcases h.queued hqueued with hqueued | rfl
    · exact hleft.trans (honTime.queued hqueued).le
    · exact hright

section Call

variable [DecidableEq μ]

end Call

/-! ## The pieces of `RunReady` -/

/-- A piece of `RunReady` stores no other times than those that it is given. -/
structure Keeps (now : Int) (given : Timestamp → Prop) (runner runner' : Runner τ μ) : Prop where
  stored : ∀ T, runner'.Stores now T → runner.Stores now T ∨ given T
  full : runner.Full → runner'.Full
  sameClass : SameClass runner runner'

/-- At the end the next run time is not late, and not before all that is stored. -/
structure Computed (now : Int) (runner : Runner τ μ) : Prop where
  onTime : runner.OnTime now
  stored : runner.getNextRunTime ≠ .plusInfinity →
    ∃ T, runner.Stores now T ∧ T ≤ runner.getNextRunTime

/-- Where a piece of `RunReady` gets. -/
def Piece (now : Int) (given : Timestamp → Prop) (runner : Runner τ μ) :
    Progress (Runner τ μ) (RunnerLocals τ μ) → Prop
  | .callback runner' locals => Keeps now given runner runner' ∧ runner'.Runs now locals
  | .done runner' => Keeps now given runner runner' ∧ runner'.Computed now

variable {given : Timestamp → Prop}

theorem SameClass.trans {runner'' : Runner τ μ} (h : SameClass runner runner')
    (h' : SameClass runner' runner'') : SameClass runner runner'' := by
  cases runner <;> cases runner' <;> cases runner'' <;> trivial

theorem Keeps.trans {runner'' : Runner τ μ} (h : Keeps now given runner runner')
    (h' : Keeps now given runner' runner'') : Keeps now given runner runner'' :=
  ⟨fun T hT => (h'.stored T hT).elim (h.stored T) Or.inr, fun hfull => h'.full (h.full hfull),
    h.sameClass.trans h'.sameClass⟩

end Runner

end WebrtcGccNs3.Sim
