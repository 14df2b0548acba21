import WebrtcGccNs3.Lib.TimedFifo
import WebrtcGccNs3.Sim.SequenceRunner

/-!
# SimulatedTaskQueue

The queue of simulated-task-queue.cc over an opaque type of tasks, and the machine
of its runs: posts at any moment, also while a task is executing, and `RunReady`
calls whose `at_time` is the clock. What `Run` returns decides who deletes the
task and nothing in the queue.
-/
namespace WebrtcGccNs3.Sim

structure SimulatedTaskQueue (τ : Type) where
  readyTasks : List τ := []
  delayedTasks : BucketMap Timestamp τ := ∅
  nextRunTime : Timestamp := .plusInfinity

namespace SimulatedTaskQueue

variable {τ : Type}

def getNextRunTime (q : SimulatedTaskQueue τ) : Timestamp := q.nextRunTime

/-- The first loop of `RunReady`: due tasks move to the end of `ready_tasks_`. -/
def moveDue (q : SimulatedTaskQueue τ) (atTime : Timestamp) : SimulatedTaskQueue τ :=
  { q with
    readyTasks := q.readyTasks ++ q.delayedTasks.due atTime
    delayedTasks := q.delayedTasks.dropDue atTime }

/-- The second loop of `RunReady`, up to the next task, or the update of
`next_run_time_` that follows it. -/
def runTasks (q : SimulatedTaskQueue τ) : Progress (SimulatedTaskQueue τ) τ :=
  match q.readyTasks with
  | ready :: rest => .callback { q with readyTasks := rest } ready
  | [] => .done { q with nextRunTime := q.delayedTasks.firstKey?.getD .plusInfinity }

def runReady (q : SimulatedTaskQueue τ) (atTime : Timestamp) :
    Progress (SimulatedTaskQueue τ) τ :=
  (q.moveDue atTime).runTasks

def postTask (q : SimulatedTaskQueue τ) (task : τ) : SimulatedTaskQueue τ :=
  { q with readyTasks := q.readyTasks ++ [task], nextRunTime := .minusInfinity }

/-- `target_time` of `PostDelayedTask`, from the clock `now` in microseconds. -/
def targetTime (now : Int) (milliseconds : UInt32) : Timestamp :=
  (Timestamp.micros now).plusMillis milliseconds.toNat

def postDelayedTask (q : SimulatedTaskQueue τ) (now : Int) (task : τ) (milliseconds : UInt32) :
    SimulatedTaskQueue τ :=
  { q with
    delayedTasks := q.delayedTasks.push (targetTime now milliseconds) task
    nextRunTime := min q.nextRunTime (targetTime now milliseconds) }

/-- Every task the queue holds. -/
def stored (q : SimulatedTaskQueue τ) : List τ := q.readyTasks ++ q.delayedTasks.values

theorem now_le_targetTime (now : Int) (milliseconds : UInt32) :
    Timestamp.micros now ≤ targetTime now milliseconds :=
  Timestamp.le_plusMillis _ (Int.natCast_nonneg _)

end SimulatedTaskQueue

/-- A task queue in its environment. Tasks are known by their posting. -/
structure TaskQueueRun where
  now : Int
  queue : SimulatedTaskQueue (Posting Timestamp)
  /-- The `at_time` of the `RunReady` whose task is executing. -/
  running : Option Timestamp
  posted : List (Posting Timestamp)
  ran : List (Posting Timestamp × Timestamp)

namespace TaskQueueRun

inductive Act where
  | postTask
  | postDelayedTask (milliseconds : UInt32)
  | tick (now : Int)
  | runReady
  | taskReturns

def initial (now : Int) : TaskQueueRun := ⟨now, {}, none, [], []⟩

/-- Take over what a piece of `RunReady(atTime)` did: it ran a task or returned. -/
def proceed (s : TaskQueueRun) (atTime : Timestamp) :
    Progress (SimulatedTaskQueue (Posting Timestamp)) (Posting Timestamp) → TaskQueueRun
  | .callback queue task =>
    { s with queue := queue, running := some atTime, ran := s.ran ++ [(task, atTime)] }
  | .done queue => { s with queue := queue, running := none }

def step (s : TaskQueueRun) : Act → Option TaskQueueRun
  | .postTask =>
    let task : Posting Timestamp := ⟨s.posted.length, none⟩
    some { s with queue := s.queue.postTask task, posted := s.posted ++ [task] }
  | .postDelayedTask milliseconds =>
    let task : Posting Timestamp :=
      ⟨s.posted.length, some (SimulatedTaskQueue.targetTime s.now milliseconds)⟩
    some { s with
      queue := s.queue.postDelayedTask s.now task milliseconds, posted := s.posted ++ [task] }
  | .tick now => if s.now ≤ now then some { s with now := now } else none
  | .runReady =>
    if s.running = none then
      some (s.proceed (.micros s.now) (s.queue.runReady (.micros s.now)))
    else none
  | .taskReturns => s.running.map fun atTime => s.proceed atTime s.queue.runTasks

/-- The timed FIFO that the queue and its history are. -/
def toFifo (s : TaskQueueRun) : TimedFifo Timestamp where
  now := .micros s.now
  ready := s.queue.readyTasks
  delayed := s.queue.delayedTasks
  drain := s.running.map (·, true)
  posted := s.posted
  ran := s.ran

theorem reachable_proceed (s : TaskQueueRun) (q : SimulatedTaskQueue (Posting Timestamp))
    (atTime : Timestamp) :
    Machine.Reachable TimedFifo.step
      { s.toFifo with ready := q.readyTasks, delayed := q.delayedTasks, drain := some (atTime, true) }
      (s.proceed atTime q.runTasks).toFifo := by
  unfold SimulatedTaskQueue.runTasks
  split
  · rename_i ready rest hr
    refine Machine.Reachable.of_step (i := .start) ?_
    simp [TimedFifo.step, hr, proceed, toFifo]
  · rename_i hr
    refine Machine.Reachable.of_step (i := .finish) ?_
    simp [TimedFifo.step, hr, proceed, toFifo]

/-- Each step of the queue is a run of the timed FIFO. -/
theorem reachable_toFifo {s s' : TaskQueueRun} {a : Act} (h : step s a = some s') :
    Machine.Reachable TimedFifo.step s.toFifo s'.toFifo := by
  cases a with
  | postTask =>
    cases h
    exact Machine.Reachable.of_step (i := .post) rfl
  | postDelayedTask milliseconds =>
    cases h
    refine Machine.Reachable.of_step
      (i := .postDelayed (SimulatedTaskQueue.targetTime s.now milliseconds)) ?_
    exact if_pos (SimulatedTaskQueue.now_le_targetTime s.now milliseconds)
  | tick now =>
    simp only [step] at h
    split at h
    · rename_i hnow
      cases h
      exact Machine.Reachable.of_step (i := .tick (.micros now))
        (if_pos (Timestamp.micros_le_micros.mpr hnow))
    · cases h
  | runReady =>
    simp only [step] at h
    split at h
    · rename_i hidle
      cases h
      have hbegin : TimedFifo.step s.toFifo .begin =
          some { s.toFifo with drain := some (.micros s.now, false) } := by
        simp [TimedFifo.step, toFifo, hidle]
      exact (Machine.Reachable.of_step hbegin).trans
        ((Machine.Reachable.of_step (i := .migrate) rfl).trans
          (reachable_proceed s (s.queue.moveDue (.micros s.now)) (.micros s.now)))
    · cases h
  | taskReturns =>
    obtain ⟨atTime, hrun, rfl⟩ := Option.map_eq_some_iff.mp h
    have hsame : s.toFifo = { s.toFifo with
        ready := s.queue.readyTasks, delayed := s.queue.delayedTasks, drain := some (atTime, true) } := by
      simp [toFifo, hrun]
    rw [hsame]
    exact reachable_proceed s s.queue atTime

theorem toFifo_reachable {s s' : TaskQueueRun} (h : Machine.Reachable step s s') :
    Machine.Reachable TimedFifo.step s.toFifo s'.toFifo := by
  obtain ⟨as, h⟩ := h
  exact Machine.simulate (I := fun _ => True) toFifo (fun _ _ _ _ _ => trivial)
    (fun _ _ _ _ hs => reachable_toFifo hs) trivial h

end TaskQueueRun

end WebrtcGccNs3.Sim
