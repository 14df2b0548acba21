import WebrtcGccNs3.Sim.TaskQueue

/-!
# SimulatedProcessThread

The process thread of simulated-process-thread.cc: a task queue with delays and a
set of modules, each called again when its own `TimeUntilNextProcess` says. Tasks
and modules are opaque. Answers of `TimeUntilNextProcess` (milliseconds) come from
outside; that call and `ProcessThreadAttached` are taken not to call back into the
thread, while `Process` and tasks may call anything.
-/
namespace WebrtcGccNs3.Sim

structure SimulatedProcessThread (τ μ : Type) where
  nextRunTime : Timestamp := .plusInfinity
  queue : List τ := []
  delayedTasks : BucketMap Timestamp τ := ∅
  processThreadRunning : Bool := false
  stoppedModules : List μ := []
  delayedModules : BucketMap Timestamp μ := ∅

/-- A virtual call that the thread makes on a module. The attachment is `this` or `nullptr`. -/
inductive ModuleCall (μ : Type) where
  | process (module : μ)
  | timeUntilNextProcess (module : μ)
  | processThreadAttached (module : μ) (attached : Bool)
  deriving DecidableEq

namespace SimulatedProcessThread

variable {τ μ : Type}

/-- The locals of a `RunReady` that is in a callback: in `Process` of a module, with
the rest of `ready_modules` to do, or in a task. -/
inductive Locals (τ μ : Type) where
  | processing (module : μ) (readyModules : List μ) (atTime : Timestamp)
  | running (task : τ) (atTime : Timestamp)

def getNextRunTime (p : SimulatedProcessThread τ μ) : Timestamp := p.nextRunTime

/-- `delayed_modules_[GetNextTime(module, at_time)].push_back(module)`. -/
def delayModule (p : SimulatedProcessThread τ μ) (atTime : Timestamp) (module : μ) (answer : Int) :
    SimulatedProcessThread τ μ :=
  { p with delayedModules := p.delayedModules.push (atTime.plusMillis answer) module }

/-- The `while` loop of `RunReady`, up to the next task, or what follows the loop.
A task that does not let itself be deleted ends the program in `RTC_CHECK`. -/
def runTasks (p : SimulatedProcessThread τ μ) (atTime : Timestamp) :
    Progress (SimulatedProcessThread τ μ) (Locals τ μ) :=
  match p.queue with
  | task :: rest => .callback { p with queue := rest } (.running task atTime)
  | [] =>
    let next := p.delayedModules.firstKey?.getD .plusInfinity
    .done { p with nextRunTime := (p.delayedTasks.firstKey?.map (min next)).getD next }

/-- The loop over `delayed_tasks_`. -/
def moveDue (p : SimulatedProcessThread τ μ) (atTime : Timestamp) : SimulatedProcessThread τ μ :=
  { p with
    queue := p.queue ++ p.delayedTasks.due atTime
    delayedTasks := p.delayedTasks.dropDue atTime }

/-- The loop over `ready_modules`, up to the next module, or what follows the loop. -/
def runModules (p : SimulatedProcessThread τ μ) (atTime : Timestamp) :
    List μ → Progress (SimulatedProcessThread τ μ) (Locals τ μ)
  | module :: rest => .callback p (.processing module rest atTime)
  | [] => (p.moveDue atTime).runTasks atTime

def runReady (p : SimulatedProcessThread τ μ) (atTime : Timestamp) :
    Progress (SimulatedProcessThread τ μ) (Locals τ μ) :=
  { p with delayedModules := p.delayedModules.dropDue atTime }.runModules atTime
    (p.delayedModules.due atTime)

/-- `RunReady` after a callback has returned. After `Process`, the module's
`TimeUntilNextProcess` has given `answer`. -/
def resume (p : SimulatedProcessThread τ μ) (answer : Int) :
    Locals τ μ → Progress (SimulatedProcessThread τ μ) (Locals τ μ)
  | .processing module rest atTime => (p.delayModule atTime module answer).runModules atTime rest
  | .running _ atTime => p.runTasks atTime

/-- `Start`. The `i`-th module asked answers `answer i`. -/
def start (p : SimulatedProcessThread τ μ) (now : Int) (answer : Nat → Int) :
    SimulatedProcessThread τ μ :=
  if p.processThreadRunning then p
  else
    let started := p.stoppedModules.zipIdx.foldl
      (fun p m => p.delayModule (.micros now) m.1 (answer m.2))
      { p with processThreadRunning := true, stoppedModules := [] }
    { started with
      nextRunTime :=
        if started.queue ≠ [] then .minusInfinity
        else started.delayedModules.firstKey?.getD .plusInfinity }

def startCalls (p : SimulatedProcessThread τ μ) : List (ModuleCall μ) :=
  if p.processThreadRunning then []
  else p.stoppedModules.map (.processThreadAttached · true) ++
    p.stoppedModules.map .timeUntilNextProcess

def stop (p : SimulatedProcessThread τ μ) : SimulatedProcessThread τ μ :=
  { p with
    processThreadRunning := false
    stoppedModules := p.stoppedModules ++ p.delayedModules.values
    delayedModules := ∅ }

def stopCalls (p : SimulatedProcessThread τ μ) : List (ModuleCall μ) :=
  (p.stoppedModules ++ p.delayedModules.values).map (.processThreadAttached · false)

/-- `WakeUp`. It looks into `delayed_modules_` only, and enters the module there in any case. -/
def wakeUp [DecidableEq μ] (p : SimulatedProcessThread τ μ) (now : Int) (module : μ) (answer : Int) :
    SimulatedProcessThread τ μ :=
  { p with
    delayedModules :=
      (p.delayedModules.remove module).push ((Timestamp.micros now).plusMillis answer) module
    nextRunTime := min p.nextRunTime ((Timestamp.micros now).plusMillis answer) }

def wakeUpCalls (module : μ) : List (ModuleCall μ) := [.timeUntilNextProcess module]

def registerModule (p : SimulatedProcessThread τ μ) (now : Int) (module : μ) (answer : Int) :
    SimulatedProcessThread τ μ :=
  if p.processThreadRunning then
    { p.delayModule (.micros now) module answer with
      nextRunTime := min p.nextRunTime ((Timestamp.micros now).plusMillis answer) }
  else { p with stoppedModules := p.stoppedModules ++ [module] }

def registerModuleCalls (p : SimulatedProcessThread τ μ) (module : μ) : List (ModuleCall μ) :=
  .processThreadAttached module true ::
    if p.processThreadRunning then [.timeUntilNextProcess module] else []

def deRegisterModule [DecidableEq μ] (p : SimulatedProcessThread τ μ) (module : μ) :
    SimulatedProcessThread τ μ :=
  if p.processThreadRunning then { p with delayedModules := p.delayedModules.remove module }
  else { p with stoppedModules := p.stoppedModules.erase module }

def deRegisterModuleCalls (p : SimulatedProcessThread τ μ) (module : μ) : List (ModuleCall μ) :=
  if p.processThreadRunning then [.processThreadAttached module false] else []

def postTask (p : SimulatedProcessThread τ μ) (task : τ) : SimulatedProcessThread τ μ :=
  { p with queue := p.queue ++ [task], nextRunTime := .minusInfinity }

def postDelayedTask (p : SimulatedProcessThread τ μ) (now : Int) (task : τ) (milliseconds : UInt32) :
    SimulatedProcessThread τ μ :=
  { p with
    delayedTasks := p.delayedTasks.push (SimulatedTaskQueue.targetTime now milliseconds) task
    nextRunTime := min p.nextRunTime (SimulatedTaskQueue.targetTime now milliseconds) }

/-- The modules that a `RunReady` has taken out of `delayed_modules_` and not put back. -/
def detached : Option (Locals τ μ) → List μ
  | some (.processing module rest _) => module :: rest
  | _ => []

/-- Every task the thread holds. -/
def stored (p : SimulatedProcessThread τ μ) : List τ := p.queue ++ p.delayedTasks.values

/-- `Start` leaves the tasks alone. -/
theorem start_tasks (p : SimulatedProcessThread τ μ) (now : Int) (answer : Nat → Int) :
    (p.start now answer).queue = p.queue ∧ (p.start now answer).delayedTasks = p.delayedTasks := by
  have hfold : ∀ (ms : List (μ × Nat)) (q : SimulatedProcessThread τ μ),
      (ms.foldl (fun p m => p.delayModule (.micros now) m.1 (answer m.2)) q).queue = q.queue ∧
        (ms.foldl (fun p m => p.delayModule (.micros now) m.1 (answer m.2)) q).delayedTasks =
          q.delayedTasks := by
    intro ms
    induction ms with
    | nil => exact fun q => ⟨rfl, rfl⟩
    | cons m ms ih => exact fun q => ih (q.delayModule (.micros now) m.1 (answer m.2))
  unfold start
  split
  · exact ⟨rfl, rfl⟩
  · exact hfold _ _

end SimulatedProcessThread

open SimulatedProcessThread (Locals)

/-- What a process thread and its callers did, in order. A call of `RegisterModule`
is entered when it begins, one of `DeRegisterModule` when it returns. -/
inductive Event (μ : Type) where
  | registerModule (module : μ)
  | deRegisterModule (module : μ)
  | call (call : ModuleCall μ)
  deriving DecidableEq

/-- A process thread in its environment. Tasks are known by their posting. -/
structure ProcessThreadRun (μ : Type) where
  now : Int
  thread : SimulatedProcessThread (Posting Timestamp) μ
  /-- The locals of the `RunReady` whose callback is executing. -/
  activation : Option (Locals (Posting Timestamp) μ)
  posted : List (Posting Timestamp)
  ran : List (Posting Timestamp × Timestamp)
  /-- The modules passed to `RegisterModule` and not since to `DeRegisterModule`. -/
  registered : List μ
  log : List (Event μ)

namespace ProcessThreadRun

variable {μ : Type} [DecidableEq μ]

/-- Whatever runs, inside a callback of `RunReady` or outside, takes these actions.
`callbackReturns` ends the callback; its answer is used after `Process` only. -/
inductive Act (μ : Type) where
  | start (answer : Nat → Int)
  | stop
  | wakeUp (module : μ) (answer : Int)
  | registerModule (module : μ) (answer : Int)
  | deRegisterModule (module : μ)
  | postTask
  | postDelayedTask (milliseconds : UInt32)
  | tick (now : Int)
  | runReady
  | callbackReturns (answer : Int)

def initial (now : Int) : ProcessThreadRun μ := ⟨now, {}, none, [], [], [], []⟩

/-- Take over what a piece of `RunReady` did. -/
def proceed (s : ProcessThreadRun μ) :
    Progress (SimulatedProcessThread (Posting Timestamp) μ) (Locals (Posting Timestamp) μ) →
      ProcessThreadRun μ
  | .callback thread (.processing module rest atTime) =>
    { s with thread := thread, activation := some (.processing module rest atTime)
             log := s.log ++ [.call (.process module)] }
  | .callback thread (.running task atTime) =>
    { s with thread := thread, activation := some (.running task atTime)
             ran := s.ran ++ [(task, atTime)] }
  | .done thread => { s with thread := thread, activation := none }

def step (s : ProcessThreadRun μ) : Act μ → Option (ProcessThreadRun μ)
  | .start answer => some { s with
      thread := s.thread.start s.now answer, log := s.log ++ s.thread.startCalls.map Event.call }
  | .stop => some { s with
      thread := s.thread.stop, log := s.log ++ s.thread.stopCalls.map Event.call }
  | .wakeUp module answer => some { s with
      thread := s.thread.wakeUp s.now module answer
      log := s.log ++ (SimulatedProcessThread.wakeUpCalls module).map Event.call }
  | .registerModule module answer => some { s with
      thread := s.thread.registerModule s.now module answer
      registered := s.registered ++ [module]
      log := s.log ++ .registerModule module :: (s.thread.registerModuleCalls module).map Event.call }
  | .deRegisterModule module => some { s with
      thread := s.thread.deRegisterModule module
      registered := s.registered.erase module
      log := s.log ++ (s.thread.deRegisterModuleCalls module).map Event.call ++ [.deRegisterModule module] }
  | .postTask =>
    let task : Posting Timestamp := ⟨s.posted.length, none⟩
    some { s with thread := s.thread.postTask task, posted := s.posted ++ [task] }
  | .postDelayedTask milliseconds =>
    let task : Posting Timestamp :=
      ⟨s.posted.length, some (SimulatedTaskQueue.targetTime s.now milliseconds)⟩
    some { s with
      thread := s.thread.postDelayedTask s.now task milliseconds, posted := s.posted ++ [task] }
  | .tick now => if s.now ≤ now then some { s with now := now } else none
  | .runReady =>
    match s.activation with
    | none => some (s.proceed (s.thread.runReady (.micros s.now)))
    | some _ => none
  | .callbackReturns answer =>
    match s.activation with
    | none => none
    | some (.processing module rest atTime) =>
      some ({ s with log := s.log ++ [Event.call (.timeUntilNextProcess module)] }.proceed
        (s.thread.resume answer (.processing module rest atTime)))
    | some (.running task atTime) =>
      some (s.proceed (s.thread.resume answer (.running task atTime)))

end ProcessThreadRun

end WebrtcGccNs3.Sim
