import WebrtcGccNs3.Sim.ProcessThread
import WebrtcGccNs3.Sim.Thread
import WebrtcGccNs3.Sim.Controller

/-!
# The three classes of runners

What the controller's runners are in this repository, and what outside code calls on
them. The class of an object never changes; a call that its class does not have, and
locals of another class, do not occur and change nothing.
-/
namespace WebrtcGccNs3.Sim

inductive Runner (τ μ : Type) where
  | taskQueue (queue : SimulatedTaskQueue τ)
  | processThread (thread : SimulatedProcessThread τ μ)
  | thread (thread : SimulatedThread τ)

inductive RunnerLocals (τ μ : Type) where
  | taskQueue (task : τ)
  | processThread (locals : SimulatedProcessThread.Locals τ μ)
  | thread (locals : τ × Timestamp)

inductive RunnerCall (τ μ : Type) where
  | postTask (task : τ)
  | postDelayedTask (task : τ) (milliseconds : UInt32)
  | start (answer : Nat → Int)
  | stop
  | wakeUp (module : μ) (answer : Int)
  | registerModule (module : μ) (answer : Int)
  | deRegisterModule (module : μ)
  | post (content : τ)
  | postDelayed (delayMs : Int) (content : τ)
  | postAt (targetTimeMs : Int) (content : τ)

namespace Runner

variable {τ μ : Type}

def getNextRunTime : Runner τ μ → Timestamp
  | .taskQueue q => q.getNextRunTime
  | .processThread p => p.getNextRunTime
  | .thread t => t.getNextRunTime

def isThread : Runner τ μ → Bool
  | .thread _ => true
  | _ => false

def isQuitting : Runner τ μ → Bool
  | .thread t => t.quitting
  | _ => false

def runReady (now : Int) (atTime : Timestamp) : Runner τ μ → Progress (Runner τ μ) (RunnerLocals τ μ)
  | .taskQueue q => (q.runReady atTime).map .taskQueue .taskQueue
  | .processThread p => (p.runReady atTime).map .processThread .processThread
  | .thread t => (t.runReady now atTime).map .thread .thread

def resume (now : Int) (answer : Int) :
    Runner τ μ → RunnerLocals τ μ → Progress (Runner τ μ) (RunnerLocals τ μ)
  | .taskQueue q, .taskQueue _ => q.runTasks.map .taskQueue .taskQueue
  | .processThread p, .processThread locals =>
    (p.resume answer locals).map .processThread .processThread
  | .thread t, .thread locals => (t.resume locals now).map .thread .thread
  | runner, _ => .done runner

def call [DecidableEq μ] (now : Int) : Runner τ μ → RunnerCall τ μ → Runner τ μ
  | .taskQueue q, .postTask task => .taskQueue (q.postTask task)
  | .taskQueue q, .postDelayedTask task milliseconds =>
    .taskQueue (q.postDelayedTask now task milliseconds)
  | .processThread p, .postTask task => .processThread (p.postTask task)
  | .processThread p, .postDelayedTask task milliseconds =>
    .processThread (p.postDelayedTask now task milliseconds)
  | .processThread p, .start answer => .processThread (p.start now answer)
  | .processThread p, .stop => .processThread p.stop
  | .processThread p, .wakeUp module answer => .processThread (p.wakeUp now module answer)
  | .processThread p, .registerModule module answer =>
    .processThread (p.registerModule now module answer)
  | .processThread p, .deRegisterModule module => .processThread (p.deRegisterModule module)
  | .thread t, .post content => .thread (t.post now content)
  | .thread t, .postDelayed delayMs content => .thread (t.postDelayed now delayMs content)
  | .thread t, .postAt targetTimeMs content => .thread (t.postAt targetTimeMs content)
  | .thread t, .stop => .thread t.stop
  | runner, _ => runner

/-- The runners of the simulation, as the controller sees them. -/
def sequenceRunner [DecidableEq μ] : SequenceRunner (Runner τ μ) (RunnerLocals τ μ) Int (RunnerCall τ μ) where
  getNextRunTime := getNextRunTime
  isThread := isThread
  isQuitting := isQuitting
  runReady runner now atTime := runReady now atTime runner
  resume runner locals now answer := resume now answer runner locals
  call runner now op := call now runner op

end Runner

abbrev SimulationTimeController (τ μ : Type) :=
  TimeController (Runner τ μ) (RunnerLocals τ μ) Int (RunnerCall τ μ)

/-- The constructor's arguments, with the main thread it makes. -/
def simulation {τ μ : Type} [DecidableEq μ] (mainThread : Nat) (stopUs : Int) :
    Setup (Runner τ μ) (RunnerLocals τ μ) Int (RunnerCall τ μ) :=
  ⟨Runner.sequenceRunner, mainThread, stopUs⟩

/-- The main thread is object 0, and the others are task queues, as they are made. -/
def mainAndQueues {τ μ : Type} : Nat → Runner τ μ
  | 0 => .thread {}
  | _ => .taskQueue {}

end WebrtcGccNs3.Sim
