import WebrtcGccNs3.Lib.Machine
import WebrtcGccNs3.Sim.SequenceRunner
import Mathlib.Data.Finset.Insert
import Mathlib.Data.Finset.Erase

/-!
# SimulatedTimeControllerImpl

The controller of webrtc-simu-controller.cc with its runners, the `OnTaskTimer`
events in ns-3's queue and the call stack, all on the thread of the simulation. The
code that runners call back into takes the actions of `Act` in any order, and so
does the code of other ns-3 events. The clock moves from event to event only.
`RTC_DCHECK` is compiled out; a failing `RTC_CHECK`, and an `erase` through an
iterator to an element that is gone, have no step.
-/
namespace WebrtcGccNs3.Sim

/-- A `TaskQueueBase*`. -/
inductive TaskQueueRef where
  | null
  | dummy
  | runner (runner : Nat)
  deriving DecidableEq

/-- An activation on the call stack, with the locals it keeps. -/
inductive Frame (α : Type) where
  /-- An ns-3 event other than `OnTaskTimer`. -/
  | external
  | onTaskTimer (currentTime : Int)
  | runReadyRunners (currentTime : Int)
  /-- `RunReady` of a runner, in a callback. -/
  | runReady (runner : Nat) (locals : α)
  | yieldExecution (yieldingFrom : TaskQueueRef)
  /-- `Send` of a thread, in `OnMessage`. -/
  | send (thread : Nat) (yieldingFrom : TaskQueueRef)

/-- The time that an activation has captured is `now`. -/
def Frame.At {α : Type} (now : Int) : Frame α → Prop
  | .onTaskTimer currentTime | .runReadyRunners currentTime => currentTime = now
  | _ => True

/-- The activation is one of `OnTaskTimer`. -/
def Frame.IsOnTaskTimer {α : Type} : Frame α → Prop
  | .onTaskTimer _ => True
  | _ => False

instance {α : Type} : DecidablePred (Frame.IsOnTaskTimer (α := α)) := fun f => by
  unfold Frame.IsOnTaskTimer
  split <;> infer_instance

/-- What can give a runner a new next run time: a call of other code, with the runner as it was, or
the answer of a callback of its `RunReady`, with the locals that were kept across it. -/
inductive Prompt (ρ α ν ι : Type) where
  | call (runner : ρ) (op : ι)
  | answer (locals : α) (answer : ν)

structure TimeController (ρ α ν ι : Type) where
  now : Int
  runners : List Nat
  readyRunners : List Nat
  yielded : Finset TaskQueueRef
  /-- The runner objects, registered or not. -/
  object : Nat → ρ
  /-- The times of the `OnTaskTimer` events in ns-3's queue. -/
  timers : List Int
  /-- The call stack, innermost first. -/
  stack : List (Frame α)
  /-- `OnTaskTimer` has fired. -/
  fired : Bool
  /-- The prompts that runners have had since, outside `OnTaskTimer`, with their times. -/
  prompts : List (Nat × Int × Prompt ρ α ν ι)

/-- What a simulation is set up with. -/
structure Setup (ρ α ν ι : Type) where
  runner : SequenceRunner ρ α ν ι
  mainThread : Nat
  stopUs : Int

namespace TimeController

inductive Act (ν ι : Type) where
  | fireTimer
  | timerTest
  | external (now : Int)
  | externalReturns
  | scan
  | runNext
  | resume (answer : ν)
  | call (runner : Nat) (op : ι)
  | register (runner : Nat)
  | unregister (runner : Nat)
  | yieldExecution
  | yieldReturns
  | send (thread : Nat)
  | sendReturns

variable {ρ α ν ι : Type} (S : Setup ρ α ν ι) (s : TimeController ρ α ν ι)

def initial (startUs : Int) (object : Nat → ρ) : TimeController ρ α ν ι :=
  ⟨0, [S.mainThread], [], ∅, object, [startUs], [], false, []⟩

def getNextRunTime (r : Nat) : Timestamp := S.runner.getNextRunTime (s.object r)

/-- The loop of `NextRunTime`. -/
def nextRunTimeLoop (currentTime nextTime : Timestamp) : List Nat → Timestamp
  | [] => nextTime
  | r :: rest =>
    if getNextRunTime S s r ≤ currentTime then currentTime
    else nextRunTimeLoop currentTime (min nextTime (getNextRunTime S s r)) rest

def nextRunTime : Timestamp := nextRunTimeLoop S s (.micros s.now) .plusInfinity s.runners

/-- `TaskQueueBase::Current()`. Outside any runner it is the main thread, which has set
itself when it was made. -/
def current : List (Frame α) → TaskQueueRef
  | [] => .runner S.mainThread
  | .external :: stack | .onTaskTimer _ :: stack => current stack
  | .runReadyRunners _ :: _ => .dummy
  | .yieldExecution _ :: _ => .null
  | .runReady r _ :: _ | .send r _ :: _ => .runner r

/-- `Thread::Current()`. The `RunReady` of a runner that is no thread leaves it alone. -/
def currentThread : List (Frame α) → TaskQueueRef
  | [] => .runner S.mainThread
  | .external :: stack | .onTaskTimer _ :: stack | .yieldExecution _ :: stack => currentThread stack
  | .runReadyRunners _ :: _ => .dummy
  | .runReady r _ :: stack =>
    if S.runner.isThread (s.object r) then .runner r else currentThread stack
  | .send r _ :: _ => .runner r

/-- Code that the controller and its runners call, or another event, is in control. -/
def UserCode : List (Frame α) → Prop
  | .external :: _ | .runReady _ _ :: _ | .send _ _ :: _ => True
  | _ => False

instance : DecidablePred (UserCode (α := α)) := fun stack => by
  unfold UserCode
  split <;> infer_instance

/-- No `OnTaskTimer` is under way. -/
def Outside (stack : List (Frame α)) : Prop := ∀ f ∈ stack, ¬ f.IsOnTaskTimer

instance : DecidablePred (Outside (α := α)) := fun stack =>
  inferInstanceAs (Decidable (∀ f ∈ stack, ¬ f.IsOnTaskTimer))

/-- The prompts after one more. -/
def prompted (r : Nat) (prompt : Prompt ρ α ν ι) : List (Nat × Int × Prompt ρ α ν ι) :=
  if Outside s.stack then s.prompts ++ [(r, s.now, prompt)] else s.prompts

/-- The start of `RunReadyRunners`, as far as its loop. -/
def runReadyRunners : TimeController ρ α ν ι :=
  { s with readyRunners := [], stack := .runReadyRunners s.now :: s.stack }

/-- The `for` loop of `RunReadyRunners`: the runners it pushes. -/
def readyAt (currentTime : Int) : List Nat :=
  s.runners.filter fun r =>
    TaskQueueRef.runner r ∉ s.yielded ∧ getNextRunTime S s r ≤ .micros currentTime

/-- The end of `OnTaskTimer`: the events in ns-3's queue after it. -/
def timersAfter (currentTime : Int) : List Int :=
  match nextRunTime S s with
  | .micros us =>
    if s.now < S.stopUs then (s.now + (us - currentTime)) :: s.timers else s.timers
  | _ => s.timers

/-- Take over what a piece of the runner's `RunReady` did. -/
def proceed (r : Nat) : Progress ρ α → TimeController ρ α ν ι
  | .callback object locals =>
    { s with object := Function.update s.object r object, stack := .runReady r locals :: s.stack }
  | .done object => { s with object := Function.update s.object r object }

def step : Act ν ι → Option (TimeController ρ α ν ι)
  | .fireTimer =>
    match s.stack, s.timers.min? with
    | [], some time =>
      if s.now ≤ time then
        some (runReadyRunners { s with
          now := time, timers := s.timers.erase time, stack := [.onTaskTimer time]
          fired := true, prompts := [] })
      else none
    | _, _ => none
  | .timerTest =>
    match s.stack with
    | .onTaskTimer currentTime :: stack =>
      if nextRunTime S s ≤ .micros currentTime then some s.runReadyRunners
      else some { s with stack := stack, timers := s.timersAfter S currentTime }
    | _ => none
  | .external now =>
    if s.stack.isEmpty ∧ s.now ≤ now ∧ ∀ time ∈ s.timers, now ≤ time then
      some { s with now := now, stack := [.external] }
    else none
  | .externalReturns =>
    match s.stack with
    | [.external] => some { s with stack := [] }
    | _ => none
  | .scan =>
    match s.stack, s.readyRunners with
    | .runReadyRunners currentTime :: stack, [] =>
      if s.readyAt S currentTime = [] then some { s with stack := stack }
      else some { s with readyRunners := s.readyAt S currentTime }
    | _, _ => none
  | .runNext =>
    match s.stack, s.readyRunners with
    | .runReadyRunners currentTime :: _, r :: rest =>
      some ({ s with readyRunners := rest }.proceed r
        (S.runner.runReady (s.object r) s.now (.micros currentTime)))
    | _, _ => none
  | .resume answer =>
    match s.stack with
    | .runReady r locals :: stack =>
      some ({ s with stack := stack, prompts := s.prompted r (.answer locals answer) }.proceed r
        (S.runner.resume (s.object r) locals s.now answer))
    | _ => none
  | .call r op =>
    if UserCode s.stack then
      some { s with
        object := Function.update s.object r (S.runner.call (s.object r) s.now op)
        prompts := s.prompted r (.call (s.object r) op) }
    else none
  | .register r =>
    if UserCode s.stack then some { s with runners := s.runners ++ [r] } else none
  | .unregister r =>
    if UserCode s.stack ∧ r ∈ s.runners then
      some { s with runners := s.runners.erase r, readyRunners := s.readyRunners.erase r }
    else none
  | .yieldExecution =>
    if UserCode s.stack then
      some (runReadyRunners { s with
        yielded := insert (current S s.stack) s.yielded
        stack := .yieldExecution (current S s.stack) :: s.stack })
    else none
  | .yieldReturns =>
    match s.stack with
    | .yieldExecution yieldingFrom :: stack =>
      if yieldingFrom ∈ s.yielded then
        some { s with yielded := s.yielded.erase yieldingFrom, stack := stack }
      else none
    | _ => none
  | .send thread =>
    if UserCode s.stack ∧ S.runner.isThread (s.object thread) then
      if S.runner.isQuitting (s.object thread) ∨ currentThread S s s.stack = .runner thread then
        some s
      else some { s with
        yielded := insert (current S s.stack) s.yielded
        stack := .send thread (current S s.stack) :: s.stack }
    else none
  | .sendReturns =>
    match s.stack with
    | .send _ yieldingFrom :: stack =>
      some { s with yielded := s.yielded.erase yieldingFrom, stack := stack }
    | _ => none

/-- `RunReadyRunners` is about to call `RunReady` of the runner. -/
def Starts (r : Nat) : Prop :=
  ∃ currentTime stack rest,
    s.stack = .runReadyRunners currentTime :: stack ∧ s.readyRunners = r :: rest

section Proceed

variable (r : Nat) (progress : Progress ρ α)

@[simp] theorem proceed_now : (s.proceed r progress).now = s.now := by cases progress <;> rfl

@[simp] theorem proceed_runners : (s.proceed r progress).runners = s.runners := by
  cases progress <;> rfl

@[simp] theorem proceed_readyRunners : (s.proceed r progress).readyRunners = s.readyRunners := by
  cases progress <;> rfl

@[simp] theorem proceed_yielded : (s.proceed r progress).yielded = s.yielded := by
  cases progress <;> rfl

theorem proceed_stack : (s.proceed r progress).stack = s.stack ∨
    ∃ locals, (s.proceed r progress).stack = .runReady r locals :: s.stack := by
  cases progress with
  | callback object locals => exact Or.inr ⟨locals, rfl⟩
  | done object => exact Or.inl rfl

end Proceed

/-- What a step can do, one rule for each way it can go. -/
inductive Move : Act ν ι → TimeController ρ α ν ι → Prop where
  | fireTimer {time : Int} (hidle : s.stack = []) (hmin : s.timers.min? = some time)
      (hnow : s.now ≤ time) :
      Move .fireTimer (runReadyRunners { s with
        now := time, timers := s.timers.erase time, stack := [.onTaskTimer time]
        fired := true, prompts := [] })
  | timerAgain {currentTime : Int} {stack : List (Frame α)}
      (hstack : s.stack = .onTaskTimer currentTime :: stack)
      (hdue : nextRunTime S s ≤ .micros currentTime) : Move .timerTest s.runReadyRunners
  | timerReturns {currentTime : Int} {stack : List (Frame α)}
      (hstack : s.stack = .onTaskTimer currentTime :: stack)
      (hlater : ¬ nextRunTime S s ≤ .micros currentTime) :
      Move .timerTest { s with stack := stack, timers := s.timersAfter S currentTime }
  | external {now : Int} (hidle : s.stack = []) (hnow : s.now ≤ now)
      (horder : ∀ time ∈ s.timers, now ≤ time) :
      Move (.external now) { s with now := now, stack := [.external] }
  | externalReturns (hstack : s.stack = [.external]) : Move .externalReturns { s with stack := [] }
  | scanReturns {currentTime : Int} {stack : List (Frame α)}
      (hstack : s.stack = .runReadyRunners currentTime :: stack) (hempty : s.readyRunners = [])
      (hready : s.readyAt S currentTime = []) : Move .scan { s with stack := stack }
  | scanPushes {currentTime : Int} {stack : List (Frame α)}
      (hstack : s.stack = .runReadyRunners currentTime :: stack) (hempty : s.readyRunners = []) :
      Move .scan { s with readyRunners := s.readyAt S currentTime }
  | runNext {currentTime : Int} {stack : List (Frame α)} {r : Nat} {rest : List Nat}
      (progress : Progress ρ α) (hstack : s.stack = .runReadyRunners currentTime :: stack)
      (hready : s.readyRunners = r :: rest)
      (hprogress : S.runner.runReady (s.object r) s.now (.micros currentTime) = progress) :
      Move .runNext ({ s with readyRunners := rest }.proceed r progress)
  | resume {answer : ν} {r : Nat} {locals : α} {stack : List (Frame α)} (progress : Progress ρ α)
      (hstack : s.stack = .runReady r locals :: stack)
      (hprogress : S.runner.resume (s.object r) locals s.now answer = progress) :
      Move (.resume answer) ({ s with
        stack := stack, prompts := s.prompted r (.answer locals answer) }.proceed r progress)
  | call {r : Nat} {op : ι} (huser : UserCode s.stack) :
      Move (.call r op) { s with
        object := Function.update s.object r (S.runner.call (s.object r) s.now op)
        prompts := s.prompted r (.call (s.object r) op) }
  | register {r : Nat} (huser : UserCode s.stack) :
      Move (.register r) { s with runners := s.runners ++ [r] }
  | unregister {r : Nat} (huser : UserCode s.stack) (hmem : r ∈ s.runners) :
      Move (.unregister r) { s with
        runners := s.runners.erase r, readyRunners := s.readyRunners.erase r }
  | yieldExecution (huser : UserCode s.stack) :
      Move .yieldExecution (runReadyRunners { s with
        yielded := insert (current S s.stack) s.yielded
        stack := .yieldExecution (current S s.stack) :: s.stack })
  | yieldReturns {yieldingFrom : TaskQueueRef} {stack : List (Frame α)}
      (hstack : s.stack = .yieldExecution yieldingFrom :: stack) (hmem : yieldingFrom ∈ s.yielded) :
      Move .yieldReturns { s with yielded := s.yielded.erase yieldingFrom, stack := stack }
  | sendToSelf {thread : Nat} (huser : UserCode s.stack) : Move (.send thread) s
  | send {thread : Nat} (huser : UserCode s.stack)
      (hother : ¬ (S.runner.isQuitting (s.object thread) ∨
        currentThread S s s.stack = .runner thread)) :
      Move (.send thread) { s with
        yielded := insert (current S s.stack) s.yielded
        stack := .send thread (current S s.stack) :: s.stack }
  | sendReturns {thread : Nat} {yieldingFrom : TaskQueueRef} {stack : List (Frame α)}
      (hstack : s.stack = .send thread yieldingFrom :: stack) :
      Move .sendReturns { s with yielded := s.yielded.erase yieldingFrom, stack := stack }

variable {S s}

theorem move_of_step {s' : TimeController ρ α ν ι} {a : Act ν ι} (h : step S s a = some s') :
    Move S s a s' := by
  cases a with
  | fireTimer =>
    simp only [step] at h
    split at h
    · rename_i time hidle hmin
      split at h
      · rename_i hnow
        cases h
        exact .fireTimer hidle hmin hnow
      · cases h
    · cases h
  | timerTest =>
    simp only [step] at h
    split at h
    · rename_i currentTime stack hstack
      split at h
      · rename_i hdue
        cases h
        exact .timerAgain hstack hdue
      · rename_i hlater
        cases h
        exact .timerReturns hstack hlater
    · cases h
  | external now =>
    simp only [step] at h
    split at h
    · rename_i hidle
      cases h
      exact .external (List.isEmpty_iff.mp hidle.1) hidle.2.1 hidle.2.2
    · cases h
  | externalReturns =>
    simp only [step] at h
    split at h
    · rename_i hstack
      cases h
      exact .externalReturns hstack
    · cases h
  | scan =>
    simp only [step] at h
    split at h
    · rename_i currentTime stack hstack hempty
      split at h
      · rename_i hready
        cases h
        exact .scanReturns hstack hempty hready
      · cases h
        exact .scanPushes hstack hempty
    · cases h
  | runNext =>
    simp only [step] at h
    split at h
    · rename_i currentTime stack r rest hstack hready
      cases h
      exact .runNext _ hstack hready rfl
    · cases h
  | resume answer =>
    simp only [step] at h
    split at h
    · rename_i r locals stack hstack
      cases h
      exact .resume _ hstack rfl
    · cases h
  | call r op =>
    simp only [step] at h
    split at h
    · rename_i huser
      cases h
      exact .call huser
    · cases h
  | register r =>
    simp only [step] at h
    split at h
    · rename_i huser
      cases h
      exact .register huser
    · cases h
  | unregister r =>
    simp only [step] at h
    split at h
    · rename_i huser
      cases h
      exact .unregister huser.1 huser.2
    · cases h
  | yieldExecution =>
    simp only [step] at h
    split at h
    · rename_i huser
      cases h
      exact .yieldExecution huser
    · cases h
  | yieldReturns =>
    simp only [step] at h
    split at h
    · rename_i yieldingFrom stack hstack
      split at h
      · rename_i hmem
        cases h
        exact .yieldReturns hstack hmem
      · cases h
    · cases h
  | send thread =>
    simp only [step] at h
    split at h
    · rename_i huser
      split at h
      · cases h
        exact .sendToSelf huser.1
      · rename_i hother
        cases h
        exact .send huser.1 hother
    · cases h
  | sendReturns =>
    simp only [step] at h
    split at h
    · rename_i thread yieldingFrom stack hstack
      cases h
      exact .sendReturns hstack
    · cases h

end TimeController

end WebrtcGccNs3.Sim
