import WebrtcGccNs3.Sim.RunnerRun
import WebrtcGccNs3.Sim.ProcessThread

/-!
# The next run time that a runner caches

The controller trusts `GetNextRunTime`. In a task queue it is exact: posts lower it to
their target, and the end of `RunReady` reads it off the queue. In a process thread it
is not later than any work, unless `Start` overwrites it: `Start` looks at the modules
and at `queue_`, and not at `delayed_tasks_`.
-/
namespace WebrtcGccNs3.Sim

/-! ## Task queues -/

/-- The member functions of a task queue that other code calls. -/
inductive TaskQueueCall (τ : Type) where
  | postTask (task : τ)
  | postDelayedTask (task : τ) (milliseconds : UInt32)

namespace SimulatedTaskQueue

variable {τ : Type} {q : SimulatedTaskQueue τ}

def sequenceRunner : SequenceRunner (SimulatedTaskQueue τ) τ Unit (TaskQueueCall τ) where
  getNextRunTime := getNextRunTime
  isThread _ := false
  isQuitting _ := false
  runReady q _ atTime := q.runReady atTime
  resume q _ _ _ := q.runTasks
  call q now
    | .postTask task => q.postTask task
    | .postDelayedTask task milliseconds => q.postDelayedTask now task milliseconds

/-- The next run time is the one that the stored tasks call for. -/
structure ExactNextRunTime (q : SimulatedTaskQueue τ) : Prop where
  ready : q.readyTasks ≠ [] → q.getNextRunTime = .minusInfinity
  delayed : q.readyTasks = [] → q.delayedTasks.entries ≠ [] →
    (∃ e ∈ q.delayedTasks.entries, q.getNextRunTime = e.1) ∧
      ∀ e ∈ q.delayedTasks.entries, q.getNextRunTime ≤ e.1
  idle : q.readyTasks = [] → q.delayedTasks.entries = [] → q.getNextRunTime = .plusInfinity

/-- What the cache holds, in terms of the map. -/
structure Cached (q : SimulatedTaskQueue τ) : Prop where
  ready : q.readyTasks ≠ [] → q.nextRunTime = .minusInfinity
  delayed : q.readyTasks = [] → q.nextRunTime = q.delayedTasks.firstKey?.getD .plusInfinity

theorem exactNextRunTime_of_cached (hfull : q.delayedTasks.Full) (h : q.Cached) :
    q.ExactNextRunTime := by
  refine ⟨h.ready, fun hready hentries => ?_, fun hready hentries => ?_⟩
  · obtain ⟨e, he⟩ := List.exists_mem_of_ne_nil _ hentries
    obtain ⟨k, hk, -⟩ := BucketMap.startsBy_of_mem he
    have hnext : q.getNextRunTime = k := by
      rw [getNextRunTime, h.delayed hready, hk, Option.getD_some]
    constructor
    · obtain ⟨e', he', rfl⟩ := hfull.exists_mem_entries (BucketMap.mem_keys_of_firstKey? hk)
      exact ⟨e', he', hnext⟩
    · intro e' he'
      obtain ⟨k', hk', hle⟩ := BucketMap.startsBy_of_mem he'
      obtain rfl : k = k' := Option.some.inj (hk.symm.trans hk')
      rwa [hnext]
  · rw [getNextRunTime, h.delayed hready]
    cases hk : q.delayedTasks.firstKey? with
    | none => rfl
    | some k =>
      obtain ⟨e, he, -⟩ := hfull.exists_mem_entries (BucketMap.mem_keys_of_firstKey? hk)
      rw [hentries] at he
      cases he

theorem cached_initial : ({} : SimulatedTaskQueue τ).Cached := ⟨fun h => absurd rfl h, fun _ => rfl⟩

theorem cached_postTask (task : τ) : (q.postTask task).Cached :=
  ⟨fun _ => rfl, fun h => absurd h (by simp [postTask])⟩

theorem cached_postDelayedTask (h : q.Cached) (now : Int) (task : τ) (milliseconds : UInt32) :
    (q.postDelayedTask now task milliseconds).Cached := by
  constructor
  · intro hready
    show min q.nextRunTime (targetTime now milliseconds) = .minusInfinity
    rw [h.ready hready]
    exact min_eq_left (Timestamp.minusInfinity_le _)
  · intro hready
    show min q.nextRunTime (targetTime now milliseconds) =
      (q.delayedTasks.push (targetTime now milliseconds) task).firstKey?.getD .plusInfinity
    rw [h.delayed hready, BucketMap.firstKey?_push]
    cases q.delayedTasks.firstKey? with
    | none => exact min_eq_right (Timestamp.le_plusInfinity _)
    | some k => exact min_comm _ _

theorem ends_runTasks (h : q.delayedTasks.Full) :
    q.runTasks.Ends (·.delayedTasks.Full) (fun q => q.Cached ∧ q.readyTasks = []) := by
  unfold runTasks
  split
  · exact h
  · rename_i hready
    exact ⟨h, ⟨fun hne => absurd hready hne, fun _ => rfl⟩, hready⟩

theorem ends_runReady (h : q.delayedTasks.Full) (atTime : Timestamp) :
    (q.runReady atTime).Ends (·.delayedTasks.Full) (fun q => q.Cached ∧ q.readyTasks = []) :=
  ends_runTasks (q := q.moveDue atTime) h.dropDue

open RunnerRun in
theorem holds_of_run {as : List (Act Unit (TaskQueueCall τ))} {s : RunnerRun (SimulatedTaskQueue τ) τ}
    (hrun : Machine.run (step sequenceRunner) ⟨{}, none⟩ as = some s) :
    Holds (·.delayedTasks.Full) Cached s := by
  refine Machine.invariant (I := Holds (·.delayedTasks.Full) Cached) (fun s a s' h hs => ?_)
    ⟨BucketMap.full_empty, fun _ => cached_initial⟩ hrun
  refine holds_step (fun now op h _ => ?_) (fun now atTime hfull _ _ => ?_)
    (fun locals now answer hfull _ _ => ?_) h hs
  · cases op with
    | postTask task => exact ⟨h.1, fun _ => cached_postTask task⟩
    | postDelayedTask task milliseconds =>
      exact ⟨h.1.push, fun hidle => cached_postDelayedTask (h.2 hidle) now task milliseconds⟩
  · exact (ends_runReady hfull atTime).imp fun _ h => h.1
  · exact (ends_runTasks hfull).imp fun _ h => h.1

open RunnerRun in
/-- In every run of posts and `RunReady` calls, `GetNextRunTime` is exact outside `RunReady`, and
`ready_tasks_` is empty when `RunReady` returns. -/
theorem nextRunTime_is_exact (as : List (Act Unit (TaskQueueCall τ)))
    (s : RunnerRun (SimulatedTaskQueue τ) τ)
    (hrun : Machine.run (step sequenceRunner) ⟨{}, none⟩ as = some s) :
    (s.activation = none → s.runner.ExactNextRunTime) ∧
      ∀ a s', step sequenceRunner s a = some s' → (∀ now op, a ≠ .call now op) →
        s'.activation = none → s'.runner.readyTasks = [] := by
  obtain ⟨hfull, hcached⟩ := holds_of_run hrun
  refine ⟨fun hidle => exactNextRunTime_of_cached hfull (hcached hidle), fun a s' hs ha hidle => ?_⟩
  cases a with
  | call now op => exact absurd rfl (ha now op)
  | runReady now atTime =>
    simp only [step] at hs
    split at hs
    · cases hs
      exact ((holds_proceed (ends_runReady hfull atTime)).2 hidle).2
    · cases hs
  | callbackReturns now answer =>
    obtain ⟨locals, -, rfl⟩ := Option.map_eq_some_iff.mp hs
    exact ((holds_proceed (ends_runTasks hfull)).2 hidle).2

open RunnerRun in
/-- A delayed task and an immediate one, which posts two more while it runs. -/
theorem nextRunTime_after_nested_posts :
    ∃ s : RunnerRun (SimulatedTaskQueue Nat) Nat, s.runner.getNextRunTime = .micros 3000 ∧
      s.runner.ExactNextRunTime := by
  have hrun : ∃ s : RunnerRun (SimulatedTaskQueue Nat) Nat,
      Machine.run (step sequenceRunner) ⟨{}, none⟩
        [.call 0 (.postDelayedTask 1 10), .call 0 (.postTask 2), .runReady 0 (.micros 0),
          .call 0 (.postTask 3), .call 0 (.postDelayedTask 4 3), .callbackReturns 0 (),
          .callbackReturns 0 ()] = some s ∧
      s.activation = none ∧ s.runner.getNextRunTime = .micros 3000 := ⟨_, rfl, rfl, rfl⟩
  obtain ⟨s, hs, hidle, hnext⟩ := hrun
  exact ⟨s, hnext, (nextRunTime_is_exact _ s hs).1 hidle⟩

end SimulatedTaskQueue

/-! ## Process threads -/

/-- The member functions of a process thread that other code calls. -/
inductive ProcessThreadCall (τ μ : Type) where
  | start (answer : Nat → Int)
  | stop
  | wakeUp (module : μ) (answer : Int)
  | registerModule (module : μ) (answer : Int)
  | deRegisterModule (module : μ)
  | postTask (task : τ)
  | postDelayedTask (task : τ) (milliseconds : UInt32)

namespace SimulatedProcessThread

variable {τ μ : Type} {p : SimulatedProcessThread τ μ}

def sequenceRunner [DecidableEq μ] :
    SequenceRunner (SimulatedProcessThread τ μ) (Locals τ μ) Int (ProcessThreadCall τ μ) where
  getNextRunTime := getNextRunTime
  isThread _ := false
  isQuitting _ := false
  runReady p _ atTime := p.runReady atTime
  resume p locals _ answer := p.resume answer locals
  call p now
    | .start answer => p.start now answer
    | .stop => p.stop
    | .wakeUp module answer => p.wakeUp now module answer
    | .registerModule module answer => p.registerModule now module answer
    | .deRegisterModule module => p.deRegisterModule module
    | .postTask task => p.postTask task
    | .postDelayedTask task milliseconds => p.postDelayedTask now task milliseconds

/-- The next run time is not later than any work. -/
structure NotLate (p : SimulatedProcessThread τ μ) : Prop where
  queue : p.queue ≠ [] → p.getNextRunTime = .minusInfinity
  tasks : ∀ e ∈ p.delayedTasks.entries, p.getNextRunTime ≤ e.1
  modules : ∀ e ∈ p.delayedModules.entries, p.getNextRunTime ≤ e.1

theorem notLate_initial : ({} : SimulatedProcessThread τ μ).NotLate :=
  ⟨fun h => absurd rfl h, fun _ he => absurd he List.not_mem_nil, fun _ he => absurd he List.not_mem_nil⟩

/-- Lowering the next run time to that of new work keeps it right for the old. -/
theorem notLate_of_le {p' : SimulatedProcessThread τ μ} {next : Timestamp} (h : p.NotLate)
    (hnext : p'.nextRunTime = min p.nextRunTime next) (hqueue : p'.queue = p.queue)
    (htasks : ∀ e ∈ p'.delayedTasks.entries, e.1 = next ∨ e ∈ p.delayedTasks.entries)
    (hmodules : ∀ e ∈ p'.delayedModules.entries, e.1 = next ∨ e ∈ p.delayedModules.entries) :
    p'.NotLate := by
  have hleft : p'.getNextRunTime ≤ p.getNextRunTime := hnext.trans_le (min_le_left _ _)
  have hright : p'.getNextRunTime ≤ next := hnext.trans_le (min_le_right _ _)
  refine ⟨fun hne => ?_, fun e he => ?_, fun e he => ?_⟩
  · have hmin := h.queue (hqueue ▸ hne)
    exact le_antisymm (hleft.trans hmin.le) (Timestamp.minusInfinity_le _)
  · rcases htasks e he with he | he
    · exact he ▸ hright
    · exact hleft.trans (h.tasks e he)
  · rcases hmodules e he with he | he
    · exact he ▸ hright
    · exact hleft.trans (h.modules e he)

theorem notLate_postTask (task : τ) : (p.postTask task).NotLate :=
  ⟨fun _ => rfl, fun _ _ => Timestamp.minusInfinity_le _, fun _ _ => Timestamp.minusInfinity_le _⟩

theorem notLate_postDelayedTask (h : p.NotLate) (now : Int) (task : τ) (milliseconds : UInt32) :
    (p.postDelayedTask now task milliseconds).NotLate := by
  refine notLate_of_le h rfl rfl (fun e he => ?_) fun e he => Or.inr he
  exact (BucketMap.mem_entries_push.mp he).imp_left (congrArg Prod.fst)

theorem notLate_stop (h : p.NotLate) : p.stop.NotLate :=
  ⟨h.queue, h.tasks, fun _ he => absurd he List.not_mem_nil⟩

theorem notLate_registerModule (h : p.NotLate) (now : Int) (module : μ) (answer : Int) :
    (p.registerModule now module answer).NotLate := by
  unfold registerModule
  split
  · refine notLate_of_le h rfl rfl (fun e he => Or.inr he) fun e he => ?_
    exact (BucketMap.mem_entries_push.mp he).imp_left (congrArg Prod.fst)
  · exact ⟨h.queue, h.tasks, h.modules⟩

section

variable [DecidableEq μ]

theorem notLate_wakeUp (h : p.NotLate) (now : Int) (module : μ) (answer : Int) :
    (p.wakeUp now module answer).NotLate := by
  refine notLate_of_le h rfl rfl (fun e he => Or.inr he) fun e he => ?_
  rcases BucketMap.mem_entries_push.mp he with rfl | he
  · exact Or.inl rfl
  · exact Or.inr (BucketMap.mem_of_mem_entries_remove he)

theorem notLate_deRegisterModule (h : p.NotLate) (module : μ) :
    (p.deRegisterModule module).NotLate := by
  unfold deRegisterModule
  split
  · exact ⟨h.queue, h.tasks, fun e he => h.modules e (BucketMap.mem_of_mem_entries_remove he)⟩
  · exact ⟨h.queue, h.tasks, h.modules⟩

end

/-- `Start` does not overlook a task: it does nothing, or `queue_` is not empty, or each task of
`delayed_tasks_` comes no earlier than a key of `delayed_modules_` or a module that is started. -/
def StartCovers (p : SimulatedProcessThread τ μ) (now : Int) (answer : Nat → Int) : Prop :=
  p.processThreadRunning = false → p.queue = [] → ∀ e ∈ p.delayedTasks.entries,
    p.delayedModules.StartsBy e.1 ∨
      ∃ i < p.stoppedModules.length, (Timestamp.micros now).plusMillis (answer i) ≤ e.1

instance (p : SimulatedProcessThread τ μ) (now : Int) (answer : Nat → Int) :
    Decidable (p.StartCovers now answer) :=
  inferInstanceAs (Decidable (p.processThreadRunning = false → p.queue = [] →
    ∀ e ∈ p.delayedTasks.entries, p.delayedModules.StartsBy e.1 ∨
      ∃ i < p.stoppedModules.length, (Timestamp.micros now).plusMillis (answer i) ≤ e.1))

/-- The first key after `Start`, in terms of the modules that were there and those it enters. -/
theorem startsBy_start (h : p.processThreadRunning = false) {now : Int} {answer : Nat → Int}
    {t : Timestamp} : (p.start now answer).delayedModules.StartsBy t ↔ p.delayedModules.StartsBy t ∨
      ∃ i < p.stoppedModules.length, (Timestamp.micros now).plusMillis (answer i) ≤ t := by
  have hfold : ∀ (ms : List (μ × Nat)) (q : SimulatedProcessThread τ μ),
      (ms.foldl (fun p m => p.delayModule (.micros now) m.1 (answer m.2)) q).delayedModules.StartsBy t ↔
        q.delayedModules.StartsBy t ∨
          ∃ m ∈ ms, (Timestamp.micros now).plusMillis (answer m.2) ≤ t := by
    intro ms
    induction ms with
    | nil => simp
    | cons m ms ih =>
      intro q
      rw [List.foldl_cons, ih, delayModule, BucketMap.startsBy_push, List.exists_mem_cons_iff]
      tauto
  unfold start
  rw [if_neg (by simp [h])]
  refine (hfold _ _).trans (or_congr_right ⟨fun ⟨m, hm, hle⟩ => ?_, fun ⟨i, hi, hle⟩ => ?_⟩)
  · obtain ⟨hi, -⟩ := List.getElem?_eq_some_iff.mp (List.mk_mem_zipIdx_iff_getElem?.mp hm)
    exact ⟨m.2, hi, hle⟩
  · exact ⟨(p.stoppedModules[i], i), by simp [List.mk_mem_zipIdx_iff_getElem?, hi], hle⟩

theorem start_of_running (h : p.processThreadRunning = true) (now : Int) (answer : Nat → Int) :
    p.start now answer = p := if_pos h

theorem nextRunTime_start (h : p.processThreadRunning = false) (hempty : p.queue = []) (now : Int)
    (answer : Nat → Int) : (p.start now answer).getNextRunTime =
      (p.start now answer).delayedModules.firstKey?.getD .plusInfinity := by
  have hqueue := (p.start_tasks now answer).1
  unfold start at hqueue ⊢
  rw [if_neg (by simp [h])] at hqueue ⊢
  exact if_neg (not_not.mpr (hqueue.trans hempty))

theorem nextRunTime_start_of_queued (h : p.processThreadRunning = false) (hqueued : p.queue ≠ [])
    (now : Int) (answer : Nat → Int) : (p.start now answer).getNextRunTime = .minusInfinity := by
  have hqueue := (p.start_tasks now answer).1
  unfold start at hqueue ⊢
  rw [if_neg (by simp [h])] at hqueue ⊢
  exact if_pos fun hempty => hqueued (hqueue.symm.trans hempty)

/-- With tasks at finite times, `Start` keeps the next run time right exactly when it does not
overlook one. -/
theorem notLate_start_iff (h : p.NotLate)
    (hfinite : ∀ e ∈ p.delayedTasks.entries, e.1 ≠ .plusInfinity) (now : Int) (answer : Nat → Int) :
    (p.start now answer).NotLate ↔ p.StartCovers now answer := by
  rcases Bool.eq_false_or_eq_true p.processThreadRunning with hrun | hrun
  · rw [start_of_running hrun]
    exact ⟨fun _ hf => absurd hf (by simp [hrun]), fun _ => h⟩
  obtain ⟨hqueue, htasks⟩ := p.start_tasks now answer
  by_cases hempty : p.queue = []
  · have hnext := nextRunTime_start hrun hempty now answer
    constructor
    · intro hlate _ _ e he
      have hle := hlate.tasks e (htasks ▸ he)
      rw [hnext] at hle
      apply (startsBy_start hrun).mp
      cases hk : (p.start now answer).delayedModules.firstKey? with
      | none =>
        rw [hk] at hle
        exact absurd (Timestamp.plusInfinity_le.mp hle) (hfinite e he)
      | some k =>
        rw [hk] at hle
        exact ⟨k, hk, hle⟩
    · intro hcovers
      refine ⟨fun hne => absurd (hqueue.trans hempty) hne, fun e he => ?_, fun e he => ?_⟩
      · rw [hnext]
        exact ((startsBy_start hrun).mpr (hcovers hrun hempty e (htasks ▸ he))).getD_le _
      · rw [hnext]
        exact (BucketMap.startsBy_of_mem he).getD_le _
  · have hnext := nextRunTime_start_of_queued hrun hempty now answer
    refine ⟨fun _ _ hq => absurd hq hempty, fun _ => ⟨fun _ => hnext, fun e _ => ?_, fun e _ => ?_⟩⟩
    · exact hnext.trans_le (Timestamp.minusInfinity_le _)
    · exact hnext.trans_le (Timestamp.minusInfinity_le _)

/-! ### Runs -/

/-- Every task is due at a finite time. -/
def Finite (p : SimulatedProcessThread τ μ) : Prop :=
  ∀ e ∈ p.delayedTasks.entries, e.1 ≠ .plusInfinity

theorem finite_call [DecidableEq μ] (h : p.Finite) (now : Int) (op : ProcessThreadCall τ μ) :
    (sequenceRunner.call p now op).Finite := by
  cases op with
  | start answer =>
    intro e he
    exact h e ((p.start_tasks now answer).2 ▸ he)
  | postDelayedTask task milliseconds =>
    intro e he
    rcases BucketMap.mem_entries_push.mp he with rfl | he
    · exact fun hf => by cases hf
    · exact h e he
  | registerModule module answer =>
    show (p.registerModule now module answer).Finite
    unfold registerModule
    split <;> exact h
  | deRegisterModule module =>
    show (p.deRegisterModule module).Finite
    unfold deRegisterModule
    split <;> exact h
  | stop | wakeUp module answer | postTask task => exact h

/-- The last piece of `RunReady` looks at the modules and at the tasks. -/
theorem ends_runTasks (h : p.Finite) (atTime : Timestamp) :
    (p.runTasks atTime).Ends Finite NotLate := by
  unfold runTasks
  split
  · exact h
  · rename_i hqueue
    refine ⟨h, fun hne => absurd hqueue hne, fun e he => ?_, fun e he => ?_⟩
    · obtain ⟨k, hk, hle⟩ := BucketMap.startsBy_of_mem he
      show (p.delayedTasks.firstKey?.map _).getD _ ≤ e.1
      rw [hk]
      exact (min_le_right _ _).trans hle
    · have hle := (BucketMap.startsBy_of_mem he).getD_le .plusInfinity
      show (p.delayedTasks.firstKey?.map _).getD _ ≤ e.1
      cases p.delayedTasks.firstKey? with
      | none => exact hle
      | some k => exact (min_le_left _ _).trans hle

theorem finite_moveDue (h : p.Finite) (atTime : Timestamp) : (p.moveDue atTime).Finite :=
  fun e he => h e (BucketMap.mem_dropDue.mp he).1

theorem ends_runModules (h : p.Finite) (atTime : Timestamp) (modules : List μ) :
    (p.runModules atTime modules).Ends Finite NotLate := by
  cases modules with
  | nil => exact ends_runTasks (finite_moveDue h atTime) atTime
  | cons module rest => exact h

theorem ends_runReady (h : p.Finite) (atTime : Timestamp) : (p.runReady atTime).Ends Finite NotLate :=
  ends_runModules (p := { p with delayedModules := p.delayedModules.dropDue atTime }) h atTime _

theorem ends_resume (h : p.Finite) (answer : Int) (locals : Locals τ μ) :
    (p.resume answer locals).Ends Finite NotLate := by
  cases locals with
  | processing module rest atTime =>
    exact ends_runModules (p := p.delayModule atTime module answer) h atTime rest
  | running task atTime => exact ends_runTasks h atTime

section

variable [DecidableEq μ]

open RunnerRun

/-- A `Start` that is not called from a callback of `RunReady` overlooks no task. -/
def StartsCovered (s : RunnerRun (SimulatedProcessThread τ μ) (Locals τ μ)) :
    Act Int (ProcessThreadCall τ μ) → Prop
  | .call now (.start answer) => s.activation = none → s.runner.StartCovers now answer
  | _ => True

variable {s s' : RunnerRun (SimulatedProcessThread τ μ) (Locals τ μ)}
variable {a : Act Int (ProcessThreadCall τ μ)}

theorem notLate_call (h : p.NotLate) (hfinite : p.Finite) (now : Int) {op : ProcessThreadCall τ μ}
    (hstart : ∀ answer, op = .start answer → p.StartCovers now answer) :
    (sequenceRunner.call p now op).NotLate := by
  cases op with
  | start answer => exact (notLate_start_iff h hfinite now answer).mpr (hstart answer rfl)
  | stop => exact notLate_stop h
  | wakeUp module answer => exact notLate_wakeUp h now module answer
  | registerModule module answer => exact notLate_registerModule h now module answer
  | deRegisterModule module => exact notLate_deRegisterModule h module
  | postTask task => exact notLate_postTask task
  | postDelayedTask task milliseconds => exact notLate_postDelayedTask h now task milliseconds

theorem holds_step (h : Holds Finite NotLate s) (hc : StartsCovered s a)
    (hs : step sequenceRunner s a = some s') : Holds Finite NotLate s' := by
  refine RunnerRun.holds_step (fun now op h ha => ?_) (fun now atTime hfinite _ _ => ?_)
    (fun locals now answer hfinite _ _ => ends_resume hfinite answer locals) h hs
  · subst ha
    refine ⟨finite_call h.1 now op, fun hidle => ?_⟩
    exact notLate_call (h.2 hidle) h.1 now fun answer he => by subst he; exact hc hidle
  · exact ends_runReady hfinite atTime

theorem holds_of_run {as : List (Act Int (ProcessThreadCall τ μ))}
    (hc : Machine.AllSteps (step sequenceRunner) StartsCovered ⟨{}, none⟩ as)
    (hrun : Machine.run (step sequenceRunner) ⟨{}, none⟩ as = some s) : Holds Finite NotLate s :=
  Machine.invariant_of_allSteps (fun _ _ _ h hc hs => holds_step h hc hs)
    ⟨fun _ he => absurd he List.not_mem_nil, fun _ => notLate_initial⟩ hc hrun

theorem finite_of_run {as : List (Act Int (ProcessThreadCall τ μ))}
    (hrun : Machine.run (step sequenceRunner) ⟨{}, none⟩ as = some s) : s.runner.Finite := by
  have hkeep : Holds Finite (fun _ => True) s := by
    refine Machine.invariant (I := Holds Finite fun _ => True) (fun s a s' h hs => ?_)
      ⟨fun _ he => absurd he List.not_mem_nil, fun _ => trivial⟩ hrun
    refine RunnerRun.holds_step (fun now op h _ => ⟨finite_call h.1 now op, fun _ => trivial⟩)
      (fun now atTime hfinite _ _ => ?_) (fun locals now answer hfinite _ _ => ?_) h hs
    · exact (ends_runReady hfinite atTime).imp fun _ _ => trivial
    · exact (ends_resume hfinite answer locals).imp fun _ _ => trivial
  exact hkeep.1

/-- A run keeps the next run time right, in each of its states outside `RunReady`, exactly when
none of its `Start`s overlooks a task. -/
theorem nextRunTime_is_not_late_iff (as : List (Act Int (ProcessThreadCall τ μ))) :
    (∀ bs s, bs <+: as → Machine.run (step sequenceRunner) ⟨{}, none⟩ bs = some s →
        s.activation = none → s.runner.NotLate) ↔
      Machine.AllSteps (step sequenceRunner) StartsCovered ⟨{}, none⟩ as := by
  constructor
  · intro hall
    apply Machine.allSteps_iff.mpr
    intro js a s hpre hrun
    cases a with
    | call now op =>
      cases op with
      | start answer =>
        intro hidle
        have hnext : Machine.run (step sequenceRunner) ⟨{}, none⟩ (js ++ [.call now (.start answer)]) =
            some { s with runner := s.runner.start now answer } :=
          Machine.run_append_eq_some.mpr ⟨s, hrun, rfl⟩
        have hbefore := hall js s ((List.prefix_append js _).trans hpre) hrun hidle
        exact (notLate_start_iff hbefore (finite_of_run hrun) now answer).mp
          (hall _ _ hpre hnext hidle)
      | stop | wakeUp | registerModule | deRegisterModule | postTask | postDelayedTask => trivial
    | runReady now atTime => trivial
    | callbackReturns now answer => trivial
  · intro hc bs s hpre hrun
    exact (holds_of_run (hc.of_prefix hpre) hrun).2

end

open RunnerRun in
/-- A delayed task is posted, and then the thread is started without modules. -/
theorem task_posted_before_start_is_overlooked :
    ¬ ∀ (as : List (Act Int (ProcessThreadCall Nat Nat)))
      (s : RunnerRun (SimulatedProcessThread Nat Nat) (Locals Nat Nat)),
      Machine.run (step sequenceRunner) ⟨{}, none⟩ as = some s →
      s.activation = none → s.runner.NotLate := by
  intro hall
  have hrun : ∃ s : RunnerRun (SimulatedProcessThread Nat Nat) (Locals Nat Nat),
      Machine.run (step sequenceRunner) ⟨{}, none⟩
        [.call 0 (.postDelayedTask 1 10), .call 0 (.start fun _ => 0)] = some s ∧
      s.activation = none ∧ s.runner.getNextRunTime = .plusInfinity ∧
      s.runner.delayedTasks.entries = [(.micros 10000, 1)] := ⟨_, rfl, rfl, rfl, rfl⟩
  obtain ⟨s, hs, hidle, hnext, hentries⟩ := hrun
  have hle := (hall _ s hs hidle).tasks (.micros 10000, 1) (by simp [hentries])
  rw [hnext] at hle
  exact absurd hle Timestamp.not_plusInfinity_le_micros

end SimulatedProcessThread

end WebrtcGccNs3.Sim
