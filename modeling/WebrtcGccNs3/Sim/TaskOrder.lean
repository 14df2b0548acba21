import WebrtcGccNs3.Sim.ProcessThread

/-!
# Posted tasks run once, on time and in order

Both queues of tasks are timed FIFOs, and inherit its theorems: the task queue by
`TaskQueueRun.toFifo`, the process thread by `ProcessThreadRun.toFifo`, where a
drain migrates the due tasks only after the modules have been processed.
-/
namespace WebrtcGccNs3.Sim

/-- Where the postings of a history stand: `ran` in the order of running, each
with the `at_time` of its `RunReady`, and `stored` in the queue. -/
structure TasksInOrder (posted : List (Posting Timestamp))
    (ran : List (Posting Timestamp × Timestamp)) (stored : List (Posting Timestamp)) : Prop where
  numbered : posted.map Posting.id = List.range posted.length
  exactlyOnce : (ran.map Prod.fst ++ stored).Perm posted
  immediateInOrder : (ran.map Prod.fst).filter (·.due.isNone) <+: posted.filter (·.due.isNone)
  delayedInOrder : ((ran.map Prod.fst).filter (·.due.isSome)).Pairwise Posting.Before
  delayedBeforeStored : ∀ p ∈ ran.map Prod.fst, ∀ q ∈ stored,
    p.due.isSome → q.due.isSome → p.Before q
  onTime : ∀ r ∈ ran, ∀ t, r.1.due = some t → t ≤ r.2

theorem tasksInOrder_of_inv {f : TimedFifo Timestamp} (h : f.Inv) :
    TasksInOrder f.posted f.ran (f.ready ++ f.delayed.values) := by
  have hord := h.ordered
  rw [TimedFifo.line, List.filter_append, List.append_assoc] at hord
  obtain ⟨hran, -, hcross⟩ := List.pairwise_append.mp hord
  refine ⟨h.ids, ?_, ?_, hran, ?_, h.onTime⟩
  · have he := h.exact
    rwa [TimedFifo.line, List.append_assoc] at he
  · exact ⟨f.ready.filter (·.due.isNone), by rw [← h.immediate, TimedFifo.line, List.filter_append]; rfl⟩
  · intro p hp q hq hps hqs
    refine hcross p (List.mem_filter.mpr ⟨hp, hps⟩) q ?_
    rcases List.mem_append.mp hq with hq | hq
    · exact List.mem_append_left _ (List.mem_filter.mpr ⟨hq, hqs⟩)
    · exact List.mem_append_right _ hq

namespace TaskQueueRun

/-- A task that stands in the FIFO or is due at the clock. -/
def Pending (s : TaskQueueRun) (p : Posting Timestamp) : Prop :=
  p ∈ s.queue.readyTasks ∨ ∃ k, k ≤ Timestamp.micros s.now ∧ (k, p) ∈ s.queue.delayedTasks.entries

theorem tasksInOrder {now : Int} {s : TaskQueueRun} (h : Machine.Reachable step (initial now) s) :
    TasksInOrder s.posted s.ran s.queue.stored :=
  tasksInOrder_of_inv (TimedFifo.inv_of_reachable (toFifo_reachable h))

theorem ran_of_pending {s s₁ s' : TaskQueueRun} {p : Posting Timestamp} (hp : s.Pending p)
    (hs : step s .runReady = some s₁) (hr : Machine.Reachable step s₁ s') (hd : s'.running = none) :
    p ∈ s'.ran.map Prod.fst := by
  have hidle : s.running = none := by
    simp only [step] at hs
    split at hs
    · assumption
    · cases hs
  have hbegin : TimedFifo.step s.toFifo .begin =
      some { s.toFifo with drain := some (.micros s.now, false) } := by
    simp [TimedFifo.step, toFifo, hidle]
  have hs₁ : s₁ = s.proceed (.micros s.now) (s.queue.runReady (.micros s.now)) := by
    simp only [step, hidle, if_true] at hs
    exact (Option.some.inj hs).symm
  have hrest : Machine.Reachable TimedFifo.step
      { s.toFifo with drain := some (.micros s.now, false) } s'.toFifo := by
    refine Machine.Reachable.trans (Machine.Reachable.of_step (i := .migrate) rfl) ?_
    refine Machine.Reachable.trans
      (reachable_proceed s (s.queue.moveDue (.micros s.now)) (.micros s.now)) ?_
    exact hs₁ ▸ toFifo_reachable hr
  exact TimedFifo.ran_of_pending (s := s.toFifo) hp hbegin hrest (by simp [toFifo, hd])

end TaskQueueRun

namespace ProcessThreadRun

variable {μ : Type}

/-- The timed FIFO that the tasks of a process thread and their history are. -/
def toFifo (s : ProcessThreadRun μ) : TimedFifo Timestamp where
  now := .micros s.now
  ready := s.thread.queue
  delayed := s.thread.delayedTasks
  drain := s.activation.map fun
    | .processing _ _ atTime => (atTime, false)
    | .running _ atTime => (atTime, true)
  posted := s.posted
  ran := s.ran

theorem reachable_runTasks (s : ProcessThreadRun μ)
    (p : SimulatedProcessThread (Posting Timestamp) μ) (atTime : Timestamp) :
    Machine.Reachable TimedFifo.step
      { s.toFifo with ready := p.queue, delayed := p.delayedTasks, drain := some (atTime, true) }
      (s.proceed (p.runTasks atTime)).toFifo := by
  unfold SimulatedProcessThread.runTasks
  split
  · rename_i task rest hq
    refine Machine.Reachable.of_step (i := .start) ?_
    simp [TimedFifo.step, hq, proceed, toFifo]
  · rename_i hq
    refine Machine.Reachable.of_step (i := .finish) ?_
    simp [TimedFifo.step, hq, proceed, toFifo]

/-- The loop over the modules ends the drain's first phase when no module is left. -/
theorem reachable_runModules (s : ProcessThreadRun μ)
    (p : SimulatedProcessThread (Posting Timestamp) μ) (atTime : Timestamp) (modules : List μ) :
    Machine.Reachable TimedFifo.step
      { s.toFifo with ready := p.queue, delayed := p.delayedTasks, drain := some (atTime, false) }
      (s.proceed (p.runModules atTime modules)).toFifo := by
  cases modules with
  | nil =>
    exact (Machine.Reachable.of_step (i := .migrate) rfl).trans
      (reachable_runTasks s (p.moveDue atTime) atTime)
  | cons module rest => exact Machine.Reachable.refl

theorem reachable_runReady (s : ProcessThreadRun μ) :
    Machine.Reachable TimedFifo.step { s.toFifo with drain := some (.micros s.now, false) }
      (s.proceed (s.thread.runReady (.micros s.now))).toFifo :=
  reachable_runModules s
    { s.thread with delayedModules := s.thread.delayedModules.dropDue (.micros s.now) }
    (.micros s.now) (s.thread.delayedModules.due (.micros s.now))

variable [DecidableEq μ]

/-- Each step of the process thread is a run of the timed FIFO. -/
theorem reachable_toFifo {s s' : ProcessThreadRun μ} {a : Act μ} (h : step s a = some s') :
    Machine.Reachable TimedFifo.step s.toFifo s'.toFifo := by
  cases a with
  | start answer =>
    cases h
    obtain ⟨hq, hd⟩ := s.thread.start_tasks s.now answer
    simp only [toFifo, hq, hd]
    exact Machine.Reachable.refl
  | stop | wakeUp module answer =>
    cases h
    exact Machine.Reachable.refl
  | registerModule module answer =>
    cases h
    simp only [toFifo, SimulatedProcessThread.registerModule]
    split <;> exact Machine.Reachable.refl
  | deRegisterModule module =>
    cases h
    simp only [toFifo, SimulatedProcessThread.deRegisterModule]
    split <;> exact Machine.Reachable.refl
  | postTask =>
    cases h
    exact Machine.Reachable.of_step (i := .post) rfl
  | postDelayedTask milliseconds =>
    cases h
    exact Machine.Reachable.of_step
      (i := .postDelayed (SimulatedTaskQueue.targetTime s.now milliseconds))
      (if_pos (SimulatedTaskQueue.now_le_targetTime s.now milliseconds))
  | tick now =>
    simp only [step] at h
    split at h
    · rename_i hnow
      cases h
      exact Machine.Reachable.of_step (i := .tick (.micros now))
        (if_pos (Timestamp.micros_le_micros.mpr hnow))
    · cases h
  | runReady =>
    simp only [step] at h
    split at h
    · rename_i hidle
      cases h
      have hbegin : TimedFifo.step s.toFifo .begin =
          some { s.toFifo with drain := some (.micros s.now, false) } := by
        simp [TimedFifo.step, toFifo, hidle]
      exact (Machine.Reachable.of_step hbegin).trans (reachable_runReady s)
    · cases h
  | callbackReturns answer =>
    simp only [step] at h
    split at h
    · cases h
    · rename_i module rest atTime hact
      cases h
      have hsame : s.toFifo = { s.toFifo with
          ready := s.thread.queue, delayed := s.thread.delayedTasks, drain := some (atTime, false) } := by
        simp [toFifo, hact]
      rw [hsame]
      exact reachable_runModules
        { s with log := s.log ++ [Event.call (.timeUntilNextProcess module)] }
        (s.thread.delayModule atTime module answer) atTime rest
    · rename_i task atTime hact
      cases h
      have hsame : s.toFifo = { s.toFifo with
          ready := s.thread.queue, delayed := s.thread.delayedTasks, drain := some (atTime, true) } := by
        simp [toFifo, hact]
      rw [hsame]
      exact reachable_runTasks s s.thread atTime

theorem toFifo_reachable {s s' : ProcessThreadRun μ} (h : Machine.Reachable step s s') :
    Machine.Reachable TimedFifo.step s.toFifo s'.toFifo := by
  obtain ⟨as, h⟩ := h
  exact Machine.simulate (I := fun _ => True) toFifo (fun _ _ _ _ _ => trivial)
    (fun _ _ _ _ hs => reachable_toFifo hs) trivial h

def Pending (s : ProcessThreadRun μ) (p : Posting Timestamp) : Prop :=
  p ∈ s.thread.queue ∨ ∃ k, k ≤ Timestamp.micros s.now ∧ (k, p) ∈ s.thread.delayedTasks.entries

theorem tasksInOrder {now : Int} {s : ProcessThreadRun μ}
    (h : Machine.Reachable step (initial now) s) :
    TasksInOrder s.posted s.ran s.thread.stored :=
  tasksInOrder_of_inv (TimedFifo.inv_of_reachable (toFifo_reachable h))

theorem ran_of_pending {s s₁ s' : ProcessThreadRun μ} {p : Posting Timestamp} (hp : s.Pending p)
    (hs : step s .runReady = some s₁) (hr : Machine.Reachable step s₁ s')
    (hd : s'.activation = none) : p ∈ s'.ran.map Prod.fst := by
  simp only [step] at hs
  split at hs
  · rename_i hidle
    cases hs
    have hbegin : TimedFifo.step s.toFifo .begin =
        some { s.toFifo with drain := some (.micros s.now, false) } := by
      simp [TimedFifo.step, toFifo, hidle]
    exact TimedFifo.ran_of_pending (s := s.toFifo) hp hbegin
      ((reachable_runReady s).trans (toFifo_reachable hr)) (by simp [toFifo, hd])
  · cases hs

end ProcessThreadRun

/-- Every history of posts, `RunReady` calls and clock moves leaves each posted task
stored once or run once. The immediate ones run in the order of posting, the delayed
ones by target time and then posting, none before its target. A `RunReady` that has
returned has run everything that was pending and due when it started. -/
theorem posted_tasks_run_once_on_time_in_order (μ : Type) [DecidableEq μ] (now : Int) :
    (∀ s : TaskQueueRun, Machine.Reachable TaskQueueRun.step (.initial now) s →
      TasksInOrder s.posted s.ran s.queue.stored ∧
      ∀ s₁ s', TaskQueueRun.step s .runReady = some s₁ →
        Machine.Reachable TaskQueueRun.step s₁ s' → s'.running = none →
        ∀ p, s.Pending p → p ∈ s'.ran.map Prod.fst) ∧
    (∀ s : ProcessThreadRun μ, Machine.Reachable ProcessThreadRun.step (.initial now) s →
      TasksInOrder s.posted s.ran s.thread.stored ∧
      ∀ s₁ s', ProcessThreadRun.step s .runReady = some s₁ →
        Machine.Reachable ProcessThreadRun.step s₁ s' → s'.activation = none →
        ∀ p, s.Pending p → p ∈ s'.ran.map Prod.fst) :=
  ⟨fun _ h => ⟨TaskQueueRun.tasksInOrder h,
      fun _ _ hs hr hd _ hp => TaskQueueRun.ran_of_pending hp hs hr hd⟩,
    fun _ h => ⟨ProcessThreadRun.tasksInOrder h,
      fun _ _ hs hr hd _ hp => ProcessThreadRun.ran_of_pending hp hs hr hd⟩⟩

/-- A delayed task and an immediate one, both due in one `RunReady` 6 ms later: the
immediate one runs first, in the task queue and in a process thread with a module. -/
theorem posted_tasks_run_in_one_batch :
    (∃ s s₁ s' : TaskQueueRun, TaskQueueRun.step s .runReady = some s₁ ∧ s'.running = none ∧
      s'.ran.map (·.1.id) = [1, 0] ∧ TasksInOrder s'.posted s'.ran s'.queue.stored ∧
      ∀ p, s.Pending p → p ∈ s'.ran.map Prod.fst) ∧
    (∃ s s₁ s' : ProcessThreadRun Nat, ProcessThreadRun.step s .runReady = some s₁ ∧
      s'.activation = none ∧ s'.ran.map (·.1.id) = [1, 0] ∧
      TasksInOrder s'.posted s'.ran s'.thread.stored ∧
      ∀ p, s.Pending p → p ∈ s'.ran.map Prod.fst) := by
  have hall := posted_tasks_run_once_on_time_in_order Nat 0
  constructor
  · have hpost : ∃ s, Machine.run TaskQueueRun.step (.initial 0)
        [.postDelayedTask 5, .postTask, .tick 6000] = some s ∧
        ∃ s₁, TaskQueueRun.step s .runReady = some s₁ ∧
        ∃ s', Machine.run TaskQueueRun.step s₁ [.taskReturns, .taskReturns] = some s' ∧
        s'.running = none ∧ s'.ran.map (·.1.id) = [1, 0] := ⟨_, rfl, _, rfl, _, rfl, rfl, rfl⟩
    obtain ⟨s, hs, s₁, hs₁, s', hs', hidle, hran⟩ := hpost
    have hr : Machine.Reachable TaskQueueRun.step (.initial 0) s' :=
      Machine.Reachable.trans ⟨_, hs⟩ (Machine.Reachable.trans (.of_step hs₁) ⟨_, hs'⟩)
    exact ⟨s, s₁, s', hs₁, hidle, hran, (hall.1 s' hr).1,
      (hall.1 s ⟨_, hs⟩).2 s₁ s' hs₁ ⟨_, hs'⟩ hidle⟩
  · have hpost : ∃ s : ProcessThreadRun Nat, Machine.run ProcessThreadRun.step (.initial 0)
        [.registerModule 7 0, .start fun _ => 3, .postDelayedTask 5, .postTask, .tick 6000] = some s ∧
        ∃ s₁, ProcessThreadRun.step s .runReady = some s₁ ∧
        ∃ s', Machine.run ProcessThreadRun.step s₁
          [.callbackReturns 10, .callbackReturns 0, .callbackReturns 0] = some s' ∧
        s'.activation = none ∧ s'.ran.map (·.1.id) = [1, 0] := ⟨_, rfl, _, rfl, _, rfl, rfl, rfl⟩
    obtain ⟨s, hs, s₁, hs₁, s', hs', hidle, hran⟩ := hpost
    have hr : Machine.Reachable ProcessThreadRun.step (.initial 0) s' :=
      Machine.Reachable.trans ⟨_, hs⟩ (Machine.Reachable.trans (.of_step hs₁) ⟨_, hs'⟩)
    exact ⟨s, s₁, s', hs₁, hidle, hran, (hall.2 s' hr).1,
      (hall.2 s ⟨_, hs⟩).2 s₁ s' hs₁ ⟨_, hs'⟩ hidle⟩

end WebrtcGccNs3.Sim
