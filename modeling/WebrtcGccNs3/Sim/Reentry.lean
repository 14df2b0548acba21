import WebrtcGccNs3.Sim.CallStack
import WebrtcGccNs3.Sim.Runner
import Mathlib.Data.Finset.Basic

/-!
# Yielding runners are not re-entered

`yielded_` is a set, so a queue that yields a second time before its first yield has
returned is taken out when the second returns. While that does not happen, `yielded_`
is the set of the queues that wait on the call stack, and `RunReadyRunners` passes
over every runner that has an activation there.
-/
namespace WebrtcGccNs3.Sim

/-- The queue that a `YieldExecution` or a `Send` has put into `yielded_`. -/
def Frame.yielder {α : Type} : Frame α → Option TaskQueueRef
  | .yieldExecution yieldingFrom | .send _ yieldingFrom => some yieldingFrom
  | _ => none

/-- The queues that wait on the stack, innermost first. -/
def yielders {α : Type} (stack : List (Frame α)) : List TaskQueueRef := stack.filterMap Frame.yielder

/-- The stack from the innermost `RunReadyRunners` on. -/
def loopStack {α : Type} : List (Frame α) → List (Frame α)
  | .runReadyRunners currentTime :: stack => .runReadyRunners currentTime :: stack
  | _ :: stack => loopStack stack
  | [] => []

namespace TimeController

variable {ρ α ν ι : Type} {S : Setup ρ α ν ι} {s s' : TimeController ρ α ν ι} {a : Act ν ι}

/-- `YieldExecution`, and a `Send` to another thread, are called while the current queue is
not in `yielded_`. -/
def FreeToYield (S : Setup ρ α ν ι) (s : TimeController ρ α ν ι) : Act ν ι → Prop
  | .yieldExecution => current S s.stack ∉ s.yielded
  | .send thread =>
    ¬ (S.runner.isQuitting (s.object thread) ∨ currentThread S s s.stack = .runner thread) →
      current S s.stack ∉ s.yielded
  | _ => True

instance (s : TimeController ρ α ν ι) (a : Act ν ι) : Decidable (FreeToYield S s a) :=
  match a with
  | .yieldExecution => inferInstanceAs (Decidable (current S s.stack ∉ s.yielded))
  | .send thread => inferInstanceAs (Decidable
      (¬ (S.runner.isQuitting (s.object thread) ∨ currentThread S s s.stack = .runner thread) →
        current S s.stack ∉ s.yielded))
  | .fireTimer | .timerTest | .external _ | .externalReturns | .scan | .runNext | .resume _
  | .call .. | .register _ | .unregister _ | .yieldReturns | .sendReturns =>
    inferInstanceAs (Decidable True)

/-- The invariant: `yielded_` holds the waiting queues, each once, and no runner in
`ready_runners_` was waiting when its loop pushed it. -/
structure Waiting (s : TimeController ρ α ν ι) : Prop where
  yielded : s.yielded = (yielders s.stack).toFinset
  nodup : (yielders s.stack).Nodup
  ready : ∀ r ∈ s.readyRunners, .runner r ∉ yielders (loopStack s.stack)

/-- An activation with another one on it waits there. -/
theorem mem_yielders_of_runReady {stack : List (Frame α)} (h : Nested S stack) {r : Nat} {locals : α}
    (hmem : .runReady r locals ∈ stack) :
    stack.head? = some (.runReady r locals) ∨ .runner r ∈ yielders stack := by
  induction h with
  | idle | external | onTaskTimer | timerRuns => simp at hmem
  | yieldRuns h ih =>
    rcases List.mem_cons.mp hmem with heq | hmem
    · cases heq
    · rcases ih hmem with hhead | hwait
      · cases hhead
      · exact Or.inr hwait
  | runReady h ih =>
    rcases List.mem_cons.mp hmem with heq | hmem
    · exact Or.inl (congrArg some heq.symm)
    · rcases ih hmem with hhead | hwait
      · cases hhead
      · exact Or.inr hwait
  | @yieldExecution stack h huser ih | @send thread stack h huser ih =>
    rcases List.mem_cons.mp hmem with heq | hmem
    · cases heq
    · rcases ih hmem with hhead | hwait
      · obtain ⟨tail, rfl⟩ := List.head?_eq_some_iff.mp hhead
        exact Or.inr List.mem_cons_self
      · exact Or.inr (List.mem_cons_of_mem _ hwait)

/-- What `RunReadyRunners` starts has no activation on the stack. -/
theorem not_mem_stack_of_starts (h : WellNested S s) (hw : Waiting s) {r : Nat} (hr : s.Starts r)
    (locals : α) : .runReady r locals ∉ s.stack := by
  obtain ⟨currentTime, stack, rest, hstack, hready⟩ := hr
  intro hmem
  rcases mem_yielders_of_runReady h.nested hmem with hhead | hwait
  · rw [hstack] at hhead
    cases hhead
  · have hnot := hw.ready r (hready ▸ List.mem_cons_self)
    rw [hstack] at hnot hwait
    exact hnot hwait

theorem waiting_initial (startUs : Int) (object : Nat → ρ) : Waiting (initial S startUs object) :=
  ⟨rfl, List.nodup_nil, fun _ hr => absurd hr List.not_mem_nil⟩

section Preservation

variable {q : TaskQueueRef}

theorem waiting_same (h : Waiting s) (hyielded : s'.yielded = s.yielded)
    (hstack : yielders s'.stack = yielders s.stack)
    (hready : ∀ r ∈ s'.readyRunners, .runner r ∉ yielders (loopStack s'.stack)) : Waiting s' :=
  ⟨by rw [hyielded, hstack, h.yielded], hstack ▸ h.nodup, hready⟩

theorem waiting_push (h : Waiting s) (hq : q ∉ s.yielded) (hyielded : s'.yielded = insert q s.yielded)
    (hstack : yielders s'.stack = q :: yielders s.stack)
    (hready : ∀ r ∈ s'.readyRunners, .runner r ∉ yielders (loopStack s'.stack)) : Waiting s' := by
  rw [h.yielded, List.mem_toFinset] at hq
  refine ⟨?_, ?_, hready⟩
  · rw [hyielded, hstack, h.yielded, List.toFinset_cons]
  · rw [hstack]
    exact List.nodup_cons.mpr ⟨hq, h.nodup⟩

/-- On its return the queue is taken out once, and stood there once. -/
theorem waiting_pop (h : Waiting s) (hyielded : s'.yielded = s.yielded.erase q)
    (hstack : yielders s.stack = q :: yielders s'.stack)
    (hready : ∀ r ∈ s'.readyRunners, .runner r ∉ yielders (loopStack s'.stack)) : Waiting s' := by
  have hnodup := h.nodup
  rw [hstack] at hnodup
  obtain ⟨hq, hnodup⟩ := List.nodup_cons.mp hnodup
  refine ⟨?_, hnodup, hready⟩
  rw [hyielded, h.yielded, hstack, List.toFinset_cons, Finset.erase_insert]
  rwa [List.mem_toFinset]

theorem waiting_proceed (h : Waiting s) (r : Nat) (progress : Progress ρ α) :
    Waiting (s.proceed r progress) := by
  rcases proceed_stack s r progress with hp | ⟨locals, hp⟩
  · exact waiting_same h (proceed_yielded _ _ _) (by rw [hp]) (by simpa [hp] using h.ready)
  · exact waiting_same h (proceed_yielded _ _ _) (by rw [hp]; rfl)
      (by simpa [hp, loopStack] using h.ready)

theorem waiting_step (h : Waiting s) (hfree : FreeToYield S s a) (hs : step S s a = some s') :
    Waiting s' := by
  cases move_of_step hs with
  | fireTimer hidle hmin hnow =>
    exact waiting_same h rfl (by rw [hidle]; rfl) fun _ hr => absurd hr List.not_mem_nil
  | timerAgain hstack hdue =>
    exact waiting_same h rfl rfl fun _ hr => absurd hr List.not_mem_nil
  | timerReturns hstack hlater =>
    have hready := h.ready
    rw [hstack] at hready
    exact waiting_same h rfl (by rw [hstack]; rfl) hready
  | external hidle hnow horder =>
    exact waiting_same h rfl (by rw [hidle]; rfl) fun _ _ => List.not_mem_nil
  | externalReturns hstack =>
    exact waiting_same h rfl (by rw [hstack]; rfl) fun _ _ => List.not_mem_nil
  | scanReturns hstack hempty hready =>
    refine waiting_same h rfl (by rw [hstack]; rfl) fun r hr => ?_
    rw [show s.readyRunners = [] from hempty] at hr
    cases hr
  | @scanPushes currentTime stack hstack hempty =>
    refine waiting_same h rfl rfl fun r hr => ?_
    have hr := (List.mem_filter.mp hr).2
    simp only [decide_eq_true_eq] at hr
    have hloop : loopStack s.stack = s.stack := by rw [hstack]; rfl
    rw [hloop, ← List.mem_toFinset, ← h.yielded]
    exact hr.1
  | @runNext currentTime stack r rest progress hstack hready =>
    have hrest : Waiting { s with readyRunners := rest } := waiting_same h rfl rfl fun r' hr =>
      h.ready r' (hready ▸ List.mem_cons_of_mem _ hr)
    exact waiting_proceed hrest r progress
  | @resume answer r locals stack progress hstack =>
    have hready := h.ready
    rw [hstack] at hready
    have htail : Waiting { s with
        stack := stack, prompts := s.prompted r (.answer locals answer) } :=
      waiting_same h rfl (by rw [hstack]; rfl) hready
    exact waiting_proceed htail r progress
  | call huser | register huser =>
    exact waiting_same h rfl rfl h.ready
  | unregister huser hmem =>
    exact waiting_same h rfl rfl fun r hr => h.ready r (List.mem_of_mem_erase hr)
  | sendToSelf huser => exact h
  | yieldExecution huser =>
    exact waiting_push h hfree rfl rfl fun _ hr => absurd hr List.not_mem_nil
  | yieldReturns hstack hmem =>
    have hready := h.ready
    rw [hstack] at hready
    exact waiting_pop h rfl (by rw [hstack]; rfl) hready
  | send huser hother => exact waiting_push h (hfree hother) rfl rfl h.ready
  | sendReturns hstack =>
    have hready := h.ready
    rw [hstack] at hready
    exact waiting_pop h rfl (by rw [hstack]; rfl) hready

end Preservation

/-- In every run whose yields are made by queues that are not yielding already: no runner is
started that has an activation on the stack; a queue stays in `yielded_` while its
`YieldExecution` or `Send` is on the stack; and whenever the stack is what it was,
as on the return from either, so is `yielded_`. -/
theorem no_runner_is_reentered (S : Setup ρ α ν ι) (startUs : Int) (object : Nat → ρ)
    (as : List (Act ν ι)) (s : TimeController ρ α ν ι)
    (hrun : Machine.run (step S) (initial S startUs object) as = some s)
    (hfree : Machine.AllSteps (step S) (FreeToYield S) (initial S startUs object) as) :
    (∀ r, s.Starts r → ∀ locals, .runReady r locals ∉ s.stack) ∧
      (∀ f ∈ s.stack, ∀ q, f.yielder = some q → q ∈ s.yielded) ∧
      ∀ bs s', Machine.run (step S) s bs = some s' → Machine.AllSteps (step S) (FreeToYield S) s bs →
        s'.stack = s.stack → s'.yielded = s.yielded := by
  have hinv : ∀ {s₁ s₂ : TimeController ρ α ν ι} {cs : List (Act ν ι)}, Waiting s₁ →
      Machine.AllSteps (step S) (FreeToYield S) s₁ cs → Machine.run (step S) s₁ cs = some s₂ →
      Waiting s₂ := fun h hc hr => Machine.invariant_of_allSteps (I := Waiting)
        (fun _ _ _ h hc hs => waiting_step h hc hs) h hc hr
  have hw := hinv (waiting_initial startUs object) hfree hrun
  refine ⟨fun r hr locals => not_mem_stack_of_starts (wellNested_of_run hrun) hw hr locals,
    fun f hf q hq => ?_, fun bs s' hrun' hfree' hstack => ?_⟩
  · rw [hw.yielded, List.mem_toFinset]
    exact List.mem_filterMap.mpr ⟨f, hf, hq⟩
  · rw [(hinv hw hfree' hrun').yielded, hw.yielded, hstack]

/-- Thread 1 sends to thread 2, whose handler yields; thread 3 runs meanwhile. -/
theorem third_thread_runs_meanwhile :
    ∃ s : SimulationTimeController Nat Nat,
      s.Starts 3 ∧ (∀ locals, .runReady 3 locals ∉ s.stack) ∧
      ∀ f ∈ s.stack, ∀ q, f.yielder = some q → q ∈ s.yielded := by
  have hrun : ∃ s : SimulationTimeController Nat Nat,
      Machine.run (step (simulation 0 1000000))
        (initial (simulation 0 1000000) 1000 fun _ => .thread {})
        [.external 0, .register 1, .register 2, .call 1 (.post 7), .externalReturns, .fireTimer, .scan,
          .runNext, .register 3, .send 2, .call 3 (.post 8), .yieldExecution, .scan] = some s ∧
      s.readyRunners = [3] ∧ s.stack = [.runReadyRunners 1000, .yieldExecution (.runner 2),
        .send 2 (.runner 1), .runReady 1 (.thread (7, .micros 1000)), .runReadyRunners 1000,
        .onTaskTimer 1000] := ⟨_, rfl, rfl, rfl⟩
  obtain ⟨s, hs, hready, hstack⟩ := hrun
  have hstarts : s.Starts 3 := ⟨_, _, _, hstack, hready⟩
  obtain ⟨hstart, hyielded, -⟩ :=
    no_runner_is_reentered (simulation 0 1000000) 1000 _ _ s hs (by decide)
  exact ⟨s, hstarts, hstart 3 hstarts, hyielded⟩

/-- Thread 1 sends to thread 2, whose handler sends to thread 1, whose handler yields. When
that has returned, thread 1 is not in `yielded_` any more, and the handler on thread 2 yields. -/
theorem thread_is_reentered :
    ¬ ∀ (startUs : Int) (object : Nat → Runner Nat Nat) (as : List (Act Int (RunnerCall Nat Nat)))
      (s : SimulationTimeController Nat Nat),
      Machine.run (step (simulation 0 1000000))
        (initial (simulation 0 1000000) startUs object) as = some s →
      ∀ r, s.Starts r → ∀ locals, .runReady r locals ∉ s.stack := by
  intro hall
  have hrun : ∃ s : SimulationTimeController Nat Nat,
      Machine.run (step (simulation 0 1000000))
        (initial (simulation 0 1000000) 1000 fun _ => .thread {})
        [.external 0, .register 1, .register 2, .call 1 (.post 7), .externalReturns, .fireTimer, .scan,
          .runNext, .send 2, .send 1, .yieldExecution, .scan, .yieldReturns, .sendReturns,
          .call 1 (.post 8), .yieldExecution, .scan] = some s ∧
      s.readyRunners = [1] ∧ s.stack = [.runReadyRunners 1000, .yieldExecution (.runner 2),
        .send 2 (.runner 1), .runReady 1 (.thread (7, .micros 1000)), .runReadyRunners 1000,
        .onTaskTimer 1000] := ⟨_, rfl, rfl, rfl⟩
  obtain ⟨s, hs, hready, hstack⟩ := hrun
  refine hall 1000 _ _ s hs 1 ⟨_, _, _, hstack, hready⟩ (.thread (7, .micros 1000)) ?_
  simp [hstack]

end TimeController

end WebrtcGccNs3.Sim
