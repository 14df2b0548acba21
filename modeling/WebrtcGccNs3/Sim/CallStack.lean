import WebrtcGccNs3.Sim.Controller

/-!
# The call stack of the controller

Which activations can stand on which, in every run: `RunReadyRunners` on a timer or
a yield, `RunReady` on `RunReadyRunners`, a yield or a `Send` on the code that made
it. All activations know the same time, since the clock stands still until the
event has returned.
-/
namespace WebrtcGccNs3.Sim

namespace TimeController

variable {ρ α ν ι : Type} {S : Setup ρ α ν ι} {s s' : TimeController ρ α ν ι} {a : Act ν ι}

inductive Nested (S : Setup ρ α ν ι) : List (Frame α) → Prop where
  | idle : Nested S []
  | external : Nested S [.external]
  | onTaskTimer {time : Int} : Nested S [.onTaskTimer time]
  | timerRuns {time currentTime : Int} (h : Nested S [.onTaskTimer time]) :
      Nested S [.runReadyRunners currentTime, .onTaskTimer time]
  | yieldRuns {currentTime : Int} {yieldingFrom : TaskQueueRef} {stack : List (Frame α)}
      (h : Nested S (.yieldExecution yieldingFrom :: stack)) :
      Nested S (.runReadyRunners currentTime :: .yieldExecution yieldingFrom :: stack)
  | runReady {r : Nat} {locals : α} {currentTime : Int} {stack : List (Frame α)}
      (h : Nested S (.runReadyRunners currentTime :: stack)) :
      Nested S (.runReady r locals :: .runReadyRunners currentTime :: stack)
  | yieldExecution {stack : List (Frame α)} (h : Nested S stack) (huser : UserCode stack) :
      Nested S (.yieldExecution (current S stack) :: stack)
  | send {thread : Nat} {stack : List (Frame α)} (h : Nested S stack) (huser : UserCode stack) :
      Nested S (.send thread (current S stack) :: stack)

theorem Nested.tail {f : Frame α} {stack : List (Frame α)} (h : Nested S (f :: stack)) :
    Nested S stack := by
  cases h with
  | external | onTaskTimer => exact .idle
  | timerRuns h | yieldRuns h | runReady h | yieldExecution h | send h => exact h

theorem UserCode.ne_nil {stack : List (Frame α)} (h : UserCode stack) : stack ≠ [] := by
  rintro rfl
  exact h

/-- Only an ns-3 event stands on nothing. -/
theorem Nested.tail_ne_nil {f : Frame α} {stack : List (Frame α)} (h : Nested S (f :: stack))
    (hexternal : f ≠ .external) (htimer : ∀ time, f ≠ .onTaskTimer time) : stack ≠ [] := by
  cases h with
  | external => exact absurd rfl hexternal
  | onTaskTimer => exact absurd rfl (htimer _)
  | timerRuns | yieldRuns | runReady => exact List.cons_ne_nil _ _
  | yieldExecution h huser | send h huser => exact huser.ne_nil

structure WellNested (S : Setup ρ α ν ι) (s : TimeController ρ α ν ι) : Prop where
  nested : Nested S s.stack
  times : ∀ f ∈ s.stack, f.At s.now

theorem wellNested_initial (startUs : Int) (object : Nat → ρ) :
    WellNested S (initial S startUs object) :=
  ⟨.idle, fun _ hf => absurd hf List.not_mem_nil⟩

/-- A return leaves a well-nested stack. -/
theorem wellNested_tail (h : WellNested S s) {f : Frame α} (hf : s.stack = f :: s'.stack)
    (hnow : s'.now = s.now) : WellNested S s' := by
  obtain ⟨hn, ht⟩ := h
  rw [hf] at hn ht
  exact ⟨hn.tail, fun f' hf' => hnow ▸ ht f' (List.mem_cons_of_mem _ hf')⟩

/-- So does a call that may stand on the stack. -/
theorem wellNested_cons (h : WellNested S s) {f : Frame α} (hf : s'.stack = f :: s.stack)
    (hn : Nested S (f :: s.stack)) (ht : f.At s.now) (hnow : s'.now = s.now) : WellNested S s' := by
  refine ⟨hf ▸ hn, fun f' hf' => ?_⟩
  rw [hf] at hf'
  rw [hnow]
  rcases List.mem_cons.mp hf' with rfl | hf'
  · exact ht
  · exact h.times f' hf'

theorem wellNested_same (h : WellNested S s) (hstack : s'.stack = s.stack) (hnow : s'.now = s.now) :
    WellNested S s' :=
  ⟨hstack ▸ h.nested, fun f hf => hnow ▸ h.times f (hstack ▸ hf)⟩

theorem wellNested_step (h : WellNested S s) (hs : step S s a = some s') : WellNested S s' := by
  cases move_of_step hs with
  | fireTimer hidle hmin hnow =>
    refine ⟨.timerRuns .onTaskTimer, fun f hf => ?_⟩
    rcases List.mem_cons.mp hf with rfl | hf
    · rfl
    · obtain rfl := List.mem_singleton.mp hf
      rfl
  | @timerAgain currentTime stack hstack hdue =>
    have hn := h.nested
    rw [hstack] at hn
    obtain rfl : stack = [] := by cases hn; rfl
    refine wellNested_cons h rfl ?_ rfl rfl
    rw [hstack]
    exact .timerRuns .onTaskTimer
  | timerReturns hstack hlater => exact wellNested_tail h hstack rfl
  | external hidle hnow horder =>
    refine ⟨.external, fun f hf => ?_⟩
    obtain rfl := List.mem_singleton.mp hf
    trivial
  | externalReturns hstack => exact wellNested_tail h hstack rfl
  | scanReturns hstack hempty hready => exact wellNested_tail h hstack rfl
  | scanPushes hstack hempty => exact wellNested_same h rfl rfl
  | @runNext currentTime stack r rest progress hstack hready =>
    rcases proceed_stack { s with readyRunners := rest } r progress with hp | ⟨locals, hp⟩
    · exact wellNested_same h hp (proceed_now _ _ _)
    · refine wellNested_cons h hp ?_ trivial (proceed_now _ _ _)
      have hn := h.nested
      rw [hstack] at hn ⊢
      exact .runReady hn
  | @resume answer r locals stack progress hstack =>
    have htail : WellNested S { s with
        stack := stack, prompts := s.prompted r (.answer locals answer) } := wellNested_tail h hstack rfl
    rcases proceed_stack { s with
        stack := stack, prompts := s.prompted r (.answer locals answer) } r progress with
      hp | ⟨locals', hp⟩
    · exact wellNested_same htail hp (proceed_now _ _ _)
    · refine wellNested_cons htail hp ?_ trivial (proceed_now _ _ _)
      have hn := h.nested
      rw [hstack] at hn
      cases hn with
      | runReady hn => exact .runReady hn
  | call huser | register huser | unregister huser hmem
  | sendToSelf huser => exact wellNested_same h rfl rfl
  | yieldExecution huser =>
    have hyield : WellNested S { s with
        yielded := insert (current S s.stack) s.yielded
        stack := .yieldExecution (current S s.stack) :: s.stack } :=
      wellNested_cons h rfl (.yieldExecution h.nested huser) trivial rfl
    exact wellNested_cons hyield rfl (.yieldRuns hyield.nested) rfl rfl
  | yieldReturns hstack hmem => exact wellNested_tail h hstack rfl
  | send huser hother => exact wellNested_cons h rfl (.send h.nested huser) trivial rfl
  | sendReturns hstack => exact wellNested_tail h hstack rfl

theorem wellNested_of_run {startUs : Int} {object : Nat → ρ} {as : List (Act ν ι)}
    (hrun : Machine.run (step S) (initial S startUs object) as = some s) : WellNested S s :=
  Machine.invariant (I := WellNested S) (fun _ _ _ h hs => wellNested_step h hs)
    (wellNested_initial startUs object) hrun

end TimeController

end WebrtcGccNs3.Sim
