import WebrtcGccNs3.Sim.ProcessThread
import Mathlib.Data.List.Perm.Basic

/-!
# Where a process thread keeps its modules

A module is in `stopped_modules_`, in `delayed_modules_`, or detached: in the local
`ready_modules` of a `RunReady`. `Moves` says once what each action does to these
three places, and `step_log` which calls it makes; the invariants of registration
are derived from the two.
-/
namespace WebrtcGccNs3.Sim

open SimulatedProcessThread (Locals detached)

structure ModulePlaces (μ : Type) where
  running : Bool
  stopped : List μ
  delayed : List μ
  detached : List μ

namespace ModulePlaces

variable {μ : Type} [DecidableEq μ]

/-- Every entry for a module, in whatever place. -/
def held (x : ModulePlaces μ) : List μ := x.stopped ++ x.delayed ++ x.detached

/-- What an action does to the places. The order inside `delayed` is left open
where a module enters it, since its next time decides that. -/
def Moves (x : ModulePlaces μ) (a : ProcessThreadRun.Act μ) (y : ModulePlaces μ) : Prop :=
  match a with
  | .start _ =>
    if x.running then y = x
    else ∃ l, l.Perm (x.stopped ++ x.delayed) ∧
      y = { x with running := true, stopped := [], delayed := l }
  | .stop => y = { x with running := false, stopped := x.stopped ++ x.delayed, delayed := [] }
  | .wakeUp m _ => ∃ l, l.Perm (m :: x.delayed.erase m) ∧ y = { x with delayed := l }
  | .registerModule m _ =>
    if x.running then ∃ l, l.Perm (m :: x.delayed) ∧ y = { x with delayed := l }
    else y = { x with stopped := x.stopped ++ [m] }
  | .deRegisterModule m =>
    y = if x.running then { x with delayed := x.delayed.erase m }
      else { x with stopped := x.stopped.erase m }
  | .runReady => ∃ due rest, x.detached = [] ∧ x.delayed = due ++ rest ∧
      y = { x with delayed := rest, detached := due }
  | .callbackReturns _ => x.detached = [] ∧ y = x ∨
      ∃ m rest l, x.detached = m :: rest ∧ l.Perm (m :: x.delayed) ∧
        y = { x with delayed := l, detached := rest }
  | .postTask | .postDelayedTask _ | .tick _ => y = x

end ModulePlaces

namespace SimulatedProcessThread

variable {τ μ : Type}

theorem values_delayModule (p : SimulatedProcessThread τ μ) (atTime : Timestamp) (m : μ)
    (answer : Int) :
    (p.delayModule atTime m answer).delayedModules.values.Perm (m :: p.delayedModules.values) :=
  BucketMap.values_push_perm _ _ _

/-- `Start` of a stopped thread moves every stopped module, and asks each when to be called. -/
theorem start_of_stopped (p : SimulatedProcessThread τ μ) (now : Int) (answer : Nat → Int)
    (h : p.processThreadRunning = false) :
    (p.start now answer).processThreadRunning = true ∧ (p.start now answer).stoppedModules = [] ∧
      (p.start now answer).delayedModules.values.Perm
        (p.stoppedModules ++ p.delayedModules.values) := by
  have hfold : ∀ (ms : List (μ × Nat)) (q : SimulatedProcessThread τ μ),
      let r := ms.foldl (fun p m => p.delayModule (.micros now) m.1 (answer m.2)) q
      r.processThreadRunning = q.processThreadRunning ∧ r.stoppedModules = q.stoppedModules ∧
        r.delayedModules.values.Perm (ms.map Prod.fst ++ q.delayedModules.values) := by
    intro ms
    induction ms with
    | nil => exact fun q => ⟨rfl, rfl, List.Perm.refl _⟩
    | cons m ms ih =>
      intro q
      obtain ⟨hr, hs, hv⟩ := ih (q.delayModule (.micros now) m.1 (answer m.2))
      refine ⟨hr, hs, hv.trans ?_⟩
      exact ((values_delayModule q _ _ _).append_left _).trans List.perm_middle
  obtain ⟨hr, hs, hv⟩ := hfold p.stoppedModules.zipIdx
    { p with processThreadRunning := true, stoppedModules := [] }
  rw [List.zipIdx_map_fst] at hv
  unfold start
  rw [h]
  exact ⟨hr, hs, hv⟩

end SimulatedProcessThread

/-- A call that makes a module work or asks it for its next time. -/
def Event.Asks {μ : Type} (e : Event μ) (m : μ) : Prop :=
  e = .call (.process m) ∨ e = .call (.timeUntilNextProcess m)

namespace ProcessThreadRun

variable {μ : Type}

def places (s : ProcessThreadRun μ) : ModulePlaces μ where
  running := s.thread.processThreadRunning
  stopped := s.thread.stoppedModules
  delayed := s.thread.delayedModules.values
  detached := detached s.activation

def placesOf (p : SimulatedProcessThread (Posting Timestamp) μ) (detached : List μ) :
    ModulePlaces μ :=
  ⟨p.processThreadRunning, p.stoppedModules, p.delayedModules.values, detached⟩

theorem places_proceed_runTasks (s : ProcessThreadRun μ)
    (p : SimulatedProcessThread (Posting Timestamp) μ) (atTime : Timestamp) :
    (s.proceed (p.runTasks atTime)).places = placesOf p [] := by
  unfold SimulatedProcessThread.runTasks
  split <;> rfl

theorem places_proceed_runModules (s : ProcessThreadRun μ)
    (p : SimulatedProcessThread (Posting Timestamp) μ) (atTime : Timestamp) (modules : List μ) :
    (s.proceed (p.runModules atTime modules)).places = placesOf p modules := by
  cases modules with
  | nil => exact places_proceed_runTasks s (p.moveDue atTime) atTime
  | cons module rest => rfl

theorem log_proceed_runTasks (s : ProcessThreadRun μ)
    (p : SimulatedProcessThread (Posting Timestamp) μ) (atTime : Timestamp) :
    (s.proceed (p.runTasks atTime)).log = s.log ∧
      (s.proceed (p.runTasks atTime)).registered = s.registered := by
  unfold SimulatedProcessThread.runTasks
  split <;> exact ⟨rfl, rfl⟩

theorem log_proceed_runModules (s : ProcessThreadRun μ)
    (p : SimulatedProcessThread (Posting Timestamp) μ) (atTime : Timestamp) (modules : List μ) :
    (s.proceed (p.runModules atTime modules)).log =
        s.log ++ modules.head?.toList.map (Event.call ∘ .process) ∧
      (s.proceed (p.runModules atTime modules)).registered = s.registered := by
  cases modules with
  | nil =>
    obtain ⟨hl, hr⟩ := log_proceed_runTasks s (p.moveDue atTime) atTime
    exact ⟨hl.trans (List.append_nil _).symm, hr⟩
  | cons module rest => exact ⟨rfl, rfl⟩

variable [DecidableEq μ]

/-- What a step does to the places. -/
theorem step_places {s s' : ProcessThreadRun μ} {a : Act μ} (h : step s a = some s') :
    s.places.Moves a s'.places := by
  cases a with
  | start answer =>
    cases h
    simp only [ModulePlaces.Moves]
    split
    · rename_i hr
      have hr : s.thread.processThreadRunning = true := hr
      simp [places, SimulatedProcessThread.start, hr]
    · rename_i hr
      obtain ⟨h1, h2, h3⟩ := SimulatedProcessThread.start_of_stopped s.thread s.now answer
        (Bool.eq_false_iff.mpr hr)
      exact ⟨_, h3, by simp [places, h1, h2]⟩
  | stop | postTask | postDelayedTask milliseconds =>
    cases h
    rfl
  | tick now =>
    simp only [step] at h
    split at h
    · cases h
      rfl
    · cases h
  | wakeUp m answer =>
    cases h
    refine ⟨_, ?_, rfl⟩
    have hp := BucketMap.values_push_perm (s.thread.delayedModules.remove m)
      ((Timestamp.micros s.now).plusMillis answer) m
    rwa [BucketMap.values_remove] at hp
  | registerModule m answer =>
    cases h
    by_cases hr : s.thread.processThreadRunning
    · simp only [ModulePlaces.Moves, places, hr, if_true]
      refine ⟨_, SimulatedProcessThread.values_delayModule s.thread (.micros s.now) m answer, ?_⟩
      simp [SimulatedProcessThread.registerModule, SimulatedProcessThread.delayModule, hr]
    · simp [ModulePlaces.Moves, places, SimulatedProcessThread.registerModule, hr]
  | deRegisterModule m =>
    cases h
    by_cases hr : s.thread.processThreadRunning <;>
      simp [ModulePlaces.Moves, places, SimulatedProcessThread.deRegisterModule, hr,
        BucketMap.values_remove]
  | runReady =>
    simp only [step] at h
    split at h
    · rename_i hidle
      cases h
      refine ⟨s.thread.delayedModules.due (.micros s.now),
        (s.thread.delayedModules.dropDue (.micros s.now)).values, ?_, ?_, ?_⟩
      · simp [places, hidle, detached]
      · exact (BucketMap.due_append s.thread.delayedModules (.micros s.now)).symm
      · exact places_proceed_runModules _ _ _ _
    · cases h
  | callbackReturns answer =>
    simp only [step] at h
    split at h
    · cases h
    · rename_i m rest atTime hact
      cases h
      refine Or.inr ⟨m, rest, _, by simp [places, hact, detached],
        SimulatedProcessThread.values_delayModule s.thread atTime m answer, ?_⟩
      exact places_proceed_runModules _ _ _ _
    · rename_i task atTime hact
      cases h
      refine Or.inl ⟨by simp [places, hact, detached], ?_⟩
      refine (places_proceed_runTasks s s.thread atTime).trans ?_
      simp [placesOf, places, hact, detached]

theorem step_registered {s s' : ProcessThreadRun μ} {a : Act μ} (h : step s a = some s') :
    s'.registered = match a with
      | .registerModule m _ => s.registered ++ [m]
      | .deRegisterModule m => s.registered.erase m
      | _ => s.registered := by
  cases a with
  | start | stop | wakeUp | registerModule | deRegisterModule | postTask | postDelayedTask =>
    cases h
    rfl
  | tick now =>
    simp only [step] at h
    split at h
    · cases h
      rfl
    · cases h
  | runReady =>
    simp only [step] at h
    split at h
    · cases h
      exact (log_proceed_runModules _ _ _ _).2
    · cases h
  | callbackReturns answer =>
    simp only [step] at h
    split at h
    · cases h
    · cases h
      exact (log_proceed_runModules _ _ _ _).2
    · cases h
      exact (log_proceed_runTasks _ _ _).2

/-- What a step adds to the log. Apart from `WakeUp` and `RegisterModule`, which ask
the module they are given, only modules that the thread holds are asked. -/
theorem step_log {s s' : ProcessThreadRun μ} {a : Act μ} (h : step s a = some s') :
    ∃ es, s'.log = s.log ++ es ∧
      match a with
      | .registerModule m _ => ∃ cs : List (ModuleCall μ),
          es = .registerModule m :: cs.map .call ∧ ∀ e ∈ es, ∀ m', e.Asks m' → m' = m
      | .deRegisterModule m => ∃ cs : List (ModuleCall μ),
          es = cs.map .call ++ [.deRegisterModule m] ∧ ∀ e ∈ es, ∀ m', ¬ e.Asks m'
      | .wakeUp m _ => es = [.call (.timeUntilNextProcess m)]
      | _ => (∃ cs : List (ModuleCall μ), es = cs.map .call) ∧
          ∀ e ∈ es, ∀ m, e.Asks m → m ∈ s.places.held := by
  cases a with
  | start answer =>
    cases h
    refine ⟨_, rfl, ⟨_, rfl⟩, ?_⟩
    intro e he m hm
    unfold SimulatedProcessThread.startCalls at he
    split at he
    · simp at he
    · rcases hm with rfl | rfl <;> simp at he
      exact List.mem_append_left _ (List.mem_append_left _ he)
  | stop =>
    cases h
    refine ⟨_, rfl, ⟨_, rfl⟩, ?_⟩
    rintro e he m (rfl | rfl) <;> simp [SimulatedProcessThread.stopCalls] at he
  | wakeUp m answer =>
    cases h
    exact ⟨_, rfl, rfl⟩
  | registerModule m answer =>
    cases h
    refine ⟨_, rfl, _, rfl, ?_⟩
    unfold SimulatedProcessThread.registerModuleCalls
    split <;> rintro e he m' (rfl | rfl) <;> simp at he
    exact he
  | deRegisterModule m =>
    cases h
    refine ⟨_, List.append_assoc _ _ _, _, rfl, ?_⟩
    unfold SimulatedProcessThread.deRegisterModuleCalls
    split <;> rintro e he m' (rfl | rfl) <;> simp at he
  | postTask | postDelayedTask milliseconds =>
    cases h
    exact ⟨[], (List.append_nil _).symm, ⟨[], rfl⟩, fun e he => absurd he List.not_mem_nil⟩
  | tick now =>
    simp only [step] at h
    split at h
    · cases h
      exact ⟨[], (List.append_nil _).symm, ⟨[], rfl⟩, fun e he => absurd he List.not_mem_nil⟩
    · cases h
  | runReady =>
    simp only [step] at h
    split at h
    · cases h
      refine ⟨_, (log_proceed_runModules _ _ _ _).1, ⟨_, List.map_map.symm⟩, ?_⟩
      intro e he m hm
      have hdue : m ∈ s.thread.delayedModules.due (.micros s.now) := by
        cases hd : s.thread.delayedModules.due (.micros s.now) with
        | nil => simp [hd] at he
        | cons m' rest =>
          rcases hm with rfl | rfl <;> simp [hd] at he
          exact he ▸ List.mem_cons_self
      refine List.mem_append_left _ (List.mem_append_right _ ?_)
      show m ∈ s.thread.delayedModules.values
      rw [← BucketMap.due_append s.thread.delayedModules (.micros s.now)]
      exact List.mem_append_left _ hdue
    · cases h
  | callbackReturns answer =>
    simp only [step] at h
    split at h
    · cases h
    · rename_i m rest atTime hact
      cases h
      have hl := (log_proceed_runModules
        { s with log := s.log ++ [Event.call (.timeUntilNextProcess m)] }
        (s.thread.delayModule atTime m answer) atTime rest).1
      rw [List.append_assoc] at hl
      refine ⟨_, hl, ⟨.timeUntilNextProcess m :: rest.head?.toList.map .process, ?_⟩, ?_⟩
      · simp
      · intro e he m' hm'
        have hd : m' = m ∨ m' ∈ rest := by
          cases rest with
          | nil => rcases hm' with rfl | rfl <;> simp at he; exact Or.inl he
          | cons m₁ rest =>
            rcases hm' with rfl | rfl <;> simp at he
            · exact Or.inr (he ▸ List.mem_cons_self)
            · exact Or.inl he
        refine List.mem_append_right _ ?_
        simpa [places, hact, detached] using hd
    · cases h
      exact ⟨[], (log_proceed_runTasks _ _ _).1.trans (List.append_nil _).symm, ⟨[], rfl⟩,
        fun e he => absurd he List.not_mem_nil⟩

end ProcessThreadRun

end WebrtcGccNs3.Sim
