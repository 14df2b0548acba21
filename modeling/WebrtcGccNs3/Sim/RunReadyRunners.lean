import WebrtcGccNs3.Sim.CallStack
import WebrtcGccNs3.Sim.Runner

/-!
# Only registered runners are run

`ready_runners_` is one list for all activations of `RunReadyRunners`. An inner
activation clears it and leaves it empty, so the loop around it scans again, and
every scan starts from an empty list. `Unregister` takes a runner out of both lists.
-/
namespace WebrtcGccNs3.Sim

namespace TimeController

variable {ρ α ν ι : Type} {S : Setup ρ α ν ι} {s s' : TimeController ρ α ν ι} {a : Act ν ι} {r : Nat}

/-- No runner is registered a second time at once. -/
def RegistersOnce (s : TimeController ρ α ν ι) : Act ν ι → Prop
  | .register r => r ∉ s.runners
  | _ => True

instance (s : TimeController ρ α ν ι) (a : Act ν ι) : Decidable (RegistersOnce s a) :=
  match a with
  | .register r => inferInstanceAs (Decidable (r ∉ s.runners))
  | .fireTimer | .timerTest | .external _ | .externalReturns | .scan | .runNext | .resume _
  | .call .. | .unregister _ | .yieldExecution | .yieldReturns | .send _ | .sendReturns =>
    inferInstanceAs (Decidable True)

structure Roster (s : TimeController ρ α ν ι) : Prop where
  runners : s.runners.Nodup
  ready : s.readyRunners.Nodup
  registered : ∀ r ∈ s.readyRunners, r ∈ s.runners

theorem roster_initial (startUs : Int) (object : Nat → ρ) : Roster (initial S startUs object) :=
  ⟨List.nodup_singleton _, List.nodup_nil, fun _ hr => absurd hr List.not_mem_nil⟩

/-- A step that keeps the runners and takes from the ready ones. -/
theorem roster_sublist (h : Roster s) (hrunners : s'.runners = s.runners)
    (hready : s'.readyRunners.Sublist s.readyRunners) : Roster s' :=
  ⟨hrunners ▸ h.runners, h.ready.sublist hready,
    fun r hr => hrunners ▸ h.registered r (hready.subset hr)⟩

theorem roster_step (h : Roster s) (honce : RegistersOnce s a) (hs : step S s a = some s') :
    Roster s' := by
  cases move_of_step hs with
  | fireTimer | timerAgain | yieldExecution => exact roster_sublist h rfl (List.nil_sublist _)
  | timerReturns | external | externalReturns | scanReturns | call | yieldReturns
  | sendToSelf | send | sendReturns => exact roster_sublist h rfl (List.Sublist.refl _)
  | scanPushes hstack hempty =>
    exact ⟨h.runners, h.runners.filter _, fun r hr => (List.mem_filter.mp hr).1⟩
  | @runNext currentTime stack r rest progress hstack hready =>
    refine roster_sublist h (proceed_runners _ _ _) ?_
    rw [proceed_readyRunners, hready]
    exact List.sublist_cons_self r rest
  | resume progress hstack =>
    refine roster_sublist h (proceed_runners _ _ _) ?_
    rw [proceed_readyRunners]
  | @register r huser =>
    refine ⟨?_, h.ready, fun r' hr' => List.mem_append_left _ (h.registered r' hr')⟩
    exact (List.perm_append_singleton r s.runners).nodup_iff.mpr
      (List.nodup_cons.mpr ⟨honce, h.runners⟩)
  | @unregister r huser hmem =>
    refine ⟨h.runners.erase r, h.ready.erase r, fun r' hr' => ?_⟩
    obtain ⟨hne, hr'⟩ := h.ready.mem_erase_iff.mp hr'
    exact h.runners.mem_erase_iff.mpr ⟨hne, h.registered r' hr'⟩

theorem roster_of_run {as : List (Act ν ι)} (h : Roster s)
    (honce : Machine.AllSteps (step S) RegistersOnce s as)
    (hrun : Machine.run (step S) s as = some s') : Roster s' :=
  Machine.invariant_of_allSteps (I := Roster) (fun _ _ _ h hc hs => roster_step h hc hs) h honce hrun

theorem mem_runners_of_starts (h : Roster s) (hr : s.Starts r) : r ∈ s.runners := by
  obtain ⟨currentTime, stack, rest, -, hready⟩ := hr
  exact h.registered r (hready ▸ List.mem_cons_self)

/-- Only `Register` makes a runner registered. -/
theorem not_mem_runners_step (h : r ∉ s.runners) (ha : a ≠ .register r)
    (hs : step S s a = some s') : r ∉ s'.runners := by
  cases move_of_step hs with
  | fireTimer | timerAgain | timerReturns | external | externalReturns | scanReturns | scanPushes
  | call | yieldExecution | yieldReturns | sendToSelf | send | sendReturns => exact h
  | runNext progress | resume progress => rwa [proceed_runners]
  | @register r' huser =>
    have hne : r ≠ r' := fun he => ha (he ▸ rfl)
    simpa [hne] using h
  | unregister huser hmem => exact fun hr => h (List.mem_of_mem_erase hr)

theorem not_mem_runners_of_run {as : List (Act ν ι)} (h : r ∉ s.runners) (ha : .register r ∉ as)
    (hrun : Machine.run (step S) s as = some s') : r ∉ s'.runners := by
  have hnot : ∀ b ∈ as, b ≠ .register r := fun b hb he => ha (he ▸ hb)
  exact Machine.invariant_of_allSteps (C := fun _ b => b ≠ .register r) (I := fun s => r ∉ s.runners)
    (fun _ _ _ h hb hs => not_mem_runners_step h hb hs) h
    (Machine.allSteps_of_forall_mem (fun b hb _ => hnot b hb) s) hrun

theorem not_mem_runners_of_unregister (h : Roster s) (hs : step S s (.unregister r) = some s') :
    r ∉ s'.runners := by
  cases move_of_step hs with
  | unregister huser hmem => exact fun hr => (h.runners.mem_erase_iff.mp hr).1 rfl

/-- What holds when `RunReadyRunners` returns: its last scan has found nothing. -/
theorem nothing_ready_on_return {currentTime : Int} {stack : List (Frame α)}
    (hstack : s.stack = .runReadyRunners currentTime :: stack) (hs : step S s a = some s')
    (hreturn : s'.stack = stack) :
    s'.readyRunners = [] ∧ s'.now = s.now ∧ ∀ r ∈ s'.runners, .runner r ∉ s'.yielded →
      .micros currentTime < getNextRunTime S s' r := by
  have hnot : ¬ UserCode s.stack := by
    rw [hstack]
    exact id
  have hlonger : ∀ f : Frame α, f :: stack ≠ stack := fun f h => by
    have hlen := congrArg List.length h
    simp at hlen
  cases move_of_step hs with
  | @scanReturns time stack' hstack' hempty hready =>
    obtain ⟨rfl, rfl⟩ : currentTime = time ∧ stack = stack' := by
      rw [hstack] at hstack'
      cases hstack'
      exact ⟨rfl, rfl⟩
    refine ⟨hempty, rfl, fun r hr hy => ?_⟩
    have hscan := List.filter_eq_nil_iff.mp hready r hr
    simp only [decide_eq_true_eq, not_and, not_le] at hscan
    exact hscan hy
  | scanPushes hstack' hempty => exact absurd (hstack.symm.trans hreturn) (hlonger _)
  | @runNext time stack' r rest progress hstack' hready hprogress =>
    rcases proceed_stack { s with readyRunners := rest } r progress with hp | ⟨locals, hp⟩
    · rw [hp] at hreturn
      exact absurd (hstack.symm.trans hreturn) (hlonger _)
    · rw [hp] at hreturn
      have hlen := congrArg List.length hreturn
      simp only [hstack, List.length_cons] at hlen
      omega
  | fireTimer hstack' | timerAgain hstack' | timerReturns hstack' | external hstack'
  | externalReturns hstack' | resume progress hstack' | yieldReturns hstack' | sendReturns hstack' =>
    rw [hstack] at hstack'
    cases hstack'
  | call huser | register huser | unregister huser | yieldExecution huser | sendToSelf huser
  | send huser => exact absurd huser hnot

/-- In every run in which no runner is registered twice at once: `ready_runners_` is free of
duplicates and within `runners_`; a runner that `Unregister` has taken out is not started
before it is registered again; and when a `RunReadyRunners` returns, `ready_runners_` is empty
and each registered runner that is not in `yielded_` is due after the time it has captured, which
is still the time. -/
theorem only_registered_runners_are_run (S : Setup ρ α ν ι) (startUs : Int) (object : Nat → ρ)
    (as : List (Act ν ι)) (s : TimeController ρ α ν ι)
    (hrun : Machine.run (step S) (initial S startUs object) as = some s)
    (honce : Machine.AllSteps (step S) RegistersOnce (initial S startUs object) as) :
    (s.readyRunners.Nodup ∧ ∀ r ∈ s.readyRunners, r ∈ s.runners) ∧
      (∀ r s₁ bs s₂, step S s (.unregister r) = some s₁ → Machine.run (step S) s₁ bs = some s₂ →
        Machine.AllSteps (step S) RegistersOnce s₁ bs → .register r ∉ bs → ¬ s₂.Starts r) ∧
      ∀ a s' currentTime stack, s.stack = .runReadyRunners currentTime :: stack →
        step S s a = some s' → s'.stack = stack →
        s'.readyRunners = [] ∧ currentTime = s'.now ∧
          ∀ r ∈ s'.runners, .runner r ∉ s'.yielded → .micros currentTime < getNextRunTime S s' r := by
  have hroster := roster_of_run (roster_initial startUs object) honce hrun
  refine ⟨⟨hroster.ready, hroster.registered⟩, ?_, ?_⟩
  · intro r s₁ bs s₂ hs hrun' honce' hnever hstarts
    have hroster' := roster_of_run (roster_step (a := .unregister r) hroster trivial hs) honce' hrun'
    have hgone := not_mem_runners_of_run (not_mem_runners_of_unregister hroster hs) hnever hrun'
    exact hgone (mem_runners_of_starts hroster' hstarts)
  · intro a s' currentTime stack hstack hs hreturn
    obtain ⟨hempty, hnow, hlater⟩ := nothing_ready_on_return hstack hs hreturn
    have htime : currentTime = s.now :=
      (wellNested_of_run hrun).times (.runReadyRunners currentTime) (hstack ▸ List.mem_cons_self)
    exact ⟨hempty, htime.trans hnow.symm, hlater⟩

/-- Task queue 1 registers task queue 2 and unregisters itself in its task; the scan that
follows finds nothing. -/
theorem unregistered_queue_is_not_started :
    ∃ s : SimulationTimeController Nat Nat,
      s.runners = [0, 2] ∧ (s.readyRunners.Nodup ∧ ∀ r ∈ s.readyRunners, r ∈ s.runners) ∧
      ∀ s₁, step (simulation 0 1000000) s .scan = some s₁ →
        s₁.stack = [.onTaskTimer 1000] → s₁.readyRunners = [] := by
  have hrun : ∃ s : SimulationTimeController Nat Nat,
      Machine.run (step (simulation 0 1000000))
        (initial (simulation 0 1000000) 1000 mainAndQueues)
        [.external 0, .register 1, .call 1 (.postTask 7), .externalReturns, .fireTimer, .scan,
          .runNext, .register 2, .unregister 1, .resume 0] = some s ∧
      s.runners = [0, 2] ∧ s.stack = [.runReadyRunners 1000, .onTaskTimer 1000] :=
    ⟨_, rfl, rfl, rfl⟩
  obtain ⟨s, hs, hrunners, hstack⟩ := hrun
  obtain ⟨hready, -, hreturn⟩ :=
    only_registered_runners_are_run (simulation 0 1000000) 1000 _ _ s hs (by decide)
  exact ⟨s, hrunners, hready, fun s₁ hs₁ hback => (hreturn .scan s₁ 1000 _ hstack hs₁ hback).1⟩

end TimeController

end WebrtcGccNs3.Sim
