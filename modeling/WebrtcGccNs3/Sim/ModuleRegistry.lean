import WebrtcGccNs3.Sim.ModulePlaces

/-!
# Registration of modules on a process thread

A registered module has one entry while every `WakeUp` is for a module that stands
in `delayed_modules_` and no `DeRegisterModule` is for one that a `RunReady` has
detached. Outside these conditions `WakeUp` enters a module a second time, or one
that is not registered, and a detached module is put back after its removal.
-/
namespace WebrtcGccNs3.Sim

namespace ModulePlaces

variable {μ : Type} [DecidableEq μ] {x y : ModulePlaces μ} {a : ProcessThreadRun.Act μ} {m : μ}

/-- An entry that an action creates is for the module it is given. -/
theorem mem_held_of_moves (h : x.Moves a y) (hm : m ∈ y.held) :
    m ∈ x.held ∨ (∃ n, a = .wakeUp m n) ∨ ∃ n, a = .registerModule m n := by
  cases a with
  | start answer =>
    simp only [Moves] at h
    split at h
    · exact Or.inl (h ▸ hm)
    · obtain ⟨l, hl, rfl⟩ := h
      simp only [held, List.mem_append, hl.mem_iff, List.not_mem_nil, false_or] at hm ⊢
      exact Or.inl hm
  | stop =>
    rw [Moves] at h
    subst h
    left
    simpa [held] using hm
  | wakeUp n answer =>
    obtain ⟨l, hl, rfl⟩ := h
    simp only [held, List.mem_append, hl.mem_iff, List.mem_cons] at hm ⊢
    rcases hm with (hm | rfl | hm) | hm
    · exact Or.inl (Or.inl (Or.inl hm))
    · exact Or.inr (Or.inl ⟨answer, rfl⟩)
    · exact Or.inl (Or.inl (Or.inr (List.mem_of_mem_erase hm)))
    · exact Or.inl (Or.inr hm)
  | registerModule n answer =>
    have hn : m ∈ x.held ∨ m = n := by
      simp only [Moves] at h
      split at h
      · obtain ⟨l, hl, rfl⟩ := h
        simp only [held, List.mem_append, hl.mem_iff, List.mem_cons] at hm ⊢
        tauto
      · subst h
        simp only [held, List.mem_append, List.mem_singleton] at hm ⊢
        tauto
    rcases hn with hn | rfl
    · exact Or.inl hn
    · exact Or.inr (Or.inr ⟨answer, rfl⟩)
  | deRegisterModule n =>
    rw [Moves] at h
    subst h
    left
    split at hm
    · simp only [held, List.mem_append] at hm ⊢
      exact hm.imp_left (Or.imp_right List.mem_of_mem_erase)
    · simp only [held, List.mem_append] at hm ⊢
      exact hm.imp_left (Or.imp_left List.mem_of_mem_erase)
  | runReady =>
    obtain ⟨due, rest, hd, hsplit, rfl⟩ := h
    simp only [held, hsplit, List.mem_append] at hm ⊢
    tauto
  | callbackReturns answer =>
    rcases h with ⟨-, rfl⟩ | ⟨n, rest, l, hd, hl, rfl⟩
    · exact Or.inl hm
    · simp only [held, hd, List.mem_append, hl.mem_iff, List.mem_cons] at hm ⊢
      tauto
  | postTask | postDelayedTask milliseconds | tick now =>
    rw [Moves] at h
    exact Or.inl (h ▸ hm)

end ModulePlaces

namespace ProcessThreadRun

variable {μ : Type} [DecidableEq μ] {s s' : ProcessThreadRun μ} {a : Act μ}

/-! ## One entry for each registered module -/

/-- `Process` calls `WakeUp`, `RegisterModule` and `DeRegisterModule`, not `Start` or
`Stop`, and no module is registered a second time at once. -/
def InScope (s : ProcessThreadRun μ) : Act μ → Prop
  | .start _ | .stop => s.places.detached = []
  | .registerModule m _ => m ∉ s.registered
  | _ => True

/-- The module given to `WakeUp` is in `delayed_modules_`, and the one given to
`DeRegisterModule` is not detached by a `RunReady` under way. -/
def Settled (s : ProcessThreadRun μ) : Act μ → Prop
  | .wakeUp m _ => m ∈ s.thread.delayedModules.values
  | .deRegisterModule m => m ∉ s.places.detached
  | _ => True

instance (s : ProcessThreadRun μ) (a : Act μ) : Decidable (InScope s a) :=
  match a with
  | .start _ | .stop => inferInstanceAs (Decidable (s.places.detached = []))
  | .registerModule m _ => inferInstanceAs (Decidable (m ∉ s.registered))
  | .wakeUp .. | .deRegisterModule _ | .postTask | .postDelayedTask _ | .tick _ | .runReady
  | .callbackReturns _ => inferInstanceAs (Decidable True)

instance (s : ProcessThreadRun μ) (a : Act μ) : Decidable (Settled s a) :=
  match a with
  | .wakeUp m _ => inferInstanceAs (Decidable (m ∈ s.thread.delayedModules.values))
  | .deRegisterModule m => inferInstanceAs (Decidable (m ∉ s.places.detached))
  | .start _ | .stop | .registerModule .. | .postTask | .postDelayedTask _ | .tick _ | .runReady
  | .callbackReturns _ => inferInstanceAs (Decidable True)

/-- Each registered module has one entry, in the container of the thread's state. -/
def OnceEach (s : ProcessThreadRun μ) : Prop :=
  ∀ m, (s.thread.stoppedModules ++ s.thread.delayedModules.values).count m =
      (if m ∈ s.registered then 1 else 0) ∧
    (m ∈ s.registered →
      if s.thread.processThreadRunning then m ∈ s.thread.delayedModules.values
      else m ∈ s.thread.stoppedModules)

/-- The entries, with the detached ones, are the registered modules `r`. -/
structure PlacedOnce (x : ModulePlaces μ) (r : List μ) : Prop where
  nodup : r.Nodup
  held : x.held.Perm r
  running : x.running = true → x.stopped = []
  stopped : x.running = false → x.delayed = [] ∧ x.detached = []

section Steps

variable {x y : ModulePlaces μ} {r : List μ}

theorem placedOnce_start (h : PlacedOnce x r) {answer : Nat → Int}
    (hm : x.Moves (.start answer) y) : PlacedOnce y r := by
  simp only [ModulePlaces.Moves] at hm
  split at hm
  · exact hm ▸ h
  · rename_i hr
    obtain ⟨l, hl, rfl⟩ := hm
    refine ⟨h.nodup, ?_, fun _ => rfl, fun hf => absurd hf (by simp)⟩
    exact (hl.append_right x.detached).trans h.held

theorem placedOnce_stop (h : PlacedOnce x r) (hd : x.detached = []) (hm : x.Moves .stop y) :
    PlacedOnce y r := by
  rw [ModulePlaces.Moves] at hm
  subst hm
  refine ⟨h.nodup, ?_, fun hf => absurd hf (by simp), fun _ => ⟨rfl, hd⟩⟩
  simpa [ModulePlaces.held] using h.held

theorem placedOnce_wakeUp (h : PlacedOnce x r) {m : μ} {answer : Int} (hd : m ∈ x.delayed)
    (hm : x.Moves (.wakeUp m answer) y) : PlacedOnce y r := by
  obtain ⟨l, hl, rfl⟩ := hm
  have hsame : l.Perm x.delayed := hl.trans (List.perm_cons_erase hd).symm
  refine ⟨h.nodup, ?_, h.running, fun hf => ?_⟩
  · exact ((hsame.append_left x.stopped).append_right x.detached).trans h.held
  · rw [(h.stopped hf).1] at hd
    cases hd

theorem placedOnce_registerModule (h : PlacedOnce x r) {m : μ} {answer : Int} (hr : m ∉ r)
    (hm : x.Moves (.registerModule m answer) y) : PlacedOnce y (r ++ [m]) := by
  have hnodup : (r ++ [m]).Nodup :=
    (List.perm_append_singleton m r).nodup_iff.mpr (List.nodup_cons.mpr ⟨hr, h.nodup⟩)
  have hcons : (m :: x.held).Perm (r ++ [m]) :=
    (h.held.cons m).trans (List.perm_append_singleton m r).symm
  simp only [ModulePlaces.Moves] at hm
  split at hm
  · rename_i hrun
    obtain ⟨l, hl, rfl⟩ := hm
    refine ⟨hnodup, ?_, h.running, fun hf => absurd hrun (by simp at hf; simp [hf])⟩
    refine List.Perm.trans ?_ hcons
    exact ((hl.append_left x.stopped).append_right x.detached).trans
      (List.perm_middle.append_right x.detached)
  · rename_i hrun
    subst hm
    refine ⟨hnodup, ?_, fun ht => absurd ht hrun, h.stopped⟩
    refine List.Perm.trans ?_ hcons
    simp only [ModulePlaces.held, List.append_assoc, List.singleton_append]
    exact List.perm_middle

theorem placedOnce_deRegisterModule (h : PlacedOnce x r) {m : μ} (hd : m ∉ x.detached)
    (hm : x.Moves (.deRegisterModule m) y) : PlacedOnce y (r.erase m) := by
  rw [ModulePlaces.Moves] at hm
  subst hm
  have herase := h.held.erase m
  have hnodup := h.nodup.erase m
  split
  · rename_i hrun
    refine ⟨hnodup, ?_, h.running, fun hf => absurd hrun (by simp at hf; simp [hf])⟩
    rw [ModulePlaces.held, h.running hrun, List.nil_append] at herase ⊢
    by_cases hmem : m ∈ x.delayed
    · rwa [List.erase_append_left _ hmem] at herase
    · rw [List.erase_of_not_mem hmem]
      rwa [List.erase_append_right _ hmem, List.erase_of_not_mem hd] at herase
  · rename_i hrun
    have hrun : x.running = false := Bool.eq_false_iff.mpr hrun
    obtain ⟨hdel, hdet⟩ := h.stopped hrun
    refine ⟨hnodup, ?_, fun ht => absurd ht (by simp [hrun]), h.stopped⟩
    rw [ModulePlaces.held, hdel, hdet, List.append_nil, List.append_nil] at herase ⊢
    exact herase

theorem placedOnce_runReady (h : PlacedOnce x r) (hm : x.Moves .runReady y) : PlacedOnce y r := by
  obtain ⟨due, rest, hd, hsplit, rfl⟩ := hm
  refine ⟨h.nodup, List.Perm.trans ?_ h.held, h.running, fun hf => ?_⟩
  · simp only [ModulePlaces.held, hd, hsplit, List.append_nil, List.append_assoc]
    exact List.perm_append_comm.append_left x.stopped
  · have hnil := (h.stopped hf).1
    rw [hsplit, List.append_eq_nil_iff] at hnil
    exact ⟨hnil.2, hnil.1⟩

theorem placedOnce_callbackReturns (h : PlacedOnce x r) {answer : Int}
    (hm : x.Moves (.callbackReturns answer) y) : PlacedOnce y r := by
  rcases hm with ⟨-, rfl⟩ | ⟨m, rest, l, hd, hl, rfl⟩
  · exact h
  · refine ⟨h.nodup, List.Perm.trans ?_ h.held, h.running, fun hf => ?_⟩
    · rw [ModulePlaces.held, ModulePlaces.held, hd]
      refine ((hl.append_left x.stopped).append_right rest).trans ?_
      simp only [List.append_assoc, List.cons_append]
      exact List.perm_middle.symm.append_left x.stopped
    · have hnil := (h.stopped hf).2
      rw [hd] at hnil
      cases hnil

end Steps

/-- The invariant: every entry, detached or not, is the one entry of a registered module. -/
def Registry (s : ProcessThreadRun μ) : Prop := PlacedOnce s.places s.registered

omit [DecidableEq μ] in
theorem registry_initial (now : Int) : Registry (initial now : ProcessThreadRun μ) :=
  ⟨List.nodup_nil, List.Perm.refl _, fun _ => rfl, fun _ => ⟨rfl, rfl⟩⟩

theorem registry_step (h : Registry s) (hin : InScope s a) (hok : Settled s a)
    (hs : step s a = some s') : Registry s' := by
  have hm := step_places hs
  rw [Registry, step_registered hs]
  cases a with
  | start answer => exact placedOnce_start h hm
  | stop => exact placedOnce_stop h hin hm
  | wakeUp m answer => exact placedOnce_wakeUp h hok hm
  | registerModule m answer => exact placedOnce_registerModule h hin hm
  | deRegisterModule m => exact placedOnce_deRegisterModule h hok hm
  | runReady => exact placedOnce_runReady h hm
  | callbackReturns answer => exact placedOnce_callbackReturns h hm
  | postTask | postDelayedTask milliseconds | tick now =>
    rw [ModulePlaces.Moves] at hm
    exact hm ▸ h

theorem onceEach_of_registry (h : Registry s) (hidle : s.activation = none) : OnceEach s := by
  have hheld : (s.thread.stoppedModules ++ s.thread.delayedModules.values).Perm s.registered := by
    have hp := h.held
    simpa [ModulePlaces.held, places, hidle, SimulatedProcessThread.detached] using hp
  intro m
  refine ⟨?_, fun hm => ?_⟩
  · rw [hheld.count_eq]
    split
    · rename_i hm
      exact List.count_eq_one_of_mem h.nodup hm
    · rename_i hm
      exact List.count_eq_zero.mpr hm
  · have hmem := List.mem_append.mp (hheld.mem_iff.mpr hm)
    split
    · rename_i hrun
      have hnil : s.thread.stoppedModules = [] := h.running hrun
      simpa [hnil] using hmem
    · rename_i hrun
      have hnil : s.thread.delayedModules.values = [] := (h.stopped (Bool.eq_false_iff.mpr hrun)).1
      simpa [hnil] using hmem

/-- In every run whose `WakeUp` and `DeRegisterModule` calls are settled, each registered
module has one entry whenever no `RunReady` is under way, and no other module has any. -/
theorem registered_modules_occur_once (now : Int) (as : List (Act μ)) (s : ProcessThreadRun μ)
    (hrun : Machine.run step (initial now) as = some s)
    (hin : Machine.AllSteps step InScope (initial now) as)
    (hok : Machine.AllSteps step Settled (initial now) as)
    (hidle : s.activation = none) : OnceEach s := by
  refine onceEach_of_registry ?_ hidle
  exact Machine.invariant_of_allSteps (I := Registry) (C := fun s a => InScope s a ∧ Settled s a)
    (fun _ _ _ h hc hs => registry_step h hc.1 hc.2 hs) (registry_initial now)
    (Machine.AllSteps.and hin hok) hrun

/-- Modules 1 and 2 are registered and started, and `Process` of 1 wakes 2 up. -/
theorem woken_module_occurs_once :
    ∃ s : ProcessThreadRun Nat, Machine.run step (initial 0)
        [.registerModule 1 0, .registerModule 2 0, .start fun m => 5 * m, .runReady, .wakeUp 2 7,
          .callbackReturns 10, .deRegisterModule 2] = some s ∧
      s.registered = [1] ∧ OnceEach s := by
  have hrun : ∃ s : ProcessThreadRun Nat, Machine.run step (initial 0)
      [.registerModule 1 0, .registerModule 2 0, .start fun m => 5 * m, .runReady, .wakeUp 2 7,
        .callbackReturns 10, .deRegisterModule 2] = some s ∧
      s.registered = [1] ∧ s.activation = none := ⟨_, rfl, rfl, rfl⟩
  obtain ⟨s, hs, hr, hidle⟩ := hrun
  exact ⟨s, hs, hr, registered_modules_occur_once 0 _ s hs (by decide) (by decide) hidle⟩

/-- A module that deregisters itself in `Process` is put back into `delayed_modules_`. -/
theorem self_deregistered_module_occurs :
    ¬ ∀ (now : Int) (as : List (Act Nat)) (s : ProcessThreadRun Nat),
      Machine.run step (initial now) as = some s →
      Machine.AllSteps step InScope (initial now) as →
      s.activation = none → OnceEach s := by
  intro hall
  have hrun : ∃ s : ProcessThreadRun Nat, Machine.run step (initial 0)
      [.registerModule 1 0, .start fun _ => 0, .runReady, .deRegisterModule 1,
        .callbackReturns 10] = some s ∧
      s.activation = none ∧ s.registered = [] ∧ s.thread.delayedModules.values = [1] ∧
      s.thread.stoppedModules = [] := ⟨_, rfl, rfl, rfl, rfl, rfl⟩
  obtain ⟨s, hs, hidle, hr, hd, hst⟩ := hrun
  have hcount := (hall 0 _ s hs (by decide) hidle 1).1
  simp [hr, hd, hst] at hcount

end ProcessThreadRun

end WebrtcGccNs3.Sim
