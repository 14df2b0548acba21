import WebrtcGccNs3.Sim.ModuleRegistry

/-!
# Calls on deregistered modules

The thread asks only modules it holds, and the one that `WakeUp` or `RegisterModule`
gives it. So a deregistered module is left alone when `DeRegisterModule` leaves no
entry of it behind and nobody wakes it up. `DeRegisterModule` does not look into the
`ready_modules` of a `RunReady` under way, so it can leave one there.
-/
namespace WebrtcGccNs3.Sim

variable {μ : Type} [DecidableEq μ]

/-- Deregistered, and not passed to `RegisterModule` since. -/
def deregistered (log : List (Event μ)) (m : μ) : Bool :=
  log.foldl (fun d e => if e = .deRegisterModule m then true
    else if e = .registerModule m then false else d) false

/-- After `DeRegisterModule(m)` there is no call of `m` before `RegisterModule(m)`. -/
def NotAskedSince (log : List (Event μ)) : Prop :=
  ∀ before between after m e, log = before ++ .deRegisterModule m :: (between ++ e :: after) →
    e.Asks m → Event.registerModule m ∈ between

section Log

variable {log es : List (Event μ)} {m m' : μ}

@[simp] theorem deregistered_append_registerModule :
    deregistered (log ++ [.registerModule m]) m' = (if m = m' then false else deregistered log m') := by
  simp [deregistered]

@[simp] theorem deregistered_append_deRegisterModule :
    deregistered (log ++ [.deRegisterModule m]) m' = (if m = m' then true else deregistered log m') := by
  simp [deregistered]

theorem deregistered_append_of_not_mem (hd : Event.deRegisterModule m ∉ es)
    (hr : Event.registerModule m ∉ es) : deregistered (log ++ es) m = deregistered log m := by
  induction es generalizing log with
  | nil => rw [List.append_nil]
  | cons e es ih =>
    have hcons : deregistered (log ++ [e]) m = deregistered log m := by
      have hne : e ≠ .deRegisterModule m := fun he => hd (by simp [he])
      have hne' : e ≠ .registerModule m := fun he => hr (by simp [he])
      simp [deregistered, hne, hne']
    rw [List.append_cons, ih (fun h => hd (List.mem_cons_of_mem _ h))
      (fun h => hr (List.mem_cons_of_mem _ h)), hcons]

@[simp] theorem deregistered_append_calls (cs : List (ModuleCall μ)) :
    deregistered (log ++ cs.map .call) m = deregistered log m :=
  deregistered_append_of_not_mem (by simp) (by simp)

theorem deregistered_of_not_mem {before between : List (Event μ)}
    (hr : Event.registerModule m ∉ between) :
    deregistered (before ++ .deRegisterModule m :: between) m = true := by
  induction between using List.reverseRecOn with
  | nil => simp
  | append_singleton between e ih =>
    have ih := ih (fun h => hr (List.mem_append_left _ h))
    by_cases he : e = .deRegisterModule m
    · rw [he, ← List.cons_append, ← List.append_assoc, deregistered_append_deRegisterModule,
        if_pos rfl]
    · rw [← List.cons_append, ← List.append_assoc, deregistered_append_of_not_mem _ _, ih]
      · simpa using Ne.symm he
      · exact fun h => hr (List.mem_append_right _ h)

/-- No module is asked while it is deregistered. -/
def Quiet (log : List (Event μ)) : Prop :=
  ∀ before e after m, log = before ++ e :: after → e.Asks m → deregistered before m = false

theorem notAskedSince_of_quiet (h : Quiet log) : NotAskedSince log := by
  intro before between after m e hlog he
  by_contra hr
  have hq := h (before ++ .deRegisterModule m :: between) e after m (by simp [hlog]) he
  rw [deregistered_of_not_mem hr] at hq
  cases hq

/-- What is appended only has to be quiet on its own, after the old log. -/
theorem quiet_append (h : Quiet log)
    (hes : ∀ before e after m, es = before ++ e :: after → e.Asks m →
      deregistered (log ++ before) m = false) : Quiet (log ++ es) := by
  intro before e after m hsplit he
  rcases List.append_eq_append_iff.mp hsplit with ⟨mid, rfl, hmid⟩ | ⟨mid, hlog, hmid⟩
  · exact hes mid e after m hmid he
  · cases mid with
    | nil =>
      have hl : before = log := by simpa using hlog.symm
      have he' := hes [] e after m (by simpa using hmid.symm) he
      rwa [List.append_nil, ← hl] at he'
    | cons e' mid =>
      obtain ⟨rfl, rfl⟩ : e = e' ∧ after = mid ++ es := by simpa using hmid
      exact h before e mid m hlog he

theorem quiet_append_calls (h : Quiet log) {cs : List (ModuleCall μ)}
    (hcs : ∀ e ∈ cs.map Event.call, ∀ m, e.Asks m → deregistered log m = false) :
    Quiet (log ++ cs.map .call) := by
  refine quiet_append h fun before e after m hsplit he => ?_
  obtain ⟨cs₁, cs₂, -, rfl, -⟩ := List.map_eq_append_iff.mp hsplit
  rw [deregistered_append_calls]
  exact hcs e (hsplit ▸ by simp) m he

end Log

namespace ProcessThreadRun

variable {s s' : ProcessThreadRun μ} {a : Act μ}

/-- `WakeUp` is not given a deregistered module. `DeRegisterModule` finds its module
at most once, and only in the container that it searches. -/
def Clean (s : ProcessThreadRun μ) : Act μ → Prop
  | .wakeUp m _ => deregistered s.log m = false
  | .deRegisterModule m =>
    m ∉ s.places.detached ∧
      if s.places.running then m ∉ s.places.stopped ∧ m ∉ s.places.delayed.erase m
      else m ∉ s.places.delayed ∧ m ∉ s.places.stopped.erase m
  | _ => True

instance (s : ProcessThreadRun μ) (a : Act μ) : Decidable (Clean s a) :=
  match a with
  | .wakeUp m _ => inferInstanceAs (Decidable (deregistered s.log m = false))
  | .deRegisterModule m => inferInstanceAs (Decidable (m ∉ s.places.detached ∧
      if s.places.running then m ∉ s.places.stopped ∧ m ∉ s.places.delayed.erase m
      else m ∉ s.places.delayed ∧ m ∉ s.places.stopped.erase m))
  | .start _ | .stop | .registerModule .. | .postTask | .postDelayedTask _ | .tick _ | .runReady
  | .callbackReturns _ => inferInstanceAs (Decidable True)

/-- The invariant: the thread holds no deregistered module, and has asked none. -/
structure LeftAlone (s : ProcessThreadRun μ) : Prop where
  held : ∀ m ∈ s.places.held, deregistered s.log m = false
  quiet : Quiet s.log

theorem leftAlone_initial (now : Int) : LeftAlone (initial now : ProcessThreadRun μ) := by
  refine ⟨fun m hm => absurd hm List.not_mem_nil, ?_⟩
  intro before e after m h
  simp [initial] at h

/-- A clean `DeRegisterModule` leaves no entry of its module. -/
theorem not_mem_held_of_deRegisterModule {m : μ} (hc : Clean s (.deRegisterModule m))
    (hs : step s (.deRegisterModule m) = some s') : m ∉ s'.places.held := by
  have hm := step_places hs
  rw [ModulePlaces.Moves] at hm
  obtain ⟨hdet, hrest⟩ := hc
  rw [hm]
  split at hrest
  · rename_i hr
    rw [if_pos hr]
    simpa [ModulePlaces.held, hdet] using hrest
  · rename_i hr
    rw [if_neg hr]
    simpa [ModulePlaces.held, hdet, and_comm] using hrest

theorem leftAlone_wakeUp (h : LeftAlone s) {m : μ} {answer : Int} (hc : Clean s (.wakeUp m answer))
    (hs : step s (.wakeUp m answer) = some s') : LeftAlone s' := by
  obtain ⟨es, hlog, rfl⟩ := step_log hs
  have hcalls : s'.log = s.log ++ [ModuleCall.timeUntilNextProcess m].map .call := hlog
  refine ⟨fun m' hm' => ?_, ?_⟩
  · rw [hcalls, deregistered_append_calls]
    rcases ModulePlaces.mem_held_of_moves (step_places hs) hm' with hx | ⟨n, hn⟩ | ⟨n, hn⟩
    · exact h.held m' hx
    · cases hn
      exact hc
    · cases hn
  · rw [hcalls]
    refine quiet_append_calls h.quiet fun e he m' hm' => ?_
    obtain rfl : m' = m := by
      rcases hm' with rfl | rfl <;> simp at he
      exact he
    exact hc

theorem leftAlone_registerModule (h : LeftAlone s) {m : μ} {answer : Int}
    (hs : step s (.registerModule m answer) = some s') : LeftAlone s' := by
  obtain ⟨es, hlog, cs, rfl, honly⟩ := step_log hs
  have hcalls : s'.log = (s.log ++ [.registerModule m]) ++ cs.map .call := by simp [hlog]
  have hquiet : Quiet (s.log ++ [.registerModule m]) := by
    refine quiet_append h.quiet fun before e after m' hsplit he => ?_
    obtain ⟨rfl, rfl, rfl⟩ : before = [] ∧ e = .registerModule m ∧ after = [] := by
      cases before <;> simp at hsplit
      exact ⟨rfl, hsplit.1.symm, hsplit.2⟩
    rcases he with he | he <;> cases he
  refine ⟨fun m' hm' => ?_, ?_⟩
  · rw [hcalls, deregistered_append_calls, deregistered_append_registerModule]
    split
    · rfl
    · rename_i hne
      rcases ModulePlaces.mem_held_of_moves (step_places hs) hm' with hx | ⟨n, hn⟩ | ⟨n, hn⟩
      · exact h.held m' hx
      · cases hn
      · cases hn
        exact absurd rfl hne
  · rw [hcalls]
    refine quiet_append_calls hquiet fun e he m' hm' => ?_
    obtain rfl := honly e (List.mem_cons_of_mem _ he) m' hm'
    simp

theorem leftAlone_deRegisterModule (h : LeftAlone s) {m : μ} (hc : Clean s (.deRegisterModule m))
    (hs : step s (.deRegisterModule m) = some s') : LeftAlone s' := by
  obtain ⟨es, hlog, cs, rfl, hnone⟩ := step_log hs
  refine ⟨fun m' hm' => ?_, ?_⟩
  · have hne : m ≠ m' := fun he => not_mem_held_of_deRegisterModule hc hs (he ▸ hm')
    rw [hlog, ← List.append_assoc, deregistered_append_deRegisterModule, if_neg hne,
      deregistered_append_calls]
    rcases ModulePlaces.mem_held_of_moves (step_places hs) hm' with hx | ⟨n, hn⟩ | ⟨n, hn⟩
    · exact h.held m' hx
    · cases hn
    · cases hn
  · rw [hlog]
    refine quiet_append h.quiet fun before e after m' hsplit he => ?_
    exact absurd he (hnone e (hsplit ▸ by simp) m')

theorem leftAlone_calls (h : LeftAlone s) {cs : List (ModuleCall μ)}
    (hlog : s'.log = s.log ++ cs.map .call)
    (hasks : ∀ e ∈ cs.map Event.call, ∀ m, e.Asks m → m ∈ s.places.held)
    (hheld : ∀ m ∈ s'.places.held, m ∈ s.places.held) : LeftAlone s' := by
  refine ⟨fun m hm => ?_, ?_⟩
  · rw [hlog, deregistered_append_calls]
    exact h.held m (hheld m hm)
  · rw [hlog]
    exact quiet_append_calls h.quiet fun e he m hm => h.held m (hasks e he m hm)

theorem leftAlone_step (h : LeftAlone s) (hc : Clean s a) (hs : step s a = some s') :
    LeftAlone s' := by
  cases a with
  | wakeUp m answer => exact leftAlone_wakeUp h hc hs
  | registerModule m answer => exact leftAlone_registerModule h hs
  | deRegisterModule m => exact leftAlone_deRegisterModule h hc hs
  | start | stop | runReady | callbackReturns | postTask | postDelayedTask | tick =>
    obtain ⟨es, hlog, ⟨cs, rfl⟩, hasks⟩ := step_log hs
    refine leftAlone_calls h hlog hasks fun m hm => ?_
    rcases ModulePlaces.mem_held_of_moves (step_places hs) hm with hx | ⟨n, hn⟩ | ⟨n, hn⟩
    · exact hx
    · cases hn
    · cases hn

/-- In every run whose `WakeUp` and `DeRegisterModule` calls are clean, a deregistered
module is not called until it is registered again. -/
theorem deregistered_module_is_not_called (now : Int) (as : List (Act μ)) (s : ProcessThreadRun μ)
    (hrun : Machine.run step (initial now) as = some s)
    (hclean : Machine.AllSteps step Clean (initial now) as) : NotAskedSince s.log := by
  have hinv := Machine.invariant_of_allSteps (I := LeftAlone) (C := Clean)
    (fun _ _ _ h hc hs => leftAlone_step h hc hs) (leftAlone_initial now) hclean hrun
  exact notAskedSince_of_quiet hinv.quiet

/-- Module 1 is deregistered between two batches, and registered again. -/
theorem module_called_after_registration :
    ∃ s : ProcessThreadRun Nat, Machine.run step (initial 0)
        [.registerModule 1 0, .start fun _ => 0, .runReady, .callbackReturns 10, .deRegisterModule 1,
          .runReady, .registerModule 1 0, .runReady] = some s ∧
      s.log.getLast? = some (.call (.process 1)) ∧ NotAskedSince s.log := by
  have hrun : ∃ s : ProcessThreadRun Nat, Machine.run step (initial 0)
      [.registerModule 1 0, .start fun _ => 0, .runReady, .callbackReturns 10, .deRegisterModule 1,
        .runReady, .registerModule 1 0, .runReady] = some s ∧
      s.log.getLast? = some (.call (.process 1)) := ⟨_, rfl, rfl⟩
  obtain ⟨s, hs, hlast⟩ := hrun
  exact ⟨s, hs, hlast, deregistered_module_is_not_called 0 _ s hs (by decide)⟩

/-- `Process` of module 1 deregisters module 2, which is due in the same batch. -/
theorem detached_module_is_called :
    ¬ ∀ (now : Int) (as : List (Act Nat)) (s : ProcessThreadRun Nat),
      Machine.run step (initial now) as = some s → NotAskedSince s.log := by
  intro hall
  have hrun : ∃ s : ProcessThreadRun Nat, Machine.run step (initial 0)
      [.registerModule 1 0, .registerModule 2 0, .start fun _ => 0, .runReady, .deRegisterModule 2,
        .callbackReturns 10] = some s ∧
      ∃ before, s.log = before ++ .deRegisterModule 2 ::
        ([.call (.timeUntilNextProcess 1)] ++ .call (.process 2) :: []) :=
    ⟨_, rfl, [.registerModule 1, .call (.processThreadAttached 1 true), .registerModule 2,
      .call (.processThreadAttached 2 true), .call (.processThreadAttached 1 true),
      .call (.processThreadAttached 2 true), .call (.timeUntilNextProcess 1),
      .call (.timeUntilNextProcess 2), .call (.process 1),
      .call (.processThreadAttached 2 false)], rfl⟩
  obtain ⟨s, hs, before, hlog⟩ := hrun
  have hmem := hall 0 _ s hs before _ _ 2 _ hlog (Or.inl rfl)
  simp at hmem

end ProcessThreadRun

end WebrtcGccNs3.Sim
