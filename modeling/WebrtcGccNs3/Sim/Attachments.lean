import WebrtcGccNs3.Sim.ModuleRegistry

/-!
# Attachment notifications

`RegisterModule` attaches its module whether or not the thread runs, `Start` and `Stop`
tell every module they move, and `DeRegisterModule` tells its module on a running thread
only. So a module that is registered and deregistered with no `Stop` in between, while
the thread does not run, is left attached.
-/
namespace WebrtcGccNs3.Sim

variable {μ : Type} [DecidableEq μ]

/-- The argument of a `ProcessThreadAttached` call that the module receives. -/
def Event.attached (m : μ) : Event μ → Option Bool
  | .call (.processThreadAttached m' attached) => if m' = m then some attached else none
  | _ => none

/-- What the module was told last: `this`, `nullptr`, or nothing yet. -/
def attachment (log : List (Event μ)) (m : μ) : Option Bool := (log.filterMap (Event.attached m)).getLast?

section Log

variable {log es : List (Event μ)} {m : μ}

@[simp] theorem attachment_nil : attachment ([] : List (Event μ)) m = none := rfl

theorem attachment_append : attachment (log ++ es) m = (attachment es m).or (attachment log m) := by
  rw [attachment, List.filterMap_append, List.getLast?_append]
  rfl

theorem attachment_cons {e : Event μ} :
    attachment (e :: es) m = (attachment es m).or (e.attached m) := by
  rw [← List.singleton_append, attachment_append]
  apply congrArg (Option.or _)
  cases he : e.attached m <;> simp [attachment, he]

theorem attachment_of_silent (h : ∀ e ∈ es, e.attached m = none) : attachment es m = none := by
  rw [attachment, List.filterMap_eq_nil_iff.mpr h, List.getLast?_nil]

/-- The modules of a list are told the same, one after the other. -/
theorem attachment_calls (ms : List μ) (b : Bool) :
    attachment ((ms.map (ModuleCall.processThreadAttached · b)).map .call) m =
      if m ∈ ms then some b else none := by
  induction ms with
  | nil => rfl
  | cons m' ms ih =>
    rw [List.map_cons, List.map_cons, attachment_cons, ih]
    by_cases hmem : m ∈ ms
    · simp [hmem]
    · by_cases he : m' = m
      · simp [hmem, Event.attached, he]
      · simp [hmem, Event.attached, he, Ne.symm he]

end Log

namespace ProcessThreadRun

/-- The operations of the thread that concern registration, each module registered at most once
at a time, and time passing. -/
def Registrations (s : ProcessThreadRun μ) : Act μ → Prop
  | .start _ | .stop | .deRegisterModule _ | .tick _ => True
  | .registerModule m _ => m ∉ s.registered
  | _ => False

instance (s : ProcessThreadRun μ) (a : Act μ) : Decidable (Registrations s a) :=
  match a with
  | .start _ | .stop | .deRegisterModule _ | .tick _ => inferInstanceAs (Decidable True)
  | .registerModule m _ => inferInstanceAs (Decidable (m ∉ s.registered))
  | .wakeUp .. | .postTask | .postDelayedTask _ | .runReady | .callbackReturns _ =>
    inferInstanceAs (Decidable False)

/-- Each module that has ever been registered was last told `nullptr`, if it is not registered,
and `this`, if it is and the thread runs. -/
def Matched (s : ProcessThreadRun μ) : Prop :=
  ∀ m, .registerModule m ∈ s.log →
    (m ∉ s.registered → attachment s.log m = some false) ∧
    (m ∈ s.registered → s.thread.processThreadRunning = true → attachment s.log m = some true)

/-- The module has been registered, and there was no `Stop` since. -/
def registeredSinceStop (as : List (Act μ)) (m : μ) : Bool :=
  as.foldl (fun since a => match a with
    | .stop => false
    | .registerModule m' _ => since || m' = m
    | _ => since) false

variable {s s' : ProcessThreadRun μ} {a : Act μ} {as : List (Act μ)} {m : μ} {now : Int}

theorem registeredSinceStop_append : registeredSinceStop (as ++ [a]) m = match a with
    | .stop => false
    | .registerModule m' _ => registeredSinceStop as m || m' = m
    | _ => registeredSinceStop as m := by
  rw [registeredSinceStop, List.foldl_append]
  rfl

/-! ## What one operation tells the modules -/

/-- The last word of an operation to a module. -/
def lastTold (s : ProcessThreadRun μ) (a : Act μ) (m : μ) : Option Bool :=
  match a with
  | .start _ => if ¬ s.thread.processThreadRunning ∧ m ∈ s.thread.stoppedModules then some true else none
  | .stop => if m ∈ s.places.held then some false else none
  | .registerModule m' _ => if m' = m then some true else none
  | .deRegisterModule m' => if s.thread.processThreadRunning ∧ m' = m then some false else none
  | _ => none

theorem attachment_step (hr : Registrations s a) (hidle : s.activation = none)
    (hs : step s a = some s') : attachment s'.log m = (lastTold s a m).or (attachment s.log m) := by
  cases a with
  | start answer =>
    cases hs
    show attachment (s.log ++ s.thread.startCalls.map .call) m = _
    rw [attachment_append]
    apply congrArg (Option.or · _)
    unfold SimulatedProcessThread.startCalls
    split
    · rename_i hrun
      simp [lastTold, hrun]
    · rename_i hrun
      have hsilent : attachment ((s.thread.stoppedModules.map ModuleCall.timeUntilNextProcess).map
          Event.call) m = none := attachment_of_silent (by simp [Event.attached])
      rw [List.map_append, attachment_append, hsilent, Option.none_or, attachment_calls]
      simp [lastTold, hrun]
  | stop =>
    cases hs
    have hheld : s.places.held = s.thread.stoppedModules ++ s.thread.delayedModules.values := by
      simp [ModulePlaces.held, places, hidle, SimulatedProcessThread.detached]
    show attachment (s.log ++ s.thread.stopCalls.map .call) m = _
    rw [attachment_append, SimulatedProcessThread.stopCalls, attachment_calls, lastTold, hheld]
  | registerModule m' answer =>
    cases hs
    show attachment (s.log ++ .registerModule m' :: (s.thread.registerModuleCalls m').map .call) m = _
    rw [attachment_append]
    apply congrArg (Option.or · _)
    unfold SimulatedProcessThread.registerModuleCalls
    split <;> by_cases he : m' = m <;> simp [attachment_cons, Event.attached, lastTold, he]
  | deRegisterModule m' =>
    cases hs
    show attachment (s.log ++ (s.thread.deRegisterModuleCalls m').map .call ++ [.deRegisterModule m']) m = _
    rw [List.append_assoc, attachment_append]
    apply congrArg (Option.or · _)
    unfold SimulatedProcessThread.deRegisterModuleCalls
    split
    · rename_i hrun
      by_cases he : m' = m <;> simp [attachment_cons, Event.attached, lastTold, he, hrun]
    · rename_i hrun
      simp [attachment_cons, Event.attached, lastTold, hrun]
  | tick now =>
    simp only [step] at hs
    split at hs
    · cases hs
      rfl
    · cases hs
  | wakeUp | postTask | postDelayedTask | runReady | callbackReturns => exact hr.elim

/-- Whether the thread runs after an operation. -/
def runsAfter (s : ProcessThreadRun μ) : Act μ → Bool
  | .start _ => true
  | .stop => false
  | _ => s.thread.processThreadRunning

theorem running_step (hr : Registrations s a) (hs : step s a = some s') :
    s'.thread.processThreadRunning = runsAfter s a := by
  have hm := step_places hs
  cases a with
  | start answer =>
    simp only [ModulePlaces.Moves] at hm
    split at hm
    · rename_i hrun
      exact (congrArg ModulePlaces.running hm).trans hrun
    · obtain ⟨l, -, hm⟩ := hm
      exact congrArg ModulePlaces.running hm
  | stop | tick now => exact congrArg ModulePlaces.running hm
  | registerModule m answer =>
    simp only [ModulePlaces.Moves] at hm
    split at hm
    · obtain ⟨l, -, hm⟩ := hm
      exact congrArg ModulePlaces.running hm
    · exact congrArg ModulePlaces.running hm
  | deRegisterModule m =>
    simp only [ModulePlaces.Moves] at hm
    split at hm <;> exact congrArg ModulePlaces.running hm
  | wakeUp | postTask | postDelayedTask | runReady | callbackReturns => exact hr.elim

theorem mem_log_step (hr : Registrations s a) (hs : step s a = some s')
    (h : .registerModule m ∈ s'.log) : .registerModule m ∈ s.log ∨ ∃ n, a = .registerModule m n := by
  obtain ⟨es, hlog, hes⟩ := step_log hs
  rw [hlog, List.mem_append] at h
  apply h.imp_right
  intro h
  cases a with
  | start | stop | tick =>
    obtain ⟨⟨cs, rfl⟩, -⟩ := hes
    simp at h
  | registerModule m' n =>
    obtain ⟨cs, rfl, -⟩ := hes
    obtain rfl : m = m' := by simpa using h
    exact ⟨n, rfl⟩
  | deRegisterModule m' =>
    obtain ⟨cs, rfl, -⟩ := hes
    simp at h
  | wakeUp | postTask | postDelayedTask | runReady | callbackReturns => exact hr.elim

/-- Outside `RunReady`, with the entries of the registered modules in order. -/
structure AtRest (s : ProcessThreadRun μ) : Prop where
  idle : s.activation = none
  registry : Registry s

theorem atRest_step (h : AtRest s) (hr : Registrations s a) (hs : step s a = some s') : AtRest s' := by
  have hnone : s.places.detached = [] := by
    simp [places, h.idle, SimulatedProcessThread.detached]
  have hidle : s'.activation = none := by
    cases a with
    | start | stop | registerModule | deRegisterModule =>
      cases hs
      exact h.idle
    | tick now =>
      simp only [step] at hs
      split at hs
      · cases hs
        exact h.idle
      · cases hs
    | wakeUp | postTask | postDelayedTask | runReady | callbackReturns => exact hr.elim
  refine ⟨hidle, registry_step h.registry ?_ ?_ hs⟩
  · cases a with
    | start | stop => exact hnone
    | registerModule m answer => exact hr
    | deRegisterModule | tick => trivial
    | wakeUp | postTask | postDelayedTask | runReady | callbackReturns => exact hr.elim
  · cases a with
    | deRegisterModule m =>
      show m ∉ s.places.detached
      rw [hnone]
      exact List.not_mem_nil
    | start | stop | registerModule | tick => trivial
    | wakeUp | postTask | postDelayedTask | runReady | callbackReturns => exact hr.elim

omit [DecidableEq μ] in
/-- The modules that a resting thread holds are the registered ones. -/
theorem AtRest.mem_held (h : AtRest s) : m ∈ s.places.held ↔ m ∈ s.registered :=
  h.registry.held.mem_iff

omit [DecidableEq μ] in
/-- On a thread that does not run they are all stopped. -/
theorem AtRest.mem_stoppedModules (h : AtRest s) (hrun : s.thread.processThreadRunning = false) :
    m ∈ s.thread.stoppedModules ↔ m ∈ s.registered := by
  obtain ⟨hdelayed, hdetached⟩ := h.registry.stopped hrun
  rw [← h.mem_held, ModulePlaces.held, hdelayed, hdetached, List.append_nil, List.append_nil]
  rfl

/-- The registered modules after an operation. -/
def registeredAfter (s : ProcessThreadRun μ) : Act μ → List μ
  | .registerModule m _ => s.registered ++ [m]
  | .deRegisterModule m => s.registered.erase m
  | _ => s.registered

/-- What an operation does, as far as the modules are concerned. -/
structure Effect (s : ProcessThreadRun μ) (a : Act μ) (s' : ProcessThreadRun μ) : Prop where
  told : ∀ m, attachment s'.log m = (lastTold s a m).or (attachment s.log m)
  running : s'.thread.processThreadRunning = runsAfter s a
  registered : s'.registered = registeredAfter s a
  known : ∀ m, .registerModule m ∈ s'.log → .registerModule m ∈ s.log ∨ ∃ n, a = .registerModule m n

theorem effect_step (h : AtRest s) (hr : Registrations s a) (hs : step s a = some s') :
    Effect s a s' where
  told _ := attachment_step hr h.idle hs
  running := running_step hr hs
  registered := (step_registered hs).trans (by cases a <;> rfl)
  known _ := mem_log_step hr hs

/-- Only `RegisterModule` makes a module known. -/
theorem Effect.mem_log (h : Effect s a s') (ha : ∀ n, a ≠ .registerModule m n)
    (hm : .registerModule m ∈ s'.log) : .registerModule m ∈ s.log :=
  (h.known m hm).resolve_right fun ⟨n, hn⟩ => ha n hn

/-! ## The invariant -/

/-- What the modules believe after the operations `as`. A registered module of a stopped thread
believes what its `RegisterModule` told it, if there was no `Stop` since. -/
structure Believed (as : List (Act μ)) (s : ProcessThreadRun μ) : Prop where
  known : ∀ m, .registerModule m ∈ s.log → m ∉ s.registered → attachment s.log m = some false
  running : s.thread.processThreadRunning = true → ∀ m ∈ s.registered, attachment s.log m = some true
  stopped : s.thread.processThreadRunning = false → ∀ m ∈ s.registered,
    attachment s.log m = some (registeredSinceStop as m)

section Operations

variable (h : Believed as s)
include h

theorem believed_start (hrest : AtRest s) {answer : Nat → Int} (heff : Effect s (.start answer) s') :
    Believed (as ++ [.start answer]) s' := by
  have hrun' : s'.thread.processThreadRunning = true := heff.running
  have hreg' : s'.registered = s.registered := heff.registered
  refine ⟨fun m hm hnot => ?_, fun _ m hm => ?_, fun hf => absurd (hrun'.symm.trans hf) (by simp)⟩
  · rw [hreg'] at hnot
    have hmem : m ∉ s.thread.stoppedModules := fun hstopped =>
      hnot (hrest.mem_held.mp (List.mem_append_left _ (List.mem_append_left _ hstopped)))
    rw [heff.told, lastTold, if_neg fun hc => hmem hc.2, Option.none_or]
    exact h.known m (heff.mem_log (by simp) hm) hnot
  · rw [hreg'] at hm
    rw [heff.told, lastTold]
    rcases Bool.eq_false_or_eq_true s.thread.processThreadRunning with hrun | hrun
    · rw [if_neg (by simp [hrun]), Option.none_or]
      exact h.running hrun m hm
    · rw [if_pos ⟨by simp [hrun], (hrest.mem_stoppedModules hrun).mpr hm⟩]
      rfl

theorem believed_stop (hrest : AtRest s) (heff : Effect s .stop s') : Believed (as ++ [.stop]) s' := by
  have hrun' : s'.thread.processThreadRunning = false := heff.running
  have hreg' : s'.registered = s.registered := heff.registered
  refine ⟨fun m hm hnot => ?_, fun ht => absurd (hrun'.symm.trans ht) (by simp), fun _ m hm => ?_⟩
  · rw [hreg'] at hnot
    rw [heff.told, lastTold, if_neg fun hc => hnot (hrest.mem_held.mp hc), Option.none_or]
    exact h.known m (heff.mem_log (by simp) hm) hnot
  · rw [hreg'] at hm
    rw [heff.told, lastTold, if_pos (hrest.mem_held.mpr hm), registeredSinceStop_append]
    rfl

theorem believed_registerModule {m' : μ} {answer : Int}
    (heff : Effect s (.registerModule m' answer) s') :
    Believed (as ++ [.registerModule m' answer]) s' := by
  have hrun' : s'.thread.processThreadRunning = s.thread.processThreadRunning := heff.running
  have hreg' : s'.registered = s.registered ++ [m'] := heff.registered
  have hself : attachment s'.log m' = some true := by rw [heff.told, lastTold, if_pos rfl]; rfl
  have hother : ∀ m, m ≠ m' → attachment s'.log m = attachment s.log m := fun m hne => by
    rw [heff.told, lastTold, if_neg (Ne.symm hne), Option.none_or]
  have hmem : ∀ m, m ∈ s'.registered → m ∈ s.registered ∨ m = m' := fun m hm => by
    simpa [hreg'] using hm
  refine ⟨fun m hm hnot => ?_, fun ht m hm => ?_, fun hf m hm => ?_⟩
  · obtain ⟨hold, hne⟩ : m ∉ s.registered ∧ m ≠ m' := by simpa [hreg'] using hnot
    rw [hother m hne]
    exact h.known m (heff.mem_log (fun n hn => hne (by cases hn; rfl)) hm) hold
  · by_cases hne : m = m'
    · exact hne ▸ hself
    · rw [hother m hne]
      exact h.running (hrun'.symm.trans ht) m ((hmem m hm).resolve_right hne)
  · rw [registeredSinceStop_append]
    by_cases hne : m = m'
    · simp [hne, hself]
    · rw [hother m hne, h.stopped (hrun'.symm.trans hf) m ((hmem m hm).resolve_right hne)]
      simp [Ne.symm hne]

theorem believed_deRegisterModule (hrest : AtRest s) {m' : μ}
    (hstop : s.thread.processThreadRunning = false → registeredSinceStop as m' = false)
    (heff : Effect s (.deRegisterModule m') s') : Believed (as ++ [.deRegisterModule m']) s' := by
  have hrun' : s'.thread.processThreadRunning = s.thread.processThreadRunning := heff.running
  have hreg' : s'.registered = s.registered.erase m' := heff.registered
  have hother : ∀ m, m ≠ m' → attachment s'.log m = attachment s.log m := fun m hne => by
    rw [heff.told, lastTold, if_neg fun hc => hne hc.2.symm, Option.none_or]
  have hmem : ∀ m, m ∈ s'.registered ↔ m ≠ m' ∧ m ∈ s.registered := fun m => by
    rw [hreg']
    exact hrest.registry.nodup.mem_erase_iff
  refine ⟨fun m hm hnot => ?_, fun ht m hm => ?_, fun hf m hm => ?_⟩
  · have hold := heff.mem_log (by simp) hm
    by_cases hne : m = m'
    · subst hne
      rcases Bool.eq_false_or_eq_true s.thread.processThreadRunning with hrun | hrun
      · rw [heff.told, lastTold, if_pos ⟨hrun, rfl⟩]
        rfl
      · rw [heff.told, lastTold, if_neg (by simp [hrun]), Option.none_or]
        by_cases hm : m ∈ s.registered
        · rw [h.stopped hrun m hm, hstop hrun]
        · exact h.known m hold hm
    · rw [hother m hne]
      exact h.known m hold fun hm => hnot ((hmem m).mpr ⟨hne, hm⟩)
  · obtain ⟨hne, hm⟩ := (hmem m).mp hm
    rw [hother m hne]
    exact h.running (hrun'.symm.trans ht) m hm
  · obtain ⟨hne, hm⟩ := (hmem m).mp hm
    rw [hother m hne, registeredSinceStop_append]
    exact h.stopped (hrun'.symm.trans hf) m hm

end Operations

theorem believed_step (h : Believed as s) (hrest : AtRest s) (hr : Registrations s a)
    (hstop : ∀ m, a = .deRegisterModule m → s.thread.processThreadRunning = false →
      registeredSinceStop as m = false)
    (hs : step s a = some s') : Believed (as ++ [a]) s' := by
  have heff := effect_step hrest hr hs
  cases a with
  | start answer => exact believed_start h hrest heff
  | stop => exact believed_stop h hrest heff
  | registerModule m answer => exact believed_registerModule h heff
  | deRegisterModule m => exact believed_deRegisterModule h hrest (hstop m rfl) heff
  | tick now =>
    simp only [step] at hs
    split at hs
    · cases hs
      refine ⟨h.known, h.running, fun hf m hm => ?_⟩
      rw [registeredSinceStop_append]
      exact h.stopped hf m hm
    · cases hs
  | wakeUp | postTask | postDelayedTask | runReady | callbackReturns => exact hr.elim

/-! ## Runs -/

/-- Each `DeRegisterModule` on a stopped thread is for a module that was not registered since the
last `Stop`. -/
def DetachesStopped (now : Int) (as : List (Act μ)) : Prop :=
  ∀ bs m s, bs ++ [.deRegisterModule m] <+: as → Machine.run step (initial now) bs = some s →
    s.thread.processThreadRunning = false → registeredSinceStop bs m = false

theorem atRest_of_run (hr : Machine.AllSteps step Registrations (initial now) as)
    (hrun : Machine.run step (initial now) as = some s) : AtRest s :=
  Machine.invariant_of_allSteps (I := AtRest) (fun _ _ _ h hr hs => atRest_step h hr hs)
    ⟨rfl, registry_initial now⟩ hr hrun

theorem believed_of_run (hr : Machine.AllSteps step Registrations (initial now) as)
    (hstop : DetachesStopped now as) (hrun : Machine.run step (initial now) as = some s) :
    Believed as s := by
  refine Machine.invariant_of_history ?_ (fun bs a t t' hpre ht h hs => ?_) hrun
  · exact ⟨fun _ hm => absurd hm List.not_mem_nil, fun _ _ hm => absurd hm List.not_mem_nil,
      fun _ _ hm => absurd hm List.not_mem_nil⟩
  · have hrest := atRest_of_run (hr.of_prefix ((List.prefix_append bs [a]).trans hpre)) ht
    refine believed_step h hrest (Machine.allSteps_iff.mp hr bs a t hpre ht) (fun m ha hf => ?_) hs
    exact hstop bs m t (ha ▸ hpre) ht hf

/-- A module that was registered since the last `Stop` of a stopped thread is attached to it. -/
theorem attached_of_registeredSinceStop (hr : Machine.AllSteps step Registrations (initial now) as)
    (hrun : Machine.run step (initial now) as = some s)
    (hf : s.thread.processThreadRunning = false) (hm : registeredSinceStop as m = true) :
    .registerModule m ∈ s.log ∧ attachment s.log m = some true := by
  revert hf hm
  refine Machine.invariant_of_history (I := fun as s => s.thread.processThreadRunning = false →
    registeredSinceStop as m = true → .registerModule m ∈ s.log ∧ attachment s.log m = some true)
    (fun _ hm => by cases hm) (fun bs a t t' hpre ht h hs hf hm => ?_) hrun
  have hrest := atRest_of_run (hr.of_prefix ((List.prefix_append bs [a]).trans hpre)) ht
  have ha := Machine.allSteps_iff.mp hr bs a t hpre ht
  have heff := effect_step hrest ha hs
  have hrun' := heff.running
  rw [registeredSinceStop_append] at hm
  rw [heff.told]
  obtain ⟨es, hlog, hes⟩ := step_log hs
  rw [hlog, List.mem_append]
  cases a with
  | start answer => exact absurd (hrun'.symm.trans hf) (by simp [runsAfter])
  | stop => cases hm
  | registerModule m' answer =>
    obtain ⟨cs, rfl, -⟩ := hes
    by_cases hne : m' = m
    · simp [lastTold, hne]
    · obtain ⟨hlog, hattached⟩ := h (hrun'.symm.trans hf) (by simpa [hne] using hm)
      exact ⟨Or.inl hlog, by simp [lastTold, hne, hattached]⟩
  | deRegisterModule m' =>
    have hf : t.thread.processThreadRunning = false := hrun'.symm.trans hf
    obtain ⟨hlog, hattached⟩ := h hf hm
    exact ⟨Or.inl hlog, by simp [lastTold, hf, hattached]⟩
  | tick now =>
    obtain ⟨hlog, hattached⟩ := h (hrun'.symm.trans hf) hm
    exact ⟨Or.inl hlog, by simp [lastTold, hattached]⟩
  | wakeUp | postTask | postDelayedTask | runReady | callbackReturns => exact ha.elim

/-- Over a run of registrations, the modules know in each state whether they are attached exactly
when each `DeRegisterModule` on a stopped thread comes with a `Stop` since the registration. -/
theorem attachments_match_iff (now : Int) (as : List (Act μ))
    (hr : Machine.AllSteps step Registrations (initial now) as) :
    (∀ bs s, bs <+: as → Machine.run step (initial now) bs = some s → Matched s) ↔
      DetachesStopped now as := by
  constructor
  · intro hall bs m s hpre hrun hf
    by_contra hm
    rw [Bool.not_eq_false] at hm
    have hr' := hr.of_prefix ((List.prefix_append bs _).trans hpre)
    have hrest := atRest_of_run hr' hrun
    obtain ⟨hlog, hattached⟩ := attached_of_registeredSinceStop hr' hrun hf hm
    obtain ⟨s', hs⟩ : ∃ s', step s (.deRegisterModule m) = some s' := ⟨_, rfl⟩
    have hmatched := hall _ s' hpre (Machine.run_snoc_eq_some.mpr ⟨s, hrun, hs⟩)
    obtain ⟨es, hlog', -⟩ := step_log hs
    have hnot : m ∉ s'.registered := by
      rw [step_registered hs]
      exact hrest.registry.nodup.not_mem_erase
    have hfalse := (hmatched m (hlog' ▸ List.mem_append_left _ hlog)).1 hnot
    have htold : lastTold s (.deRegisterModule m) m = none := by simp [lastTold, hf]
    rw [(effect_step (a := .deRegisterModule m) hrest trivial hs).told, htold, Option.none_or,
      hattached] at hfalse
    cases hfalse
  · intro hstop bs s hpre hrun m hm
    have hbelieved := believed_of_run (hr.of_prefix hpre)
      (fun cs m t hcs => hstop cs m t (hcs.trans hpre)) hrun
    exact ⟨hbelieved.known m hm, fun hmem ht => hbelieved.running ht m hmem⟩

/-- A stopped thread detaches its module, and deregistering it then changes nothing. -/
theorem deregistered_after_stop_is_detached :
    ∃ s, Machine.run step (initial 0) [.registerModule 1 0, .stop, .deRegisterModule 1] = some s ∧
      Matched s := by
  have hiff := attachments_match_iff 0 [.registerModule 1 0, .stop, .deRegisterModule 1] (by decide)
  refine ⟨_, rfl, hiff.mpr ?_ _ _ (List.prefix_refl _) rfl⟩
  rintro bs m s ⟨cs, hcs⟩ - -
  rcases bs with _ | ⟨a, _ | ⟨b, _ | ⟨c, bs⟩⟩⟩ <;> simp at hcs
  obtain ⟨rfl, rfl, rfl, -⟩ := hcs
  rfl

/-- A module is registered and deregistered before the thread is started. -/
theorem module_deregistered_before_start_stays_attached :
    ¬ ∀ (now : Int) (as : List (Act Nat)) (s : ProcessThreadRun Nat),
      Machine.AllSteps step Registrations (initial now) as →
      Machine.run step (initial now) as = some s → Matched s := by
  intro hall
  have hrun : ∃ s : ProcessThreadRun Nat,
      Machine.run step (initial 0) [.registerModule 1 0, .deRegisterModule 1] = some s ∧
      Event.registerModule 1 ∈ s.log ∧ 1 ∉ s.registered ∧ attachment s.log 1 = some true :=
    ⟨_, rfl, by decide, by decide, by decide⟩
  obtain ⟨s, hs, hlog, hnot, hattached⟩ := hrun
  have hfalse := (hall 0 _ s (by decide) hs 1 hlog).1 hnot
  rw [hattached] at hfalse
  cases hfalse

end ProcessThreadRun

end WebrtcGccNs3.Sim
