import WebrtcGccNs3.Sim.RunnerRun
import WebrtcGccNs3.Sim.Thread

/-!
# The next run time of a thread

The posting calls of `SimulatedThread` lower the next run time to a whole millisecond.
`RunReady` sets it to `at_time`, which is in microseconds, plus a delay that is counted
from the millisecond that `at_time` is in. Between two milliseconds that is too late.
-/
namespace WebrtcGccNs3.Sim

/-- The member functions of a thread that store messages. -/
inductive ThreadCall (τ : Type) where
  | post (content : τ)
  | postDelayed (delayMs : Int) (content : τ)
  | postAt (targetTimeMs : Int) (content : τ)

namespace SimulatedThread

variable {τ : Type} {t : SimulatedThread τ} {now : Int} {atTime : Timestamp}

def sequenceRunner : SequenceRunner (SimulatedThread τ) (τ × Timestamp) Unit (ThreadCall τ) where
  getNextRunTime := getNextRunTime
  isThread _ := true
  isQuitting := quitting
  runReady t now atTime := t.runReady now atTime
  resume t locals now _ := t.resume locals now
  call t now
    | .post content => t.post now content
    | .postDelayed delayMs content => t.postDelayed now delayMs content
    | .postAt targetTimeMs content => t.postAt targetTimeMs content

/-- The next run time is not later than any message. -/
def NotLate (t : SimulatedThread τ) : Prop := ∀ m ∈ t.messages, t.getNextRunTime ≤ millis m.due

/-- If `RunReady` is over and messages are left, `at_time` is not past the millisecond that the
clock shows. When the clock has not moved, it shows a whole millisecond. -/
def ReturnsOnTime (t : SimulatedThread τ) (now : Int) (atTime : Timestamp) : Prop :=
  (∀ m ∈ t.messages, timeMillis now < m.due) → t.messages ≠ [] → atTime ≤ millis (timeMillis now)

theorem notLate_initial : ({} : SimulatedThread τ).NotLate := fun _ hm => absurd hm List.not_mem_nil

theorem notLate_post (now : Int) (content : τ) : (t.post now content).NotLate :=
  fun _ _ => Timestamp.minusInfinity_le _

theorem notLate_postAt (h : t.NotLate) (targetTimeMs : Int) (content : τ) :
    (t.postAt targetTimeMs content).NotLate := by
  intro m hm
  rcases List.mem_append.mp hm with hm | hm
  · exact (min_le_left _ _).trans (h m hm)
  · obtain rfl := List.mem_singleton.mp hm
    exact min_le_right _ _

theorem notLate_call (h : t.NotLate) (now : Int) (op : ThreadCall τ) :
    (sequenceRunner.call t now op).NotLate := by
  cases op with
  | post content => exact notLate_post now content
  | postDelayed delayMs content => exact notLate_postAt h (timeMillis now + delayMs) content
  | postAt targetTimeMs content => exact notLate_postAt h targetTimeMs content

/-- `ProcessMessages(0)` dispatches a message that is due, or there is none and it returns. -/
theorem processMessages_cases (t : SimulatedThread τ) (now : Int) (atTime : Timestamp) :
    (∃ i, ∃ m ∈ t.messages, m.due ≤ timeMillis now ∧ t.processMessages now atTime =
      .callback { t with messages := t.messages.eraseIdx i } (m.content, atTime)) ∨
    ((∀ m ∈ t.messages, timeMillis now < m.due) ∧ t.processMessages now atTime =
      .done { t with
        nextRunTime := ((t.getDelay now).map (atTime.plusMillis ·)).getD .plusInfinity }) := by
  unfold processMessages
  split
  · rename_i first rest hdue
    obtain ⟨next, hnext, heq⟩ : ∃ next ∈ first :: rest,
        (first :: rest).getD (t.pick t.messages) first = next := by
      refine ⟨_, ?_, rfl⟩
      rw [List.getD_eq_getElem?_getD]
      cases hget : (first :: rest)[t.pick t.messages]? with
      | none => exact List.mem_cons_self
      | some next => exact List.mem_of_getElem? hget
    rw [← hdue, List.mem_filter, decide_eq_true_eq] at hnext
    rw [heq]
    exact Or.inl ⟨next.2, next.1, List.mem_of_getElem? (List.mem_zipIdx_iff_getElem?.mp hnext.1),
      hnext.2, rfl⟩
  · rename_i hnone
    refine Or.inr ⟨fun m hm => ?_, rfl⟩
    obtain ⟨i, hi⟩ := List.getElem?_of_mem hm
    have hdue := List.filter_eq_nil_iff.mp hnone (m, i) (List.mem_zipIdx_iff_getElem?.mpr hi)
    rw [decide_eq_true_eq] at hdue
    exact Int.not_le.mp hdue

/-- The delay leads from the start of the millisecond to the earliest message. -/
theorem notLate_done_iff (hdue : ∀ m ∈ t.messages, timeMillis now < m.due) :
    NotLate { t with nextRunTime := ((t.getDelay now).map (atTime.plusMillis ·)).getD .plusInfinity } ↔
      ReturnsOnTime t now atTime := by
  unfold NotLate ReturnsOnTime getNextRunTime getDelay
  cases hmin : (t.messages.map (·.due)).min? with
  | none =>
    have hnil : t.messages = [] := List.map_eq_nil_iff.mp (List.min?_eq_none_iff.mp hmin)
    simp [hnil]
  | some due =>
    obtain ⟨hmem, hle⟩ := List.min?_eq_some_iff.mp hmin
    obtain ⟨first, hfirst, rfl⟩ := List.mem_map.mp hmem
    have hne : t.messages ≠ [] := List.ne_nil_of_mem hfirst
    have hdelay : max 0 (first.due - timeMillis now) = first.due - timeMillis now :=
      max_eq_right (Int.sub_nonneg_of_le (hdue first hfirst).le)
    -- the delay of the earliest message cancels out on both sides
    have hshift : ∀ due, atTime.plusMillis (first.due - timeMillis now) ≤ millis due ↔
        atTime ≤ millis (due - first.due + timeMillis now) := by
      intro due
      cases atTime with
      | minusInfinity => simp [Timestamp.plusMillis]
      | micros us =>
        simp only [Timestamp.plusMillis, millis, Timestamp.micros_le_micros]
        omega
      | plusInfinity => simp [Timestamp.plusMillis, millis]
    simp only [Option.map_some, Option.getD_some, hdelay, hshift]
    constructor
    · intro hall _ _
      have hfirst := hall first hfirst
      rwa [Int.sub_self, Int.zero_add] at hfirst
    · intro hat m hm
      have hearliest : first.due ≤ m.due := hle m.due (List.mem_map_of_mem hm)
      refine (hat hdue hne).trans ?_
      simp only [millis, Timestamp.micros_le_micros]
      omega

theorem ends_processMessages (h : t.NotLate) (hat : ReturnsOnTime t now atTime) :
    (t.processMessages now atTime).Ends NotLate fun _ => True := by
  rcases processMessages_cases t now atTime with ⟨i, m, -, -, heq⟩ | ⟨hdue, heq⟩
  · rw [heq]
    exact fun m hm => h m (List.mem_of_mem_eraseIdx hm)
  · rw [heq]
    exact ⟨(notLate_done_iff hdue).mpr hat, trivial⟩

theorem returnsOnTime_of_notLate (h : ∀ t', t.processMessages now atTime = .done t' → t'.NotLate) :
    ReturnsOnTime t now atTime := by
  intro hdue
  rcases processMessages_cases t now atTime with ⟨i, m, hm, hle, -⟩ | ⟨-, heq⟩
  · exact absurd (hdue m hm) (Int.not_lt.mpr hle)
  · exact (notLate_done_iff hdue).mp (h _ heq) hdue

section

open RunnerRun

variable {s s' : RunnerRun (SimulatedThread τ) (τ × Timestamp)} {a : Act Unit (ThreadCall τ)}

/-- The step, if it is a piece of `RunReady`, returns on time. -/
def PiecesReturnOnTime (s : RunnerRun (SimulatedThread τ) (τ × Timestamp)) :
    Act Unit (ThreadCall τ) → Prop
  | .call _ _ => True
  | .runReady now atTime => s.activation = none → s.runner.ReturnsOnTime now atTime
  | .callbackReturns now _ => ∀ locals ∈ s.activation, s.runner.ReturnsOnTime now locals.2

theorem holds_step (h : Holds NotLate (fun _ => True) s) (hc : PiecesReturnOnTime s a)
    (hs : step sequenceRunner s a = some s') : Holds NotLate (fun _ => True) s' := by
  refine RunnerRun.holds_step (fun now op h _ => ?_) (fun now atTime h hidle ha => ?_)
    (fun locals now answer h hlocals ha => ?_) h hs
  · exact ⟨notLate_call h.1 now op, fun _ => trivial⟩
  · subst ha
    exact ends_processMessages h (hc hidle)
  · subst ha
    exact ends_processMessages h (hc locals hlocals)

/-- A run of posts and `RunReady` calls keeps the next run time right, in each of its states
outside `RunReady`, exactly when each `RunReady` that leaves messages returns on time. -/
theorem messages_are_not_late_iff (as : List (Act Unit (ThreadCall τ))) :
    (∀ bs s, bs <+: as → Machine.run (step sequenceRunner) ⟨{}, none⟩ bs = some s →
        s.activation = none → s.runner.NotLate) ↔
      Machine.AllSteps (step sequenceRunner) PiecesReturnOnTime ⟨{}, none⟩ as := by
  constructor
  · intro hall
    apply Machine.allSteps_iff.mpr
    intro js a s hpre hrun
    have hdone : ∀ t', step sequenceRunner s a = some ⟨t', none⟩ → t'.NotLate := fun t' hs =>
      hall _ _ hpre (Machine.run_snoc_eq_some.mpr ⟨s, hrun, hs⟩) rfl
    cases a with
    | call now op => trivial
    | runReady now atTime =>
      intro hidle
      apply returnsOnTime_of_notLate
      intro t' ht
      apply hdone
      simp only [step, hidle]
      show some (proceed (s.runner.processMessages now atTime)) = _
      rw [ht]
      rfl
    | callbackReturns now answer =>
      intro locals hlocals
      apply returnsOnTime_of_notLate
      intro t' ht
      apply hdone
      show s.activation.map (fun locals => proceed (s.runner.processMessages now locals.2)) = _
      rw [hlocals, Option.map_some, ht]
      rfl
  · intro hc bs s hpre hrun _
    have hkeep := Machine.invariant_of_allSteps (I := Holds NotLate fun _ => True)
      (fun _ _ _ h hc hs => holds_step h hc hs) ⟨notLate_initial, fun _ => trivial⟩
      (hc.of_prefix hpre) hrun
    exact hkeep.1

/-- The calls are made at times that do not go back, with `at_time` the current time. -/
def AtCurrentTimes (as : List (Act Unit (ThreadCall τ))) : Prop :=
  (as.map fun
    | .call now _ | .runReady now _ | .callbackReturns now _ => now).Pairwise (· ≤ ·) ∧
  ∀ a ∈ as, ∀ now atTime, a = .runReady now atTime → atTime = .micros now

/-- At 1.5 ms a message is posted for 3 ms, and `RunReady` then asks to be called at 3.5 ms. -/
theorem message_between_milliseconds_is_late :
    ¬ ∀ (as : List (Act Unit (ThreadCall Nat))) (s : RunnerRun (SimulatedThread Nat) (Nat × Timestamp)),
      AtCurrentTimes as → Machine.run (step sequenceRunner) ⟨{}, none⟩ as = some s →
      s.activation = none → s.runner.NotLate := by
  intro hall
  have htimes : AtCurrentTimes (τ := Nat) [.call 1500 (.postAt 3 7), .runReady 1500 (.micros 1500)] := by
    simp [AtCurrentTimes]
  have hlate := hall _ _ htimes rfl rfl ⟨3, 7⟩ List.mem_cons_self
  revert hlate
  decide

end

end SimulatedThread

end WebrtcGccNs3.Sim
