import WebrtcGccNs3.Wire.Sender
import WebrtcGccNs3.Wire.Receiver

/-!
# Delivery of queued packets

A call that finds `m_running` set schedules a `DeliveryPacket`, which drains both
queues. A call that finds it clear leaves its packet to the next such event, and
`StartApplication` schedules none. So what a queue holds without a delivery ahead
comes from calls that found the application stopped.
-/
namespace WebrtcGccNs3.Wire

namespace EndpointRun

variable {σ δ : Type} {T : Endpoint σ δ} {s s' : EndpointRun σ δ} {a : Act}

/-- A `DeliveryPacket` is pending, or executing and before its drain of the queue. -/
def Awaited (s : EndpointRun σ δ) (kind : Kind) : Prop := 0 < s.pending ∨ s.BeforeDrain kind

/-- Every queued packet has a delivery ahead of it, unless its call is still under way
or has found the application stopped. -/
def Accounted (s : EndpointRun σ δ) : Prop :=
  ∀ kind, ∀ e ∈ s.queue kind, s.Awaited kind ∨
    ∃ stage, s.calls[e.call]? = some stage ∧ (stage.InFlight ∨ stage = .foundStopped)

/-- A call goes on to a stage that is in flight or has found the application stopped. -/
theorem accounted_set (h : Accounted s) {call : Nat} (stage : SendStage)
    (hstage : stage.InFlight ∨ stage = .foundStopped)
    (hcalls : s'.calls = s.calls.set call stage) (hqueue : ∀ kind, s'.queue kind = s.queue kind)
    (hawaited : ∀ kind, s.Awaited kind → s'.Awaited kind) : Accounted s' := by
  intro kind e he
  rw [hqueue] at he
  rcases h kind e he with ha | ⟨old, hold, hok⟩
  · exact Or.inl (hawaited kind ha)
  · right
    rw [hcalls]
    by_cases hc : call = e.call
    · obtain ⟨hlt, -⟩ := List.getElem?_eq_some_iff.mp hold
      subst hc
      exact ⟨stage, by simp [hlt], hstage⟩
    · exact ⟨old, by rwa [List.getElem?_set_ne hc], hok⟩

theorem accounted_push (h : Accounted s) (stage : SendStage) (kind : Kind) {packet : Packet}
    (hstage : stage.InFlight) (hcalls : s'.calls = s.calls ++ [stage])
    (hqueue : s'.queue kind = s.queue kind ++ [⟨packet, s.calls.length⟩])
    (hother : ∀ kind', kind' ≠ kind → s'.queue kind' = s.queue kind')
    (hawaited : ∀ kind, s.Awaited kind → s'.Awaited kind) : Accounted s' := by
  have hold : ∀ kind', ∀ e ∈ s.queue kind', s'.Awaited kind' ∨
      ∃ stage, s'.calls[e.call]? = some stage ∧ (stage.InFlight ∨ stage = .foundStopped) := by
    intro kind' e he
    rcases h kind' e he with ha | ⟨old, hold, hok⟩
    · exact Or.inl (hawaited kind' ha)
    · obtain ⟨hlt, -⟩ := List.getElem?_eq_some_iff.mp hold
      exact Or.inr ⟨old, by rwa [hcalls, List.getElem?_append_left hlt], hok⟩
  intro kind' e he
  by_cases hk : kind' = kind
  · subst hk
    rw [hqueue] at he
    rcases List.mem_append.mp he with he | he
    · exact hold kind' e he
    · obtain rfl := List.mem_singleton.mp he
      exact Or.inr ⟨stage, by simp [hcalls], Or.inl hstage⟩
  · rw [hother kind' hk] at he
    exact hold kind' e he

/-- A drain empties its queue, and the delivery of the other is still ahead if it was. -/
theorem accounted_drain (h : Accounted s) (hcalls : s'.calls = s.calls)
    (hqueue : ∀ kind, s'.queue kind = [] ∨
      s'.queue kind = s.queue kind ∧ (s.Awaited kind → s'.Awaited kind)) : Accounted s' := by
  intro kind e he
  rcases hqueue kind with hnil | ⟨hsame, hawaited⟩
  · rw [hnil] at he
    cases he
  · rw [hsame] at he
    rw [hcalls]
    exact (h kind e he).imp_left hawaited

theorem accounted_step (h : Accounted s) (hs : step T s a = some s') : Accounted s' := by
  have hkeep : ∀ kind, s.Awaited kind → s.Awaited kind := fun _ h => h
  cases a with
  | sendRtp packet =>
    simp only [step] at hs
    split at hs
    · cases hs
      exact h
    · cases hs
      refine accounted_push h .pushed .rtp trivial rfl rfl ?_ hkeep
      intro kind hk
      cases kind with
      | rtp => exact absurd rfl hk
      | rtcp => rfl
  | sendRtcp packet =>
    cases hs
    refine accounted_push h .traced .rtcp trivial rfl rfl ?_ hkeep
    intro kind hk
    cases kind with
    | rtp => rfl
    | rtcp => exact absurd rfl hk
  | traceRtp call =>
    simp only [step] at hs
    split at hs
    · cases hs
      exact accounted_set h .traced (Or.inl trivial) rfl (fun kind => by cases kind <;> rfl) hkeep
    · cases hs
  | testRunning call =>
    simp only [step] at hs
    split at hs
    · cases hs
      refine accounted_set h _ ?_ rfl (fun kind => by cases kind <;> rfl) hkeep
      split
      · exact Or.inl trivial
      · exact Or.inr rfl
    · cases hs
  | schedule call =>
    simp only [step] at hs
    split at hs
    · cases hs
      exact fun kind e he => Or.inl (Or.inl (Nat.succ_pos _))
    · cases hs
  | startApplication | stopApplication =>
    cases hs
    exact accounted_drain h rfl fun kind => Or.inr ⟨by cases kind <;> rfl, hkeep kind⟩
  | tick now =>
    simp only [step] at hs
    split at hs
    · cases hs
      exact accounted_drain h rfl fun kind => Or.inr ⟨by cases kind <;> rfl, hkeep kind⟩
    · cases hs
  | deliveryPacket =>
    simp only [step] at hs
    split at hs
    · cases hs
      exact accounted_drain h rfl fun kind =>
        Or.inr ⟨by cases kind <;> rfl, fun _ => Or.inr trivial⟩
    · cases hs
  | drainRtp =>
    simp only [step] at hs
    split at hs
    · rename_i hentered
      cases hs
      refine accounted_drain h rfl ?_
      intro kind
      cases kind with
      | rtp => exact Or.inl rfl
      | rtcp => exact Or.inr ⟨rfl, fun _ => Or.inr rfl⟩
    · cases hs
  | drainRtcp =>
    simp only [step] at hs
    split at hs
    · rename_i sendQ hdrained
      cases hs
      refine accounted_drain h rfl ?_
      intro kind
      cases kind with
      | rtp =>
        refine Or.inr ⟨rfl, fun ha => ha.imp_right fun hb => ?_⟩
        rw [BeforeDrain, hdrained] at hb
        cases hb
      | rtcp => exact Or.inl rfl
    · cases hs
  | sendToNetwork | deliveryReturns =>
    simp only [step] at hs
    split at hs
    · rename_i hsending
      cases hs
      refine accounted_drain h rfl fun kind => Or.inr ⟨by cases kind <;> rfl, fun ha => ?_⟩
      refine ha.imp_right fun hb => ?_
      rw [BeforeDrain, hsending] at hb
      cases hb
    · cases hs

theorem accounted_of_reachable {now : Int} {own : σ}
    (h : Machine.Reachable (step T) (initial now own) s) : Accounted s := by
  obtain ⟨as, hrun⟩ := h
  refine Machine.invariant (I := Accounted) (fun _ _ _ h hs => accounted_step h hs) ?_ hrun
  intro kind e he
  cases kind <;> cases he

/-- No `SendRtp` or `SendRtcp` is between its push and its schedule. -/
def Settled (s : EndpointRun σ δ) : Prop := ∀ stage ∈ s.calls, ¬ stage.InFlight

instance (s : EndpointRun σ δ) : Decidable (Settled s) :=
  inferInstanceAs (Decidable (∀ stage ∈ s.calls, ¬ stage.InFlight))

theorem awaited_of_settled (h : Accounted s) (hsettled : Settled s) {kind : Kind} {e : Queued}
    (he : e ∈ s.queue kind) (hcall : s.calls[e.call]? ≠ some .foundStopped) : s.Awaited kind := by
  rcases h kind e he with ha | ⟨stage, hstage, hin | rfl⟩
  · exact ha
  · exact absurd hin (hsettled stage (List.mem_of_getElem? hstage))
  · exact absurd hstage hcall

end EndpointRun

open EndpointRun

/-- At the sender and at the receiver, while no call is between its push and its schedule: if
a queue holds a packet whose call did not find `m_running` clear, a `DeliveryPacket` that
has yet to drain that queue is pending or executing. -/
theorem queued_packets_are_awaited :
    (∀ (now : Int) (traceBw : Bool) (s : EndpointRun WebrtcSender WebrtcTag),
      Machine.Reachable (step WebrtcSender.endpoint) (initial now { traceBw := traceBw }) s →
      Settled s → ∀ kind, ∀ e ∈ s.queue kind, s.calls[e.call]? ≠ some .foundStopped →
      s.Awaited kind) ∧
    (∀ (now : Int) (s : EndpointRun Unit Unit),
      Machine.Reachable (step WebrtcReceiver.endpoint) (initial now ()) s →
      Settled s → ∀ kind, ∀ e ∈ s.queue kind, s.calls[e.call]? ≠ some .foundStopped →
      s.Awaited kind) :=
  ⟨fun _ _ _ h hsettled _ _ he hcall =>
      awaited_of_settled (accounted_of_reachable h) hsettled he hcall,
    fun _ _ h hsettled _ _ he hcall =>
      awaited_of_settled (accounted_of_reachable h) hsettled he hcall⟩

/-- A packet sent before `StartApplication`, and one after. -/
theorem early_and_late_packet_awaited :
    ∃ s : EndpointRun WebrtcSender WebrtcTag, s.delivery = none ∧ s.calls[1]? ≠ some .foundStopped ∧
      s.rtpQ.map (·.call) = [0, 1] ∧ s.Awaited .rtp := by
  have hrun : ∃ s : EndpointRun WebrtcSender WebrtcTag,
      Machine.run (step WebrtcSender.endpoint) (initial 0 { traceBw := false })
        [.sendRtp [1], .traceRtp 0, .testRunning 0, .startApplication, .sendRtp [2], .traceRtp 1,
          .testRunning 1, .schedule 1] = some s ∧
      s.delivery = none ∧ s.calls = [.foundStopped, .scheduled] ∧
      s.rtpQ = [⟨[1], 0⟩, ⟨[2], 1⟩] := ⟨_, rfl, rfl, rfl, rfl⟩
  obtain ⟨s, hs, hidle, hcalls, hqueue⟩ := hrun
  have hcall : s.calls[1]? ≠ some .foundStopped := by simp [hcalls]
  refine ⟨s, hidle, hcall, by simp [hqueue], ?_⟩
  refine queued_packets_are_awaited.1 0 false s ⟨_, hs⟩ ?_ .rtp ⟨[2], 1⟩ ?_ hcall
  · rw [Settled, hcalls]
    decide
  · simp [queue, hqueue]

/-- A packet sent before `StartApplication` alone. -/
theorem early_packet_is_stranded :
    ¬ ∀ (now : Int) (traceBw : Bool) (s : EndpointRun WebrtcSender WebrtcTag),
      Machine.Reachable (step WebrtcSender.endpoint) (initial now { traceBw := traceBw }) s →
      s.running = true → Settled s → ∀ kind, s.queue kind ≠ [] → s.Awaited kind := by
  intro hall
  have hrun : ∃ s : EndpointRun WebrtcSender WebrtcTag,
      Machine.run (step WebrtcSender.endpoint) (initial 0 { traceBw := false })
        [.sendRtp [1], .traceRtp 0, .testRunning 0, .startApplication] = some s ∧
      s.running = true ∧ s.calls = [.foundStopped] ∧ s.pending = 0 ∧ s.delivery = none ∧
      s.rtpQ = [⟨[1], 0⟩] := ⟨_, rfl, rfl, rfl, rfl, rfl, rfl⟩
  obtain ⟨s, hs, hrunning, hcalls, hpending, hidle, hqueue⟩ := hrun
  have hsettled : Settled s := by
    rw [Settled, hcalls]
    decide
  have hawaited := hall 0 false s ⟨_, hs⟩ hrunning hsettled .rtp (by simp [queue, hqueue])
  simp [Awaited, BeforeDrain, hpending, hidle] at hawaited

end WebrtcGccNs3.Wire
