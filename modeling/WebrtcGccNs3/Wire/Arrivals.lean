import WebrtcGccNs3.Wire.Sender
import WebrtcGccNs3.Wire.Receiver

/-!
# Arrivals and their callbacks

A callback that finds one packet in the FIFO and takes it leaves the next arrival alone
with its own callback. `WebrtcReceiver` takes the packet first. `WebrtcSender` returns
without it when it is not running, and from then on every callback takes a packet that
has arrived before.
-/
namespace WebrtcGccNs3.Wire

namespace ReceptionRun

variable {σ : Type} {recvPacket : ReceptionRun σ → Option (ReceptionRun σ)} {s s' : ReceptionRun σ}
variable {as : List Act} {p : Received}

/-- The callback of the arrival `p` leaves the FIFO empty, and passes on nothing or `p`, stamped
with the time of its arrival. -/
def HandlesOwn (s : ReceptionRun σ) (p : Received) (s' : ReceptionRun σ) : Prop :=
  s'.fifo = [] ∧ (s'.client = s.client ∨ s'.client = s.client ++ [s.emulate p.packet])

/-- Each arrival of the run is handled by its own callback. -/
def Handled (recvPacket : ReceptionRun σ → Option (ReceptionRun σ)) (s : ReceptionRun σ)
    (as : List Act) : Prop :=
  ∀ bs p t t', bs ++ [.arrival p] <+: as → Machine.run (step recvPacket) s bs = some t →
    step recvPacket t (.arrival p) = some t' → HandlesOwn t p t'

theorem fifo_step {a : Act} (hs : step recvPacket s a = some s') (ha : ∀ p, a ≠ .arrival p) :
    s'.fifo = s.fifo := by
  cases a with
  | arrival p => exact absurd rfl (ha p)
  | startApplication | stopApplication =>
    cases hs
    rfl
  | tick now =>
    simp only [step] at hs
    split at hs
    · cases hs
      rfl
    · cases hs

/-- Where the condition `C` makes a callback with an empty FIFO before it handle its own arrival,
it does so for every callback of a run. -/
theorem handled_of_allSteps {C : ReceptionRun σ → Act → Prop}
    (hown : ∀ t p t', t.fifo = [] → C t (.arrival p) → step recvPacket t (.arrival p) = some t' →
      HandlesOwn t p t')
    (hempty : s.fifo = []) (hC : Machine.AllSteps (step recvPacket) C s as) :
    Handled recvPacket s as := by
  intro bs p t t' hpre ht hs
  have hfifo : t.fifo = [] := by
    refine Machine.invariant_of_allSteps (I := fun t => t.fifo = []) (fun t a t' h hc hs => ?_) hempty
      (hC.of_prefix ((List.prefix_append bs _).trans hpre)) ht
    cases a with
    | arrival p => exact (hown t p t' h hc hs).1
    | startApplication | stopApplication | tick => exact (fifo_step hs (by simp)).trans h
  exact hown t p t' hfifo (Machine.allSteps_iff.mp hC bs (.arrival p) t hpre ht) hs

end ReceptionRun

namespace WebrtcReceiver

open ReceptionRun

theorem recvPacket_handlesOwn {parser : RtpHeaderParser} {s s' : ReceptionRun WebrtcReceiver}
    {p : Received} (hempty : s.fifo = []) (hs : step (recvPacket parser) s (.arrival p) = some s') :
    HandlesOwn s p s' := by
  simp only [step, recvPacket, hempty, List.nil_append] at hs
  obtain ⟨tag, -, hs⟩ := Option.bind_eq_some_iff.mp hs
  split at hs
  · cases hs
    exact ⟨rfl, Or.inl rfl⟩
  · exact (pass_spec hs).2

end WebrtcReceiver

namespace WebrtcSender

open ReceptionRun

/-- The sender runs when a packet arrives. -/
def ArrivesRunning (s : ReceptionRun WebrtcSender) : Act → Prop
  | .arrival _ => s.running = true
  | _ => True

instance (s : ReceptionRun WebrtcSender) (a : Act) : Decidable (ArrivesRunning s a) :=
  match a with
  | .arrival _ => inferInstanceAs (Decidable (s.running = true))
  | .startApplication | .stopApplication | .tick _ => inferInstanceAs (Decidable True)

variable {parser : RtpHeaderParser} {s s' : ReceptionRun WebrtcSender} {p : Received}

theorem recvPacket_handlesOwn (hempty : s.fifo = []) (hrun : s.running = true)
    (hs : step (recvPacket parser) s (.arrival p) = some s') : HandlesOwn s p s' := by
  simp only [step, recvPacket, hempty, hrun, List.nil_append] at hs
  exact (pass_spec hs).2

/-- A packet that arrives at a sender which is not running stays in the FIFO. -/
theorem step_arrival_of_not_running (hrun : s.running = false) :
    step (recvPacket parser) s (.arrival p) = some { s with fifo := s.fifo ++ [p] } := by
  simp [step, recvPacket, hrun]

end WebrtcSender

namespace ReceptionRun

/-- In every run of the receiver each arrival is handled by its own callback. In a run of the sender
it is exactly when no packet arrives while the sender is not running. -/
theorem arrivals_are_handled_iff (parser : RtpHeaderParser) (now : Time) (packetOverhead : UInt32)
    (receiver : WebrtcReceiver) (sender : WebrtcSender) (as : List Act) :
    Handled (WebrtcReceiver.recvPacket parser) (initial now receiver packetOverhead) as ∧
      (Handled (WebrtcSender.recvPacket parser) (initial now sender packetOverhead) as ↔
        Machine.AllSteps (step (WebrtcSender.recvPacket parser)) WebrtcSender.ArrivesRunning
          (initial now sender packetOverhead) as) := by
  refine ⟨?_, ?_, ?_⟩
  · exact handled_of_allSteps (C := fun _ _ => True)
      (fun _ _ _ hempty _ hs => WebrtcReceiver.recvPacket_handlesOwn hempty hs) rfl
      (Machine.allSteps_of_forall_mem (fun _ _ _ => trivial) _)
  · intro h
    apply Machine.allSteps_iff.mpr
    intro bs a t hpre ht
    cases a with
    | arrival p =>
      by_contra hrun
      have hs : step (WebrtcSender.recvPacket parser) t (.arrival p) =
          some { t with fifo := t.fifo ++ [p] } :=
        WebrtcSender.step_arrival_of_not_running (Bool.eq_false_of_not_eq_true hrun)
      obtain ⟨hempty, -⟩ := h bs p t _ hpre ht hs
      exact List.append_ne_nil_of_right_ne_nil _ (List.cons_ne_nil p []) hempty
    | startApplication | stopApplication | tick => trivial
  · exact handled_of_allSteps
      (fun _ _ _ hempty hrun hs => WebrtcSender.recvPacket_handlesOwn hempty hrun hs) rfl

/-- A packet arrives before `StartApplication`, and another one after it. -/
theorem packet_before_start_shifts_the_callbacks :
    ¬ ∀ (parser : RtpHeaderParser) (now : Time) (packetOverhead : UInt32) (receiver : WebrtcReceiver)
      (sender : WebrtcSender) (as : List Act),
      Handled (WebrtcReceiver.recvPacket parser) (initial now receiver packetOverhead) as ∧
        Handled (WebrtcSender.recvPacket parser) (initial now sender packetOverhead) as := by
  intro hall
  have hhandled := (hall ⟨fun _ => true, fun _ => none⟩ 0 0 { peer := ⟨0, 0⟩ } {}
    [.arrival ⟨[0x80], none, ⟨1, 9⟩⟩, .startApplication, .tick 5000000,
      .arrival ⟨[0x81], none, ⟨1, 9⟩⟩]).2
  obtain ⟨hempty, -⟩ := hhandled [.arrival ⟨[0x80], none, ⟨1, 9⟩⟩, .startApplication, .tick 5000000]
    ⟨[0x81], none, ⟨1, 9⟩⟩ _ _ (List.prefix_refl _) rfl rfl
  cases hempty

/-- The second callback passes on the first packet, with the time of the second arrival. -/
example : (Machine.run (step (WebrtcSender.recvPacket ⟨fun _ => true, fun _ => none⟩)) (initial 0 {} 0)
    [.arrival ⟨[0x80], none, ⟨1, 9⟩⟩, .startApplication, .tick 5000000,
      .arrival ⟨[0x81], none, ⟨1, 9⟩⟩]).map (·.client) = some [⟨[0x80], .micros 5000, 0⟩] := rfl

end ReceptionRun

end WebrtcGccNs3.Wire
