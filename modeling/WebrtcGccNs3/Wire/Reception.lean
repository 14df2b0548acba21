import WebrtcGccNs3.Sim.Timestamp
import WebrtcGccNs3.Wire.Endpoint
import WebrtcGccNs3.Wire.Time

/-!
# The receiving side of an endpoint

The UDP socket appends a packet that arrives to its FIFO, and then invokes the receive
callback once. `RecvFrom` takes the head. `WebrtcSender` and `WebrtcReceiver` have a
`RecvPacket` each, which is the parameter here; its last part is the same in both. A
packet of more than 1500 bytes overruns their buffer: there the run ends.
-/
namespace WebrtcGccNs3.Wire

structure InetSocketAddress where
  ipv4 : UInt32
  port : UInt16
  deriving DecidableEq

/-- A packet in the FIFO. -/
structure Received where
  packet : Packet
  /-- What was serialized into its `WebrtcTag`, if it has one. -/
  tag : Option (List UInt8)
  remoteAddr : InetSocketAddress

/-- The header parser of libwebrtc. -/
structure RtpHeaderParser where
  isRtcp : Packet → Bool
  getSsrc : Packet → Option UInt32

structure EmulatedIpPacket where
  data : Packet
  arrivalTime : Sim.Timestamp
  overhead : UInt32

/-- The own data `σ` of an endpoint class, and what its arrivals are about. -/
structure ReceptionRun (σ : Type) where
  now : Time
  own : σ
  running : Bool
  packetOverhead : UInt32
  /-- The receive FIFO of the socket. -/
  fifo : List Received
  /-- The packets passed to `CallClient::OnPacketReceived` so far. -/
  client : List EmulatedIpPacket

namespace ReceptionRun

variable {σ : Type}

inductive Act where
  | arrival (p : Received)
  | startApplication
  | stopApplication
  | tick (now : Time)

def initial (now : Time) (own : σ) (packetOverhead : UInt32) : ReceptionRun σ :=
  ⟨now, own, false, packetOverhead, [], []⟩

def step (recvPacket : ReceptionRun σ → Option (ReceptionRun σ)) (s : ReceptionRun σ) :
    Act → Option (ReceptionRun σ)
  | .arrival p => recvPacket { s with fifo := s.fifo ++ [p] }
  | .startApplication => some { s with running := true }
  | .stopApplication => some { s with running := false }
  | .tick now => if s.now ≤ now then some { s with now := now } else none

/-- `m_clock->CurrentTime()`. -/
def currentTime (s : ReceptionRun σ) : Sim.Timestamp := .micros s.now.getMicroSeconds

/-- The packet as it should reach the client, stamped with the time at hand. -/
def emulate (s : ReceptionRun σ) (packet : Packet) : EmulatedIpPacket :=
  ⟨packet, s.currentTime, s.packetOverhead⟩

/-- The last part of `RecvPacket`: RTP without an SSRC is dropped. -/
def pass (parser : RtpHeaderParser) (s : ReceptionRun σ) (packet : Packet) : Option (ReceptionRun σ) :=
  if packet.length ≤ 1500 then
    if ¬ parser.isRtcp packet ∧ (parser.getSsrc packet).isNone then some s
    else some { s with client := s.client ++ [s.emulate packet] }
  else none

variable {parser : RtpHeaderParser} {s s' : ReceptionRun σ} {packet : Packet}

theorem pass_spec (h : s.pass parser packet = some s') :
    s'.own = s.own ∧ s'.fifo = s.fifo ∧
      (s'.client = s.client ∨ s'.client = s.client ++ [s.emulate packet]) := by
  unfold pass at h
  split at h
  · split at h
    · cases h
      exact ⟨rfl, rfl, Or.inl rfl⟩
    · cases h
      exact ⟨rfl, rfl, Or.inr rfl⟩
  · cases h

theorem pass_isSome (h : packet.length ≤ 1500) : ∃ s', s.pass parser packet = some s' := by
  rw [pass, if_pos h]
  split
  · exact ⟨_, rfl⟩
  · exact ⟨_, rfl⟩

end ReceptionRun

end WebrtcGccNs3.Wire
