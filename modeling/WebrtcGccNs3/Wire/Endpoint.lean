import WebrtcGccNs3.Lib.Machine

/-!
# The sending side of an endpoint

`WebrtcSender` and `WebrtcReceiver` share it: `SendRtp` and `SendRtcp` push into
`m_rtpQ` and `m_rtcpQ`, and schedule a `DeliveryPacket` event if `m_running` is set;
the event drains one queue and then the other into `sendQ`, and hands `sendQ` to the
socket. A push and a drain are atomic, each under its lock. Everything else
interleaves, with calls from any thread. What the two classes do differently is the
parameter `Endpoint`. The `NS_ASSERT` on packet lengths is compiled out.
-/
namespace WebrtcGccNs3.Wire

abbrev Packet := List UInt8

inductive Kind where
  | rtp
  | rtcp
  deriving DecidableEq

/-- The own data `σ` of an endpoint class, and the tags `δ` it puts on packets. -/
structure Endpoint (σ δ : Type) where
  /-- `SendRtp` returns at once, with nothing queued. -/
  ignoresRtp : Packet → Bool
  /-- What `SendRtp` does between its push and its test of `m_running`. -/
  traceRtp : σ → Int → σ
  /-- `SendToNetwork`, as far as the packet's tag. -/
  sendToNetwork : σ → Int → σ × δ

/-- How far the call that queued a packet has got. -/
inductive SendStage where
  | pushed
  | traced
  | foundRunning
  | scheduled
  | foundStopped
  deriving DecidableEq

/-- Between the push and the schedule, or the test that leaves it out. -/
def SendStage.InFlight : SendStage → Prop
  | .pushed | .traced | .foundRunning => True
  | .scheduled | .foundStopped => False

instance : DecidablePred SendStage.InFlight := fun stage => by
  cases stage <;> simp only [SendStage.InFlight] <;> infer_instance

/-- A packet in a queue, with the number of the call that pushed it. -/
structure Queued where
  packet : Packet
  call : Nat

/-- The place in `DeliveryPacket`. The kind of a packet in `sendQ` is kept beside it. -/
inductive Delivery where
  | entered
  | rtpDrained (sendQ : List (Kind × Packet))
  | sending (sendQ : List (Kind × Packet))

/-- A packet handed to the socket. -/
structure Datagram (δ : Type) where
  kind : Kind
  packet : Packet
  tag : δ
  /-- The clock when it is handed over. Nothing reads it. -/
  sentAt : Int

structure EndpointRun (σ δ : Type) where
  now : Int
  own : σ
  running : Bool
  rtpQ : List Queued
  rtcpQ : List Queued
  /-- The stages of the calls that have pushed, by their number. -/
  calls : List SendStage
  /-- `DeliveryPacket` events in the simulator's queue. -/
  pending : Nat
  delivery : Option Delivery
  /-- The packets accepted so far. -/
  accepted : List (Kind × Packet)
  /-- The packets handed to the socket so far. -/
  network : List (Datagram δ)

namespace EndpointRun

variable {σ δ : Type}

inductive Act where
  | sendRtp (packet : Packet)
  | sendRtcp (packet : Packet)
  | traceRtp (call : Nat)
  | testRunning (call : Nat)
  | schedule (call : Nat)
  | startApplication
  | stopApplication
  | tick (now : Int)
  | deliveryPacket
  | drainRtp
  | drainRtcp
  | sendToNetwork
  | deliveryReturns

def initial (now : Int) (own : σ) : EndpointRun σ δ := ⟨now, own, false, [], [], [], 0, none, [], []⟩

def step (T : Endpoint σ δ) (s : EndpointRun σ δ) : Act → Option (EndpointRun σ δ)
  | .sendRtp packet =>
    if T.ignoresRtp packet then some s
    else some { s with
      rtpQ := s.rtpQ ++ [⟨packet, s.calls.length⟩]
      calls := s.calls ++ [.pushed]
      accepted := s.accepted ++ [(.rtp, packet)] }
  | .sendRtcp packet => some { s with
      rtcpQ := s.rtcpQ ++ [⟨packet, s.calls.length⟩]
      calls := s.calls ++ [.traced]
      accepted := s.accepted ++ [(.rtcp, packet)] }
  | .traceRtp call =>
    if s.calls[call]? = some .pushed then
      some { s with own := T.traceRtp s.own s.now, calls := s.calls.set call .traced }
    else none
  | .testRunning call =>
    if s.calls[call]? = some .traced then
      some { s with calls := s.calls.set call (if s.running then .foundRunning else .foundStopped) }
    else none
  | .schedule call =>
    if s.calls[call]? = some .foundRunning then
      some { s with calls := s.calls.set call .scheduled, pending := s.pending + 1 }
    else none
  | .startApplication => some { s with running := true }
  | .stopApplication => some { s with running := false }
  | .tick now => if s.now ≤ now then some { s with now := now } else none
  | .deliveryPacket =>
    match s.delivery, s.pending with
    | none, pending + 1 => some { s with pending := pending, delivery := some .entered }
    | _, _ => none
  | .drainRtp =>
    match s.delivery with
    | some .entered =>
      some { s with rtpQ := [], delivery := some (.rtpDrained (s.rtpQ.map (.rtp, ·.packet))) }
    | _ => none
  | .drainRtcp =>
    match s.delivery with
    | some (.rtpDrained sendQ) =>
      some { s with rtcpQ := [], delivery := some (.sending (sendQ ++ s.rtcpQ.map (.rtcp, ·.packet))) }
    | _ => none
  | .sendToNetwork =>
    match s.delivery with
    | some (.sending ((kind, packet) :: sendQ)) =>
      let (own, tag) := T.sendToNetwork s.own s.now
      some { s with
        own := own, delivery := some (.sending sendQ), network := s.network ++ [⟨kind, packet, tag, s.now⟩] }
    | _ => none
  | .deliveryReturns =>
    match s.delivery with
    | some (.sending []) => some { s with delivery := none }
    | _ => none

def queue (s : EndpointRun σ δ) : Kind → List Queued
  | .rtp => s.rtpQ
  | .rtcp => s.rtcpQ

/-- The local `sendQ`. -/
def sendQ (s : EndpointRun σ δ) : List (Kind × Packet) :=
  match s.delivery with
  | some (.rtpDrained sendQ) | some (.sending sendQ) => sendQ
  | _ => []

/-- `DeliveryPacket` is executing, and has not drained the queue of this kind yet. -/
def BeforeDrain (s : EndpointRun σ δ) (kind : Kind) : Prop :=
  match s.delivery with
  | some .entered => True
  | some (.rtpDrained _) => kind = .rtcp
  | _ => False

end EndpointRun

end WebrtcGccNs3.Wire
