import WebrtcGccNs3.Wire.Endpoint
import WebrtcGccNs3.Wire.Reception
import WebrtcGccNs3.Wire.Tag

/-!
# WebrtcSender

The sender's part of an endpoint: packets carry a `WebrtcTag` with `m_seq` and the
send time, and `SendRtp` reports the bandwidth, thinned, to a callback. The figure it
reports comes from the call object and is left out; the times are kept.
-/
namespace WebrtcGccNs3.Wire

def kTraceInterval : Int := 25

structure WebrtcSender where
  seq : UInt64 := 1
  lastTraceTime : Int := 0
  /-- A callback is set. -/
  traceBw : Bool := false
  /-- The times given to the callback. -/
  traced : List UInt32 := []

namespace WebrtcSender

/-- The bandwidth trace of `SendRtp`, at `Simulator::Now()` in milliseconds. -/
def traceRtp (sender : WebrtcSender) (milliseconds : Int) : WebrtcSender :=
  let now := UInt32.ofInt milliseconds
  let (lastTraceTime, output) :=
    if sender.lastTraceTime = 0 then ((now.toNat : Int), true) else (sender.lastTraceTime, false)
  let (lastTraceTime, output) :=
    if now.toNat ≥ lastTraceTime + kTraceInterval then ((now.toNat : Int), true)
    else (lastTraceTime, output)
  { sender with
    lastTraceTime := lastTraceTime
    traced := if output && sender.traceBw then sender.traced ++ [now] else sender.traced }

def sendToNetwork (sender : WebrtcSender) (milliseconds : Int) : WebrtcSender × WebrtcTag :=
  ({ sender with seq := sender.seq + 1 }, ⟨sender.seq, UInt64.ofInt milliseconds⟩)

def endpoint : Endpoint WebrtcSender WebrtcTag where
  ignoresRtp packet := packet.length = 0
  traceRtp := traceRtp
  sendToNetwork := sendToNetwork

/-- On a sender that is not running, `RecvPacket` returns before it takes the packet. -/
def recvPacket (parser : RtpHeaderParser) (s : ReceptionRun WebrtcSender) :
    Option (ReceptionRun WebrtcSender) :=
  if ¬ s.running then some s
  else
    match s.fifo with
    | [] => none
    | p :: fifo => { s with fifo := fifo }.pass parser p.packet

@[simp] theorem traceRtp_seq (sender : WebrtcSender) (milliseconds : Int) :
    (sender.traceRtp milliseconds).seq = sender.seq := rfl

end WebrtcSender

end WebrtcGccNs3.Wire
