import WebrtcGccNs3.Wire.Endpoint
import WebrtcGccNs3.Wire.Reception
import WebrtcGccNs3.Wire.Tag
import WebrtcGccNs3.Wire.Trace

/-!
# WebrtcReceiver

The receiver sends as an endpoint too. It puts no tag on its packets, traces nothing
in `SendRtp`, and queues whatever it is given. A packet that arrives is reported to the
trace callback with the sequence number and the send time of its tag, and counted by
`UtilCalculator`. A tag that ends too early is read past its end: there the run ends.
The `NS_ASSERT` on the peer's port is compiled out.
-/
namespace WebrtcGccNs3.Wire

/-- The receipt side of the singleton of webrtc-trace.cc. -/
structure UtilCalculator where
  enable : Bool := false
  readBytes : Int := 0
  receiptMillis : Int := 0

def UtilCalculator.onPacketInfo (calculator : UtilCalculator) (eventTime : Int) (sz : ℕ) :
    UtilCalculator :=
  if calculator.enable then
    { calculator with readBytes := calculator.readBytes + sz, receiptMillis := eventTime }
  else calculator

structure WebrtcReceiver where
  knowPeer : Bool := false
  peer : InetSocketAddress
  /-- A callback is set. -/
  traceReceiptPkt : Bool := false
  /-- What was given to the callback. -/
  reported : List ReceiptPktInfo := []
  util : UtilCalculator := {}

namespace WebrtcReceiver

def endpoint : Endpoint Unit Unit where
  ignoresRtp _ := false
  traceRtp _ _ := ()
  sendToNetwork _ _ := ((), ())

/-- `RemovePacketTag` deserializes the tag that it finds, and otherwise leaves the fresh one. -/
def removePacketTag (p : Received) : Option WebrtcTag :=
  match p.tag with
  | some bytes => (WebrtcTag.deserialize bytes).map (·.1)
  | none => some {}

/-- The arguments of the trace callback. -/
def receiptPktInfo (milliseconds : Int) (tag : WebrtcTag) : ReceiptPktInfo :=
  let now := UInt32.ofInt milliseconds
  { now, seq := tag.seq.toUInt32, owd := (now.toUInt64 - tag.time).toUInt32 }

def report (receiver : WebrtcReceiver) (info : ReceiptPktInfo) : WebrtcReceiver :=
  if receiver.traceReceiptPkt then { receiver with reported := receiver.reported ++ [info] }
  else receiver

/-- The first packet fixes the peer. -/
def meetPeer (receiver : WebrtcReceiver) (remoteAddr : InetSocketAddress) : WebrtcReceiver :=
  if receiver.knowPeer then receiver else { receiver with peer := remoteAddr, knowPeer := true }

def recvPacket (parser : RtpHeaderParser) (s : ReceptionRun WebrtcReceiver) :
    Option (ReceptionRun WebrtcReceiver) :=
  match s.fifo with
  | [] => none
  | p :: fifo => do
    let tag ← removePacketTag p
    let info := receiptPktInfo s.now.getMilliSeconds tag
    let own := (s.own.report info).meetPeer p.remoteAddr
    if ¬ s.running then return { s with fifo := fifo, own := own }
    let util := own.util.onPacketInfo info.now.toNat p.packet.length
    { s with fifo := fifo, own := { own with util := util } }.pass parser p.packet

end WebrtcReceiver

end WebrtcGccNs3.Wire
