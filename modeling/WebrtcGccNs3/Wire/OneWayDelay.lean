import WebrtcGccNs3.Wire.Sender
import WebrtcGccNs3.Wire.Receiver

/-!
# The reported one-way delay

The sender puts its 64-bit sequence number and send time into the tag. The receiver
truncates the number, and its own clock, to 32 bits, subtracts the full send time, and
truncates the difference. A delay of less than `2 ^ 32` ms comes through exactly.
-/
namespace WebrtcGccNs3.Wire

namespace WebrtcReceiver

variable {parser : RtpHeaderParser} {t t' : ReceptionRun WebrtcReceiver} {p : Received}
variable {fifo : List Received} {tag : WebrtcTag}

/-- `now - tag.GetTime()` modulo `2 ^ 64`, truncated. -/
theorem toNat_owd {sent received : Int} (htime : (tag.time.toNat : Int) = sent) (hle : sent ≤ received)
    (hlt : received < sent + 2 ^ 32) :
    ((receiptPktInfo received tag).owd.toNat : Int) = received - sent := by
  have hnow := UInt32_toNat_ofInt received
  have hfield := tag.time.toNat_lt
  show ((((UInt32.ofInt received).toUInt64 - tag.time).toUInt32.toNat : ℕ) : Int) = received - sent
  rw [UInt64.toNat_toUInt32, UInt64.toNat_sub, UInt32.toNat_toUInt64]
  omega

@[simp] theorem meetPeer_reported (receiver : WebrtcReceiver) (remoteAddr : InetSocketAddress) :
    (receiver.meetPeer remoteAddr).reported = receiver.reported := by
  unfold meetPeer
  split <;> rfl

theorem reported_report (receiver : WebrtcReceiver) (info : ReceiptPktInfo)
    (htrace : receiver.traceReceiptPkt = true) :
    (receiver.report info).reported = receiver.reported ++ [info] := by
  rw [report, if_pos htrace]

/-- The callback is told of the packet whatever is done with it afterwards. -/
theorem reported_recvPacket (hfifo : t.fifo = p :: fifo) (htag : removePacketTag p = some tag)
    (htrace : t.own.traceReceiptPkt = true) (ht : recvPacket parser t = some t') :
    t'.own.reported = t.own.reported ++ [receiptPktInfo t.now.getMilliSeconds tag] := by
  rw [← reported_report _ _ htrace]
  simp only [recvPacket, hfifo, htag, Option.bind_eq_bind, Option.bind_some] at ht
  split at ht
  · cases ht
    exact meetPeer_reported _ _
  · rw [(ReceptionRun.pass_spec ht).1]
    exact meetPeer_reported _ _

theorem recvPacket_isSome (hfifo : t.fifo = p :: fifo) (htag : removePacketTag p = some tag)
    (hsize : p.packet.length ≤ 1500) : ∃ t', recvPacket parser t = some t' := by
  simp only [recvPacket, hfifo, htag, Option.bind_eq_bind, Option.bind_some]
  split
  · exact ⟨_, rfl⟩
  · exact ReceptionRun.pass_isSome hsize

end WebrtcReceiver

/-- A packet that the sender tags at `sent` ms and that the receiver takes at `received` ms is
reported with its number modulo `2 ^ 32` and with its delay. -/
theorem sequence_and_owd_are_reported (parser : RtpHeaderParser) (sender : WebrtcSender)
    (sent received : Int) (hseq : 1 ≤ sender.seq.toNat ∧ sender.seq.toNat < 2 ^ 63) (hsent : 1 ≤ sent)
    (hle : sent ≤ received) (hlt : received < sent + 2 ^ 32) (hreceived : received < 2 ^ 63) :
    ∃ bytes, (sender.sendToNetwork sent).2.addPacketTag = some bytes ∧
      ∀ (t : ReceptionRun WebrtcReceiver) (packet : Packet) (remoteAddr : InetSocketAddress)
        (fifo : List Received),
        t.fifo = ⟨packet, some bytes, remoteAddr⟩ :: fifo →
        t.now.getMilliSeconds = received → t.own.traceReceiptPkt = true →
        (packet.length ≤ 1500 → ∃ t', WebrtcReceiver.recvPacket parser t = some t') ∧
        ∀ t', WebrtcReceiver.recvPacket parser t = some t' →
          ∃ info, t'.own.reported = t.own.reported ++ [info] ∧
            info.seq.toNat = sender.seq.toNat % 2 ^ 32 ∧ (info.owd.toNat : Int) = received - sent := by
  have htime : ((UInt64.ofInt sent).toNat : Int) = sent := by
    rw [UInt64_toNat_ofInt]
    omega
  have hfield : (UInt64.ofInt sent).toNat < 2 ^ 63 := by omega
  have hzero : sender.seq ≠ 0 ∧ UInt64.ofInt sent ≠ 0 := by
    constructor
    · rintro hzero
      simp [hzero] at hseq
    · intro hzero
      simp [hzero] at htime
      omega
  refine ⟨_, WebrtcTag.addPacketTag_eq hseq.2 hfield, fun t packet remoteAddr fifo hfifo hnow htrace => ?_⟩
  have htag : WebrtcReceiver.removePacketTag ⟨packet, some _, remoteAddr⟩ =
      some (sender.sendToNetwork sent).2 :=
    congrArg (Option.map _) (WebrtcTag.deserialize_serialize hzero.1 hzero.2)
  refine ⟨WebrtcReceiver.recvPacket_isSome hfifo htag, fun t' ht => ?_⟩
  refine ⟨_, WebrtcReceiver.reported_recvPacket hfifo htag htrace ht, ?_, ?_⟩
  · exact UInt64.toNat_toUInt32 sender.seq
  · rw [hnow]
    exact WebrtcReceiver.toNat_owd htime hle hlt

/-- The clock passes `2 ^ 32` ms while packet `2 ^ 32 + 5` is under way. -/
theorem owd_across_the_wrap :
    ∃ bytes, (WebrtcTag.mk 4294967301 4294967295).addPacketTag = some bytes ∧
      ∃ t', WebrtcReceiver.recvPacket ⟨fun _ => true, fun _ => none⟩
          ⟨Time.milliSeconds 4294967297, { peer := ⟨1, 9⟩, traceReceiptPkt := true }, true, 0,
            [⟨[0x80], some bytes, ⟨1, 9⟩⟩], []⟩ = some t' ∧
        ∃ info, t'.own.reported = [info] ∧ info.seq.toNat = 5 ∧ (info.owd.toNat : Int) = 2 := by
  obtain ⟨bytes, hbytes, hreport⟩ := sequence_and_owd_are_reported ⟨fun _ => true, fun _ => none⟩
    { seq := 4294967301 } 4294967295 4294967297 (by decide) (by decide) (by decide) (by decide)
    (by decide)
  obtain ⟨hreturns, hinfo⟩ := hreport
    ⟨Time.milliSeconds 4294967297, { peer := ⟨1, 9⟩, traceReceiptPkt := true }, true, 0,
      [⟨[0x80], some bytes, ⟨1, 9⟩⟩], []⟩ [0x80] ⟨1, 9⟩ [] rfl rfl rfl
  obtain ⟨t', ht⟩ := hreturns (by decide)
  exact ⟨bytes, hbytes, t', ht, hinfo t' ht⟩

end WebrtcGccNs3.Wire
