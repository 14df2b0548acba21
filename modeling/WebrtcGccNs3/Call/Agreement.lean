import WebrtcGccNs3.Call.Ssrcs

/-!
# The two ends of a stream pair

Each receive stream of a pair is set up for what one of the send streams sends, and the
receiver delivers its packets as video ever after, also where it had seen the SSRC before
there was a stream. Only FlexFEC disagrees: its receiver protects the SSRCs for RTX.
-/
namespace WebrtcGccNs3.Call

/-- A receive stream that is set up for the send stream at index `i` of a pair. -/
structure Agrees (pair : VideoStreamPair2) (i : ℕ) (stream : ReceiveConfig) : Prop where
  media : pair.send.config.ssrcs[i]? = some stream.remoteSsrc
  decoder : stream.decoder = (pair.send.config.payloadType, pair.send.config.payloadName)
  extensions : stream.extensions = pair.send.config.extensions
  nack : stream.rtpHistoryMs = pair.send.config.rtpHistoryMs
  rtx : pair.config.useRtx = true → pair.send.config.rtx.ssrcs[i]? = some stream.rtxSsrc ∧
    (pair.send.config.rtx.payloadType, pair.send.config.payloadType) ∈ stream.rtxAssociatedPayloadTypes
  ulpfec : stream.redPayloadType = pair.send.config.ulpfec.redPayloadType ∧
    stream.ulpfecPayloadType = pair.send.config.ulpfec.ulpfecPayloadType ∧
    (pair.config.useUlpfec = true →
      (pair.send.config.ulpfec.redRtxPayloadType, pair.send.config.ulpfec.redPayloadType) ∈
        stream.rtxAssociatedPayloadTypes)

theorem agrees_of_created {payloadString : VideoCodecType → String} {pair : VideoStreamPair2} {i : ℕ}
    {ssrc rtxSsrc localSsrc : UInt32}
    (hconfig : pair.send.config =
      createVideoSendStreamConfig payloadString pair.config pair.send.ssrcs pair.send.rtxSsrcs)
    (hssrc : pair.send.ssrcs[i]? = some ssrc) (hrtxSsrc : pair.send.rtxSsrcs[i]? = some rtxSsrc) :
    Agrees pair i (createVideoReceiveStreamConfig pair.config
      (codecTypeToPayloadType pair.config.codec, payloadString pair.config.codec)
      localSsrc ssrc rtxSsrc) := by
  constructor
  · rw [hconfig]
    exact hssrc
  · rw [hconfig]
    rfl
  · rw [hconfig]
    rfl
  · rw [hconfig]
    rfl
  · intro hrtx
    rw [hconfig]
    simp only [createVideoSendStreamConfig, createVideoReceiveStreamConfig, hrtx, if_true]
    exact ⟨hrtxSsrc, List.mem_append_left _ (List.mem_singleton.mpr rfl)⟩
  · rw [hconfig]
    simp only [createVideoSendStreamConfig, createVideoReceiveStreamConfig]
    cases pair.config.useUlpfec with
    | true => exact ⟨rfl, rfl, fun _ => List.mem_append_right _ (List.mem_singleton.mpr rfl)⟩
    | false => exact ⟨rfl, rfl, fun h => by cases h⟩

/-- The SSRCs of the packets that are sent to a receive stream. -/
def streamSsrcs (config : VideoStreamConfig) (stream : ReceiveConfig) : List UInt32 :=
  [stream.remoteSsrc] ++ (if config.useRtx then [stream.rtxSsrc] else []) ++
    (if config.useFlexfec then [kFlexfecSendSsrc] else [])

theorem Knows.delivers {receiver : CallClient} {config : VideoStreamConfig} {stream : ReceiveConfig}
    (h : Knows receiver config stream) {ssrc : UInt32} (hssrc : ssrc ∈ streamSsrcs config stream) :
    receiver.onPacketReceived false (some ssrc) = some (.video, receiver) := by
  have hvideo : receiver.ssrcMediaTypes ssrc = some .video := by
    rcases List.mem_append.mp hssrc with hssrc | hssrc
    · rcases List.mem_append.mp hssrc with hssrc | hssrc
      · rw [List.mem_singleton.mp hssrc]
        exact h.media
      · split at hssrc
        · next hrtx =>
          rw [List.mem_singleton.mp hssrc]
          exact h.rtx hrtx
        · cases hssrc
    · split at hssrc
      · next hflexfec =>
        rw [List.mem_singleton.mp hssrc]
        exact h.flexfec hflexfec
      · cases hssrc
  simp [CallClient.onPacketReceived, hvideo]

namespace Scenario

variable {payloadString : VideoCodecType → String} {s s' : Scenario} {a : Act}

/-- A pair whose ends agree, as its receiver knows. -/
structure Linked (s : Scenario) (pair : VideoStreamPair2) : Prop where
  length : pair.receive.streams.length = pair.send.ssrcs.length
  agrees : ∀ (i : ℕ) stream, pair.receive.streams[i]? = some stream → Agrees pair i stream
  knows : ∀ stream ∈ pair.receive.streams, Knows (s.clients pair.receiver) pair.config stream
  flexfec : ∀ flexfec ∈ pair.receive.flexfec, flexfec.protectedMediaSsrcs = pair.send.rtxSsrcs
  protects : ∀ ssrc ∈ pair.send.config.flexfec.protectedMediaSsrcs, ssrc ∈ pair.send.ssrcs

theorem Linked.kept {pair : VideoStreamPair2} (h : Linked s pair)
    (hkept : ∀ client, KeepsVideo (s.clients client) (s'.clients client)) : Linked s' pair where
  length := h.length
  agrees := h.agrees
  knows stream hstream := (h.knows stream hstream).kept (hkept _)
  flexfec := h.flexfec
  protects := h.protects

theorem linked_step (hlinked : ∀ pair ∈ s.pairs, Linked s pair)
    (hs : step payloadString s a = some s') : ∀ pair ∈ s'.pairs, Linked s' pair := by
  rcases step_cases hs with ⟨pair, n, -, hmade⟩ | ⟨hpairs, hkept⟩
  · rw [hmade.pairs]
    intro pair' hpair'
    rcases List.mem_append.mp hpair' with hold | hnew
    · exact (hlinked pair' hold).kept hmade.kept
    · obtain rfl := List.mem_singleton.mp hnew
      constructor
      · rw [hmade.length, hmade.ssrcs, List.length_take, List.length_drop]
        show n = min n (6 - _)
        have hroom := hmade.sendRoom
        omega
      · intro i stream hstream
        obtain ⟨ssrc, rtxSsrc, localSsrc, hssrc, hrtxSsrc, rfl⟩ := hmade.stream i stream hstream
        exact agrees_of_created hmade.config hssrc hrtxSsrc
      · exact hmade.knows
      · exact hmade.flexfec
      · intro ssrc hssrc
        rw [hmade.config, createVideoSendStreamConfig] at hssrc
        dsimp only at hssrc
        split at hssrc
        · exact hssrc
        · cases hssrc
  · rw [hpairs]
    exact fun pair hpair => (hlinked pair hpair).kept fun client => (hkept client).1

/-- What a pair has is in what its clients have given. -/
theorem mem_gather {party : VideoStreamPair2 → ℕ} {ssrcs : VideoStreamPair2 → List UInt32}
    {pairs : List VideoStreamPair2} {pair : VideoStreamPair2} {ssrc : UInt32} (hpair : pair ∈ pairs)
    (hssrc : ssrc ∈ ssrcs pair) : ssrc ∈ gather party ssrcs pairs (party pair) :=
  List.mem_flatMap.mpr ⟨pair, List.mem_filter.mpr ⟨hpair, decide_eq_true rfl⟩, hssrc⟩

/-- In every run, for every pair: there is a receive stream for each send stream, with the same SSRCs,
payload types and extensions, and the receiver delivers all packets to it as video. But no SSRC that
the sender protects with FlexFEC is one that the receiver protects. -/
theorem receive_streams_agree (payloadString : VideoCodecType → String) (as : List Act) (s : Scenario)
    (hrun : Machine.run (step payloadString) initial as = some s) (pair : VideoStreamPair2)
    (hpair : pair ∈ s.pairs) :
    pair.receive.streams.length = pair.send.ssrcs.length ∧
      (∀ (i : ℕ) stream, pair.receive.streams[i]? = some stream → Agrees pair i stream ∧
        ∀ ssrc ∈ streamSsrcs pair.config stream,
          (s.clients pair.receiver).onPacketReceived false (some ssrc) =
            some (.video, s.clients pair.receiver)) ∧
      ∀ flexfec ∈ pair.receive.flexfec, ∀ ssrc ∈ flexfec.protectedMediaSsrcs,
        ssrc ∉ pair.send.config.flexfec.protectedMediaSsrcs := by
  have hallotted : Allotted s := allotted_of_run hrun
  have hlinked : ∀ pair ∈ s.pairs, Linked s pair := by
    refine Machine.invariant (I := fun s => ∀ pair ∈ s.pairs, Linked s pair)
      (fun _ _ _ h hs => linked_step h hs) ?_ hrun
    intro pair hpair
    cases hpair
  have hthis := hlinked pair hpair
  refine ⟨hthis.length, fun i stream hstream => ⟨hthis.agrees i stream hstream, fun ssrc hssrc => ?_⟩, ?_⟩
  · exact (hthis.knows stream (List.mem_of_getElem? hstream)).delivers hssrc
  · intro flexfec hflexfec ssrc hssrc hmedia
    rw [hthis.flexfec flexfec hflexfec] at hssrc
    have hrtx : ssrc ∈ sentRtxSsrcs s.pairs pair.sender := mem_gather hpair hssrc
    have hvideo : ssrc ∈ sentSsrcs s.pairs pair.sender := mem_gather hpair (hthis.protects ssrc hmedia)
    rw [hallotted.rtx] at hrtx
    rw [hallotted.video] at hvideo
    have htables : kVideoSendSsrcs.all (fun ssrc => !kSendRtxSsrcs.contains ssrc) = true := by decide
    have hother := List.all_eq_true.mp htables ssrc (List.mem_of_mem_take hvideo)
    rw [Bool.not_eq_true', List.contains_eq_mem, decide_eq_false_iff_not] at hother
    exact hother (List.mem_of_mem_take hrtx)

/-- A packet that comes before its stream, and one that comes after it, protected by FlexFEC. -/
theorem early_packet_is_video_later : ∃ s : Scenario, ∃ pair, pair ∈ s.pairs ∧
    pair.send.ssrcs = [0xC0FFED] ∧ pair.receive.flexfec.map (·.protectedMediaSsrcs) = [[0xBADCAFD]] ∧
      pair.receive.streams.length = pair.send.ssrcs.length := by
  let config : VideoStreamConfig := { useFlexfec := true }
  have hrun : ((Machine.run (step fun _ => "") initial
      [.packet 1 false (some 0xC0FFED), .createStreamPair 0 1 config]).bind fun s =>
        s.pairs.head?.map fun pair =>
          (pair.send.ssrcs, pair.receive.flexfec.map (·.protectedMediaSsrcs))) =
      some ([0xC0FFED], [[0xBADCAFD]]) := by decide
  obtain ⟨s, hs, hrun⟩ := Option.bind_eq_some_iff.mp hrun
  obtain ⟨pair, hpair, hfacts⟩ := Option.map_eq_some_iff.mp hrun
  obtain ⟨hssrcs, hflexfec⟩ := Prod.mk.inj hfacts
  have hmem := List.mem_of_head? hpair
  exact ⟨s, pair, hmem, hssrcs, hflexfec, (receive_streams_agree _ _ s hs pair hmem).1⟩

end Scenario

end WebrtcGccNs3.Call
