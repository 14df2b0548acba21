import Mathlib.Data.List.Nodup
import WebrtcGccNs3.Call.StreamPair

/-!
# The SSRCs of a scenario

Each client gives its SSRCs in the order of its tables, for as long as they last. So the
streams of one client have different SSRCs, but those of different clients have the same.
-/
namespace WebrtcGccNs3.Call

variable {payloadString : VideoCodecType → String}

/-- The `n` items of a table from an index on, if it has them. -/
theorem take_succ_of_getElem? {α : Type} {table : List α} {item : α} {index n : ℕ}
    (h : table[index]? = some item) :
    item :: (table.drop (index + 1)).take n = (table.drop index).take (n + 1) := by
  obtain ⟨hlt, rfl⟩ := List.getElem?_eq_some_iff.mp h
  rw [List.drop_eq_getElem_cons hlt, List.take_succ_cons]

/-- The SSRCs of a send stream are the next of its client. -/
theorem takeSsrcs_eq_some {n : ℕ} {sender sender' : CallClient} {taken : List UInt32 × List UInt32}
    (h : takeSsrcs n sender = some (taken, sender')) :
    taken.1 = (kVideoSendSsrcs.drop sender.nextVideoSsrcIndex).take n ∧
      taken.2 = (kSendRtxSsrcs.drop sender.nextRtxSsrcIndex).take n ∧
      (0 < n → sender.nextVideoSsrcIndex + n ≤ 6 ∧ sender.nextRtxSsrcIndex + n ≤ 6) ∧
      sender' = { sender with
        nextVideoSsrcIndex := sender.nextVideoSsrcIndex + n
        nextRtxSsrcIndex := sender.nextRtxSsrcIndex + n } := by
  induction n generalizing sender taken with
  | zero =>
    obtain ⟨rfl, rfl⟩ := Prod.mk.inj (Option.some.inj h)
    exact ⟨rfl, rfl, fun hn => absurd hn (Nat.lt_irrefl 0), rfl⟩
  | succ n ih =>
    obtain ⟨video, hvideo, h⟩ := Option.bind_eq_some_iff.mp h
    obtain ⟨rtx, hrtx, h⟩ := Option.bind_eq_some_iff.mp h
    obtain ⟨⟨rest, last⟩, hrest, h⟩ := Option.bind_eq_some_iff.mp h
    obtain ⟨rfl, rfl⟩ := Prod.mk.inj (Option.some.inj h)
    obtain ⟨ssrc, hssrc, rfl⟩ := Option.map_eq_some_iff.mp hvideo
    obtain ⟨rtxSsrc, hrtxSsrc, rfl⟩ := Option.map_eq_some_iff.mp hrtx
    obtain ⟨hfirst, hsecond, hroom, hlast⟩ := ih hrest
    have hlt : sender.nextVideoSsrcIndex < 6 := (List.getElem?_eq_some_iff.mp hssrc).1
    have hlt' : sender.nextRtxSsrcIndex < 6 := (List.getElem?_eq_some_iff.mp hrtxSsrc).1
    dsimp only at hfirst hsecond hroom hlast hrtxSsrc
    refine ⟨?_, ?_, fun _ => ?_, ?_⟩
    · rw [← take_succ_of_getElem? hssrc, ← hfirst]
    · rw [← take_succ_of_getElem? hrtxSsrc, ← hsecond]
    · omega
    · rw [hlast, Nat.add_assoc, Nat.add_assoc, Nat.add_comm 1]

/-- The checks that a send stream makes before it takes SSRCs. -/
structure Checked (config : VideoStreamConfig) : Prop where
  frameGenerator : createFrameGenerator config.source = some ()
  encoderFactory : createEncoderFactory config.implementation = some ()

instance (config : VideoStreamConfig) : Decidable (Checked config) :=
  decidable_of_iff (createFrameGenerator config.source = some () ∧
    createEncoderFactory config.implementation = some ()) ⟨fun h => ⟨h.1, h.2⟩, fun h => ⟨h.1, h.2⟩⟩

theorem sendVideoStream2_eq_some_iff {sender sender' : CallClient} {config : VideoStreamConfig}
    {send : SendVideoStream2} :
    sendVideoStream2 payloadString sender config = some (send, sender') ↔
      Checked config ∧ ∃ taken, takeSsrcs (numberOfStreams config) sender = some (taken, sender') ∧
        send = ⟨taken.1, taken.2,
          createVideoSendStreamConfig payloadString config taken.1 taken.2⟩ := by
  constructor
  · intro h
    obtain ⟨⟨⟩, hgenerator, h⟩ := Option.bind_eq_some_iff.mp h
    obtain ⟨⟨⟩, hfactory, h⟩ := Option.bind_eq_some_iff.mp h
    obtain ⟨⟨taken, sent⟩, htaken, h⟩ := Option.bind_eq_some_iff.mp h
    obtain ⟨rfl, rfl⟩ := Prod.mk.inj (Option.some.inj h)
    exact ⟨⟨hgenerator, hfactory⟩, taken, htaken, rfl⟩
  · rintro ⟨⟨hgenerator, hfactory⟩, taken, htaken, rfl⟩
    rw [sendVideoStream2, hgenerator, hfactory, htaken]
    rfl

/-! ## The receive streams -/

/-- What is video stays video. -/
def KeepsVideo (client client' : CallClient) : Prop :=
  ∀ ssrc, client.ssrcMediaTypes ssrc = some .video → client'.ssrcMediaTypes ssrc = some .video

theorem keepsVideo_setVideo (client : CallClient) (ssrc : UInt32) :
    KeepsVideo client (client.setVideo ssrc) := by
  intro ssrc' h
  show Function.update client.ssrcMediaTypes ssrc (some .video) ssrc' = _
  rw [Function.update_apply]
  split
  · rfl
  · exact h

theorem setVideo_same (client : CallClient) (ssrc : UInt32) :
    (client.setVideo ssrc).ssrcMediaTypes ssrc = some .video := Function.update_self ..

/-- A receiver knows the SSRCs of a receive stream. -/
structure Knows (receiver : CallClient) (config : VideoStreamConfig) (receive : ReceiveConfig) : Prop where
  media : receiver.ssrcMediaTypes receive.remoteSsrc = some .video
  rtx : config.useRtx = true → receiver.ssrcMediaTypes receive.rtxSsrc = some .video
  flexfec : config.useFlexfec = true → receiver.ssrcMediaTypes kFlexfecSendSsrc = some .video

theorem Knows.kept {receiver receiver' : CallClient} {config : VideoStreamConfig} {receive : ReceiveConfig}
    (h : Knows receiver config receive) (hkept : KeepsVideo receiver receiver') :
    Knows receiver' config receive where
  media := hkept _ h.media
  rtx hrtx := hkept _ (h.rtx hrtx)
  flexfec hflexfec := hkept _ (h.flexfec hflexfec)

theorem setMediaTypes_spec (config : VideoStreamConfig) (receive : ReceiveConfig) (receiver : CallClient) :
    KeepsVideo receiver (setMediaTypes config receive receiver) ∧
      Knows (setMediaTypes config receive receiver) config receive ∧
      setMediaTypes config receive receiver = { receiver with
        ssrcMediaTypes := (setMediaTypes config receive receiver).ssrcMediaTypes } := by
  let first := if config.useFlexfec then receiver.setVideo kFlexfecSendSsrc else receiver
  let second := first.setVideo receive.remoteSsrc
  let third := if config.useRtx then second.setVideo receive.rtxSsrc else second
  have hfirst : KeepsVideo receiver first := by
    show KeepsVideo receiver (if config.useFlexfec then _ else _)
    split
    · exact keepsVideo_setVideo _ _
    · exact fun _ h => h
  have hsecond : KeepsVideo first second := keepsVideo_setVideo _ _
  have hthird : KeepsVideo second third := by
    show KeepsVideo second (if config.useRtx then _ else _)
    split
    · exact keepsVideo_setVideo _ _
    · exact fun _ h => h
  refine ⟨fun ssrc h => hthird _ (hsecond _ (hfirst _ h)), ⟨?_, ?_, ?_⟩, ?_⟩
  · exact hthird _ (setVideo_same _ _)
  · intro hrtx
    show (if config.useRtx then second.setVideo receive.rtxSsrc else second).ssrcMediaTypes _ = _
    rw [if_pos hrtx]
    exact setVideo_same _ _
  · intro hflexfec
    apply hthird
    apply hsecond
    show (if config.useFlexfec then receiver.setVideo kFlexfecSendSsrc else receiver).ssrcMediaTypes _ = _
    rw [if_pos hflexfec]
    exact setVideo_same _ _
  · unfold setMediaTypes CallClient.setVideo
    cases config.useFlexfec <;> cases config.useRtx <;> rfl

/-- What the loop over the receive streams does. -/
structure Received (payloadString : VideoCodecType → String) (config : VideoStreamConfig)
    (send : SendVideoStream2) (n i : ℕ) (receiver : CallClient) (receive : ReceiveVideoStream2)
    (receiver' : CallClient) : Prop where
  length : receive.streams.length = n
  stream : ∀ (j : ℕ) stream, receive.streams[j]? = some stream → ∃ ssrc rtxSsrc localSsrc,
    send.ssrcs[i + j]? = some ssrc ∧ send.rtxSsrcs[i + j]? = some rtxSsrc ∧
      stream = createVideoReceiveStreamConfig config
        (codecTypeToPayloadType config.codec, payloadString config.codec) localSsrc ssrc rtxSsrc
  locals : receive.streams.map (·.localSsrc) =
    (kVideoRecvLocalSsrcs.drop receiver.nextVideoLocalSsrcIndex).take n
  room : 0 < n → receiver.nextVideoLocalSsrcIndex + n ≤ 6
  flexfec : ∀ flexfec ∈ receive.flexfec, flexfec.protectedMediaSsrcs = send.rtxSsrcs
  knows : ∀ stream ∈ receive.streams, Knows receiver' config stream
  kept : KeepsVideo receiver receiver'
  rest : receiver' = { receiver with
    nextVideoLocalSsrcIndex := receiver.nextVideoLocalSsrcIndex + n
    ssrcMediaTypes := receiver'.ssrcMediaTypes }

theorem received_of_eq_some {config : VideoStreamConfig} {send : SendVideoStream2} {n i : ℕ}
    {receiver receiver' : CallClient} {receive : ReceiveVideoStream2}
    (h : receiveStreams payloadString config send n i receiver = some (receive, receiver')) :
    Received payloadString config send n i receiver receive receiver' := by
  induction n generalizing i receiver receive with
  | zero =>
    obtain ⟨rfl, rfl⟩ := Prod.mk.inj (Option.some.inj h)
    constructor
    · rfl
    · intro j stream hstream
      cases hstream
    · rfl
    · exact fun hn => absurd hn (Nat.lt_irrefl 0)
    · intro flexfec hflexfec
      cases hflexfec
    · intro stream hstream
      cases hstream
    · exact fun ssrc hssrc => hssrc
    · rfl
  | succ n ih =>
    obtain ⟨ssrc, hssrc, h⟩ := Option.bind_eq_some_iff.mp h
    obtain ⟨rtxSsrc, hrtxSsrc, h⟩ := Option.bind_eq_some_iff.mp h
    obtain ⟨given, hlocal, h⟩ := Option.bind_eq_some_iff.mp h
    obtain ⟨⟨rest, last⟩, hrest, h⟩ := Option.bind_eq_some_iff.mp h
    obtain ⟨rfl, rfl⟩ := Prod.mk.inj (Option.some.inj h)
    obtain ⟨localSsrc, hlocalSsrc, rfl⟩ := Option.map_eq_some_iff.mp hlocal
    have hlt : receiver.nextVideoLocalSsrcIndex < 6 := (List.getElem?_eq_some_iff.mp hlocalSsrc).1
    let first := createVideoReceiveStreamConfig config
      (codecTypeToPayloadType config.codec, payloadString config.codec) localSsrc ssrc rtxSsrc
    let given : CallClient :=
      { receiver with nextVideoLocalSsrcIndex := receiver.nextVideoLocalSsrcIndex + 1 }
    obtain ⟨hkept, hknows, hset⟩ := setMediaTypes_spec config first given
    have hindex : (setMediaTypes config first given).nextVideoLocalSsrcIndex =
        receiver.nextVideoLocalSsrcIndex + 1 := by rw [hset]
    have hreceived := ih hrest
    constructor
    · exact congrArg (· + 1) hreceived.length
    · intro j stream hstream
      cases j with
      | zero =>
        cases hstream
        exact ⟨ssrc, rtxSsrc, localSsrc, hssrc, hrtxSsrc, rfl⟩
      | succ j =>
        obtain ⟨ssrc', rtxSsrc', localSsrc', hthere, hthere', hstream'⟩ := hreceived.stream j stream hstream
        rw [Nat.add_right_comm, Nat.add_assoc] at hthere hthere'
        exact ⟨ssrc', rtxSsrc', localSsrc', hthere, hthere', hstream'⟩
    · rw [← take_succ_of_getElem? hlocalSsrc, List.map_cons, hreceived.locals]
      dsimp only
      rw [hindex]
      rfl
    · intro _
      have hroom := hreceived.room
      dsimp only at hroom
      rw [hindex] at hroom
      omega
    · intro flexfec hflexfec
      dsimp only at hflexfec
      split at hflexfec
      · rcases List.mem_cons.mp hflexfec with rfl | hflexfec
        · rfl
        · exact hreceived.flexfec flexfec hflexfec
      · exact hreceived.flexfec flexfec hflexfec
    · intro stream hstream
      rcases List.mem_cons.mp hstream with rfl | hstream
      · exact hknows.kept hreceived.kept
      · exact hreceived.knows stream hstream
    · exact fun ssrc hvideo => hreceived.kept ssrc (hkept ssrc hvideo)
    · rw [hreceived.rest, hset]
      dsimp only
      rw [Nat.add_assoc, Nat.add_comm 1]

namespace Scenario

variable {s s' : Scenario} {a : Act}

/-- The indices of a client that made a stream pair. -/
def indices (client : CallClient) : ℕ × ℕ × ℕ :=
  (client.nextVideoSsrcIndex, client.nextRtxSsrcIndex, client.nextVideoLocalSsrcIndex)

/-- What a new stream pair does, of `n` streams. -/
structure Made (payloadString : VideoCodecType → String) (s s' : Scenario) (pair : VideoStreamPair2)
    (n : ℕ) : Prop where
  number : n = numberOfStreams pair.config
  checked : Checked pair.config
  pairs : s'.pairs = s.pairs ++ [pair]
  ssrcs : pair.send.ssrcs = (kVideoSendSsrcs.drop (s.clients pair.sender).nextVideoSsrcIndex).take n
  rtxSsrcs : pair.send.rtxSsrcs = (kSendRtxSsrcs.drop (s.clients pair.sender).nextRtxSsrcIndex).take n
  config : pair.send.config =
    createVideoSendStreamConfig payloadString pair.config pair.send.ssrcs pair.send.rtxSsrcs
  sendRoom : 0 < n → (s.clients pair.sender).nextVideoSsrcIndex + n ≤ 6 ∧
    (s.clients pair.sender).nextRtxSsrcIndex + n ≤ 6
  length : pair.receive.streams.length = n
  stream : ∀ (i : ℕ) stream, pair.receive.streams[i]? = some stream → ∃ ssrc rtxSsrc localSsrc,
    pair.send.ssrcs[i]? = some ssrc ∧ pair.send.rtxSsrcs[i]? = some rtxSsrc ∧
      stream = createVideoReceiveStreamConfig pair.config
        (codecTypeToPayloadType pair.config.codec, payloadString pair.config.codec) localSsrc ssrc rtxSsrc
  locals : pair.receive.streams.map (·.localSsrc) =
    (kVideoRecvLocalSsrcs.drop (s.clients pair.receiver).nextVideoLocalSsrcIndex).take n
  receiveRoom : 0 < n → (s.clients pair.receiver).nextVideoLocalSsrcIndex + n ≤ 6
  flexfec : ∀ flexfec ∈ pair.receive.flexfec, flexfec.protectedMediaSsrcs = pair.send.rtxSsrcs
  knows : ∀ stream ∈ pair.receive.streams, Knows (s'.clients pair.receiver) pair.config stream
  kept : ∀ client, KeepsVideo (s.clients client) (s'.clients client)
  indices : ∀ client, indices (s'.clients client) =
    ((s.clients client).nextVideoSsrcIndex + (if client = pair.sender then n else 0),
      (s.clients client).nextRtxSsrcIndex + (if client = pair.sender then n else 0),
      (s.clients client).nextVideoLocalSsrcIndex + (if client = pair.receiver then n else 0))

/-- A step that makes a stream pair. -/
theorem made_of_createStreamPair {sender receiver : ℕ} {config : VideoStreamConfig}
    (hs : step payloadString s (.createStreamPair sender receiver config) = some s') :
    ∃ pair, pair.sender = sender ∧ pair.receiver = receiver ∧ pair.config = config ∧
      Made payloadString s s' pair (numberOfStreams config) := by
  obtain ⟨⟨send, sent'⟩, hsend, hs⟩ := Option.bind_eq_some_iff.mp hs
  obtain ⟨⟨receive, got⟩, hreceive, hs⟩ := Option.bind_eq_some_iff.mp hs
  cases hs
  obtain ⟨hchecked, taken, htaken, rfl⟩ := sendVideoStream2_eq_some_iff.mp hsend
  obtain ⟨hssrcs, hrtxSsrcs, hroom, hsent⟩ := takeSsrcs_eq_some htaken
  have hreceived := received_of_eq_some hreceive
  let clients := Function.update s.clients sender sent'
  have hclient : ∀ client, (clients client).ssrcMediaTypes = (s.clients client).ssrcMediaTypes ∧
      indices (clients client) =
        ((s.clients client).nextVideoSsrcIndex + (if client = sender then numberOfStreams config else 0),
          (s.clients client).nextRtxSsrcIndex + (if client = sender then numberOfStreams config else 0),
          (s.clients client).nextVideoLocalSsrcIndex) := by
    intro client
    show (Function.update s.clients sender sent' client).ssrcMediaTypes = _ ∧
      indices (Function.update s.clients sender sent' client) = _
    by_cases hsame : client = sender
    · rw [hsame, Function.update_self, hsent]
      simp [indices]
    · rw [Function.update_of_ne hsame, if_neg hsame]
      exact ⟨rfl, rfl⟩
  let send : SendVideoStream2 :=
    ⟨taken.1, taken.2, createVideoSendStreamConfig payloadString config taken.1 taken.2⟩
  refine ⟨⟨sender, receiver, config, send, receive⟩, rfl, rfl, rfl, ?_⟩
  have hlocal : (clients receiver).nextVideoLocalSsrcIndex = (s.clients receiver).nextVideoLocalSsrcIndex :=
    (Prod.mk.inj (Prod.mk.inj (hclient receiver).2).2).2
  constructor
  · rfl
  · exact hchecked
  · rfl
  · exact hssrcs
  · exact hrtxSsrcs
  · rfl
  · exact hroom
  · exact hreceived.length
  · intro i stream hstream
    have hthere := hreceived.stream i stream hstream
    rwa [Nat.zero_add] at hthere
  · rw [← hlocal]
    exact hreceived.locals
  · rw [← hlocal]
    exact hreceived.room
  · exact hreceived.flexfec
  · intro stream hstream
    show Knows (Function.update clients receiver got receiver) _ _
    rw [Function.update_self]
    exact hreceived.knows stream hstream
  · intro client ssrc hvideo
    rw [← (hclient client).1] at hvideo
    show (Function.update clients receiver got client).ssrcMediaTypes ssrc = _
    by_cases hsame : client = receiver
    · rw [hsame, Function.update_self]
      rw [hsame] at hvideo
      exact hreceived.kept ssrc hvideo
    · rw [Function.update_of_ne hsame]
      exact hvideo
  · intro client
    have hindices := (hclient client).2
    show indices (Function.update clients receiver got client) = _
    by_cases hsame : client = receiver
    · rw [hsame, Function.update_self, hreceived.rest]
      rw [hsame] at hindices
      simp only [indices, Prod.mk.injEq] at hindices ⊢
      show (clients receiver).nextVideoSsrcIndex = _ ∧ (clients receiver).nextRtxSsrcIndex = _ ∧
        (clients receiver).nextVideoLocalSsrcIndex + numberOfStreams config = _
      rw [if_true, hindices.2.2]
      exact ⟨hindices.1, hindices.2.1, rfl⟩
    · rw [Function.update_of_ne hsame, hindices, if_neg hsame]
      rfl

/-- A step makes a stream pair, or delivers a packet. -/
theorem step_cases (hs : step payloadString s a = some s') :
    (∃ pair n, a = .createStreamPair pair.sender pair.receiver pair.config ∧
      Made payloadString s s' pair n) ∨
    (s'.pairs = s.pairs ∧ ∀ client, KeepsVideo (s.clients client) (s'.clients client) ∧
      indices (s'.clients client) = indices (s.clients client)) := by
  cases a with
  | createStreamPair sender receiver config =>
    obtain ⟨pair, rfl, rfl, rfl, hmade⟩ := made_of_createStreamPair hs
    exact Or.inl ⟨pair, _, rfl, hmade⟩
  | packet receiver isRtcp ssrc =>
    obtain ⟨⟨mediaType, got⟩, hgot, hs⟩ := Option.bind_eq_some_iff.mp hs
    cases hs
    refine Or.inr ⟨rfl, ?_⟩
    have hreceiver : KeepsVideo (s.clients receiver) got ∧
        indices got = indices (s.clients receiver) := by
      unfold CallClient.onPacketReceived at hgot
      split at hgot
      · cases hgot
        exact ⟨fun _ h => h, rfl⟩
      · obtain ⟨ssrc, -, hgot⟩ := Option.map_eq_some_iff.mp hgot
        split at hgot
        · cases hgot
          exact ⟨fun _ h => h, rfl⟩
        · next hnew =>
          cases hgot
          refine ⟨fun ssrc' hvideo => ?_, rfl⟩
          have hother : ssrc' ≠ ssrc := by
            rintro rfl
            rw [hnew] at hvideo
            cases hvideo
          exact (Function.update_of_ne hother ..).trans hvideo
    intro client
    by_cases hsame : client = receiver
    · rw [hsame]
      show KeepsVideo _ (Function.update s.clients receiver got receiver) ∧
        indices (Function.update s.clients receiver got receiver) = _
      rw [Function.update_self]
      exact hreceiver
    · show KeepsVideo _ (Function.update s.clients receiver got client) ∧
        indices (Function.update s.clients receiver got client) = _
      rw [Function.update_of_ne hsame]
      exact ⟨fun _ h => h, rfl⟩

/-! ## A run -/

/-- What some of the pairs have, one pair after the other. -/
def gather (party : VideoStreamPair2 → ℕ) (ssrcs : VideoStreamPair2 → List UInt32)
    (pairs : List VideoStreamPair2) (client : ℕ) : List UInt32 :=
  (pairs.filter fun pair => party pair = client).flatMap ssrcs

/-- The SSRCs of the streams that a client sends, and those for RTX. -/
def sentSsrcs : List VideoStreamPair2 → ℕ → List UInt32 := gather (·.sender) (·.send.ssrcs)

def sentRtxSsrcs : List VideoStreamPair2 → ℕ → List UInt32 := gather (·.sender) (·.send.rtxSsrcs)

/-- The SSRCs with which a client answers. -/
def localSsrcs : List VideoStreamPair2 → ℕ → List UInt32 :=
  gather (·.receiver) fun pair => pair.receive.streams.map (·.localSsrc)

theorem gather_append {party : VideoStreamPair2 → ℕ} {ssrcs : VideoStreamPair2 → List UInt32}
    {pairs pairs' : List VideoStreamPair2} {client : ℕ} : gather party ssrcs (pairs ++ pairs') client =
      gather party ssrcs pairs client ++ gather party ssrcs pairs' client := by
  rw [gather, List.filter_append, List.flatMap_append, gather, gather]

/-- What a table has given still is its beginning. -/
theorem gather_concat {party : VideoStreamPair2 → ℕ} {ssrcs : VideoStreamPair2 → List UInt32}
    {pairs : List VideoStreamPair2} {pair : VideoStreamPair2} {client n index : ℕ} {table : List UInt32}
    (h : gather party ssrcs pairs client = table.take index)
    (hpair : client = party pair → ssrcs pair = (table.drop index).take n) :
    gather party ssrcs (pairs ++ [pair]) client =
      table.take (index + if client = party pair then n else 0) := by
  rw [gather_append, h, gather]
  split
  · next hsame =>
    rw [List.filter_singleton, List.take_add, ← hpair hsame]
    simp [hsame]
  · next hother =>
    rw [List.filter_singleton]
    simp [Ne.symm hother]

/-- Each client has given the beginning of its tables. -/
structure Allotted (s : Scenario) : Prop where
  video : ∀ client, sentSsrcs s.pairs client = kVideoSendSsrcs.take (s.clients client).nextVideoSsrcIndex
  rtx : ∀ client, sentRtxSsrcs s.pairs client = kSendRtxSsrcs.take (s.clients client).nextRtxSsrcIndex
  locals : ∀ client,
    localSsrcs s.pairs client = kVideoRecvLocalSsrcs.take (s.clients client).nextVideoLocalSsrcIndex
  same : ∀ client, (s.clients client).nextRtxSsrcIndex = (s.clients client).nextVideoSsrcIndex
  few : ∀ client, (s.clients client).nextVideoSsrcIndex ≤ 6 ∧
    (s.clients client).nextVideoLocalSsrcIndex ≤ 6

theorem allotted_step (h : Allotted s) (hs : step payloadString s a = some s') : Allotted s' := by
  rcases step_cases hs with ⟨pair, n, -, hmade⟩ | ⟨hpairs, hkept⟩
  · have hindices : ∀ client, _ ∧ _ ∧ _ := fun client => by
      simpa only [indices, Prod.mk.injEq] using hmade.indices client
    constructor
    · intro client
      rw [hmade.pairs, (hindices client).1]
      apply gather_concat (h.video client)
      rintro rfl
      exact hmade.ssrcs
    · intro client
      rw [hmade.pairs, (hindices client).2.1]
      apply gather_concat (h.rtx client)
      rintro rfl
      exact hmade.rtxSsrcs
    · intro client
      rw [hmade.pairs, (hindices client).2.2]
      apply gather_concat (h.locals client)
      rintro rfl
      exact hmade.locals
    · intro client
      rw [(hindices client).1, (hindices client).2.1, h.same]
    · intro client
      obtain ⟨hfew, hfewLocal⟩ := h.few client
      rw [(hindices client).1, (hindices client).2.2]
      have hsend := hmade.sendRoom
      have hreceive := hmade.receiveRoom
      constructor
      · split
        · next hsame =>
          subst hsame
          omega
        · omega
      · split
        · next hsame =>
          subst hsame
          omega
        · omega
  · have hindices : ∀ client, _ ∧ _ ∧ _ := fun client => by
      simpa only [indices, Prod.mk.injEq] using (hkept client).2
    constructor
    · intro client
      rw [hpairs, (hindices client).1]
      exact h.video client
    · intro client
      rw [hpairs, (hindices client).2.1]
      exact h.rtx client
    · intro client
      rw [hpairs, (hindices client).2.2]
      exact h.locals client
    · intro client
      rw [(hindices client).1, (hindices client).2.1]
      exact h.same client
    · intro client
      rw [(hindices client).1, (hindices client).2.2]
      exact h.few client

theorem allotted_initial : Allotted initial := by
  constructor
  · exact fun _ => rfl
  · exact fun _ => rfl
  · exact fun _ => rfl
  · exact fun _ => rfl
  · exact fun _ => ⟨Nat.zero_le _, Nat.zero_le _⟩

theorem allotted_of_run {as : List Act} (hrun : Machine.run (step payloadString) initial as = some s) :
    Allotted s :=
  Machine.invariant (fun _ _ _ h hs => allotted_step h hs) allotted_initial hrun

/-- How many streams the sender of a pair had before it. -/
def place (pairs : List VideoStreamPair2) (k sender : ℕ) : ℕ := (sentSsrcs (pairs.take k) sender).length

/-- A pair of a sender, and those before and behind it. -/
theorem sentSsrcs_split {before behind : List VideoStreamPair2} {pair : VideoStreamPair2} :
    sentSsrcs (before ++ pair :: behind) pair.sender =
      sentSsrcs before pair.sender ++ (pair.send.ssrcs ++ sentSsrcs behind pair.sender) := by
  have hcons : gather (·.sender) (·.send.ssrcs) (pair :: behind) pair.sender =
      pair.send.ssrcs ++ gather (·.sender) (·.send.ssrcs) behind pair.sender := by
    rw [gather, List.filter_cons_of_pos (by simp), List.flatMap_cons, gather]
  rw [sentSsrcs, gather_append, hcons]

/-- The SSRCs of a pair stand in the table from its place on. -/
theorem ssrc_at_place (h : Allotted s) {k i : ℕ} {pair : VideoStreamPair2} {ssrc : UInt32}
    (hpair : s.pairs[k]? = some pair) (hssrc : pair.send.ssrcs[i]? = some ssrc) :
    kVideoSendSsrcs[place s.pairs k pair.sender + i]? = some ssrc := by
  obtain ⟨hlt, hget⟩ := List.getElem?_eq_some_iff.mp hpair
  have hlist : s.pairs = s.pairs.take k ++ pair :: s.pairs.drop (k + 1) := by
    rw [← hget, ← List.drop_eq_getElem_cons hlt, List.take_append_drop]
  have hsent : sentSsrcs s.pairs pair.sender = sentSsrcs (s.pairs.take k) pair.sender ++
      (pair.send.ssrcs ++ sentSsrcs (s.pairs.drop (k + 1)) pair.sender) :=
    (congrArg (sentSsrcs · pair.sender) hlist).trans sentSsrcs_split
  obtain ⟨hi, -⟩ := List.getElem?_eq_some_iff.mp hssrc
  have hthere : (sentSsrcs s.pairs pair.sender)[place s.pairs k pair.sender + i]? = some ssrc := by
    rw [hsent, place, List.getElem?_append_right (Nat.le_add_right _ _), Nat.add_sub_cancel_left,
      List.getElem?_append_left hi]
    exact hssrc
  rw [h.video] at hthere
  obtain ⟨hin, hget⟩ := List.getElem?_eq_some_iff.mp hthere
  rw [List.getElem_take] at hget
  rw [List.length_take] at hin
  exact List.getElem?_eq_some_iff.mpr ⟨by omega, hget⟩

/-- The places of a sender's pairs are behind each other. -/
theorem place_lt {pairs : List VideoStreamPair2} {k l i : ℕ} {pair : VideoStreamPair2}
    (hpair : pairs[k]? = some pair) (hi : i < pair.send.ssrcs.length) (hlt : k < l) :
    place pairs k pair.sender + i < place pairs l pair.sender := by
  obtain ⟨hk, hget⟩ := List.getElem?_eq_some_iff.mp hpair
  obtain ⟨n, rfl⟩ := Nat.exists_eq_add_of_lt hlt
  have hlist : pairs.take (k + n + 1) = pairs.take k ++ pair :: (pairs.drop (k + 1)).take n := by
    rw [Nat.add_assoc, List.take_add, List.drop_eq_getElem_cons hk, hget, List.take_succ_cons]
  rw [place, place, hlist, sentSsrcs_split, List.length_append, List.length_append]
  omega

/-- In every run: two streams have one SSRC just if their senders had as many streams before. So
streams of one client never do, but the first streams of any two clients do, also where they meet at
one receiver. -/
theorem same_ssrc_iff_same_place (payloadString : VideoCodecType → String) (as : List Act) (s : Scenario)
    (hrun : Machine.run (step payloadString) initial as = some s) (k l i j : ℕ)
    (pair pair' : VideoStreamPair2) (ssrc ssrc' : UInt32) (hk : s.pairs[k]? = some pair)
    (hl : s.pairs[l]? = some pair') (hi : pair.send.ssrcs[i]? = some ssrc)
    (hj : pair'.send.ssrcs[j]? = some ssrc') :
    (ssrc = ssrc' ↔ place s.pairs k pair.sender + i = place s.pairs l pair'.sender + j) ∧
      (pair.sender = pair'.sender → ssrc = ssrc' → k = l ∧ i = j) := by
  have hallotted : Allotted s := allotted_of_run hrun
  have hplace := ssrc_at_place hallotted hk hi
  have hplace' := ssrc_at_place hallotted hl hj
  have hiff : ssrc = ssrc' ↔ place s.pairs k pair.sender + i = place s.pairs l pair'.sender + j := by
    constructor
    · rintro rfl
      have hnodup : kVideoSendSsrcs.Nodup := by decide
      obtain ⟨hlt, hget⟩ := List.getElem?_eq_some_iff.mp hplace
      obtain ⟨hlt', hget'⟩ := List.getElem?_eq_some_iff.mp hplace'
      exact (hnodup.getElem_inj_iff ..).mp (hget.trans hget'.symm)
    · intro hsame
      rw [hsame, hplace'] at hplace
      exact (Option.some.inj hplace).symm
  refine ⟨hiff, fun hsender hssrc => ?_⟩
  have hsame := hiff.mp hssrc
  obtain ⟨hilt, -⟩ := List.getElem?_eq_some_iff.mp hi
  obtain ⟨hjlt, -⟩ := List.getElem?_eq_some_iff.mp hj
  rw [hsender] at hsame
  rcases Nat.lt_trichotomy k l with hlt | rfl | hlt
  · have hbefore := place_lt hk hilt hlt
    rw [hsender] at hbefore
    omega
  · exact ⟨rfl, by omega⟩
  · have hbefore := place_lt hl hjlt hlt
    omega

/-- Two clients send their first stream to a third. -/
theorem two_senders_share_ssrc : ∃ s : Scenario, ∃ pair pair', s.pairs[0]? = some pair ∧
    s.pairs[1]? = some pair' ∧ pair.receiver = pair'.receiver ∧ pair.send.ssrcs = [0xC0FFED] ∧
    pair'.send.ssrcs = [0xC0FFED] ∧ place s.pairs 0 pair.sender + 0 = place s.pairs 1 pair'.sender + 0 := by
  let config : VideoStreamConfig := {}
  have hrun : ((Machine.run (step fun _ => "") initial
      [.createStreamPair 0 2 config, .createStreamPair 1 2 config]).bind fun s =>
        s.pairs[0]?.bind fun pair => s.pairs[1]?.map fun pair' =>
          (pair.receiver, pair'.receiver, pair.send.ssrcs, pair'.send.ssrcs)) =
      some (2, 2, [0xC0FFED], [0xC0FFED]) := by decide
  obtain ⟨s, hs, hrun⟩ := Option.bind_eq_some_iff.mp hrun
  obtain ⟨pair, hpair, hrun⟩ := Option.bind_eq_some_iff.mp hrun
  obtain ⟨pair', hpair', hfacts⟩ := Option.map_eq_some_iff.mp hrun
  simp only [Prod.mk.injEq] at hfacts
  obtain ⟨hreceiver, hreceiver', hssrcs, hssrcs'⟩ := hfacts
  refine ⟨s, pair, pair', hpair, hpair', hreceiver.trans hreceiver'.symm, hssrcs, hssrcs', ?_⟩
  exact (same_ssrc_iff_same_place _ _ s hs 0 1 0 0 pair pair' 0xC0FFED 0xC0FFED hpair hpair'
    (by rw [hssrcs]; rfl) (by rw [hssrcs']; rfl)).1.mp rfl

end Scenario

end WebrtcGccNs3.Call
