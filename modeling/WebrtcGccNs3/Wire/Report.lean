import Mathlib.Data.List.Forall2
import WebrtcGccNs3.Wire.OneWayDelay
import WebrtcGccNs3.Wire.Session

/-!
# What the receiver reports of the media

In a run from the sender to the receiver, each datagram that arrives is reported to the
trace callback, in the order of the arrivals, with the number of its place on the network
and with its delay, both modulo `2 ^ 32`. It is passed on if the receiver was running and
its header can be used.
-/
namespace WebrtcGccNs3.Wire

namespace LinkRun

variable {parser : RtpHeaderParser} {sender : InetSocketAddress} {a : Act}
variable {s s' : LinkRun WebrtcSender WebrtcTag WebrtcReceiver}

/-! ## The sender's stamps -/

theorem now_of_sender {σ δ : Type} {T : Endpoint σ δ} {out out' : EndpointRun σ δ}
    {b : EndpointRun.Act} (hb : OfSender b) (hs : out.step T b = some out') : out'.now = out.now := by
  cases b with
  | tick now => exact hb.elim
  | sendRtcp packet | startApplication | stopApplication =>
    cases hs
    rfl
  | sendRtp packet | traceRtp call | testRunning call | schedule call | deliveryPacket | drainRtp
  | drainRtcp | sendToNetwork | deliveryReturns =>
    simp only [EndpointRun.step] at hs
    split at hs <;> cases hs <;> rfl

/-- The packets are numbered, and stamped with their times of sending, which are after time 0. -/
structure Stamped (s : LinkRun WebrtcSender WebrtcTag WebrtcReceiver) : Prop where
  clock : s.out.now = s.into.now.getMilliSeconds
  started : 1 ≤ s.out.now
  times : ∀ d ∈ s.out.network, 1 ≤ d.sentAt ∧ d.sentAt ≤ s.out.now
  tags : ∀ d ∈ s.out.network, d.tag.time = UInt64.ofInt d.sentAt
  numbered : WebrtcSender.Numbered s.out

theorem now_of_arrival {t t' : ReceptionRun WebrtcReceiver} {p : Received}
    (ht : t.step (WebrtcReceiver.recvPacket parser) (.arrival p) = some t') : t'.now = t.now := by
  simp only [ReceptionRun.step, WebrtcReceiver.recvPacket] at ht
  split at ht
  · cases ht
  · obtain ⟨tag, -, ht⟩ := Option.bind_eq_some_iff.mp ht
    split at ht
    · cases ht
      rfl
    · simp only [ReceptionRun.pass] at ht
      split at ht
      · split at ht <;> cases ht <;> rfl
      · cases ht

theorem stamped_step (h : Stamped s) (hs : step (media parser sender) s a = some s') : Stamped s' := by
  have hnumbered : WebrtcSender.Numbered s'.out := by
    obtain ⟨bs, hbs⟩ := out_step hs
    exact Machine.invariant (fun _ _ _ h hs => WebrtcSender.numbered_step h hs) h.numbered hbs
  rcases step_cases hs with ⟨b, hb, hout, hinto, -⟩ | ⟨place, d, p, -, -, -, -, hinto, hout, -⟩ |
    ⟨milliseconds, now, running, hle, -, hclock, hout, hinto, -⟩
  · have hsame : s'.out.now = s.out.now := now_of_sender hb hout
    have hclock : s'.out.now = s'.into.now.getMilliSeconds := by
      rw [hsame, hinto]
      exact h.clock
    have hstarted : 1 ≤ s'.out.now := by
      rw [hsame]
      exact h.started
    rcases EndpointRun.step_network hout with ⟨hnet, -⟩ | ⟨d, hnet, hown, hsent⟩
    · refine ⟨hclock, hstarted, ?_, ?_, hnumbered⟩
      · rw [hnet, hsame]
        exact h.times
      · rw [hnet]
        exact h.tags
    · have htag : d.tag.time = UInt64.ofInt d.sentAt := by
        rw [hsent]
        exact congrArg (fun x => x.2.time) hown
      have htime : 1 ≤ d.sentAt ∧ d.sentAt ≤ s'.out.now := by
        rw [hsent, hsame]
        exact ⟨h.started, le_refl _⟩
      refine ⟨hclock, hstarted, ?_, ?_, hnumbered⟩
      · rw [hnet, List.forall_mem_append, List.forall_mem_singleton, hsame]
        exact ⟨h.times, hsame ▸ htime⟩
      · rw [hnet, List.forall_mem_append, List.forall_mem_singleton]
        exact ⟨h.tags, htag⟩
  · refine ⟨?_, ?_, ?_, ?_, hnumbered⟩
    · rw [hout, now_of_arrival hinto]
      exact h.clock
    · rw [hout]
      exact h.started
    · rw [hout]
      exact h.times
    · rw [hout]
      exact h.tags
  · refine ⟨?_, ?_, ?_, ?_, hnumbered⟩
    · rw [hout, hinto]
      exact hclock h.clock
    · rw [hout]
      exact h.started.trans hle
    · rw [hout]
      exact fun d hd => ⟨(h.times d hd).1, (h.times d hd).2.trans hle⟩
    · rw [hout]
      exact h.tags

/-! ## Arrivals -/

/-- The callback of an arrival at the receiver that finds the FIFO empty. -/
structure Arrives (parser : RtpHeaderParser) (d : Datagram WebrtcTag)
    (t t' : ReceptionRun WebrtcReceiver) : Prop where
  now : t'.now = t.now
  packetOverhead : t'.packetOverhead = t.packetOverhead
  fifo : t'.fifo = []
  trace : t'.own.traceReceiptPkt = t.own.traceReceiptPkt
  reported : t'.own.reported =
    t.own.reported ++ [WebrtcReceiver.receiptPktInfo t.now.getMilliSeconds d.tag]
  client : t'.client = t.client ++
    if t.running ∧ (parser.isRtcp d.packet ∨ (parser.getSsrc d.packet).isSome) then [t.emulate d.packet]
    else []

theorem arrives_of_step {t t' : ReceptionRun WebrtcReceiver} {d : Datagram WebrtcTag} {p : Received}
    (hempty : t.fifo = []) (htrace : t.own.traceReceiptPkt = true) (hp : p.packet = d.packet)
    (hread : WebrtcReceiver.removePacketTag p = some d.tag)
    (ht : t.step (WebrtcReceiver.recvPacket parser) (.arrival p) = some t') : Arrives parser d t t' := by
  have hmeet : ∀ (receiver : WebrtcReceiver) (info : ReceiptPktInfo) (remoteAddr : InetSocketAddress),
      ((receiver.report info).meetPeer remoteAddr).traceReceiptPkt = receiver.traceReceiptPkt := by
    intro receiver info remoteAddr
    unfold WebrtcReceiver.meetPeer WebrtcReceiver.report
    split <;> split <;> rfl
  have hreported : ∀ (info : ReceiptPktInfo) (remoteAddr : InetSocketAddress),
      ((t.own.report info).meetPeer remoteAddr).reported = t.own.reported ++ [info] := by
    intro info remoteAddr
    rw [WebrtcReceiver.meetPeer_reported, WebrtcReceiver.reported_report _ _ htrace]
  simp only [ReceptionRun.step, WebrtcReceiver.recvPacket, hempty, List.nil_append, hread,
    Option.bind_eq_bind, Option.bind_some, hp] at ht
  split at ht
  · next hstopped =>
    cases ht
    exact ⟨rfl, rfl, rfl, hmeet _ _ _, hreported _ _, by simp [hstopped]⟩
  · next hrunning =>
    simp only [ReceptionRun.pass] at ht
    split at ht
    · split at ht
      · next hdropped =>
        cases ht
        refine ⟨rfl, rfl, rfl, hmeet _ _ _, hreported _ _, ?_⟩
        simp [hdropped.1, hdropped.2]
      · next hpassed =>
        cases ht
        refine ⟨rfl, rfl, rfl, hmeet _ _ _, hreported _ _, ?_⟩
        have hrun : t.running = true := not_not.mp hrunning
        have hused : parser.isRtcp d.packet = true ∨ (parser.getSsrc d.packet).isSome = true := by
          by_contra hnot
          exact hpassed (by simpa using hnot)
        rw [if_pos ⟨hrun, hused⟩]
        rfl
    · cases ht

theorem seq_of_stamped (h : Stamped s) {place : ℕ} {d : Datagram WebrtcTag}
    (hd : s.out.network[place]? = some d) : d.tag.seq = UInt64.ofNat (place + 1) := by
  obtain ⟨hlt, hget⟩ := List.getElem?_eq_some_iff.mp hd
  have hnum := congrArg (fun l => l[place]?) h.numbered.tags
  simpa [hlt, hget] using hnum

/-- A stamped tag is carried and read back, as long as neither field has reached `2 ^ 63`. -/
theorem exists_carry (parser : RtpHeaderParser) (sender : InetSocketAddress) (h : Stamped s)
    (hnow : s.out.now < 2 ^ 63) (hsent : s.out.network.length < 2 ^ 63) {place : ℕ}
    {d : Datagram WebrtcTag} (hd : s.out.network[place]? = some d) :
    ∃ p, (media parser sender).carry d = some p ∧ p.packet = d.packet ∧
      WebrtcReceiver.removePacketTag p = some d.tag := by
  obtain ⟨hlt, hget⟩ := List.getElem?_eq_some_iff.mp hd
  have hmem : d ∈ s.out.network := hget ▸ List.getElem_mem hlt
  obtain ⟨hpos, hle⟩ := h.times d hmem
  have hseqNat : d.tag.seq.toNat = place + 1 := by
    rw [seq_of_stamped h hd, UInt64.toNat_ofNat']
    omega
  have htimeNat : (d.tag.time.toNat : Int) = d.sentAt := by
    rw [h.tags d hmem, UInt64_toNat_ofInt]
    omega
  have hzero : d.tag.seq ≠ 0 ∧ d.tag.time ≠ 0 := by
    constructor
    · intro hzero
      rw [hzero] at hseqNat
      cases hseqNat
    · intro hzero
      rw [hzero] at htimeNat
      simp at htimeNat
      omega
  have hbytes : d.tag.addPacketTag = some d.tag.serialize :=
    WebrtcTag.addPacketTag_eq (by omega) (by omega)
  refine ⟨⟨d.packet, some d.tag.serialize, sender⟩, congrArg (Option.map _) hbytes, rfl, ?_⟩
  exact congrArg (Option.map _) (WebrtcTag.deserialize_serialize hzero.1 hzero.2)

/-- The arrival, of a datagram stamped with its time of sending, is reported as `info`. -/
def Reports (s : LinkRun WebrtcSender WebrtcTag WebrtcReceiver) (arrival : Arrival)
    (info : ReceiptPktInfo) : Prop :=
  ∃ d, s.out.network[arrival.place]? = some d ∧ d.tag.time = UInt64.ofInt d.sentAt ∧
    d.sentAt ≤ arrival.time.getMilliSeconds ∧ d.tag.seq = UInt64.ofNat (arrival.place + 1) ∧
    info = WebrtcReceiver.receiptPktInfo arrival.time.getMilliSeconds d.tag

/-- What an arrival makes the receiver pass on. -/
def passedOn (parser : RtpHeaderParser) (s : LinkRun WebrtcSender WebrtcTag WebrtcReceiver)
    (arrival : Arrival) : Option EmulatedIpPacket := do
  let d ← s.out.network[arrival.place]?
  if arrival.running ∧ (parser.isRtcp d.packet ∨ (parser.getSsrc d.packet).isSome) then
    some ⟨d.packet, .micros arrival.time.getMicroSeconds, s.into.packetOverhead⟩
  else none

/-- Each arrival so far has been reported and, where it could be, passed on. -/
structure Told (parser : RtpHeaderParser) (s : LinkRun WebrtcSender WebrtcTag WebrtcReceiver) :
    Prop where
  fifo : s.into.fifo = []
  trace : s.into.own.traceReceiptPkt = true
  reported : List.Forall₂ (Reports s) s.arrivals s.into.own.reported
  client : s.into.client = s.arrivals.filterMap (s.passedOn parser)

theorem Reports.grow {arrival : Arrival} {info : ReceiptPktInfo} (h : Reports s arrival info)
    {ds : List (Datagram WebrtcTag)} (hnetwork : s'.out.network = s.out.network ++ ds) :
    Reports s' arrival info := by
  obtain ⟨d, hd, hrest⟩ := h
  obtain ⟨hlt, -⟩ := List.getElem?_eq_some_iff.mp hd
  refine ⟨d, ?_, hrest⟩
  rw [hnetwork, List.getElem?_append_left hlt, hd]

theorem Told.grow (h : Told parser s) (hc : Carried s) {ds : List (Datagram WebrtcTag)} {now : Time}
    {running : Bool} (hnetwork : s'.out.network = s.out.network ++ ds)
    (hinto : s'.into = { s.into with now := now, running := running })
    (harrivals : s'.arrivals = s.arrivals) : Told parser s' := by
  have hget : ∀ arrival ∈ s.arrivals, s'.out.network[arrival.place]? = s.out.network[arrival.place]? := by
    intro arrival harrival
    rw [hnetwork]
    exact List.getElem?_append_left (hc.sent _ (List.mem_map_of_mem harrival))
  constructor
  · rw [hinto]
    exact h.fifo
  · rw [hinto]
    exact h.trace
  · rw [harrivals, hinto]
    exact h.reported.imp fun _ _ hreports => hreports.grow hnetwork
  · rw [harrivals, hinto, h.client]
    apply List.filterMap_congr
    intro arrival harrival
    rw [passedOn, passedOn, hget arrival harrival, hinto]

theorem told_step (hstamped : Stamped s) (hc : Carried s) (h : Told parser s)
    (hs : step (media parser sender) s a = some s') (hnow : s.out.now < 2 ^ 63)
    (hsent : s.out.network.length < 2 ^ 63) : Told parser s' := by
  rcases step_cases hs with ⟨b, -, hout, hinto, harrivals⟩ |
    ⟨place, d, p, -, -, hd, hp, hinto, hout, harrivals⟩ |
    ⟨milliseconds, now, running, -, -, -, hout, hinto, harrivals⟩
  · obtain ⟨ds, hnetwork⟩ := network_append hout
    exact h.grow hc hnetwork hinto harrivals
  · obtain ⟨p', hp', hpacket, hread⟩ :=
      exists_carry parser sender hstamped hnow hsent hd
    obtain rfl : p' = p := Option.some.inj (hp'.symm.trans hp)
    have harrives : Arrives parser d s.into s'.into :=
      arrives_of_step h.fifo h.trace hpacket hread hinto
    have hnetwork : s'.out.network = s.out.network ++ [] := by rw [hout, List.append_nil]
    have hgrow : ∀ arrival info, Reports s arrival info → Reports s' arrival info :=
      fun arrival info hreports => hreports.grow hnetwork
    obtain ⟨hlt, hget⟩ := List.getElem?_eq_some_iff.mp hd
    have hmem : d ∈ s.out.network := hget ▸ List.getElem_mem hlt
    constructor
    · exact harrives.fifo
    · rw [harrives.trace]
      exact h.trace
    · rw [harrivals, harrives.reported]
      apply List.rel_append (h.reported.imp hgrow)
      refine List.Forall₂.cons
        ⟨d, ?_, hstamped.tags d hmem, ?_, seq_of_stamped hstamped hd, rfl⟩ .nil
      · rw [hout]
        exact hd
      · rw [← hstamped.clock]
        exact (hstamped.times d hmem).2
    · have hold : s.arrivals.filterMap (s'.passedOn parser) = s.arrivals.filterMap (s.passedOn parser) := by
        apply List.filterMap_congr
        intro arrival _
        rw [passedOn, passedOn, hout, harrives.packetOverhead]
      rw [harrivals, harrives.client, List.filterMap_append, hold, h.client]
      apply congrArg
      rw [List.filterMap_cons, List.filterMap_nil, passedOn, hout, hd, harrives.packetOverhead]
      simp only [Option.bind_eq_bind, Option.bind_some]
      split <;> rfl
  · have hnetwork : s'.out.network = s.out.network ++ [] := by rw [hout, List.append_nil]
    exact h.grow hc hnetwork hinto harrivals

/-- A datagram that has not arrived can arrive now. -/
theorem exists_arrive (hstamped : Stamped s) (h : Told parser s) (hnow : s.out.now < 2 ^ 63)
    (hsent : s.out.network.length < 2 ^ 63) {place : ℕ} {d : Datagram WebrtcTag}
    (hplace : place ∉ s.places) (hd : s.out.network[place]? = some d) (hsize : d.packet.length ≤ 1500) :
    ∃ s', step (media parser sender) s (.arrive place) = some s' := by
  obtain ⟨p, hp, hpacket, hread⟩ := exists_carry parser sender hstamped hnow hsent hd
  have hinto : ∃ into, s.into.step (media parser sender).recvPacket (.arrival p) = some into := by
    apply WebrtcReceiver.recvPacket_isSome _ hread (by rw [hpacket]; exact hsize)
    · exact []
    · rw [h.fifo]
      rfl
  obtain ⟨into, hinto⟩ := hinto
  refine ⟨{ s with
    into := into, arrivals := s.arrivals ++ [⟨place, s.into.now, s.into.running⟩] }, ?_⟩
  simp only [step, if_neg hplace, hd, hp, hinto, Option.bind_eq_bind, Option.bind_some]
  rfl

theorem bounds_step {σ δ τ : Type} {L : Link σ δ τ} {s s' : LinkRun σ δ τ} {a : Act}
    (hs : step L s a = some s') :
    s.out.now ≤ s'.out.now ∧ s.out.network.length ≤ s'.out.network.length := by
  rcases step_cases hs with ⟨b, hb, hout, -, -⟩ | ⟨place, d, p, -, -, -, -, -, hout, -⟩ |
    ⟨milliseconds, now, running, hle, -, -, hout, -, -⟩
  · obtain ⟨ds, hnetwork⟩ := network_append hout
    rw [now_of_sender hb hout, hnetwork, List.length_append]
    exact ⟨le_refl _, Nat.le_add_right _ _⟩
  · rw [hout]
    exact ⟨le_refl _, le_refl _⟩
  · rw [hout]
    exact ⟨hle, le_refl _⟩

/-- The state after the start: nothing has been sent or has arrived. -/
def mediaStart (now : Time) (traceBw : Bool) (peer : InetSocketAddress) (packetOverhead : UInt32) :
    LinkRun WebrtcSender WebrtcTag WebrtcReceiver :=
  initial now { traceBw := traceBw } { peer := peer, traceReceiptPkt := true } packetOverhead

theorem told_of_run {now : Time} {traceBw : Bool} {peer : InetSocketAddress} {packetOverhead : UInt32}
    {as : List Act} (hstart : 1 ≤ now.getMilliSeconds)
    (hrun : Machine.run (step (media parser sender)) (mediaStart now traceBw peer packetOverhead) as =
      some s)
    (hnow : s.out.now < 2 ^ 63) (hsent : s.out.network.length < 2 ^ 63) : Stamped s ∧ Told parser s := by
  have hinv : Stamped s ∧ Carried s ∧
      (s.out.now < 2 ^ 63 → s.out.network.length < 2 ^ 63 → Told parser s) := by
    refine Machine.invariant (I := fun s => Stamped s ∧ Carried s ∧
      (s.out.now < 2 ^ 63 → s.out.network.length < 2 ^ 63 → Told parser s)) ?_ ?_ hrun
    · rintro s a s' ⟨hstamped, hcarried, htold⟩ hs
      refine ⟨stamped_step hstamped hs, carried_step hcarried hs, fun hnow hsent => ?_⟩
      obtain ⟨hle, hlen⟩ := bounds_step hs
      have hbefore : Told parser s := htold (by omega) (by omega)
      exact told_step hstamped hcarried hbefore hs (by omega) (by omega)
    · refine ⟨⟨rfl, hstart, ?_, ?_, rfl, rfl⟩, carried_initial, fun _ _ => ⟨rfl, rfl, .nil, rfl⟩⟩
      · intro d hd
        cases hd
      · intro d hd
        cases hd
  exact ⟨hinv.1, hinv.2.2 hnow hsent⟩

/-- In every run of the media from a start after the first millisecond: each datagram that arrives
is reported, in the order of the arrivals, with its place on the network and its delay since it was
handed to the socket, both modulo `2 ^ 32`; those that arrive at a running receiver with a header that
can be used are passed on, stamped with the times of their arrivals; and any other can still arrive. -/
theorem arrivals_are_reported (parser : RtpHeaderParser) (sender : InetSocketAddress) (now : Time)
    (traceBw : Bool) (peer : InetSocketAddress) (packetOverhead : UInt32) (as : List Act)
    (s : LinkRun WebrtcSender WebrtcTag WebrtcReceiver) (hstart : 1 ≤ now.getMilliSeconds)
    (hrun : Machine.run (step (media parser sender)) (mediaStart now traceBw peer packetOverhead) as =
      some s)
    (hnow : s.out.now < 2 ^ 63) (hsent : s.out.network.length < 2 ^ 63) :
    List.Forall₂ (fun arrival info => ∃ d, s.out.network[arrival.place]? = some d ∧
        d.tag.time = UInt64.ofInt d.sentAt ∧ d.sentAt ≤ arrival.time.getMilliSeconds ∧
        info.seq.toNat = (arrival.place + 1) % 2 ^ 32 ∧
        (info.owd.toNat : Int) = (arrival.time.getMilliSeconds - d.sentAt) % 2 ^ 32)
      s.arrivals s.into.own.reported ∧
      s.into.client = s.arrivals.filterMap (s.passedOn parser) ∧
      ∀ place d, s.out.network[place]? = some d → place ∉ s.places → d.packet.length ≤ 1500 →
        ∃ s', step (media parser sender) s (.arrive place) = some s' := by
  obtain ⟨hstamped, htold⟩ := told_of_run hstart hrun hnow hsent
  refine ⟨htold.reported.imp ?_, htold.client, fun place d hd hplace hsize =>
    exists_arrive hstamped htold hnow hsent hplace hd hsize⟩
  rintro arrival info ⟨d, hd, htag, hle, hseq, rfl⟩
  refine ⟨d, hd, htag, hle, ?_, ?_⟩
  · show d.tag.seq.toUInt32.toNat = _
    rw [hseq, UInt64.toNat_toUInt32, UInt64.toNat_ofNat']
    omega
  · have htime : (d.tag.time.toNat : Int) = d.sentAt % 2 ^ 64 := by
      rw [htag, UInt64_toNat_ofInt]
    have hms := UInt32_toNat_ofInt arrival.time.getMilliSeconds
    have hfield := d.tag.time.toNat_lt
    show ((((UInt32.ofInt arrival.time.getMilliSeconds).toUInt64 - d.tag.time).toUInt32.toNat : ℕ) : Int) = _
    rw [UInt64.toNat_toUInt32, UInt64.toNat_sub, UInt32.toNat_toUInt64]
    omega

/-- The steps that put two RTP packets on the network, at 5 and 7 ms. -/
def twoSent : List Act :=
  [.startReception, .out .startApplication, .out (.sendRtp [1]), .out (.sendRtp [2]), .out (.traceRtp 0),
    .out (.testRunning 0), .out (.schedule 0), .out .deliveryPacket, .out .drainRtp, .out .drainRtcp,
    .out .sendToNetwork, .tick 7000000, .out .sendToNetwork, .tick 9000000]

/-- Every packet is RTP with an SSRC. -/
def mediaParser : RtpHeaderParser := ⟨fun _ => false, fun _ => some 1⟩

/-- The second packet can arrive although the first has not. -/
theorem second_arrives : ∃ s : LinkRun WebrtcSender WebrtcTag WebrtcReceiver,
    Machine.run (step (media mediaParser ⟨1, 9⟩)) (mediaStart 5000000 true ⟨1, 9⟩ 28)
        (twoSent ++ [.arrive 1]) = some s ∧
      s.places = [1] ∧ s.out.now = 9 ∧ s.out.network.length = 2 := by
  have hsent : ∃ s : LinkRun WebrtcSender WebrtcTag WebrtcReceiver,
      Machine.run (step (media mediaParser ⟨1, 9⟩)) (mediaStart 5000000 true ⟨1, 9⟩ 28) twoSent = some s ∧
        s.places = [] ∧ s.out.now = 9 ∧ s.out.network.map (·.packet) = [[1], [2]] :=
    ⟨_, rfl, rfl, rfl, rfl⟩
  obtain ⟨s, hrun, hplaces, hnow, hpackets⟩ := hsent
  have hlength : s.out.network.length = 2 := by simpa using congrArg List.length hpackets
  have hsecond : s.out.network[1]?.map (·.packet) = some [2] := by
    rw [← List.getElem?_map, hpackets]
    rfl
  obtain ⟨d, hd, hpacket⟩ := Option.map_eq_some_iff.mp hsecond
  obtain ⟨hstamped, htold⟩ := told_of_run (by decide) hrun (by omega) (by omega)
  obtain ⟨s', hs⟩ := exists_arrive hstamped htold (by omega) (by omega) (by rw [hplaces]; simp) hd
    (by rw [hpacket]; decide)
  obtain ⟨-, -, -, -, -, -, hout, harrivals⟩ := arrive_eq_some hs
  refine ⟨s', Machine.run_snoc_eq_some.mpr ⟨s, hrun, hs⟩, ?_, by rw [hout, hnow], by rw [hout, hlength]⟩
  rw [places_arrive harrivals, hplaces, List.nil_append]

theorem second_packet_is_reported : ∃ s : LinkRun WebrtcSender WebrtcTag WebrtcReceiver,
    s.places = [1] ∧ s.into.own.reported.length = 1 ∧
      s.into.client = s.arrivals.filterMap (s.passedOn mediaParser) := by
  obtain ⟨s, hrun, hplaces, hnow, hlength⟩ := second_arrives
  obtain ⟨hreported, hclient, -⟩ := arrivals_are_reported mediaParser ⟨1, 9⟩ 5000000 true ⟨1, 9⟩ 28
    _ s (by decide) hrun (by omega) (by omega)
  refine ⟨s, hplaces, ?_, hclient⟩
  rw [← hreported.length_eq]
  simpa [places] using congrArg List.length hplaces

/-! ## The loss count -/

/-- The datagrams sent before the one at `last` that have not arrived. -/
def undelivered (s : LinkRun WebrtcSender WebrtcTag WebrtcReceiver) (last : ℕ) : Finset ℕ :=
  (Finset.range last).filter (· ∉ s.places)

theorem sequences_reported (h : Told parser s) (hsent : s.out.network.length < 2 ^ 32 - 1) :
    WebrtcTrace.sequences s.into.own.reported = s.places.map (· + 1) := by
  have hseqs : List.Forall₂ (fun (arrival : Arrival) (info : ReceiptPktInfo) =>
      arrival.place + 1 = info.seq.toNat) s.arrivals s.into.own.reported := by
    have hall := h.reported
    apply hall.imp
    rintro arrival info ⟨d, hd, -, -, hseq, rfl⟩
    obtain ⟨hlt, -⟩ := List.getElem?_eq_some_iff.mp hd
    show arrival.place + 1 = d.tag.seq.toUInt32.toNat
    rw [hseq, UInt64.toNat_toUInt32, UInt64.toNat_ofNat']
    omega
  rw [WebrtcTrace.sequences, places, List.map_map]
  symm
  rw [← List.forall₂_eq_eq_eq, List.forall₂_map_left_iff, List.forall₂_map_right_iff]
  exact hseqs

theorem card_undelivered (hnodup : s.places.Nodup) {last : ℕ} (hlast : ∀ place ∈ s.places, place ≤ last)
    (hmem : last ∈ s.places) : (s.undelivered last).card + s.places.length = last + 1 := by
  have hsplit := Finset.card_filter_add_card_filter_not (s := Finset.range (last + 1)) (· ∈ s.places)
  have hin : (Finset.range (last + 1)).filter (· ∈ s.places) = s.places.toFinset := by
    ext place
    rw [Finset.mem_filter, Finset.mem_range, List.mem_toFinset]
    constructor
    · exact fun h => h.2
    · exact fun h => ⟨Nat.lt_succ_of_le (hlast place h), h⟩
  have hout : (Finset.range (last + 1)).filter (· ∉ s.places) = s.undelivered last := by
    rw [undelivered, Finset.range_add_one, Finset.filter_insert, if_neg (not_not.mpr hmem)]
  rw [hin, hout, List.toFinset_card_of_nodup hnodup, Finset.card_range] at hsplit
  omega

/-- Over a network that keeps the order, the receiver's trace counts exactly the datagrams that the
network has lost before the last arrival, and prints their share of all up to it, in percent, rounded
to `double`, to `float` and to six digits. -/
theorem trace_counts_what_the_network_lost (flag : UInt8) (parser : RtpHeaderParser)
    (sender : InetSocketAddress) (now : Time) (traceBw : Bool) (peer : InetSocketAddress)
    (packetOverhead : UInt32) (as : List Act) (s : LinkRun WebrtcSender WebrtcTag WebrtcReceiver)
    (hstart : 1 ≤ now.getMilliSeconds)
    (hrun : Machine.run (step (media parser sender)) (mediaStart now traceBw peer packetOverhead) as =
      some s)
    (horder : Machine.AllSteps (step (media parser sender)) KeepsOrder
      (mediaStart now traceBw peer packetOverhead) as)
    (hnow : s.out.now < 2 ^ 63) (hsent : s.out.network.length < 2 ^ 32 - 1) (last : ℕ)
    (hlast : s.places.getLast? = some last) :
    (WebrtcTrace.received flag s.into.own.reported).lossPkts.toNat = (s.undelivered last).card ∧
      (WebrtcTrace.received flag s.into.own.reported).maxSeq = last + 1 ∧
      (flag &&& E_WEBRTC_LOSS ≠ 0 →
        (WebrtcTrace.received flag s.into.own.reported).closeTraceLossFile =
          some [printed (toFloat (toDouble (100 * ((s.undelivered last).card : ℚ) / (last + 1 : ℕ))))]) := by
  obtain ⟨-, htold⟩ := told_of_run hstart hrun hnow (by omega)
  have hcarried : Carried s :=
    Machine.invariant (fun _ _ _ h hs => carried_step h hs) carried_initial hrun
  have hincreasing : s.places.Pairwise (· < ·) :=
    Machine.invariant_of_allSteps (I := fun s => s.places.Pairwise (· < ·))
      (fun _ _ _ h ha hs => places_step h ha hs) List.Pairwise.nil horder hrun
  have hseqs := sequences_reported htold hsent
  obtain ⟨before, hbefore⟩ : ∃ before, s.places = before ++ [last] :=
    List.getLast?_eq_some_iff.mp hlast
  have hle : ∀ place ∈ s.places, place ≤ last := by
    intro place hplace
    rw [hbefore] at hplace hincreasing
    obtain ⟨-, -, hlt⟩ := List.pairwise_append.mp hincreasing
    rcases List.mem_append.mp hplace with hplace | hplace
    · exact (hlt place hplace last List.mem_cons_self).le
    · exact (List.mem_singleton.mp hplace).le
  have hcard := card_undelivered hcarried.nodup hle (List.mem_of_getLast? hlast)
  -- the registers, where every arrival is a record
  have hrecords : (0 :: s.places.map (· + 1)).Pairwise (· < ·) := by
    rw [List.pairwise_cons]
    refine ⟨by simp, List.pairwise_map.mpr (hincreasing.imp ?_)⟩
    intro a b hab
    omega
  have hsmall : ∀ info ∈ s.into.own.reported, info.seq.toNat < 2 ^ 32 - 1 := by
    intro info hinfo
    have hmem : info.seq.toNat ∈ WebrtcTrace.sequences s.into.own.reported := List.mem_map_of_mem hinfo
    rw [hseqs] at hmem
    obtain ⟨place, hplace, heq⟩ := List.mem_map.mp hmem
    have hlt := hcarried.sent place hplace
    omega
  obtain ⟨hmax, -, hloss⟩ := WebrtcTrace.counted_received flag hsmall
  have htop : Records.top 0 (s.places.map (· + 1)) = last + 1 := by
    rw [hbefore, List.map_append, List.map_singleton] at hrecords ⊢
    exact Records.top_of_increasing (List.pairwise_cons.mp hrecords).2 (Nat.zero_le _)
  rw [hseqs, htop] at hmax hloss
  rw [Records.records_of_increasing hrecords, List.length_map] at hloss
  have hlost : (WebrtcTrace.received flag s.into.own.reported).lossPkts.toNat =
      (s.undelivered last).card := by omega
  refine ⟨hlost, hmax, fun hflag => ?_⟩
  have hbound : last + 1 < 2 ^ 32 := by
    have hlt := hcarried.sent last (List.mem_of_getLast? hlast)
    omega
  have hline := WebrtcTrace.reportedLoss_eq (n := last + 1) (by exact_mod_cast hmax) hbound
  rw [WebrtcTrace.closeTraceLossFile, if_pos (by rw [hmax]; omega), WebrtcTrace.loss_received,
    if_pos hflag, hline, hlost]
  rfl

/-- The first of two packets is lost: one is counted, of two. -/
theorem first_packet_is_counted_lost : ∃ s : LinkRun WebrtcSender WebrtcTag WebrtcReceiver,
    s.undelivered 1 = {0} ∧
      (WebrtcTrace.received E_WEBRTC_LOSS s.into.own.reported).lossPkts.toNat = (s.undelivered 1).card := by
  obtain ⟨s, hrun, hplaces, hnow, hlength⟩ := second_arrives
  have horder : Machine.AllSteps (step (media mediaParser ⟨1, 9⟩)) KeepsOrder
      (mediaStart 5000000 true ⟨1, 9⟩ 28) (twoSent ++ [.arrive 1]) := by
    apply Machine.AllSteps.snoc
    · apply Machine.allSteps_of_forall_mem
      simp [twoSent, KeepsOrder]
    · intro t ht
      obtain ⟨t', ht', hs⟩ := Machine.run_snoc_eq_some.mp hrun
      obtain ⟨-, -, -, -, -, -, -, harrivals⟩ := arrive_eq_some hs
      obtain rfl : t = t' := Option.some.inj (ht.symm.trans ht')
      have hbefore : t.places ++ [1] = [] ++ [1] := (places_arrive harrivals).symm.trans hplaces
      have hnone : t.places = [] := List.append_cancel_right hbefore
      simp [KeepsOrder, hnone]
  have hlast : s.places.getLast? = some 1 := by
    rw [hplaces]
    rfl
  obtain ⟨hlost, -, -⟩ := trace_counts_what_the_network_lost E_WEBRTC_LOSS mediaParser ⟨1, 9⟩ 5000000
    true ⟨1, 9⟩ 28 _ s (by decide) hrun horder (by omega) (by omega) 1 hlast
  refine ⟨s, ?_, hlost⟩
  rw [undelivered, hplaces]
  rfl

end LinkRun

end WebrtcGccNs3.Wire
