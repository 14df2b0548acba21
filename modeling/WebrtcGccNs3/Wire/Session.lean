import WebrtcGccNs3.Lib.Places
import WebrtcGccNs3.Wire.Conservation
import WebrtcGccNs3.Wire.Sender
import WebrtcGccNs3.Wire.Receiver

/-!
# From one endpoint to the other

The sending side of one endpoint, a network, and the receiving side of the other, on one
simulator clock. The network gives each datagram at most once, and otherwise does as it
likes: it drops, delays and reorders. The media go from `WebrtcSender` to
`WebrtcReceiver`, and the feedback goes the other way, with no tag on it.
-/
namespace WebrtcGccNs3.Wire

/-- The packets that have arrived and are not dropped: passed on, or in the FIFO. -/
def ReceptionRun.kept {τ : Type} (s : ReceptionRun τ) : List Packet :=
  s.client.map (·.data) ++ s.fifo.map (·.packet)

/-- What the two endpoints of a direction do. -/
structure Link (σ δ τ : Type) where
  endpoint : Endpoint σ δ
  recvPacket : ReceptionRun τ → Option (ReceptionRun τ)
  /-- A datagram in the socket's FIFO, if its tag fits the bytes that ns-3 sets aside for it. -/
  carry : Datagram δ → Option Received
  recvPacket_kept : ∀ t t', recvPacket t = some t' → t'.kept.Sublist t.kept
  carry_packet : ∀ d p, carry d = some p → p.packet = d.packet

/-- A datagram at its receiver. -/
structure Arrival where
  /-- Its place on the network. -/
  place : ℕ
  time : Time
  /-- The receiver was running. -/
  running : Bool

structure LinkRun (σ δ τ : Type) where
  out : EndpointRun σ δ
  into : ReceptionRun τ
  /-- The arrivals so far. -/
  arrivals : List Arrival

namespace LinkRun

variable {σ δ τ : Type}

/-- The clock is not the sending side's own. -/
def OfSender : EndpointRun.Act → Prop
  | .tick _ => False
  | _ => True

instance : DecidablePred OfSender := fun a => by
  cases a <;> simp only [OfSender] <;> infer_instance

inductive Act where
  | out (a : EndpointRun.Act)
  | startReception
  | stopReception
  | arrive (place : ℕ)
  | tick (now : Time)

def initial (now : Time) (own : σ) (own' : τ) (packetOverhead : UInt32) : LinkRun σ δ τ where
  out := EndpointRun.initial now.getMilliSeconds own
  into := ReceptionRun.initial now own' packetOverhead
  arrivals := []

def places (s : LinkRun σ δ τ) : List ℕ := s.arrivals.map (·.place)

def step (L : Link σ δ τ) (s : LinkRun σ δ τ) : Act → Option (LinkRun σ δ τ)
  | .out a => do
    if ¬ OfSender a then none
    let out ← s.out.step L.endpoint a
    return { s with out := out }
  | .startReception => do
    let into ← s.into.step L.recvPacket .startApplication
    return { s with into := into }
  | .stopReception => do
    let into ← s.into.step L.recvPacket .stopApplication
    return { s with into := into }
  | .arrive place => do
    if place ∈ s.places then none
    let d ← s.out.network[place]?
    let p ← L.carry d
    let into ← s.into.step L.recvPacket (.arrival p)
    return { s with
      into := into, arrivals := s.arrivals ++ [⟨place, s.into.now, s.into.running⟩] }
  | .tick now => do
    let out ← s.out.step L.endpoint (.tick now.getMilliSeconds)
    let into ← s.into.step L.recvPacket (.tick now)
    return { s with out := out, into := into }

/-- The network keeps the order. -/
def KeepsOrder (s : LinkRun σ δ τ) : Act → Prop
  | .arrive place => ∀ earlier ∈ s.places, earlier < place
  | _ => True

instance (s : LinkRun σ δ τ) (a : Act) : Decidable (KeepsOrder s a) :=
  match a with
  | .arrive place => inferInstanceAs (Decidable (∀ earlier ∈ s.places, earlier < place))
  | .out _ | .startReception | .stopReception | .tick _ => inferInstanceAs (Decidable True)

variable {L : Link σ δ τ} {s s' : LinkRun σ δ τ} {a : Act}

theorem arrive_eq_some {place : ℕ} (hs : step L s (.arrive place) = some s') :
    ∃ d p, place ∉ s.places ∧ s.out.network[place]? = some d ∧ L.carry d = some p ∧
      s.into.step L.recvPacket (.arrival p) = some s'.into ∧ s'.out = s.out ∧
      s'.arrivals = s.arrivals ++ [⟨place, s.into.now, s.into.running⟩] := by
  simp only [step] at hs
  split at hs
  · cases hs
  · next hplace =>
    obtain ⟨d, hd, hs⟩ := Option.bind_eq_some_iff.mp hs
    obtain ⟨p, hp, hs⟩ := Option.bind_eq_some_iff.mp hs
    obtain ⟨into, hinto, hs⟩ := Option.bind_eq_some_iff.mp hs
    cases hs
    exact ⟨d, p, hplace, hd, hp, hinto, rfl, rfl⟩

/-- A step is one of the sending side, or an arrival, or leaves everything but the clocks and
`m_running` alone. -/
theorem step_cases (hs : step L s a = some s') :
    (∃ b, OfSender b ∧ s.out.step L.endpoint b = some s'.out ∧ s'.into = s.into ∧
      s'.arrivals = s.arrivals) ∨
    (∃ place d p, a = .arrive place ∧ place ∉ s.places ∧ s.out.network[place]? = some d ∧
      L.carry d = some p ∧ s.into.step L.recvPacket (.arrival p) = some s'.into ∧ s'.out = s.out ∧
      s'.arrivals = s.arrivals ++ [⟨place, s.into.now, s.into.running⟩]) ∨
    (∃ milliseconds now running, s.out.now ≤ milliseconds ∧ s.into.now ≤ now ∧
      (s.out.now = s.into.now.getMilliSeconds → milliseconds = now.getMilliSeconds) ∧
      s'.out = { s.out with now := milliseconds } ∧
      s'.into = { s.into with now := now, running := running } ∧ s'.arrivals = s.arrivals) := by
  cases a with
  | out b =>
    left
    simp only [step] at hs
    split at hs
    · cases hs
    · next hb =>
      obtain ⟨out, hout, hs⟩ := Option.bind_eq_some_iff.mp hs
      cases hs
      exact ⟨b, not_not.mp hb, hout, rfl, rfl⟩
  | startReception | stopReception =>
    cases hs
    exact Or.inr (Or.inr ⟨_, _, _, le_refl _, le_refl _, id, rfl, rfl, rfl⟩)
  | arrive place =>
    obtain ⟨d, p, harrive⟩ := arrive_eq_some hs
    exact Or.inr (Or.inl ⟨place, d, p, rfl, harrive⟩)
  | tick now =>
    right
    right
    obtain ⟨out, hout, hs⟩ := Option.bind_eq_some_iff.mp hs
    obtain ⟨into, hinto, hs⟩ := Option.bind_eq_some_iff.mp hs
    cases hs
    simp only [EndpointRun.step] at hout
    simp only [ReceptionRun.step] at hinto
    split at hout
    · split at hinto
      · next hout' hinto' =>
        cases hout
        cases hinto
        exact ⟨_, _, _, hout', hinto', fun _ => rfl, rfl, rfl, rfl⟩
      · cases hinto
    · cases hout

/-- The datagrams that have arrived, in the order in which they did. -/
def arrived (s : LinkRun σ δ τ) : List (Datagram δ) := Places.pick s.out.network s.places

/-- Each datagram arrives at most once, and what the receiver keeps of them is in order. -/
structure Carried (s : LinkRun σ δ τ) : Prop where
  nodup : s.places.Nodup
  sent : ∀ place ∈ s.places, place < s.out.network.length
  kept : s.into.kept.Sublist (s.arrived.map (·.packet))

/-- The network only grows. -/
theorem network_append {T : Endpoint σ δ} {out out' : EndpointRun σ δ} {b : EndpointRun.Act}
    (hs : out.step T b = some out') : ∃ ds, out'.network = out.network ++ ds := by
  rcases EndpointRun.step_network hs with ⟨hnet, -⟩ | ⟨d, hnet, -⟩
  · exact ⟨[], by rw [hnet, List.append_nil]⟩
  · exact ⟨[d], hnet⟩

theorem Carried.grow (h : Carried s) {ds : List (Datagram δ)}
    (hnetwork : s'.out.network = s.out.network ++ ds) (hkept : s'.into.kept = s.into.kept)
    (harrivals : s'.arrivals = s.arrivals) : Carried s' := by
  have hplaces : s'.places = s.places := congrArg (List.map _) harrivals
  have harrived : s'.arrived = s.arrived := by
    rw [arrived, hnetwork, hplaces, Places.pick_append h.sent, arrived]
  constructor
  · rw [hplaces]
    exact h.nodup
  · intro place hplace
    rw [hplaces] at hplace
    have hlt := h.sent place hplace
    rw [hnetwork, List.length_append]
    omega
  · rw [hkept, harrived]
    exact h.kept

theorem places_arrive {arrival : Arrival} (harrivals : s'.arrivals = s.arrivals ++ [arrival]) :
    s'.places = s.places ++ [arrival.place] := by
  rw [places, harrivals, List.map_append, List.map_singleton, places]

theorem arrived_arrive {arrival : Arrival} {d : Datagram δ} (hout : s'.out = s.out)
    (harrivals : s'.arrivals = s.arrivals ++ [arrival]) (hd : s.out.network[arrival.place]? = some d) :
    s'.arrived = s.arrived ++ [d] := by
  rw [arrived, hout, places_arrive harrivals, Places.pick_concat, hd, arrived, Option.toList_some]

theorem carried_step (h : Carried s) (hs : step L s a = some s') : Carried s' := by
  rcases step_cases hs with ⟨b, -, hout, hinto, harrivals⟩ |
    ⟨place, d, p, -, hplace, hd, hp, hinto, hout, harrivals⟩ |
    ⟨milliseconds, now, running, -, -, -, hout, hinto, harrivals⟩
  · obtain ⟨ds, hnetwork⟩ := network_append hout
    exact h.grow hnetwork (by rw [hinto]) harrivals
  · obtain ⟨hlt, -⟩ := List.getElem?_eq_some_iff.mp hd
    constructor
    · rw [places_arrive harrivals]
      refine List.nodup_append.mpr ⟨h.nodup, List.nodup_singleton _, fun earlier hearlier _ hsingle => ?_⟩
      rw [List.mem_singleton.mp hsingle]
      rintro rfl
      exact hplace hearlier
    · rw [places_arrive harrivals, hout]
      intro place' hplace'
      rcases List.mem_append.mp hplace' with hplace' | hplace'
      · exact h.sent place' hplace'
      · rwa [List.mem_singleton.mp hplace']
    · rw [arrived_arrive hout harrivals hd, List.map_append, List.map_singleton]
      have hkept := L.recvPacket_kept _ _ hinto
      apply hkept.trans
      rw [ReceptionRun.kept, List.map_append, ← List.append_assoc, List.map_singleton,
        L.carry_packet d p hp]
      exact h.kept.append (List.Sublist.refl _)
  · have hnetwork : s'.out.network = s.out.network ++ [] := by rw [hout, List.append_nil]
    apply h.grow hnetwork _ harrivals
    rw [hinto]
    rfl

theorem carried_initial {now : Time} {own : σ} {own' : τ} {packetOverhead : UInt32} :
    Carried (initial (δ := δ) now own own' packetOverhead) := by
  constructor
  · exact List.nodup_nil
  · intro place hplace
    cases hplace
  · exact List.Sublist.refl _

/-- The sending side of a run is a run of its endpoint. -/
theorem out_step (hs : step L s a = some s') :
    Machine.Reachable (EndpointRun.step L.endpoint) s.out s'.out := by
  rcases step_cases hs with ⟨b, -, hout, -, -⟩ | ⟨place, d, p, -, -, -, -, -, hout, -⟩ |
    ⟨milliseconds, now, running, hle, -, -, hout, -, -⟩
  · exact Machine.Reachable.of_step hout
  · rw [hout]
    exact Machine.Reachable.refl
  · rw [hout]
    apply Machine.Reachable.of_step (i := .tick milliseconds)
    exact if_pos hle

/-- With a network that keeps the order, the datagrams arrive in the order in which they were sent. -/
theorem places_step (h : s.places.Pairwise (· < ·)) (ha : KeepsOrder s a) (hs : step L s a = some s') :
    s'.places.Pairwise (· < ·) := by
  rcases step_cases hs with ⟨b, -, -, -, harrivals⟩ | ⟨place, d, p, rfl, -, -, -, -, -, harrivals⟩ |
    ⟨milliseconds, now, running, -, -, -, -, -, harrivals⟩
  · rw [places, harrivals]
    exact h
  · rw [places_arrive harrivals, List.pairwise_append]
    refine ⟨h, List.pairwise_singleton _ _, fun earlier hearlier _ hsingle => ?_⟩
    rw [List.mem_singleton.mp hsingle]
    exact ha earlier hearlier
  · rw [places, harrivals]
    exact h

/-- What the receiver has passed on, with the kinds of the packets. -/
theorem exists_passed (h : Carried s) : ∃ passed : List (Kind × Packet),
    passed.map (·.2) = s.into.client.map (·.data) ∧
      passed.Sublist (s.arrived.map fun d => (d.kind, d.packet)) := by
  have hclient : (s.into.client.map (·.data)).Sublist (s.arrived.map (·.packet)) :=
    (List.sublist_append_left _ _).trans h.kept
  obtain ⟨ds, hds, heq⟩ := List.sublist_map_iff.mp hclient
  refine ⟨ds.map fun d => (d.kind, d.packet), ?_, hds.map _⟩
  rw [heq, List.map_map]
  rfl

/-- In every run over a network that drops, delays and reorders: the packets passed on to the other
client are, within each kind, packets that were given to `SendRtp` and `SendRtcp`, each at most
once; and in the order in which they were given, if the network keeps the order. -/
theorem packets_are_passed_on_once (L : Link σ δ τ) (now : Time) (own : σ) (own' : τ)
    (packetOverhead : UInt32) (as : List Act) (s : LinkRun σ δ τ)
    (hrun : Machine.run (step L) (initial now own own' packetOverhead) as = some s) :
    ∃ passed : List (Kind × Packet), passed.map (·.2) = s.into.client.map (·.data) ∧
      (∀ kind, (ofKind kind passed).Subperm (ofKind kind s.out.accepted)) ∧
      (Machine.AllSteps (step L) KeepsOrder (initial now own own' packetOverhead) as →
        ∀ kind, (ofKind kind passed).Sublist (ofKind kind s.out.accepted)) := by
  have hcarried : Carried s :=
    Machine.invariant (fun _ _ _ h hs => carried_step h hs) carried_initial hrun
  have hout : Machine.Reachable (EndpointRun.step L.endpoint)
      (EndpointRun.initial now.getMilliSeconds own) s.out :=
    Machine.simulate (I := fun _ => True) out (fun _ _ _ _ _ => trivial)
      (fun _ _ _ _ hs => out_step hs) trivial hrun
  have haccepted : ∀ kind, (ofKind kind s.out.handed).Sublist (ofKind kind s.out.accepted) := by
    intro kind
    rw [EndpointRun.conserved_of_reachable hout kind, EndpointRun.packets, List.append_assoc]
    exact List.sublist_append_left _ _
  obtain ⟨passed, hdata, hpassed⟩ := exists_passed hcarried
  refine ⟨passed, hdata, fun kind => ?_, fun horder kind => ?_⟩
  · have harrived : s.arrived.Subperm s.out.network :=
      Places.pick_subperm hcarried.nodup hcarried.sent
    have hhanded : (s.arrived.map fun d => (d.kind, d.packet)).Subperm s.out.handed :=
      Places.subperm_map _ harrived
    have hkind : (ofKind kind passed).Subperm (ofKind kind s.out.handed) :=
      Places.subperm_map _ ((hpassed.subperm.trans hhanded).filter _)
    exact hkind.trans (haccepted kind).subperm
  · have hincreasing : s.places.Pairwise (· < ·) :=
      Machine.invariant_of_allSteps (I := fun s => s.places.Pairwise (· < ·))
        (fun _ _ _ h ha hs => places_step h ha hs) List.Pairwise.nil horder hrun
    have harrived : s.arrived.Sublist s.out.network := Places.pick_sublist hincreasing hcarried.sent
    have hhanded : (s.arrived.map fun d => (d.kind, d.packet)).Sublist s.out.handed := harrived.map _
    have hkind : (ofKind kind passed).Sublist (ofKind kind s.out.handed) :=
      ((hpassed.trans hhanded).filter _).map _
    exact hkind.trans (haccepted kind)

end LinkRun

theorem ReceptionRun.pass_kept {τ : Type} {parser : RtpHeaderParser} {s s' : ReceptionRun τ}
    {packet : Packet} (hs : s.pass parser packet = some s') :
    s'.kept.Sublist (s.client.map (·.data) ++ packet :: s.fifo.map (·.packet)) := by
  obtain ⟨-, hfifo, hclient⟩ := ReceptionRun.pass_spec hs
  rw [ReceptionRun.kept, hfifo]
  rcases hclient with hclient | hclient
  · rw [hclient]
    exact (List.Sublist.refl _).append (List.sublist_cons_self _ _)
  · rw [hclient, List.map_append, List.append_assoc]
    exact List.Sublist.refl _

theorem WebrtcReceiver.recvPacket_kept {parser : RtpHeaderParser} {t t' : ReceptionRun WebrtcReceiver}
    (ht : recvPacket parser t = some t') : t'.kept.Sublist t.kept := by
  unfold recvPacket at ht
  split at ht
  · cases ht
  · next p fifo hfifo =>
    have hkept : t.kept = t.client.map (·.data) ++ p.packet :: fifo.map (·.packet) := by
      rw [ReceptionRun.kept, hfifo, List.map_cons]
    rw [hkept]
    obtain ⟨tag, -, ht⟩ := Option.bind_eq_some_iff.mp ht
    split at ht
    · cases ht
      exact (List.Sublist.refl _).append (List.sublist_cons_self _ _)
    · exact ReceptionRun.pass_kept ht

theorem WebrtcSender.recvPacket_kept {parser : RtpHeaderParser} {t t' : ReceptionRun WebrtcSender}
    (ht : recvPacket parser t = some t') : t'.kept.Sublist t.kept := by
  unfold recvPacket at ht
  split at ht
  · cases ht
    exact List.Sublist.refl _
  · split at ht
    · cases ht
    · next p fifo hfifo =>
      have hkept : t.kept = t.client.map (·.data) ++ p.packet :: fifo.map (·.packet) := by
        rw [ReceptionRun.kept, hfifo, List.map_cons]
      rw [hkept]
      exact ReceptionRun.pass_kept ht

/-- The media: tagged packets of the sender at this address. -/
def media (parser : RtpHeaderParser) (sender : InetSocketAddress) :
    Link WebrtcSender WebrtcTag WebrtcReceiver where
  endpoint := WebrtcSender.endpoint
  recvPacket := WebrtcReceiver.recvPacket parser
  carry d := d.tag.addPacketTag.map fun bytes => ⟨d.packet, some bytes, sender⟩
  recvPacket_kept _ _ := WebrtcReceiver.recvPacket_kept
  carry_packet d p hp := by
    obtain ⟨bytes, -, rfl⟩ := Option.map_eq_some_iff.mp hp
    rfl

/-- The feedback: packets of the receiver at this address, without a tag. -/
def feedback (parser : RtpHeaderParser) (receiver : InetSocketAddress) : Link Unit Unit WebrtcSender where
  endpoint := WebrtcReceiver.endpoint
  recvPacket := WebrtcSender.recvPacket parser
  carry d := some ⟨d.packet, none, receiver⟩
  recvPacket_kept _ _ := WebrtcSender.recvPacket_kept
  carry_packet d p hp := by
    cases hp
    rfl

/-- Three RTCP packets, of which the second is lost and the third overtakes the first. -/
theorem overtaking_packets_are_passed_on_once :
    ∃ s : LinkRun Unit Unit WebrtcSender,
      s.into.client.map (·.data) = [[3], [1]] ∧ ofKind .rtcp s.out.accepted = [[1], [2], [3]] ∧
        ∃ passed : List (Kind × Packet), passed.map (·.2) = s.into.client.map (·.data) ∧
          ∀ kind, (ofKind kind passed).Subperm (ofKind kind s.out.accepted) := by
  have hrun : ∃ s : LinkRun Unit Unit WebrtcSender,
      Machine.run (LinkRun.step (feedback ⟨fun _ => true, fun _ => none⟩ ⟨1, 9⟩))
        (LinkRun.initial 5000000 () {} 28)
        [.startReception, .out .startApplication, .out (.sendRtcp [1]), .out (.sendRtcp [2]),
          .out (.sendRtcp [3]), .out (.testRunning 0), .out (.schedule 0), .out .deliveryPacket,
          .out .drainRtp, .out .drainRtcp, .out .sendToNetwork, .tick 7000000, .out .sendToNetwork,
          .out .sendToNetwork, .arrive 2, .tick 9000000, .arrive 0] = some s ∧
      s.into.client.map (·.data) = [[3], [1]] ∧ ofKind .rtcp s.out.accepted = [[1], [2], [3]] :=
    ⟨_, rfl, rfl, rfl⟩
  obtain ⟨s, hrun, hclient, haccepted⟩ := hrun
  obtain ⟨passed, hdata, honce, -⟩ := LinkRun.packets_are_passed_on_once _ _ _ _ _ _ s hrun
  exact ⟨s, hclient, haccepted, passed, hdata, honce⟩

end WebrtcGccNs3.Wire
