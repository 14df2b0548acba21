import WebrtcGccNs3.Wire.Sender

/-!
# Packet conservation

Each accepted packet is in its queue, in `sendQ` or on the network, and within its
kind the three hold the accepted packets in order. The two kinds mix in `sendQ`,
and there the sender numbers them.
-/
namespace WebrtcGccNs3.Wire

/-- The packets of a kind. -/
def ofKind (kind : Kind) (packets : List (Kind × Packet)) : List Packet :=
  (packets.filter (·.1 = kind)).map Prod.snd

@[simp] theorem ofKind_nil (kind : Kind) : ofKind kind [] = [] := rfl

@[simp] theorem ofKind_append (kind : Kind) (xs ys : List (Kind × Packet)) :
    ofKind kind (xs ++ ys) = ofKind kind xs ++ ofKind kind ys := by
  simp [ofKind]

@[simp] theorem ofKind_map (kind kind' : Kind) (queue : List Queued) :
    ofKind kind (queue.map (kind', ·.packet)) = if kind' = kind then queue.map (·.packet) else [] := by
  induction queue with
  | nil => simp
  | cons e queue ih =>
    rw [List.map_cons, ← List.singleton_append, ofKind_append, ih]
    by_cases h : kind' = kind <;> simp [ofKind, h]

namespace EndpointRun

variable {σ δ : Type} {T : Endpoint σ δ} {s s' : EndpointRun σ δ} {a : Act}

/-- What has been handed to the socket, without the tags. -/
def handed (s : EndpointRun σ δ) : List (Kind × Packet) := s.network.map fun d => (d.kind, d.packet)

/-- The packets of a kind on the network, in `sendQ` and in the queue. -/
def packets (s : EndpointRun σ δ) (kind : Kind) : List Packet :=
  ofKind kind s.handed ++ ofKind kind s.sendQ ++ (s.queue kind).map (·.packet)

/-- No packet is lost, duplicated or reordered within its kind. -/
def Conserved (s : EndpointRun σ δ) : Prop := ∀ kind, ofKind kind s.accepted = s.packets kind

/-- A step appends to the packets what it accepts. -/
theorem step_packets (hs : step T s a = some s') (kind : Kind) :
    ∃ new, ofKind kind s'.accepted = ofKind kind s.accepted ++ new ∧
      s'.packets kind = s.packets kind ++ new := by
  cases a with
  | sendRtp packet =>
    simp only [step] at hs
    split at hs
    · cases hs
      exact ⟨[], by simp⟩
    · cases hs
      refine ⟨ofKind kind [(.rtp, packet)], ofKind_append _ _ _, ?_⟩
      cases kind <;> simp [packets, handed, sendQ, queue, ofKind]
  | sendRtcp packet =>
    cases hs
    refine ⟨ofKind kind [(.rtcp, packet)], ofKind_append _ _ _, ?_⟩
    cases kind <;> simp [packets, handed, sendQ, queue, ofKind]
  | traceRtp call | testRunning call | schedule call | tick now =>
    simp only [step] at hs
    split at hs
    · cases hs
      exact ⟨[], by cases kind <;> simp [packets, handed, sendQ, queue]⟩
    · cases hs
  | startApplication | stopApplication =>
    cases hs
    exact ⟨[], by cases kind <;> simp [packets, handed, sendQ, queue]⟩
  | deliveryPacket =>
    simp only [step] at hs
    split at hs
    · rename_i pending hidle hpending
      cases hs
      exact ⟨[], by cases kind <;> simp [packets, handed, sendQ, queue, hidle]⟩
    · cases hs
  | drainRtp =>
    simp only [step] at hs
    split at hs
    · rename_i hentered
      cases hs
      exact ⟨[], by cases kind <;> simp [packets, handed, sendQ, queue, hentered]⟩
    · cases hs
  | drainRtcp =>
    simp only [step] at hs
    split at hs
    · rename_i sendQ hdrained
      cases hs
      exact ⟨[], by cases kind <;> simp [packets, handed, EndpointRun.sendQ, queue, hdrained]⟩
    · cases hs
  | sendToNetwork =>
    simp only [step] at hs
    split at hs
    · rename_i kind' packet sendQ hsending
      cases hs
      exact ⟨[], by by_cases hk : kind' = kind <;>
        cases kind <;> simp [packets, handed, EndpointRun.sendQ, queue, hsending, ofKind, hk]⟩
    · cases hs
  | deliveryReturns =>
    simp only [step] at hs
    split at hs
    · rename_i hsent
      cases hs
      exact ⟨[], by cases kind <;> simp [packets, handed, sendQ, queue, hsent]⟩
    · cases hs

theorem conserved_step (h : Conserved s) (hs : step T s a = some s') : Conserved s' := by
  intro kind
  obtain ⟨new, haccepted, hpackets⟩ := step_packets hs kind
  rw [haccepted, hpackets, h kind]

theorem conserved_of_reachable {now : Int} {own : σ}
    (h : Machine.Reachable (step T) (initial now own) s) : Conserved s := by
  obtain ⟨as, hrun⟩ := h
  exact Machine.invariant (I := Conserved) (fun _ _ _ h hs => conserved_step h hs)
    (fun kind => by cases kind <;> rfl) hrun

/-- A step that hands a packet over takes its tag from `SendToNetwork` and notes the clock; the
others leave the network alone, and change the class's own data by the trace only. -/
theorem step_network (hs : step T s a = some s') :
    s'.network = s.network ∧ (s'.own = s.own ∨ s'.own = T.traceRtp s.own s.now) ∨
      ∃ d, s'.network = s.network ++ [d] ∧ (s'.own, d.tag) = T.sendToNetwork s.own s.now ∧
        d.sentAt = s.now := by
  cases a with
  | sendRtp packet | testRunning call | schedule call | tick now | deliveryPacket | drainRtp
  | drainRtcp | deliveryReturns =>
    simp only [step] at hs
    split at hs
    · cases hs
      exact Or.inl ⟨rfl, Or.inl rfl⟩
    · cases hs <;> exact Or.inl ⟨rfl, Or.inl rfl⟩
  | sendRtcp packet | startApplication | stopApplication =>
    cases hs
    exact Or.inl ⟨rfl, Or.inl rfl⟩
  | traceRtp call =>
    simp only [step] at hs
    split at hs
    · cases hs
      exact Or.inl ⟨rfl, Or.inr rfl⟩
    · cases hs
  | sendToNetwork =>
    simp only [step] at hs
    split at hs
    · cases hs
      exact Or.inr ⟨_, rfl, rfl, rfl⟩
    · cases hs

end EndpointRun

namespace WebrtcSender

open EndpointRun

/-- The `k`-th packet on the network carries `k`, and `m_seq` the next number. -/
structure Numbered (s : EndpointRun WebrtcSender WebrtcTag) : Prop where
  next : s.own.seq = UInt64.ofNat (s.network.length + 1)
  tags : s.network.map (·.tag.seq) = (List.range s.network.length).map fun i => UInt64.ofNat (i + 1)

theorem numbered_step {s s' : EndpointRun WebrtcSender WebrtcTag} {a : Act} (h : Numbered s)
    (hs : step endpoint s a = some s') : Numbered s' := by
  obtain ⟨hnext, htags⟩ := h
  rcases step_network hs with ⟨hnet, hown⟩ | ⟨d, hnet, hown, -⟩
  · have hseq : s'.own.seq = s.own.seq := by
      rcases hown with hown | hown
      · rw [hown]
      · rw [hown]
        exact traceRtp_seq s.own s.now
    constructor
    · rw [hseq, hnet, hnext]
    · rw [hnet, htags]
  · have hown : (s'.own, d.tag) = WebrtcSender.sendToNetwork s.own s.now := hown
    have htag : d.tag.seq = s.own.seq := congrArg (fun x => x.2.seq) hown
    have hseq : s'.own.seq = s.own.seq + 1 := congrArg (fun x => x.1.seq) hown
    constructor
    · rw [hseq, hnet, hnext, List.length_append, List.length_singleton, UInt64.ofNat_add (_ + 1) 1]
      rfl
    · rw [hnet, List.map_append, htags, List.length_append, List.length_singleton,
        List.range_succ, List.map_append, List.map_singleton, List.map_singleton, htag, hnext]

/-- In every interleaving of calls and events, the packets of each kind that were accepted are
those handed to the socket, then those in `sendQ`, then those in the queue, in order, and the
`k`-th packet handed over carries tag sequence `k`. -/
theorem packets_conserved_and_numbered (now : Int) (traceBw : Bool)
    (s : EndpointRun WebrtcSender WebrtcTag)
    (h : Machine.Reachable (step endpoint) (initial now { traceBw := traceBw }) s) :
    (∀ kind, ofKind kind s.accepted =
        ofKind kind s.handed ++ ofKind kind s.sendQ ++ (s.queue kind).map (·.packet)) ∧
      ∀ (i : Nat) (hi : i < s.network.length), s.network[i].tag.seq = UInt64.ofNat (i + 1) := by
  refine ⟨conserved_of_reachable h, fun i hi => ?_⟩
  obtain ⟨as, hrun⟩ := h
  have hnum : Numbered s := Machine.invariant (I := Numbered) (fun _ _ _ h hs => numbered_step h hs)
    ⟨rfl, rfl⟩ hrun
  have hget := congrArg (fun l => l[i]?) hnum.tags
  simpa [hi] using hget

/-- An RTCP and two RTP packets, one of them still queued. -/
theorem three_packets_numbered :
    ∃ s : EndpointRun WebrtcSender WebrtcTag,
      s.accepted = [(.rtcp, [9]), (.rtp, [1]), (.rtp, [2])] ∧
      s.network.map (fun d => (d.kind, d.packet, d.tag.seq)) = [(.rtp, [1], 1), (.rtcp, [9], 2)] ∧
      ofKind .rtp s.accepted =
        ofKind .rtp s.handed ++ ofKind .rtp s.sendQ ++ (s.queue .rtp).map (·.packet) ∧
      ∀ (i : Nat) (hi : i < s.network.length), s.network[i].tag.seq = UInt64.ofNat (i + 1) := by
  have hrun : ∃ s : EndpointRun WebrtcSender WebrtcTag,
      Machine.run (step endpoint) (initial 5 { traceBw := true })
        [.startApplication, .sendRtcp [9], .testRunning 0, .schedule 0, .sendRtp [1], .deliveryPacket,
          .drainRtp, .sendRtp [2], .drainRtcp, .sendToNetwork, .sendToNetwork] = some s ∧
      s.accepted = [(.rtcp, [9]), (.rtp, [1]), (.rtp, [2])] ∧
      s.network.map (fun d => (d.kind, d.packet, d.tag.seq)) = [(.rtp, [1], 1), (.rtcp, [9], 2)] :=
    ⟨_, rfl, rfl, rfl⟩
  obtain ⟨s, hs, haccepted, hnetwork⟩ := hrun
  obtain ⟨hall, htags⟩ := packets_conserved_and_numbered 5 true s ⟨_, hs⟩
  exact ⟨s, haccepted, hnetwork, hall .rtp, htags⟩

end WebrtcSender

end WebrtcGccNs3.Wire
