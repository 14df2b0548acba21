import WebrtcGccNs3.Call.Ssrcs

/-!
# WebrtcSessionManager

The manager makes two clients and the stream pairs between them, for which the clients give
their SSRCs. A client deletes the transports that it owns, when it gets another one and
when it is deleted. The manager deletes its clients before the stream pairs, which still
use them.
-/
namespace WebrtcGccNs3.Call

/-! ## The transport of a client -/

/-- The transports are addresses. -/
structure ClientTransport where
  ownTransport : Bool := true
  transport : Option ℕ
  /-- The transports that were deleted, in their order. -/
  deleted : List ℕ := []

namespace ClientTransport

variable (client : ClientTransport)

/-- `transport_.reset`. -/
def reset (transport : Option ℕ) : ClientTransport :=
  { client with transport := transport, deleted := client.deleted ++ client.transport.toList }

/-- `transport_.release`, of a transport that the client does not own. -/
def release : ClientTransport :=
  if !client.ownTransport && client.transport.isSome then { client with transport := none } else client

def setCustomTransport (transport : Option ℕ) (own : Bool) : ClientTransport :=
  { client.release.reset transport with ownTransport := own }

/-- The destructor, with that of `transport_`. -/
def destroy : ClientTransport := client.release.reset none

/-- Both delete what the client owns. -/
theorem deleted_release_reset (transport : Option ℕ) : (client.release.reset transport).deleted =
    client.deleted ++ if client.ownTransport then client.transport.toList else [] := by
  obtain ⟨own, transport', deleted⟩ := client
  cases own with
  | true => rfl
  | false => cases transport' <;> simp [release, reset]

/-- Whatever is registered: by its end a client has deleted the transport that it was made with and
those that it was given to own, each once, in this order, and no other. -/
theorem owned_transports_are_deleted_once (initial : ℕ) (registered : List (Option ℕ × Bool)) :
    (registered.foldl (fun client r => client.setCustomTransport r.1 r.2)
      ({ transport := some initial } : ClientTransport)).destroy.deleted =
      initial :: (registered.filter (·.2)).filterMap (·.1) := by
  have hall : ∀ client : ClientTransport,
      (registered.foldl (fun client r => client.setCustomTransport r.1 r.2) client).destroy.deleted =
        client.deleted ++ (if client.ownTransport then client.transport.toList else []) ++
          (registered.filter (·.2)).filterMap (·.1) := by
    induction registered with
    | nil =>
      intro client
      rw [List.foldl_nil, destroy, deleted_release_reset]
      simp
    | cons r registered ih =>
      obtain ⟨transport, own⟩ := r
      intro client
      have hdeleted : (client.setCustomTransport transport own).deleted =
          client.deleted ++ if client.ownTransport then client.transport.toList else [] :=
        client.deleted_release_reset transport
      have htransport : (client.setCustomTransport transport own).transport = transport := rfl
      have hown : (client.setCustomTransport transport own).ownTransport = own := rfl
      rw [List.foldl_cons, ih, hdeleted, htransport, hown, List.append_assoc]
      cases own <;> cases transport <;> simp
  simpa using hall { transport := some initial }

end ClientTransport

/-! ## The manager -/

structure WebrtcSessionManager where
  /-- All clients that were made. -/
  clients : List ClientTransport := []
  deletedClients : List ℕ := []
  senderClient : Option ℕ := none
  receiverClient : Option ℕ := none
  running : Bool := false
  /-- The SSRCs that the clients have given, and `video_streams_`. -/
  scenario : Scenario := .initial

namespace WebrtcSessionManager

section Manager

variable (payloadString : VideoCodecType → String) (config : VideoStreamConfig)
variable (s : WebrtcSessionManager)

def videoStreams : List VideoStreamPair2 := s.scenario.pairs

/-- Tasks for clients, which must not have been deleted. -/
def sendTasks (clients : List ℕ) : Option Unit := guard (∀ client ∈ clients, client ∉ s.deletedClients)

/-- The clients are made with transports of their own. -/
def createClients (senderTransport receiverTransport : ℕ) : WebrtcSessionManager :=
  { s with
    clients := s.clients ++ [{ transport := some senderTransport }, { transport := some receiverTransport }]
    senderClient := some s.clients.length
    receiverClient := some (s.clients.length + 1) }

/-- `RegisterSenderTransport` and `RegisterReceiverTransport`, by the client. -/
def registerTransport (client : Option ℕ) (transport : ℕ) (own : Bool) : WebrtcSessionManager :=
  match client with
  | some client => { s with clients := s.clients.modify client (·.setCustomTransport (some transport) own) }
  | none => s

def createStreamPair : Option WebrtcSessionManager := do
  let sender ← s.senderClient
  let receiver ← s.receiverClient
  let scenario ← s.scenario.step payloadString (.createStreamPair sender receiver config)
  s.sendTasks [sender, receiver]
  return { s with scenario := scenario }

def start : Option WebrtcSessionManager := do
  s.sendTasks (s.videoStreams.map (·.receiver))
  s.sendTasks (if config.autostart then s.videoStreams.map (·.sender) else [])
  return { s with running := true }

def stop : Option WebrtcSessionManager :=
  if s.running then do
    s.sendTasks (s.videoStreams.map (·.sender))
    s.sendTasks (s.videoStreams.map (·.receiver))
    return { s with running := false }
  else some s

/-- `delete` of a client, if there is one. -/
def deleteClient (client : Option ℕ) : WebrtcSessionManager :=
  match client with
  | some client => { s with
      clients := s.clients.modify client (·.destroy)
      deletedClients := client :: s.deletedClients }
  | none => s

/-- The destructor. That of a stream pair sends a task to its receiver and one to its sender. -/
def destroy : Option WebrtcSessionManager := do
  let s ← s.stop
  let s := (s.deleteClient s.senderClient).deleteClient s.receiverClient
  s.sendTasks (s.videoStreams.flatMap fun pair => [pair.receiver, pair.sender])
  return { s with
    senderClient := none, receiverClient := none, scenario := { s.scenario with pairs := [] } }

inductive Act where
  | createClients (senderTransport receiverTransport : ℕ)
  | registerSenderTransport (transport : ℕ) (own : Bool)
  | registerReceiverTransport (transport : ℕ) (own : Bool)
  | createStreamPair
  | start
  | stop
  deriving DecidableEq

/-- The calls of a manager that keeps its configuration. -/
def step : Act → Option WebrtcSessionManager
  | .createClients senderTransport receiverTransport =>
    some (s.createClients senderTransport receiverTransport)
  | .registerSenderTransport transport own => some (s.registerTransport s.senderClient transport own)
  | .registerReceiverTransport transport own => some (s.registerTransport s.receiverClient transport own)
  | .createStreamPair => s.createStreamPair payloadString config
  | .start => s.start config
  | .stop => s.stop

end Manager

/-! ## A run -/

variable {payloadString : VideoCodecType → String} {config : VideoStreamConfig}
variable {s s' : WebrtcSessionManager} {a : Act}

theorem sendTasks_eq_some_iff {clients : List ℕ} :
    s.sendTasks clients = some () ↔ ∀ client ∈ clients, client ∉ s.deletedClients := by
  unfold sendTasks guard
  split <;> simp_all

/-- How many stream pairs were made since the clients were, after an action. -/
def countAfter (count : ℕ) : Act → ℕ
  | .createClients .. => 0
  | .createStreamPair => count + 1
  | _ => count

def pairCount (as : List Act) : ℕ := as.foldl countAfter 0

/-- What does not change the clients and the pairs. -/
structure Same (s s' : WebrtcSessionManager) : Prop where
  deleted : s'.deletedClients = s.deletedClients
  length : s'.clients.length = s.clients.length
  sender : s'.senderClient = s.senderClient
  receiver : s'.receiverClient = s.receiverClient
  scenario : s'.scenario = s.scenario

theorem same_stop (hs : s.stop = some s') : Same s s' := by
  unfold stop at hs
  split at hs
  · obtain ⟨-, -, hs⟩ := Option.bind_eq_some_iff.mp hs
    obtain ⟨-, -, hs⟩ := Option.bind_eq_some_iff.mp hs
    cases hs
    exact ⟨rfl, rfl, rfl, rfl, rfl⟩
  · cases hs
    exact ⟨rfl, rfl, rfl, rfl, rfl⟩

theorem step_cases (hs : step payloadString config s a = some s') :
    (∃ senderTransport receiverTransport, a = .createClients senderTransport receiverTransport ∧
      s' = s.createClients senderTransport receiverTransport) ∨
    (∃ sender receiver scenario, a = .createStreamPair ∧ s.senderClient = some sender ∧
      s.receiverClient = some receiver ∧
      s.scenario.step payloadString (.createStreamPair sender receiver config) = some scenario ∧
      s' = { s with scenario := scenario }) ∨
    ((∀ count, countAfter count a = count) ∧ Same s s') := by
  have hregister : ∀ client transport own, Same s (s.registerTransport client transport own) := by
    intro client transport own
    cases client with
    | none => exact ⟨rfl, rfl, rfl, rfl, rfl⟩
    | some client => exact ⟨rfl, List.length_modify .., rfl, rfl, rfl⟩
  cases a with
  | createClients senderTransport receiverTransport =>
    exact Or.inl ⟨senderTransport, receiverTransport, rfl, (Option.some.inj hs).symm⟩
  | registerSenderTransport transport own =>
    cases hs
    exact Or.inr (Or.inr ⟨fun _ => rfl, hregister _ _ _⟩)
  | registerReceiverTransport transport own =>
    cases hs
    exact Or.inr (Or.inr ⟨fun _ => rfl, hregister _ _ _⟩)
  | createStreamPair =>
    obtain ⟨sender, hsender, hs⟩ := Option.bind_eq_some_iff.mp hs
    obtain ⟨receiver, hreceiver, hs⟩ := Option.bind_eq_some_iff.mp hs
    obtain ⟨scenario, hscenario, hs⟩ := Option.bind_eq_some_iff.mp hs
    obtain ⟨-, -, hs⟩ := Option.bind_eq_some_iff.mp hs
    exact Or.inr (Or.inl
      ⟨sender, receiver, scenario, rfl, hsender, hreceiver, hscenario, (Option.some.inj hs).symm⟩)
  | start =>
    obtain ⟨-, -, hs⟩ := Option.bind_eq_some_iff.mp hs
    obtain ⟨-, -, hs⟩ := Option.bind_eq_some_iff.mp hs
    cases hs
    exact Or.inr (Or.inr ⟨fun _ => rfl, ⟨rfl, rfl, rfl, rfl, rfl⟩⟩)
  | stop => exact Or.inr (Or.inr ⟨fun _ => rfl, same_stop hs⟩)

/-- Senders have even numbers, and each receiver is the client behind its sender. The pairs of the
current clients are those made since the clients were, and have taken their SSRCs. -/
structure Paired (config : VideoStreamConfig) (as : List Act) (s : WebrtcSessionManager) : Prop where
  alive : s.deletedClients = []
  even : s.clients.length % 2 = 0
  current : s.senderClient = none ∧ s.receiverClient = none ∨ ∃ client, client % 2 = 0 ∧
    client < s.clients.length ∧ s.senderClient = some client ∧ s.receiverClient = some (client + 1)
  pairs : ∀ pair ∈ s.scenario.pairs,
    pair.sender % 2 = 0 ∧ pair.sender < s.clients.length ∧ pair.receiver = pair.sender + 1
  made : 0 < pairCount as ↔ ∃ pair ∈ s.scenario.pairs, s.senderClient = some pair.sender
  allotted : Scenario.Allotted s.scenario
  new : ∀ client, s.clients.length ≤ client → Scenario.indices (s.scenario.clients client) = (0, 0, 0)
  sent : ∀ client, s.senderClient = some client →
    (s.scenario.clients client).nextVideoSsrcIndex = pairCount as * numberOfStreams config
  got : ∀ client, s.receiverClient = some client →
    (s.scenario.clients client).nextVideoLocalSsrcIndex = pairCount as * numberOfStreams config

theorem paired_createClients {as : List Act} (h : Paired config as s) {senderTransport receiverTransport : ℕ}
    (hcount : pairCount (as ++ [a]) = 0) :
    Paired config (as ++ [a]) (s.createClients senderTransport receiverTransport) := by
  have hlength : (s.createClients senderTransport receiverTransport).clients.length =
      s.clients.length + 2 := by simp [createClients]
  have heven := h.even
  have hnew : ∀ client, s.clients.length ≤ client →
      (s.scenario.clients client).nextVideoSsrcIndex = 0 ∧
        (s.scenario.clients client).nextVideoLocalSsrcIndex = 0 := by
    intro client hle
    have hzero := h.new client hle
    simp only [Scenario.indices, Prod.mk.injEq] at hzero
    exact ⟨hzero.1, hzero.2.2⟩
  constructor
  · exact h.alive
  · omega
  · exact Or.inr ⟨s.clients.length, heven, by omega, rfl, rfl⟩
  · intro pair hpair
    obtain ⟨hpairEven, hlt, hreceiver⟩ := h.pairs pair hpair
    exact ⟨hpairEven, by omega, hreceiver⟩
  · rw [hcount]
    constructor
    · intro hpos
      exact absurd hpos (Nat.lt_irrefl 0)
    · rintro ⟨pair, hpair, hcurrent⟩
      -- the clients of the pairs so far are older
      have hlt := (h.pairs pair hpair).2.1
      have hnext : s.clients.length = pair.sender := Option.some.inj hcurrent
      omega
  · exact h.allotted
  · intro client hle
    exact h.new client (by omega)
  · rintro client hclient
    obtain rfl : s.clients.length = client := Option.some.inj hclient
    rw [hcount, Nat.zero_mul]
    exact (hnew _ (Nat.le_refl _)).1
  · rintro client hclient
    obtain rfl : s.clients.length + 1 = client := Option.some.inj hclient
    rw [hcount, Nat.zero_mul]
    exact (hnew _ (Nat.le_succ _)).2

theorem paired_createStreamPair {as : List Act} (h : Paired config as s) {sender receiver : ℕ}
    {scenario : Scenario} (hsender : s.senderClient = some sender)
    (hreceiver : s.receiverClient = some receiver)
    (hmakes : s.scenario.step payloadString (.createStreamPair sender receiver config) = some scenario)
    (hcount : pairCount (as ++ [a]) = pairCount as + 1) :
    Paired config (as ++ [a]) { s with scenario := scenario } := by
  obtain ⟨heven, hlt, hbehind⟩ :
      sender % 2 = 0 ∧ sender < s.clients.length ∧ receiver = sender + 1 := by
    rcases h.current with ⟨hnone, -⟩ | ⟨client, heven, hlt, hclient, hbehind⟩
    · rw [hnone] at hsender
      cases hsender
    · obtain rfl := Option.some.inj (hclient.symm.trans hsender)
      exact ⟨heven, hlt, Option.some.inj (hreceiver.symm.trans hbehind)⟩
  obtain ⟨pair, rfl, rfl, rfl, hmade⟩ := Scenario.made_of_createStreamPair hmakes
  have hindices : ∀ client, _ ∧ _ ∧ _ := fun client => by
    simpa only [Scenario.indices, Prod.mk.injEq] using hmade.indices client
  constructor
  · exact h.alive
  · exact h.even
  · exact h.current
  · intro other hother
    rw [show scenario.pairs = _ from hmade.pairs] at hother
    rcases List.mem_append.mp hother with hold | hnew
    · exact h.pairs other hold
    · rw [List.mem_singleton.mp hnew]
      exact ⟨heven, hlt, hbehind⟩
  · rw [hcount]
    refine iff_of_true (Nat.succ_pos _) ⟨pair, ?_, hsender⟩
    rw [show scenario.pairs = _ from hmade.pairs]
    exact List.mem_append_right _ List.mem_cons_self
  · exact Scenario.allotted_step h.allotted hmakes
  · intro client hle
    have hzero := h.new client hle
    have hothers : client ≠ pair.sender ∧ client ≠ pair.receiver := by
      have hlength : client ≥ s.clients.length := hle
      have heven' := h.even
      omega
    rw [hmade.indices, if_neg hothers.1, if_neg hothers.2]
    exact hzero
  · intro client hclient
    obtain rfl : pair.sender = client := Option.some.inj (hsender.symm.trans hclient)
    rw [(hindices _).1, h.sent _ hsender, if_pos rfl, hcount, Nat.add_mul, Nat.one_mul]
  · intro client hclient
    obtain rfl : pair.receiver = client := Option.some.inj (hreceiver.symm.trans hclient)
    rw [(hindices _).2.2, h.got _ hreceiver, if_pos rfl, hcount, Nat.add_mul, Nat.one_mul]

theorem Same.paired {as : List Act} (h : Paired config as s) (hsame : Same s s')
    (hcount : pairCount (as ++ [a]) = pairCount as) : Paired config (as ++ [a]) s' := by
  obtain ⟨hdeleted, hlength, hsender, hreceiver, hscenario⟩ := hsame
  constructor
  · rw [hdeleted]
    exact h.alive
  · rw [hlength]
    exact h.even
  · rw [hsender, hreceiver, hlength]
    exact h.current
  · rw [hscenario, hlength]
    exact h.pairs
  · rw [hcount, hscenario, hsender]
    exact h.made
  · rw [hscenario]
    exact h.allotted
  · rw [hscenario, hlength]
    exact h.new
  · rw [hcount, hscenario, hsender]
    exact h.sent
  · rw [hcount, hscenario, hreceiver]
    exact h.got

theorem paired_step {as : List Act} (h : Paired config as s)
    (hs : step payloadString config s a = some s') : Paired config (as ++ [a]) s' := by
  have hcount : pairCount (as ++ [a]) = countAfter (pairCount as) a := by
    rw [pairCount, List.foldl_append]
    rfl
  rcases step_cases hs with ⟨senderTransport, receiverTransport, rfl, rfl⟩ |
    ⟨sender, receiver, scenario, rfl, hsender, hreceiver, hmakes, rfl⟩ | ⟨hkept, hsame⟩
  · exact paired_createClients h hcount
  · exact paired_createStreamPair h hsender hreceiver hmakes hcount
  · exact hsame.paired h (hcount.trans (hkept _))

theorem paired_of_run {as : List Act} (hrun : Machine.run (step payloadString config) {} as = some s) :
    Paired config as s := by
  refine Machine.invariant_of_history (I := Paired config)
    ?_ (fun _ _ _ _ _ _ h hs => paired_step h hs) hrun
  constructor
  · rfl
  · rfl
  · exact Or.inl ⟨rfl, rfl⟩
  · intro pair hpair
    cases hpair
  · simp [pairCount, Scenario.initial]
  · exact Scenario.allotted_initial
  · exact fun _ _ => rfl
  · intro client hclient
    cases hclient
  · intro client hclient
    cases hclient

/-- No task is for a deleted client before the destructor. -/
theorem Paired.sendTasks {as : List Act} (h : Paired config as s) (clients : List ℕ) :
    s.sendTasks clients = some () := by
  rw [sendTasks_eq_some_iff, h.alive]
  exact fun _ _ => List.not_mem_nil

end WebrtcSessionManager

end WebrtcGccNs3.Call
