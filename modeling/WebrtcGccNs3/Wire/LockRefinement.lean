import WebrtcGccNs3.Wire.Locking
import WebrtcGccNs3.Wire.Conservation
import WebrtcGccNs3.Wire.Delivery

/-!
# Pushes and drains are atomic

The machine with threads and locks does what the machine of `Endpoint` does, where a
push and a drain are one step each. A push takes effect when it writes the deque, and a
drain at its entry: a packet that `DeliveryPacket` has not taken out yet, under the
lock, is as good as taken. So what holds of every run of the one holds of every run of
the other.
-/
namespace WebrtcGccNs3.Wire

namespace LockedRun

variable {ι σ δ : Type} [DecidableEq ι] {T : Endpoint σ δ} {s s' : LockedRun ι σ δ}

/-- `sendQ`, and what the drain under way is going to add. -/
def drained (s : LockedRun ι σ δ) : DrainPlace → List (Kind × Packet)
  | .entered kind sendQ => sendQ ++ (s.queue kind).map (kind, ·.packet)
  | .copied kind sendQ => sendQ ++ (s.queue kind).tail.map (kind, ·.packet)
  | .entering _ sendQ | .emptied _ sendQ | .sending sendQ => sendQ

def atomicDelivery (s : LockedRun ι σ δ) (place : DrainPlace) : Delivery :=
  match place with
  | .entering .rtp _ => .entered
  | .entered .rtp _ | .copied .rtp _ | .emptied .rtp _ | .entering .rtcp _ => .rtpDrained (s.drained place)
  | .entered .rtcp _ | .copied .rtcp _ | .emptied .rtcp _ | .sending _ => .sending (s.drained place)

/-- A deque that is being drained counts as empty. -/
def atomicQueue (s : LockedRun ι σ δ) (kind : Kind) : List Queued :=
  if s.held none = some kind then [] else s.queue kind

def atomic (s : LockedRun ι σ δ) : EndpointRun σ δ where
  now := s.now
  own := s.own
  running := s.running
  rtpQ := s.atomicQueue .rtp
  rtcpQ := s.atomicQueue .rtcp
  calls := s.calls
  pending := s.pending
  delivery := s.delivery.map s.atomicDelivery
  accepted := s.accepted
  network := s.network

/-- The call that a thread there is in, once its packet is in the queue, and its stage. -/
def callOf : Place → Option (Nat × SendStage)
  | .stored kind call => some (call, kind.firstStage)
  | .pushed call => some (call, .pushed)
  | .traced call => some (call, .traced)
  | .foundRunning call => some (call, .foundRunning)
  | _ => none

/-- The packet that a thread there is about to push. -/
def pushing : Place → Option (Kind × Packet)
  | .entering kind packet | .entered kind packet | .loaded kind packet _ => some (kind, packet)
  | _ => none

/-- The threads are in different calls, at the stages that `calls` has for them. -/
structure Ledger (T : Endpoint σ δ) (s : LockedRun ι σ δ) : Prop where
  stages : ∀ t call stage, callOf (s.threads t) = some (call, stage) → s.calls[call]? = some stage
  distinct : ∀ t t' call stage stage', callOf (s.threads t) = some (call, stage) →
    callOf (s.threads t') = some (call, stage') → t = t'
  wanted : ∀ t packet, pushing (s.threads t) = some (.rtp, packet) → T.ignoresRtp packet = false
  fresh : ∀ sendQ, s.delivery = some (.entering .rtp sendQ) → sendQ = []

omit [DecidableEq ι] in
theorem Ledger.congr (h : Ledger T s) (hthreads : s'.threads = s.threads) (hcalls : s'.calls = s.calls)
    (hfresh : ∀ sendQ, s'.delivery = some (.entering .rtp sendQ) → sendQ = []) : Ledger T s' := by
  constructor
  · rw [hthreads, hcalls]
    exact h.stages
  · rw [hthreads]
    exact h.distinct
  · rw [hthreads]
    exact h.wanted
  · exact hfresh

/-- A thread goes on. The other threads' calls keep their stages, and its own is its own. -/
theorem Ledger.goTo (h : Ledger T s) (thread : ι) {place : Place} {calls : List SendStage}
    (hthreads : s'.threads = Function.update s.threads thread place) (hcalls : s'.calls = calls)
    (hdelivery : s'.delivery = s.delivery)
    (hothers : ∀ t, t ≠ thread → ∀ call stage, callOf (s.threads t) = some (call, stage) →
      calls[call]? = some stage)
    (hown : ∀ call stage, callOf place = some (call, stage) →
      calls[call]? = some stage ∧ ∀ t, t ≠ thread → ∀ stage', callOf (s.threads t) ≠ some (call, stage'))
    (hwanted : ∀ packet, pushing place = some (.rtp, packet) → T.ignoresRtp packet = false) :
    Ledger T s' := by
  have hself : s'.threads thread = place := by rw [hthreads, Function.update_self]
  have hother : ∀ t, t ≠ thread → s'.threads t = s.threads t := fun t ht => by
    rw [hthreads, Function.update_of_ne ht]
  constructor
  · intro t call stage ht
    rw [hcalls]
    by_cases hthread : t = thread
    · subst hthread
      rw [hself] at ht
      exact (hown call stage ht).1
    · rw [hother t hthread] at ht
      exact hothers t hthread call stage ht
  · intro t t' call stage stage' ht ht'
    by_cases hthread : t = thread <;> by_cases hthread' : t' = thread
    · rw [hthread, hthread']
    · subst hthread
      rw [hself] at ht
      rw [hother t' hthread'] at ht'
      exact absurd ht' ((hown call stage ht).2 t' hthread' stage')
    · subst hthread'
      rw [hself] at ht'
      rw [hother t hthread] at ht
      exact absurd ht ((hown call stage' ht').2 t hthread stage)
    · rw [hother t hthread] at ht
      rw [hother t' hthread'] at ht'
      exact h.distinct t t' call stage stage' ht ht'
  · intro t packet ht
    by_cases hthread : t = thread
    · subst hthread
      rw [hself] at ht
      exact hwanted packet ht
    · rw [hother t hthread] at ht
      exact h.wanted t packet ht
  · rw [hdelivery]
    exact h.fresh

/-- A thread goes on before its push, or with its call at the same stage. -/
theorem Ledger.goTo_quiet (h : Ledger T s) (thread : ι) {place : Place}
    (hthreads : s'.threads = Function.update s.threads thread place) (hcalls : s'.calls = s.calls)
    (hdelivery : s'.delivery = s.delivery)
    (hcall : callOf place = callOf (s.threads thread) ∨ callOf place = none)
    (hwanted : ∀ packet, pushing place = some (.rtp, packet) → T.ignoresRtp packet = false) :
    Ledger T s' := by
  apply h.goTo thread hthreads hcalls hdelivery (fun t _ => h.stages t) _ hwanted
  intro call stage hplace
  rcases hcall with hsame | hnone
  · rw [hsame] at hplace
    exact ⟨h.stages thread call stage hplace, fun t ht stage' ht' =>
      ht (h.distinct t thread call stage' stage ht' hplace)⟩
  · rw [hnone] at hplace
    cases hplace

/-- A thread takes its call to the next stage, or to its end. -/
theorem Ledger.goTo_set (h : Ledger T s) (thread : ι) {place : Place} {call : Nat}
    {old stage : SendStage} (hold : callOf (s.threads thread) = some (call, old))
    (hthreads : s'.threads = Function.update s.threads thread place)
    (hcalls : s'.calls = s.calls.set call stage) (hdelivery : s'.delivery = s.delivery)
    (hcall : callOf place = some (call, stage) ∨ callOf place = none)
    (hpushing : pushing place = none) : Ledger T s' := by
  obtain ⟨hlt, -⟩ := List.getElem?_eq_some_iff.mp (h.stages thread call old hold)
  have hne : ∀ t, t ≠ thread → ∀ stage', callOf (s.threads t) ≠ some (call, stage') :=
    fun t ht stage' ht' => ht (h.distinct t thread call stage' old ht' hold)
  apply h.goTo thread hthreads hcalls hdelivery
  · intro t ht call' stage' ht'
    have hc : call ≠ call' := by
      rintro rfl
      exact hne t ht stage' ht'
    rw [List.getElem?_set_ne hc]
    exact h.stages t call' stage' ht'
  · intro call' stage' hplace
    rcases hcall with hsome | hnone
    · rw [hsome] at hplace
      cases hplace
      exact ⟨by simp [hlt], hne⟩
    · rw [hnone] at hplace
      cases hplace
  · intro packet hp
    rw [hpushing] at hp
    cases hp

theorem ledger_advance (h : Ledger T s) (thread : ι) : Ledger T (advance T s thread) := by
  have hnone : ∀ {place : Place}, pushing place = none →
      ∀ packet, pushing place = some (.rtp, packet) → T.ignoresRtp packet = false := by
    intro place hp packet hp'
    rw [hp] at hp'
    cases hp'
  have hkeep : ∀ {place : Place}, pushing place = pushing (s.threads thread) →
      ∀ packet, pushing place = some (.rtp, packet) → T.ignoresRtp packet = false := by
    intro place hp packet hp'
    exact h.wanted thread packet (hp ▸ hp')
  rw [advance]
  split
  · exact h
  · next kind packet hplace =>
    split
    · exact h.goTo_quiet thread rfl rfl rfl (Or.inr rfl) (hkeep (by rw [hplace]; rfl))
    · exact h
  · next kind packet hplace =>
    exact h.goTo_quiet thread rfl rfl rfl (Or.inr rfl) (hkeep (by rw [hplace]; rfl))
  · next kind packet queue hplace =>
    refine h.goTo thread rfl rfl rfl ?_ ?_ (hnone rfl)
    · intro t ht call stage hcall
      have hstage := h.stages t call stage hcall
      obtain ⟨hlt, -⟩ := List.getElem?_eq_some_iff.mp hstage
      rwa [store_calls, List.getElem?_append_left hlt]
    · intro call stage hcall
      cases hcall
      refine ⟨by simp, fun t ht stage' ht' => ?_⟩
      obtain ⟨hlt, -⟩ := List.getElem?_eq_some_iff.mp (h.stages t _ stage' ht')
      omega
  · next kind call hplace =>
    split
    · refine h.goTo_quiet thread rfl rfl rfl ?_ (hnone (by cases kind <;> rfl))
      left
      rw [hplace]
      cases kind <;> rfl
    · exact h
  · next call hplace =>
    exact h.goTo_set thread (by rw [hplace]; rfl) rfl rfl rfl (Or.inl rfl) rfl
  · next call hplace =>
    split
    · exact h.goTo_set thread (by rw [hplace]; rfl) rfl rfl rfl (Or.inl rfl) rfl
    · exact h.goTo_set thread (by rw [hplace]; rfl) rfl rfl rfl (Or.inr rfl) rfl
  · next call hplace =>
    exact h.goTo_set thread (by rw [hplace]; rfl) rfl rfl rfl (Or.inr rfl) rfl

omit [DecidableEq ι] in
theorem ledger_deliver (h : Ledger T s) {place : DrainPlace} (hplace : s.delivery = some place) :
    Ledger T (deliver T s place) := by
  cases place with
  | entering kind sendQ =>
    rw [deliver]
    split
    · exact h.congr rfl rfl (by intro _ hd; cases hd)
    · exact h
  | entered kind sendQ =>
    rw [deliver]
    split
    · exact h.congr rfl rfl (by intro _ hd; cases hd)
    · exact h.congr rfl rfl (by intro _ hd; cases hd)
  | copied kind sendQ => exact h.congr rfl rfl (by intro _ hd; cases hd)
  | emptied kind sendQ =>
    simp only [deliver]
    split
    · exact h.congr rfl rfl (by intro _ hd; cases kind <;> cases hd)
    · exact h
  | sending sendQ =>
    cases sendQ with
    | nil => exact h.congr rfl rfl (by intro _ hd; cases hd)
    | cons head sendQ => exact h.congr rfl rfl (by intro _ hd; cases hd)

theorem ledger_step {a : Act ι} (h : Ledger T s) (hs : step T s a = some s') : Ledger T s' := by
  cases a with
  | send thread kind packet =>
    simp only [step] at hs
    split at hs
    · split at hs
      · cases hs
        exact h
      · next hignored =>
        cases hs
        refine h.goTo_quiet thread rfl rfl rfl (Or.inr rfl) ?_
        intro packet' hp
        cases hp
        simpa using hignored
    · cases hs
  | advance thread =>
    cases hs
    exact ledger_advance h thread
  | startApplication | stopApplication =>
    cases hs
    exact h.congr rfl rfl h.fresh
  | tick now =>
    simp only [step] at hs
    split at hs
    · cases hs
      exact h.congr rfl rfl h.fresh
    · cases hs
  | deliveryPacket =>
    simp only [step] at hs
    split at hs
    · cases hs
      refine h.congr rfl rfl ?_
      intro sendQ hd
      cases hd
      rfl
    · cases hs
  | deliver =>
    obtain ⟨place, hplace, rfl⟩ := Option.map_eq_some_iff.mp hs
    exact ledger_deliver h hplace

omit [DecidableEq ι] in
/-- A drain under way sees only the deque that it is draining. -/
theorem atomicDelivery_congr {place : DrainPlace}
    (h : ∀ kind, place.held = some kind → s'.queue kind = s.queue kind) :
    s'.atomicDelivery place = s.atomicDelivery place := by
  cases place with
  | entering kind sendQ | emptied kind sendQ => cases kind <;> rfl
  | entered kind sendQ | copied kind sendQ =>
    have hq : s'.queue kind = s.queue kind := h kind rfl
    cases kind <;> simp only [atomicDelivery, drained, hq]
  | sending sendQ => rfl

omit [DecidableEq ι] in
/-- A deque that is not being drained changes. -/
theorem atomicQueue_update {kind : Kind} {queue : List Queued} (hout : s.held none ≠ some kind)
    (hqueue : s'.queue = Function.update s.queue kind queue) (hdelivery : s'.delivery = s.delivery) :
    s'.atomicQueue = Function.update s.atomicQueue kind queue := by
  have hheld : s'.held none = s.held none := by rw [held, held, hdelivery]
  funext kind'
  rw [atomicQueue, hheld, hqueue]
  by_cases hk : kind' = kind
  · subst hk
    rw [if_neg hout, Function.update_self, Function.update_self]
  · rw [Function.update_of_ne hk, Function.update_of_ne hk, atomicQueue]

omit [DecidableEq ι] in
theorem atomicDelivery_update {kind : Kind} {queue : List Queued} (hout : s.held none ≠ some kind)
    (hqueue : s'.queue = Function.update s.queue kind queue) :
    s.delivery.map s'.atomicDelivery = s.delivery.map s.atomicDelivery := by
  cases hd : s.delivery with
  | none => rfl
  | some place =>
    refine congrArg some (atomicDelivery_congr fun kind' hk => ?_)
    have hne : kind' ≠ kind := by
      rintro rfl
      exact hout (by rw [held, hd]; exact hk)
    rw [hqueue, Function.update_of_ne hne]

/-- A push is one step, at its write of the deque. -/
theorem atomic_store (h : Guarded s) {thread : ι} {kind : Kind} {packet : Packet} {queue : List Queued}
    (hplace : s.threads thread = .loaded kind packet queue)
    (hwanted : kind = .rtp → T.ignoresRtp packet = false) :
    Machine.Reachable (EndpointRun.step T) s.atomic (s.store thread kind packet queue).atomic := by
  have hholder : s.held (some thread) = some kind := by rw [held, hplace]; rfl
  have hout : s.held none ≠ some kind := fun hd => by cases h.exclusive.unique hd hholder
  have hsame : s.atomicQueue kind = s.queue kind := if_neg hout
  obtain rfl : s.queue kind = queue := h.loaded thread kind packet queue hplace
  have hqueue : (s.store thread kind packet (s.queue kind)).atomicQueue =
      Function.update s.atomicQueue kind (s.queue kind ++ [⟨packet, s.calls.length⟩]) :=
    atomicQueue_update hout rfl rfl
  have hdelivery :
      s.delivery.map (s.store thread kind packet (s.queue kind)).atomicDelivery =
        s.delivery.map s.atomicDelivery := atomicDelivery_update hout rfl
  have hatomic : (s.store thread kind packet (s.queue kind)).atomic = { s.atomic with
      rtpQ := Function.update s.atomicQueue kind (s.queue kind ++ [⟨packet, s.calls.length⟩]) .rtp
      rtcpQ := Function.update s.atomicQueue kind (s.queue kind ++ [⟨packet, s.calls.length⟩]) .rtcp
      calls := s.calls ++ [kind.firstStage]
      accepted := s.accepted ++ [(kind, packet)] } := by
    rw [← hqueue, atomic, show Option.map _ (s.store thread kind packet (s.queue kind)).delivery = _
      from hdelivery]
    rfl
  rw [hatomic]
  cases kind with
  | rtp =>
    apply Machine.Reachable.of_step (i := .sendRtp packet)
    rw [EndpointRun.step, if_neg (by simp [hwanted rfl]), ← hsame]
    rfl
  | rtcp =>
    apply Machine.Reachable.of_step (i := .sendRtcp packet)
    rw [EndpointRun.step, ← hsame]
    rfl

theorem atomic_advance (h : Guarded s) (hl : Ledger T s) (thread : ι) :
    Machine.Reachable (EndpointRun.step T) s.atomic (advance T s thread).atomic := by
  have hstage : ∀ call stage, callOf (s.threads thread) = some (call, stage) →
      s.atomic.calls[call]? = some stage := fun call stage => hl.stages thread call stage
  rw [advance]
  split
  · exact Machine.Reachable.refl
  · split <;> exact Machine.Reachable.refl
  · exact Machine.Reachable.refl
  · next kind packet queue hplace =>
    apply atomic_store h hplace
    rintro rfl
    exact hl.wanted thread packet (by rw [hplace]; rfl)
  · split <;> exact Machine.Reachable.refl
  · next call hplace =>
    apply Machine.Reachable.of_step (i := .traceRtp call)
    rw [EndpointRun.step, if_pos (hstage call .pushed (by rw [hplace]; rfl))]
    rfl
  · next call hplace =>
    have htraced := hstage call .traced (by rw [hplace]; rfl)
    split
    · next hrunning =>
      apply Machine.Reachable.of_step (i := .testRunning call)
      have hfound : (if s.atomic.running then SendStage.foundRunning else .foundStopped) =
        .foundRunning := if_pos hrunning
      rw [EndpointRun.step, if_pos htraced, hfound]
      rfl
    · next hstopped =>
      apply Machine.Reachable.of_step (i := .testRunning call)
      have hfound : (if s.atomic.running then SendStage.foundRunning else .foundStopped) =
        .foundStopped := if_neg hstopped
      rw [EndpointRun.step, if_pos htraced, hfound]
      rfl
  · next call hplace =>
    apply Machine.Reachable.of_step (i := .schedule call)
    rw [EndpointRun.step, if_pos (hstage call .foundRunning (by rw [hplace]; rfl))]
    rfl

omit [DecidableEq ι] in
theorem atomic_congr (hqueue : s'.atomicQueue = s.atomicQueue)
    (hdelivery : s'.delivery.map s'.atomicDelivery = s.delivery.map s.atomicDelivery)
    (hrest : (s'.now, s'.own, s'.running, s'.calls, s'.pending, s'.accepted, s'.network) =
      (s.now, s.own, s.running, s.calls, s.pending, s.accepted, s.network)) :
    s'.atomic = s.atomic := by
  simp only [Prod.mk.injEq] at hrest
  obtain ⟨hnow, hown, hrunning, hcalls, hpending, haccepted, hnetwork⟩ := hrest
  rw [atomic, atomic, hqueue, hdelivery, hnow, hown, hrunning, hcalls, hpending, haccepted, hnetwork]

omit [DecidableEq ι] in
/-- Within a drain, only its own deque changes. -/
theorem atomicQueue_stay {place place' : DrainPlace} (hplace : s.delivery = some place)
    (hdelivery : s'.delivery = some place') (hheld : place'.held = place.held)
    (hqueue : ∀ kind, place.held ≠ some kind → s'.queue kind = s.queue kind) :
    s'.atomicQueue = s.atomicQueue := by
  have hnone : s.held none = place.held := by rw [held, hplace]; rfl
  have hnone' : s'.held none = place'.held := by rw [held, hdelivery]; rfl
  funext kind
  rw [atomicQueue, atomicQueue, hnone, hnone', hheld]
  by_cases hk : place.held = some kind
  · rw [if_pos hk, if_pos hk]
  · rw [if_neg hk, if_neg hk, hqueue kind hk]

omit [DecidableEq ι] in
/-- A drain is one step, at its entry. -/
theorem atomic_enter (hl : Ledger T s) {kind : Kind} {sendQ : List (Kind × Packet)} (lock : Kind → Int)
    (hplace : s.delivery = some (.entering kind sendQ)) :
    Machine.Reachable (EndpointRun.step T) s.atomic
      { s with delivery := some (.entered kind sendQ), lock := lock }.atomic := by
  have hout : s.held none = none := by rw [held, hplace]; rfl
  have hqueue : ∀ kind', s.atomicQueue kind' = s.queue kind' := fun kind' =>
    if_neg (by rw [hout]; simp)
  cases kind with
  | rtp =>
    obtain rfl := hl.fresh sendQ hplace
    apply Machine.Reachable.of_step (i := .drainRtp)
    have hd : s.atomic.delivery = some .entered := by
      show s.delivery.map s.atomicDelivery = _
      rw [hplace]
      rfl
    have hrtp : s.atomic.rtpQ = s.queue .rtp := hqueue .rtp
    have hrtcp : s.atomic.rtcpQ = s.queue .rtcp := hqueue .rtcp
    simp only [EndpointRun.step, hd, hrtp, hrtcp]
    rfl
  | rtcp =>
    apply Machine.Reachable.of_step (i := .drainRtcp)
    have hd : s.atomic.delivery = some (.rtpDrained sendQ) := by
      show s.delivery.map s.atomicDelivery = _
      rw [hplace]
      rfl
    have hrtp : s.atomic.rtpQ = s.queue .rtp := hqueue .rtp
    have hrtcp : s.atomic.rtcpQ = s.queue .rtcp := hqueue .rtcp
    simp only [EndpointRun.step, hd, hrtp, hrtcp]
    rfl

omit [DecidableEq ι] in
theorem atomic_deliver (h : Guarded s) (hl : Ledger T s) {place : DrainPlace}
    (hplace : s.delivery = some place) :
    Machine.Reachable (EndpointRun.step T) s.atomic (deliver T s place).atomic := by
  have hrefl : ∀ {s' : LockedRun ι σ δ}, s'.atomic = s.atomic →
      Machine.Reachable (EndpointRun.step T) s.atomic s'.atomic := by
    intro s' hs'
    rw [hs']
    exact Machine.Reachable.refl
  cases place with
  | entering kind sendQ =>
    rw [deliver]
    split
    · exact atomic_enter hl _ hplace
    · exact hrefl rfl
  | entered kind sendQ =>
    rw [deliver]
    split
    · next hnil =>
      refine hrefl (atomic_congr (atomicQueue_stay hplace rfl rfl fun _ _ => rfl) ?_ rfl)
      rw [hplace]
      cases kind <;> simp [atomicDelivery, drained, hnil]
    · next e queue hcons =>
      refine hrefl (atomic_congr (atomicQueue_stay hplace rfl rfl fun _ _ => rfl) ?_ rfl)
      rw [hplace]
      cases kind <;> simp [atomicDelivery, drained, hcons]
  | copied kind sendQ =>
    refine hrefl (atomic_congr (atomicQueue_stay hplace rfl rfl ?_) ?_ rfl)
    · intro kind' hk
      have hne : kind' ≠ kind := by
        rintro rfl
        exact hk rfl
      exact Function.update_of_ne hne ..
    · rw [hplace]
      cases kind <;> simp [deliver, atomicDelivery, drained]
  | emptied kind sendQ =>
    have hheld : s.held none = some kind := by rw [held, hplace]; rfl
    have hnil := h.emptied kind sendQ hplace
    simp only [deliver, h.exclusive.turn_of_held hheld]
    refine hrefl (atomic_congr ?_ ?_ rfl)
    · funext kind'
      rw [atomicQueue, atomicQueue, hheld, if_neg (by cases kind <;> simp [held, Kind.afterDrain,
        DrainPlace.held])]
      split
      · next heq => rw [← Option.some.inj heq, hnil]
      · rfl
    · rw [hplace]
      cases kind <;> rfl
  | sending sendQ =>
    have hd : s.atomic.delivery = some (.sending sendQ) := by
      show s.delivery.map s.atomicDelivery = _
      rw [hplace]
      rfl
    have hqueue : s.atomicQueue = s.queue := by
      funext kind
      exact if_neg (by rw [held, hplace]; simp [DrainPlace.held])
    cases sendQ with
    | nil =>
      apply Machine.Reachable.of_step (i := .deliveryReturns)
      have hatomic : (deliver T s (.sending [])).atomic = { s.atomic with delivery := none } := by
        rw [atomic, atomic, hqueue]
        rfl
      rw [hatomic]
      simp only [EndpointRun.step, hd]
    | cons head sendQ =>
      apply Machine.Reachable.of_step (i := .sendToNetwork)
      have hatomic : (deliver T s (.sending (head :: sendQ))).atomic = { s.atomic with
          own := (T.sendToNetwork s.own s.now).1
          delivery := some (.sending sendQ)
          network := s.network ++ [⟨head.1, head.2, (T.sendToNetwork s.own s.now).2, s.now⟩] } := by
        rw [atomic, atomic, hqueue]
        rfl
      rw [hatomic]
      simp only [EndpointRun.step, hd]
      rfl

theorem atomic_step {a : Act ι} (h : Guarded s) (hl : Ledger T s) (hs : step T s a = some s') :
    Machine.Reachable (EndpointRun.step T) s.atomic s'.atomic := by
  cases a with
  | send thread kind packet =>
    simp only [step] at hs
    split at hs
    · split at hs <;> cases hs <;> exact Machine.Reachable.refl
    · cases hs
  | advance thread =>
    cases hs
    exact atomic_advance h hl thread
  | startApplication =>
    cases hs
    exact Machine.Reachable.of_step (i := .startApplication) rfl
  | stopApplication =>
    cases hs
    exact Machine.Reachable.of_step (i := .stopApplication) rfl
  | tick now =>
    simp only [step] at hs
    split at hs
    · next hle =>
      cases hs
      apply Machine.Reachable.of_step (i := .tick now)
      exact if_pos hle
    · cases hs
  | deliveryPacket =>
    simp only [step] at hs
    split at hs
    · next pending hidle hpending =>
      cases hs
      apply Machine.Reachable.of_step (i := .deliveryPacket)
      have hd : s.atomic.delivery = none := by
        show s.delivery.map s.atomicDelivery = none
        rw [hidle]
        rfl
      have hp : s.atomic.pending = pending + 1 := hpending
      have hqueue : s.atomicQueue = s.queue := by
        funext kind
        exact if_neg (by rw [held, hidle]; simp)
      simp only [EndpointRun.step, hd, hp]
      rw [atomic, hqueue]
      rfl
    · cases hs
  | deliver =>
    obtain ⟨place, hplace, rfl⟩ := Option.map_eq_some_iff.mp hs
    exact atomic_deliver h hl hplace

omit [DecidableEq ι] in
theorem ledger_initial {now : Int} {own : σ} : Ledger T (initial (ι := ι) (δ := δ) now own) := by
  constructor
  · intro t call stage ht
    cases ht
  · intro t t' call stage stage' ht
    cases ht
  · intro t packet ht
    cases ht
  · intro sendQ hd
    cases hd

/-- The threads' run, and the invariants that its image as a run of the atomic endpoint rests on. -/
theorem atomic_of_reachable {now : Int} {own : σ}
    (h : Machine.Reachable (step T) (initial (ι := ι) (δ := δ) now own) s) :
    Guarded s ∧ Ledger T s ∧
      Machine.Reachable (EndpointRun.step T) (EndpointRun.initial now own) s.atomic := by
  obtain ⟨as, hrun⟩ := h
  have hinit : Guarded (initial (ι := ι) (δ := δ) now own) :=
    guarded_of_reachable (T := T) Machine.Reachable.refl
  refine ⟨guarded_of_reachable ⟨as, hrun⟩, ?_, ?_⟩
  · exact Machine.invariant (fun _ _ _ h hs => ledger_step h hs) ledger_initial hrun
  · exact Machine.simulate (I := fun s => Guarded s ∧ Ledger T s) atomic
      (fun s a s' hI hs => ⟨guarded_step hI.1 hs, ledger_step hI.2 hs⟩)
      (fun s a s' hI hs => atomic_step hI.1 hI.2 hs) ⟨hinit, ledger_initial⟩ hrun

/-- The local `sendQ` of `DeliveryPacket`. -/
def sendQ (s : LockedRun ι σ δ) : List (Kind × Packet) :=
  match s.delivery with
  | some (.entering _ sendQ) | some (.entered _ sendQ) | some (.copied _ sendQ)
  | some (.emptied _ sendQ) | some (.sending sendQ) => sendQ
  | none => []

/-- A deque, without a front that is in `sendQ` already. -/
def remaining (s : LockedRun ι σ δ) (kind : Kind) : List Queued :=
  match s.delivery with
  | some (.copied kind' _) => if kind' = kind then (s.queue kind).tail else s.queue kind
  | _ => s.queue kind

def handed (s : LockedRun ι σ δ) : List (Kind × Packet) := s.network.map fun d => (d.kind, d.packet)

omit [DecidableEq ι] in
theorem atomic_sendQ (hl : Ledger T s) {place : DrainPlace} (hplace : s.delivery = some place) :
    s.atomic.sendQ = s.drained place := by
  have hd : s.atomic.delivery = some (s.atomicDelivery place) := by
    show s.delivery.map s.atomicDelivery = _
    rw [hplace]
    rfl
  rw [EndpointRun.sendQ, hd]
  cases place with
  | entering kind sendQ =>
    cases kind with
    | rtp =>
      obtain rfl := hl.fresh sendQ hplace
      rfl
    | rtcp => rfl
  | entered kind sendQ | copied kind sendQ | emptied kind sendQ => cases kind <;> rfl
  | sending sendQ => rfl

omit [DecidableEq ι] in
theorem atomic_queue (s : LockedRun ι σ δ) (kind : Kind) : s.atomic.queue kind = s.atomicQueue kind := by
  cases kind <;> rfl

omit [DecidableEq ι] in
/-- What has been taken out of a deque is in `sendQ`, and the rest is still there. -/
theorem atomic_packets (h : Guarded s) (hl : Ledger T s) (kind : Kind) :
    s.atomic.packets kind =
      ofKind kind s.handed ++ ofKind kind s.sendQ ++ (s.remaining kind).map (·.packet) := by
  have hhanded : s.atomic.handed = s.handed := rfl
  rw [EndpointRun.packets, hhanded, atomic_queue, atomicQueue, held, List.append_assoc,
    List.append_assoc]
  apply congrArg
  cases hd : s.delivery with
  | none =>
    have hsendQ : s.atomic.sendQ = [] := by
      have hd' : s.atomic.delivery = none := by
        show s.delivery.map s.atomicDelivery = none
        rw [hd]
        rfl
      rw [EndpointRun.sendQ, hd']
    simp [hsendQ, sendQ, remaining, hd]
  | some place =>
    rw [atomic_sendQ hl hd]
    cases place with
    | entering kind' sendQ | sending sendQ =>
      simp [drained, DrainPlace.held, LockedRun.sendQ, remaining, hd]
    | entered kind' sendQ =>
      by_cases hk : kind' = kind
      · subst hk
        simp [drained, DrainPlace.held, LockedRun.sendQ, remaining, hd]
      · simp [drained, DrainPlace.held, LockedRun.sendQ, remaining, hd, hk]
    | copied kind' sendQ =>
      by_cases hk : kind' = kind
      · subst hk
        simp [drained, DrainPlace.held, LockedRun.sendQ, remaining, hd, -List.map_tail]
      · simp [drained, DrainPlace.held, LockedRun.sendQ, remaining, hd, hk, -List.map_tail]
    | emptied kind' sendQ =>
      by_cases hk : kind' = kind
      · subst hk
        simp [drained, DrainPlace.held, LockedRun.sendQ, remaining, hd, h.emptied kind' sendQ hd]
      · simp [drained, DrainPlace.held, LockedRun.sendQ, remaining, hd, hk]

/-- Every run with threads and locks is a run of the endpoint whose pushes and drains are
atomic, and the two have the same packets, in the same order. -/
theorem locked_run_is_atomic (T : Endpoint σ δ) (now : Int) (own : σ) (s : LockedRun ι σ δ)
    (h : Machine.Reachable (step T) (initial now own) s) :
    Machine.Reachable (EndpointRun.step T) (EndpointRun.initial now own) s.atomic ∧
      ∀ kind, s.atomic.packets kind =
        ofKind kind s.handed ++ ofKind kind s.sendQ ++ (s.remaining kind).map (·.packet) := by
  obtain ⟨hguarded, hledger, hatomic⟩ := atomic_of_reachable h
  exact ⟨hatomic, atomic_packets hguarded hledger⟩

/-- The first push under way, and the atomic machine that has not seen it. -/
theorem pushing_is_atomic : ∃ s : LockedRun Bool WebrtcSender WebrtcTag,
    s.threads true = .loaded .rtp [1] [] ∧
      Machine.Reachable (EndpointRun.step WebrtcSender.endpoint)
        (EndpointRun.initial 5 { traceBw := true }) s.atomic ∧
      ∀ kind, s.atomic.packets kind =
        ofKind kind s.handed ++ ofKind kind s.sendQ ++ (s.remaining kind).map (·.packet) := by
  obtain ⟨s, hs, -, htrue, -, -⟩ := pushingSteps_run
  exact ⟨s, htrue, locked_run_is_atomic _ 5 _ s ⟨_, hs⟩⟩

theorem conserved_of_reachable {now : Int} {own : σ}
    (h : Machine.Reachable (step T) (initial (ι := ι) (δ := δ) now own) s) (kind : Kind) :
    ofKind kind s.accepted =
      ofKind kind s.handed ++ ofKind kind s.sendQ ++ (s.remaining kind).map (·.packet) := by
  obtain ⟨hguarded, hledger, hatomic⟩ := atomic_of_reachable h
  rw [← atomic_packets hguarded hledger kind]
  exact EndpointRun.conserved_of_reachable hatomic kind

/-- The sender with any number of threads: each packet whose push is over is, once, on the
network, in `sendQ` or in its deque, in order within its kind, and the `k`-th packet on the network
carries tag sequence `k`. -/
theorem sender_threads_conserve (now : Int) (traceBw : Bool)
    (s : LockedRun ι WebrtcSender WebrtcTag)
    (h : Machine.Reachable (step WebrtcSender.endpoint) (initial now { traceBw := traceBw }) s) :
    (∀ kind, ofKind kind s.accepted =
        ofKind kind s.handed ++ ofKind kind s.sendQ ++ (s.remaining kind).map (·.packet)) ∧
      ∀ (i : Nat) (hi : i < s.network.length), s.network[i].tag.seq = UInt64.ofNat (i + 1) := by
  refine ⟨conserved_of_reachable h, fun i hi => ?_⟩
  obtain ⟨-, -, as, hrun⟩ := atomic_of_reachable h
  have hnum : WebrtcSender.Numbered s.atomic :=
    Machine.invariant (fun _ _ _ h hs => WebrtcSender.numbered_step h hs) ⟨rfl, rfl⟩ hrun
  have htags : s.network.map (·.tag.seq) = (List.range s.network.length).map fun i =>
    UInt64.ofNat (i + 1) := hnum.tags
  have hget := congrArg (fun l => l[i]?) htags
  simpa [hi] using hget

/-- Both pushes are over, and `DeliveryPacket` has the front packet in `sendQ` and in the deque. -/
theorem copied_packet_conserved : ∃ s : LockedRun Bool WebrtcSender WebrtcTag,
    (s.queue .rtp).map (·.packet) = [[1], [2]] ∧ s.sendQ = [(.rtp, [1])] ∧
      ofKind .rtp s.accepted =
        ofKind .rtp s.handed ++ ofKind .rtp s.sendQ ++ (s.remaining .rtp).map (·.packet) ∧
      ∀ (i : Nat) (hi : i < s.network.length), s.network[i].tag.seq = UInt64.ofNat (i + 1) := by
  have hrun : ∃ s : LockedRun Bool WebrtcSender WebrtcTag,
      Machine.run (step WebrtcSender.endpoint) (initial 5 { traceBw := true })
        (pushingSteps ++ List.replicate 5 (.advance true) ++ List.replicate 5 (.advance false) ++
          [.deliveryPacket, .deliver, .deliver]) = some s ∧
      (s.queue .rtp).map (·.packet) = [[1], [2]] ∧ s.sendQ = [(.rtp, [1])] :=
    ⟨_, rfl, rfl, rfl⟩
  obtain ⟨s, hs, hqueue, hsendQ⟩ := hrun
  obtain ⟨hall, htags⟩ := sender_threads_conserve 5 true s ⟨_, hs⟩
  exact ⟨s, hqueue, hsendQ, hall .rtp, htags⟩

end LockedRun

end WebrtcGccNs3.Wire
