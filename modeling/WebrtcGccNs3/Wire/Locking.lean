import WebrtcGccNs3.Lib.SpinLock
import WebrtcGccNs3.Wire.Sender

/-!
# The locks of an endpoint

`SendRtp` and `SendRtcp` run on any thread, next to each other and to `DeliveryPacket`.
They share `m_rtpQ` and `m_rtcpQ`, each behind a spinning `AtomicLock` that a
`LockScope` enters and leaves. Here nothing under a lock is atomic: a push reads the
deque and later writes it back one longer, and `DeliveryPacket` takes its packets out
one by one. A turn of a spin loop is a step of its own.
-/
namespace WebrtcGccNs3.Wire

open SpinLock

/-- Where a thread is in `SendRtp` or `SendRtcp`. -/
inductive Place where
  | idle
  | entering (kind : Kind) (packet : Packet)
  | entered (kind : Kind) (packet : Packet)
  /-- The push has read the deque. -/
  | loaded (kind : Kind) (packet : Packet) (queue : List Queued)
  /-- The push has written the deque; `LockScope` ends next. -/
  | stored (kind : Kind) (call : Nat)
  | pushed (call : Nat)
  | traced (call : Nat)
  | foundRunning (call : Nat)

/-- Where `DeliveryPacket` is. `sendQ` is its local. -/
inductive DrainPlace where
  | entering (kind : Kind) (sendQ : List (Kind × Packet))
  | entered (kind : Kind) (sendQ : List (Kind × Packet))
  /-- The front is in `sendQ`, and not popped yet. -/
  | copied (kind : Kind) (sendQ : List (Kind × Packet))
  /-- The loop is over; `LockScope` ends next. -/
  | emptied (kind : Kind) (sendQ : List (Kind × Packet))
  | sending (sendQ : List (Kind × Packet))

/-- The lock that a thread there is inside. -/
def Place.held : Place → Option Kind
  | .entered kind _ | .loaded kind _ _ | .stored kind _ => some kind
  | _ => none

def DrainPlace.held : DrainPlace → Option Kind
  | .entered kind _ | .copied kind _ | .emptied kind _ => some kind
  | .entering _ _ | .sending _ => none

/-- How far a call is once its packet is in the queue: only `SendRtp` traces. -/
def Kind.firstStage : Kind → SendStage
  | .rtp => .pushed
  | .rtcp => .traced

def Kind.afterScope : Kind → Nat → Place
  | .rtp, call => .pushed call
  | .rtcp, call => .traced call

def Kind.afterDrain : Kind → List (Kind × Packet) → DrainPlace
  | .rtp, sendQ => .entering .rtcp sendQ
  | .rtcp, sendQ => .sending sendQ

structure LockedRun (ι σ δ : Type) where
  now : Int
  own : σ
  running : Bool
  /-- `m_rtpLock` and `m_rtcpLock`. -/
  lock : Kind → Int
  /-- `m_rtpQ` and `m_rtcpQ`. -/
  queue : Kind → List Queued
  threads : ι → Place
  /-- The stages of the calls that have pushed, by their number. -/
  calls : List SendStage
  pending : Nat
  delivery : Option DrainPlace
  accepted : List (Kind × Packet)
  network : List (Datagram δ)

namespace LockedRun

variable {ι σ δ : Type} [DecidableEq ι]

inductive Act (ι : Type) where
  | send (thread : ι) (kind : Kind) (packet : Packet)
  | advance (thread : ι)
  | startApplication
  | stopApplication
  | tick (now : Int)
  | deliveryPacket
  | deliver

def initial (now : Int) (own : σ) : LockedRun ι σ δ :=
  ⟨now, own, false, fun _ => 0, fun _ => [], fun _ => .idle, [], 0, none, [], []⟩

def goTo (s : LockedRun ι σ δ) (thread : ι) (place : Place) : LockedRun ι σ δ :=
  { s with threads := Function.update s.threads thread place }

/-- The push writes the deque that it has read, one longer. -/
def store (s : LockedRun ι σ δ) (thread : ι) (kind : Kind) (packet : Packet) (queue : List Queued) :
    LockedRun ι σ δ :=
  { s.goTo thread (.stored kind s.calls.length) with
    queue := Function.update s.queue kind (queue ++ [⟨packet, s.calls.length⟩])
    calls := s.calls ++ [kind.firstStage]
    accepted := s.accepted ++ [(kind, packet)] }

/-- The next step of a thread. -/
def advance (T : Endpoint σ δ) (s : LockedRun ι σ δ) (thread : ι) : LockedRun ι σ δ :=
  match s.threads thread with
  | .idle => s
  | .entering kind packet =>
    match turn 0 1 (s.lock kind) with
    | some word =>
      { s.goTo thread (.entered kind packet) with lock := Function.update s.lock kind word }
    | none => s
  | .entered kind packet => s.goTo thread (.loaded kind packet (s.queue kind))
  | .loaded kind packet queue => s.store thread kind packet queue
  | .stored kind call =>
    match turn 1 0 (s.lock kind) with
    | some word =>
      { s.goTo thread (kind.afterScope call) with lock := Function.update s.lock kind word }
    | none => s
  | .pushed call =>
    { s.goTo thread (.traced call) with
      own := T.traceRtp s.own s.now, calls := s.calls.set call .traced }
  | .traced call =>
    if s.running then
      { s.goTo thread (.foundRunning call) with calls := s.calls.set call .foundRunning }
    else { s.goTo thread .idle with calls := s.calls.set call .foundStopped }
  | .foundRunning call =>
    { s.goTo thread .idle with calls := s.calls.set call .scheduled, pending := s.pending + 1 }

/-- The next step of `DeliveryPacket`. -/
def deliver (T : Endpoint σ δ) (s : LockedRun ι σ δ) : DrainPlace → LockedRun ι σ δ
  | .entering kind sendQ =>
    match turn 0 1 (s.lock kind) with
    | some word =>
      { s with delivery := some (.entered kind sendQ), lock := Function.update s.lock kind word }
    | none => s
  | .entered kind sendQ =>
    match s.queue kind with
    | [] => { s with delivery := some (.emptied kind sendQ) }
    | e :: _ => { s with delivery := some (.copied kind (sendQ ++ [(kind, e.packet)])) }
  | .copied kind sendQ =>
    { s with
      queue := Function.update s.queue kind (s.queue kind).tail
      delivery := some (.entered kind sendQ) }
  | .emptied kind sendQ =>
    match turn 1 0 (s.lock kind) with
    | some word =>
      { s with
        delivery := some (kind.afterDrain sendQ), lock := Function.update s.lock kind word }
    | none => s
  | .sending ((kind, packet) :: sendQ) =>
    let (own, tag) := T.sendToNetwork s.own s.now
    { s with
      own := own
      delivery := some (.sending sendQ)
      network := s.network ++ [⟨kind, packet, tag, s.now⟩] }
  | .sending [] => { s with delivery := none }

def step (T : Endpoint σ δ) (s : LockedRun ι σ δ) : Act ι → Option (LockedRun ι σ δ)
  | .send thread kind packet =>
    match s.threads thread with
    | .idle =>
      if kind = .rtp ∧ T.ignoresRtp packet then some s
      else some (s.goTo thread (.entering kind packet))
    | _ => none
  | .advance thread => some (advance T s thread)
  | .startApplication => some { s with running := true }
  | .stopApplication => some { s with running := false }
  | .tick now => if s.now ≤ now then some { s with now := now } else none
  | .deliveryPacket =>
    match s.delivery, s.pending with
    | none, pending + 1 => some { s with pending := pending, delivery := some (.entering .rtp []) }
    | _, _ => none
  | .deliver => s.delivery.map (deliver T s)

/-- The lock that each party is inside; `none` is `DeliveryPacket`. -/
def held (s : LockedRun ι σ δ) : Option ι → Option Kind
  | none => s.delivery.bind DrainPlace.held
  | some thread => (s.threads thread).held

variable {T : Endpoint σ δ} {s s' : LockedRun ι σ δ} {thread : ι}

@[simp] theorem store_calls (kind : Kind) (packet : Packet) (queue : List Queued) :
    (s.store thread kind packet queue).calls = s.calls ++ [kind.firstStage] := rfl

@[simp] theorem held_goTo (place : Place) :
    (s.goTo thread place).held = Function.update s.held (some thread) place.held := by
  funext p
  cases p with
  | none => rw [Function.update_of_ne (by simp)]; rfl
  | some t =>
    by_cases ht : t = thread
    · subst ht
      simp [held, goTo]
    · simp [held, goTo, ht]

theorem held_delivery (s : LockedRun ι σ δ) (delivery : Option DrainPlace) :
    { s with delivery := delivery }.held = Function.update s.held none (delivery.bind DrainPlace.held) := by
  funext p
  cases p with
  | none => simp [held]
  | some t => rw [Function.update_of_ne (by simp)]; rfl

theorem goTo_same_held {place : Place} (hheld : place.held = (s.threads thread).held) :
    (s.goTo thread place).held = s.held := by
  rw [held_goTo, hheld]
  exact Function.update_eq_self (some thread) s.held

theorem delivery_same_held {place place' : DrainPlace} (hplace : s.delivery = some place)
    (hheld : place'.held = place.held) : { s with delivery := some place' }.held = s.held := by
  rw [held_delivery, Option.bind_some, hheld]
  have hself : place.held = s.held none := by rw [held, hplace]; rfl
  rw [hself, Function.update_eq_self]

/-- What the locks are for. What a push has read is still in the deque, and a deque that
`DeliveryPacket` has found empty is still empty. -/
structure Guarded (s : LockedRun ι σ δ) : Prop where
  exclusive : Exclusive s.held s.lock
  loaded : ∀ t kind packet queue, s.threads t = .loaded kind packet queue → s.queue kind = queue
  emptied : ∀ kind sendQ, s.delivery = some (.emptied kind sendQ) → s.queue kind = []

omit [DecidableEq ι] in
/-- The rest of the state does not matter. -/
theorem Guarded.congr (h : Guarded s) (hlock : s'.lock = s.lock) (hqueue : s'.queue = s.queue)
    (hthreads : s'.threads = s.threads) (hdelivery : s'.delivery = s.delivery) : Guarded s' := by
  have hheld : s'.held = s.held := by
    funext p
    cases p with
    | none => rw [held, held, hdelivery]
    | some t => rw [held, held, hthreads]
  constructor
  · rw [hheld, hlock]
    exact h.exclusive
  · rw [hthreads, hqueue]
    exact h.loaded
  · rw [hdelivery, hqueue]
    exact h.emptied

/-- A thread goes somewhere else, with the deques as they are. -/
theorem Guarded.goTo (h : Guarded s) {place : Place} {lock : Kind → Int}
    (hlock : Exclusive (s.goTo thread place).held lock)
    (hplace : ∀ kind packet queue, place = .loaded kind packet queue → s.queue kind = queue) :
    Guarded { s.goTo thread place with lock := lock } where
  exclusive := hlock
  loaded t kind packet queue ht := by
    by_cases hthread : t = thread
    · subst hthread
      refine hplace kind packet queue ?_
      rw [← ht]
      exact (Function.update_self t place s.threads).symm
    · refine h.loaded t kind packet queue ?_
      rw [← ht]
      exact (Function.update_of_ne hthread place s.threads).symm
  emptied := h.emptied

omit [DecidableEq ι] in
/-- Who changes a deque holds its lock, so no other thread has read that deque. -/
theorem Guarded.loaded_update (h : Guarded s) {p : Option ι} {kind : Kind} (hp : s.held p = some kind)
    (queue' : List Queued) {t : ι} (ht : some t ≠ p) {kind' : Kind} {packet : Packet}
    {queue : List Queued} (hloaded : s.threads t = .loaded kind' packet queue) :
    Function.update s.queue kind queue' kind' = queue := by
  by_cases hk : kind' = kind
  · subst hk
    have hheld : s.held (some t) = some kind' := by rw [held, hloaded]; rfl
    exact absurd (h.exclusive.unique hheld hp) ht
  · rw [Function.update_of_ne hk]
    exact h.loaded t kind' packet queue hloaded

theorem guarded_advance (h : Guarded s) (thread : ι) : Guarded (advance T s thread) := by
  have hself : s.held (some thread) = (s.threads thread).held := rfl
  -- a move within the section, or outside of every section
  have hstay : ∀ place : Place, place.held = (s.threads thread).held →
      (∀ kind packet queue, place = .loaded kind packet queue → s.queue kind = queue) →
      Guarded (s.goTo thread place) := by
    intro place hheld hplace
    apply h.goTo _ hplace
    rw [goTo_same_held hheld]
    exact h.exclusive
  rw [advance]
  split
  · exact h
  · next kind packet hplace =>
    split
    · next word hturn =>
      apply h.goTo _ (by intro _ _ _ hp; cases hp)
      rw [held_goTo]
      exact h.exclusive.enter hturn (by rw [hself, hplace]; rfl)
    · exact h
  · next kind packet hplace =>
    apply hstay _ (by rw [hplace]; rfl)
    intro kind' packet' queue hp
    cases hp
    rfl
  · next kind packet queue hplace =>
    have hholder : s.held (some thread) = some kind := by rw [hself, hplace]; rfl
    constructor
    · have hheld : (s.goTo thread (.stored kind s.calls.length)).held = s.held :=
        goTo_same_held (by rw [hplace]; rfl)
      show Exclusive (s.goTo thread (.stored kind s.calls.length)).held s.lock
      rw [hheld]
      exact h.exclusive
    · intro t kind' packet' queue' ht
      have hne : t ≠ thread := by
        rintro rfl
        simp [store, goTo] at ht
      have ht' : s.threads t = .loaded kind' packet' queue' := by simpa [store, goTo, hne] using ht
      exact h.loaded_update hholder _ (by simpa using hne) ht'
    · intro kind' sendQ hdelivery
      have hne : kind' ≠ kind := by
        rintro rfl
        have hd : s.held none = some kind' := by
          rw [held, show s.delivery = _ from hdelivery]; rfl
        cases h.exclusive.unique hd hholder
      exact (Function.update_of_ne hne ..).trans (h.emptied kind' sendQ hdelivery)
  · next kind call hplace =>
    have hholder : s.held (some thread) = some kind := by rw [hself, hplace]; rfl
    rw [h.exclusive.turn_of_held hholder]
    apply h.goTo
    · rw [held_goTo]
      have hout : (kind.afterScope call).held = none := by cases kind <;> rfl
      rw [hout]
      exact h.exclusive.leave hholder
    · intro kind' packet queue hp
      cases kind <;> cases hp
  · next call hplace =>
    have hmoved := hstay (.traced call) (by rw [hplace]; rfl) (by intro _ _ _ hp; cases hp)
    exact hmoved.congr rfl rfl rfl rfl
  · next call hplace =>
    split
    · have hmoved := hstay (.foundRunning call) (by rw [hplace]; rfl) (by intro _ _ _ hp; cases hp)
      exact hmoved.congr rfl rfl rfl rfl
    · have hmoved := hstay .idle (by rw [hplace]; rfl) (by intro _ _ _ hp; cases hp)
      exact hmoved.congr rfl rfl rfl rfl
  · next call hplace =>
    have hmoved := hstay .idle (by rw [hplace]; rfl) (by intro _ _ _ hp; cases hp)
    exact hmoved.congr rfl rfl rfl rfl

omit [DecidableEq ι] in
/-- `DeliveryPacket` goes on, with the deques as they are. -/
theorem Guarded.delivery (h : Guarded s) {place : Option DrainPlace} {lock : Kind → Int}
    (hlock : Exclusive { s with delivery := place }.held lock)
    (hplace : ∀ kind sendQ, place = some (.emptied kind sendQ) → s.queue kind = []) :
    Guarded { s with delivery := place, lock := lock } where
  exclusive := hlock
  loaded := h.loaded
  emptied := hplace

theorem guarded_deliver (h : Guarded s) {place : DrainPlace} (hplace : s.delivery = some place) :
    Guarded (deliver T s place) := by
  have hself : s.held none = place.held := by rw [held, hplace]; rfl
  have hstay : ∀ place' : DrainPlace, place'.held = place.held →
      (∀ kind sendQ, some place' = some (.emptied kind sendQ) → s.queue kind = []) →
      Guarded { s with delivery := some place' } := by
    intro place' hheld hempty
    apply h.delivery _ hempty
    rw [delivery_same_held hplace hheld]
    exact h.exclusive
  cases place with
  | entering kind sendQ =>
    rw [deliver]
    split
    · next word hturn =>
      apply h.delivery _ (by intro _ _ hp; cases hp)
      rw [held_delivery]
      exact h.exclusive.enter hturn hself
    · exact h
  | entered kind sendQ =>
    rw [deliver]
    split
    · next hnil =>
      apply hstay (.emptied kind sendQ) rfl
      intro kind' sendQ' hp
      cases hp
      exact hnil
    · next e queue hcons =>
      exact hstay (.copied kind _) rfl (by intro _ _ hp; cases hp)
  | copied kind sendQ =>
    have hheld : { s with delivery := some (.entered kind sendQ) }.held = s.held :=
      delivery_same_held hplace rfl
    constructor
    · show Exclusive { s with delivery := some (.entered kind sendQ) }.held s.lock
      rw [hheld]
      exact h.exclusive
    · intro t kind' packet queue ht
      exact h.loaded_update hself _ (by simp) ht
    · intro kind' sendQ' hp
      cases hp
  | emptied kind sendQ =>
    simp only [deliver, h.exclusive.turn_of_held hself]
    apply h.delivery
    · have hout : (some (kind.afterDrain sendQ)).bind DrainPlace.held = none := by cases kind <;> rfl
      rw [held_delivery, hout]
      exact h.exclusive.leave hself
    · intro kind' sendQ' hp
      cases kind <;> cases hp
  | sending sendQ =>
    cases sendQ with
    | nil =>
      apply h.delivery _ (by intro _ _ hp; cases hp)
      rw [held_delivery]
      have hout : Function.update s.held none none = s.held :=
        (congrArg _ hself.symm).trans (Function.update_eq_self none s.held)
      show Exclusive (Function.update s.held none none) s.lock
      rw [hout]
      exact h.exclusive
    | cons head sendQ =>
      have hmoved := hstay (.sending sendQ) rfl (by intro _ _ hp; cases hp)
      exact hmoved.congr rfl rfl rfl rfl

theorem guarded_step {a : Act ι} (h : Guarded s) (hs : step T s a = some s') : Guarded s' := by
  cases a with
  | send thread kind packet =>
    simp only [step] at hs
    split at hs
    · next hidle =>
      split at hs
      · cases hs
        exact h
      · cases hs
        apply h.goTo _ (by intro _ _ _ hp; cases hp)
        rw [goTo_same_held (by rw [hidle]; rfl)]
        exact h.exclusive
    · cases hs
  | advance thread =>
    cases hs
    exact guarded_advance h thread
  | startApplication | stopApplication =>
    cases hs
    exact h.congr rfl rfl rfl rfl
  | tick now =>
    simp only [step] at hs
    split at hs
    · cases hs
      exact h.congr rfl rfl rfl rfl
    · cases hs
  | deliveryPacket =>
    simp only [step] at hs
    split at hs
    · next pending hidle hpending =>
      cases hs
      have hheld : { s with delivery := some (.entering .rtp []) }.held = s.held := by
        rw [held_delivery]
        have hnone : s.held none = none := by rw [held, hidle]; rfl
        exact (congrArg _ hnone.symm).trans (Function.update_eq_self none s.held)
      have hexclusive : Exclusive { s with delivery := some (.entering .rtp []) }.held s.lock := by
        rw [hheld]
        exact h.exclusive
      exact (h.delivery hexclusive (by intro _ _ hp; cases hp)).congr rfl rfl rfl rfl
    · cases hs
  | deliver =>
    obtain ⟨place, hplace, rfl⟩ := Option.map_eq_some_iff.mp hs
    exact guarded_deliver h hplace

theorem guarded_of_reachable {now : Int} {own : σ}
    (h : Machine.Reachable (step T) (initial (ι := ι) now own) s) : Guarded s := by
  obtain ⟨as, hrun⟩ := h
  apply Machine.invariant (I := Guarded) (fun _ _ _ h hs => guarded_step h hs) _ hrun
  constructor
  · intro kind
    exact Or.inl ⟨rfl, fun p hp => by cases p <;> cases hp⟩
  · intro t kind packet queue ht
    cases ht
  · intro kind sendQ hd
    cases hd

/-- In every interleaving: a lock word is 1 while exactly one party is between `Enter` and
`Leave`, and otherwise 0. So `Leave` never spins, and a push writes back the deque as it is, one
longer. -/
theorem sections_exclude (T : Endpoint σ δ) (now : Int) (own : σ) (s : LockedRun ι σ δ)
    (h : Machine.Reachable (step T) (initial now own) s) (kind : Kind) :
    ((s.lock kind = 0 ∧ ∀ p, s.held p ≠ some kind) ∨
        (s.lock kind = 1 ∧ ∃! p, s.held p = some kind)) ∧
      (∀ t call, s.threads t = .stored kind call →
        (advance T s t).threads t = kind.afterScope call ∧ (advance T s t).lock kind = 0) ∧
      (∀ sendQ, s.delivery = some (.emptied kind sendQ) →
        (deliver T s (.emptied kind sendQ)).delivery = some (kind.afterDrain sendQ) ∧
          (deliver T s (.emptied kind sendQ)).lock kind = 0) ∧
      ∀ t packet queue, s.threads t = .loaded kind packet queue → s.queue kind = queue := by
  have hg := guarded_of_reachable h
  refine ⟨hg.exclusive kind, ?_, ?_, fun t => hg.loaded t kind⟩
  · intro t call ht
    have hheld : s.held (some t) = some kind := by rw [held, ht]; rfl
    rw [advance, ht]
    simp only [hg.exclusive.turn_of_held hheld]
    exact ⟨Function.update_self .., Function.update_self ..⟩
  · intro sendQ hd
    have hheld : s.held none = some kind := by rw [held, hd]; rfl
    simp only [deliver, hg.exclusive.turn_of_held hheld]
    exact ⟨trivial, Function.update_self ..⟩

/-- Two threads push an RTP packet each. One is at its write, and the other spins. -/
def pushingSteps : List (Act Bool) :=
  [.startApplication, .send true .rtp [1], .send false .rtp [2], .advance true, .advance false,
    .advance true]

theorem pushingSteps_run : ∃ s : LockedRun Bool WebrtcSender WebrtcTag,
    Machine.run (step WebrtcSender.endpoint) (initial 5 { traceBw := true }) pushingSteps = some s ∧
      s.lock .rtp = 1 ∧ s.threads true = .loaded .rtp [1] [] ∧ s.threads false = .entering .rtp [2] ∧
      s.queue .rtp = [] :=
  ⟨_, rfl, rfl, rfl, rfl, rfl⟩

theorem pushing_excludes : ∃ s : LockedRun Bool WebrtcSender WebrtcTag,
    s.threads true = .loaded .rtp [1] [] ∧ s.threads false = .entering .rtp [2] ∧
      ∃! p, s.held p = some .rtp := by
  obtain ⟨s, hs, hlock, htrue, hfalse, -⟩ := pushingSteps_run
  refine ⟨s, htrue, hfalse, ?_⟩
  rcases (sections_exclude _ 5 _ s ⟨_, hs⟩ .rtp).1 with ⟨hzero, -⟩ | ⟨-, hone⟩
  · rw [hlock] at hzero
    cases hzero
  · exact hone

/-- The step of a party itself; `none` is `DeliveryPacket`. -/
def ownStep : Option ι → Act ι
  | none => .deliver
  | some thread => .advance thread

/-- After `n` steps of `p` alone, the lock is free. -/
def Frees (T : Endpoint σ δ) (s : LockedRun ι σ δ) (p : Option ι) (kind : Kind) (n : Nat) : Prop :=
  ∃ s', Machine.run (step T) s (List.replicate n (ownStep p)) = some s' ∧ s'.lock kind = 0

theorem Frees.succ {p : Option ι} {kind : Kind} {n : Nat} (hs : step T s (ownStep p) = some s')
    (h : Frees T s' p kind n) : Frees T s p kind (n + 1) := by
  obtain ⟨t, hrun, ht⟩ := h
  refine ⟨t, ?_, ht⟩
  rw [List.replicate_succ]
  exact Machine.run_cons_eq_some.mpr ⟨s', hs, hrun⟩

theorem frees_of_stored (h : Guarded s) {t : ι} {kind : Kind} {call : Nat}
    (ht : s.threads t = .stored kind call) : Frees T s (some t) kind 1 := by
  have hheld : s.held (some t) = some kind := by rw [held, ht]; rfl
  refine ⟨advance T s t, rfl, ?_⟩
  rw [advance, ht]
  simp only [h.exclusive.turn_of_held hheld]
  exact Function.update_self ..

theorem frees_of_loaded (h : Guarded s) {t : ι} {kind : Kind} {packet : Packet} {queue : List Queued}
    (ht : s.threads t = .loaded kind packet queue) : Frees T s (some t) kind 2 := by
  have hstored : (advance T s t).threads t = .stored kind s.calls.length := by
    rw [advance, ht]
    exact Function.update_self ..
  exact Frees.succ rfl (frees_of_stored (guarded_advance h t) hstored)

theorem frees_of_entered (h : Guarded s) {t : ι} {kind : Kind} {packet : Packet}
    (ht : s.threads t = .entered kind packet) : Frees T s (some t) kind 3 := by
  have hloaded : (advance T s t).threads t = .loaded kind packet (s.queue kind) := by
    rw [advance, ht]
    exact Function.update_self ..
  exact Frees.succ rfl (frees_of_loaded (guarded_advance h t) hloaded)

theorem frees_of_emptied (h : Guarded s) {kind : Kind} {sendQ : List (Kind × Packet)}
    (hd : s.delivery = some (.emptied kind sendQ)) : Frees T s none kind 1 := by
  have hheld : s.held none = some kind := by rw [held, hd]; rfl
  refine ⟨deliver T s (.emptied kind sendQ), ?_, ?_⟩
  · exact Machine.run_cons_eq_some.mpr ⟨_, by rw [ownStep, step, hd]; rfl, rfl⟩
  · simp only [deliver, h.exclusive.turn_of_held hheld]
    exact Function.update_self ..

/-- The drain takes two steps a packet. -/
theorem frees_of_draining {kind : Kind} (queue : List Queued) :
    ∀ {s : LockedRun ι σ δ} {sendQ : List (Kind × Packet)}, Guarded s → s.queue kind = queue →
      s.delivery = some (.entered kind sendQ) → Frees T s none kind (2 * queue.length + 2) := by
  induction queue with
  | nil =>
    intro s sendQ h hq hd
    have hs : step T s (ownStep none) = some { s with delivery := some (.emptied kind sendQ) } := by
      rw [ownStep, step, hd, Option.map_some, deliver, hq]
    exact Frees.succ hs (frees_of_emptied (guarded_step h hs) rfl)
  | cons e queue ih =>
    intro s sendQ h hq hd
    let copied : LockedRun ι σ δ :=
      { s with delivery := some (.copied kind (sendQ ++ [(kind, e.packet)])) }
    have hcopy : step T s (ownStep none) = some copied := by
      rw [ownStep, step, hd, Option.map_some, deliver, hq]
    have hpop : step T copied (ownStep none) = some { copied with
        queue := Function.update s.queue kind (s.queue kind).tail
        delivery := some (.entered kind (sendQ ++ [(kind, e.packet)])) } := rfl
    have hrest := ih (guarded_step (guarded_step h hcopy) hpop) (by simp [hq]) rfl
    exact Frees.succ hcopy (Frees.succ hpop hrest)

/-- Nobody who is inside a lock waits for anything: with `n` packets in its deque, at most
`2 n + 3` steps of its own take it out. -/
theorem holder_leaves (T : Endpoint σ δ) (now : Int) (own : σ) (s : LockedRun ι σ δ)
    (h : Machine.Reachable (step T) (initial now own) s) (p : Option ι) (kind : Kind)
    (hp : s.held p = some kind) : ∃ n ≤ 2 * (s.queue kind).length + 3, Frees T s p kind n := by
  have hg := guarded_of_reachable h
  cases p with
  | some t =>
    rw [held] at hp
    cases hplace : s.threads t with
    | entered kind' packet =>
      rw [hplace] at hp
      cases hp
      exact ⟨3, by omega, frees_of_entered hg hplace⟩
    | loaded kind' packet queue =>
      rw [hplace] at hp
      cases hp
      exact ⟨2, by omega, frees_of_loaded hg hplace⟩
    | stored kind' call =>
      rw [hplace] at hp
      cases hp
      exact ⟨1, by omega, frees_of_stored hg hplace⟩
    | idle | entering | pushed | traced | foundRunning =>
      rw [hplace] at hp
      cases hp
  | none =>
    rw [held] at hp
    obtain ⟨place, hplace, hp⟩ := Option.bind_eq_some_iff.mp hp
    cases place with
    | entered kind' sendQ =>
      cases hp
      exact ⟨_, by omega, frees_of_draining _ hg rfl hplace⟩
    | copied kind' sendQ =>
      cases hp
      have hpop : step T s (ownStep none) = some { s with
          queue := Function.update s.queue kind (s.queue kind).tail
          delivery := some (.entered kind sendQ) } := by
        rw [ownStep, step, hplace, Option.map_some, deliver]
      have hrest := frees_of_draining (T := T) _ (guarded_step hg hpop) rfl rfl
      refine ⟨_, ?_, Frees.succ hpop hrest⟩
      have htail := List.length_tail (l := s.queue kind)
      simp only [Function.update_self]
      omega
    | emptied kind' sendQ =>
      cases hp
      exact ⟨1, by omega, frees_of_emptied hg hplace⟩
    | entering | sending => cases hp

theorem pushing_leaves : ∃ s : LockedRun Bool WebrtcSender WebrtcTag,
    s.lock .rtp = 1 ∧ ∃ n ≤ 3, Frees WebrtcSender.endpoint s (some true) .rtp n := by
  obtain ⟨s, hs, hlock, htrue, -, hqueue⟩ := pushingSteps_run
  have hheld : s.held (some true) = some .rtp := by rw [held, htrue]; rfl
  obtain ⟨n, hn, hfrees⟩ := holder_leaves _ 5 _ s ⟨_, hs⟩ (some true) .rtp hheld
  rw [hqueue] at hn
  exact ⟨s, hlock, n, hn, hfrees⟩

end LockedRun

end WebrtcGccNs3.Wire
