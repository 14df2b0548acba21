import WebrtcGccNs3.Lib.BucketMap
import WebrtcGccNs3.Lib.Machine
import Mathlib.Data.List.Range
import Mathlib.Data.List.Nodup

/-!
# A timed FIFO drained at clock times

The purpose of a task queue with delays, over any linear order of times. A posting
is immediate or has a due time. A drain records the clock as its time, migrates
the due postings behind the immediate ones, runs the FIFO until it is empty and
ends. Postings arrive at any moment, also during a drain. The machine keeps the
history of what was posted and what was run, and the theorems are about it.
-/

/-- One act of posting: its number in posting order, and its due time if it has one. -/
structure Posting (T : Type) where
  id : Nat
  due : Option T
  deriving DecidableEq, Repr

namespace Posting

variable {T : Type} [LinearOrder T]

/-- Strict lexicographic order by due time, then by posting number. -/
def Before (p q : Posting T) : Prop :=
  ∃ s t, p.due = some s ∧ q.due = some t ∧ (s < t ∨ s = t ∧ p.id < q.id)

end Posting

structure TimedFifo (T : Type) [LinearOrder T] where
  now : T
  ready : List (Posting T)
  delayed : BucketMap T (Posting T)
  /-- The time of the drain under way, and whether it has migrated the due postings. -/
  drain : Option (T × Bool)
  posted : List (Posting T)
  /-- What was run so far, each with the time of the drain that ran it. -/
  ran : List (Posting T × T)

namespace TimedFifo

variable {T : Type} [LinearOrder T]

inductive Act (T : Type) where
  | post
  | postDelayed (due : T)
  | tick (now : T)
  | begin
  | migrate
  | start
  | finish

/-- The posting that a post makes next. -/
def next (s : TimedFifo T) (due : Option T) : Posting T := ⟨s.posted.length, due⟩

def step (s : TimedFifo T) : Act T → Option (TimedFifo T)
  | .post => some { s with
      ready := s.ready ++ [s.next none], posted := s.posted ++ [s.next none] }
  | .postDelayed t =>
    if s.now ≤ t then some { s with
      delayed := s.delayed.push t (s.next (some t)), posted := s.posted ++ [s.next (some t)] }
    else none
  | .tick t => if s.now ≤ t then some { s with now := t } else none
  | .begin => if s.drain = none then some { s with drain := some (s.now, false) } else none
  | .migrate =>
    match s.drain with
    | some (t, false) => some { s with
        ready := s.ready ++ s.delayed.due t, delayed := s.delayed.dropDue t, drain := some (t, true) }
    | _ => none
  | .start =>
    match s.drain, s.ready with
    | some (t, true), p :: rest => some { s with ready := rest, ran := s.ran ++ [(p, t)] }
    | _, _ => none
  | .finish =>
    match s.drain, s.ready with
    | some (_, true), [] => some { s with drain := none }
    | _, _ => none

def initial (now : T) : TimedFifo T := ⟨now, [], ∅, none, [], []⟩

/-- The postings run so far, in the order they were run. -/
def ranPostings (s : TimedFifo T) : List (Posting T) := s.ran.map Prod.fst

/-- What was run and what stands in the FIFO, in the order of running. -/
def line (s : TimedFifo T) : List (Posting T) := s.ranPostings ++ s.ready

structure Inv (s : TimedFifo T) : Prop where
  ids : s.posted.map Posting.id = List.range s.posted.length
  exact : (s.line ++ s.delayed.values).Perm s.posted
  keys : ∀ e ∈ s.delayed.entries, e.2.due = some e.1
  immediate : s.line.filter (·.due.isNone) = s.posted.filter (·.due.isNone)
  ordered : (s.line.filter (·.due.isSome) ++ s.delayed.values).Pairwise Posting.Before
  past : ∀ p ∈ s.line, ∀ t, p.due = some t → t ≤ s.now
  onTime : ∀ r ∈ s.ran, ∀ t, r.1.due = some t → t ≤ r.2
  readyDue : ∀ p ∈ s.ready, ∀ t, p.due = some t → ∃ u, s.drain = some (u, true) ∧ t ≤ u
  drainPast : ∀ u b, s.drain = some (u, b) → u ≤ s.now

theorem inv_initial (now : T) : Inv (initial now) := by
  constructor <;> simp [initial, line, ranPostings]

section Steps

variable {s : TimedFifo T} {t : T}

theorem Inv.id_lt (h : Inv s) {p : Posting T} (hp : p ∈ s.posted) : p.id < s.posted.length := by
  have hm := List.mem_map_of_mem (f := Posting.id) hp
  rw [h.ids] at hm
  exact List.mem_range.mp hm

theorem ids_snoc (h : Inv s) (due : Option T) :
    (s.posted ++ [s.next due]).map Posting.id = List.range (s.posted ++ [s.next due]).length := by
  rw [List.map_append, h.ids, List.length_append, List.length_singleton, List.range_succ]
  rfl

theorem inv_post (h : Inv s) :
    Inv { s with ready := s.ready ++ [s.next none], posted := s.posted ++ [s.next none] } := by
  have hl : ({ s with
      ready := s.ready ++ [s.next none], posted := s.posted ++ [s.next none] } : TimedFifo T).line =
      s.line ++ [s.next none] := by
    simp [line, ranPostings]
  refine ⟨ids_snoc h _, ?_, h.keys, ?_, ?_, ?_, h.onTime, ?_, h.drainPast⟩
  · rw [hl, List.append_assoc]
    exact (List.perm_append_comm_assoc _ _ _).trans
      ((h.exact.append_left _).trans List.perm_append_comm)
  · rw [hl, List.filter_append, h.immediate, List.filter_append]
  · rw [hl, List.filter_append]
    simpa [next] using h.ordered
  · intro p hp u hu
    rw [hl, List.mem_append, List.mem_singleton] at hp
    rcases hp with hp | rfl
    · exact h.past p hp u hu
    · cases hu
  · intro p hp u hu
    rcases List.mem_append.mp hp with hp | hp
    · exact h.readyDue p hp u hu
    · rw [List.mem_singleton.mp hp] at hu
      cases hu

/-- A posting with a due time that is not past goes behind everything that was
migrated and into its place among the postings still delayed. -/
theorem ordered_push (h : Inv s) (ht : s.now ≤ t) :
    (s.line.filter (·.due.isSome) ++ (s.delayed.push t (s.next (some t))).values).Pairwise
      Posting.Before := by
  obtain ⟨l, r, hm, hp, hl, hr⟩ := BucketMap.entries_push s.delayed t (s.next (some t))
  have ho := h.ordered
  rw [BucketMap.values_eq, hm, List.map_append, ← List.append_assoc] at ho
  rw [BucketMap.values_eq, hp, List.map_append, List.map_cons, ← List.append_assoc]
  have hid : ∀ p ∈ s.line ++ s.delayed.values, p.id < s.posted.length :=
    fun p hmem => h.id_lt (h.exact.mem_iff.mp hmem)
  have hleft : ∀ p ∈ s.line.filter (·.due.isSome) ++ l.map Prod.snd,
      Posting.Before p (s.next (some t)) := by
    intro p hmem
    have hpast : ∃ u, p.due = some u ∧ u ≤ t ∧ p ∈ s.line ++ s.delayed.values := by
      rcases List.mem_append.mp hmem with hmem | hmem
      · obtain ⟨hmem, hsome⟩ := List.mem_filter.mp hmem
        obtain ⟨u, hu⟩ := Option.isSome_iff_exists.mp hsome
        exact ⟨u, hu, (h.past p hmem u hu).trans ht, List.mem_append_left _ hmem⟩
      · obtain ⟨e, he, rfl⟩ := List.mem_map.mp hmem
        have he' : e ∈ s.delayed.entries := hm ▸ List.mem_append_left _ he
        refine ⟨e.1, h.keys e he', hl e he, List.mem_append_right _ ?_⟩
        rw [BucketMap.values_eq]
        exact List.mem_map_of_mem he'
    obtain ⟨u, hu, hut, hmem⟩ := hpast
    exact ⟨u, t, hu, rfl, (lt_or_eq_of_le hut).imp_right fun he => ⟨he, hid p hmem⟩⟩
  have hright : ∀ q ∈ r.map Prod.snd, Posting.Before (s.next (some t)) q := by
    intro q hmem
    obtain ⟨e, he, rfl⟩ := List.mem_map.mp hmem
    exact ⟨t, e.1, rfl, h.keys e (hm ▸ List.mem_append_right _ he), Or.inl (hr e he)⟩
  obtain ⟨hl', hr', hcross⟩ := List.pairwise_append.mp ho
  refine List.pairwise_append.mpr ⟨hl', List.pairwise_cons.mpr ⟨hright, hr'⟩, fun p hp q hq => ?_⟩
  rcases List.mem_cons.mp hq with rfl | hq
  · exact hleft p hp
  · exact hcross p hp q hq

theorem inv_postDelayed (h : Inv s) (ht : s.now ≤ t) :
    Inv { s with delayed := s.delayed.push t (s.next (some t)),
                 posted := s.posted ++ [s.next (some t)] } := by
  refine ⟨ids_snoc h _, ?_, ?_, ?_, ordered_push h ht, h.past, h.onTime, h.readyDue, h.drainPast⟩
  · exact ((BucketMap.values_push_perm _ _ _).append_left _).trans
      (List.perm_middle.trans ((h.exact.cons _).trans (List.perm_append_singleton _ _).symm))
  · intro e he
    rcases BucketMap.mem_entries_push.mp he with rfl | he
    · rfl
    · exact h.keys e he
  · have hi : s.line.filter (·.due.isNone) =
        (s.posted ++ [s.next (some t)]).filter (·.due.isNone) := by
      rw [List.filter_append]
      simpa [next] using h.immediate
    exact hi

theorem inv_tick (h : Inv s) (ht : s.now ≤ t) : Inv { s with now := t } :=
  ⟨h.ids, h.exact, h.keys, h.immediate, h.ordered, fun p hp u hu => (h.past p hp u hu).trans ht,
    h.onTime, h.readyDue, fun u b hu => (h.drainPast u b hu).trans ht⟩

theorem inv_begin (h : Inv s) (hd : s.drain = none) : Inv { s with drain := some (s.now, false) } := by
  refine ⟨h.ids, h.exact, h.keys, h.immediate, h.ordered, h.past, h.onTime, ?_, ?_⟩
  · intro p hp u hu
    obtain ⟨v, hv, -⟩ := h.readyDue p hp u hu
    rw [hd] at hv
    cases hv
  · intro u b hu
    cases hu
    exact le_refl _

/-- Migration moves the due postings across the border between the map and the
FIFO; the concatenation of both does not change. -/
theorem inv_migrate (h : Inv s) (hd : s.drain = some (t, false)) :
    Inv { s with ready := s.ready ++ s.delayed.due t, delayed := s.delayed.dropDue t,
                 drain := some (t, true) } := by
  have hdue : ∀ p ∈ s.delayed.due t, ∃ u, p.due = some u ∧ u ≤ t := by
    intro p hp
    rw [BucketMap.due_eq] at hp
    obtain ⟨e, he, rfl⟩ := List.mem_map.mp hp
    obtain ⟨hmem, hle⟩ := BucketMap.mem_dueEntries.mp he
    exact ⟨e.1, h.keys e hmem, hle⟩
  have htnow := h.drainPast t false hd
  have hnone : (s.delayed.due t).filter (·.due.isNone) = [] := by
    rw [List.filter_eq_nil_iff]
    intro p hp
    obtain ⟨u, hu, -⟩ := hdue p hp
    simp [hu]
  have hsome : (s.delayed.due t).filter (·.due.isSome) = s.delayed.due t := by
    rw [List.filter_eq_self]
    intro p hp
    obtain ⟨u, hu, -⟩ := hdue p hp
    simp [hu]
  refine ⟨h.ids, ?_, ?_, ?_, ?_, ?_, h.onTime, ?_, ?_⟩
  · have he := h.exact
    rw [← BucketMap.due_append s.delayed t] at he
    simpa [line, ranPostings] using he
  · exact fun e he => h.keys e (BucketMap.mem_dropDue.mp he).1
  · have hi := h.immediate
    simp only [line, List.filter_append] at hi ⊢
    rw [hnone, List.append_nil]
    exact hi
  · have ho := h.ordered
    rw [← BucketMap.due_append s.delayed t] at ho
    simp only [line, ranPostings, List.filter_append] at ho ⊢
    rw [hsome]
    simpa only [List.append_assoc] using ho
  · intro p hp u hu
    simp only [line, ranPostings, List.mem_append, ← or_assoc] at hp
    rcases hp with hp | hp
    · exact h.past p (List.mem_append.mpr hp) u hu
    · obtain ⟨v, hv, hvt⟩ := hdue p hp
      rw [hv] at hu
      exact Option.some.inj hu ▸ hvt.trans htnow
  · intro p hp u hu
    refine ⟨t, rfl, ?_⟩
    rcases List.mem_append.mp hp with hp | hp
    · obtain ⟨v, hv, -⟩ := h.readyDue p hp u hu
      rw [hd] at hv
      cases hv
    · obtain ⟨v, hv, hvt⟩ := hdue p hp
      rw [hv] at hu
      exact Option.some.inj hu ▸ hvt
  · intro u b hu
    cases hu
    exact htnow

theorem inv_start (h : Inv s) {p : Posting T} {rest : List (Posting T)}
    (hd : s.drain = some (t, true)) (hr : s.ready = p :: rest) :
    Inv { s with ready := rest, ran := s.ran ++ [(p, t)] } := by
  have hl : ({ s with ready := rest, ran := s.ran ++ [(p, t)] } : TimedFifo T).line = s.line := by
    simp [line, ranPostings, hr]
  refine ⟨h.ids, ?_, h.keys, ?_, ?_, ?_, ?_, ?_, h.drainPast⟩
  · rw [hl]
    exact h.exact
  · rw [hl]
    exact h.immediate
  · rw [hl]
    exact h.ordered
  · rw [hl]
    exact h.past
  · intro r hmem u hu
    rcases List.mem_append.mp hmem with hmem | hmem
    · exact h.onTime r hmem u hu
    · rw [List.mem_singleton.mp hmem] at hu ⊢
      obtain ⟨v, hv, huv⟩ := h.readyDue p (hr ▸ List.mem_cons_self) u hu
      rw [hd] at hv
      cases hv
      exact huv
  · exact fun q hq => h.readyDue q (hr ▸ List.mem_cons_of_mem _ hq)

theorem inv_finish (h : Inv s) (hr : s.ready = []) : Inv { s with drain := none } := by
  refine ⟨h.ids, h.exact, h.keys, h.immediate, h.ordered, h.past, h.onTime, ?_, ?_⟩
  · intro p hp
    rw [hr] at hp
    cases hp
  · intro u b hu
    cases hu

end Steps

/-- What one action can do, with its guard. -/
inductive Move (s : TimedFifo T) : Act T → TimedFifo T → Prop where
  | post : Move s .post { s with
      ready := s.ready ++ [s.next none], posted := s.posted ++ [s.next none] }
  | postDelayed {t : T} (ht : s.now ≤ t) : Move s (.postDelayed t) { s with
      delayed := s.delayed.push t (s.next (some t)), posted := s.posted ++ [s.next (some t)] }
  | tick {t : T} (ht : s.now ≤ t) : Move s (.tick t) { s with now := t }
  | begin (hd : s.drain = none) : Move s .begin { s with drain := some (s.now, false) }
  | migrate {t : T} (hd : s.drain = some (t, false)) : Move s .migrate { s with
      ready := s.ready ++ s.delayed.due t, delayed := s.delayed.dropDue t, drain := some (t, true) }
  | start {t : T} {p : Posting T} {rest : List (Posting T)} (hd : s.drain = some (t, true))
      (hr : s.ready = p :: rest) :
      Move s .start { s with ready := rest, ran := s.ran ++ [(p, t)] }
  | finish {t : T} (hd : s.drain = some (t, true)) (hr : s.ready = []) :
      Move s .finish { s with drain := none }

theorem move_of_step {s s' : TimedFifo T} {a : Act T} (h : step s a = some s') : Move s a s' := by
  cases a with
  | post =>
    cases h
    exact .post
  | postDelayed t | tick t =>
    simp only [step] at h
    split at h
    · rename_i ht
      cases h
      constructor
      exact ht
    · cases h
  | begin | migrate =>
    simp only [step] at h
    split at h
    · rename_i hd
      cases h
      constructor
      exact hd
    · cases h
  | start =>
    simp only [step] at h
    split at h
    · rename_i t p rest hd hr
      cases h
      exact .start hd hr
    · cases h
  | finish =>
    simp only [step] at h
    split at h
    · rename_i t hd hr
      cases h
      exact .finish hd hr
    · cases h

theorem inv_step {s s' : TimedFifo T} {a : Act T} (h : Inv s) (hs : step s a = some s') : Inv s' := by
  cases move_of_step hs with
  | post => exact inv_post h
  | postDelayed ht => exact inv_postDelayed h ht
  | tick ht => exact inv_tick h ht
  | begin hd => exact inv_begin h hd
  | migrate hd => exact inv_migrate h hd
  | start hd hr => exact inv_start h hd hr
  | finish hd hr => exact inv_finish h hr

theorem inv_of_reachable {now : T} {s : TimedFifo T}
    (h : Machine.Reachable step (initial now) s) : Inv s := by
  obtain ⟨as, h⟩ := h
  exact Machine.invariant (I := Inv) (fun _ _ _ hI hs => inv_step hI hs) (inv_initial now) h

/-! ## What a drain completes -/

/-- A posting that stands in the FIFO, or is due at the clock. -/
def Pending (s : TimedFifo T) (p : Posting T) : Prop :=
  p ∈ s.ready ∨ ∃ k, k ≤ s.now ∧ (k, p) ∈ s.delayed.entries

/-- The drain with time `u` still owes `p`, or `p` was run. -/
def Owed (u : T) (p : Posting T) (s : TimedFifo T) : Prop :=
  p ∈ s.ranPostings ∨ ∃ b, s.drain = some (u, b) ∧
    (p ∈ s.ready ∨ b = false ∧ ∃ k, k ≤ u ∧ (k, p) ∈ s.delayed.entries)

theorem ran_step {p : Posting T} {s s' : TimedFifo T} {a : Act T} (h : p ∈ s.ranPostings)
    (hs : step s a = some s') : p ∈ s'.ranPostings := by
  cases move_of_step hs with
  | start hd hr => simpa [ranPostings] using Or.inl h
  | post | postDelayed | tick | begin | migrate | finish => exact h

theorem owed_step {u : T} {p : Posting T} {s s' : TimedFifo T} {a : Act T}
    (h : Owed u p s) (hs : step s a = some s') : Owed u p s' := by
  rcases h with h | ⟨b, hb, h⟩
  · exact Or.inl (ran_step h hs)
  · cases move_of_step hs with
    | post => exact Or.inr ⟨b, hb, h.imp_left (List.mem_append_left _)⟩
    | postDelayed ht =>
      refine Or.inr ⟨b, hb, h.imp_right fun ⟨hf, k, hk, he⟩ => ⟨hf, k, hk, ?_⟩⟩
      exact BucketMap.mem_entries_push.mpr (Or.inr he)
    | tick ht => exact Or.inr ⟨b, hb, h⟩
    | begin hd =>
      rw [hb] at hd
      cases hd
    | migrate hd =>
      rw [hb] at hd
      cases hd
      refine Or.inr ⟨true, rfl, Or.inl (List.mem_append.mpr ?_)⟩
      refine h.imp_right fun ⟨_, k, hk, he⟩ => ?_
      rw [BucketMap.due_eq]
      exact List.mem_map_of_mem (f := Prod.snd) (BucketMap.mem_dueEntries.mpr ⟨he, hk⟩)
    | start hd hr =>
      rw [hb] at hd
      cases hd
      rcases h with h | ⟨hf, -⟩
      · rw [hr] at h
        rcases List.mem_cons.mp h with rfl | h
        · exact Or.inl (by simp [ranPostings])
        · exact Or.inr ⟨true, hb, Or.inl h⟩
      · cases hf
    | finish hd hr =>
      rw [hb] at hd
      cases hd
      rcases h with h | ⟨hf, -⟩
      · rw [hr] at h
        cases h
      · cases hf

/-- Whatever is pending when a drain begins has run once no drain is under way. -/
theorem ran_of_pending {s s₁ s' : TimedFifo T} {p : Posting T} (hp : Pending s p)
    (hb : step s .begin = some s₁) (hr : Machine.Reachable step s₁ s') (hd : s'.drain = none) :
    p ∈ s'.ranPostings := by
  have hs₁ : s₁ = { s with drain := some (s.now, false) } := by
    simp only [step] at hb
    split at hb
    · exact (Option.some.inj hb).symm
    · cases hb
  have howed : Owed s.now p s₁ := by
    subst hs₁
    exact Or.inr ⟨false, rfl, hp.imp_right fun h => ⟨rfl, h⟩⟩
  obtain ⟨as, hr⟩ := hr
  have hkeep := Machine.invariant (I := Owed s.now p) (fun _ _ _ hI hs => owed_step hI hs) howed hr
  rcases hkeep with h | ⟨b, hb, -⟩
  · exact h
  · rw [hd] at hb
    cases hb

end TimedFifo
