import WebrtcGccNs3.Lib.Machine
import WebrtcGccNs3.Wire.BandwidthChanger

/-!
# BandwidthChanger at work

`Start` schedules the first change of the rate, and each `ResetBandwidth` the next one,
by the difference of two entries of `m_info`. `Simulator::Schedule` takes a delay that is
not negative; anything else is `none`, and so is an access out of the bounds of
`m_info`. The `NS_ASSERT` on increasing times is compiled out. `m_index` has 32 bits.
-/
namespace WebrtcGccNs3.Wire

/-- Bits per second. -/
abbrev DataRate := UInt64

def dataRate (bps : Int) : DataRate := UInt64.ofInt bps

structure ChangerRun where
  now : Time
  changer : BandwidthChanger
  index : UInt32
  /-- The rate of the device, once there is one. -/
  device : Option DataRate
  /-- When the event of `m_timer` is due, if it has not expired. -/
  timer : Option Time
  /-- The changes made so far. -/
  changes : List (Time × DataRate)

namespace ChangerRun

inductive Act where
  | config (initialBps : Int) (info : List (Time × Int))
  | registerDevice (rate : DataRate)
  | start
  | resetBandwidth
  | tick (now : Time)

def initial : ChangerRun := ⟨0, {}, 0, none, none, []⟩

def schedule (s : ChangerRun) (delay : Time) : Option ChangerRun :=
  if 0 ≤ delay then some { s with timer := some (s.now + delay) } else none

def start (s : ChangerRun) : Option ChangerRun :=
  if s.changer.info.length > 0 then do
    let e ← s.changer.info[s.index.toNat]?
    s.schedule e.1
  else some s

def resetBandwidth (s : ChangerRun) : Option ChangerRun :=
  if s.timer.isNone ∧ s.device.isSome then do
    let e ← s.changer.info[s.index.toNat]?
    let s := { s with
      device := some (dataRate e.2)
      changes := s.changes ++ [(s.now, dataRate e.2)]
      index := s.index + 1 }
    if s.index.toNat < s.changer.info.length then do
      let e ← s.changer.info[s.index.toNat]?
      let previous ← s.changer.info[(s.index - 1).toNat]?
      s.schedule (e.1 - previous.1)
    else some s
  else some s

/-- An event has expired when it executes. No time passes before it does. -/
def step (s : ChangerRun) : Act → Option ChangerRun
  | .config initialBps info => some { s with changer := ⟨initialBps, info⟩ }
  | .registerDevice rate => some { s with device := some rate }
  | .start => s.start
  | .resetBandwidth => s.timer.bind fun due => resetBandwidth { s with now := due, timer := none }
  | .tick now => if s.now ≤ now ∧ ∀ due ∈ s.timer, now ≤ due then some { s with now := now } else none

/-- The calls before the simulation, in each order in which `Start` finds the schedule. -/
def setups (initialBps : Int) (info : List (Time × Int)) (rate : DataRate) : List (List Act) :=
  [[.config initialBps info, .registerDevice rate, .start],
    [.config initialBps info, .start, .registerDevice rate],
    [.registerDevice rate, .config initialBps info, .start]]

def Event : Act → Prop
  | .resetBandwidth | .tick _ => True
  | _ => False

/-- The rate of the last entry not after `t`, or else the device's own. -/
def rateInForce (rate : DataRate) (info : List (Time × Int)) (t : Time) : DataRate :=
  ((info.filter (·.1 ≤ t)).getLast?.map fun e => dataRate e.2).getD rate

/-- On a device that starts with the changer's own rate it is the rate that `TotalThroughput`
should integrate. -/
theorem rateInForce_eq_rateAt (b : BandwidthChanger) (h : b.info.Pairwise fun e e' => e.1 < e'.1)
    (t : Time) : rateInForce (dataRate b.initialRate) b.info t = dataRate (b.rateAt t) := by
  obtain ⟨initialRate, info⟩ := b
  show rateInForce (dataRate initialRate) info t = dataRate (BandwidthChanger.rateFrom initialRate info t)
  induction info generalizing initialRate with
  | nil => rfl
  | cons e info ih =>
    obtain ⟨hlt, hsorted⟩ := List.pairwise_cons.mp h
    rw [BandwidthChanger.rateFrom, rateInForce]
    by_cases hbefore : t < e.1
    · have hnone : (e :: info).filter (·.1 ≤ t) = [] := by
        apply List.filter_eq_nil_iff.mpr
        intro e' he'
        rcases List.mem_cons.mp he' with rfl | he'
        · simpa using hbefore
        · simpa using hbefore.trans (hlt e' he')
      rw [if_pos hbefore, hnone]
      rfl
    · have hfilter : (e :: info).filter (·.1 ≤ t) = e :: info.filter (·.1 ≤ t) :=
        List.filter_cons_of_pos (by simpa using not_lt.mp hbefore)
      rw [if_neg hbefore, ← ih e.2 hsorted, hfilter, List.getLast?_cons, rateInForce]
      cases (info.filter (·.1 ≤ t)).getLast? <;> rfl

/-- The schedule is applied as it stands, up to the present. -/
structure Applied (rate : DataRate) (info : List (Time × Int)) (s : ChangerRun) : Prop where
  /-- Each change so far was made at its time. -/
  changes : s.changes = (info.take s.changes.length).map fun e => (e.1, dataRate e.2)
  /-- The next one is pending, if there is one. -/
  timer : s.timer = info[s.changes.length]?.map (·.1)
  /-- It does not fail. -/
  fires : s.timer ≠ none → ∃ s', step s .resetBandwidth = some s'
  /-- The rate is right once the events of the present are over. -/
  device : (∀ due ∈ s.timer, s.now < due) → s.device = some (rateInForce rate info s.now)

/-- After the entries `done`, with `rest` to come. -/
structure Reached (rate : DataRate) (done rest : List (Time × Int)) (s : ChangerRun) : Prop where
  info : s.changer.info = done ++ rest
  index : s.index.toNat = done.length
  changes : s.changes = done.map fun e => (e.1, dataRate e.2)
  timer : s.timer = rest.head?.map (·.1)
  device : s.device = some ((done.getLast?.map fun e => dataRate e.2).getD rate)
  past : ∀ e ∈ done, e.1 ≤ s.now
  future : ∀ e ∈ rest, s.now ≤ e.1

section Steps

variable {rate : DataRate} {done rest info : List (Time × Int)} {e : Time × Int} {s s' : ChangerRun}

/-- Entries in order, from either side of the next one. -/
theorem lt_of_mem_rest (hsorted : (done ++ e :: rest).Pairwise fun e e' => e.1 < e'.1)
    {e' : Time × Int} (he' : e' ∈ rest) : e.1 < e'.1 :=
  (List.pairwise_cons.mp (List.pairwise_append.mp hsorted).2.1).1 e' he'

theorem lt_of_mem_done (hsorted : (done ++ e :: rest).Pairwise fun e e' => e.1 < e'.1)
    {e' : Time × Int} (he' : e' ∈ done) : e'.1 < e.1 :=
  (List.pairwise_append.mp hsorted).2.2 e' he' e List.mem_cons_self

theorem Reached.entry (h : Reached rate done (e :: rest) s) :
    s.changer.info[s.index.toNat]? = some e := by
  rw [h.info, h.index, List.getElem?_append_right (Nat.le_refl _), Nat.sub_self]
  rfl

theorem start_eq {initialBps : Int} (hinfo : ∀ e ∈ info, 0 ≤ e.1) (device : Option DataRate) :
    start ⟨0, ⟨initialBps, info⟩, 0, device, none, []⟩ =
      some ⟨0, ⟨initialBps, info⟩, 0, device, info.head?.map (·.1), []⟩ := by
  cases info with
  | nil => rfl
  | cons e info =>
    have he : 0 ≤ e.1 := hinfo e List.mem_cons_self
    simp [start, schedule, he]

theorem reached_setup {initialBps : Int} (hinfo : ∀ e ∈ info, 0 ≤ e.1) {setup : List Act}
    (h : setup ∈ setups initialBps info rate) :
    ∃ s, Machine.run step initial setup = some s ∧ Reached rate [] info s := by
  refine ⟨⟨0, ⟨initialBps, info⟩, 0, some rate, info.head?.map (·.1), []⟩, ?_, rfl, rfl, rfl, rfl, rfl,
    fun e he => absurd he List.not_mem_nil, hinfo⟩
  simp only [setups, List.mem_cons, List.not_mem_nil, or_false] at h
  rcases h with rfl | rfl | rfl <;> simp [Machine.run, step, initial, start_eq hinfo]

/-- The event of the next entry, as long as the index does not wrap. -/
theorem reached_resetBandwidth (h : Reached rate done (e :: rest) s)
    (hsorted : (done ++ e :: rest).Pairwise fun e e' => e.1 < e'.1)
    (hlength : done.length + 1 < 2 ^ 32) :
    ∃ s', step s .resetBandwidth = some s' ∧ Reached rate (done ++ [e]) rest s' := by
  have hentry := h.entry
  obtain ⟨hinfo, hindex, hchanges, htimer, hdevice, hpast, hfuture⟩ := h
  have htimer : s.timer = some e.1 := htimer
  have hnext : (s.index + 1).toNat = done.length + 1 := by
    rw [UInt32.toNat_add, hindex, show (1 : UInt32).toNat = 1 from rfl]
    omega
  have hprevious : s.index + 1 - 1 = s.index := by simp
  have hstep : step s .resetBandwidth = some { s with
      now := e.1
      index := s.index + 1
      device := some (dataRate e.2)
      changes := s.changes ++ [(e.1, dataRate e.2)]
      timer := rest.head?.map (·.1) } := by
    simp only [step, resetBandwidth, htimer, hdevice, hentry, hnext, hprevious, Option.bind_some]
    cases rest with
    | nil =>
      have hend : ¬ done.length + 1 < s.changer.info.length := by simp [hinfo]
      simp [hend]
    | cons e' rest =>
      have hentry' : s.changer.info[done.length + 1]? = some e' := by simp [hinfo]
      obtain ⟨hmore, hget⟩ := List.getElem?_eq_some_iff.mp hentry'
      have hlt : e.1 < e'.1 := lt_of_mem_rest hsorted List.mem_cons_self
      simp [hmore, hget, schedule, hlt.le]
  refine ⟨_, hstep, ?_⟩
  constructor
  · rw [hinfo, List.append_assoc, List.singleton_append]
  · rw [hnext, List.length_append, List.length_singleton]
  · rw [hchanges, List.map_append, List.map_singleton]
  · rfl
  · simp
  · intro e' he'
    rcases List.mem_append.mp he' with he' | he'
    · exact (lt_of_mem_done hsorted he').le
    · exact (List.mem_singleton.mp he' ▸ le_refl _)
  · intro e' he'
    exact (lt_of_mem_rest hsorted he').le

/-- When the index wraps, the next delay would lead back to the first entry. -/
theorem resetBandwidth_eq_none (h : Reached rate done (e :: rest) s)
    (hsorted : (done ++ e :: rest).Pairwise fun e e' => e.1 < e'.1)
    (hlength : done.length + 1 = 2 ^ 32) : step s .resetBandwidth = none := by
  have hentry := h.entry
  obtain ⟨hinfo, hindex, -, htimer, hdevice, -, -⟩ := h
  have htimer : s.timer = some e.1 := htimer
  have hprevious : s.index + 1 - 1 = s.index := by simp
  have hnext : (s.index + 1).toNat = 0 := by
    rw [UInt32.toNat_add, hindex, show (1 : UInt32).toNat = 1 from rfl]
    omega
  obtain ⟨first, done, rfl⟩ := List.exists_cons_of_ne_nil (l := done) (by rintro rfl; simp at hlength)
  have hfirst : s.changer.info[0]? = some first := by rw [hinfo]; rfl
  have hlt : first.1 < e.1 := lt_of_mem_done hsorted List.mem_cons_self
  obtain ⟨hmore, hget⟩ := List.getElem?_eq_some_iff.mp hfirst
  simp only [step, resetBandwidth, htimer, hdevice, hentry, hnext, hprevious, Option.bind_some]
  simp [hmore, hget, schedule, hlt]

theorem reached_tick (h : Reached rate done rest s)
    (hsorted : (done ++ rest).Pairwise fun e e' => e.1 < e'.1) {now : Time}
    (hs : step s (.tick now) = some s') : Reached rate done rest s' := by
  simp only [step] at hs
  split at hs
  · rename_i hnow
    cases hs
    refine { h with past := fun e he => (h.past e he).trans hnow.1, future := fun e he => ?_ }
    cases rest with
    | nil => cases he
    | cons first rest =>
      have hfirst : now ≤ first.1 := hnow.2 first.1 h.timer
      rcases List.mem_cons.mp he with rfl | he
      · exact hfirst
      · exact hfirst.trans (lt_of_mem_rest hsorted he).le
  · cases hs

theorem applied_of_reached (h : Reached rate done rest s)
    (hsorted : (done ++ rest).Pairwise fun e e' => e.1 < e'.1)
    (hlength : (done ++ rest).length < 2 ^ 32) : Applied rate (done ++ rest) s := by
  have hchanges : s.changes.length = done.length := by rw [h.changes, List.length_map]
  constructor
  · rw [hchanges, List.take_left, h.changes]
  · rw [hchanges, h.timer, List.getElem?_append_right (Nat.le_refl _), Nat.sub_self, List.head?_eq_getElem?]
  · intro hpending
    cases rest with
    | nil => exact absurd h.timer hpending
    | cons e rest =>
      have hmore : done.length + 1 < 2 ^ 32 := by
        rw [List.length_append, List.length_cons] at hlength
        omega
      obtain ⟨s', hs, -⟩ := reached_resetBandwidth h hsorted hmore
      exact ⟨s', hs⟩
  · intro hover
    have hpast : done.filter (·.1 ≤ s.now) = done :=
      List.filter_eq_self.mpr fun e he => decide_eq_true (h.past e he)
    have hfuture : rest.filter (·.1 ≤ s.now) = [] := by
      apply List.filter_eq_nil_iff.mpr
      intro e he
      cases rest with
      | nil => cases he
      | cons first rest =>
        have hfirst : s.now < first.1 := hover first.1 h.timer
        have hle : first.1 ≤ e.1 := by
          rcases List.mem_cons.mp he with rfl | he
          · exact le_refl _
          · exact (lt_of_mem_rest hsorted he).le
        simpa using hfirst.trans_le hle
    rw [h.device, rateInForce, List.filter_append, hpast, hfuture, List.append_nil]

end Steps

/-! ## Runs -/

section Runs

variable {rate : DataRate} {info : List (Time × Int)} {s s' : ChangerRun}

theorem reached_of_run (h : Reached rate [] info s) (hsorted : info.Pairwise fun e e' => e.1 < e'.1)
    (hlength : info.length < 2 ^ 32) {as : List Act} (has : ∀ a ∈ as, Event a)
    (hrun : Machine.run step s as = some s') :
    ∃ done rest, done ++ rest = info ∧ Reached rate done rest s' := by
  refine Machine.invariant_of_allSteps (C := fun _ a => Event a)
    (I := fun t => ∃ done rest, done ++ rest = info ∧ Reached rate done rest t) ?_
    ⟨[], info, rfl, h⟩ (Machine.allSteps_of_forall_mem (fun a ha _ => has a ha) s) hrun
  rintro t a t' ⟨done, rest, rfl, ht⟩ ha hs
  cases a with
  | resetBandwidth =>
    cases rest with
    | nil =>
      have htimer : t.timer = none := ht.timer
      rw [step, htimer, Option.bind_none] at hs
      cases hs
    | cons e rest =>
      have hmore : done.length + 1 < 2 ^ 32 := by
        rw [List.length_append, List.length_cons] at hlength
        omega
      obtain ⟨u, hu, hreached⟩ := reached_resetBandwidth ht hsorted hmore
      obtain rfl : u = t' := Option.some.inj (hu.symm.trans hs)
      exact ⟨done ++ [e], rest, by rw [List.append_assoc, List.singleton_append], hreached⟩
  | tick now => exact ⟨done, rest, rfl, reached_tick ht hsorted hs⟩
  | config | registerDevice | start => exact ha.elim

/-- The events one after the other, up to where the index wraps. -/
theorem exists_reached (h : Reached rate [] info s) (hsorted : info.Pairwise fun e e' => e.1 < e'.1)
    {k : ℕ} (hk : k ≤ info.length) (hlt : k < 2 ^ 32) :
    ∃ s', Machine.run step s (List.replicate k .resetBandwidth) = some s' ∧
      Reached rate (info.take k) (info.drop k) s' := by
  induction k with
  | zero => exact ⟨s, rfl, h⟩
  | succ k ih =>
    obtain ⟨t, hrun, ht⟩ := ih (Nat.le_of_succ_le hk) (Nat.lt_of_succ_lt hlt)
    have hdrop : info.drop k = info[k] :: info.drop (k + 1) := List.drop_eq_getElem_cons hk
    rw [hdrop] at ht
    have hinfo : info.take k ++ info[k] :: info.drop (k + 1) = info := by
      rw [← hdrop, List.take_append_drop]
    have hlength : (info.take k).length + 1 < 2 ^ 32 := by
      rw [List.length_take_of_le (Nat.le_of_succ_le hk)]
      exact hlt
    obtain ⟨s', hs, hs'⟩ := reached_resetBandwidth ht (hinfo.symm ▸ hsorted) hlength
    refine ⟨s', ?_, ?_⟩
    · rw [List.replicate_succ']
      exact Machine.run_snoc_eq_some.mpr ⟨t, hrun, hs⟩
    · rwa [List.take_succ_eq_append_getElem hk]

/-- With `2 ^ 32` entries, an event of the schedule fails. -/
theorem exists_not_applied (h : Reached rate [] info s)
    (hsorted : info.Pairwise fun e e' => e.1 < e'.1) (hlength : 2 ^ 32 ≤ info.length) :
    ∃ as s', (∀ a ∈ as, Event a) ∧ Machine.run step s as = some s' ∧ ¬ Applied rate info s' := by
  have hk : 2 ^ 32 - 1 < info.length := by omega
  obtain ⟨s', hrun, hs'⟩ := exists_reached h hsorted hk.le (by omega)
  have hevents : ∀ a ∈ List.replicate (2 ^ 32 - 1) Act.resetBandwidth, Event a := by
    intro a ha
    rw [List.eq_of_mem_replicate ha]
    trivial
  refine ⟨_, s', hevents, hrun, fun happlied => ?_⟩
  rw [List.drop_eq_getElem_cons hk] at hs'
  have hinfo : info.take (2 ^ 32 - 1) ++ info[2 ^ 32 - 1] :: info.drop (2 ^ 32 - 1 + 1) = info := by
    rw [← List.drop_eq_getElem_cons hk, List.take_append_drop]
  have hwrap : (info.take (2 ^ 32 - 1)).length + 1 = 2 ^ 32 := by
    rw [List.length_take_of_le hk.le]
    omega
  have hnone := resetBandwidth_eq_none hs' (hinfo.symm ▸ hsorted) hwrap
  have htimer : s'.timer ≠ none := by
    rw [hs'.timer]
    exact Option.some_ne_none _
  obtain ⟨t, ht⟩ := happlied.fires htimer
  rw [hnone] at ht
  cases ht

/-- The schedule is applied as it stands, in every run, exactly when it has fewer than `2 ^ 32`
entries. -/
theorem schedule_is_applied_iff (initialBps : Int) (info : List (Time × Int)) (rate : DataRate)
    (setup : List Act) (hinfo : ∀ e ∈ info, 0 ≤ e.1)
    (hsorted : info.Pairwise fun e e' => e.1 < e'.1) (hsetup : setup ∈ setups initialBps info rate) :
    (∀ as s, (∀ a ∈ as, Event a) → Machine.run step initial (setup ++ as) = some s →
        Applied rate info s) ↔ info.length < 2 ^ 32 := by
  obtain ⟨s₀, hs₀, hreached⟩ := reached_setup hinfo hsetup
  constructor
  · intro hall
    by_contra hge
    obtain ⟨as, s, has, hrun, hnot⟩ := exists_not_applied hreached hsorted (Nat.le_of_not_lt hge)
    exact hnot (hall as s has (Machine.run_append_eq_some.mpr ⟨s₀, hs₀, hrun⟩))
  · intro hlength as s has hrun
    obtain ⟨t, ht, hrun⟩ := Machine.run_append_eq_some.mp hrun
    obtain rfl : s₀ = t := Option.some.inj (hs₀.symm.trans ht)
    obtain ⟨done, rest, rfl, hs⟩ := reached_of_run hreached hsorted hlength has hrun
    exact applied_of_reached hs hsorted hlength

/-- Changes at 0, 10 and 20 ns. At 15 the second one is in force. -/
theorem three_changes_are_applied :
    ∃ s, Machine.run step initial ([.config 5 [(0, 6), (10, 7), (20, 8)], .start, .registerDevice 5] ++
        [.resetBandwidth, .tick 4, .resetBandwidth, .tick 15]) = some s ∧
      Applied 5 [(0, 6), (10, 7), (20, 8)] s ∧ s.device = some 7 := by
  have happlied := (schedule_is_applied_iff 5 [(0, 6), (10, 7), (20, 8)] 5
    [.config 5 [(0, 6), (10, 7), (20, 8)], .start, .registerDevice 5] (by decide) (by decide)
    (by simp [setups])).mpr (by decide)
  refine ⟨_, rfl, happlied [.resetBandwidth, .tick 4, .resetBandwidth, .tick 15] _ ?_ rfl, rfl⟩
  simp [Event]

/-- A change in each of the first `2 ^ 32` nanoseconds. -/
theorem schedule_of_full_index_is_not_applied :
    ¬ ∀ (initialBps : Int) (info : List (Time × Int)) (rate : DataRate) (setup : List Act),
      (∀ e ∈ info, 0 ≤ e.1) → (info.Pairwise fun e e' => e.1 < e'.1) →
      setup ∈ setups initialBps info rate →
      ∀ as s, (∀ a ∈ as, Event a) → Machine.run step initial (setup ++ as) = some s →
        Applied rate info s := by
  intro hall
  obtain ⟨info, hdef⟩ : ∃ info : List (Time × Int),
      info = (List.range (2 ^ 32)).map fun i : ℕ => ((i : Int), 0) := ⟨_, rfl⟩
  have hlength : 2 ^ 32 ≤ info.length := by rw [hdef, List.length_map, List.length_range]
  have hinfo : ∀ e ∈ info, 0 ≤ e.1 := by
    intro e he
    rw [hdef] at he
    obtain ⟨i, -, rfl⟩ := List.mem_map.mp he
    exact Int.natCast_nonneg i
  have hsorted : info.Pairwise fun e e' => e.1 < e'.1 := by
    rw [hdef, List.pairwise_map]
    exact List.pairwise_lt_range.imp fun h => Int.ofNat_lt.mpr h
  have hsetup : [.config 0 info, .registerDevice 0, .start] ∈ setups 0 info 0 := List.mem_cons_self
  obtain ⟨s₀, hs₀, hreached⟩ := reached_setup hinfo hsetup
  obtain ⟨as, s, has, hrun, hnot⟩ := exists_not_applied hreached hsorted hlength
  exact hnot (hall 0 info 0 _ hinfo hsorted hsetup as s has
    (Machine.run_append_eq_some.mpr ⟨s₀, hs₀, hrun⟩))

end Runs

end ChangerRun

end WebrtcGccNs3.Wire
