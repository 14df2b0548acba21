import Mathlib.Order.Lattice
import Mathlib.Data.List.Pairwise
import Mathlib.Data.List.TakeWhile

/-!
# Ordered maps from keys to sequences

`std::map<K, std::vector<V>>` and `std::map<K, std::list<V>>`: buckets in strictly
increasing key order, each a sequence in insertion order. A bucket may be left
empty by a removal, and then keeps its key, as in the container. `entries` is
what an iteration over the whole map visits, and every other lemma is about it.
-/

structure BucketMap (K V : Type) [LinearOrder K] where
  buckets : List (K × List V)
  sorted : buckets.Pairwise (fun a b => a.1 < b.1)
  deriving DecidableEq

namespace BucketMap

variable {K V : Type}

/-- `map[k].push_back(v)` on the list of buckets. -/
def pushBucket [LinearOrder K] (k : K) (v : V) : List (K × List V) → List (K × List V)
  | [] => [(k, [v])]
  | (k', vs) :: rest =>
    if k < k' then (k, [v]) :: (k', vs) :: rest
    else if k = k' then (k', vs ++ [v]) :: rest
    else (k', vs) :: pushBucket k v rest

/-- Visit the buckets in order and remove the first occurrence of `v`, then stop. -/
def removeBucket [DecidableEq V] (v : V) : List (K × List V) → List (K × List V)
  | [] => []
  | (k, vs) :: rest => if v ∈ vs then (k, vs.erase v) :: rest else (k, vs) :: removeBucket v rest

def bucketEntries (b : K × List V) : List (K × V) := b.2.map (b.1, ·)

section Buckets

variable [LinearOrder K] {k : K} {v : V} {bs : List (K × List V)}

theorem mem_keys_pushBucket {x : K} (h : x ∈ (pushBucket k v bs).map Prod.fst) :
    x = k ∨ x ∈ bs.map Prod.fst := by
  induction bs with
  | nil => exact Or.inl (List.mem_singleton.mp h)
  | cons b rest ih =>
    obtain ⟨k', vs⟩ := b
    unfold pushBucket at h
    split at h
    · simpa using h
    · split at h
      · exact Or.inr h
      · rcases List.mem_cons.mp h with h | h
        · exact Or.inr (List.mem_cons.mpr (Or.inl h))
        · exact (ih h).imp_right (List.mem_cons_of_mem _)

theorem sorted_pushBucket (h : bs.Pairwise (fun a b => a.1 < b.1)) :
    (pushBucket k v bs).Pairwise (fun a b => a.1 < b.1) := by
  induction bs with
  | nil => exact List.pairwise_singleton _ _
  | cons b rest ih =>
    obtain ⟨k', vs⟩ := b
    obtain ⟨hb, hrest⟩ := List.pairwise_cons.mp h
    unfold pushBucket
    split
    · rename_i hk
      refine List.pairwise_cons.mpr ⟨fun c hc => ?_, h⟩
      rcases List.mem_cons.mp hc with rfl | hc
      · exact hk
      · exact lt_trans hk (hb c hc)
    · rename_i hk
      split
      · exact List.pairwise_cons.mpr ⟨hb, hrest⟩
      · rename_i hne
        refine List.pairwise_cons.mpr ⟨fun c hc => ?_, ih hrest⟩
        rcases mem_keys_pushBucket (List.mem_map_of_mem (f := Prod.fst) hc) with he | hm
        · exact he ▸ lt_of_le_of_ne (not_lt.mp hk) (Ne.symm hne)
        · obtain ⟨d, hd, hdc⟩ := List.mem_map.mp hm
          exact hdc ▸ hb d hd

omit [LinearOrder K] in
theorem keys_removeBucket [DecidableEq V] : (removeBucket v bs).map Prod.fst = bs.map Prod.fst := by
  induction bs with
  | nil => rfl
  | cons b rest ih =>
    obtain ⟨k', vs⟩ := b
    unfold removeBucket
    split
    · rfl
    · exact congrArg (k' :: ·) ih

theorem sorted_removeBucket [DecidableEq V] (h : bs.Pairwise (fun a b => a.1 < b.1)) :
    (removeBucket v bs).Pairwise (fun a b => a.1 < b.1) := by
  have hp := List.pairwise_map.mpr h
  rw [← keys_removeBucket] at hp
  exact List.pairwise_map.mp hp

/-- A pushed value lands after every entry of a key up to its own and before
every entry of a later key. -/
theorem entries_pushBucket (h : bs.Pairwise (fun a b => a.1 < b.1)) :
    ∃ l r, bs.flatMap bucketEntries = l ++ r ∧
      (pushBucket k v bs).flatMap bucketEntries = l ++ (k, v) :: r ∧
      (∀ e ∈ l, e.1 ≤ k) ∧ ∀ e ∈ r, k < e.1 := by
  induction bs with
  | nil => exact ⟨[], [], rfl, rfl, by simp, by simp⟩
  | cons b rest ih =>
    obtain ⟨k', vs⟩ := b
    obtain ⟨hb, hrest⟩ := List.pairwise_cons.mp h
    have hkeys : ∀ e ∈ rest.flatMap bucketEntries, k' < e.1 := by
      intro e he
      obtain ⟨c, hc, hec⟩ := List.mem_flatMap.mp he
      obtain ⟨w, -, rfl⟩ := List.mem_map.mp hec
      exact hb c hc
    unfold pushBucket
    split
    · rename_i hk
      refine ⟨[], ((k', vs) :: rest).flatMap bucketEntries, rfl, rfl, by simp, fun e he => ?_⟩
      rw [List.flatMap_cons, List.mem_append] at he
      rcases he with he | he
      · obtain ⟨w, -, rfl⟩ := List.mem_map.mp he
        exact hk
      · exact lt_trans hk (hkeys e he)
    · rename_i hk
      split
      · rename_i he
        subst he
        refine ⟨bucketEntries (k, vs), rest.flatMap bucketEntries, rfl, ?_, ?_, hkeys⟩
        · simp [bucketEntries]
        · intro e he
          obtain ⟨w, -, rfl⟩ := List.mem_map.mp he
          exact le_refl k
      · obtain ⟨l, r, hlr, hpush, hl, hr⟩ := ih hrest
        refine ⟨bucketEntries (k', vs) ++ l, r, ?_, ?_, fun e he => ?_, hr⟩
        · rw [List.flatMap_cons, hlr, List.append_assoc]
        · rw [List.flatMap_cons, hpush, List.append_assoc]
        · rcases List.mem_append.mp he with he | he
          · obtain ⟨w, -, rfl⟩ := List.mem_map.mp he
            exact not_lt.mp hk
          · exact hl e he

omit [LinearOrder K] in
theorem values_removeBucket [DecidableEq V] :
    (removeBucket v bs).flatMap Prod.snd = (bs.flatMap Prod.snd).erase v := by
  induction bs with
  | nil => rfl
  | cons b rest ih =>
    obtain ⟨k', vs⟩ := b
    unfold removeBucket
    rw [List.flatMap_cons, List.erase_append]
    split
    · rfl
    · rw [List.flatMap_cons, ih]

end Buckets

variable [LinearOrder K]

def empty : BucketMap K V := ⟨[], List.Pairwise.nil⟩

instance : EmptyCollection (BucketMap K V) := ⟨empty⟩

instance : Inhabited (BucketMap K V) := ⟨empty⟩

/-- `map[k].push_back(v)`. -/
def push (m : BucketMap K V) (k : K) (v : V) : BucketMap K V :=
  ⟨pushBucket k v m.buckets, sorted_pushBucket m.sorted⟩

/-- Remove the first occurrence of `v` that an iteration over the map meets. -/
def remove [DecidableEq V] (m : BucketMap K V) (v : V) : BucketMap K V :=
  ⟨removeBucket v m.buckets, sorted_removeBucket m.sorted⟩

/-- The keys and values that an iteration over the map visits, in order. -/
def entries (m : BucketMap K V) : List (K × V) := m.buckets.flatMap bucketEntries

def values (m : BucketMap K V) : List V := m.buckets.flatMap Prod.snd

/-- The entries of the leading buckets whose key is at most `t`. -/
def dueEntries (m : BucketMap K V) (t : K) : List (K × V) :=
  (m.buckets.takeWhile (·.1 ≤ t)).flatMap bucketEntries

/-- The values that `for (it = begin(); it != end() && it->first <= t; it = erase(it))` visits. -/
def due (m : BucketMap K V) (t : K) : List V := (m.buckets.takeWhile (·.1 ≤ t)).flatMap Prod.snd

/-- What that loop leaves in the map. -/
def dropDue (m : BucketMap K V) (t : K) : BucketMap K V :=
  ⟨m.buckets.dropWhile (·.1 ≤ t), m.sorted.sublist (List.dropWhile_sublist _)⟩

/-- The keys, in order, also of the buckets that are empty. -/
def keys (m : BucketMap K V) : List K := m.buckets.map Prod.fst

/-- `begin()->first`, of an empty bucket too; `none` when the map is `empty()`. -/
def firstKey? (m : BucketMap K V) : Option K := m.buckets.head?.map Prod.fst

section Api

variable {m : BucketMap K V} {k t : K} {v w : V}

@[simp] theorem entries_empty : (∅ : BucketMap K V).entries = [] := rfl
@[simp] theorem values_empty : (∅ : BucketMap K V).values = [] := rfl

omit [LinearOrder K] in
theorem snd_bucketEntries (b : K × List V) : (bucketEntries b).map Prod.snd = b.2 := by
  simp [bucketEntries, Function.comp_def]

theorem values_eq : m.values = m.entries.map Prod.snd := by
  simp only [values, entries, List.map_flatMap, snd_bucketEntries]

theorem due_eq : m.due t = (m.dueEntries t).map Prod.snd := by
  simp only [due, dueEntries, List.map_flatMap, snd_bucketEntries]

theorem entries_push (m : BucketMap K V) (k : K) (v : V) :
    ∃ l r, m.entries = l ++ r ∧ (m.push k v).entries = l ++ (k, v) :: r ∧
      (∀ e ∈ l, e.1 ≤ k) ∧ ∀ e ∈ r, k < e.1 :=
  entries_pushBucket m.sorted

theorem entries_push_perm (m : BucketMap K V) (k : K) (v : V) :
    (m.push k v).entries.Perm ((k, v) :: m.entries) := by
  obtain ⟨l, r, hm, hp, -⟩ := entries_push m k v
  rw [hm, hp]
  exact List.perm_middle

theorem mem_entries_push {e : K × V} : e ∈ (m.push k v).entries ↔ e = (k, v) ∨ e ∈ m.entries := by
  rw [(entries_push_perm m k v).mem_iff, List.mem_cons]

theorem values_push_perm (m : BucketMap K V) (k : K) (v : V) :
    (m.push k v).values.Perm (v :: m.values) := by
  rw [values_eq, values_eq]
  exact (entries_push_perm m k v).map Prod.snd

@[simp] theorem mem_values_push : w ∈ (m.push k v).values ↔ w = v ∨ w ∈ m.values := by
  rw [(values_push_perm m k v).mem_iff, List.mem_cons]

theorem values_remove [DecidableEq V] : (m.remove v).values = m.values.erase v :=
  values_removeBucket

/-- The loop over the due entries splits the map into what it visited and what it left. -/
theorem dueEntries_append (m : BucketMap K V) (t : K) :
    m.dueEntries t ++ (m.dropDue t).entries = m.entries := by
  simp only [dueEntries, entries, dropDue, ← List.flatMap_append, List.takeWhile_append_dropWhile]

theorem due_append (m : BucketMap K V) (t : K) : m.due t ++ (m.dropDue t).values = m.values := by
  simp only [due, values, dropDue, ← List.flatMap_append, List.takeWhile_append_dropWhile]

theorem le_of_mem_dueEntries {e : K × V} (h : e ∈ m.dueEntries t) : e.1 ≤ t := by
  obtain ⟨b, hb, he⟩ := List.mem_flatMap.mp h
  obtain ⟨w, -, rfl⟩ := List.mem_map.mp he
  simpa using List.mem_takeWhile_imp hb

theorem lt_of_mem_dropDue {e : K × V} (h : e ∈ (m.dropDue t).entries) : t < e.1 := by
  obtain ⟨b, hb, he⟩ := List.mem_flatMap.mp h
  obtain ⟨w, -, rfl⟩ := List.mem_map.mp he
  have hs := (m.dropDue t).sorted
  cases hd : (m.dropDue t).buckets with
  | nil => rw [hd] at hb; cases hb
  | cons c rest =>
    have hc : t < c.1 := by
      have := List.head_dropWhile_not (p := fun b : K × List V => decide (b.1 ≤ t)) (l := m.buckets)
      have hne : m.buckets.dropWhile (fun b => decide (b.1 ≤ t)) = c :: rest := hd
      simp only [hne] at this
      exact not_le.mp (of_decide_eq_false (this (by simp)))
    rw [hd] at hb hs
    rcases List.mem_cons.mp hb with rfl | hb
    · exact hc
    · exact lt_trans hc ((List.pairwise_cons.mp hs).1 b hb)

theorem mem_dueEntries {e : K × V} : e ∈ m.dueEntries t ↔ e ∈ m.entries ∧ e.1 ≤ t := by
  rw [← dueEntries_append m t, List.mem_append]
  constructor
  · exact fun h => ⟨Or.inl h, le_of_mem_dueEntries h⟩
  · rintro ⟨h | h, hle⟩
    · exact h
    · exact absurd (lt_of_mem_dropDue h) (not_lt.mpr hle)

theorem mem_dropDue {e : K × V} : e ∈ (m.dropDue t).entries ↔ e ∈ m.entries ∧ t < e.1 := by
  rw [← dueEntries_append m t, List.mem_append]
  constructor
  · exact fun h => ⟨Or.inr h, lt_of_mem_dropDue h⟩
  · rintro ⟨h | h, hlt⟩
    · exact absurd (le_of_mem_dueEntries h) (not_le.mpr hlt)
    · exact h

theorem firstKey?_push :
    (m.push k v).firstKey? = some (m.firstKey?.elim k (min k)) := by
  simp only [firstKey?, push]
  cases m.buckets with
  | nil => rfl
  | cons b rest =>
    obtain ⟨k', vs⟩ := b
    unfold pushBucket
    split
    · rename_i hk
      simp [min_eq_left hk.le]
    · rename_i hk
      split
      · rename_i he
        simp [he]
      · simp [min_eq_right (not_lt.mp hk)]

theorem mem_keys_of_firstKey? (h : m.firstKey? = some k) : k ∈ m.keys := by
  obtain ⟨b, hb, rfl⟩ := Option.map_eq_some_iff.mp h
  exact List.mem_map_of_mem (List.mem_of_mem_head? hb)

/-- There is a key, of an empty bucket too, that is at most `t`. -/
def StartsBy (m : BucketMap K V) (t : K) : Prop := ∃ k, m.firstKey? = some k ∧ k ≤ t

instance : Decidable (m.StartsBy t) :=
  match h : m.firstKey? with
  | none => isFalse fun ⟨k, hk, _⟩ => by cases h.symm.trans hk
  | some k => decidable_of_iff (k ≤ t)
      ⟨fun hle => ⟨k, h, hle⟩, fun ⟨k', hk', hle⟩ => Option.some.inj (h.symm.trans hk') ▸ hle⟩

theorem startsBy_of_mem_keys (h : t ∈ m.keys) : m.StartsBy t := by
  obtain ⟨b, hb, rfl⟩ := List.mem_map.mp h
  have hs := m.sorted
  unfold StartsBy firstKey?
  cases hm : m.buckets with
  | nil => simp [hm] at hb
  | cons c rest =>
    rw [hm] at hb hs
    refine ⟨c.1, rfl, ?_⟩
    rcases List.mem_cons.mp hb with rfl | hb
    · exact le_refl _
    · exact ((List.pairwise_cons.mp hs).1 b hb).le

theorem startsBy_of_mem {e : K × V} (h : e ∈ m.entries) : m.StartsBy e.1 := by
  obtain ⟨b, hb, he⟩ := List.mem_flatMap.mp h
  obtain ⟨w, -, rfl⟩ := List.mem_map.mp he
  exact startsBy_of_mem_keys (List.mem_map_of_mem hb)

theorem startsBy_push : (m.push k v).StartsBy t ↔ k ≤ t ∨ m.StartsBy t := by
  unfold StartsBy
  rw [firstKey?_push]
  cases m.firstKey? <;> simp

theorem StartsBy.getD_le (h : m.StartsBy t) (d : K) : m.firstKey?.getD d ≤ t := by
  obtain ⟨k, hk, hle⟩ := h
  rwa [hk]

theorem mem_of_mem_entries_remove [DecidableEq V] {e : K × V} (h : e ∈ (m.remove v).entries) :
    e ∈ m.entries := by
  have hbuckets : ∀ bs : List (K × List V), e ∈ (removeBucket v bs).flatMap bucketEntries →
      e ∈ bs.flatMap bucketEntries := by
    intro bs
    induction bs with
    | nil => exact id
    | cons b rest ih =>
      obtain ⟨k', vs⟩ := b
      unfold removeBucket
      split
      · rw [List.flatMap_cons, List.flatMap_cons, List.mem_append, List.mem_append]
        exact Or.imp_left fun he => (List.erase_sublist.map _).subset he
      · rw [List.flatMap_cons, List.flatMap_cons, List.mem_append, List.mem_append]
        exact Or.imp_right ih
  exact hbuckets m.buckets h

/-- No bucket is empty, as long as nothing has been removed by value. -/
def Full (m : BucketMap K V) : Prop := ∀ b ∈ m.buckets, b.2 ≠ []

theorem full_empty : (∅ : BucketMap K V).Full := fun _ hb => absurd hb List.not_mem_nil

theorem Full.dropDue (h : m.Full) : (m.dropDue t).Full :=
  fun b hb => h b ((List.dropWhile_sublist _).subset hb)

theorem Full.push (h : m.Full) : (m.push k v).Full := by
  have hbuckets : ∀ bs : List (K × List V), (∀ b ∈ bs, b.2 ≠ []) →
      ∀ b ∈ pushBucket k v bs, b.2 ≠ [] := by
    intro bs
    induction bs with
    | nil => simp [pushBucket]
    | cons c rest ih =>
      obtain ⟨k', vs⟩ := c
      intro hbs
      obtain ⟨hc, hrest⟩ := List.forall_mem_cons.mp hbs
      unfold pushBucket
      split
      · exact List.forall_mem_cons.mpr ⟨List.cons_ne_nil _ _, hbs⟩
      · split
        · exact List.forall_mem_cons.mpr ⟨by simp, hrest⟩
        · exact List.forall_mem_cons.mpr ⟨hc, ih hrest⟩
  exact hbuckets m.buckets h

/-- A key of such a map is the key of an entry. -/
theorem Full.exists_mem_entries (h : m.Full) (hk : k ∈ m.keys) : ∃ e ∈ m.entries, e.1 = k := by
  obtain ⟨b, hb, rfl⟩ := List.mem_map.mp hk
  obtain ⟨w, hw⟩ := List.exists_mem_of_ne_nil _ (h b hb)
  exact ⟨(b.1, w), List.mem_flatMap.mpr ⟨b, hb, List.mem_map_of_mem hw⟩, rfl⟩

end Api

end BucketMap
