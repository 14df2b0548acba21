import Mathlib.Algebra.Order.BigOperators.Group.List
import Mathlib.Data.Nat.ModEq

/-!
# Rotation

Lists that are read one after the other, and again from the first. The items come in the
order of the joined list, round and round.
-/
namespace Rotation

variable {α : Type}

/-- How many items of which list were read. -/
structure Place where
  list : ℕ
  item : ℕ
  deriving DecidableEq

/-- The next item of the list, or the first of the list behind it. -/
def next (lists : List (List α)) (place : Place) : Option (α × Place) := do
  let list ← lists[place.list]?
  match list[place.item]? with
  | some x => return (x, ⟨place.list, place.item + 1⟩)
  | none =>
    let following ← lists[(place.list + 1) % lists.length]?
    let x ← following[0]?
    return (x, ⟨(place.list + 1) % lists.length, 1⟩)

variable {lists : List (List α)} {place place' : Place}

/-- Where the place is in the joined list. -/
def index (lists : List (List α)) (place : Place) : ℕ := (lists.take place.list).flatten.length + place.item

theorem getElem?_flatten {i k : ℕ} {list : List α} (h : lists[i]? = some list) (hk : k < list.length) :
    lists.flatten[(lists.take i).flatten.length + k]? = list[k]? := by
  obtain ⟨hi, rfl⟩ := List.getElem?_eq_some_iff.mp h
  have hsplit : lists.flatten =
      (lists.take i).flatten ++ (lists[i] ++ (lists.drop (i + 1)).flatten) := by
    rw [← List.flatten_cons, ← List.drop_eq_getElem_cons hi, ← List.flatten_append, List.take_append_drop]
  rw [hsplit, List.getElem?_append_right (Nat.le_add_right _ _), Nat.add_sub_cancel_left,
    List.getElem?_append_left hk]

theorem length_take_succ {i : ℕ} {list : List α} (h : lists[i]? = some list) :
    (lists.take (i + 1)).flatten.length = (lists.take i).flatten.length + list.length := by
  rw [List.take_add_one, h, List.flatten_append, List.length_append]
  simp

theorem length_take_le (lists : List (List α)) (i : ℕ) :
    (lists.take i).flatten.length ≤ lists.flatten.length := by
  conv_rhs => rw [← List.take_append_drop i lists, List.flatten_append, List.length_append]
  exact Nat.le_add_right _ _

/-- The first item of the list behind has the index of the end of the list before. -/
theorem length_take_following {i : ℕ} (hfull : ∀ list ∈ lists, list ≠ []) (hi : i < lists.length) :
    (lists.take ((i + 1) % lists.length)).flatten.length =
      (lists.take (i + 1)).flatten.length % lists.flatten.length := by
  rcases Nat.lt_or_ge (i + 1) lists.length with hnext | hlast
  · have hpos := List.length_pos_of_ne_nil (hfull _ (List.getElem_mem hnext))
    have hle := length_take_le lists (i + 1 + 1)
    rw [length_take_succ (List.getElem?_eq_getElem hnext)] at hle
    rw [Nat.mod_eq_of_lt hnext, Nat.mod_eq_of_lt (by omega)]
  · have hall : i + 1 = lists.length := by omega
    rw [hall, Nat.mod_self, List.take_length, Nat.mod_self]
    rfl

/-- Where something goes round with `n` places, each of them is reached from each. -/
theorem exists_add_mod {n a b : ℕ} (ha : a < n) (hb : b < n) : ∃ d ≤ n, (a + d) % n = b := by
  rcases Nat.le_total a b with hle | hle
  · refine ⟨b - a, by omega, ?_⟩
    rw [Nat.add_sub_cancel' hle, Nat.mod_eq_of_lt hb]
  · refine ⟨b + n - a, by omega, ?_⟩
    rw [Nat.add_sub_cancel' (by omega), Nat.add_mod_right, Nat.mod_eq_of_lt hb]

/-- A place after `n` items. -/
structure Reads (lists : List (List α)) (n : ℕ) (place : Place) : Prop where
  within : ∃ list, lists[place.list]? = some list ∧ place.item ≤ list.length
  index : index lists place % lists.flatten.length = n % lists.flatten.length

theorem reads_start (h : lists ≠ []) : Reads lists 0 ⟨0, 0⟩ := by
  obtain ⟨list, rest, rfl⟩ := List.exists_cons_of_ne_nil h
  exact ⟨⟨list, rfl, Nat.zero_le _⟩, rfl⟩

/-- The item after `n` items is that of the joined list, round and round. -/
theorem next_spec {n : ℕ} (hfull : ∀ list ∈ lists, list ≠ []) (h : Reads lists n place) :
    ∃ x place', next lists place = some (x, place') ∧
      lists.flatten[n % lists.flatten.length]? = some x ∧ Reads lists (n + 1) place' ∧
      0 < place'.item := by
  obtain ⟨⟨list, hlist, hitem⟩, hindex⟩ := h
  obtain ⟨hlt, hget⟩ := List.getElem?_eq_some_iff.mp hlist
  have hbefore := length_take_succ hlist
  have htotal := length_take_le lists (place.list + 1)
  rcases Nat.lt_or_ge place.item list.length with hmore | hend
  · have hthere := getElem?_flatten hlist hmore
    have hsmall : Rotation.index lists place < lists.flatten.length := by
      unfold Rotation.index
      omega
    rw [Nat.mod_eq_of_lt hsmall] at hindex
    have hx : list[place.item]? = some list[place.item] := List.getElem?_eq_getElem hmore
    refine ⟨list[place.item], ⟨place.list, place.item + 1⟩, ?_, ?_, ⟨⟨list, hlist, hmore⟩, ?_⟩,
      Nat.succ_pos _⟩
    · simp [next, hlist, hx]
    · rw [← hindex, ← hx]
      exact hthere
    · have hsucc : Rotation.index lists ⟨place.list, place.item + 1⟩ =
          Rotation.index lists place + 1 := rfl
      rw [hsucc, Nat.add_mod, hindex, Nat.mod_mod, ← Nat.add_mod]
  · have hx : list[place.item]? = none := List.getElem?_eq_none hend
    have hatEnd : Rotation.index lists place = (lists.take (place.list + 1)).flatten.length := by
      unfold Rotation.index
      omega
    have hbehind : (place.list + 1) % lists.length < lists.length := Nat.mod_lt _ (by omega)
    let following := lists[(place.list + 1) % lists.length]
    have hfollowing : lists[(place.list + 1) % lists.length]? = some following :=
      List.getElem?_eq_getElem hbehind
    have hpos : 0 < following.length :=
      List.length_pos_of_ne_nil (hfull following (List.getElem_mem hbehind))
    have hsame := length_take_following hfull hlt
    rw [← hatEnd, hindex] at hsame
    have hfirst := getElem?_flatten hfollowing hpos
    rw [Nat.add_zero, hsame, List.getElem?_eq_getElem hpos] at hfirst
    refine ⟨following[0], ⟨(place.list + 1) % lists.length, 1⟩, ?_, hfirst,
      ⟨⟨following, hfollowing, hpos⟩, ?_⟩, Nat.succ_pos _⟩
    · simp [next, hlist, hx, hfollowing, List.getElem?_eq_getElem hpos]
    · show ((lists.take ((place.list + 1) % lists.length)).flatten.length + 1) % _ = _
      rw [hsame, Nat.add_mod, Nat.mod_mod, ← Nat.add_mod]

theorem eq_zero_of_single (hfull : ∀ list ∈ lists, list ≠ []) (hone : lists.flatten.length = 1) {n : ℕ}
    (h : Reads lists n place) (hitem : 0 < place.item) : place = ⟨0, 1⟩ := by
  obtain ⟨⟨list, hlist, hle⟩, -⟩ := h
  have hlists : lists.length ≤ 1 := by
    rw [← hone, List.length_flatten, ← List.length_map List.length]
    refine List.length_le_sum_of_one_le _ fun k hk => ?_
    obtain ⟨list, hmem, rfl⟩ := List.mem_map.mp hk
    exact List.length_pos_of_ne_nil (hfull list hmem)
  have hlength : list.length ≤ 1 := by
    rw [← hone]
    exact (List.sublist_flatten_of_mem (List.mem_of_getElem? hlist)).length_le
  have hlt := (List.getElem?_eq_some_iff.mp hlist).1
  obtain ⟨i, k⟩ := place
  simp only [Place.mk.injEq] at *
  omega

/-- Only a single item is followed by itself. -/
theorem same_place_iff (hfull : ∀ list ∈ lists, list ≠ []) {n : ℕ} (h : Reads lists n place)
    (h' : Reads lists (n + 1) place') (hitem : 0 < place.item) (hitem' : 0 < place'.item) :
    place' = place ↔ lists.flatten.length = 1 := by
  constructor
  · rintro rfl
    have hcycle : n + 1 ≡ n + 0 [MOD lists.flatten.length] := h'.index.symm.trans h.index
    exact Nat.dvd_one.mp ((Nat.modEq_zero_iff_dvd).mp (Nat.ModEq.add_left_cancel' n hcycle))
  · intro hone
    rw [eq_zero_of_single hfull hone h hitem, eq_zero_of_single hfull hone h' hitem']

end Rotation
