import Mathlib.Tactic.Ring

/-!
# Painting on a plane

A plane is a list of cells, row by row. Rectangles are painted on it row by row with
`memset`, one after the other. Inside the plane this does not fail, and a cell has the value
of the last rectangle that covers it.
-/
namespace Raster

variable {α : Type}

/-- Gives a value to `count` cells from a place on. `none` if they are not all there. -/
def memset (data : List α) (offset : ℕ) (value : α) (count : ℕ) : Option (List α) :=
  if offset + count ≤ data.length then
    some (data.take offset ++ List.replicate count value ++ data.drop (offset + count))
  else none

structure Rect (α : Type) where
  x : ℕ
  y : ℕ
  width : ℕ
  height : ℕ
  value : α

namespace Rect

def Covers (r : Rect α) (row col : ℕ) : Prop :=
  (r.y ≤ row ∧ row < r.y + r.height) ∧ r.x ≤ col ∧ col < r.x + r.width

instance (r : Rect α) (row col : ℕ) : Decidable (r.Covers row col) :=
  inferInstanceAs (Decidable ((r.y ≤ row ∧ row < r.y + r.height) ∧ r.x ≤ col ∧ col < r.x + r.width))

structure Inside (r : Rect α) (stride rows : ℕ) : Prop where
  width_le : r.x + r.width ≤ stride
  height_le : r.y + r.height ≤ rows

end Rect

/-- The rows of a rectangle, from the first one. -/
def fill (stride : ℕ) (data : List α) (r : Rect α) : Option (List α) :=
  (List.range r.height).foldlM (fun data i => memset data (r.x + (r.y + i) * stride) r.value r.width) data

/-- The value of a cell behind the rectangles. -/
def painted (rects : List (Rect α)) (row col : ℕ) (before : α) : α :=
  rects.foldl (fun value r => if r.Covers row col then r.value else value) before

variable {data data' : List α} {offset count stride rows row col : ℕ} {r : Rect α}

theorem memset_eq (value : α) (h : offset + count ≤ data.length) :
    ∃ data', memset data offset value count = some data' ∧
      data'.length = data.length ∧
      ∀ i, data'[i]? = if offset ≤ i ∧ i < offset + count then some value else data[i]? := by
  refine ⟨_, if_pos h, ?_, fun i => ?_⟩
  · simp only [List.length_append, List.length_take, List.length_replicate, List.length_drop]
    omega
  · have htake : (data.take offset).length = offset := by
      rw [List.length_take]
      omega
    rw [List.append_assoc]
    rcases Nat.lt_or_ge i offset with hbefore | hfrom
    · rw [List.getElem?_append_left (by omega), List.getElem?_take_of_lt hbefore, if_neg (by omega)]
    rw [List.getElem?_append_right (by omega), htake]
    rcases Nat.lt_or_ge i (offset + count) with hin | hbehind
    · rw [List.getElem?_append_left (by rw [List.length_replicate]; omega), if_pos ⟨hfrom, hin⟩,
        List.getElem?_replicate, if_pos (by omega)]
    · rw [List.getElem?_append_right (by rw [List.length_replicate]; omega), List.length_replicate,
        List.getElem?_drop, if_neg (by omega)]
      congr 1
      omega

theorem cell_lt (hrow : row < rows) (hcol : col < stride) : row * stride + col < stride * rows := by
  have hstep : (row + 1) * stride ≤ rows * stride := Nat.mul_le_mul_right _ hrow
  rw [Nat.succ_mul] at hstep
  rw [Nat.mul_comm stride]
  omega

/-- A cell is in one row. -/
theorem same_row_iff {x width i : ℕ} (hx : x + width ≤ stride) (hcol : col < stride) :
    x + i * stride ≤ row * stride + col ∧ row * stride + col < x + i * stride + width ↔
      row = i ∧ x ≤ col ∧ col < x + width := by
  constructor
  · rintro ⟨hle, hlt⟩
    have hrow : row = i := by
      rcases Nat.lt_trichotomy row i with hless | hsame | hmore
      · have hstep : (row + 1) * stride ≤ i * stride := Nat.mul_le_mul_right _ hless
        rw [Nat.succ_mul] at hstep
        omega
      · exact hsame
      · have hstep : (i + 1) * stride ≤ row * stride := Nat.mul_le_mul_right _ hmore
        rw [Nat.succ_mul] at hstep
        omega
    subst hrow
    omega
  · rintro ⟨rfl, hle, hlt⟩
    omega

theorem fill_spec (hin : r.Inside stride rows) (hlength : data.length = stride * rows) :
    ∃ data', fill stride data r = some data' ∧ data'.length = data.length ∧
      ∀ row col, col < stride → data'[row * stride + col]? =
        if r.Covers row col then some r.value else data[row * stride + col]? := by
  -- the first rows of the rectangle
  have hrows : ∀ n ≤ r.height, ∃ data', (List.range n).foldlM
        (fun data i => memset data (r.x + (r.y + i) * stride) r.value r.width) data = some data' ∧
      data'.length = data.length ∧
      ∀ row col, col < stride → data'[row * stride + col]? =
        if (r.y ≤ row ∧ row < r.y + n) ∧ r.x ≤ col ∧ col < r.x + r.width then some r.value
        else data[row * stride + col]? := by
    intro n hn
    induction n with
    | zero =>
      refine ⟨data, rfl, rfl, fun row col _ => ?_⟩
      rw [if_neg (by omega)]
    | succ n ih =>
      obtain ⟨before, hbefore, hsame, hcells⟩ := ih (by omega)
      have hroom : r.x + (r.y + n) * stride + r.width ≤ before.length := by
        have hheight := hin.height_le
        have hstep : (r.y + n + 1) * stride ≤ rows * stride := Nat.mul_le_mul_right _ (by omega)
        rw [Nat.succ_mul] at hstep
        have hwidth := hin.width_le
        rw [hsame, hlength, Nat.mul_comm stride]
        omega
      obtain ⟨after, hafter, hsame', hcells'⟩ := memset_eq r.value hroom
      refine ⟨after, ?_, hsame'.trans hsame, fun row col hcol => ?_⟩
      · rw [List.range_succ, List.foldlM_append, hbefore]
        simpa using hafter
      · rw [hcells', hcells row col hcol]
        simp only [same_row_iff hin.width_le hcol]
        split
        · rw [if_pos (by omega)]
        · split
          · rw [if_pos (by omega)]
          · rw [if_neg (by omega)]
  exact hrows r.height le_rfl

/-- The second plane is the first one behind the rectangles. -/
structure Paints (stride : ℕ) (rects : List (Rect α)) (data data' : List α) : Prop where
  length_eq : data'.length = data.length
  cell : ∀ row col, col < stride →
    data'[row * stride + col]? = data[row * stride + col]?.map (painted rects row col)

theorem paints_nil (stride : ℕ) (data : List α) : Paints stride [] data data where
  length_eq := rfl
  cell := by
    intro row col _
    have hbare : painted [] row col = (id : α → α) := rfl
    rw [hbare, Option.map_id, id]

theorem Paints.cons {rects : List (Rect α)} {data'' : List α} (h : Paints stride [r] data data')
    (h' : Paints stride rects data' data'') : Paints stride (r :: rects) data data'' where
  length_eq := h'.length_eq.trans h.length_eq
  cell := by
    intro row col hcol
    rw [h'.cell row col hcol, h.cell row col hcol, Option.map_map]
    rfl

theorem fill_paints (hin : r.Inside stride rows) (hlength : data.length = stride * rows) :
    ∃ data', fill stride data r = some data' ∧ Paints stride [r] data data' := by
  obtain ⟨data', hfill, hsame, hcells⟩ := fill_spec hin hlength
  refine ⟨data', hfill, hsame, fun row col hcol => ?_⟩
  rw [hcells row col hcol]
  split
  · rename_i hcovers
    have hrows := hcovers.1
    have hheight := hin.height_le
    have hlt : row * stride + col < data.length := by
      rw [hlength]
      exact cell_lt (by omega) hcol
    rw [List.getElem?_eq_getElem hlt, Option.map_some, painted, List.foldl_cons, if_pos hcovers]
    rfl
  · rename_i hbare
    have hsame : painted [r] row col = id := by
      funext value
      rw [painted, List.foldl_cons, if_neg hbare]
      rfl
    rw [hsame, Option.map_id, id]

/-- A plane of one value. -/
theorem Paints.of_replicate {rects : List (Rect α)} {base : α} (h : Paints stride rects data data')
    (hdata : data = List.replicate (stride * rows) base) (hrow : row < rows) (hcol : col < stride) :
    data'[row * stride + col]? = some (painted rects row col base) := by
  rw [h.cell row col hcol, hdata, List.getElem?_replicate, if_pos (cell_lt hrow hcol), Option.map_some]

end Raster
