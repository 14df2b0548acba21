import Mathlib.Algebra.BigOperators.Finprod
import Mathlib.Algebra.Order.Group.Defs
import Mathlib.Algebra.BigOperators.Group.List.Basic
import Mathlib.Data.List.Chain

/-!
# Step functions and their maximal segments

A step function on `[A, S)` is described by the values and lengths of its pieces. Its
maximal segments are the intervals on which it is constant and that no such interval
extends: the runs of pieces with one value. So a sum over the segments is a sum over
the runs, whatever the pieces were.
-/
namespace StepFunction

/-! ## Runs of equal keys -/

section Runs

variable {κ M N : Type*} [DecidableEq κ] [Add M]

/-- Add up what neighbours with the same key carry, from the run `(c, x)` on. -/
def mergeFrom (c : κ) (x : M) : List (κ × M) → List (κ × M)
  | [] => [(c, x)]
  | (c', y) :: ps => if c' = c then mergeFrom c (x + y) ps else (c, x) :: mergeFrom c' y ps

def mergeRuns : List (κ × M) → List (κ × M)
  | [] => []
  | (c, x) :: ps => mergeFrom c x ps

variable {c : κ} {x : M} {ps : List (κ × M)}

theorem exists_mergeFrom (c : κ) (x : M) (ps : List (κ × M)) :
    ∃ y qs, mergeFrom c x ps = (c, y) :: qs := by
  induction ps generalizing x with
  | nil => exact ⟨x, [], rfl⟩
  | cons p ps ih =>
    rw [mergeFrom]
    split
    · exact ih (x + p.2)
    · exact ⟨x, _, rfl⟩

/-- Neighbouring runs have different keys. -/
theorem isChain_mergeFrom : (mergeFrom c x ps).IsChain fun p q => p.1 ≠ q.1 := by
  induction ps generalizing c x with
  | nil => exact List.isChain_singleton _
  | cons p ps ih =>
    rw [mergeFrom]
    split
    · exact ih
    · rename_i hne
      obtain ⟨y, qs, hqs⟩ := exists_mergeFrom p.1 p.2 ps
      have hchain := ih (c := p.1) (x := p.2)
      rw [hqs] at hchain ⊢
      exact List.isChain_cons_cons.mpr ⟨Ne.symm hne, hchain⟩

theorem isChain_mergeRuns : (mergeRuns ps).IsChain fun p q => p.1 ≠ q.1 := by
  cases ps with
  | nil => exact List.isChain_nil
  | cons p ps => exact isChain_mergeFrom

/-- A sum of what is additive in each run may be taken over the pieces. -/
theorem sum_mergeRuns [AddMonoid N] {f : κ → M → N} (hf : ∀ c x y, f c (x + y) = f c x + f c y)
    (ps : List (κ × M)) :
    ((mergeRuns ps).map fun p => f p.1 p.2).sum = (ps.map fun p => f p.1 p.2).sum := by
  have hfrom : ∀ ps c x, ((mergeFrom c x ps).map fun p => f p.1 p.2).sum =
      f c x + (ps.map fun p => f p.1 p.2).sum := by
    intro ps
    induction ps with
    | nil => simp [mergeFrom]
    | cons p ps ih =>
      intro c x
      rw [mergeFrom]
      split
      · rename_i heq
        rw [ih, hf, List.map_cons, List.sum_cons, heq, add_assoc]
      · rw [List.map_cons, List.sum_cons, ih, List.map_cons, List.sum_cons]
  cases ps with
  | nil => rfl
  | cons p ps =>
    rw [List.map_cons, List.sum_cons]
    exact hfrom ps p.1 p.2

/-- An additive change of what is carried may be made before or after. -/
theorem mergeRuns_map {M' : Type*} [Add M'] {g : M → M'} (hg : ∀ x y, g (x + y) = g x + g y)
    (ps : List (κ × M)) :
    mergeRuns (ps.map fun p => (p.1, g p.2)) = (mergeRuns ps).map fun p => (p.1, g p.2) := by
  have hfrom : ∀ ps : List (κ × M), ∀ c x, mergeFrom c (g x) (ps.map fun p => (p.1, g p.2)) =
      (mergeFrom c x ps).map fun p => (p.1, g p.2) := by
    intro ps
    induction ps with
    | nil => exact fun _ _ => rfl
    | cons p ps ih =>
      intro c x
      rw [List.map_cons, mergeFrom, mergeFrom]
      split
      · rw [← hg, ih]
      · rw [ih, List.map_cons]
  cases ps with
  | nil => rfl
  | cons p ps => exact hfrom ps p.1 p.2

theorem forall_mergeRuns {P : κ → M → Prop} (hP : ∀ c x y, P c x → P c y → P c (x + y))
    (h : ∀ p ∈ ps, P p.1 p.2) : ∀ p ∈ mergeRuns ps, P p.1 p.2 := by
  have hfrom : ∀ ps : List (κ × M), ∀ c x, P c x → (∀ p ∈ ps, P p.1 p.2) →
      ∀ p ∈ mergeFrom c x ps, P p.1 p.2 := by
    intro ps
    induction ps with
    | nil =>
      intro c x hx _ p hp
      obtain rfl := List.mem_singleton.mp hp
      exact hx
    | cons q ps ih =>
      intro c x hx hps
      obtain ⟨hq, hps⟩ := List.forall_mem_cons.mp hps
      rw [mergeFrom]
      split
      · rename_i heq
        exact ih c _ (hP c x q.2 hx (heq ▸ hq)) hps
      · exact List.forall_mem_cons.mpr ⟨hx, ih q.1 q.2 hq hps⟩
  cases ps with
  | nil => exact fun p hp => absurd hp List.not_mem_nil
  | cons q ps =>
    obtain ⟨hq, hps⟩ := List.forall_mem_cons.mp h
    exact hfrom ps q.1 q.2 hq hps

end Runs

/-! ## Segments -/

section Segments

variable {T κ : Type*} [LinearOrder T]

/-- `[p.1, p.2)` lies within `[A, S)`, and `ρ` is constant on it, but on no interval that extends
it. -/
structure MaximalSegment (ρ : T → κ) (A S : T) (p : T × T) : Prop where
  start_le : A ≤ p.1
  lt : p.1 < p.2
  le_stop : p.2 ≤ S
  constant : ∀ t, p.1 ≤ t → t < p.2 → ρ t = ρ p.1
  maximal : ∀ a b, A ≤ a → a ≤ p.1 → p.2 ≤ b → b ≤ S → (∀ t, a ≤ t → t < b → ρ t = ρ p.1) →
    a = p.1 ∧ b = p.2

def maximalSegments (ρ : T → κ) (A S : T) : Set (T × T) := {p | MaximalSegment ρ A S p}

variable {ρ : T → κ} {A B S : T} {c : κ}

theorem maximalSegments_self : maximalSegments ρ A A = ∅ := by
  apply Set.eq_empty_of_forall_notMem
  intro p hp
  exact absurd (hp.lt.trans_le (hp.le_stop.trans hp.start_le)) (lt_irrefl _)

/-- An interval of one value, which ends where the value changes, is the first segment. -/
theorem maximalSegments_eq_insert (hAB : A < B) (hBS : B ≤ S) (hc : ∀ t, A ≤ t → t < B → ρ t = c)
    (hB : B = S ∨ ρ B ≠ c) : maximalSegments ρ A S = insert (A, B) (maximalSegments ρ B S) := by
  have hend : ∀ b, B < b → b ≤ S → ρ B ≠ c := fun b hlt hle =>
    hB.resolve_left fun heq => absurd (heq ▸ hlt) hle.not_gt
  ext ⟨a, b⟩
  rw [Set.mem_insert_iff]
  constructor
  · intro h
    rcases lt_or_ge a B with haB | haB
    · have ha : ρ a = c := hc a h.start_le haB
      -- the segment starts within the interval, and could be extended to all of it
      obtain ⟨hA, hb⟩ := h.maximal A (max b B) le_rfl h.start_le (le_max_left b B)
        (max_le h.le_stop hBS) fun t hAt ht => by
          rcases lt_or_ge t B with htB | htB
          · exact (hc t hAt htB).trans ha.symm
          · exact h.constant t (haB.le.trans htB) ((lt_max_iff.mp ht).resolve_right htB.not_gt)
      left
      have hle : B ≤ b := max_eq_left_iff.mp hb
      rcases hle.eq_or_lt with heq | hlt
      · exact Prod.ext hA.symm heq.symm
      · exact absurd ((h.constant B haB.le hlt).trans ha) (hend b hlt h.le_stop)
    · exact Or.inr ⟨haB, h.lt, h.le_stop, h.constant,
        fun a' b' hBa => h.maximal a' b' (hAB.le.trans hBa)⟩
  · rintro (heq | h)
    · obtain ⟨rfl, rfl⟩ := Prod.mk.inj heq
      refine ⟨le_rfl, hAB, hBS, fun t hAt ht => (hc t hAt ht).trans (hc a le_rfl hAB).symm, ?_⟩
      intro a' b' hAa haA hb hbS hconst
      refine ⟨le_antisymm haA hAa, ?_⟩
      rcases hb.eq_or_lt with heq | hlt
      · exact heq.symm
      · exact absurd ((hconst b (haA.trans hAB.le) hlt).trans (hc a le_rfl hAB)) (hend b' hlt hbS)
    · refine ⟨hAB.le.trans h.start_le, h.lt, h.le_stop, h.constant, ?_⟩
      intro a' b' hAa haa hb hbS hconst
      rcases lt_or_ge a' B with haB | haB
      · have ha : ρ a = c := (hconst a' le_rfl (haa.trans_lt (h.lt.trans_le hb))).symm.trans
          (hc a' hAa haB)
        have hBb : B < b' := h.start_le.trans_lt (h.lt.trans_le hb)
        exact absurd ((hconst B haB.le hBb).trans ha) (hend b' hBb hbS)
      · exact h.maximal a' b' haB haa hb hbS hconst

end Segments

/-! ## Pieces -/

section Pieces

variable {T κ N : Type*} [AddCommGroup T] [LinearOrder T] [IsOrderedAddMonoid T]
variable {ρ : T → κ} {A S : T} {ps : List (κ × T)}

/-- The values and lengths of pieces that make up `ρ` on `[A, S)`. -/
def Describes (ρ : T → κ) : T → T → List (κ × T) → Prop
  | A, S, [] => A = S
  | A, S, (c, l) :: ps => 0 < l ∧ (∀ t, A ≤ t → t < A + l → ρ t = c) ∧ Describes ρ (A + l) S ps

theorem Describes.le (h : Describes ρ A S ps) : A ≤ S := by
  induction ps generalizing A with
  | nil => exact le_of_eq h
  | cons p ps ih => exact (lt_add_of_pos_right A h.1).le.trans (ih h.2.2)

theorem Describes.mergeRuns [DecidableEq κ] (h : Describes ρ A S ps) :
    Describes ρ A S (mergeRuns ps) := by
  have hfrom : ∀ ps A c l, Describes ρ A S ((c, l) :: ps) → Describes ρ A S (mergeFrom c l ps) := by
    intro ps
    induction ps with
    | nil => exact fun A c l h => h
    | cons p ps ih =>
      rintro A c l ⟨hl, hc, hl', hc', h⟩
      rw [mergeFrom]
      split
      · rename_i heq
        refine ih A c (l + p.2) ⟨add_pos hl hl', fun t hAt ht => ?_, by rwa [← add_assoc]⟩
        rcases lt_or_ge t (A + l) with hlt | hge
        · exact hc t hAt hlt
        · exact (hc' t hge (by rwa [add_assoc])).trans heq
      · exact ⟨hl, hc, ih (A + l) p.1 p.2 ⟨hl', hc', h⟩⟩
  cases ps with
  | nil => exact h
  | cons p ps => exact hfrom ps A p.1 p.2 h

/-- Pieces without equal neighbours are the segments. -/
theorem finsum_of_isChain [AddCommMonoid N] (f : κ → T → N) (h : Describes ρ A S ps)
    (hne : ps.IsChain fun p q => p.1 ≠ q.1) :
    (maximalSegments ρ A S).Finite ∧
      ∑ᶠ p ∈ maximalSegments ρ A S, f (ρ p.1) (p.2 - p.1) = (ps.map fun p => f p.1 p.2).sum := by
  induction ps generalizing A with
  | nil =>
    obtain rfl : A = S := h
    rw [maximalSegments_self]
    exact ⟨Set.finite_empty, finsum_mem_empty⟩
  | cons p ps ih =>
    obtain ⟨hl, hc, hrest⟩ := h
    have hlt : A < A + p.2 := lt_add_of_pos_right A hl
    have hB : A + p.2 = S ∨ ρ (A + p.2) ≠ p.1 := by
      cases ps with
      | nil => exact Or.inl hrest
      | cons q ps =>
        have hq : ρ (A + p.2) = q.1 := hrest.2.1 _ le_rfl (lt_add_of_pos_right _ hrest.1)
        exact Or.inr (hq ▸ (List.isChain_cons_cons.mp hne).1.symm)
    obtain ⟨hfinite, hsum⟩ := ih hrest hne.tail
    have hnotMem : (A, A + p.2) ∉ maximalSegments ρ (A + p.2) S := fun hmem =>
      absurd hmem.start_le hlt.not_ge
    rw [maximalSegments_eq_insert hlt hrest.le hc hB]
    refine ⟨hfinite.insert _, ?_⟩
    rw [finsum_mem_insert _ hnotMem hfinite, hsum, List.map_cons, List.sum_cons, hc A le_rfl hlt,
      add_sub_cancel_left]

/-- A sum over the maximal segments is a sum over the runs of equal pieces. -/
theorem finsum_maximalSegments [DecidableEq κ] [AddCommMonoid N] (f : κ → T → N)
    (h : Describes ρ A S ps) :
    ∑ᶠ p ∈ maximalSegments ρ A S, f (ρ p.1) (p.2 - p.1) =
      ((mergeRuns ps).map fun p => f p.1 p.2).sum :=
  (finsum_of_isChain f h.mergeRuns isChain_mergeRuns).2

end Pieces

end StepFunction
