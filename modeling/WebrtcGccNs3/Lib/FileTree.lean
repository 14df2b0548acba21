import Mathlib.Data.Finset.Insert
import Mathlib.Data.Finset.Disjoint
import Mathlib.Data.List.Infix

/-!
# A finite tree of directories and files

A node is the list of the names that lead to it from the root. `mkdir` and `stat` fail
as they do in POSIX, if permission is never denied. `GrowsTo` is what making a directory
together with its ancestors may do to the tree.
-/

inductive Errno where
  | eexist
  | enoent
  | enotdir
  deriving DecidableEq

inductive FileKind where
  | dir
  | file
  deriving DecidableEq

structure FileTree (ν : Type*) where
  dirs : Finset (List ν)
  files : Finset (List ν)
  root_mem : [] ∈ dirs
  parent_mem : ∀ node, node ∈ dirs ∨ node ∈ files → node.dropLast ∈ dirs
  disjoint : Disjoint dirs files

namespace FileTree

section Nodes

variable {ν : Type*} {t : FileTree ν} {node p : List ν}

/-- There is a file on the way to the node, or at its end. -/
def Blocked (t : FileTree ν) (node : List ν) : Prop := ∃ file ∈ t.files, file <+: node

theorem mem_dirs_of_isPrefix (hp : p <+: node) (hnode : node ∈ t.dirs) : p ∈ t.dirs := by
  obtain ⟨rest, rfl⟩ := hp
  induction rest using List.reverseRecOn with
  | nil => rwa [List.append_nil] at hnode
  | append_singleton rest name ih =>
    have hparent := t.parent_mem _ (Or.inl hnode)
    rw [← List.append_assoc, List.dropLast_concat] at hparent
    exact ih hparent

theorem not_mem_files (hnode : node ∈ t.dirs) : node ∉ t.files :=
  Finset.disjoint_left.mp t.disjoint hnode

theorem not_blocked (hnode : node ∈ t.dirs) : ¬ t.Blocked node := by
  rintro ⟨file, hfile, hprefix⟩
  exact not_mem_files (mem_dirs_of_isPrefix hprefix hnode) hfile

/-- What is on the way to a node is the node, or on the way to its parent. -/
theorem blocked_iff : t.Blocked node ↔ node ∈ t.files ∨ t.Blocked node.dropLast := by
  constructor
  · rintro ⟨file, hfile, rest, rfl⟩
    by_cases hrest : rest = []
    · exact Or.inl (by rwa [hrest, List.append_nil])
    · refine Or.inr ⟨file, hfile, ?_⟩
      rw [List.dropLast_append_of_ne_nil hrest]
      exact List.prefix_append _ _
  · rintro (hfile | ⟨file, hfile, hprefix⟩)
    · exact ⟨node, hfile, List.prefix_rfl⟩
    · exact ⟨file, hfile, hprefix.trans (List.dropLast_prefix node)⟩

theorem Blocked.mono (h : t.Blocked p) (hp : p <+: node) : t.Blocked node := by
  obtain ⟨file, hfile, hprefix⟩ := h
  exact ⟨file, hfile, hprefix.trans hp⟩

end Nodes

section Calls

variable {ν : Type*} [DecidableEq ν] {t t' : FileTree ν} {node : List ν}

instance (t : FileTree ν) (node : List ν) : Decidable (t.Blocked node) :=
  inferInstanceAs (Decidable (∃ file ∈ t.files, file <+: node))

/-- Why a name is not found in `parent`. -/
def missing (t : FileTree ν) (parent : List ν) : Errno :=
  if t.Blocked parent then .enotdir else .enoent

def insertDir (t : FileTree ν) (node : List ν) (hparent : node.dropLast ∈ t.dirs)
    (hfile : node ∉ t.files) : FileTree ν where
  dirs := insert node t.dirs
  files := t.files
  root_mem := Finset.mem_insert_of_mem t.root_mem
  parent_mem := by
    rintro n (hn | hn)
    · rcases Finset.mem_insert.mp hn with rfl | hn
      · exact Finset.mem_insert_of_mem hparent
      · exact Finset.mem_insert_of_mem (t.parent_mem n (Or.inl hn))
    · exact Finset.mem_insert_of_mem (t.parent_mem n (Or.inr hn))
  disjoint := Finset.disjoint_insert_left.mpr ⟨hfile, t.disjoint⟩

def mkdir (t : FileTree ν) (node : List ν) : Except Errno (FileTree ν) :=
  if hexists : node ∈ t.dirs ∨ node ∈ t.files then .error .eexist
  else if hparent : node.dropLast ∈ t.dirs then
    .ok (t.insertDir node hparent fun hfile => hexists (Or.inr hfile))
  else .error (t.missing node.dropLast)

def stat (t : FileTree ν) (node : List ν) : Except Errno FileKind :=
  if node ∈ t.dirs then .ok .dir
  else if node ∈ t.files then .ok .file
  else .error (t.missing node.dropLast)

theorem stat_eq_dir_iff : t.stat node = .ok .dir ↔ node ∈ t.dirs := by
  rw [stat]
  split_ifs with hdir hfile <;> simp [hdir]

theorem mkdir_eq_ok (h : t.mkdir node = .ok t') :
    node ∉ t.dirs ∧ node ∉ t.files ∧ node.dropLast ∈ t.dirs ∧
      t'.dirs = insert node t.dirs ∧ t'.files = t.files := by
  rw [mkdir] at h
  split_ifs at h with hexists hparent
  cases h
  exact ⟨fun hdir => hexists (Or.inl hdir), fun hfile => hexists (Or.inr hfile), hparent, rfl, rfl⟩

theorem mem_of_mkdir (h : t.mkdir node = .ok t') : node ∈ t'.dirs := by
  obtain ⟨-, -, -, hdirs, -⟩ := mkdir_eq_ok h
  rw [hdirs]
  exact Finset.mem_insert_self _ _

theorem exists_mkdir_eq_ok (hdir : node ∉ t.dirs) (hfile : node ∉ t.files)
    (hparent : node.dropLast ∈ t.dirs) : ∃ t', t.mkdir node = .ok t' := by
  rw [mkdir, dif_neg (not_or.mpr ⟨hdir, hfile⟩), dif_pos hparent]
  exact ⟨_, rfl⟩

theorem mkdir_eq_eexist_iff : t.mkdir node = .error .eexist ↔ node ∈ t.dirs ∨ node ∈ t.files := by
  rw [mkdir, missing]
  split_ifs with hexists <;> simp [hexists]

theorem mkdir_eq_enoent_iff :
    t.mkdir node = .error .enoent ↔ node.dropLast ∉ t.dirs ∧ ¬ t.Blocked node.dropLast := by
  rw [mkdir]
  split_ifs with hexists hparent
  · simp [t.parent_mem node hexists]
  · simp [hparent]
  · simp [hparent, missing]

theorem mkdir_eq_enotdir (h : t.mkdir node = .error .enotdir) : t.Blocked node.dropLast := by
  by_contra hblocked
  rw [mkdir, missing, if_neg hblocked] at h
  split_ifs at h <;> cases h

/-- Where the parent of a node is there, no parent is missing on the way to it. -/
theorem mkdir_ne_enoent_of_isPrefix {p : List ν} (hnode : node.dropLast ∈ t.dirs) (hp : p <+: node) :
    t.mkdir p ≠ .error .enoent := by
  intro hmissing
  obtain ⟨hparent, -⟩ := mkdir_eq_enoent_iff.mp hmissing
  obtain ⟨rest, rfl⟩ := hp
  by_cases hrest : rest = []
  · rw [hrest, List.append_nil] at hnode
    exact hparent hnode
  · rw [List.dropLast_append_of_ne_nil hrest] at hnode
    exact hparent (t.parent_mem p (Or.inl (mem_dirs_of_isPrefix (List.prefix_append _ _) hnode)))

end Calls

/-! ## Making a directory with its ancestors -/

section Growth

variable {ν : Type*} {t t' t'' : FileTree ν} {node node' : List ν} {name : ν}

/-- Nothing is removed, and what is new leads to the node. -/
structure GrowsTo (t t' : FileTree ν) (node : List ν) : Prop where
  files : t'.files = t.files
  keeps : t.dirs ⊆ t'.dirs
  new : ∀ n ∈ t'.dirs, n ∈ t.dirs ∨ n <+: node

namespace GrowsTo

theorem refl (t : FileTree ν) (node : List ν) : GrowsTo t t node :=
  ⟨rfl, Finset.Subset.refl _, fun _ hn => Or.inl hn⟩

theorem trans (h : GrowsTo t t' node) (h' : GrowsTo t' t'' node) : GrowsTo t t'' node := by
  refine ⟨h'.files.trans h.files, h.keeps.trans h'.keeps, fun n hn => ?_⟩
  rcases h'.new n hn with hn | hn
  · exact h.new n hn
  · exact Or.inr hn

theorem mono (h : GrowsTo t t' node) (hnode : node <+: node') : GrowsTo t t' node' :=
  ⟨h.files, h.keeps, fun n hn => (h.new n hn).imp_right fun hn => hn.trans hnode⟩

theorem of_mkdir [DecidableEq ν] (h : t.mkdir node = .ok t') : GrowsTo t t' node := by
  obtain ⟨-, -, -, hdirs, hfiles⟩ := mkdir_eq_ok h
  refine ⟨hfiles, hdirs ▸ Finset.subset_insert _ _, fun n hn => ?_⟩
  rw [hdirs] at hn
  rcases Finset.mem_insert.mp hn with rfl | hn
  · exact Or.inr List.prefix_rfl
  · exact Or.inl hn

end GrowsTo

variable [DecidableEq ν]

/-- If a name is not found for want of a parent, the parent can be made, or has none itself. -/
theorem mkdir_parent (h : t.mkdir (node ++ [name]) = .error .enoent) :
    (∃ t', t.mkdir node = .ok t') ∨ t.mkdir node = .error .enoent := by
  obtain ⟨hparent, hblocked⟩ := mkdir_eq_enoent_iff.mp h
  rw [List.dropLast_concat] at hparent hblocked
  by_cases habove : node.dropLast ∈ t.dirs
  · apply Or.inl
    exact exists_mkdir_eq_ok hparent (fun hfile => hblocked ⟨node, hfile, List.prefix_rfl⟩) habove
  · apply Or.inr
    exact mkdir_eq_enoent_iff.mpr ⟨habove, fun h => hblocked (h.mono (List.dropLast_prefix node))⟩

/-- Growth towards the parent makes no child of it. -/
theorem GrowsTo.not_mem_child (h : t.mkdir (node ++ [name]) = .error .enoent)
    (hgrows : GrowsTo t t' node) : node ++ [name] ∉ t'.dirs := by
  intro hchild
  obtain ⟨hparent, -⟩ := mkdir_eq_enoent_iff.mp h
  rcases hgrows.new _ hchild with hold | hprefix
  · exact hparent (t.parent_mem _ (Or.inl hold))
  · have hlength := hprefix.length_le
    rw [List.length_append, List.length_singleton] at hlength
    omega

/-- With the parent made, the second attempt succeeds. -/
theorem GrowsTo.exists_mkdir_child (h : t.mkdir (node ++ [name]) = .error .enoent)
    (hgrows : GrowsTo t t' node) (hnode : node ∈ t'.dirs) :
    ∃ t'', t'.mkdir (node ++ [name]) = .ok t'' := by
  obtain ⟨hparent, -⟩ := mkdir_eq_enoent_iff.mp h
  apply exists_mkdir_eq_ok (hgrows.not_mem_child h)
  · rw [hgrows.files]
    exact fun hfile => hparent (t.parent_mem _ (Or.inr hfile))
  · rwa [List.dropLast_concat]

end Growth

end FileTree
