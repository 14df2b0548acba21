import WebrtcGccNs3.Lib.FileTree
import Mathlib.Algebra.Group.Nat.Defs
import Mathlib.Algebra.Group.Int.Defs

/-!
# MakePath

The directory of the traces is made by `MakePath` of webrtc-trace.cc, a `mkdir -p`: if the
parent of a path does not exist, make the part before the last slash and try again. The file
system is a tree with a working directory, where no other process is at work. Its paths have
no NUL, and `.` and `..` are not told from other names.
-/
namespace WebrtcGccNs3.Wire

/-- A `std::string`, of which `c_str` is all. -/
abbrev Path := List Char

/-- The names between the slashes. -/
def components (path : Path) : List (List Char) := (path.splitOn '/').filter (· ≠ [])

def S_IFDIR : UInt32 := 0o040000
def S_IFREG : UInt32 := 0o100000

structure FileSystem extends FileTree (List Char) where
  cwd : List (List Char)
  cwd_mem : cwd ∈ dirs

namespace FileSystem

/-- The node that a path names, there or not. Only the empty path names none. -/
def resolve (fs : FileSystem) : Path → Option (List (List Char))
  | [] => none
  | c :: path =>
    if c = '/' then some (components (c :: path)) else some (fs.cwd ++ components (c :: path))

def mkdir (fs : FileSystem) (path : Path) : Except Errno FileSystem :=
  match fs.resolve path with
  | none => .error .enoent
  | some node =>
    match h : fs.toFileTree.mkdir node with
    | .ok t => .ok ⟨t, fs.cwd, (FileTree.GrowsTo.of_mkdir h).keeps fs.cwd_mem⟩
    | .error errno => .error errno

def stMode : FileKind → UInt32
  | .dir => S_IFDIR ||| 0o755
  | .file => S_IFREG ||| 0o644

/-- The `st_mode` of what the path names. -/
def stat (fs : FileSystem) (path : Path) : Except Errno UInt32 :=
  match fs.resolve path with
  | none => .error .enoent
  | some node => (fs.toFileTree.stat node).map stMode

def NamesDir (fs : FileSystem) (path : Path) : Prop := ∃ node ∈ fs.resolve path, node ∈ fs.dirs

end FileSystem

/-- `find_last_of` with one character. `none` is `npos`. -/
def findLastOf (c : Char) : Path → Option ℕ
  | [] => none
  | x :: s =>
    match findLastOf c s with
    | some pos => some (pos + 1)
    | none => if x = c then some 0 else none

theorem findLastOf_eq_none_iff {c : Char} {s : Path} : findLastOf c s = none ↔ c ∉ s := by
  induction s with
  | nil => simp [findLastOf]
  | cons x s ih =>
    rw [findLastOf]
    cases hs : findLastOf c s with
    | some pos => simp [hs] at ih; simp [ih]
    | none => simp [ih.mp hs, eq_comm]

theorem findLastOf_eq_some {c : Char} {s : Path} {pos : ℕ} (h : findLastOf c s = some pos) :
    ∃ u name, s = u ++ c :: name ∧ c ∉ name ∧ u.length = pos := by
  induction s generalizing pos with
  | nil => cases h
  | cons x s ih =>
    rw [findLastOf] at h
    cases hs : findLastOf c s with
    | some pos' =>
      rw [hs] at h
      obtain ⟨u, name, rfl, hname, rfl⟩ := ih hs
      exact ⟨x :: u, name, rfl, hname, Option.some.inj h⟩
    | none =>
      simp only [hs, Option.ite_none_right_eq_some, Option.some.injEq] at h
      obtain ⟨rfl, rfl⟩ := h
      exact ⟨[], s, rfl, findLastOf_eq_none_iff.mp hs, rfl⟩

theorem lt_of_mem_findLastOf {c : Char} {s : Path} {pos : ℕ} (h : pos ∈ findLastOf c s) :
    pos < s.length := by
  obtain ⟨u, name, rfl, -, rfl⟩ := findLastOf_eq_some h
  simp

theorem findLastOf_append {c : Char} {name : Path} (hname : c ∉ name) (u : Path) :
    findLastOf c (u ++ c :: name) = some u.length := by
  induction u with
  | nil => simp [findLastOf, findLastOf_eq_none_iff.mpr hname]
  | cons x u ih => rw [List.cons_append, findLastOf, ih]; rfl

def isDirExist (fs : FileSystem) (path : Path) : Bool :=
  match fs.stat path with
  | .error _ => false
  | .ok st_mode => st_mode &&& S_IFDIR ≠ 0

/-- What it returns and leaves. The position of the last slash is converted to `int`, and the
language does not say what becomes of one from `2 ^ 31` on; that is `none`. -/
def makePath (fs : FileSystem) (path : Path) : Option (Bool × FileSystem) :=
  match fs.mkdir path with
  | .ok fs' => some (true, fs')
  | .error .enoent =>
    match _h : findLastOf '/' path with
    | none => some (false, fs)
    | some pos =>
      if pos < 2 ^ 31 then
        match makePath fs (path.take pos) with
        | none => none
        | some (false, fs') => some (false, fs')
        | some (true, fs') =>
          match fs'.mkdir path with
          | .ok fs'' => some (true, fs'')
          | .error _ => some (false, fs')
      else none
  | .error .eexist => some (isDirExist fs path, fs)
  | .error .enotdir => some (false, fs)
termination_by path.length
decreasing_by
  have hpos := lt_of_mem_findLastOf ‹_›
  simp only [List.length_take]
  omega

/-- `path` is a directory afterwards exactly if it says so. Nothing was removed, and nothing
created but what leads to it. -/
structure MakesPath (fs : FileSystem) (path : Path) (created : Bool) (fs' : FileSystem) : Prop where
  returns : created = true ↔ fs'.NamesDir path
  cwd : fs'.cwd = fs.cwd
  files : fs'.files = fs.files
  keeps : fs.dirs ⊆ fs'.dirs
  new : ∀ node ∈ fs'.dirs, node ∈ fs.dirs ∨ ∃ target ∈ fs.resolve path, node <+: target

/-- Before the last name a slash is repeated, and what stands before it has no parent. -/
def GivesUp (fs : FileSystem) (path : Path) : Prop :=
  ∃ w v, path = w ++ '/' :: '/' :: v ∧ w ≠ [] ∧ fs.mkdir w = .error .enoent ∧ ∃ c ∈ v, c ≠ '/'

/-! ## Paths in the tree -/

section Resolve

variable {fs fs' : FileSystem} {path u v w x name : Path} {node : List (List Char)}

theorem components_append (u x : Path) : components (u ++ '/' :: x) = components u ++ components x := by
  rw [components, List.splitOn_eq_splitOnP, List.splitOnP_append_cons u x (by simp), List.filter_append]
  rfl

@[simp] theorem components_nil : components [] = [] := rfl

theorem components_name (hname : '/' ∉ name) (hne : name ≠ []) : components name = [name] := by
  rw [components, List.splitOn_eq_singleton hname]
  simp [hne]

namespace FileSystem

theorem resolve_append (hu : fs.resolve u = some node) (x : Path) :
    fs.resolve (u ++ '/' :: x) = some (node ++ components x) := by
  cases u with
  | nil => cases hu
  | cons c u =>
    rw [resolve] at hu
    rw [List.cons_append, resolve, ← List.cons_append, components_append]
    split_ifs at hu ⊢ <;> cases hu
    · rfl
    · rw [List.append_assoc]

/-- A slash at the end does not count. -/
theorem resolve_slash (hu : fs.resolve u = some node) : fs.resolve (u ++ ['/']) = some node := by
  simpa using resolve_append hu []

theorem exists_resolve (fs : FileSystem) (hpath : path ≠ []) : ∃ node, fs.resolve path = some node := by
  cases path with
  | nil => exact absurd rfl hpath
  | cons c path =>
    rw [resolve]
    split_ifs <;> exact ⟨_, rfl⟩

theorem resolve_congr (hcwd : fs'.cwd = fs.cwd) (path : Path) : fs'.resolve path = fs.resolve path := by
  cases path with
  | nil => rfl
  | cons c path => rw [resolve, resolve, hcwd]

theorem mkdir_eq_ok (h : fs.mkdir path = .ok fs') :
    ∃ node, fs.resolve path = some node ∧ fs.toFileTree.mkdir node = .ok fs'.toFileTree ∧
      fs'.cwd = fs.cwd := by
  rw [mkdir] at h
  split at h
  · cases h
  · rename_i node hnode
    split at h
    · rename_i t ht
      cases h
      exact ⟨node, hnode, ht, rfl⟩
    · cases h

theorem mkdir_of_ok {t : FileTree (List Char)} (hnode : fs.resolve path = some node)
    (h : fs.toFileTree.mkdir node = .ok t) :
    ∃ fs', fs.mkdir path = .ok fs' ∧ fs'.toFileTree = t ∧ fs'.cwd = fs.cwd := by
  rw [mkdir, hnode]
  simp only
  split
  · rename_i t' ht'
    exact ⟨_, rfl, Except.ok.inj (ht'.symm.trans h), rfl⟩
  · rename_i errno herrno
    rw [herrno] at h
    cases h

theorem mkdir_eq_error_iff {errno : Errno} (hnode : fs.resolve path = some node) :
    fs.mkdir path = .error errno ↔ fs.toFileTree.mkdir node = .error errno := by
  rw [mkdir, hnode]
  simp only
  split
  · rename_i t ht
    simp [ht]
  · rename_i errno' herrno'
    simp [herrno']

/-- The path names the same node as before. -/
theorem namesDir_iff (hcwd : fs'.cwd = fs.cwd) (hnode : fs.resolve path = some node) :
    fs'.NamesDir path ↔ node ∈ fs'.dirs := by
  simp [NamesDir, resolve_congr hcwd, hnode]

end FileSystem

/-- A mode has the bit of directories exactly if it is the mode of one. -/
theorem isDirExist_iff : isDirExist fs path = true ↔ fs.NamesDir path := by
  cases hpath : fs.resolve path with
  | none => simp [isDirExist, FileSystem.stat, FileSystem.NamesDir, hpath]
  | some node =>
    have hmode : fs.stat path = (fs.toFileTree.stat node).map FileSystem.stMode := by
      rw [FileSystem.stat, hpath]
    rw [isDirExist, hmode, FileSystem.namesDir_iff rfl hpath, ← FileTree.stat_eq_dir_iff]
    rcases fs.toFileTree.stat node with errno | _ | _
    · exact iff_of_false Bool.false_ne_true nofun
    · exact iff_of_true (by decide) rfl
    · exact iff_of_false (by decide) nofun

end Resolve

/-! ## Giving up -/

section GivesUp

variable {fs fs' : FileSystem} {path u v w x name : Path} {node : List (List Char)}

theorem exists_append_slash (hname : '/' ∉ name) (h : u ++ '/' :: name = w ++ '/' :: '/' :: v) :
    ∃ x, u = w ++ '/' :: x ∧ (x = [] ∨ ∃ v', x = '/' :: v' ∧ v = v' ++ '/' :: name) := by
  have h' : u ++ '/' :: name = (w ++ ['/']) ++ '/' :: v := by
    rw [h, List.append_assoc, List.singleton_append]
  rcases List.append_eq_append_iff.mp h' with ⟨x, hu, hx⟩ | ⟨x, hu, hx⟩
  · cases x with
    | nil => exact ⟨[], by rw [← List.append_nil u, ← hu], Or.inl rfl⟩
    | cons c x =>
      obtain ⟨-, rfl⟩ := List.cons.inj hx
      exact absurd (List.mem_append_right x List.mem_cons_self) hname
  · refine ⟨x, by rw [hu, List.append_assoc, List.singleton_append], ?_⟩
    cases x with
    | nil => exact Or.inl rfl
    | cons c x =>
      obtain ⟨rfl, rfl⟩ := List.cons.inj hx
      exact Or.inr ⟨x, rfl, rfl⟩

theorem givesUp_slash : GivesUp fs (u ++ ['/']) ↔ GivesUp fs u := by
  constructor
  · rintro ⟨w, v, hpath, hw, hmissing, c, hc, hne⟩
    obtain ⟨v, last, rfl⟩ := (List.eq_nil_or_concat' v).resolve_left (List.ne_nil_of_mem hc)
    have hpath' : u ++ ['/'] = (w ++ '/' :: '/' :: v) ++ [last] := by
      rw [hpath, List.append_assoc, List.cons_append, List.cons_append]
    obtain ⟨rfl, hlast⟩ := List.append_inj' hpath' rfl
    obtain rfl : '/' = last := List.cons.inj hlast |>.1
    rcases List.mem_append.mp hc with hc | hc
    · exact ⟨w, v, rfl, hw, hmissing, c, hc, hne⟩
    · exact absurd (List.mem_singleton.mp hc) hne
  · rintro ⟨w, v, rfl, hw, hmissing, c, hc, hne⟩
    exact ⟨w, v ++ ['/'], by rw [List.append_assoc, List.cons_append, List.cons_append], hw, hmissing, c,
      List.mem_append_left _ hc, hne⟩

/-- No parent is missing on the way to a node whose parent is there. -/
theorem mkdir_ne_enoent (hw : w ≠ []) (hnode : fs.resolve (w ++ '/' :: x) = some node)
    (hparent : node.dropLast ∈ fs.dirs) : fs.mkdir w ≠ .error .enoent := by
  obtain ⟨above, habove⟩ := fs.exists_resolve hw
  obtain rfl : above ++ components x = node :=
    Option.some.inj ((FileSystem.resolve_append habove x).symm.trans hnode)
  intro hmissing
  exact FileTree.mkdir_ne_enoent_of_isPrefix hparent (List.prefix_append _ _)
    ((FileSystem.mkdir_eq_error_iff habove).mp hmissing)

theorem not_givesUp (hnode : fs.resolve path = some node) (hparent : node.dropLast ∈ fs.dirs) :
    ¬ GivesUp fs path := by
  rintro ⟨w, v, rfl, hw, hmissing, -⟩
  exact mkdir_ne_enoent hw hnode hparent hmissing

/-- Where the parent can be made, nothing is given up. -/
theorem not_givesUp_name (hname : '/' ∉ name) (hu : fs.mkdir u = .ok fs') :
    ¬ GivesUp fs (u ++ '/' :: name) := by
  rintro ⟨w, v, hpath, hw, hmissing, -⟩
  obtain ⟨x, rfl, -⟩ := exists_append_slash hname hpath
  obtain ⟨node, hnode, hmade, -⟩ := FileSystem.mkdir_eq_ok hu
  obtain ⟨-, -, hparent, -⟩ := FileTree.mkdir_eq_ok hmade
  exact mkdir_ne_enoent hw hnode hparent hmissing

theorem mkdir_slash_eq_enoent (h : fs.mkdir (w ++ ['/']) = .error .enoent) :
    w ≠ [] ∧ fs.mkdir w = .error .enoent := by
  by_cases hw : w = []
  · have hnode : fs.resolve ['/'] = some [] := rfl
    have hroot : fs.mkdir ['/'] = .error .eexist :=
      (FileSystem.mkdir_eq_error_iff hnode).mpr (FileTree.mkdir_eq_eexist_iff.mpr (Or.inl fs.root_mem))
    rw [hw, List.nil_append, hroot] at h
    cases h
  · obtain ⟨node, hnode⟩ := fs.exists_resolve hw
    have hslash := (FileSystem.mkdir_eq_error_iff (FileSystem.resolve_slash hnode)).mp h
    exact ⟨hw, (FileSystem.mkdir_eq_error_iff hnode).mpr hslash⟩

/-- Where the parent has no parent either, its own last slash counts too. -/
theorem givesUp_name_iff (hname : '/' ∉ name) (hne : name ≠ []) (hu : fs.mkdir u = .error .enoent) :
    GivesUp fs (u ++ '/' :: name) ↔ u.getLast? = some '/' ∨ GivesUp fs u := by
  constructor
  · rintro ⟨w, v, hpath, hw, hmissing, -⟩
    obtain ⟨x, rfl, rfl | ⟨v, rfl, -⟩⟩ := exists_append_slash hname hpath
    · exact Or.inl List.getLast?_concat
    · rcases List.eq_nil_or_concat' v with rfl | ⟨v, c, rfl⟩
      · exact Or.inl (by simp)
      · by_cases hc : c = '/'
        · have hlast : w ++ '/' :: '/' :: (v ++ [c]) = (w ++ '/' :: '/' :: v) ++ [c] := by simp
          exact Or.inl (by rw [hlast, List.getLast?_concat, hc])
        · exact Or.inr ⟨w, v ++ [c], rfl, hw, hmissing, c, by simp, hc⟩
  · rintro (hlast | ⟨w, v, rfl, hw, hmissing, hv⟩)
    · obtain ⟨w, rfl⟩ := List.getLast?_eq_some_iff.mp hlast
      obtain ⟨hw, hmissing⟩ := mkdir_slash_eq_enoent hu
      obtain ⟨c, hc⟩ := List.exists_mem_of_ne_nil name hne
      exact ⟨w, name, by rw [List.append_assoc, List.singleton_append], hw, hmissing, c, hc,
        fun h => hname (h ▸ hc)⟩
    · obtain ⟨c, hc, hslash⟩ := hv
      exact ⟨w, v ++ '/' :: name, by rw [List.append_assoc, List.cons_append, List.cons_append], hw,
        hmissing, c, List.mem_append_left _ hc, hslash⟩

end GivesUp

/-! ## The run -/

section Run

variable {fs fs' fs'' : FileSystem} {path u name : Path} {node : List (List Char)} {created : Bool}

/-- What the second attempt makes of the first part's result. -/
theorem makePath_append (h : fs.mkdir (u ++ '/' :: name) = .error .enoent) (hname : '/' ∉ name)
    (hfits : u.length < 2 ^ 31) (hu : makePath fs u = some (created, fs')) :
    makePath fs (u ++ '/' :: name) =
      if created then
        match fs'.mkdir (u ++ '/' :: name) with
        | .ok fs'' => some (true, fs'')
        | .error _ => some (false, fs')
      else some (false, fs') := by
  rw [makePath, h]
  simp only
  split
  · rename_i hnone
    rw [findLastOf_append hname] at hnone
    cases hnone
  · rename_i pos hpos
    obtain rfl : u.length = pos := Option.some.inj ((findLastOf_append hname u).symm.trans hpos)
    rw [if_pos hfits, List.take_left, hu]
    cases created <;> rfl

/-- A path in the working directory or in the root has a parent. -/
theorem exists_slash (hnode : fs.resolve path = some node) (h : fs.mkdir path = .error .enoent) :
    ∃ u name, path = u ++ '/' :: name ∧ '/' ∉ name ∧ u ≠ [] := by
  obtain ⟨hparent, -⟩ := FileTree.mkdir_eq_enoent_iff.mp ((FileSystem.mkdir_eq_error_iff hnode).mp h)
  cases hpos : findLastOf '/' path with
  | none =>
    have hslash := findLastOf_eq_none_iff.mp hpos
    cases path with
    | nil => cases hnode
    | cons c path =>
      have hc : c ≠ '/' := fun hc => hslash (hc ▸ List.mem_cons_self)
      rw [FileSystem.resolve, if_neg hc, components_name hslash (List.cons_ne_nil _ _)] at hnode
      rw [← Option.some.inj hnode, List.dropLast_concat] at hparent
      exact absurd fs.cwd_mem hparent
  | some pos =>
    obtain ⟨u, name, rfl, hname, -⟩ := findLastOf_eq_some hpos
    refine ⟨u, name, rfl, hname, ?_⟩
    rintro rfl
    have hnode' : components ('/' :: name) = node := Option.some.inj hnode
    rw [show components ('/' :: name) = components name from components_append [] name] at hnode'
    by_cases hne : name = []
    · rw [← hnode', hne] at hparent
      exact hparent fs.root_mem
    · rw [← hnode', components_name hname hne] at hparent
      exact hparent fs.root_mem

/-- What comes of a run that starts with `ENOENT`. -/
structure Outcome (fs : FileSystem) (path : Path) (node : List (List Char)) (created : Bool)
    (fs' : FileSystem) : Prop where
  run : makePath fs path = some (created, fs')
  cwd : fs'.cwd = fs.cwd
  grows : FileTree.GrowsTo fs.toFileTree fs'.toFileTree node
  made : node ∈ fs'.dirs ↔ ¬ GivesUp fs path
  returns : created = true ↔ path.getLast? ≠ some '/' ∧ ¬ GivesUp fs path

/-- The second attempt at the directory that the first part has named already. -/
theorem outcome_slash (h : fs.mkdir (u ++ ['/']) = .error .enoent) (hlength : u.length < 2 ^ 31)
    (hnode : fs.resolve (u ++ ['/']) = some node) (hu : Outcome fs u node created fs') :
    Outcome fs (u ++ ['/']) node false fs' := by
  refine ⟨?_, hu.cwd, hu.grows, hu.made.trans (not_congr givesUp_slash.symm), by simp⟩
  rw [makePath_append h List.not_mem_nil hlength hu.run]
  cases created with
  | false => rfl
  | true =>
    have hexists : fs'.mkdir (u ++ ['/']) = .error .eexist :=
      (FileSystem.mkdir_eq_error_iff ((FileSystem.resolve_congr hu.cwd _).trans hnode)).mpr
        (FileTree.mkdir_eq_eexist_iff.mpr (Or.inl (hu.made.mpr (hu.returns.mp rfl).2)))
    rw [hexists]
    rfl

/-- The second attempt at a child of the directory that the first part has named. -/
theorem outcome_name {parent : List (List Char)} (hname : '/' ∉ name) (hne : name ≠ [])
    (h : fs.mkdir (u ++ '/' :: name) = .error .enoent) (hlength : u.length < 2 ^ 31)
    (hnode : fs.resolve (u ++ '/' :: name) = some (parent ++ [name]))
    (hrun : makePath fs u = some (created, fs')) (hcwd : fs'.cwd = fs.cwd)
    (hgrows : FileTree.GrowsTo fs.toFileTree fs'.toFileTree parent)
    (hmade : created = true → parent ∈ fs'.dirs)
    (hreturns : created = true ↔ ¬ GivesUp fs (u ++ '/' :: name)) :
    ∃ fs'', Outcome fs (u ++ '/' :: name) (parent ++ [name]) created fs'' := by
  have hmissing := (FileSystem.mkdir_eq_error_iff hnode).mp h
  have hgrows' := hgrows.mono (List.prefix_append parent [name])
  have hlast : (u ++ '/' :: name).getLast? ≠ some '/' := by
    rw [List.getLast?_append_cons, List.getLast?_cons_of_ne_nil hne]
    exact fun hlast => hname (List.mem_of_getLast? hlast)
  have hreturns' := hreturns.trans (and_iff_right hlast).symm
  have hrun' := makePath_append h hname hlength hrun
  cases created with
  | false =>
    have hnot : parent ++ [name] ∈ fs'.dirs ↔ false = true :=
      iff_of_false (hgrows.not_mem_child hmissing) Bool.false_ne_true
    exact ⟨fs', hrun', hcwd, hgrows', hnot.trans hreturns, hreturns'⟩
  | true =>
    obtain ⟨t, ht⟩ := hgrows.exists_mkdir_child hmissing (hmade rfl)
    obtain ⟨fs'', hmkdir, rfl, hcwd'⟩ :=
      FileSystem.mkdir_of_ok ((FileSystem.resolve_congr hcwd _).trans hnode) ht
    rw [hmkdir] at hrun'
    have hmem : parent ++ [name] ∈ fs''.dirs ↔ true = true :=
      iff_of_true (FileTree.mem_of_mkdir ht) rfl
    exact ⟨fs'', hrun', hcwd'.trans hcwd, hgrows'.trans (.of_mkdir ht), hmem.trans hreturns, hreturns'⟩

/-- By recursion towards the root, as far as the directories are missing. -/
theorem exists_outcome (hnode : fs.resolve path = some node) (h : fs.mkdir path = .error .enoent)
    (hfits : ∀ pos ∈ findLastOf '/' path, pos < 2 ^ 31) :
    ∃ created fs', Outcome fs path node created fs' := by
  induction path using (measure List.length).wf.induction generalizing node with
  | _ path ih =>
    obtain ⟨u, name, rfl, hname, hu⟩ := exists_slash hnode h
    have hlength : u.length < 2 ^ 31 := hfits u.length (findLastOf_append hname u)
    have hfitsu : ∀ pos ∈ findLastOf '/' u, pos < 2 ^ 31 :=
      fun pos hpos => (lt_of_mem_findLastOf hpos).trans hlength
    have hshorter : u.length < (u ++ '/' :: name).length := by simp
    obtain ⟨parent, hparent⟩ := fs.exists_resolve hu
    obtain rfl : parent ++ components name = node :=
      Option.some.inj ((FileSystem.resolve_append hparent name).symm.trans hnode)
    by_cases hne : name = []
    · subst hne
      rw [components_nil, List.append_nil] at hnode ⊢
      obtain ⟨-, hmissing⟩ := mkdir_slash_eq_enoent h
      obtain ⟨created, fs', hout⟩ := ih u hshorter hparent hmissing hfitsu
      exact ⟨false, fs', outcome_slash h hlength hnode hout⟩
    · rw [components_name hname hne] at hnode ⊢
      rcases FileTree.mkdir_parent ((FileSystem.mkdir_eq_error_iff hnode).mp h) with ⟨t, ht⟩ | hmissing
      · obtain ⟨fs', hmkdir, rfl, hcwd⟩ := FileSystem.mkdir_of_ok hparent ht
        have hrun : makePath fs u = some (true, fs') := by rw [makePath, hmkdir]
        exact ⟨true, outcome_name hname hne h hlength hnode hrun hcwd (.of_mkdir ht)
          (fun _ => FileTree.mem_of_mkdir ht) (iff_of_true rfl (not_givesUp_name hname hmkdir))⟩
      · have hmissing : fs.mkdir u = .error .enoent := (FileSystem.mkdir_eq_error_iff hparent).mpr hmissing
        obtain ⟨created, fs', hout⟩ := ih u hshorter hparent hmissing hfitsu
        have hreturns : created = true ↔ ¬ GivesUp fs (u ++ '/' :: name) := by
          rw [hout.returns, givesUp_name_iff hname hne hmissing, not_or]
        exact ⟨created, outcome_name hname hne h hlength hnode hout.run hout.cwd hout.grows
          (fun hcreated => hout.made.mpr (hout.returns.mp hcreated).2) hreturns⟩

theorem makePath_eq_none {pos : ℕ} (h : fs.mkdir path = .error .enoent)
    (hpos : findLastOf '/' path = some pos) (hlarge : ¬ pos < 2 ^ 31) : makePath fs path = none := by
  rw [makePath, h]
  simp only
  split
  · rename_i hnone
    rw [hpos] at hnone
    cases hnone
  · rename_i pos' hpos'
    obtain rfl : pos = pos' := Option.some.inj (hpos.symm.trans hpos')
    exact if_neg hlarge

theorem mkdir_of_namesDir (h : fs.NamesDir path) : fs.mkdir path = .error .eexist := by
  obtain ⟨node, hnode, hmem⟩ := h
  exact (FileSystem.mkdir_eq_error_iff hnode).mpr (FileTree.mkdir_eq_eexist_iff.mpr (Or.inl hmem))

theorem MakesPath.of_grows (hnode : fs.resolve path = some node) (hcwd : fs'.cwd = fs.cwd)
    (hgrows : FileTree.GrowsTo fs.toFileTree fs'.toFileTree node)
    (hreturns : created = true ↔ node ∈ fs'.dirs) : MakesPath fs path created fs' := by
  refine ⟨?_, hcwd, hgrows.files, hgrows.keeps, fun n hn => ?_⟩
  · rw [hreturns, FileSystem.namesDir_iff hcwd hnode]
  · exact (hgrows.new n hn).imp_right fun hprefix => ⟨node, hnode, hprefix⟩

theorem MakesPath.of_same (hreturns : created = true ↔ fs.NamesDir path) : MakesPath fs path created fs :=
  ⟨hreturns, rfl, rfl, Finset.Subset.refl _, fun _ hn => Or.inl hn⟩

end Run

/-- The path is made unless a file is on the way to it or it is given up. -/
theorem makePath_namesDir_iff {fs : FileSystem} {path : Path} {node : List (List Char)}
    (hnode : fs.resolve path = some node) (hfits : ∀ pos ∈ findLastOf '/' path, pos < 2 ^ 31) :
    ∃ created fs', makePath fs path = some (created, fs') ∧
      (fs'.NamesDir path ↔ ¬ fs.Blocked node ∧ ¬ GivesUp fs path) := by
  cases hmkdir : fs.mkdir path with
  | ok fs' =>
    obtain ⟨node', hnode', ht, hcwd⟩ := FileSystem.mkdir_eq_ok hmkdir
    obtain rfl : node = node' := Option.some.inj (hnode.symm.trans hnode')
    obtain ⟨-, hfile, hparent, -⟩ := FileTree.mkdir_eq_ok ht
    have hblocked : ¬ fs.Blocked node := fun h =>
      (FileTree.blocked_iff.mp h).elim hfile (FileTree.not_blocked hparent)
    refine ⟨true, fs', by rw [makePath, hmkdir], ?_⟩
    rw [FileSystem.namesDir_iff hcwd hnode]
    exact iff_of_true (FileTree.mem_of_mkdir ht) ⟨hblocked, not_givesUp hnode hparent⟩
  | error errno =>
    cases errno with
    | eexist =>
      refine ⟨_, fs, by rw [makePath, hmkdir], ?_⟩
      have hexists := FileTree.mkdir_eq_eexist_iff.mp ((FileSystem.mkdir_eq_error_iff hnode).mp hmkdir)
      have hgives := not_givesUp hnode (fs.parent_mem node hexists)
      rw [FileSystem.namesDir_iff rfl hnode, and_iff_left hgives]
      exact ⟨FileTree.not_blocked, fun h => hexists.resolve_right fun hfile =>
        h (FileTree.blocked_iff.mpr (Or.inl hfile))⟩
    | enotdir =>
      have hblocked := FileTree.mkdir_eq_enotdir ((FileSystem.mkdir_eq_error_iff hnode).mp hmkdir)
      have hnot : fs.Blocked node := FileTree.blocked_iff.mpr (Or.inr hblocked)
      refine ⟨false, fs, by rw [makePath, hmkdir], ?_⟩
      rw [FileSystem.namesDir_iff rfl hnode]
      exact iff_of_false (fun h => FileTree.not_blocked h hnot) fun h => h.1 hnot
    | enoent =>
      obtain ⟨created, fs', hout⟩ := exists_outcome hnode hmkdir hfits
      obtain ⟨hparent, hblocked⟩ :=
        FileTree.mkdir_eq_enoent_iff.mp ((FileSystem.mkdir_eq_error_iff hnode).mp hmkdir)
      have hnot : ¬ fs.Blocked node := fun h => (FileTree.blocked_iff.mp h).elim
        (fun hfile => hparent (fs.parent_mem node (Or.inr hfile))) hblocked
      refine ⟨created, fs', hout.run, ?_⟩
      rw [FileSystem.namesDir_iff hout.cwd hnode, and_iff_right hnot]
      exact hout.made

/-- The trace path and the file system after it. `len` is an `int` too. -/
def setWebrtcTraceFolder (tracePath : Path) (fs : FileSystem) (path : Path) : Option (Path × FileSystem) :=
  if tracePath.length = 0 then
    if path.length < 2 ^ 31 then
      let tracePath := if path.length ≠ 0 ∧ path.getLast? ≠ some '/' then path ++ ['/'] else path
      (makePath fs tracePath).map fun made => (tracePath, made.2)
    else none
  else some (tracePath, fs)

/-- It does not ask whether `MakePath` says that the folder is there. -/
theorem setWebrtcTraceFolder_namesDir_iff {fs : FileSystem} {path : Path} {node : List (List Char)}
    (hnode : fs.resolve path = some node) (hlength : path.length < 2 ^ 31) :
    ∃ tracePath fs', setWebrtcTraceFolder [] fs path = some (tracePath, fs') ∧
      tracePath.getLast? = some '/' ∧
      (fs'.NamesDir tracePath ↔ ¬ fs.Blocked node ∧ ¬ GivesUp fs path) := by
  have hne : path.length ≠ 0 := by
    rintro hnil
    rw [List.length_eq_zero_iff.mp hnil] at hnode
    cases hnode
  rw [setWebrtcTraceFolder, if_pos List.length_nil, if_pos hlength]
  by_cases hlast : path.getLast? = some '/'
  · obtain ⟨created, fs', hrun, hmade⟩ :=
      makePath_namesDir_iff hnode fun pos hpos => (lt_of_mem_findLastOf hpos).trans hlength
    rw [if_neg fun h => h.2 hlast]
    exact ⟨path, fs', by simp [hrun], hlast, hmade⟩
  · have hfits : ∀ pos ∈ findLastOf '/' (path ++ ['/']), pos < 2 ^ 31 := by
      intro pos hpos
      rw [findLastOf_append List.not_mem_nil] at hpos
      exact Option.some.inj hpos ▸ hlength
    obtain ⟨created, fs', hrun, hmade⟩ := makePath_namesDir_iff (FileSystem.resolve_slash hnode) hfits
    rw [if_pos ⟨hne, hlast⟩]
    exact ⟨path ++ ['/'], fs', by simp [hrun], by simp, by rw [hmade, givesUp_slash]⟩

section Correctness

variable {fs fs' : FileSystem} {path : Path} {node : List (List Char)} {created : Bool}

theorem exists_makesPath (h : fs.mkdir path ≠ .error .enoent) :
    ∃ created fs', makePath fs path = some (created, fs') ∧ MakesPath fs path created fs' := by
  cases hmkdir : fs.mkdir path with
  | ok fs' =>
    obtain ⟨node, hnode, ht, hcwd⟩ := FileSystem.mkdir_eq_ok hmkdir
    have hreturns : true = true ↔ node ∈ fs'.dirs := iff_of_true rfl (FileTree.mem_of_mkdir ht)
    exact ⟨true, fs', by rw [makePath, hmkdir], .of_grows hnode hcwd (.of_mkdir ht) hreturns⟩
  | error errno =>
    cases errno with
    | eexist => exact ⟨_, fs, by rw [makePath, hmkdir], .of_same isDirExist_iff⟩
    | enotdir =>
      have hnot : ¬ fs.NamesDir path := fun h => by cases (mkdir_of_namesDir h).symm.trans hmkdir
      have hreturns : false = true ↔ fs.NamesDir path := iff_of_false Bool.false_ne_true hnot
      exact ⟨false, fs, by rw [makePath, hmkdir], .of_same hreturns⟩
    | enoent => exact absurd hmkdir h

theorem makesPath_nil : makePath fs [] = some (false, fs) ∧ MakesPath fs [] false fs := by
  have hmkdir : fs.mkdir [] = .error .enoent := rfl
  have hnot : ¬ fs.NamesDir [] := fun h => by cases (mkdir_of_namesDir h).symm.trans hmkdir
  exact ⟨by simp [makePath, hmkdir, findLastOf], .of_same (iff_of_false Bool.false_ne_true hnot)⟩

theorem makesPath_iff (hnode : fs.resolve path = some node) (hout : Outcome fs path node created fs') :
    MakesPath fs path created fs' ↔ path.getLast? ≠ some '/' ∨ GivesUp fs path := by
  constructor
  · intro hmakes
    have hreturns := hmakes.returns
    rw [FileSystem.namesDir_iff hout.cwd hnode, hout.made, hout.returns] at hreturns
    by_cases hgives : GivesUp fs path
    · exact Or.inr hgives
    · exact Or.inl (hreturns.mpr hgives).1
  · intro hwhen
    apply MakesPath.of_grows hnode hout.cwd hout.grows
    rw [hout.returns, hout.made]
    exact and_iff_right_of_imp hwhen.resolve_right

end Correctness

/-- `MakePath` is a `mkdir -p` where no parent is missing. Where one is, it is so exactly if the
position of the last slash is an `int`, and the path does not end with a slash or is given up. -/
theorem makePath_makesPath_iff (fs : FileSystem) (path : Path) :
    (∃ created fs', makePath fs path = some (created, fs') ∧ MakesPath fs path created fs') ↔
      fs.mkdir path ≠ .error .enoent ∨
        (∀ pos ∈ findLastOf '/' path, pos < 2 ^ 31) ∧
          (path.getLast? ≠ some '/' ∨ GivesUp fs path) := by
  by_cases hmkdir : fs.mkdir path = .error .enoent
  swap
  · exact iff_of_true (exists_makesPath hmkdir) (Or.inl hmkdir)
  rw [or_iff_right (not_not.mpr hmkdir)]
  by_cases hpath : path = []
  · subst hpath
    exact iff_of_true ⟨false, fs, makesPath_nil⟩ ⟨nofun, Or.inl nofun⟩
  obtain ⟨node, hnode⟩ := fs.exists_resolve hpath
  by_cases hfits : ∀ pos ∈ findLastOf '/' path, pos < 2 ^ 31
  · obtain ⟨created, fs', hout⟩ := exists_outcome hnode hmkdir hfits
    rw [and_iff_right hfits, ← makesPath_iff hnode hout]
    constructor
    · rintro ⟨created', fs'', hrun, hmakes⟩
      cases hrun.symm.trans hout.run
      exact hmakes
    · exact fun hmakes => ⟨created, fs', hout.run, hmakes⟩
  · refine iff_of_false ?_ fun hwhen => hfits hwhen.1
    push Not at hfits
    obtain ⟨pos, hpos, hlarge⟩ := hfits
    rintro ⟨created, fs', hrun, -⟩
    cases hrun.symm.trans (makePath_eq_none hmkdir hpos hlarge.not_gt)

/-- The root alone. -/
def FileSystem.root : FileSystem where
  dirs := {[]}
  files := ∅
  root_mem := Finset.mem_singleton_self []
  parent_mem := by simp
  disjoint := Finset.disjoint_empty_right _
  cwd := []
  cwd_mem := Finset.mem_singleton_self []

/-- The directory `a/b/` is made, but it returns `false`. -/
theorem missing_folder_with_slash_is_made_unnoticed :
    ¬ ∀ fs path, ∃ created fs', makePath fs path = some (created, fs') ∧ MakesPath fs path created fs' := by
  intro hall
  obtain ⟨created, fs', hrun, hmakes⟩ := hall .root ['a', '/', 'b', '/']
  have hnode : FileSystem.root.resolve ['a', '/', 'b', '/'] = some [['a'], ['b']] := by decide
  have hmissing : FileSystem.root.mkdir ['a', '/', 'b', '/'] = .error .enoent :=
    (FileSystem.mkdir_eq_error_iff hnode).mpr rfl
  have hfits : ∀ pos ∈ findLastOf '/' ['a', '/', 'b', '/'], pos < 2 ^ 31 := by decide
  obtain ⟨created', fs'', hout⟩ := exists_outcome hnode hmissing hfits
  cases hrun.symm.trans hout.run
  have hparent : FileSystem.root.resolve ['a'] = some [['a']] := by decide
  obtain ⟨t, ht⟩ : ∃ t, FileSystem.root.toFileTree.mkdir [['a']] = .ok t :=
    FileTree.exists_mkdir_eq_ok (by decide) (by decide) (by decide)
  obtain ⟨fs₁, hmkdir, -⟩ := FileSystem.mkdir_of_ok hparent ht
  have hname : '/' ∉ ['b'] := by decide
  have hgives : ¬ GivesUp .root ['a', '/', 'b', '/'] :=
    fun h => not_givesUp_name hname hmkdir (givesUp_slash.mp h)
  have hmade : fs'.NamesDir ['a', '/', 'b', '/'] :=
    (FileSystem.namesDir_iff hout.cwd hnode).mpr (hout.made.mpr hgives)
  exact (hout.returns.mp (hmakes.returns.mpr hmade)).1 rfl

end WebrtcGccNs3.Wire
