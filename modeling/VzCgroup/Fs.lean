import VzCgroup.Basic

/-!
# VzCgroup — the filesystem the cgroup hierarchies live in

A filesystem is the list of its entries, each by absolute path (`Path`, a list of
components). A directory carries its identity, `(st_dev, st_ino)`; a symbolic link the
absolute path it points to; every other entry (a control file, a socket) is a `file`.
`Fs.WF` is what makes the list a tree: no path twice, the parent of every entry is a
directory, and no two directories share an identity.

The operations are the system calls `cgroup.c` makes, with the kernel's answers:
`rmdir` refuses a directory that still has a subdirectory, as cgroupfs does, and takes
the directory's control files with it; `mkdir` gives the new directory its parent's device
and a fresh inode number; `openDir` follows a final symbolic link, as `open` and `openat`
do without `O_NOFOLLOW`.
-/

namespace VzCgroup

/-- A path, as the kernel resolves it: its components, outermost first. -/
abbrev Path := List (List Char)

/-- What `fstatat(..., AT_SYMLINK_NOFOLLOW)` reports an entry to be. -/
inductive Node where
  | dir (dev ino : Nat)
  | file
  | symlink (target : Path)
  deriving DecidableEq, Repr, Inhabited

/-- `S_ISDIR`. -/
def Node.isDir : Node → Bool
  | .dir _ _ => true
  | _ => false

/-- `S_ISLNK`. -/
def Node.isSymlink : Node → Bool
  | .symlink _ => true
  | _ => false

/-- `st_ino` of a directory. -/
def Node.dirIno : Node → Option Nat
  | .dir _ i => some i
  | _ => none

/-- How a system call fails, as far as `cgroup.c` tells failures apart. -/
inductive Errno where
  | enoent | ebusy | eexist | other
  deriving DecidableEq, Repr

/-- A filesystem: its entries, each by absolute path. -/
structure Fs where
  nodes : List (Path × Node)
  deriving DecidableEq, Repr

namespace Fs

/-- The entry at `p`. -/
def get (fs : Fs) (p : Path) : Option Node :=
  (fs.nodes.find? (·.1 = p)).map (·.2)

/-- There is a directory at `p`. -/
def isDir (fs : Fs) (p : Path) : Bool :=
  fs.nodes.any fun e => e.1 = p && e.2.isDir

/-- The name of `q` in the directory `p`, when `q` is an entry of `p`. -/
def childName? (p q : Path) : Option (List Char) :=
  if q.dropLast = p then q.getLast? else none

/-- The names in the directory `p`, in the order the entries are stored. -/
def entries (fs : Fs) (p : Path) : List (List Char) :=
  fs.nodes.filterMap fun e => childName? p e.1

/-- `p` has a subdirectory. -/
def hasSubdir (fs : Fs) (p : Path) : Bool :=
  fs.nodes.any fun e => (childName? p e.1).isSome && e.2.isDir

/-- What is left when the subtree at `p` is gone. -/
def removeTree (fs : Fs) (p : Path) : Fs :=
  ⟨fs.nodes.filter fun e => !decide (p <+: e.1)⟩

/-- `rmdir(p)` and `unlinkat(..., AT_REMOVEDIR)`: a directory without subdirectories goes,
with the files in it; anything else is refused. -/
def rmdir (fs : Fs) (p : Path) : Except Errno Fs :=
  match fs.get p with
  | none => .error .enoent
  | some (.dir _ _) => if fs.hasSubdir p then .error .other else .ok (fs.removeTree p)
  | some _ => .error .other

/-- The symbolic links `openDir` follows before `ELOOP`. -/
def maxSymlinks : Nat := 40

/-- Resolve a final symbolic link, at most `k` times. -/
def resolve (fs : Fs) : Nat → Path → Except Errno (Path × Node)
  | 0, _ => .error .other
  | k + 1, p =>
    match fs.get p with
    | none => .error .enoent
    | some (.symlink t) => fs.resolve k t
    | some n => .ok (p, n)

/-- A directory as an open descriptor knows it: where it was opened and its identity. -/
structure OpenDir where
  path : Path
  dev : Nat
  ino : Nat
  deriving DecidableEq, Repr

/-- `open(p, O_DIRECTORY)`, and `openat` of an entry with `O_DIRECTORY`. -/
def openDir (fs : Fs) (p : Path) : Except Errno OpenDir :=
  match fs.resolve maxSymlinks p with
  | .ok (q, .dir d i) => .ok ⟨q, d, i⟩
  | .ok _ => .error .other
  | .error e => .error e

/-- `openat(fd, "..", O_DIRECTORY)` for a descriptor open on `d`: the parent of `d`, which
has none once `d` is removed. -/
def openParent (fs : Fs) (d : OpenDir) : Except Errno OpenDir :=
  if fs.isDir d.path then fs.openDir d.path.dropLast else .error .enoent

/-- An inode number no entry uses. -/
def freshIno (fs : Fs) : Nat :=
  (fs.nodes.map fun e => match e.2 with
    | .dir _ i => i + 1
    | _ => 0).foldr max 0

/-- The device of the directory at `p`. -/
def devOf (fs : Fs) (p : Path) : Nat :=
  match fs.get p with
  | some (.dir d _) => d
  | _ => 0

/-- A name a directory entry can have: not empty, not `.` or `..`, no `/` and no NUL. -/
def validName (x : List Char) : Bool :=
  x ≠ [] && x ≠ ['.'] && x ≠ ['.', '.'] && !x.contains '/' && !x.contains '\x00'

/-- `mkdir(p)`: a new directory in an existing one. A last component `.` or `..` names a
directory that exists already, which the kernel refuses with `EEXIST`. -/
def mkdir (fs : Fs) (p : Path) : Except Errno Fs :=
  if (fs.get p).isSome then .error .other
  else if p ≠ [] ∧ fs.isDir p.dropLast ∧ p.getLast?.all validName then
    .ok ⟨fs.nodes ++ [(p, .dir (fs.devOf p.dropLast) fs.freshIno)]⟩
  else if p.getLast?.all validName then .error .enoent
  else .error .other

/-- The filesystem is a tree: no path twice, every entry in a directory, no two
directories with one identity, and every component a name. -/
structure WF (fs : Fs) : Prop where
  nodup : (fs.nodes.map (·.1)).Nodup
  parent : ∀ e ∈ fs.nodes, e.1 ≠ [] → fs.isDir e.1.dropLast
  ident : ∀ e ∈ fs.nodes, ∀ e' ∈ fs.nodes, e.2.isDir → e.2 = e'.2 → e.1 = e'.1
  names : ∀ e ∈ fs.nodes, ∀ x ∈ e.1, validName x

instance (fs : Fs) : Decidable fs.WF :=
  decidable_of_iff ((fs.nodes.map (·.1)).Nodup ∧
      (∀ e ∈ fs.nodes, e.1 ≠ [] → fs.isDir e.1.dropLast) ∧
      (∀ e ∈ fs.nodes, ∀ e' ∈ fs.nodes, e.2.isDir → e.2 = e'.2 → e.1 = e'.1) ∧
      (∀ e ∈ fs.nodes, ∀ x ∈ e.1, validName x))
    ⟨fun ⟨a, b, c, d⟩ => ⟨a, b, c, d⟩, fun ⟨a, b, c, d⟩ => ⟨a, b, c, d⟩⟩

/-! ## Lookups -/

section
variable {fs : Fs} {p q : Path} {nm : List Char} {n : Node}

theorem childName?_eq_some : childName? p q = some nm ↔ q = p ++ [nm] := by
  unfold childName?
  split
  · rename_i h
    rw [List.getLast?_eq_some_iff]
    constructor
    · rintro ⟨ys, rfl⟩
      simp_all
    · rintro rfl
      exact ⟨p, rfl⟩
  · rename_i h
    simp only [reduceCtorEq, false_iff]
    rintro rfl
    simp at h

theorem mem_entries : nm ∈ fs.entries p ↔ ∃ n, (p ++ [nm], n) ∈ fs.nodes := by
  simp only [entries, List.mem_filterMap, childName?_eq_some]
  constructor
  · rintro ⟨⟨q, n⟩, h, rfl⟩
    exact ⟨n, h⟩
  · rintro ⟨n, h⟩
    exact ⟨_, h, rfl⟩

theorem isDir_iff : fs.isDir p ↔ ∃ d i, (p, .dir d i) ∈ fs.nodes := by
  simp only [isDir, List.any_eq_true, Bool.and_eq_true, decide_eq_true_eq]
  constructor
  · rintro ⟨⟨q, _ | _ | _⟩, h, rfl, hd⟩ <;> simp_all [Node.isDir]
    exact ⟨_, _, h⟩
  · rintro ⟨d, i, h⟩
    exact ⟨_, h, rfl, rfl⟩

theorem hasSubdir_iff : fs.hasSubdir p ↔ ∃ nm d i, (p ++ [nm], .dir d i) ∈ fs.nodes := by
  simp only [hasSubdir, List.any_eq_true, Bool.and_eq_true, Option.isSome_iff_exists,
    childName?_eq_some]
  constructor
  · rintro ⟨⟨q, _ | _ | _⟩, h, ⟨nm, rfl⟩, hd⟩ <;> simp_all [Node.isDir]
    exact ⟨_, _, _, h⟩
  · rintro ⟨nm, d, i, h⟩
    exact ⟨_, h, ⟨nm, rfl⟩, rfl⟩

theorem mem_of_get (h : fs.get p = some n) : (p, n) ∈ fs.nodes := by
  simp only [get, Option.map_eq_some'] at h
  obtain ⟨⟨q, m⟩, hf, rfl⟩ := h
  have := List.find?_some hf
  simp only [decide_eq_true_eq] at this
  exact this ▸ List.mem_of_find?_eq_some hf

theorem get_of_mem (hwf : fs.WF) (h : (p, n) ∈ fs.nodes) : fs.get p = some n := by
  obtain ⟨nodes⟩ := fs
  have hnd := hwf.nodup
  clear hwf
  simp only [get] at hnd h ⊢
  induction nodes with
  | nil => simp at h
  | cons e es ih =>
    simp only [List.map_cons, List.nodup_cons, List.mem_map] at hnd
    rcases List.mem_cons.mp h with rfl | h
    · simp
    · have hne : e.1 ≠ p := fun he => hnd.1 ⟨_, h, he.symm⟩
      simpa [hne] using ih h hnd.2

theorem get_eq_some_iff (hwf : fs.WF) : fs.get p = some n ↔ (p, n) ∈ fs.nodes :=
  ⟨mem_of_get, get_of_mem hwf⟩

theorem get_eq_none : fs.get p = none ↔ ∀ e ∈ fs.nodes, e.1 ≠ p := by
  simp [get, List.find?_eq_none]

theorem isDir_of_get (h : fs.get p = some (.dir d i)) : fs.isDir p :=
  isDir_iff.mpr ⟨d, i, mem_of_get h⟩

theorem get_of_isDir (hwf : fs.WF) (h : fs.isDir p) : ∃ d i, fs.get p = some (.dir d i) := by
  obtain ⟨d, i, h⟩ := isDir_iff.mp h
  exact ⟨d, i, get_of_mem hwf h⟩

/-- A proper prefix of a path is a prefix of the path without its last component. -/
theorem prefix_dropLast_of_ne {p q : Path} (hp : p <+: q) (hne : p ≠ q) : p <+: q.dropLast := by
  obtain ⟨t, rfl⟩ := hp
  have ht : t ≠ [] := by rintro rfl; simp at hne
  rw [List.dropLast_append_of_ne_nil _ ht]
  exact List.prefix_append _ _

/-- Every proper prefix of an entry's path is a directory. -/
theorem isDir_of_ancestor (hwf : fs.WF) : ∀ (k : Nat) (q : Path) (n : Node), q.length = k →
    (q, n) ∈ fs.nodes → ∀ p, p <+: q → p ≠ q → fs.isDir p := by
  intro k
  induction k with
  | zero =>
    intro q n hk _ p hp hne
    have : q = [] := List.eq_nil_of_length_eq_zero hk
    subst this
    exact absurd (List.prefix_nil.mp hp) hne
  | succ k ih =>
    intro q n hk hq p hp hne
    have hq0 : q ≠ [] := by rintro rfl; simp at hk
    have hd := hwf.parent _ hq hq0
    by_cases hpd : p = q.dropLast
    · exact hpd ▸ hd
    · obtain ⟨d, i, hm⟩ := isDir_iff.mp hd
      exact ih q.dropLast _ (by simp [hk]) hm p (prefix_dropLast_of_ne hp hne) hpd

/-- Without a subdirectory, all that is strictly below a directory are its own
non-directory entries. -/
theorem below_of_not_hasSubdir (hwf : fs.WF) (h : fs.hasSubdir p = false) {e : Path × Node}
    (he : e ∈ fs.nodes) (hp : p <+: e.1) (hne : e.1 ≠ p) : e.1.dropLast = p ∧ e.2.isDir = false := by
  obtain ⟨t, ht⟩ := hp
  obtain ⟨q, n⟩ := e
  simp only at ht hne ⊢
  subst ht
  match t, hne with
  | [], hne => exact absurd (by simp) hne
  | [x], _ =>
    refine ⟨by simp, ?_⟩
    cases n with
    | dir d i => exact absurd (hasSubdir_iff.mpr ⟨x, d, i, he⟩) (by simp [h])
    | file => rfl
    | symlink _ => rfl
  | x :: y :: t, _ =>
    have hd : fs.isDir (p ++ [x]) :=
      isDir_of_ancestor hwf _ _ _ rfl he _ ⟨y :: t, by simp⟩ (by simp)
    obtain ⟨d, i, hm⟩ := isDir_iff.mp hd
    exact absurd (hasSubdir_iff.mpr ⟨x, d, i, hm⟩) (by simp [h])

/-- Nothing lies below a path that is not there. -/
theorem not_below_of_get_none (hwf : fs.WF) (h : fs.get p = none) {e : Path × Node}
    (he : e ∈ fs.nodes) : ¬ p <+: e.1 := by
  intro hp
  by_cases heq : e.1 = p
  · exact get_eq_none.mp h e he heq
  · obtain ⟨d, i, hg⟩ := get_of_isDir hwf (isDir_of_ancestor hwf _ e.1 e.2 rfl he p hp (Ne.symm heq))
    rw [h] at hg
    cases hg

/-! ## Removing a subtree -/

@[simp] theorem mem_removeTree {e : Path × Node} :
    e ∈ (fs.removeTree p).nodes ↔ e ∈ fs.nodes ∧ ¬ p <+: e.1 := by
  simp [removeTree]

theorem removeTree_sublist : List.Sublist (fs.removeTree p).nodes fs.nodes :=
  List.filter_sublist _

theorem removeTree_wf (hwf : fs.WF) : (fs.removeTree p).WF where
  nodup := (removeTree_sublist.map _).nodup hwf.nodup
  parent e he hne := by
    rw [mem_removeTree] at he
    obtain ⟨d, i, hd⟩ := isDir_iff.mp (hwf.parent e he.1 hne)
    refine isDir_iff.mpr ⟨d, i, mem_removeTree.mpr ⟨hd, fun hp => he.2 ?_⟩⟩
    exact hp.trans (List.dropLast_prefix _)
  ident e he e' he' := hwf.ident e (mem_removeTree.mp he).1 e' (mem_removeTree.mp he').1
  names e he := hwf.names e (mem_removeTree.mp he).1

theorem isDir_removeTree : (fs.removeTree p).isDir q ↔ fs.isDir q ∧ ¬ p <+: q := by
  simp only [isDir_iff, mem_removeTree]
  constructor
  · rintro ⟨d, i, h, hp⟩
    exact ⟨⟨d, i, h⟩, hp⟩
  · rintro ⟨⟨d, i, h⟩, hp⟩
    exact ⟨d, i, h, hp⟩

/-- Removing what is not there changes nothing. -/
theorem removeTree_of_get_none (hwf : fs.WF) (h : fs.get p = none) : fs.removeTree p = fs := by
  have hkeep : fs.nodes.filter (fun e => !decide (p <+: e.1)) = fs.nodes :=
    List.filter_eq_self.mpr fun e he => by simpa using not_below_of_get_none hwf h he
  exact congrArg Fs.mk hkeep

theorem rmdir_ok {fs' : Fs} (h : fs.rmdir p = .ok fs') :
    fs.isDir p ∧ fs.hasSubdir p = false ∧ fs' = fs.removeTree p := by
  unfold rmdir at h
  split at h
  · cases h
  · rename_i d i hg
    split at h
    · cases h
    · rename_i hs
      cases h
      exact ⟨isDir_of_get hg, by simpa using hs, rfl⟩
  · cases h

theorem rmdir_of_isDir (hwf : fs.WF) (h : fs.isDir p) (hs : fs.hasSubdir p = false) :
    fs.rmdir p = .ok (fs.removeTree p) := by
  obtain ⟨d, i, hg⟩ := get_of_isDir hwf h
  simp [rmdir, hg, hs]

/-! ## Making a directory -/

theorem isDir_of_subset {fs' : Fs} (hsub : fs.nodes ⊆ fs'.nodes) (h : fs.isDir p) : fs'.isDir p := by
  obtain ⟨d, i, hm⟩ := isDir_iff.mp h
  exact isDir_iff.mpr ⟨d, i, hsub hm⟩

/-- `freshIno` is above every inode number in use. -/
theorem lt_freshIno {e : Path × Node} (he : e ∈ fs.nodes) {i : Nat} (hi : e.2.dirIno = some i) :
    i < fs.freshIno := by
  obtain ⟨nodes⟩ := fs
  induction nodes with
  | nil => simp at he
  | cons x xs ih =>
    simp only [freshIno, List.map_cons, List.foldr_cons] at ih ⊢
    rcases List.mem_cons.mp he with rfl | he
    · obtain ⟨q, _ | _ | _⟩ := e <;> simp_all [Node.dirIno]
    · exact lt_of_lt_of_le (ih he) (le_max_right _ _)

theorem mkdir_ok {fs' : Fs} (h : fs.mkdir p = .ok fs') :
    fs'.nodes = fs.nodes ++ [(p, .dir (fs.devOf p.dropLast) fs.freshIno)] ∧ fs.get p = none ∧
      p ≠ [] ∧ fs.isDir p.dropLast ∧ p.getLast?.all validName := by
  unfold mkdir at h
  by_cases hg : (fs.get p).isSome
  · simp [hg] at h
  by_cases hc : p ≠ [] ∧ fs.isDir p.dropLast ∧ p.getLast?.all validName
  · rw [if_neg hg, if_pos hc] at h
    cases h
    exact ⟨rfl, by simpa using hg, hc⟩
  · rw [if_neg hg, if_neg hc] at h
    split at h <;> cases h

/-- `mkdir` keeps the filesystem a tree. -/
theorem mkdir_wf {fs' : Fs} (hwf : fs.WF) (h : fs.mkdir p = .ok fs') : fs'.WF := by
  obtain ⟨hn, hg, hp, hd, hv⟩ := mkdir_ok h
  have hsub : fs.nodes ⊆ fs'.nodes := by rw [hn]; exact List.subset_append_left _ _
  have hnew : ∀ e ∈ fs.nodes, e.1 ≠ p := get_eq_none.mp hg
  -- the new directory's identity is used by no other
  have hfresh : ∀ e ∈ fs.nodes, e.2 ≠ .dir (fs.devOf p.dropLast) fs.freshIno := fun e he heq =>
    absurd (lt_freshIno he (by rw [heq]; rfl)) (lt_irrefl _)
  constructor
  · rw [hn, List.map_append, List.nodup_append]
    refine ⟨hwf.nodup, List.nodup_singleton _, fun x hx hy => ?_⟩
    simp only [List.map_cons, List.map_nil, List.mem_singleton] at hy
    obtain ⟨e, he, rfl⟩ := List.mem_map.mp hx
    exact hnew e he hy
  · intro e he hne
    rw [hn, List.mem_append, List.mem_singleton] at he
    rcases he with he | rfl
    · exact isDir_of_subset hsub (hwf.parent e he hne)
    · exact isDir_of_subset hsub hd
  · intro e he e' he' hdir heq
    rw [hn, List.mem_append, List.mem_singleton] at he he'
    rcases he with he | rfl <;> rcases he' with he' | rfl
    · exact hwf.ident e he e' he' hdir heq
    · exact absurd heq (hfresh e he)
    · exact absurd heq.symm (hfresh e' he')
    · rfl
  · intro e he x hx
    rw [hn, List.mem_append, List.mem_singleton] at he
    rcases he with he | rfl
    · exact hwf.names e he x hx
    · have hsplit := List.dropLast_append_getLast hp
      rw [← hsplit, List.mem_append, List.mem_singleton] at hx
      rcases hx with hx | rfl
      · obtain ⟨d, i, hm⟩ := isDir_iff.mp hd
        exact hwf.names _ hm x hx
      · simpa [List.getLast?_eq_getLast _ hp] using hv

/-! ## Opening directories -/

theorem openDir_of_get (h : fs.get p = some (.dir d i)) : fs.openDir p = .ok ⟨p, d, i⟩ := by
  simp [openDir, maxSymlinks, resolve, h]

/-- `openDir` lands on the directory at the path itself unless the path is a symbolic link. -/
theorem openDir_ok_cases {od : OpenDir} (h : fs.openDir p = .ok od) :
    (∃ t, fs.get p = some (.symlink t)) ∨ od.path = p ∧ fs.get p = some (.dir od.dev od.ino) := by
  unfold openDir at h
  simp only [maxSymlinks, resolve] at h
  rcases hg : fs.get p with _ | ⟨dv, i⟩ | _ | t
  · simp [hg] at h
  · simp only [hg, Except.ok.injEq] at h
    subst h
    exact .inr ⟨rfl, rfl⟩
  · simp [hg] at h
  · exact .inl ⟨t, rfl⟩

theorem openParent_ok (hwf : fs.WF) {d pp : OpenDir} (h : fs.openParent d = .ok pp) :
    pp.path = d.path.dropLast ∧ fs.get pp.path = some (.dir pp.dev pp.ino) := by
  unfold openParent at h
  split at h
  · rename_i hd
    have hpd : fs.isDir d.path.dropLast := by
      by_cases hnil : d.path = []
      · simpa [hnil] using hd
      · obtain ⟨dv, i, hm⟩ := isDir_iff.mp hd
        exact hwf.parent _ hm hnil
    obtain ⟨dv, i, hg⟩ := get_of_isDir hwf hpd
    rw [openDir_of_get hg] at h
    cases h
    exact ⟨rfl, hg⟩
  · cases h

theorem openParent_of_isDir (hwf : fs.WF) {d : OpenDir} (h : fs.isDir d.path)
    (hok : fs.openParent d = .error e) : False := by
  unfold openParent at hok
  rw [if_pos h] at hok
  have hpd : fs.isDir d.path.dropLast := by
    by_cases hnil : d.path = []
    · simpa [hnil] using h
    · obtain ⟨dv, i, hm⟩ := isDir_iff.mp h
      exact hwf.parent _ hm hnil
  obtain ⟨dv, i, hg⟩ := get_of_isDir hwf hpd
  rw [openDir_of_get hg] at hok
  cases hok

end

end Fs

end VzCgroup
