import VzCgroup.TreeWalk.Steps

/-!
# VzCgroup — the walk's invariant

`rm_tree` is correct because of a relation between its locals that every iteration keeps:
the current directory is the root's subdirectory at `π`, `parentfd` is open on its parent,
`name` is the last component of `π` or empty, `level` is the length of `π`, and the
filesystem has lost nothing but entries strictly below the root. `WalkInv` states it;
`WalkInv.after_descend` and `WalkInv.after_ascend` are its two step lemmas, one for each way an
iteration moves the walk.

The step lemmas assume the walk descends into real directories only, which holds when
`fstatat` answers truly; the name-less ascent (after a removal) and the re-descent into
the same parent that follows it are both covered by the same two lemmas.
-/

namespace VzCgroup

/-- The walk is where the code believes it is. `fs0` is the filesystem the walk started
from, `R` the root's path, `π` the current directory's path below the root. -/
structure WalkInv (fs0 : Fs) (R π : Path) (w : Walk) : Prop where
  wf : w.fs.WF
  sub : List.Sublist w.fs.nodes fs0.nodes
  keep : ∀ e ∈ fs0.nodes, ¬ (R <+: e.1 ∧ e.1 ≠ R) → e ∈ w.fs.nodes
  cur : ∃ hf dv i, w.fd = some hf ∧ hf < w.next ∧
    w.dirOf w.fd = some ⟨R ++ π, dv, i⟩ ∧ w.fs.get (R ++ π) = some (.dir dv i)
  par : ∀ hp, w.parentfd = some hp → hp < w.next ∧ w.fd ≠ some hp
  parDir : π ≠ [] → ∃ dv i, w.dirOf w.parentfd = some ⟨R ++ π.dropLast, dv, i⟩ ∧
    w.fs.get (R ++ π.dropLast) = some (.dir dv i)
  name : w.name = [] ∨ π.getLast? = some w.name
  level : w.level = π.length

/-- No directory strictly below the root has the root's inode number: what the root test
of `rm_tree`, which compares `st_ino` alone, needs to recognise the root. -/
def RootInoUnique (fs : Fs) (R : Path) (ino : Nat) : Prop :=
  ∀ e ∈ fs.nodes, R <+: e.1 → e.1 ≠ R → e.2.dirIno ≠ some ino

instance (fs : Fs) (R : Path) (ino : Nat) : Decidable (RootInoUnique fs R ino) := by
  unfold RootInoUnique; infer_instance

/-- No symbolic link lies at or below `R`: a scan that opens an entry `fstatat` did not
describe still lands on that entry, or fails. -/
def NoSymlinkBelow (fs : Fs) (R : Path) : Prop :=
  ∀ e ∈ fs.nodes, R <+: e.1 → e.2.isSymlink = false

instance (fs : Fs) (R : Path) : Decidable (NoSymlinkBelow fs R) := by
  unfold NoSymlinkBelow; infer_instance

/-- The answers of an iteration on which nothing fails but transient `EBUSY`. -/
structure ScanAnswers.Clean (a : ScanAnswers) : Prop where
  fdopendir : a.fdopendirOk = true
  noSkip : a.NoSkip
  openat : ∀ nm, a.openat nm = none
  fstat : a.fstatOk = true
  dotdot : a.dotdotOk = true
  unlink : Transient a.unlink

/-- The answers of a whole `rm_tree` on which nothing fails but transient `EBUSY`. -/
structure RmAnswers.Clean (a : RmAnswers) : Prop where
  openRoot : a.openRoot = none
  fstatRoot : a.fstatRoot = true
  iter : ∀ k, (a.iter k).Clean
  rmdirRoot : a.rmdirRoot = true

/-- The kernel's own answers are clean. -/
theorem ScanAnswers.clean_default : ScanAnswers.Clean {} where
  fdopendir := rfl
  noSkip := ⟨rfl, fun _ => rfl, fun _ => nofun⟩
  openat _ := rfl
  fstat := rfl
  dotdot := rfl
  unlink := ⟨0, nofun, rfl, by decide⟩

theorem RmAnswers.clean_default : RmAnswers.Clean {} :=
  ⟨rfl, rfl, fun _ => ScanAnswers.clean_default, rfl⟩

namespace Fs

variable {fs : Fs} {p q : Path}

theorem get_removeTree (hwf : fs.WF) (h : ¬ p <+: q) : (fs.removeTree p).get q = fs.get q := by
  rcases hg : fs.get q with _ | n
  · rcases hg' : (fs.removeTree p).get q with _ | n'
    · rfl
    · have := (mem_removeTree.mp (mem_of_get hg')).1
      rw [get_of_mem hwf this] at hg
      cases hg
  · exact get_of_mem (removeTree_wf hwf) (mem_removeTree.mpr ⟨mem_of_get hg, h⟩)

theorem removeTree_length_lt (h : (p, n) ∈ fs.nodes) :
    (fs.removeTree p).nodes.length < fs.nodes.length := by
  apply List.length_filter_lt_length_iff_exists.mpr
  exact ⟨_, h, by simp⟩

end Fs

section Steps

variable {fs0 : Fs} {R π : Path} {w : Walk}

theorem WalkInv.start (hwf : fs0.WF) (hR : fs0.get R = some (.dir dv i)) :
    WalkInv fs0 R [] (Walk.start fs0 ⟨R, dv, i⟩) where
  wf := hwf
  sub := List.Sublist.refl _
  keep _ he _ := he
  cur := ⟨0, dv, i, rfl, by simp [Walk.start, Walk.openFd],
    by simp [Walk.start, Walk.openFd, Walk.dirOf], by simpa [Walk.start, Walk.openFd] using hR⟩
  par _ h := by simp [Walk.start, Walk.openFd] at h
  parDir h := absurd rfl h
  name := .inl rfl
  level := rfl

/-- A descent into the directory `R ++ π ++ [nm]` keeps the invariant, at `π ++ [nm]`. -/
theorem WalkInv.after_descend (hinv : WalkInv fs0 R π w) {nm : List Char} {d : Fs.OpenDir}
    (hd : d.path = R ++ π ++ [nm]) (hg : w.fs.get (R ++ π ++ [nm]) = some (.dir d.dev d.ino)) :
    WalkInv fs0 R (π ++ [nm]) { descend w d nm with level := w.level + 1 } := by
  obtain ⟨hf, dv, i, hfd, hlt, hdir, hget⟩ := hinv.cur
  have hpne : w.parentfd ≠ some w.next := fun h => by
    have := (hinv.par _ h).1; omega
  refine ⟨by simpa using hinv.wf, by simpa using hinv.sub, by simpa using hinv.keep, ?_, ?_, ?_, ?_, ?_⟩
  · refine ⟨w.next, d.dev, d.ino, rfl, by simp, ?_, by simpa using hg⟩
    simp only [Walk.dirOf_mk]
    rw [descend_fd, descend_dirOf_self hpne, ← List.append_assoc, ← hd]
  · intro hp h
    simp only [descend_parentfd, hfd, Option.some.injEq] at h
    subst h
    simp; omega
  · intro _
    refine ⟨dv, i, ?_, by simpa using hget⟩
    simp only [Walk.dirOf_mk]
    rw [descend_parentfd, hfd, descend_dirOf_ne (by omega) (fun h => (hinv.par hf h).2 hfd),
      ← hfd, hdir, List.dropLast_concat]
  · exact .inr (by simp)
  · simp [hinv.level]

/-- An ascent from `π ≠ []`, with the filesystem after it `fs'`: the directory left
behind removed (`fs' = w.fs.removeTree (R ++ π)`) or not (`fs' = w.fs`), keeps the
invariant at `π.dropLast`. -/
theorem WalkInv.after_ascend (hinv : WalkInv fs0 R π w) (hπ : π ≠ []) {pp : Fs.OpenDir}
    (hpp : w.fs.openParent ⟨R ++ π.dropLast, dv, i⟩ = .ok pp)
    (hpar : w.dirOf w.parentfd = some ⟨R ++ π.dropLast, dv, i⟩)
    {fs' : Fs} (hfs : fs' = w.fs ∨ fs' = w.fs.removeTree (R ++ π)) :
    WalkInv fs0 R π.dropLast { handUp w pp with fs := fs', name := [], level := w.level - 1 } := by
  obtain ⟨hf, dvc, ic, hfd, hlt, hdir, hget⟩ := hinv.cur
  obtain ⟨dvp, ip, hpdir, hpget⟩ := hinv.parDir hπ
  rw [hpar] at hpdir
  cases hpdir
  obtain ⟨hpp1, hpp2⟩ := Fs.openParent_ok hinv.wf hpp
  obtain ⟨hp, hpfd⟩ : ∃ hp, w.parentfd = some hp := by
    cases h : w.parentfd with
    | none => simp [h, Walk.dirOf] at hpar
    | some hp => exact ⟨hp, rfl⟩
  obtain ⟨hplt, hpne⟩ := hinv.par hp hpfd
  have hπlen : 0 < π.length := List.length_pos.mpr hπ
  -- the removal takes nothing shorter than `R ++ π`
  have hkeep : ∀ q : Path, q.length < (R ++ π).length → fs'.get q = w.fs.get q := by
    intro q hq
    rcases hfs with rfl | rfl
    · rfl
    · exact Fs.get_removeTree hinv.wf fun h => absurd h.length_le (by omega)
  have hlen : (R ++ π.dropLast).length < (R ++ π).length := by simp; omega
  -- with or without the removal, the filesystem keeps what is not at or below `R ++ π`
  obtain ⟨hwf', hsub', hout'⟩ : fs'.WF ∧ List.Sublist fs'.nodes w.fs.nodes ∧
      ∀ e ∈ w.fs.nodes, ¬ R ++ π <+: e.1 → e ∈ fs'.nodes := by
    rcases hfs with rfl | rfl
    · exact ⟨hinv.wf, List.Sublist.refl _, fun _ he _ => he⟩
    · exact ⟨Fs.removeTree_wf hinv.wf, Fs.removeTree_sublist, fun e he h => Fs.mem_removeTree.mpr ⟨he, h⟩⟩
  refine ⟨hwf', hsub'.trans hinv.sub, fun e he hout => hout' e (hinv.keep e he hout) fun hpre => hout
    ⟨(List.prefix_append R π).trans hpre, fun hR => ?_⟩, ?_, ?_, ?_, .inl rfl, ?_⟩
  · have := hpre.length_le
    simp only [hR, List.length_append] at this
    omega
  · refine ⟨hp, dv, i, hpfd, by simp; omega, ?_, by simpa [hkeep _ hlen] using hpget⟩
    simp only [Walk.dirOf_mk]
    rw [handUp_fd, hpfd, handUp_dirOf_ne (by omega) hpne, ← hpfd, hpar]
  · intro h' hh
    simp only [handUp_parentfd, Option.some.injEq] at hh
    subst hh
    exact ⟨by simp, by simp [hpfd]; omega⟩
  · intro hπ'
    refine ⟨pp.dev, pp.ino, ?_, ?_⟩
    · simp only [Walk.dirOf_mk]
      rw [handUp_parentfd, handUp_dirOf_self (by rw [hfd]; simp; omega)]
      obtain ⟨pa, pd, pi⟩ := pp
      simp only at hpp1 ⊢
      rw [hpp1, List.dropLast_append_of_ne_nil _ hπ']
    · have hlen' : (R ++ π.dropLast.dropLast).length < (R ++ π).length := by
        have := List.length_dropLast π.dropLast
        simp; omega
      rw [hkeep _ hlen', ← List.dropLast_append_of_ne_nil _ hπ', ← hpp1]
      exact hpp2
  · simp only [hinv.level, List.length_dropLast]
    omega

end Steps

/-! ## The measure -/

/-- The length of the longest path. -/
def Fs.depth (fs : Fs) : Nat :=
  (fs.nodes.map fun e => e.1.length).foldr max 0

theorem Fs.length_le_depth {fs : Fs} {e : Path × Node} (h : e ∈ fs.nodes) : e.1.length ≤ fs.depth := by
  obtain ⟨nodes⟩ := fs
  induction nodes with
  | nil => simp at h
  | cons x xs ih =>
    simp only [Fs.depth, List.map_cons, List.foldr_cons] at ih ⊢
    rcases List.mem_cons.mp h with rfl | h
    · exact le_max_left _ _
    · exact le_trans (ih h) (le_max_right _ _)

/-- What every iteration of the walk decreases: first the number of entries, then the way
the walk is heading, down while a name is set and up after an ascent. `H` bounds the
depth of the walk. -/
def walkMeasure (H : Nat) (π : Path) (w : Walk) : Nat :=
  w.fs.nodes.length * (2 * H + 2) + if w.name = [] then H + 1 + π.length else H - π.length

theorem walkMeasure_lt_of_length_lt {H : Nat} {π π' : Path} {w w' : Walk}
    (hlen : w'.fs.nodes.length < w.fs.nodes.length) (hπ' : π'.length ≤ H) :
    walkMeasure H π' w' < walkMeasure H π w := by
  have hK : (w'.fs.nodes.length + 1) * (2 * H + 2) ≤ w.fs.nodes.length * (2 * H + 2) :=
    Nat.mul_le_mul_right _ hlen
  rw [Nat.succ_mul] at hK
  unfold walkMeasure
  split <;> split <;> omega

/-! ## Iterations -/

section Iterations

variable {fs0 : Fs} {R π : Path} {w w' : Walk} {a : ScanAnswers} {dv0 i0 : Nat}

/-- The root test of `rm_tree` is right about the walk: the current directory has the
root's inode number exactly when the walk is at the root. -/
theorem WalkInv.ino_eq_iff (hinv : WalkInv fs0 R π w) (hR : fs0.get R = some (.dir dv0 i0))
    (hu : RootInoUnique fs0 R i0) {cur : Fs.OpenDir} (hc : w.dirOf w.fd = some cur) :
    cur.ino = i0 ↔ π = [] := by
  obtain ⟨hf, dv, i, hfd, hlt, hdir, hget⟩ := hinv.cur
  rw [hdir] at hc
  cases hc
  constructor
  · intro hi
    by_contra hπ
    exact hu _ (hinv.sub.subset (Fs.mem_of_get hget)) (List.prefix_append R π)
      (by simpa using hπ) (congrArg some hi)
  · rintro rfl
    have hroot := hinv.keep _ (Fs.mem_of_get hR) fun h => h.2 rfl
    rw [List.append_nil, Fs.get_of_mem hinv.wf hroot] at hget
    cases hget
    rfl

/-- With `fstatat` answering truly, or with no symbolic link below the root, an iteration
after which the loop goes on keeps the invariant and decreases the measure. -/
theorem WalkInv.iterate_cont (hinv : WalkInv fs0 R π w)
    (hf : (∀ nm, a.fstatat nm = none) ∨ NoSymlinkBelow fs0 R)
    (hR : fs0.get R = some (.dir dv0 i0)) (hu : RootInoUnique fs0 R i0)
    (h : iterate a i0 w = .cont w') :
    ∃ π', WalkInv fs0 R π' w' ∧ walkMeasure fs0.depth π' w' < walkMeasure fs0.depth π w := by
  obtain ⟨hf', dv, i, hfd, hlt, hdir, hget⟩ := hinv.cur
  have hdepth : ∀ q n, w.fs.get q = some n → q.length ≤ fs0.depth := fun _ _ hg =>
    Fs.length_le_depth (hinv.sub.subset (Fs.mem_of_get hg))
  rcases iterate_cases h with ⟨cur, nm, d, hc, hs, he⟩ | ⟨cur, hc, hs, he⟩ | he
  · -- a descent into `nm`
    cases he
    rw [hdir] at hc
    cases hc
    obtain ⟨-, hd, hg⟩ := scanDir_found (fun x _ => hf.imp (· x) fun hn t ht => by
      simpa [Node.isSymlink] using hn _ (hinv.sub.subset (Fs.mem_of_get ht)) ⟨π ++ [x], by simp⟩) hs
    refine ⟨π ++ [nm], hinv.after_descend hd hg, ?_⟩
    have hnm : nm ≠ [] := by
      have := hinv.wf.names _ (Fs.mem_of_get hg) nm (by simp)
      simp only [Fs.validName, Bool.and_eq_true, decide_eq_true_eq] at this
      exact this.1.1.1.1
    have := hdepth _ _ hg
    simp only [List.length_append, List.length_singleton] at this
    simp only [walkMeasure, descend_fs, descend_name, hnm, if_false, List.length_append,
      List.length_singleton]
    split <;> omega
  · -- an ascent
    rcases ascend_cases he.symm with ⟨_, _, _, h'⟩ | ⟨_, _, h'⟩ | ⟨cur', par, pp, fs', hc', hi, hp, hpp, hfs, h'⟩
    · cases h'
    · cases h'
    cases h'
    have hπ : π ≠ [] := fun h => hi ((hinv.ino_eq_iff hR hu hc').mpr h)
    obtain ⟨dvp, ip, hpdir, -⟩ := hinv.parDir hπ
    rw [hp] at hpdir
    cases hpdir
    have hπlen : 0 < π.length := List.length_pos.mpr hπ
    have hdep := hdepth _ _ hget
    simp only [List.length_append] at hdep
    rcases hfs with ⟨hn, rfl⟩ | ⟨hn, hrm⟩
    · refine ⟨π.dropLast, hinv.after_ascend hπ hpp hp (.inl rfl), ?_⟩
      simp only [walkMeasure, handUp_fs, hn, if_true, List.length_dropLast]
      omega
    · obtain ⟨-, -, rfl⟩ := Fs.rmdir_ok hrm
      have hlast : π.getLast? = some w.name := hinv.name.resolve_left hn
      have hpath : R ++ π.dropLast ++ [w.name] = R ++ π := by
        rw [List.append_assoc, List.dropLast_append_getLast? _ hlast]
      rw [hpath]
      refine ⟨π.dropLast, hinv.after_ascend hπ hpp hp (.inr rfl), ?_⟩
      refine walkMeasure_lt_of_length_lt (Fs.removeTree_length_lt (Fs.mem_of_get hget)) ?_
      simp only [List.length_dropLast]
      omega
  · cases he

/-- With scans that skip nothing, an iteration that ends the loop with `0` ends it at the
root, which then has no subdirectory left. -/
theorem WalkInv.iterate_stop_zero (hinv : WalkInv fs0 R π w) (hs : a.NoSkip)
    (hR : fs0.get R = some (.dir dv0 i0)) (hu : RootInoUnique fs0 R i0)
    (h : iterate a i0 w = .stop w' 0) : w' = w ∧ π = [] ∧ w.fs.hasSubdir R = false := by
  obtain ⟨hf', dv, i, hfd, hlt, hdir, hget⟩ := hinv.cur
  rcases iterate_cases h with ⟨_, _, _, _, _, he⟩ | ⟨cur, hc, hsc, he⟩ | he
  · cases he
  · rcases ascend_cases he.symm with ⟨cur', hc', hi, h'⟩ | ⟨_, _, h'⟩ | ⟨_, _, _, _, _, _, _, _, _, h'⟩
    · cases h'
      obtain rfl := (hinv.ino_eq_iff hR hu hc').mp hi
      rw [hdir] at hc
      cases hc
      exact ⟨rfl, rfl, by simpa using hasSubdir_of_scanDir_none hs hinv.wf hsc⟩
    · simp at h'
    · cases h'
  · simp at he

/-- Under clean answers an iteration stops the loop only with `0`. -/
theorem WalkInv.iterate_clean (hinv : WalkInv fs0 R π w) (hc : a.Clean)
    (hR : fs0.get R = some (.dir dv0 i0)) (hu : RootInoUnique fs0 R i0) {r : Int}
    (h : iterate a i0 w = .stop w' r) : r = 0 := by
  obtain ⟨hf', dv, i, hfd, hlt, hdir, hget⟩ := hinv.cur
  rcases hsc : scanDir a w.fs (R ++ π) (a.listing (w.fs.entries (R ++ π))) a.stat0IsDir with
    _ | ⟨nm, d⟩ | _
  · rw [iterate_none hdir hc.fdopendir hsc] at h
    by_cases hi : i0 = i
    · rw [ascend_root hdir hc.fstat hi] at h
      cases h
      rfl
    have hπ : π ≠ [] := fun hπ => hi ((hinv.ino_eq_iff hR hu hdir).mpr hπ).symm
    obtain ⟨dvp, ip, hpdir, hpget⟩ := hinv.parDir hπ
    rcases hpp : w.fs.openParent ⟨R ++ π.dropLast, dvp, ip⟩ with e | pp
    · exact (Fs.openParent_of_isDir hinv.wf (Fs.isDir_of_get hpget) hpp).elim
    have hup := ascend_up hdir hc.fstat hi hpdir hc.dotdot hpp
    by_cases hn : w.name = []
    · rw [hup _ (.inl ⟨hn, rfl⟩)] at h
      cases h
    · have hlast : π.getLast? = some w.name := hinv.name.resolve_left hn
      have hpath : R ++ π.dropLast ++ [w.name] = R ++ π := by
        rw [List.append_assoc, List.dropLast_append_getLast? _ hlast]
      have hrm := Fs.rmdir_of_isDir hinv.wf (Fs.isDir_of_get hget)
        (hasSubdir_of_scanDir_none hc.noSkip hinv.wf hsc)
      rw [← hpath] at hrm
      rw [hup _ (.inr ⟨hn, rmdirRetry_transient hc.unlink hrm⟩)] at h
      cases h
  · rw [iterate_found hdir hc.fdopendir hsc] at h
    cases h
  · exact (scanDir_ne_fail hc.noSkip.fstatat hc.openat (listing_get_isSome hinv.wf) hsc).elim

end Iterations

end VzCgroup
