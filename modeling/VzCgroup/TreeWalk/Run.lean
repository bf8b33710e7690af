import VzCgroup.TreeWalk.Invariant

/-!
# VzCgroup — whole runs of `rm_tree`

The loop lemmas lift the iteration lemmas to whole runs: a loop that ends on some fuel
ends the same way on more; under clean answers, or under any answers on a tree without
symbolic links, enough fuel brings the loop to its end; whatever the answers, the loop
only removes; and under any answers that skip nothing a loop that ends with `0` ends at
the root with no subdirectory left. From them, what `rm_tree`
leaves behind; and, at single inputs, what it does when its assumptions fail: a
directory of another device with the root's inode number, a skipped scan, a stale `st`
that sends the walk through a symbolic link.
-/

namespace VzCgroup

/-! ## The loop -/

section Loop

variable {fs0 : Fs} {R : Path} {dv0 i0 : Nat} {ans : Nat → ScanAnswers} {w' : Walk}

/-- A loop that ends on some fuel ends the same way on more. -/
theorem rmTreeLoop_mono {x : Walk × Int} :
    ∀ {fuel fuel' k : Nat} {w : Walk}, rmTreeLoop ans i0 fuel k w = some x → fuel ≤ fuel' →
      rmTreeLoop ans i0 fuel' k w = some x
  | 0, _, _, _, h, _ => by cases h
  | fuel + 1, fuel', k, w, h, hle => by
    obtain ⟨fuel', rfl⟩ : ∃ f, fuel' = f + 1 := ⟨fuel' - 1, by omega⟩
    simp only [rmTreeLoop] at h ⊢
    generalize iterate (ans k) i0 w = e at h ⊢
    cases e with
    | stop => exact h
    | cont w' =>
      simp only at h ⊢
      split_ifs at h ⊢
      · exact rmTreeLoop_mono h (by omega)
      · exact h

theorem rmTreeLoop_cont {w : Walk} {fuel k : Nat} (h : iterate (ans k) i0 w = .cont w')
    (hl : 0 ≤ w'.level) : rmTreeLoop ans i0 (fuel + 1) k w = rmTreeLoop ans i0 fuel (k + 1) w' := by
  rw [rmTreeLoop, h]
  exact if_pos hl

/-- A loop whose scans skip nothing and that ends with `0` ends at the root, which has
no subdirectory left. -/
theorem rmTreeLoop_zero (hR : fs0.get R = some (.dir dv0 i0)) (hu : RootInoUnique fs0 R i0)
    (hs : ∀ k, (ans k).NoSkip) :
    ∀ fuel k π w, WalkInv fs0 R π w → rmTreeLoop ans i0 fuel k w = some (w', 0) →
      WalkInv fs0 R [] w' ∧ w'.fs.hasSubdir R = false := by
  intro fuel
  induction fuel with
  | zero => intro _ _ _ _ h; cases h
  | succ fuel ih =>
    intro k π w hinv h
    simp only [rmTreeLoop] at h
    split at h
    · rename_i w'' r hit
      cases h
      obtain ⟨rfl, rfl, hsub⟩ := hinv.iterate_stop_zero (hs k) hR hu hit
      exact ⟨hinv, hsub⟩
    · rename_i w'' hit
      obtain ⟨π', hinv', -⟩ := hinv.iterate_cont (.inl (hs k).fstatat) hR hu hit
      split at h
      · exact ih _ _ _ hinv' h
      · have := hinv'.level
        omega

/-- Under clean answers, fuel above the measure brings the loop to its end, with `0`. -/
theorem rmTreeLoop_clean (hR : fs0.get R = some (.dir dv0 i0)) (hu : RootInoUnique fs0 R i0)
    (hc : ∀ k, (ans k).Clean) :
    ∀ fuel k π w, WalkInv fs0 R π w → walkMeasure fs0.depth π w < fuel →
      ∃ w', rmTreeLoop ans i0 fuel k w = some (w', 0) := by
  intro fuel
  induction fuel with
  | zero => intro _ _ _ h; omega
  | succ fuel ih =>
    intro k π w hinv hμ
    simp only [rmTreeLoop]
    split
    · rename_i w'' r hit
      exact ⟨w'', by rw [hinv.iterate_clean (hc k) hR hu hit]⟩
    · rename_i w'' hit
      obtain ⟨π', hinv', hlt⟩ := hinv.iterate_cont (.inl (hc k).noSkip.fstatat) hR hu hit
      have := hinv'.level
      rw [if_pos (by omega)]
      exact ih _ _ _ hinv' (by omega)

end Loop

/-! ## `rm_tree` -/

/-- What is left once a subtree is gone does not depend on which entries below the
subtree's root went first. -/
theorem Fs.removeTree_eq_of_keep {fs fs' : Fs} {R : Path} (hnd : fs.nodes.Nodup)
    (hsub : List.Sublist fs'.nodes fs.nodes)
    (hkeep : ∀ e ∈ fs.nodes, ¬ (R <+: e.1 ∧ e.1 ≠ R) → e ∈ fs'.nodes) :
    fs'.removeTree R = fs.removeTree R := by
  have hs : List.Sublist (fs'.removeTree R).nodes (fs.removeTree R).nodes := hsub.filter _
  have hsup : (fs.removeTree R).nodes ⊆ (fs'.removeTree R).nodes := fun e he => by
    rw [mem_removeTree] at he ⊢
    exact ⟨hkeep e he.1 fun h => he.2 h.1, he.2⟩
  have hlen := (List.subperm_of_subset (hnd.sublist removeTree_sublist) hsup).length_le
  exact congrArg Fs.mk (hs.eq_of_length (le_antisymm hs.length_le hlen))

/-- The fuel on which `rm_tree` over `fs` ends under clean answers
(`rmTree_removes_subtree`), and under any answers when no symbolic link lies below its
root (`rmTree_returns`). A link lets a walk go on as long as its answers make it
(`rmTree_loops_through_symlink`): no fuel fixed in advance is enough for every walk. -/
def rmTreeFuel (fs : Fs) : Nat :=
  (fs.nodes.length + 1) * (2 * fs.depth + 2)

theorem Fs.depth_le {fs : Fs} {D : Nat} (h : ∀ e ∈ fs.nodes, e.1.length ≤ D) : fs.depth ≤ D := by
  obtain ⟨nodes⟩ := fs
  induction nodes with
  | nil => simp [Fs.depth]
  | cons x xs ih =>
    simp only [Fs.depth, List.map_cons, List.foldr_cons] at ih ⊢
    exact max_le (h x (List.mem_cons_self _ _)) (ih fun e he => h e (List.mem_cons_of_mem _ he))

/-- Less of a tree needs no more fuel. -/
theorem rmTreeFuel_le {fs fs' : Fs} (h : List.Sublist fs'.nodes fs.nodes) : rmTreeFuel fs' ≤ rmTreeFuel fs := by
  have hd : fs'.depth ≤ fs.depth := Fs.depth_le fun e he => Fs.length_le_depth (h.subset he)
  have hl := h.length_le
  exact Nat.mul_le_mul (by omega) (by omega)

theorem walkMeasure_start_lt {fs : Fs} {R : Path} {dv i : Nat} :
    walkMeasure fs.depth [] (Walk.start fs ⟨R, dv, i⟩) < rmTreeFuel fs := by
  simp only [walkMeasure, Walk.start, Walk.openFd, rmTreeFuel, Nat.succ_mul, if_true, List.length_nil]
  omega

section RmTree

variable {fs fs' : Fs} {path : List Char} {dv i : Nat} {ans : RmAnswers}

theorem rmTree_open (hR : fs.get (components path) = some (.dir dv i)) (h0 : ans.openRoot = none) :
    answer ans.openRoot (fs.openDir (components path)) = .ok ⟨components path, dv, i⟩ := by
  simp [answer, h0, Fs.openDir_of_get hR]

/-- `rm_tree` of a path where nothing is: `open` fails with `ENOENT`, which is success. -/
theorem rmTree_of_get_none {fuel : Nat} (h : fs.get (components path) = none)
    (h0 : ans.openRoot = none) : rmTree fuel ans fs path = some (0, fs, []) := by
  simp [rmTree, answer, h0, Fs.openDir, Fs.resolve, Fs.maxSymlinks, h]

/-- `rm_tree` on a directory whose calls fail at most with transient `EBUSY`: it
terminates, returns `0`, and leaves the filesystem without the directory and everything
below it, and with everything else. The walk's root test compares `st_ino` alone, so no
directory below the root may share the root's inode number. -/
theorem rmTree_removes_subtree (hwf : fs.WF) (hR : fs.get (components path) = some (.dir dv i))
    (hu : RootInoUnique fs (components path) i) (hc : ans.Clean) :
    ∃ log, rmTree (rmTreeFuel fs) ans fs path = some (0, fs.removeTree (components path), log) := by
  have hinv0 := WalkInv.start hwf hR
  obtain ⟨w', hloop⟩ := rmTreeLoop_clean hR hu hc.iter _ 0 _ _ hinv0 walkMeasure_start_lt
  obtain ⟨hinv', hsub⟩ := rmTreeLoop_zero hR hu (fun k => (hc.iter k).noSkip) _ _ _ _ hinv0 hloop
  obtain ⟨_, _, _, _, _, _, hget⟩ := hinv'.cur
  rw [List.append_nil] at hget
  have hrm := Fs.rmdir_of_isDir hinv'.wf (Fs.isDir_of_get hget) hsub
  have heq := Fs.removeTree_eq_of_keep (List.Nodup.of_map _ hwf.nodup) hinv'.sub hinv'.keep
  refine ⟨((w'.closeOpt w'.fd).closeOpt w'.parentfd).log, ?_⟩
  simp only [rmTree, rmTree_open hR hc.openRoot, hc.fstatRoot, hc.rmdirRoot, hloop, Walk.closeOpt_fs,
    hrm, heq]
  rfl

/-- A result of `rm_tree` on some fuel is its result on more. -/
theorem rmTree_mono {fuel fuel' : Nat} {x : Int × Fs × List FdEvent}
    (h : rmTree fuel ans fs path = some x) (hle : fuel ≤ fuel') : rmTree fuel' ans fs path = some x := by
  simp only [rmTree] at h ⊢
  generalize answer ans.openRoot (fs.openDir (components path)) = o at h ⊢
  rcases o with e | root
  · cases e <;> exact h
  rcases hl : rmTreeLoop ans.iter root.ino fuel 0 (Walk.start fs root) with _ | y
  · simp only [hl] at h
    split_ifs at h ⊢
    exact h
  · simp only [hl] at h
    simp only [rmTreeLoop_mono hl hle]
    exact h

/-- A tree of control-group directories: `/r` with `a`, `a/b`, a control file `a/tasks`,
and `b`. -/
def sampleTree : Fs :=
  ⟨[([], .dir 0 1), (["r".toList], .dir 0 2), (["r".toList, "a".toList], .dir 0 3),
    (["r".toList, "a".toList, "b".toList], .dir 0 4),
    (["r".toList, "a".toList, "tasks".toList], .file), (["r".toList, "b".toList], .dir 0 5)]⟩

theorem rmTree_removes_sampleTree :
    ∃ log, rmTree (rmTreeFuel sampleTree) {} sampleTree "/r".toList =
      some (0, sampleTree.removeTree (components "/r".toList), log) :=
  rmTree_removes_subtree (i := 2) (by decide) (show sampleTree.get _ = some (.dir 0 2) by decide)
    (by decide)
    RmAnswers.clean_default

/-- A directory of another device below the root, with the root's inode number: a
filesystem mounted inside the tree. -/
def sameInoFs : Fs :=
  ⟨[([], .dir 0 1), (["r".toList], .dir 0 2), (["r".toList, "a".toList], .dir 1 2)]⟩

/-- With nothing failing, `rm_tree("/r")` mistakes `/r/a` for the root: it returns `0`
and removes nothing. -/
theorem rmTree_sameIno :
    rmTree (rmTreeFuel sameInoFs) {} sameInoFs "/r".toList =
      some (0, sameInoFs, [.opened 0, .opened 1, .closed 1, .closed 0]) := by
  decide

/-- If `rm_tree` of a directory returns `0` and every scan of the walk read the whole
directory and stat'ed every entry (no failing `readdir` or `fstatat`, no `ENOENT` from
`openat` of a directory), no directory is left strictly below it. Every other call may
fail in any way; the final `rmdir` of the directory itself is the one failure that goes
unreported. -/
theorem rmTree_zero_leaves_no_subdir (hwf : fs.WF)
    (hR : fs.get (components path) = some (.dir dv i)) (hu : RootInoUnique fs (components path) i)
    (hs : ∀ k, (ans.iter k).NoSkip) (h0 : ans.openRoot ≠ some .enoent) {fuel : Nat}
    {log : List FdEvent} (h : rmTree fuel ans fs path = some (0, fs', log)) :
    ∀ e ∈ fs'.nodes, components path <+: e.1 → e.1 ≠ components path → e.2.isDir = false := by
  simp only [rmTree] at h
  cases ho : ans.openRoot with
  | some e =>
    cases e
    · exact absurd ho h0
    all_goals simp [answer, ho] at h
  | none =>
    rw [rmTree_open hR ho] at h
    cases h1 : ans.fstatRoot
    · simp [h1] at h
    rcases hl : rmTreeLoop ans.iter i fuel 0 (Walk.start fs ⟨components path, dv, i⟩) with
      _ | ⟨w, ret⟩
    · simp [h1, hl] at h
    simp only [h1, hl, Bool.not_true, Walk.closeOpt_fs, Option.some.injEq, Prod.mk.injEq] at h
    obtain ⟨rfl, rfl, -⟩ := h
    obtain ⟨hinv, hsub⟩ := rmTreeLoop_zero hR hu hs _ _ _ _ (WalkInv.start hwf hR) hl
    -- below the root, the walk left files only; the final `rmdir` may remove them too
    have hw : ∀ e ∈ w.fs.nodes, components path <+: e.1 → e.1 ≠ components path →
        e.2.isDir = false := fun e he hp hne => (Fs.below_of_not_hasSubdir hinv.wf hsub he hp hne).2
    intro e he hp hne
    split at he
    · split at he
      · rename_i fs'' hrm
        rw [(Fs.rmdir_ok hrm).2.2] at he
        exact absurd hp (Fs.mem_removeTree.mp he).2
      · exact hw e he hp hne
    · exact hw e he hp hne

/-- On the sample tree, with the kernel's own answers, the walk returns `0` and only the
tree's parent is left. -/
theorem rmTree_zero_sampleTree :
    ∃ log, rmTree (rmTreeFuel sampleTree) {} sampleTree "/r".toList =
        some (0, sampleTree.removeTree (components "/r".toList), log) ∧
      ∀ e ∈ (sampleTree.removeTree (components "/r".toList)).nodes,
        components "/r".toList <+: e.1 → e.1 ≠ components "/r".toList → e.2.isDir = false :=
  have h : rmTree (rmTreeFuel sampleTree) {} sampleTree "/r".toList =
      some (0, sampleTree.removeTree (components "/r".toList), [.opened 0, .opened 1, .opened 2,
        .closed 0, .opened 3, .closed 2, .opened 4, .closed 1, .opened 5, .closed 4, .opened 6,
        .closed 5, .opened 7, .closed 6, .opened 8, .closed 7, .closed 3, .closed 8]) := by decide
  ⟨_, h, rmTree_zero_leaves_no_subdir (i := 2) (by decide)
    (show sampleTree.get _ = some (.dir 0 2) by decide) (by decide)
    (fun _ => ScanAnswers.clean_default.noSkip) (by decide) h⟩

/-- Every scan of the first iteration fails to stat its entries. -/
def skipFirstScan : RmAnswers :=
  { iter := fun k => if k = 0 then { fstatat := fun _ => some .other } else {} }

/-- With every `fstatat` of the first scan failing with an error other than `ENOENT`,
`goto_next_dir` logs each entry and goes on to the next, and answers `1`, which its comment
gives as "fd not changed (no dirs)", for a root that has subdirectories; the walk takes the
root for a directory without subdirectories and `rm_tree` returns `0` with the whole tree in
place. -/
theorem rmTree_skipped_scan :
    (gotoNextDir (skipFirstScan.iter 0) (Walk.start sampleTree ⟨["r".toList], 0, 2⟩)).1 = 1 ∧
      sampleTree.hasSubdir ["r".toList] = true ∧
      rmTree 20 skipFirstScan sampleTree "/r".toList = some (0, sampleTree, [.opened 0, .closed 0]) := by
  decide

end RmTree

/-! ## A walk that never ends -/

/-- `/r` with a directory `d` and a symbolic link `l` back to `/r`. -/
def loopFs : Fs :=
  ⟨[([], .dir 0 1), (["r".toList], .dir 0 2), (["r".toList, "d".toList], .dir 0 3),
    (["r".toList, "l".toList], .symlink ["r".toList])]⟩

/-- Every scan reads `d` and then `l`; `openat` of `d` and `fstatat` of `l` answer
`ENOENT`, so `st` still describes `d` when `l` is looked at. -/
def loopAnswers : RmAnswers :=
  { iter := fun _ =>
      { rank := fun n => if n = "d".toList then 0 else 1
        openat := fun n => if n = "d".toList then some .enoent else none
        fstatat := fun n => if n = "l".toList then some .enoent else none } }

theorem loopAnswers_scan (k : Nat) :
    scanDir (loopAnswers.iter k) loopFs ["r".toList]
        ((loopAnswers.iter k).listing (loopFs.entries ["r".toList])) (loopAnswers.iter k).stat0IsDir =
      .found "l".toList ⟨["r".toList], 0, 2⟩ := rfl

/-- The stale `st` makes the walk open `l`, which lands on `/r` again: every iteration
descends into the root, and `rm_tree` runs out of any fuel. -/
theorem rmTree_loops_through_symlink (fuel : Nat) :
    rmTree fuel loopAnswers loopFs "/r".toList = none := by
  have key : ∀ fuel k (w : Walk), w.fs = loopFs → w.dirOf w.fd = some ⟨["r".toList], 0, 2⟩ →
      0 ≤ w.level → (∀ h, w.parentfd = some h → h < w.next) → (∀ h, w.fd = some h → h < w.next) →
      rmTreeLoop loopAnswers.iter 2 fuel k w = none := by
    intro fuel
    induction fuel with
    | zero => intros; rfl
    | succ fuel ih =>
      intro k w hfs hc hl hp hf
      have hpne : w.parentfd ≠ some w.next := fun h => by have := hp _ h; omega
      have hs := loopAnswers_scan k
      rw [← hfs] at hs
      rw [rmTreeLoop_cont (iterate_found hc rfl hs) (by simp; omega)]
      refine ih _ _ (by simp [hfs]) ?_ (by simp; omega) ?_ ?_
      · simp only [Walk.dirOf_mk]
        rw [descend_fd, descend_dirOf_self hpne]
      · intro h hh
        simp only [descend_parentfd] at hh
        have := hf h hh
        simp; omega
      · intro h hh
        simp only [descend_fd, Option.some.injEq] at hh
        simp; omega
  have hopen : answer loopAnswers.openRoot (loopFs.openDir (components "/r".toList)) =
      .ok ⟨["r".toList], 0, 2⟩ := rfl
  simp only [rmTree, hopen]
  rw [key _ _ (Walk.start loopFs ⟨["r".toList], 0, 2⟩) rfl rfl (by decide) (fun _ h => by cases h) (fun _ h => by cases h; decide)]
  rfl

end VzCgroup
