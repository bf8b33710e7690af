import VzCgroup.Hierarchy

/-!
# VzCgroup — one operation of the hierarchy at a time

What each call the hierarchy operations make does to the filesystem: `make_dir` only adds
directories, at prefixes of its path (`Fs.Grows`); `cg_destroy` under removals that
succeed is `removeTree` of the container's directory; `cg_get_ctl` with nothing failing
answers from the mount table. `Fs.RootTestSound p`, the condition under which the root
test of `rm_tree` started at `p` recognises `p`, is kept by both.
-/

namespace VzCgroup

/-! ## Where `rm_tree` can be trusted -/

/-- The root test of `rm_tree` started at `p` recognises `p`: no directory below the
directory at `p` has its inode number. -/
def Fs.RootTestSound (fs : Fs) (p : Path) : Prop :=
  ∀ n ∈ fs.get p, ∀ i ∈ n.dirIno, RootInoUnique fs p i

instance (fs : Fs) (p : Path) : Decidable (fs.RootTestSound p) := by
  unfold Fs.RootTestSound; infer_instance

namespace Fs

variable {fs fs' : Fs} {p q : Path}

theorem RootTestSound.removeTree (hwf : fs.WF) (h : fs.RootTestSound q) :
    (fs.removeTree p).RootTestSound q := by
  intro n hn i hi e' he' hpre hne
  exact h n (get_of_mem hwf (mem_removeTree.mp (mem_of_get hn)).1) i hi e'
    (mem_removeTree.mp he').1 hpre hne

theorem RootTestSound.mkdir (hwf : fs.WF) (h : fs.RootTestSound q) (hm : fs.mkdir p = .ok fs') :
    fs'.RootTestSound q := by
  obtain ⟨hn, hg, -⟩ := mkdir_ok hm
  intro nd hnd i hi e' he' hpre hne hi'
  have hq := mem_of_get hnd
  rw [hn, List.mem_append, List.mem_singleton] at hq he'
  rcases hq with hq | hq <;> rcases he' with he' | rfl
  · exact h nd (get_of_mem hwf hq) i hi e' he' hpre hne hi'
  · -- the new directory's inode number is fresh
    simp only [Node.dirIno, Option.some.injEq] at hi'
    exact absurd (lt_freshIno hq hi) (by omega)
  · -- nothing was below the new directory
    cases hq
    exact not_below_of_get_none hwf hg he' hpre
  · cases hq
    exact hne rfl

theorem RootTestSound.rootInoUnique (h : fs.RootTestSound p) (hg : fs.get p = some (.dir d i)) :
    RootInoUnique fs p i :=
  h _ hg i rfl

/-! ## Growing a filesystem -/

/-- `fs'` is `fs` with directories added at prefixes of `p`: still a tree, and one on which
the root test of `rm_tree` is as sound as it was. -/
structure Grows (fs fs' : Fs) (p : Path) : Prop where
  wf : fs'.WF
  sound : ∀ q, fs.RootTestSound q → fs'.RootTestSound q
  ext : ∃ new, fs'.nodes = fs.nodes ++ new ∧ ∀ e ∈ new, e.2.isDir ∧ e.1 <+: p

theorem Grows.refl (hwf : fs.WF) : Grows fs fs p :=
  ⟨hwf, fun _ h => h, [], by simp, by simp⟩

theorem Grows.trans {fs'' : Fs} (h1 : Grows fs fs' p) (h2 : Grows fs' fs'' p) : Grows fs fs'' p := by
  obtain ⟨new1, hn1, hnew1⟩ := h1.ext
  obtain ⟨new2, hn2, hnew2⟩ := h2.ext
  refine ⟨h2.wf, fun q h => h2.sound q (h1.sound q h), new1 ++ new2,
    by rw [hn2, hn1, List.append_assoc], fun e he => ?_⟩
  rcases List.mem_append.mp he with he | he
  · exact hnew1 e he
  · exact hnew2 e he

theorem Grows.mono (h : Grows fs fs' p) (hpq : p <+: q) : Grows fs fs' q := by
  obtain ⟨new, hn, hnew⟩ := h.ext
  exact ⟨h.wf, h.sound, new, hn, fun e he => ⟨(hnew e he).1, (hnew e he).2.trans hpq⟩⟩

theorem Grows.isDir_of (h : Grows fs fs' p) (hd : fs.isDir q) : fs'.isDir q := by
  obtain ⟨new, hn, -⟩ := h.ext
  exact isDir_of_subset (by rw [hn]; exact List.subset_append_left _ _) hd

/-- The directories a growth adds lie at prefixes of its path. -/
theorem Grows.isDir_new (h : Grows fs fs' p) (hd : fs'.isDir q) : fs.isDir q ∨ q <+: p := by
  obtain ⟨new, hn, hnew⟩ := h.ext
  obtain ⟨d, i, hm⟩ := isDir_iff.mp hd
  rw [hn, List.mem_append] at hm
  rcases hm with hm | hm
  · exact .inl (isDir_iff.mpr ⟨d, i, hm⟩)
  · exact .inr (hnew _ hm).2

/-- What a growth adds is a directory: a path that held a directory or nothing still does. -/
theorem Grows.dir_or_none (hwf : fs.WF) (h : Grows fs fs' p) (hq : fs.get q = none ∨ fs.isDir q) :
    fs'.get q = none ∨ fs'.isDir q := by
  obtain ⟨new, hn, hnew⟩ := h.ext
  rcases hq with hq | hq
  · rcases hg : fs'.get q with _ | n
    · exact .inl rfl
    · have hm := mem_of_get hg
      rw [hn, List.mem_append] at hm
      rcases hm with hm | hm
      · exact absurd hq (by rw [get_of_mem hwf hm]; simp)
      · right
        obtain ⟨_ | _ | _⟩ := n <;> simp only [Node.isDir] at hnew
        all_goals first
          | exact isDir_of_get hg
          | exact absurd (hnew _ hm).1 (by simp [Node.isDir])
  · exact .inr (h.isDir_of hq)

/-- Removal leaves a path that held a directory or nothing with a directory or nothing. -/
theorem dir_or_none_removeTree (hwf : fs.WF) (hq : fs.get q = none ∨ fs.isDir q) :
    (fs.removeTree p).get q = none ∨ (fs.removeTree p).isDir q := by
  rcases hg : (fs.removeTree p).get q with _ | n
  · exact .inl rfl
  · have hm := mem_removeTree.mp (mem_of_get hg)
    rcases hq with hq | hq
    · exact absurd hq (by rw [get_of_mem hwf hm.1]; simp)
    · exact .inr (isDir_removeTree.mpr ⟨hq, hm.2⟩)

/-- What every operation of the hierarchy keeps: a tree, on which the root test of
`rm_tree` is as sound as it was, where a path that held a directory or nothing still does. -/
structure Keeps (fs fs' : Fs) : Prop where
  wf : fs'.WF
  sound : ∀ q, fs.RootTestSound q → fs'.RootTestSound q
  shape : ∀ q, (fs.get q = none ∨ fs.isDir q) → fs'.get q = none ∨ fs'.isDir q

theorem Keeps.refl (hwf : fs.WF) : Keeps fs fs :=
  ⟨hwf, fun _ h => h, fun _ h => h⟩

theorem Keeps.trans {fs'' : Fs} (h1 : Keeps fs fs') (h2 : Keeps fs' fs'') : Keeps fs fs'' :=
  ⟨h2.wf, fun q h => h2.sound q (h1.sound q h), fun q h => h2.shape q (h1.shape q h)⟩

theorem Grows.keeps (hwf : fs.WF) (h : Grows fs fs' p) : Keeps fs fs' :=
  ⟨h.wf, h.sound, fun _ hq => h.dir_or_none hwf hq⟩

theorem removeTree_keeps (hwf : fs.WF) : Keeps fs (fs.removeTree p) :=
  ⟨removeTree_wf hwf, fun _ h => h.removeTree hwf, fun _ hq => dir_or_none_removeTree hwf hq⟩

theorem mkdir_grows (hwf : fs.WF) (hm : fs.mkdir q = .ok fs') (hq : q <+: p) : Grows fs fs' p := by
  obtain ⟨hn, -⟩ := mkdir_ok hm
  exact ⟨mkdir_wf hwf hm, fun _ h => h.mkdir hwf hm, _, hn, by simp [Node.isDir, hq]⟩

end Fs

/-! ## `make_dir` -/

section MakeDir

variable {fs : Fs} {p : Path}

theorem mkdirAllFrom_grows (hwf : fs.WF) (pre rest : Path) :
    fs.Grows (mkdirAllFrom fs pre rest) (pre ++ rest) := by
  induction rest generalizing fs pre with
  | nil => exact Fs.Grows.refl hwf
  | cons x rest ih =>
    have hpre : pre ++ [x] ++ rest = pre ++ x :: rest := by simp
    unfold mkdirAllFrom
    split
    · exact hpre ▸ ih hwf (pre ++ [x])
    · split
      · rename_i fs' hm
        have hg := Fs.mkdir_grows hwf hm (⟨rest, hpre⟩ : pre ++ [x] <+: pre ++ x :: rest)
        exact hg.trans (hpre ▸ ih hg.wf (pre ++ [x]))
      · exact Fs.Grows.refl hwf

theorem mkdirAll_grows (hwf : fs.WF) (p : Path) : fs.Grows (mkdirAll fs p) p :=
  mkdirAllFrom_grows hwf [] p

theorem makeDir_grows (hwf : fs.WF) (fail : Option Nat) : fs.Grows (makeDir fail fs p).2 p := by
  cases fail with
  | none => exact mkdirAll_grows hwf p
  | some k => exact (mkdirAll_grows hwf _).mono (List.take_prefix _ _)

/-- A `make_dir` that succeeds leaves the directory there. -/
theorem makeDir_isDir_of_ok {fail : Option Nat} (h : (makeDir fail fs p).1 = 0) :
    (makeDir fail fs p).2.isDir p := by
  cases fail with
  | none =>
    simp only [makeDir] at h ⊢
    split at h
    · assumption
    · cases h
  | some k => simp [makeDir] at h

/-- A `make_dir` that fails adds directories above its path only. -/
theorem makeDir_isDir_of_fail (hwf : fs.WF) {fail : Option Nat} {q : Path}
    (h : (makeDir fail fs p).1 ≠ 0) (hq : (makeDir fail fs p).2.isDir q) : fs.isDir q ∨ (q <+: p ∧ q ≠ p) := by
  cases fail with
  | none =>
    rcases (mkdirAll_grows hwf p).isDir_new hq with hq' | hq'
    · exact .inl hq'
    · refine .inr ⟨hq', fun hqp => h ?_⟩
      subst hqp
      simp only [makeDir] at hq ⊢
      rw [if_pos hq]
  | some k =>
    by_cases hp : p = []
    · subst hp
      exact .inl (by simpa [makeDir, mkdirAll, mkdirAllFrom] using hq)
    rcases (mkdirAll_grows hwf _).isDir_new hq with hq' | hq'
    · exact .inl hq'
    · refine .inr ⟨hq'.trans (List.take_prefix _ _), fun hqp => ?_⟩
      subst hqp
      have := hq'.length_le
      have := List.length_pos.mpr hp
      simp only [List.length_take] at *
      omega

end MakeDir

/-! ## `cg_destroy` -/

/-- Under removals that succeed, `cg_destroy` of a controller whose mount path is set
removes the container's directory with everything below it, or finds nothing to remove,
on any fuel from `rmTreeFuel` on. -/
theorem cgDestroy_clean {fuel : Nat} {n : Names} {rm : RmAnswers} {a mp : List Char} {cache : Cache}
    {c : Ctl} {fs : Fs} (hrm : rm.Clean) (hwf : fs.WF) (hc : cache c = some mp)
    (hsound : fs.RootTestSound (components (getCgroupName n a mp c)))
    (hp : fs.get (components (getCgroupName n a mp c)) = none ∨
      fs.isDir (components (getCgroupName n a mp c))) (hfuel : rmTreeFuel fs ≤ fuel) :
    cgDestroy fuel n rm a cache c fs = some (0, fs.removeTree (components (getCgroupName n a mp c))) := by
  rcases hp with hp | hp
  · simp [cgDestroy, hc, rmTree_of_get_none hp hrm.openRoot, Fs.removeTree_of_get_none hwf hp]
  · obtain ⟨d, i, hg⟩ := Fs.get_of_isDir hwf hp
    obtain ⟨log, hr⟩ := rmTree_removes_subtree hwf hg (hsound.rootInoUnique hg) hrm
    simp [cgDestroy, hc, rmTree_mono hr hfuel]

/-! ## Fuel

Each definition that runs `rm_tree` gives on more fuel what it gave on less. -/

section Fuel

variable {fuel fuel' : Nat} {text : List Char} {n : Names} {ctid : List Char}

theorem cgDestroy_mono {ans : RmAnswers} {cache : Cache} {c : Ctl} {fs : Fs} {x : Nat × Fs}
    (h : cgDestroy fuel n ans ctid cache c fs = some x) (hle : fuel ≤ fuel') :
    cgDestroy fuel' n ans ctid cache c fs = some x := by
  unfold cgDestroy at h ⊢
  cases hc : cache c with
  | none => simpa [hc] using h
  | some mp =>
    simp only [hc] at h ⊢
    rcases hr : rmTree fuel ans fs (getCgroupName n ctid mp c) with _ | y
    · simp [hr] at h
    · simpa [hr, rmTree_mono hr hle] using h

theorem rollback_mono {rm : Ctl → RmAnswers} {cache : Cache} :
    ∀ {cs : List Ctl} {fs fs' : Fs}, rollback fuel n rm ctid cache cs fs = some fs' → fuel ≤ fuel' →
      rollback fuel' n rm ctid cache cs fs = some fs'
  | [], _, _, h, _ => h
  | c :: cs, fs, fs', h, hle => by
    simp only [rollback] at h ⊢
    rcases hd : cgDestroy fuel n (rm c) ctid cache c fs with _ | ⟨d, fs1⟩
    · simp [hd] at h
    · simp only [hd] at h
      simp only [cgDestroy_mono hd hle]
      exact rollback_mono h hle

theorem cgNewCgroup_mono {ans : NewAnswers} {h : Host} {x : Int × Host}
    (hn : cgNewCgroup fuel text n ctid ans h = some x) (hle : fuel ≤ fuel') :
    cgNewCgroup fuel' text n ctid ans h = some x := by
  simp only [cgNewCgroup] at hn ⊢
  generalize cgNewLoop text n ctid ans 0 cgCtlMap h = p at hn ⊢
  obtain ⟨ret, i, h1⟩ := p
  simp only at hn ⊢
  split_ifs at hn ⊢
  · exact hn
  · obtain ⟨fs, hfs, rfl⟩ := Option.map_eq_some'.mp hn
    rw [rollback_mono hfs hle]
    rfl

theorem cgDestroyLoop_mono {res : Ctl → ResolveAnswer} {rm : Ctl → RmAnswers}
    {x : Nat × Host × List (Ctl × Nat)} :
    ∀ {cs : List Ctl} {h : Host} {ret : Nat} {log : List (Ctl × Nat)},
      cgDestroyLoop fuel text n ctid res rm cs h ret log = some x → fuel ≤ fuel' →
      cgDestroyLoop fuel' text n ctid res rm cs h ret log = some x
  | [], _, _, _, hd, _ => hd
  | c :: cs, h, ret, log, hd, hle => by
    simp only [cgDestroyLoop] at hd ⊢
    split_ifs at hd ⊢
    · exact cgDestroyLoop_mono hd hle
    · generalize hc : cgDestroy fuel n (rm c) ctid (cgGetCtl text (res c) h.cache c).2 c h.fs = o at hd
      rcases o with _ | ⟨d, fs⟩
      · cases hd
      · rw [cgDestroy_mono hc hle]
        exact cgDestroyLoop_mono hd hle

theorem cgDestroyCgroup_mono {res : Ctl → ResolveAnswer} {rm : Ctl → RmAnswers} {h : Host}
    {x : Nat × Host × List (Ctl × Nat)} (hd : cgDestroyCgroup fuel text n ctid res rm h = some x)
    (hle : fuel ≤ fuel') : cgDestroyCgroup fuel' text n ctid res rm h = some x :=
  cgDestroyLoop_mono hd hle

end Fuel

end VzCgroup
