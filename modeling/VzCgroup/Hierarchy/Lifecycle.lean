import VzCgroup.Hierarchy.Steps

/-!
# VzCgroup — a container's hierarchy over whole runs

Runs of `cg_new_cgroup` and `cg_destroy_cgroup` on any containers, under any failures of
`make_dir` and of `cg_get_ctl`, with removals that succeed, spread over any number of
processes. The directories outlive a process; the mount paths `cg_get_ctl` caches do not:
every process starts with all of them unset (`Op.restart`). The spec promises that a
container has its directory under every resolved controller or under none. The code's
rollback destroys the controllers before the failing one whether this call created their
directories or not, so a failing `cg_new_cgroup` on a container that has its hierarchy
leaves part of it. What every reachable state does keep is a cut: for each container a
table position `k` such that the container has its directory under a controller exactly
when no controller before `k` shares that directory. A run starts at `k = 13` (none), a
successful `cg_new_cgroup` moves to `0` (all), a failure at position `i` to `max k i`, and
`cg_destroy_cgroup` back to `13`.

`cg_destroy_cgroup` skips a controller whose `cg_get_ctl` fails. In the process that made
the directories that is harmless: a directory there has a controller whose mount path is
already cached, and a cached path is never looked up again. In a later process nothing is
cached, and a lookup that fails leaves the controller's directory behind. So the cut is
kept when, after the first restart, the lookups of `cg_destroy_cgroup` succeed
(`ResolvedAfterRestart`).

The container directories of the run are assumed to lie apart (`PathsApart`): no two of
them are nested, unless they are one directory of one container.
-/

namespace VzCgroup

/-! ## Containers whose directories lie apart -/

section Apart

variable (text : List Char) (n : Names) (ids : List (List Char))

/-- The containers' directories are never nested: two of them, under any controllers, are
one directory of one container, or neither is at or below the other. -/
def PathsApart : Prop :=
  ∀ a ∈ ids, ∀ b ∈ ids, ∀ c ∈ cgCtlMap, ∀ c' ∈ cgCtlMap, ∀ p ∈ cgPath text n a c,
    ∀ q ∈ cgPath text n b c', p <+: q → a = b ∧ p = q

instance : Decidable (PathsApart text n ids) := by
  unfold PathsApart; infer_instance

/-- `q` is the directory of one of the containers under some controller. -/
def IsCgPath (q : Path) : Prop :=
  ∃ b ∈ ids, ∃ c ∈ cgCtlMap, cgPath text n b c = some q

variable {text n ids} {a : List Char} {c : Ctl} {p q : Path}

theorem PathsApart.eq_of_prefix (h : PathsApart text n ids) (ha : a ∈ ids)
    (hp : cgPath text n a c = some p) (hq : IsCgPath text n ids q) (hpq : p <+: q ∨ q <+: p) :
    q = p := by
  obtain ⟨b, hb, c', _, hq⟩ := hq
  rcases hpq with hpq | hpq
  · exact (h a ha b hb c (mem_cgCtlMap c) c' (mem_cgCtlMap c') p hp q hq hpq).2.symm
  · exact (h b hb a ha c' (mem_cgCtlMap c') c (mem_cgCtlMap c) q hq p hp hpq).2

/-- Another container's directory is no directory of `a`. -/
theorem PathsApart.ne_of_ne (h : PathsApart text n ids) (ha : a ∈ ids) {b : List Char} (hb : b ∈ ids)
    (hab : a ≠ b) {c' : Ctl} (hq : cgPath text n b c' = some q) (c : Ctl) : cgPath text n a c ≠ some q :=
  fun hp => hab (h a ha b hb c (mem_cgCtlMap c) c' (mem_cgCtlMap c') q hp q hq (List.prefix_refl q)).1

theorem cgPath_isCgPath (ha : a ∈ ids) (hp : cgPath text n a c = some p) : IsCgPath text n ids p :=
  ⟨a, ha, c, mem_cgCtlMap c, hp⟩

end Apart

/-! ## `cg_new_cgroup`, call by call -/

section New

variable {text : List Char} {n : Names} {ids : List (List Char)} {a : List Char} {cache : Cache}
  {c : Ctl} {mp : List Char} {fs : Fs}

theorem cgPath_of_cache (hs : CacheSound text cache) (hc : cache c = some mp) :
    cgPath text n a c = some (components (getCgroupName n a mp c)) := by
  simp [cgPath, hs c mp hc]

/-- `cg_create` under a controller whose mount path is set: the filesystem grows, and
among the containers' directories only `a`'s own under the controller may appear, and only
when the call succeeds. -/
theorem cgCreate_spec (hapart : PathsApart text n ids) (ha : a ∈ ids) (hwf : fs.WF)
    (hp : cgPath text n a c = some (components (getCgroupName n a mp c))) (fail : Option Nat) :
    let r := cgCreate n fail a mp c fs
    Fs.Keeps fs r.2 ∧ (∀ q, fs.isDir q → r.2.isDir q) ∧
      ∀ Q, IsCgPath text n ids Q →
        (r.2.isDir Q ↔ fs.isDir Q ∨ (r.1 = 0 ∧ cgPath text n a c = some Q)) := by
  intro r
  have hg := makeDir_grows (p := components (getCgroupName n a mp c)) hwf fail
  refine ⟨hg.keeps hwf, fun q => hg.isDir_of, fun Q hQ => ⟨fun hd => ?_, ?_⟩⟩
  · by_cases h0 : r.1 = 0
    · rcases hg.isDir_new hd with hd | hd
      · exact .inl hd
      · exact .inr ⟨h0, by rw [hp, hapart.eq_of_prefix ha hp hQ (.inr hd)]⟩
    · rcases makeDir_isDir_of_fail hwf h0 hd with hd | ⟨hd, hne⟩
      · exact .inl hd
      · exact absurd (hapart.eq_of_prefix ha hp hQ (.inr hd)) hne
  · rintro (hd | ⟨h0, hQp⟩)
    · exact hg.isDir_of hd
    · rw [hp, Option.some.injEq] at hQp
      subst hQp
      exact makeDir_isDir_of_ok h0

/-- What the creation loop has made of host `h` by host `h'`, having gone through the
controllers `done`: the cache only grew and holds every resolved controller of `done`; the
filesystem keeps its shape, and among the containers' directories it has gained exactly
`a`'s under the controllers of `done`. -/
structure NewLoopDone (text : List Char) (n : Names) (ids : List (List Char)) (a : List Char)
    (done : List Ctl) (h h' : Host) : Prop where
  cache : CacheSound text h'.cache
  grows : ∀ c mp, h.cache c = some mp → h'.cache c = some mp
  cached : ∀ c ∈ done, (resolvedPath text c).isSome → (h'.cache c).isSome
  keeps : Fs.Keeps h.fs h'.fs
  view : ∀ Q, IsCgPath text n ids Q →
    (h'.fs.isDir Q ↔ h.fs.isDir Q ∨ ∃ c ∈ done, cgPath text n a c = some Q)

/-- The loop's work at one controller, followed by its work at the rest. -/
theorem NewLoopDone.cons {cs : List Ctl} {h h1 h' : Host} (h₁ : NewLoopDone text n ids a [c] h h1)
    (h₂ : NewLoopDone text n ids a cs h1 h') : NewLoopDone text n ids a (c :: cs) h h' := by
  refine ⟨h₂.cache, fun c mp h => h₂.grows c mp (h₁.grows c mp h), fun c' hc' hr => ?_,
    h₁.keeps.trans h₂.keeps, fun Q hQ => ?_⟩
  · rcases List.mem_cons.mp hc' with rfl | hc'
    · obtain ⟨mp, hmp⟩ := Option.isSome_iff_exists.mp (h₁.cached c' (List.mem_singleton_self _) hr)
      simp [h₂.grows _ _ hmp]
    · exact h₂.cached c' hc' hr
  · rw [h₂.view Q hQ, h₁.view Q hQ]
    simp only [List.mem_cons, List.not_mem_nil, or_false, or_and_right, exists_or, exists_eq_left,
      or_assoc]

/-- The creation loop of `cg_new_cgroup` from position `i` stops `j` controllers on, all
of them when it succeeds, having done its work at those controllers. -/
theorem cgNewLoop_spec (hapart : PathsApart text n ids) (ha : a ∈ ids) (ans : NewAnswers) :
    ∀ (cs : List Ctl) (i : Nat) (h : Host) (ret : Int) (k : Nat) (h' : Host),
      CacheSound text h.cache → h.fs.WF → cgNewLoop text n a ans i cs h = (ret, k, h') →
      ∃ j ≤ cs.length, k = i + j ∧ (ret = 0 → j = cs.length) ∧
        NewLoopDone text n ids a (cs.take j) h h'
  | [], i, h, ret, k, h', hs, hwf, hrun => by
    simp only [cgNewLoop, Prod.mk.injEq] at hrun
    obtain ⟨rfl, rfl, rfl⟩ := hrun
    exact ⟨0, le_rfl, rfl, fun _ => rfl, hs, fun _ _ h => h, by simp, Fs.Keeps.refl hwf, by simp⟩
  | c :: cs, i, h, ret, k, h', hs, hwf, hrun => by
    have hs1 := cacheSound_cgGetCtl (a := ans.resolve c) (c := c) hs
    have hext1 : ∀ c' mp, h.cache c' = some mp → (cgGetCtl text (ans.resolve c) h.cache c).2 c' = some mp :=
      fun _ _ h => cgGetCtl_cache_stable h
    -- the loop goes on past `c` to `cs`
    have next : ∀ h1 : Host, NewLoopDone text n ids a [c] h h1 → h1.fs.WF →
        cgNewLoop text n a ans (i + 1) cs h1 = (ret, k, h') →
        ∃ j ≤ (c :: cs).length, k = i + j ∧ (ret = 0 → j = (c :: cs).length) ∧
          NewLoopDone text n ids a ((c :: cs).take j) h h' := by
      intro h1 hd hwf1 hrun
      obtain ⟨j, hj, rfl, hret, hd'⟩ := cgNewLoop_spec hapart ha ans cs (i + 1) h1 ret k h' hd.cache hwf1 hrun
      exact ⟨j + 1, by simpa using hj, by omega, fun h0 => by simp [hret h0], hd.cons hd'⟩
    simp only [cgNewLoop] at hrun
    rcases cgGetCtl_cases text (ans.resolve c) h.cache c with ⟨mp, hr, hwhich⟩ | ⟨hr, hc, hres⟩ |
      ⟨hr, hc⟩
    · -- resolved: `make_dir`
      have hres : resolvedPath text c = some mp := by
        rcases hwhich with h' | ⟨-, h'⟩
        · exact hs c mp h'
        · exact h'
      have hpath : cgPath text n a c = some (components (getCgroupName n a mp c)) := by
        simp [cgPath, hres]
      rw [hr] at hrun hs1 hext1
      simp only [Function.update_same, Option.getD_some] at hrun
      rw [if_neg (by decide), if_neg (by decide)] at hrun
      obtain ⟨hkeep, hmono, hview⟩ := cgCreate_spec hapart ha hwf hpath (ans.makeDir c)
      by_cases h0 : (cgCreate n (ans.makeDir c) a mp c h.fs).1 = 0
      · rw [if_neg (by simpa using h0)] at hrun
        refine next _ ⟨hs1, hext1, by simp, hkeep, fun Q hQ => ?_⟩ hkeep.wf hrun
        rw [hview Q hQ, h0]
        simp
      · rw [if_pos h0, Prod.mk.injEq, Prod.mk.injEq] at hrun
        obtain ⟨rfl, rfl, rfl⟩ := hrun
        refine ⟨0, by simp, rfl, fun h => absurd h h0, hs1, hext1, by simp, hkeep, fun Q hQ => ?_⟩
        rw [hview Q hQ]
        simp [h0]
    · -- not mounted: skipped
      rw [hr] at hrun hs1 hext1
      rw [if_neg (by simp), if_pos (by simp)] at hrun
      refine next _ ⟨hs1, hext1, by simp [hres], Fs.Keeps.refl hwf, fun Q _ => ?_⟩ hwf hrun
      simp [cgPath, hres]
    · -- `cg_get_ctl` failed
      rw [hr] at hrun hs1 hext1
      rw [if_pos rfl, Prod.mk.injEq, Prod.mk.injEq] at hrun
      obtain ⟨rfl, rfl, rfl⟩ := hrun
      exact ⟨0, by simp, rfl, by simp, hs1, hext1, by simp, Fs.Keeps.refl hwf, by simp⟩

end New

/-! ## Removing a container's directories -/

section Remove

variable {fuel : Nat} {text : List Char} {n : Names} {ids : List (List Char)} {a : List Char}
  {rm : Ctl → RmAnswers}

/-- Among the containers' directories, the one at or below `a`'s directory `P` is `P`. -/
theorem prefix_iff_of_apart (hapart : PathsApart text n ids) (ha : a ∈ ids) {c : Ctl} {P Q : Path}
    (hp : cgPath text n a c = some P) (hQ : IsCgPath text n ids Q) :
    P <+: Q ↔ cgPath text n a c = some Q := by
  constructor
  · intro h
    rw [hp, hapart.eq_of_prefix ha hp hQ (.inl h)]
  · intro h
    rw [hp, Option.some.injEq] at h
    exact h ▸ List.prefix_refl P

/-- The rollback of `cg_new_cgroup` under removals that succeed: it removes `a`'s
directory under every controller of `cs` whose mount path is set, and no other
container's. -/
theorem rollback_spec (hapart : PathsApart text n ids) (ha : a ∈ ids) (hrm : ∀ c, (rm c).Clean)
    {cache : Cache} (hs : CacheSound text cache) :
    ∀ (cs : List Ctl) (fs : Fs), fs.WF → rmTreeFuel fs ≤ fuel →
      (∀ Q, IsCgPath text n ids Q → (fs.get Q = none ∨ fs.isDir Q) ∧ fs.RootTestSound Q) →
      ∃ fs', rollback fuel n rm a cache cs fs = some fs' ∧ Fs.Keeps fs fs' ∧
        ∀ Q, IsCgPath text n ids Q →
          (fs'.isDir Q ↔ fs.isDir Q ∧ ∀ c ∈ cs, (cache c).isSome → cgPath text n a c ≠ some Q)
  | [], fs, hwf, _, _ => ⟨fs, rfl, Fs.Keeps.refl hwf, by simp⟩
  | c :: cs, fs, hwf, hfuel, hshape => by
    rcases hc : cache c with _ | mp
    · obtain ⟨fs', hrun, hkeep, hview⟩ := rollback_spec hapart ha hrm hs cs fs hwf hfuel hshape
      refine ⟨fs', by simp [rollback, cgDestroy, hc, hrun], hkeep, fun Q hQ => ?_⟩
      rw [hview Q hQ]
      simp [hc]
    · have hp := cgPath_of_cache (n := n) (a := a) hs hc
      obtain ⟨h1, h2⟩ := hshape _ (cgPath_isCgPath ha hp)
      have hk := Fs.removeTree_keeps (p := components (getCgroupName n a mp c)) hwf
      obtain ⟨fs', hrun, hkeep, hview⟩ := rollback_spec hapart ha hrm hs cs _ hk.wf
        ((rmTreeFuel_le Fs.removeTree_sublist).trans hfuel)
        fun Q hQ => ⟨hk.shape Q (hshape Q hQ).1, hk.sound Q (hshape Q hQ).2⟩
      refine ⟨fs', by simp [rollback, cgDestroy_clean (hrm c) hwf hc h2 h1 hfuel, hrun], hk.trans hkeep,
        fun Q hQ => ?_⟩
      rw [hview Q hQ, Fs.isDir_removeTree, prefix_iff_of_apart hapart ha hp hQ]
      simp [hc, and_assoc]

/-- A controller `cg_get_ctl` skips, when the cache had no path for it or the call had the
kernel's own answers, is one the table does not resolve. -/
theorem resolvedPath_of_skipped {cache : Cache} {c : Ctl} {r : ResolveAnswer}
    (hs : CacheSound text cache) (hc : cache c = none) (hr : (cgGetCtl text r cache c).1 ≠ 0)
    (hsome : (cache c).isSome ∨ r = {}) : resolvedPath text c = none := by
  rcases hsome with hsome | rfl
  · simp [hc] at hsome
  · rw [cgGetCtl_clean hs] at hr
    split at hr
    · exact absurd rfl hr
    · assumption

/-- The loop of `cg_destroy_cgroup` under removals that succeed and any answers of
`cg_get_ctl`: a container directory it leaves was there and is no directory of `a` under a
controller whose mount path was set, or whose lookup had the kernel's own answers; one
that was there and is no directory of `a` stays. -/
theorem cgDestroyLoop_cut (hapart : PathsApart text n ids) (ha : a ∈ ids) (res : Ctl → ResolveAnswer)
    (hrm : ∀ c, (rm c).Clean) :
    ∀ (cs : List Ctl) (h : Host) (ret : Nat) (log : List (Ctl × Nat)), CacheSound text h.cache →
      h.fs.WF → rmTreeFuel h.fs ≤ fuel →
      (∀ Q, IsCgPath text n ids Q → (h.fs.get Q = none ∨ h.fs.isDir Q) ∧ h.fs.RootTestSound Q) →
      ∃ r h' log', cgDestroyLoop fuel text n a res rm cs h ret log = some (r, h', log') ∧
        CacheSound text h'.cache ∧ (∀ c mp, h.cache c = some mp → h'.cache c = some mp) ∧
        Fs.Keeps h.fs h'.fs ∧
        ∀ Q, IsCgPath text n ids Q →
          (h'.fs.isDir Q → h.fs.isDir Q ∧
            ∀ c ∈ cs, ((h.cache c).isSome ∨ res c = {}) → cgPath text n a c ≠ some Q) ∧
          (h.fs.isDir Q → (∀ c ∈ cs, cgPath text n a c ≠ some Q) → h'.fs.isDir Q)
  | [], h, ret, log, hs, hwf, _, _ =>
    ⟨ret, h, log, rfl, hs, fun _ _ h => h, Fs.Keeps.refl hwf, fun _ _ => ⟨fun hd => ⟨hd, by simp⟩,
      fun hd _ => hd⟩⟩
  | c :: cs, h, ret, log, hs, hwf, hfuel, hshape => by
    have hs1 := cacheSound_cgGetCtl (a := res c) (c := c) hs
    have hext1 : ∀ c' mp, h.cache c' = some mp → (cgGetCtl text (res c) h.cache c).2 c' = some mp :=
      fun _ _ h => cgGetCtl_cache_stable h
    simp only [cgDestroyLoop]
    rcases cgGetCtl_cases text (res c) h.cache c with ⟨mp, hr, hwhich⟩ | ⟨hr, hc, -⟩ | ⟨hr, hc⟩
    · -- resolved: its directory goes
      rw [hr] at hs1 hext1 ⊢
      have hp := cgPath_of_cache (n := n) (a := a) hs1 (Function.update_same c (some mp) h.cache)
      obtain ⟨h1, h2⟩ := hshape _ (cgPath_isCgPath ha hp)
      have hk := Fs.removeTree_keeps (p := components (getCgroupName n a mp c)) hwf
      obtain ⟨r, h', log', hrun, hs', hext', hkeep, hview⟩ := cgDestroyLoop_cut hapart ha res hrm cs
        { fs := h.fs.removeTree (components (getCgroupName n a mp c)),
          cache := Function.update h.cache c (some mp) } (ret ||| 0) (log ++ [(c, 0)]) hs1 hk.wf
        ((rmTreeFuel_le Fs.removeTree_sublist).trans hfuel)
        fun Q hQ => ⟨hk.shape Q (hshape Q hQ).1, hk.sound Q (hshape Q hQ).2⟩
      refine ⟨r, h', log', ?_, hs', fun c mp h => hext' c mp (hext1 c mp h), hk.trans hkeep,
        fun Q hQ => ⟨fun hd => ?_, fun hd hne => ?_⟩⟩
      · rw [if_neg (by simp), cgDestroy_clean (hrm c) hwf (Function.update_same c (some mp) h.cache)
          h2 h1 hfuel]
        exact hrun
      · obtain ⟨hd, hout⟩ := (hview Q hQ).1 hd
        rw [Fs.isDir_removeTree, prefix_iff_of_apart hapart ha hp hQ] at hd
        refine ⟨hd.1, fun c' hc' hsome => ?_⟩
        rcases List.mem_cons.mp hc' with rfl | hc'
        · exact hd.2
        · refine hout c' hc' (hsome.imp_left fun hsome => ?_)
          obtain ⟨mp', hmp'⟩ := Option.isSome_iff_exists.mp hsome
          simpa using congrArg Option.isSome (hext1 _ _ hmp')
      · refine (hview Q hQ).2 ?_ fun c' hc' => hne c' (List.mem_cons_of_mem _ hc')
        rw [Fs.isDir_removeTree, prefix_iff_of_apart hapart ha hp hQ]
        exact ⟨hd, hne c (List.mem_cons_self _ _)⟩
    all_goals
      -- not mounted, or `cg_get_ctl` failed: skipped
      rw [hr] at hs1 hext1 ⊢
      obtain ⟨r, h', log', hrun, hs', hext', hkeep, hview⟩ :=
        cgDestroyLoop_cut hapart ha res hrm cs { h with cache := h.cache } ret log hs hwf hfuel hshape
      refine ⟨r, h', log', by simpa using hrun, hs', hext', hkeep, fun Q hQ => ⟨fun hd => ?_,
        fun hd hne => (hview Q hQ).2 hd fun c' hc' => hne c' (List.mem_cons_of_mem _ hc')⟩⟩
      obtain ⟨hd, hout⟩ := (hview Q hQ).1 hd
      refine ⟨hd, fun c' hc' hsome => ?_⟩
      rcases List.mem_cons.mp hc' with rfl | hc'
      · simp [cgPath, resolvedPath_of_skipped hs hc (by simp [hr]) hsome]
      · exact hout c' hc' hsome

end Remove

/-! ## Runs -/

/-- One call of a run: `cg_new_cgroup` or `cg_destroy_cgroup` of a container, with the
answers of its system calls, or the end of the process and the start of a new one. -/
inductive Op where
  | new (ctid : List Char) (ans : NewAnswers)
  | destroy (ctid : List Char) (res : Ctl → ResolveAnswer) (rm : Ctl → RmAnswers)
  | restart

namespace Op

/-- The call is about a container of `ids` and its removals succeed. -/
def Fits (ids : List (List Char)) : Op → Prop
  | new a ans => a ∈ ids ∧ ∀ c, (ans.rm c).Clean
  | destroy a _ rm => a ∈ ids ∧ ∀ c, (rm c).Clean
  | restart => True

/-- A `cg_destroy_cgroup` whose lookups have the kernel's own answers, or another call. -/
def Resolves : Op → Prop
  | destroy _ res _ => ∀ c, res c = {}
  | _ => True

/-- The call starts a new process. -/
def isRestart : Op → Bool
  | restart => true
  | _ => false

/-- The host after the call, every `rm_tree` of it on `fuel`; `none` when the call does not
return. A new process finds the filesystem as the last one left it, and every mount path
unset. -/
def run (fuel : Nat) (text : List Char) (n : Names) : Op → Host → Option Host
  | new a ans, h => (cgNewCgroup fuel text n a ans h).map (·.2)
  | destroy a res rm, h => (cgDestroyCgroup fuel text n a res rm h).map (·.2.1)
  | restart, h => some { h with cache := Cache.empty }

end Op

/-- The host after a run of calls from `h`. -/
def runOps (fuel : Nat) (text : List Char) (n : Names) : List Op → Host → Option Host
  | [], h => some h
  | op :: ops, h => (op.run fuel text n h).bind (runOps fuel text n ops)

/-- Every `cg_destroy_cgroup` of the run that comes after a restart (`restarted`: one has
come already) has its lookups answered by the kernel. -/
def ResolvedAfterRestart : Bool → List Op → Prop
  | _, [] => True
  | restarted, op :: ops =>
    (restarted = true → op.Resolves) ∧ ResolvedAfterRestart (restarted || op.isRestart) ops

section Fuel

variable {fuel fuel' : Nat} {text : List Char} {n : Names}

theorem Op.run_mono {op : Op} {h h' : Host} (hr : op.run fuel text n h = some h')
    (hle : fuel ≤ fuel') : op.run fuel' text n h = some h' := by
  cases op with
  | new a ans =>
    obtain ⟨x, hx, rfl⟩ := Option.map_eq_some'.mp hr
    simp [Op.run, cgNewCgroup_mono hx hle]
  | destroy a res rm =>
    obtain ⟨x, hx, rfl⟩ := Option.map_eq_some'.mp hr
    simp [Op.run, cgDestroyCgroup_mono hx hle]
  | restart => exact hr

/-- A run that returns on some fuel returns the same host on more. -/
theorem runOps_mono : ∀ {ops : List Op} {h h' : Host}, runOps fuel text n ops h = some h' →
    fuel ≤ fuel' → runOps fuel' text n ops h = some h'
  | [], _, _, hr, _ => hr
  | op :: ops, h, h', hr, hle => by
    obtain ⟨h1, h1r, hrest⟩ := Option.bind_eq_some.mp hr
    simp [runOps, Op.run_mono h1r hle, runOps_mono hrest hle]

end Fuel

/-- What every reachable state keeps for the containers `ids`: a sound cache, a filesystem
`rm_tree` can be trusted on, and a cut position in the table for each container; and, as
long as the run has not restarted the process, a cached mount path for some controller of
every container directory there is. -/
structure HierInv (text : List Char) (n : Names) (ids : List (List Char)) (restarted : Bool)
    (h : Host) : Prop where
  cache : CacheSound text h.cache
  wf : h.fs.WF
  shape : ∀ Q, IsCgPath text n ids Q → (h.fs.get Q = none ∨ h.fs.isDir Q) ∧ h.fs.RootTestSound Q
  owned : restarted = false → ∀ a ∈ ids, ∀ c Q, cgPath text n a c = some Q → h.fs.isDir Q →
    ∃ c', cgPath text n a c' = some Q ∧ (h.cache c').isSome
  cut : ∀ a ∈ ids, ∃ k, ∀ c Q, cgPath text n a c = some Q →
    (h.fs.isDir Q ↔ ∀ c' ∈ cgCtlMap.take k, cgPath text n a c' ≠ some Q)

theorem forall_mem_take_max {α : Type} {l : List α} {P : α → Prop} {k j : Nat} :
    (∀ x ∈ l.take (max k j), P x) ↔ (∀ x ∈ l.take k, P x) ∧ ∀ x ∈ l.take j, P x := by
  rcases le_total k j with hkj | hjk
  · rw [max_eq_right hkj]
    exact ⟨fun h => ⟨fun x hx => h x ((List.take_prefix_take_left l hkj).subset hx), h⟩, And.right⟩
  · rw [max_eq_left hjk]
    exact ⟨fun h => ⟨h, fun x hx => h x ((List.take_prefix_take_left l hjk).subset hx)⟩, And.left⟩

section Steps

variable {text : List Char} {n : Names} {ids : List (List Char)} {a : List Char} {h : Host}
  {restarted : Bool}

theorem HierInv.start {fs : Fs} (hwf : fs.WF)
    (hnone : ∀ a ∈ ids, ∀ c ∈ cgCtlMap, ∀ Q ∈ cgPath text n a c, fs.get Q = none) :
    HierInv text n ids false ⟨fs, Cache.empty⟩ := by
  have hnone' : ∀ Q, IsCgPath text n ids Q → fs.get Q = none := fun Q ⟨b, hb, c, hc, hQ⟩ =>
    hnone b hb c hc Q hQ
  have hnot : ∀ Q, IsCgPath text n ids Q → fs.isDir Q = false := fun Q hQ => by
    cases hd : fs.isDir Q
    · rfl
    · obtain ⟨d, i, hg⟩ := Fs.get_of_isDir hwf hd
      rw [hnone' Q hQ] at hg
      cases hg
  refine ⟨(fun _ _ h => by cases h), hwf, fun Q hQ => ⟨.inl (hnone' Q hQ), fun nd hnd => ?_⟩,
    fun _ a ha c Q hQ hd => ?_, fun a ha => ⟨cgCtlMap.length, fun c Q hQ => ?_⟩⟩
  · simp [hnone' Q hQ] at hnd
  · simp [hnot Q (cgPath_isCgPath ha hQ)] at hd
  · rw [hnot Q (cgPath_isCgPath ha hQ), List.take_length]
    simpa using ⟨c, mem_cgCtlMap c, hQ⟩

/-- `cg_new_cgroup` of a container of the run, with removals that succeed, keeps the
invariant: on success the container's cut goes to `0`, on a failure at position `j` to
`max k j`, and every other container is left as it was. -/
theorem HierInv.cgNewCgroup (hinv : HierInv text n ids restarted h) (hapart : PathsApart text n ids)
    (ha : a ∈ ids) {ans : NewAnswers} (hrm : ∀ c, (ans.rm c).Clean) :
    ∃ fuel r h', cgNewCgroup fuel text n a ans h = some (r, h') ∧ HierInv text n ids restarted h' := by
  rcases hl : cgNewLoop text n a ans 0 cgCtlMap h with ⟨ret, k, h1⟩
  obtain ⟨j, hj, hk, hret, hs1, hext1, hcached, hkeep1, hview1⟩ :=
    cgNewLoop_spec hapart ha ans cgCtlMap 0 h ret k h1 hinv.cache hinv.wf hl
  rw [Nat.zero_add] at hk
  subst hk
  -- the loop stopped at position `j`
  have hshape1 : ∀ Q, IsCgPath text n ids Q → (h1.fs.get Q = none ∨ h1.fs.isDir Q) ∧ h1.fs.RootTestSound Q :=
    fun Q hQ => ⟨hkeep1.shape Q (hinv.shape Q hQ).1, hkeep1.sound Q (hinv.shape Q hQ).2⟩
  -- another container's directory is none of `a`'s
  have hne : ∀ b ∈ ids, b ≠ a → ∀ c Q, cgPath text n b c = some Q → ∀ c', cgPath text n a c' ≠ some Q :=
    fun b hb hab c Q hQ c' => hapart.ne_of_ne ha hb (Ne.symm hab) hQ c'
  have hcached' : ∀ c ∈ cgCtlMap.take k, ∀ Q, cgPath text n a c = some Q → (h1.cache c).isSome :=
    fun c hc Q hQ => hcached c hc (by simp [cgPath] at hQ; obtain ⟨mp, hmp, -⟩ := hQ; simp [hmp])
  -- a directory that was there stays owned: the loop only adds to the cache
  have hold : restarted = false → ∀ b ∈ ids, ∀ c Q, cgPath text n b c = some Q → h.fs.isDir Q →
      ∃ c', cgPath text n b c' = some Q ∧ (h1.cache c').isSome := fun hr b hb c Q hQ hd => by
    obtain ⟨c', hc', hcache⟩ := hinv.owned hr b hb c Q hQ hd
    obtain ⟨mp, hmp⟩ := Option.isSome_iff_exists.mp hcache
    exact ⟨c', hc', by simp [hext1 _ _ hmp]⟩
  by_cases h0 : ret = 0
  · -- success: every directory of `a` is there
    subst h0
    have hj' : k = cgCtlMap.length := hret rfl
    subst hj'
    rw [List.take_length] at hcached' hview1
    refine ⟨0, 0, h1, by simp [VzCgroup.cgNewCgroup, hl], hs1, hkeep1.wf, hshape1, ?_, ?_⟩
    · intro hr b hb c Q hQ hd
      by_cases hab : b = a
      · subst hab
        exact ⟨c, hQ, hcached' c (mem_cgCtlMap c) Q hQ⟩
      · exact hold hr b hb c Q hQ (((hview1 Q (cgPath_isCgPath hb hQ)).1 hd).resolve_right
          fun ⟨c', _, hc'⟩ => hne b hb hab c Q hQ c' hc')
    · intro b hb
      by_cases hab : b = a
      · subst hab
        refine ⟨0, fun c Q hQ => ⟨fun _ => by simp, fun _ => ?_⟩⟩
        exact (hview1 Q (cgPath_isCgPath hb hQ)).2 (.inr ⟨c, mem_cgCtlMap c, hQ⟩)
      · obtain ⟨k, hk⟩ := hinv.cut b hb
        refine ⟨k, fun c Q hQ => ?_⟩
        rw [← hk c Q hQ, hview1 Q (cgPath_isCgPath hb hQ)]
        exact or_iff_left fun ⟨c', _, hc'⟩ => hne b hb hab c Q hQ c' hc'
  · -- failure at position `j`: the rollback
    obtain ⟨fs2, hrb, hkeep2, hview2⟩ := rollback_spec hapart ha hrm hs1
      (cgCtlMap.take k).reverse h1.fs hkeep1.wf (le_refl (rmTreeFuel h1.fs)) hshape1
    -- among the containers' directories, what the call leaves
    have hview : ∀ Q, IsCgPath text n ids Q →
        (fs2.isDir Q ↔ h.fs.isDir Q ∧ ∀ c ∈ cgCtlMap.take k, cgPath text n a c ≠ some Q) := by
      intro Q hQ
      rw [hview2 Q hQ, hview1 Q hQ]
      simp only [List.mem_reverse]
      constructor
      · rintro ⟨hd | ⟨c, hc, hcQ⟩, hout⟩
        · exact ⟨hd, fun c hc hcQ => hout c hc (hcached' c hc Q hcQ) hcQ⟩
        · exact absurd hcQ (hout c hc (hcached' c hc Q hcQ))
      · rintro ⟨hd, hout⟩
        exact ⟨.inl hd, fun c hc _ => hout c hc⟩
    refine ⟨rmTreeFuel h1.fs, ret, { h1 with fs := fs2 }, by simp [VzCgroup.cgNewCgroup, hl, h0, hrb],
      hs1, hkeep2.wf, fun Q hQ => ⟨hkeep2.shape Q (hshape1 Q hQ).1, hkeep2.sound Q (hshape1 Q hQ).2⟩,
      fun hr b hb c Q hQ hd => hold hr b hb c Q hQ ((hview Q (cgPath_isCgPath hb hQ)).1 hd).1, ?_⟩
    intro b hb
    obtain ⟨k0, hk0⟩ := hinv.cut b hb
    by_cases hab : b = a
    · subst hab
      refine ⟨max k0 k, fun c Q hQ => ?_⟩
      rw [hview Q (cgPath_isCgPath hb hQ), hk0 c Q hQ, forall_mem_take_max]
    · refine ⟨k0, fun c Q hQ => ?_⟩
      rw [hview Q (cgPath_isCgPath hb hQ), ← hk0 c Q hQ]
      exact and_iff_left fun c' _ => hne b hb hab c Q hQ c'

/-- `cg_destroy_cgroup` of a container of the run, with removals that succeed, keeps the
invariant: the container's cut goes to `13` (none), and every other container is left as
it was. Its `cg_get_ctl`s may fail in the process that made the directories; after a
restart they have the kernel's own answers. -/
theorem HierInv.cgDestroyCgroup (hinv : HierInv text n ids restarted h) (hapart : PathsApart text n ids)
    (ha : a ∈ ids) (res : Ctl → ResolveAnswer) {rm : Ctl → RmAnswers} (hrm : ∀ c, (rm c).Clean)
    (hres : restarted = true → ∀ c, res c = {}) :
    ∃ fuel r h' log, cgDestroyCgroup fuel text n a res rm h = some (r, h', log) ∧
      HierInv text n ids restarted h' := by
  obtain ⟨r, h', log, hrun, hs', hext', hkeep, hview⟩ := cgDestroyLoop_cut
    hapart ha res hrm cgCtlMap h 0 [] hinv.cache hinv.wf (le_refl (rmTreeFuel h.fs)) hinv.shape
  have hne : ∀ b ∈ ids, b ≠ a → ∀ c Q, cgPath text n b c = some Q → ∀ c', cgPath text n a c' ≠ some Q :=
    fun b hb hab c Q hQ c' => hapart.ne_of_ne ha hb (Ne.symm hab) hQ c'
  -- no directory of `a` is left: each had a controller whose mount path was set, or whose
  -- lookup had the kernel's answers
  have hgone : ∀ c Q, cgPath text n a c = some Q → h'.fs.isDir Q = false := by
    intro c Q hQ
    cases hd : h'.fs.isDir Q
    · rfl
    · obtain ⟨hd0, hout⟩ := (hview Q (cgPath_isCgPath ha hQ)).1 hd
      cases restarted
      · obtain ⟨c', hc', hcache⟩ := hinv.owned rfl a ha c Q hQ hd0
        exact absurd hc' (hout c' (mem_cgCtlMap c') (.inl hcache))
      · exact absurd hQ (hout c (mem_cgCtlMap c) (.inr (hres rfl c)))
  have hsame : ∀ b ∈ ids, b ≠ a → ∀ c Q, cgPath text n b c = some Q → (h'.fs.isDir Q ↔ h.fs.isDir Q) :=
    fun b hb hab c Q hQ => ⟨fun hd => ((hview Q (cgPath_isCgPath hb hQ)).1 hd).1,
      fun hd => (hview Q (cgPath_isCgPath hb hQ)).2 hd fun c' _ => hne b hb hab c Q hQ c'⟩
  refine ⟨_, r, h', log, hrun, hs', hkeep.wf,
    fun Q hQ => ⟨hkeep.shape Q (hinv.shape Q hQ).1, hkeep.sound Q (hinv.shape Q hQ).2⟩, ?_, ?_⟩
  · intro hr b hb c Q hQ hd
    by_cases hab : b = a
    · subst hab
      simp [hgone c Q hQ] at hd
    · obtain ⟨c', hc', hcache⟩ := hinv.owned hr b hb c Q hQ ((hsame b hb hab c Q hQ).1 hd)
      obtain ⟨mp, hmp⟩ := Option.isSome_iff_exists.mp hcache
      exact ⟨c', hc', by simp [hext' _ _ hmp]⟩
  · intro b hb
    by_cases hab : b = a
    · subst hab
      refine ⟨cgCtlMap.length, fun c Q hQ => ?_⟩
      rw [hgone c Q hQ, List.take_length]
      simpa using ⟨c, mem_cgCtlMap c, hQ⟩
    · obtain ⟨k, hk⟩ := hinv.cut b hb
      exact ⟨k, fun c Q hQ => by rw [hsame b hb hab c Q hQ, hk c Q hQ]⟩

/-- A restart unsets every mount path and keeps the filesystem: the cuts stay, and the
cache is trivially sound. -/
theorem HierInv.restart (hinv : HierInv text n ids restarted h) :
    HierInv text n ids true { h with cache := Cache.empty } :=
  ⟨(fun _ _ h => by cases h), hinv.wf, hinv.shape, (fun h => by cases h), hinv.cut⟩

/-- One call keeps the invariant; the flag goes up at a restart. -/
theorem HierInv.opRun (hinv : HierInv text n ids restarted h) (hapart : PathsApart text n ids)
    {op : Op} (hop : op.Fits ids) (hres : restarted = true → op.Resolves) :
    ∃ fuel h', op.run fuel text n h = some h' ∧ HierInv text n ids (restarted || op.isRestart) h' := by
  cases op with
  | new a ans =>
    obtain ⟨fuel, r, h', hrun, hinv'⟩ := hinv.cgNewCgroup hapart hop.1 hop.2
    exact ⟨fuel, h', by simp [Op.run, hrun], by simpa [Op.isRestart] using hinv'⟩
  | destroy a res rm =>
    obtain ⟨fuel, r, h', log, hrun, hinv'⟩ := hinv.cgDestroyCgroup hapart hop.1 res hop.2 hres
    exact ⟨fuel, h', by simp [Op.run, hrun], by simpa [Op.isRestart] using hinv'⟩
  | restart => exact ⟨0, _, rfl, by simpa [Op.isRestart] using hinv.restart⟩

theorem HierInv.runOps (hapart : PathsApart text n ids) :
    ∀ (ops : List Op) (restarted : Bool) (h : Host), HierInv text n ids restarted h →
      (∀ op ∈ ops, op.Fits ids) → ResolvedAfterRestart restarted ops →
      ∃ fuel h', runOps fuel text n ops h = some h' ∧ ∃ r, HierInv text n ids r h'
  | [], restarted, h, hinv, _, _ => ⟨0, h, rfl, restarted, hinv⟩
  | op :: ops, restarted, h, hinv, hops, ⟨hres, hrest⟩ => by
    obtain ⟨fuel1, h1, hrun1, hinv1⟩ := hinv.opRun hapart (hops op (List.mem_cons_self _ _)) hres
    obtain ⟨fuel2, h', hrun2, hinv'⟩ := HierInv.runOps hapart ops _ h1 hinv1
      (fun op' hop' => hops op' (List.mem_cons_of_mem op hop')) hrest
    refine ⟨max fuel1 fuel2, h', ?_, hinv'⟩
    simp [VzCgroup.runOps, Op.run_mono hrun1 (le_max_left _ _), runOps_mono hrun2 (le_max_right _ _)]

end Steps

/-! ## The cut -/

/-- Every run of `cg_new_cgroup` and `cg_destroy_cgroup` on containers whose directories
lie apart, from a filesystem with nothing at their directories and a first process with
an empty cache, over any number of processes, under any failures of `make_dir` and of
`cg_get_ctl` (after the first restart, `cg_destroy_cgroup`'s lookups succeed) and with
removals that succeed, returns, and every state it returns leaves each container with a
cut position `k`: it has its directory under a resolved controller exactly when no
controller before `k` shares that directory. -/
theorem runOps_cut {text : List Char} {n : Names} {ids : List (List Char)} {fs : Fs}
    (hwf : fs.WF) (hnone : ∀ a ∈ ids, ∀ c ∈ cgCtlMap, ∀ Q ∈ cgPath text n a c, fs.get Q = none)
    (hapart : PathsApart text n ids) (ops : List Op) (hops : ∀ op ∈ ops, op.Fits ids)
    (hres : ResolvedAfterRestart false ops) :
    (∃ fuel, (runOps fuel text n ops ⟨fs, Cache.empty⟩).isSome) ∧
      ∀ fuel h, runOps fuel text n ops ⟨fs, Cache.empty⟩ = some h →
        ∀ a ∈ ids, ∃ k, ∀ c Q, cgPath text n a c = some Q →
          (h.fs.isDir Q ↔ ∀ c' ∈ cgCtlMap.take k, cgPath text n a c' ≠ some Q) := by
  obtain ⟨fuel0, h0, hrun0, r, hinv⟩ :=
    HierInv.runOps hapart ops false _ (HierInv.start hwf hnone) hops hres
  refine ⟨⟨fuel0, by simp [hrun0]⟩, fun fuel h hrun => ?_⟩
  -- the run returns one host, whatever the fuel
  have hh : h = h0 := by
    have h1 := runOps_mono hrun (le_max_left fuel fuel0)
    rw [runOps_mono hrun0 (le_max_right fuel fuel0)] at h1
    exact (Option.some.inj h1).symm
  exact hh ▸ hinv.cut

/-- `cpu` and `cpuset`, each mounted on its own. -/
def twoMounts : List Char :=
  "cgroup /c/cpu cgroup rw,cpu 0 0\ncgroup /c/cpuset cgroup rw,cpuset 0 0\n".toList

/-- The two mount points, with no container directory yet. -/
def mountsFs : Fs :=
  ⟨[([], .dir 0 1), (["c".toList], .dir 0 2), (["c".toList, "cpu".toList], .dir 1 1),
    (["c".toList, "cpuset".toList], .dir 2 1)]⟩

/-- Container `a` created, then created again with `make_dir` failing under `cpuset`. -/
def recreateRun : List Op :=
  [.new "a".toList {}, .new "a".toList { makeDir := fun c => if c = .cpuset then some 0 else none }]

/-- The same, then `a` destroyed by a new process. -/
def restartRun : List Op :=
  recreateRun ++ [.restart, .destroy "a".toList (fun _ => {}) (fun _ => {})]

theorem runOps_cut_restartRun :
    (∃ fuel, (runOps fuel twoMounts ⟨cgGetSliceName none, [], []⟩ restartRun
        ⟨mountsFs, Cache.empty⟩).isSome) ∧
      ∀ fuel h, runOps fuel twoMounts ⟨cgGetSliceName none, [], []⟩ restartRun ⟨mountsFs, Cache.empty⟩ =
          some h →
        ∀ a ∈ ["a".toList], ∃ k, ∀ c Q, cgPath twoMounts ⟨cgGetSliceName none, [], []⟩ a c = some Q →
          (h.fs.isDir Q ↔
            ∀ c' ∈ cgCtlMap.take k, cgPath twoMounts ⟨cgGetSliceName none, [], []⟩ a c' ≠ some Q) :=
  runOps_cut (by decide) (by decide) (by decide) restartRun
    (by simp [restartRun, recreateRun, Op.Fits, RmAnswers.clean_default])
    (by simp [ResolvedAfterRestart, restartRun, recreateRun, Op.Resolves, Op.isRestart])

/-- `a` created; then, in a new process, destroyed while `/proc/mounts` cannot be opened
for the lookup of `cpu`. -/
def lostLookupRun : List Op :=
  [.new "a".toList {}, .restart,
    .destroy "a".toList (fun c => if c = .cpu then { mountsOpen := false } else {}) (fun _ => {})]

/-- In `recreateRun` the second `cg_new_cgroup` fails at `cpuset` and its rollback removes
the `cpu` directory the first call created: `a` is left with its `cpuset` directory only.
In `lostLookupRun` the new process's `cg_destroy_cgroup` skips `cpu`, whose lookup fails,
and removes the `cpuset` directory: `a` is left with its `cpu` directory only, and no
position of the table cuts that. -/
theorem recreate_leaves_part_of_hierarchy :
    (runOps 100 twoMounts ⟨cgGetSliceName none, [], []⟩ recreateRun ⟨mountsFs, Cache.empty⟩).map
        (fun h => (h.fs.isDir (components "/c/cpu/machine.slice/a".toList),
          h.fs.isDir (components "/c/cpuset/machine.slice/a".toList))) = some (false, true) ∧
      (runOps 100 twoMounts ⟨cgGetSliceName none, [], []⟩ lostLookupRun ⟨mountsFs, Cache.empty⟩).map
        (fun h => (h.fs.isDir (components "/c/cpu/machine.slice/a".toList),
          h.fs.isDir (components "/c/cpuset/machine.slice/a".toList))) = some (true, false) := by
  decide

end VzCgroup
