import VzCgroup.BindMount.Symlink

/-!
# VzCgroup — what `bindmount_env_cgroup` mounts when nothing fails

The controller loop of `cg_bindmount_cgroup` takes a controller up when it is shared and the
controller list read from `/proc/cgroups` names it (systemd always), and mounts for it only
when its mount point is not in `head` yet. `head` starts empty, so what the loop mounts for
are the first controllers taken up of each mount point, in table order: `mountTargets`,
stated from that reading. `firstOfEach` is the loop's own choice, with `head` as the mount
points seen; `firstOfEach_eq_filter` is the bridge between the two.

With no call failing, `bindLoop_clean` gives the mounts of the loop one controller at a
time, as a `MountExt` chain, and `bindmountEnvCgroup_clean` those of the whole call.
-/

namespace VzCgroup

/-! ## The controllers mounted for -/

/-- Whether the controller loop takes `c` up: it is shared, and the controller list read from
`/proc/cgroups` names it or it is systemd. -/
def takenUp (cgroups : List (List Char)) (c : Ctl) : Bool :=
  !c.isPrvt && (cgIsSystemd c.subsys || cgroups.contains c.subsys)

/-- The mount point the table resolves `c` to (`[]` when there is none). -/
def mountOf (text : List Char) (c : Ctl) : List Char :=
  (resolvedPath text c).getD []

/-- The controllers whose directories are to be mounted: of those taken up, the first in
table order of each mount point. -/
def mountTargets (text : List Char) (cgroups : List (List Char)) : List Ctl :=
  let up := cgCtlMap.filter (takenUp cgroups)
  up.filter fun c => up.find? (fun c' => mountOf text c' = mountOf text c) = some c

/-- The two mounts made for a controller: the slave remount of its mount point, and the bind
mount of the container's directory over `<root>` + mount point, `MS_PRIVATE` except for
systemd. -/
def mountCalls (e : BindEnv) (text : List Char) (c : Ctl) : List SysCall :=
  [.mount none (some (mountOf text c)) none msSlave,
    .mount (some (getCgroupName e.names e.ctid (mountOf text c) c))
      (some (snprintfStr pathMax (e.root ++ mountOf text c))) none
      (if cgIsSystemd c.subsys then msBind else msBind ||| msPrivate)]

/-- The loop's choice among `cs`, with the mount points `seen` already in `head`: each
controller whose mount point is not seen yet, which it then is. -/
def firstOfEach (k : Ctl → List Char) : List Ctl → List (List Char) → List Ctl
  | [], _ => []
  | c :: cs, seen =>
    if k c ∈ seen then firstOfEach k cs seen else c :: firstOfEach k cs (seen ++ [k c])

section FirstOfEach

variable {k : Ctl → List Char}

/-- On a list without repetitions, the loop's choice is the spec's: the elements whose key
is not seen and that are the first of the list with their key. -/
theorem firstOfEach_eq_filter :
    ∀ {l : List Ctl} (seen : List (List Char)), l.Nodup →
      firstOfEach k l seen = l.filter fun c => k c ∉ seen ∧ l.find? (fun c' => k c' = k c) = some c
  | [], _, _ => rfl
  | c :: cs, seen, hnd => by
    obtain ⟨hc, hnd⟩ := List.nodup_cons.mp hnd
    have hfind : ∀ x ∈ cs, (c :: cs).find? (fun c' => k c' = k x) = some x ↔
        k c ≠ k x ∧ cs.find? (fun c' => k c' = k x) = some x := fun x hx => by
      by_cases hk : k c = k x
      · simp [List.find?_cons, hk, (ne_of_mem_of_not_mem hx hc).symm]
      · simp [List.find?_cons, hk]
    rw [firstOfEach, List.filter_cons]
    by_cases hs : k c ∈ seen
    · rw [if_pos hs, if_neg (by simp [hs]), firstOfEach_eq_filter seen hnd]
      refine List.filter_congr fun x hx => ?_
      simp only [hfind x hx]
      by_cases hk : k c = k x <;> simp_all
    · rw [if_neg hs, if_pos (by simp [hs, List.find?_cons]), firstOfEach_eq_filter _ hnd]
      refine congrArg _ (List.filter_congr fun x hx => ?_)
      simp only [hfind x hx, List.mem_append, List.mem_singleton]
      by_cases hk : k c = k x <;> simp_all [eq_comm]

end FirstOfEach

/-- No mount point is mounted twice. -/
theorem mountTargets_nodup (text : List Char) (cgroups : List (List Char)) :
    ((mountTargets text cgroups).map (mountOf text)).Nodup := by
  refine List.Nodup.map_on (fun x hx y hy hxy => ?_) ((cgCtlMap_nodup.filter _).filter _)
  simp only [mountTargets, List.mem_filter, decide_eq_true_eq] at hx hy
  rw [← Option.some_inj, ← hx.2, ← hy.2, hxy]

/-- Every mount point of a controller taken up is mounted. -/
theorem mem_mountTargets {text : List Char} {cgroups : List (List Char)} {m : List Char} :
    m ∈ (mountTargets text cgroups).map (mountOf text) ↔
      m ∈ (cgCtlMap.filter (takenUp cgroups)).map (mountOf text) := by
  refine ⟨fun h => ?_, fun h => ?_⟩
  · obtain ⟨c, hc, rfl⟩ := List.mem_map.mp h
    exact List.mem_map_of_mem _ (List.mem_of_mem_filter hc)
  · obtain ⟨c, hc, rfl⟩ := List.mem_map.mp h
    obtain ⟨c', hc'⟩ := Option.isSome_iff_exists.mp
      (List.find?_isSome.mpr ⟨c, hc, by simp⟩ :
        ((cgCtlMap.filter (takenUp cgroups)).find? fun c' => mountOf text c' = mountOf text c).isSome)
    have hk : mountOf text c' = mountOf text c := by simpa using List.find?_some hc'
    refine List.mem_map.mpr ⟨c', ?_, hk⟩
    simp only [mountTargets, List.mem_filter, decide_eq_true_eq, hk]
    exact ⟨List.mem_filter.mp (List.mem_of_find?_eq_some hc'), hc'⟩

/-! ## Runs of calls and their mounts -/

/-- Whether a call is a `mount`. -/
def SysCall.isMount : SysCall → Bool
  | .mount .. => true
  | _ => false

/-- `log'` is `log` followed by calls whose `mount`s are `ms`, in order. -/
def MountExt (log log' : List Event) (ms : List SysCall) : Prop :=
  ∃ evs, log' = log ++ evs ∧ (evs.map Prod.fst).filter SysCall.isMount = ms

theorem MountExt.refl (log : List Event) : MountExt log log [] :=
  ⟨[], by simp, rfl⟩

theorem MountExt.trans {l₁ l₂ l₃ : List Event} {m₁ m₂ : List SysCall} (h : MountExt l₁ l₂ m₁)
    (h' : MountExt l₂ l₃ m₂) : MountExt l₁ l₃ (m₁ ++ m₂) := by
  obtain ⟨e₁, rfl, f₁⟩ := h
  obtain ⟨e₂, rfl, f₂⟩ := h'
  exact ⟨e₁ ++ e₂, by simp, by simp [List.filter_append, f₁, f₂]⟩

theorem mountExt_call (a : BindAnswers) (log : List Event) (c : SysCall) :
    MountExt log (a.call log c).2 (if c.isMount then [c] else []) :=
  ⟨_, rfl, by cases h : c.isMount <;> simp [List.filter_cons, h]⟩

/-- Answers under which no call of `bindmount_env_cgroup` fails: every system call succeeds,
`/proc/cgroups` opens, every `add_str_param` gets its memory, and every `cg_get_ctl` its
`fopen` and `xstrdup`. -/
structure BindAnswers.Clean (a : BindAnswers) : Prop where
  err : ∀ n c, a.err n c = none
  cgroupsOpen : a.cgroupsOpen = true
  cgroupsAlloc : ∀ k, a.cgroupsAlloc k = true
  headAlloc : ∀ k, a.headAlloc k = true
  resolve : ∀ c, a.resolve c = {}

/-! ## The helpers, with nothing failing -/

section Clean

variable {a : BindAnswers} (ha : a.Clean)
include ha

theorem ensureDir_clean (log : List Event) (p : List Char) :
    ∃ log', ensureDir a log p = (true, log') ∧ MountExt log log' [] := by
  unfold ensureDir
  split
  · exact ⟨log, rfl, .refl log⟩
  · exact ⟨(a.call log (.makeDir p)).2, by simp [ha.err], by
      simpa [ha.err] using mountExt_call a log (.makeDir p)⟩

theorem doBindmount_clean (src dst : List Char) (flags : Nat) (log : List Event) :
    ∃ log', doBindmount a src dst flags log = (0, log') ∧
      MountExt log log' [.mount (some src) (some dst) none flags] := by
  obtain ⟨l₁, h₁, e₁⟩ := ensureDir_clean ha log dst
  obtain ⟨l₂, h₂, e₂⟩ := ensureDir_clean ha l₁ src
  have e₃ := mountExt_call a l₂ (.mount (some src) (some dst) none flags)
  exact ⟨(a.call l₂ (.mount (some src) (some dst) none flags)).2, by simp [doBindmount, h₁, h₂, ha.err],
    by simpa [SysCall.isMount] using (e₁.trans e₂).trans e₃⟩

theorem createPerctlSymlink_clean (strSize : Nat) (root path : List Char) (log : List Event) :
    ∃ log', createPerctlSymlink a strSize root path log = (0, log') ∧ MountExt log log' [] := by
  rw [createPerctlSymlink_eq]
  dsimp only
  split_ifs
  · obtain ⟨evs, h, hc⟩ := @linkAll_ok a root path (snprintfStr strSize (lastComponent path))
      (fun i o p => by simp [linkFails, ha.err]) ((snprintfStr strSize (lastComponent path)).splitOn ',')
      log
    refine ⟨_, h, evs, rfl, List.filter_eq_nil_iff.mpr fun c hc' => ?_⟩
    simp only [hc, List.mem_flatMap, linkCalls, List.mem_cons, List.mem_singleton,
      List.not_mem_nil, or_false] at hc'
    obtain ⟨_, -, rfl | rfl⟩ := hc'
    all_goals simp [SysCall.isMount]
  · exact ⟨log, rfl, .refl log⟩

/-- The turn for a mount point not in `head`: `0`, the mount point appended to `head`, and
the slave remount and the bind mount. -/
theorem bindMountPath_clean (e : BindEnv) (c : Ctl) (mnt : List Char) (head : List (List Char))
    (log : List Event) :
    ∃ log', bindMountPath e a c mnt head log = (0, head ++ [mnt], log') ∧
      MountExt log log' [.mount none (some mnt) none msSlave,
        .mount (some (getCgroupName e.names e.ctid mnt c)) (some (snprintfStr pathMax (e.root ++ mnt)))
          none (if cgIsSystemd c.subsys then msBind else msBind ||| msPrivate)] := by
  have e₁ := mountExt_call a log (.mount none (some mnt) none msSlave)
  obtain ⟨l₂, h₂, e₂⟩ := doBindmount_clean ha (getCgroupName e.names e.ctid mnt c)
    (snprintfStr pathMax (e.root ++ mnt)) (if cgIsSystemd c.subsys then msBind else msBind ||| msPrivate)
    (a.call log (.mount none (some mnt) none msSlave)).2
  obtain ⟨l₃, h₃, e₃⟩ := createPerctlSymlink_clean ha e.strSize e.root mnt l₂
  refine ⟨l₃, ?_, by simpa [SysCall.isMount] using (e₁.trans e₂).trans e₃⟩
  simp only [bindMountPath, BindAnswers.call_fst, ha.err, ha.headAlloc, Option.isSome_none,
    Bool.not_true, Bool.false_eq_true, if_false, h₂, ne_eq, not_true_eq_false, h₃]

theorem getCgroupsLoop_clean : ∀ bufs acc, (getCgroupsLoop a bufs acc).1 = 0
  | [], _ => rfl
  | buf :: bufs, acc => by
    unfold getCgroupsLoop
    split
    · exact getCgroupsLoop_clean bufs acc
    · split_ifs
      · exact getCgroupsLoop_clean bufs acc
      · exact getCgroupsLoop_clean bufs _
      · simp_all [ha.cgroupsAlloc]

/-- The first steps: the `sysfs` and the `tmpfs`, and the controller list. -/
theorem bindSkeleton_clean (e : BindEnv) (procCgroups : List Char) :
    ∃ log, bindSkeleton e procCgroups a = (0, (getCgroups a e.strSize procCgroups).2, log) ∧
      MountExt [] log
        [.mount none (some (snprintfStr pathMax (e.root ++ "/sys".toList))) (some "sysfs".toList) 0,
          .mount none (some (snprintfStr pathMax (e.root ++ "/sys/fs/cgroup".toList)))
            (some "tmpfs".toList) 0] := by
  obtain ⟨l₁, h₁, e₁⟩ := ensureDir_clean ha [] (snprintfStr pathMax (e.root ++ "/sys".toList))
  have e₂ := mountExt_call a l₁
    (.mount none (some (snprintfStr pathMax (e.root ++ "/sys".toList))) (some "sysfs".toList) 0)
  obtain ⟨l₃, h₃, e₃⟩ := ensureDir_clean ha (a.call l₁ (.mount none
    (some (snprintfStr pathMax (e.root ++ "/sys".toList))) (some "sysfs".toList) 0)).2
    (snprintfStr pathMax (e.root ++ "/sys/fs/cgroup".toList))
  have e₄ := mountExt_call a l₃
    (.mount none (some (snprintfStr pathMax (e.root ++ "/sys/fs/cgroup".toList))) (some "tmpfs".toList) 0)
  have hg : (getCgroups a e.strSize procCgroups).1 = 0 := by
    simp only [getCgroups, ha.cgroupsOpen, if_true]
    exact getCgroupsLoop_clean ha _ _
  refine ⟨(a.call l₃ (.mount none (some (snprintfStr pathMax (e.root ++ "/sys/fs/cgroup".toList)))
    (some "tmpfs".toList) 0)).2, ?_, by simpa [SysCall.isMount] using ((e₁.trans e₂).trans e₃).trans e₄⟩
  rcases hc : getCgroups a e.strSize procCgroups with ⟨r, cgroups⟩
  rw [hc] at hg
  subst hg
  simp only [bindSkeleton, h₁, h₃, hc, BindAnswers.call_fst, ha.err, Option.isSome_none,
    Bool.not_true, Bool.false_eq_true, if_false, ne_eq, not_true_eq_false]

end Clean

/-! ## One controller of the loop -/

/-- With nothing failing and a sound cache, `cg_get_ctl` answers `0` or `1` as the table
resolves the controller, and leaves in the cache what the table says. -/
theorem cgGetCtl_clean_update {text : List Char} {cache : Cache} (hs : CacheSound text cache)
    (c : Ctl) :
    cgGetCtl text {} cache c = (if (resolvedPath text c).isSome then 0 else 1,
      Function.update cache c (resolvedPath text c)) := by
  rw [cgGetCtl_clean hs]
  rcases hp : resolvedPath text c with _ | p
  · have hn : cache c = none := by
      rcases hq : cache c with _ | q
      · rfl
      · simpa [hp] using hs c q hq
    show (1, cache) = (if false = true then 0 else 1, Function.update cache c none)
    rw [← hn, Function.update_eq_self]
    rfl
  · rfl

section Steps

variable {e : BindEnv} {text : List Char} {a : BindAnswers} {cgroups : List (List Char)} {c : Ctl}
  {cs : List Ctl} {ret r : Int} {cache cache' : Cache} {head : List (List Char)} {log : List Event}
  {mnt : List Char}

/-- A controller the loop does not take up: it goes on with `cg_get_ctl`'s answer. -/
theorem bindLoop_skip (hg : cgGetCtl text (a.resolve c) cache c = (r, cache')) (hr : r ≠ -1)
    (h : takenUp cgroups c = false) :
    bindLoop e text a cgroups (c :: cs) ret cache head log =
      bindLoop e text a cgroups cs r cache' head log := by
  simp only [bindLoop, hg, if_neg hr]
  by_cases hp : c.isPrvt = true
  · rw [if_pos hp]
  · have hx : (cgIsSystemd c.subsys || cgroups.contains c.subsys) = false := by
      simpa only [takenUp, Bool.eq_false_iff.mpr hp, Bool.not_false, Bool.true_and] using h
    rw [if_neg hp, if_pos (by rw [← Bool.not_or, hx]; rfl)]

/-- A controller taken up: past the guards, at the match on its `mount_path`. -/
theorem bindLoop_takenUp (hg : cgGetCtl text (a.resolve c) cache c = (r, cache')) (hr : r ≠ -1)
    (h : takenUp cgroups c = true) (hm : cache' c = some mnt) :
    bindLoop e text a cgroups (c :: cs) ret cache head log =
      if head.contains mnt then bindLoop e text a cgroups cs r cache' head log
      else
        let (r, head, log) := bindMountPath e a c mnt head log
        if r ≠ 0 then (.ret r, cache', head, log)
        else bindLoop e text a cgroups cs r cache' head log := by
  simp only [takenUp, Bool.and_eq_true, Bool.not_eq_true'] at h
  simp only [bindLoop, hg, if_neg hr, h.1, Bool.false_eq_true, if_false, hm]
  rw [if_neg (by rw [← Bool.not_or, h.2]; exact Bool.false_ne_true)]

/-- A controller taken up whose mount point is in `head` already: skipped. -/
theorem bindLoop_seen (hg : cgGetCtl text (a.resolve c) cache c = (r, cache')) (hr : r ≠ -1)
    (h : takenUp cgroups c = true) (hm : cache' c = some mnt) (hin : mnt ∈ head) :
    bindLoop e text a cgroups (c :: cs) ret cache head log =
      bindLoop e text a cgroups cs r cache' head log := by
  rw [bindLoop_takenUp hg hr h hm, if_pos (List.elem_eq_true_of_mem hin)]

/-- A controller taken up whose mount point is new: its turn, then the rest. -/
theorem bindLoop_mount {head' : List (List Char)} {log' : List Event}
    (hg : cgGetCtl text (a.resolve c) cache c = (r, cache')) (hr : r ≠ -1)
    (h : takenUp cgroups c = true) (hm : cache' c = some mnt) (hin : mnt ∉ head)
    (hb : bindMountPath e a c mnt head log = (0, head', log')) :
    bindLoop e text a cgroups (c :: cs) ret cache head log =
      bindLoop e text a cgroups cs 0 cache' head' log' := by
  rw [bindLoop_takenUp hg hr h hm, if_neg (by simpa using hin), hb]
  rfl

end Steps

/-- The `ret` the controller loop ends with when nothing fails: `cg_get_ctl`'s answer for
the last controller, `0` when its mount resolves and `1` when not. -/
def loopRet (text : List Char) : Int → List Ctl → Int
  | ret, [] => ret
  | _, c :: cs => loopRet text (if (resolvedPath text c).isSome then 0 else 1) cs

/-! ## The whole call, with nothing failing -/

/-- The loop's choice over the table, from an empty `head`, is `mountTargets`. -/
theorem firstOfEach_cgCtlMap (text : List Char) (cgroups : List (List Char)) :
    firstOfEach (mountOf text) (cgCtlMap.filter (takenUp cgroups)) [] = mountTargets text cgroups := by
  rw [firstOfEach_eq_filter [] (cgCtlMap_nodup.filter _), mountTargets]
  simp


section Run

variable {e : BindEnv} {text : List Char} {a : BindAnswers} (ha : a.Clean)
  (hres : ∀ c, c.isPrvt = false → (resolvedPath text c).isSome)
include ha hres

/-- The controller loop from any sound cache, with nothing failing: it mounts for the loop's
choice among the controllers taken up, puts their mount points in `head`, and ends with
`loopRet`. -/
theorem bindLoop_clean (cgroups : List (List Char)) :
    ∀ (cs : List Ctl) (ret : Int) (cache : Cache) (head : List (List Char)) (log : List Event),
      CacheSound text cache → ∃ cache' log',
        bindLoop e text a cgroups cs ret cache head log =
          (.ret (loopRet text ret cs), cache',
            head ++ (firstOfEach (mountOf text) (cs.filter (takenUp cgroups)) head).map (mountOf text),
            log') ∧
        MountExt log log'
          ((firstOfEach (mountOf text) (cs.filter (takenUp cgroups)) head).flatMap (mountCalls e text))
  | [], ret, cache, head, log, _ => ⟨cache, log, by simp [bindLoop, loopRet, firstOfEach], .refl log⟩
  | c :: cs, ret, cache, head, log, hs => by
    have hg := cgGetCtl_clean_update hs c
    rw [← ha.resolve c] at hg
    have hs₁ : CacheSound text (Function.update cache c (resolvedPath text c)) := by
      simpa [hg] using cacheSound_cgGetCtl (a := a.resolve c) (c := c) hs
    have hr : (if (resolvedPath text c).isSome then 0 else 1 : Int) ≠ -1 := by
      split <;> decide
    by_cases ht : takenUp cgroups c = true
    · have hprvt : c.isPrvt = false := by
        simp only [takenUp, Bool.and_eq_true, Bool.not_eq_true'] at ht
        exact ht.1
      obtain ⟨p, hp⟩ := Option.isSome_iff_exists.mp (hres c hprvt)
      have hm : Function.update cache c (resolvedPath text c) c = some p := by simp [hp]
      have hk : mountOf text c = p := by simp [mountOf, hp]
      rw [List.filter_cons_of_pos ht, firstOfEach, hk]
      by_cases hin : p ∈ head
      · rw [bindLoop_seen hg hr ht hm hin, if_pos hin]
        simpa [hp, loopRet] using bindLoop_clean cgroups cs _ _ head log hs₁
      · obtain ⟨log₁, hb, eb⟩ := bindMountPath_clean ha e c p head log
        rw [bindLoop_mount hg hr ht hm hin hb, if_neg hin]
        obtain ⟨cache', log', h, he⟩ := bindLoop_clean cgroups cs 0 _ (head ++ [p]) log₁ hs₁
        rw [hp] at h
        refine ⟨cache', log', by simp [h, hp, loopRet, hk], ?_⟩
        simpa [mountCalls, hk] using eb.trans he
    · rw [bindLoop_skip hg hr (by simpa using ht), List.filter_cons_of_neg ht]
      simpa [loopRet] using bindLoop_clean cgroups cs _ _ head log hs₁

/-- `bindmount_env_cgroup` with nothing failing, every shared controller's mount resolving and
a sound cache: `0`, with the `sysfs`, the `tmpfs` and the two mounts of each of
`mountTargets`, in this order. -/
theorem bindmountEnvCgroup_clean (procCgroups : List Char) {cache : Cache}
    (hs : CacheSound text cache) :
    ∃ cache' log, bindmountEnvCgroup e text procCgroups a cache = (.ret 0, cache', log) ∧
      MountExt [] log
        ([.mount none (some (snprintfStr pathMax (e.root ++ "/sys".toList))) (some "sysfs".toList) 0,
          .mount none (some (snprintfStr pathMax (e.root ++ "/sys/fs/cgroup".toList)))
            (some "tmpfs".toList) 0] ++
          (mountTargets text (getCgroups a e.strSize procCgroups).2).flatMap (mountCalls e text)) := by
  obtain ⟨l₀, hsk, e₀⟩ := bindSkeleton_clean ha e procCgroups
  obtain ⟨cache', log', hl, el⟩ :=
    bindLoop_clean ha hres (getCgroups a e.strSize procCgroups).2 cgCtlMap 0 cache [] l₀ hs
  have hret : loopRet text 0 cgCtlMap = 0 := by
    simp [cgCtlMap, loopRet, hres .systemd rfl]
  refine ⟨cache', log', ?_, by simpa [firstOfEach_cgCtlMap] using e₀.trans el⟩
  simp [bindmountEnvCgroup, cgBindmountCgroup, hsk, hl, hret]

end Run

/-! ## What is mounted -/

/-- The slave remount of mount point `m`. -/
def slaveCall (m : List Char) : SysCall :=
  .mount none (some m) none msSlave

theorem count_slave_flatMap (e : BindEnv) (text m : List Char) :
    ∀ cs : List Ctl, (cs.flatMap (mountCalls e text)).count (slaveCall m) =
      ((cs.map (mountOf text)).map slaveCall).count (slaveCall m)
  | [] => rfl
  | c :: cs => by
    rw [List.flatMap_cons, List.map_cons, List.map_cons, List.count_append, List.count_cons,
      count_slave_flatMap e text m cs, Nat.add_comm]
    simp [mountCalls, slaveCall, List.count_cons]

/-- `bindmount_env_cgroup` with no operation failing, every shared controller's mount
resolving, and a resolver cache that agrees with the mount table: it returns `0`; its
`mount`s are the `sysfs`, the `tmpfs`, then for each of `mountTargets` (the first controller
taken up of each mount point, in table order) the slave remount of the mount point and the
bind mount of the container's directory over `<root>` + mount point, as `snprintf` leaves
it in a `PATH_MAX` buffer, `MS_PRIVATE` except for systemd; no mount point is among them
twice; and each mount point of a controller taken up is remounted as a slave exactly once,
every other path never. -/
theorem bindmountEnvCgroup_mounts_once {e : BindEnv} {text procCgroups : List Char}
    {a : BindAnswers} {cache : Cache} (ha : a.Clean)
    (hres : ∀ c, c.isPrvt = false → (resolvedPath text c).isSome) (hs : CacheSound text cache) :
    (bindmountEnvCgroup e text procCgroups a cache).1 = .ret 0 ∧
      ((bindmountEnvCgroup e text procCgroups a cache).2.2.map Prod.fst).filter SysCall.isMount =
        [.mount none (some (snprintfStr pathMax (e.root ++ "/sys".toList))) (some "sysfs".toList) 0,
          .mount none (some (snprintfStr pathMax (e.root ++ "/sys/fs/cgroup".toList)))
            (some "tmpfs".toList) 0] ++
          (mountTargets text (getCgroups a e.strSize procCgroups).2).flatMap (mountCalls e text) ∧
      ((mountTargets text (getCgroups a e.strSize procCgroups).2).map (mountOf text)).Nodup ∧
      ∀ m, ((bindmountEnvCgroup e text procCgroups a cache).2.2.map Prod.fst).count
          (.mount none (some m) none msSlave) =
        if m ∈ (cgCtlMap.filter (takenUp (getCgroups a e.strSize procCgroups).2)).map (mountOf text)
        then 1 else 0 := by
  obtain ⟨cache', log, h, evs, rfl, hm⟩ := bindmountEnvCgroup_clean ha hres procCgroups hs
  rw [h]
  refine ⟨rfl, hm, mountTargets_nodup _ _, fun m => ?_⟩
  have hinj : Function.Injective slaveCall := fun p q h => by simpa [slaveCall] using h
  change List.count (slaveCall m) _ = _
  rw [← List.count_filter (show (slaveCall m).isMount = true from rfl), hm, List.count_append,
    count_slave_flatMap]
  split_ifs with hmem
  · simpa [slaveCall] using List.count_eq_one_of_mem ((mountTargets_nodup _ _).map hinj)
      (List.mem_map_of_mem slaveCall (mem_mountTargets.mpr hmem))
  · simpa [slaveCall] using List.count_eq_zero_of_not_mem
      (mt (List.mem_map_of_injective hinj).mp (mt mem_mountTargets.mp hmem))

/-- A mount table with every shared controller at `/c`. -/
def sharedTable : List Char :=
  ("cgroup /c cgroup rw,cpu,cpuset,net_cls,memory,devices,blkio,freezer,perf_event,hugetlb," ++
    "pids,name=systemd 0 0\n").toList

theorem sharedTable_resolves : ∀ c : Ctl, c.isPrvt = false → (resolvedPath sharedTable c).isSome := by
  intro c
  cases c <;> decide

theorem bindAnswers_default_clean : ({} : BindAnswers).Clean :=
  ⟨fun _ _ => rfl, rfl, fun _ => rfl, fun _ => rfl, fun _ => rfl⟩

theorem cacheSound_empty (text : List Char) : CacheSound text Cache.empty :=
  fun _ _ h => nomatch h

theorem bindmountEnvCgroup_mounts_once_shared :
    ({} : BindAnswers).Clean ∧
      (∀ c : Ctl, c.isPrvt = false → (resolvedPath sharedTable c).isSome) ∧
      CacheSound sharedTable Cache.empty ∧
      ((bindmountEnvCgroup sampleEnv sharedTable "cpu\n".toList {} Cache.empty).1 = .ret 0 ∧
      ((bindmountEnvCgroup sampleEnv sharedTable "cpu\n".toList {} Cache.empty).2.2.map
          Prod.fst).filter SysCall.isMount =
        [.mount none (some (snprintfStr pathMax (sampleEnv.root ++ "/sys".toList)))
            (some "sysfs".toList) 0,
          .mount none (some (snprintfStr pathMax (sampleEnv.root ++ "/sys/fs/cgroup".toList)))
            (some "tmpfs".toList) 0] ++
          (mountTargets sharedTable (getCgroups {} sampleEnv.strSize "cpu\n".toList).2).flatMap
            (mountCalls sampleEnv sharedTable) ∧
      ((mountTargets sharedTable (getCgroups {} sampleEnv.strSize "cpu\n".toList).2).map
          (mountOf sharedTable)).Nodup ∧
      ∀ m, ((bindmountEnvCgroup sampleEnv sharedTable "cpu\n".toList {} Cache.empty).2.2.map
            Prod.fst).count (.mount none (some m) none msSlave) =
        if m ∈ (cgCtlMap.filter (takenUp (getCgroups {} sampleEnv.strSize "cpu\n".toList).2)).map
          (mountOf sharedTable) then 1 else 0) :=
  ⟨bindAnswers_default_clean, sharedTable_resolves, cacheSound_empty _,
    bindmountEnvCgroup_mounts_once bindAnswers_default_clean sharedTable_resolves (cacheSound_empty _)⟩

/-- A container whose root is `PATH_MAX` bytes long. -/
def longRootEnv : BindEnv :=
  ⟨List.replicate 4096 'r', "101".toList, ⟨cgGetSliceName none, [], []⟩, 512⟩

/-- With a root of `PATH_MAX` bytes, every path under it is cut to the root's first
`PATH_MAX - 1` bytes: the `sysfs`, the `tmpfs` and the bind mount for `/c` all go onto that
one path, and the bind mount not onto `<root>/c`. -/
theorem bindmountEnvCgroup_long_root :
    ((bindmountEnvCgroup longRootEnv sharedTable [] {} Cache.empty).2.2.map Prod.fst).filter
        SysCall.isMount =
      [.mount none (some (List.replicate 4095 'r')) (some "sysfs".toList) 0,
        .mount none (some (List.replicate 4095 'r')) (some "tmpfs".toList) 0,
        .mount none (some "/c".toList) none msSlave,
        .mount (some (getCgroupName longRootEnv.names longRootEnv.ctid "/c".toList .systemd))
          (some (List.replicate 4095 'r')) none msBind] := by
  obtain ⟨cache', log, h, evs, rfl, hm⟩ := bindmountEnvCgroup_clean (e := longRootEnv)
    bindAnswers_default_clean sharedTable_resolves [] (cacheSound_empty _)
  have hlong : ∀ t, snprintfStr pathMax (longRootEnv.root ++ t) = List.replicate 4095 'r' := by
    intro t
    rw [snprintfStr_pathMax_append t (by rw [longRootEnv, List.length_replicate]; decide),
      longRootEnv, List.take_replicate]
    rfl
  have ht : mountTargets sharedTable (getCgroups {} longRootEnv.strSize []).2 = [.systemd] := by
    decide
  have hmo : mountOf sharedTable .systemd = "/c".toList := by decide
  rw [h]
  dsimp only
  rw [hm, ht]
  simp only [List.flatMap_cons, List.flatMap_nil, List.append_nil, mountCalls, hmo, hlong,
    if_pos (rfl : cgIsSystemd Ctl.systemd.subsys = true)]
  rfl

end VzCgroup
