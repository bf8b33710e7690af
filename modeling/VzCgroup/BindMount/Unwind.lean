import VzCgroup.BindMount

/-!
# VzCgroup — the `err:` block of `cg_bindmount_cgroup`

The controller loop makes no `umount`, and each mount it makes is the bind mount of a
mount point it has just put in `head`. `err:` unmounts `<root>/<m>` for every `m` of `head`
and then the two skeleton mounts, so when the loop fails, the mounts left are those made
less those taken away: none, as long as `<root>` + mount point and `<root>/` + mount point
name one directory (the mount point begins with `/` and both fit in `PATH_MAX`).
-/

namespace VzCgroup

/-! ## Mounts made and taken away -/

/-- Whether a call is an `umount`. -/
def SysCall.isUmount : SysCall → Bool
  | .umount _ => true
  | _ => false

/-- The mount an event adds: that of a call that succeeded. -/
def Event.mounted (ev : Event) : Option Path :=
  if ev.2 = none then ev.1.mountsAt else none

theorem Event.apply_of_not_umount {ev : Event} (h : ev.1.isUmount = false) (m : List Path) :
    Event.apply m ev = m ++ ev.mounted.toList := by
  rcases ev with ⟨c, _ | err⟩ <;> cases c <;> simp_all [Event.apply, Event.mounted, SysCall.isUmount]

theorem foldl_apply_of_not_umount {evs : List Event} (h : ∀ ev ∈ evs, ev.1.isUmount = false)
    (m : List Path) : evs.foldl Event.apply m = m ++ evs.filterMap Event.mounted := by
  induction evs generalizing m with
  | nil => simp
  | cons ev evs ih =>
    rw [List.foldl_cons, Event.apply_of_not_umount (h ev (List.mem_cons_self _ _)),
      ih (fun x hx => h x (List.mem_cons_of_mem _ hx))]
    rcases hm : ev.mounted with _ | p <;> simp [List.filterMap_cons, hm]

theorem mountsLeft_append (log evs : List Event) :
    mountsLeft (log ++ evs) = evs.foldl Event.apply (mountsLeft log) :=
  List.foldl_append _ _ _ _

/-- Successful umounts take their paths away, one each. -/
theorem foldl_apply_umounts (ts : List (List Char)) (m : List Path) :
    (ts.map fun t => ((SysCall.umount t, none) : Event)).foldl Event.apply m =
      m.diff (ts.map components) := by
  induction ts generalizing m with
  | nil => simp
  | cons t ts ih => simp [Event.apply, ih, List.diff_cons]

/-- `log'` is `log` followed by calls that neither mount nor unmount. -/
def QuietExt (log log' : List Event) : Prop :=
  ∃ evs, log' = log ++ evs ∧ ∀ ev ∈ evs, ev.1.isUmount = false ∧ ev.1.mountsAt = none

theorem QuietExt.refl (log : List Event) : QuietExt log log :=
  ⟨[], by simp, by simp⟩

theorem QuietExt.trans {l₁ l₂ l₃ : List Event} (h : QuietExt l₁ l₂) (h' : QuietExt l₂ l₃) :
    QuietExt l₁ l₃ := by
  obtain ⟨e₁, rfl, q₁⟩ := h
  obtain ⟨e₂, rfl, q₂⟩ := h'
  exact ⟨e₁ ++ e₂, by simp, fun ev hev => (List.mem_append.mp hev).elim (q₁ ev) (q₂ ev)⟩

/-- A `make_dir`, `unlink`, `symlink` or slave remount extends the log quietly,
whatever it answers. -/
theorem quietExt_call (a : BindAnswers) (log : List Event) (c : SysCall) (hu : c.isUmount = false)
    (hm : c.mountsAt = none) : QuietExt log (a.call log c).2 :=
  ⟨_, rfl, by simp [hu, hm]⟩

theorem filterMap_mounted_eq_nil {evs : List Event} (h : ∀ ev ∈ evs, ev.1.mountsAt = none) :
    evs.filterMap Event.mounted = [] :=
  List.filterMap_eq_nil_iff.mpr fun ev hev => by simp [Event.mounted, h ev hev]

theorem QuietExt.mountsLeft {log log' : List Event} (h : QuietExt log log') :
    mountsLeft log' = mountsLeft log := by
  obtain ⟨evs, rfl, hq⟩ := h
  rw [mountsLeft_append, foldl_apply_of_not_umount (fun ev hev => (hq ev hev).1),
    filterMap_mounted_eq_nil (fun ev hev => (hq ev hev).2), List.append_nil]

/-- A mount that succeeds adds its mount. -/
theorem mountsLeft_call_mount (a : BindAnswers) (log : List Event) {c : SysCall} {p : Path}
    (he : a.err log.length c = none) (hm : c.mountsAt = some p) :
    mountsLeft (a.call log c).2 = mountsLeft log ++ [p] := by
  cases c
  case umount => simp [SysCall.mountsAt] at hm
  all_goals simp_all [mountsLeft, Event.apply]

/-! ## The helpers' calls -/

theorem ensureDir_quiet (a : BindAnswers) (log : List Event) (p : List Char) :
    QuietExt log (ensureDir a log p).2 := by
  unfold ensureDir
  split
  · exact .refl log
  · exact quietExt_call a log _ rfl rfl

theorem perctlLoop_quiet (a : BindAnswers) (root path oldpath : List Char) :
    ∀ fuel name p last log, QuietExt log (perctlLoop a root path oldpath fuel name p last log).2
  | 0, _, _, _, log => .refl log
  | fuel + 1, name, p, last, log => by
    simp only [perctlLoop]
    set np := snprintfStr pathMax (root ++ '/' :: path ++ "/../".toList ++ name)
    have hs := (quietExt_call a log (.unlink np) rfl rfl).trans
      (quietExt_call a _ (.symlink oldpath np) rfl rfl)
    split_ifs
    · exact hs
    · exact hs
    all_goals
      split
      all_goals exact hs.trans (perctlLoop_quiet a root path oldpath fuel _ _ _ _)

theorem createPerctlSymlink_quiet (a : BindAnswers) (strSize : Nat) (root path : List Char)
    (log : List Event) : QuietExt log (createPerctlSymlink a strSize root path log).2 := by
  unfold createPerctlSymlink
  split
  · exact .refl log
  · dsimp only
    split
    · exact .refl log
    · exact perctlLoop_quiet a _ _ _ _ _ _ _ _

/-! ## The controller loop's calls -/

/-- Where the loop bind-mounts the container's directory for mount point `m`. -/
def bindTarget (e : BindEnv) (m : List Char) : Path :=
  components (snprintfStr pathMax (e.root ++ m))

/-- `log'` extends `log` as the controller loop does while it puts the mount points `new`
in `head`: no `umount`, and the mounts that succeeded are bind mounts at the targets of
`new`, in order, at most one each. -/
def LoopExt (e : BindEnv) (new : List (List Char)) (log log' : List Event) : Prop :=
  ∃ evs, log' = log ++ evs ∧ (∀ ev ∈ evs, ev.1.isUmount = false) ∧
    List.Sublist (evs.filterMap Event.mounted) (new.map (bindTarget e))

section Loop

variable {e : BindEnv} {a : BindAnswers}

theorem QuietExt.loopExt {log log' : List Event} (h : QuietExt log log') (new : List (List Char)) :
    LoopExt e new log log' := by
  obtain ⟨evs, rfl, hq⟩ := h
  refine ⟨evs, rfl, fun ev hev => (hq ev hev).1, ?_⟩
  rw [filterMap_mounted_eq_nil fun ev hev => (hq ev hev).2]
  exact List.nil_sublist _

theorem LoopExt.trans {n₁ n₂ : List (List Char)} {l₁ l₂ l₃ : List Event} (h : LoopExt e n₁ l₁ l₂)
    (h' : LoopExt e n₂ l₂ l₃) : LoopExt e (n₁ ++ n₂) l₁ l₃ := by
  obtain ⟨e₁, rfl, u₁, s₁⟩ := h
  obtain ⟨e₂, rfl, u₂, s₂⟩ := h'
  refine ⟨e₁ ++ e₂, by simp, fun ev hev => (List.mem_append.mp hev).elim (u₁ ev) (u₂ ev), ?_⟩
  rw [List.filterMap_append, List.map_append]
  exact s₁.append s₂

/-- A bind mount at the target of `m` adds at most that mount. -/
theorem loopExt_bindCall (log : List Event) (src m : List Char) {flags : Nat}
    (hf : flags &&& msBind ≠ 0) :
    LoopExt e [m] log (a.call log (.mount (some src) (some (snprintfStr pathMax (e.root ++ m)))
      none flags)).2 := by
  refine ⟨_, rfl, by simp [SysCall.isUmount], ?_⟩
  by_cases he : a.err log.length (.mount (some src) (some (snprintfStr pathMax (e.root ++ m)))
    none flags) = none
  · simp [Event.mounted, he, SysCall.mountsAt, hf, bindTarget]
  · simp [Event.mounted, he]

theorem doBindmount_loopExt (log : List Event) (src m : List Char) {flags : Nat}
    (hf : flags &&& msBind ≠ 0) :
    LoopExt e [m] log (doBindmount a src (snprintfStr pathMax (e.root ++ m)) flags log).2 := by
  unfold doBindmount
  have h1 := ensureDir_quiet a log (snprintfStr pathMax (e.root ++ m))
  have h2 := h1.trans (ensureDir_quiet a _ src)
  simp only
  split_ifs
  · exact h1.loopExt _
  · exact h2.loopExt _
  all_goals exact (h2.loopExt []).trans (loopExt_bindCall _ src m hf)

theorem bindMountPath_loopExt (c : Ctl) (mnt : List Char) (head : List (List Char))
    (log : List Event) :
    ∃ new, List.Sublist new [mnt] ∧ (bindMountPath e a c mnt head log).2.1 = head ++ new ∧
      LoopExt e new log (bindMountPath e a c mnt head log).2.2 := by
  have hflags : (if cgIsSystemd c.subsys then msBind else msBind ||| msPrivate) &&& msBind ≠ 0 := by
    split <;> decide
  have h1 := quietExt_call a log (.mount none (some mnt) none msSlave) rfl
    (by simp [SysCall.mountsAt]; decide)
  unfold bindMountPath
  simp only
  generalize (if cgIsSystemd c.subsys then msBind else msBind ||| msPrivate) = flags at hflags ⊢
  have h2 := (h1.loopExt []).trans
    (doBindmount_loopExt (e := e) (a := a) _ (getCgroupName e.names e.ctid mnt c) mnt hflags)
  split_ifs
  · exact ⟨[], List.nil_sublist _, by simp, h1.loopExt []⟩
  · exact ⟨[], List.nil_sublist _, by simp, h1.loopExt []⟩
  · exact ⟨[mnt], List.Sublist.refl _, rfl, h2⟩
  · exact ⟨[mnt], List.Sublist.refl _, rfl, h2.trans ((createPerctlSymlink_quiet ..).loopExt [])⟩

/-- The controller loop, from a sound cache: what it puts in `head` are mount points the
table resolves, and it extends the log by no `umount` and by bind mounts at their targets. -/
theorem bindLoop_loopExt {text : List Char} (cgroups : List (List Char)) :
    ∀ (cs : List Ctl) (ret : Int) (cache : Cache) (head : List (List Char)) (log : List Event),
      CacheSound text cache → ∃ new,
        (bindLoop e text a cgroups cs ret cache head log).2.2.1 = head ++ new ∧
        LoopExt e new log (bindLoop e text a cgroups cs ret cache head log).2.2.2 ∧
        ∀ m ∈ new, ∃ c, resolvedPath text c = some m
  | [], _, _, head, log, _ => ⟨[], by simp [bindLoop], (QuietExt.refl log).loopExt [], by simp⟩
  | c :: cs, _, cache, head, log, hs => by
    rcases hr : cgGetCtl text (a.resolve c) cache c with ⟨r, cache'⟩
    have hs' : CacheSound text cache' := by
      simpa [hr] using cacheSound_cgGetCtl (a := a.resolve c) (c := c) hs
    have next := bindLoop_loopExt cgroups cs r cache' head log hs'
    simp only [bindLoop, hr]
    split_ifs
    · exact ⟨[], by simp, (QuietExt.refl log).loopExt [], by simp⟩
    · exact next
    · exact next
    rcases hm : cache' c with _ | mnt
    · exact ⟨[], by simp, (QuietExt.refl log).loopExt [], by simp⟩
    simp only
    obtain ⟨new, hsub, hhead, hext⟩ := bindMountPath_loopExt (e := e) (a := a) c mnt head log
    have hnew : ∀ m ∈ new, ∃ c, resolvedPath text c = some m := fun m hm' =>
      ⟨c, by rw [List.mem_singleton.mp (hsub.subset hm')]; exact hs' c mnt hm⟩
    split_ifs
    · exact next
    · exact ⟨new, hhead, hext, hnew⟩
    · obtain ⟨new', hh', he', ho'⟩ := bindLoop_loopExt cgroups cs _ cache'
        (bindMountPath e a c mnt head log).2.1 (bindMountPath e a c mnt head log).2.2 hs'
      refine ⟨new ++ new', by rw [hh', hhead, List.append_assoc], hext.trans he', ?_⟩
      simpa [or_imp, forall_and] using ⟨hnew, ho'⟩

end Loop

/-! ## The `err:` block -/

section Err

variable {e : BindEnv} {a : BindAnswers}

/-- A mount point whose two container paths, `<root>` + `m` (where the loop mounts) and
`<root>/` + `m` (what `err:` unmounts), name one directory: it begins with `/` and
both fit in a `PATH_MAX` buffer. -/
def Fits (root m : List Char) : Prop :=
  m.head? = some '/' ∧ root.length + m.length + 1 < pathMax

instance (root m : List Char) : Decidable (Fits root m) :=
  inferInstanceAs (Decidable (_ ∧ _))

theorem Fits.umount_eq {root m : List Char} (h : Fits root m) :
    components (snprintfStr pathMax (root ++ '/' :: m)) = components (snprintfStr pathMax (root ++ m)) := by
  obtain ⟨hm, hlen⟩ := h
  obtain ⟨m', rfl⟩ : ∃ m', m = '/' :: m' := by
    cases m with
    | nil => cases hm
    | cons x m' => exact ⟨m', by simpa using hm⟩
  simp only [List.length_cons] at hlen
  rw [snprintfStr, snprintfStr, List.take_of_length_le (by simp; omega),
    List.take_of_length_le (by simp; omega), components_append_slash, components_append_slash,
    components_cons_slash]

/-- With every `umount` succeeding, `err:` appends the unmounts of `<root>/<m>` for the
mount points of `head`, in order, then of the `tmpfs` and of the `sysfs`. -/
theorem unwind_eq (hu : ∀ n t, a.err n (.umount t) = none) (head : List (List Char))
    (log : List Event) :
    unwind e a head log = log ++ ((head.map fun m => snprintfStr pathMax (e.root ++ '/' :: m)) ++
      [snprintfStr pathMax (e.root ++ "/sys/fs/cgroup".toList),
        snprintfStr pathMax (e.root ++ "/sys".toList)]).map fun t => ((SysCall.umount t, none) : Event) := by
  have hfold : ∀ (ms : List (List Char)) (log : List Event),
      ms.foldl (fun log m => log ++ [((SysCall.umount (snprintfStr pathMax (e.root ++ '/' :: m))),
        none)]) log =
        log ++ ms.map fun m => ((SysCall.umount (snprintfStr pathMax (e.root ++ '/' :: m)), none) : Event) := by
    intro ms
    induction ms with
    | nil => simp
    | cons m ms ih => intro log; simp [ih]
  simp [unwind, hfold, hu]

/-- The first steps, when they succeed, leave the `sysfs` and the `tmpfs` mounted. -/
theorem bindSkeleton_mounts {procCgroups : List Char} (h : (bindSkeleton e procCgroups a).1 = 0) :
    mountsLeft (bindSkeleton e procCgroups a).2.2 =
      [components (snprintfStr pathMax (e.root ++ "/sys".toList)),
        components (snprintfStr pathMax (e.root ++ "/sys/fs/cgroup".toList))] := by
  unfold bindSkeleton at h ⊢
  simp only at h ⊢
  split_ifs at h ⊢ with h1 h2 h3 h4
  · simp [vzctlECreateDir] at h
  · simp [vzctlEResource] at h
  · simp [vzctlEResource] at h
  · simp [vzctlEResource] at h
  simp only [BindAnswers.call_fst, Bool.not_eq_true, Option.not_isSome, Option.isNone_iff_eq_none]
    at h2 h4
  rw [mountsLeft_call_mount _ _ h4 rfl, (ensureDir_quiet ..).mountsLeft,
    mountsLeft_call_mount _ _ h2 rfl, (ensureDir_quiet ..).mountsLeft]
  rfl

/-- Taking away, one each, the elements of a list that holds at least as many of each
leaves nothing. -/
theorem diff_eq_nil_of_subperm {α : Type} [inst : BEq α] [LawfulBEq α] {l₁ l₂ : List α}
    (h : List.Subperm l₁ l₂) : l₁.diff l₂ = [] := by
  classical
  obtain rfl : inst = instBEqOfDecidableEq :=
    congrArg BEq.mk (funext fun a => funext fun b => Bool.beq_eq_decide_eq a b)
  induction l₂ generalizing l₁ with
  | nil => simpa using h
  | cons b l₂ ih =>
    rw [List.diff_cons]
    exact ih (by simpa using h.erase b)

/-- When the controller loop of `bindmount_env_cgroup` fails, `err:` undoes every mount the
call made. With the `umount`s succeeding, a sound cache, and mount points that begin with
`/` and fit behind the container root: the loop stops with the mount points `head` it
handled, its log holding no `umount` and, of mounts that succeeded, bind mounts at the
targets of `head` only, in order; the call then appends the unmounts of `head`, in order,
of the `tmpfs` and of the `sysfs`, and leaves nothing mounted. -/
theorem bindmountEnvCgroup_unwinds {text procCgroups : List Char} {cache : Cache} {r : Int}
    (hu : ∀ n t, a.err n (.umount t) = none) (hs : CacheSound text cache)
    (hfit : ∀ c ∈ cgCtlMap, ∀ m ∈ resolvedPath text c, Fits e.root m)
    (hsk : (bindSkeleton e procCgroups a).1 = 0)
    (h : (bindmountEnvCgroup e text procCgroups a cache).1 = .ret r) (hr : r ≠ 0) :
    ∃ cache' head log,
      bindLoop e text a (bindSkeleton e procCgroups a).2.1 cgCtlMap 0 cache []
          (bindSkeleton e procCgroups a).2.2 = (.ret r, cache', head, log) ∧
        LoopExt e head (bindSkeleton e procCgroups a).2.2 log ∧
        (bindmountEnvCgroup e text procCgroups a cache).2.2 = log ++
          ((head.map fun m => snprintfStr pathMax (e.root ++ '/' :: m)) ++
            [snprintfStr pathMax (e.root ++ "/sys/fs/cgroup".toList),
              snprintfStr pathMax (e.root ++ "/sys".toList)]).map
            (fun t => ((SysCall.umount t, none) : Event)) ∧
        mountsLeft (bindmountEnvCgroup e text procCgroups a cache).2.2 = [] := by
  obtain ⟨new, hhead, hext, horig⟩ := bindLoop_loopExt (e := e) (a := a)
    (bindSkeleton e procCgroups a).2.1 cgCtlMap 0 cache [] (bindSkeleton e procCgroups a).2.2 hs
  have hm0 := bindSkeleton_mounts hsk
  simp only [bindmountEnvCgroup, cgBindmountCgroup, hsk, ne_eq, not_true_eq_false, if_false] at h ⊢
  rcases hb : bindLoop e text a (bindSkeleton e procCgroups a).2.1 cgCtlMap 0 cache []
    (bindSkeleton e procCgroups a).2.2 with ⟨_ | c', cache', head, log⟩
  · rw [hb] at h hhead hext
    simp only [BindEnd.ret.injEq] at h
    subst h
    simp only [hr, ne_eq, not_false_eq_true, if_true, List.nil_append] at hhead ⊢
    subst hhead
    rw [unwind_eq hu]
    refine ⟨cache', head, log, rfl, hext, rfl, ?_⟩
    obtain ⟨evs, rfl, hnu, hsub⟩ := hext
    rw [mountsLeft_append, mountsLeft_append, foldl_apply_of_not_umount hnu, hm0,
      foldl_apply_umounts]
    apply diff_eq_nil_of_subperm
    have hmap : (head.map fun m => snprintfStr pathMax (e.root ++ '/' :: m)).map components =
        head.map (bindTarget e) := by
      rw [List.map_map]
      refine List.map_congr_left fun m hm => ?_
      obtain ⟨c, hc⟩ := horig m hm
      exact (hfit c (mem_cgCtlMap c) m hc).umount_eq
    rw [List.map_append, hmap]
    exact (List.perm_append_comm.subperm).trans ((hsub.append_right _).subperm.trans
      ((List.Perm.append_left _ (List.Perm.swap _ _ _)).subperm))
  · rw [hb] at h
    simp at h

/-- `cpu` at `/c/cpu` and systemd's hierarchy at `/c/systemd`. -/
def cpuSystemdTable : List Char :=
  "cgroup /c/cpu cgroup rw,cpu 0 0\ncgroup /c/systemd cgroup rw,name=systemd 0 0\n".toList

/-- The bind mount of systemd's hierarchy fails; every other call succeeds. -/
def failSystemdBind : BindAnswers :=
  { err := fun _ c => match c with
      | .mount (some _) (some t) _ _ =>
        if t = snprintfStr pathMax (sampleEnv.root ++ "/c/systemd".toList) then some .other else none
      | _ => none }

/-- `cpu` is bind-mounted at `/ct/c/cpu`, then the bind mount of systemd's hierarchy fails:
the call returns `VZCTL_E_RESOURCE` and `err:` unmounts both mount points of `head`, the
`tmpfs` and the `sysfs`, leaving nothing mounted. -/
theorem bindmountEnvCgroup_unwinds_failSystemdBind :
    ∃ cache' head log,
      bindLoop sampleEnv cpuSystemdTable failSystemdBind
          (bindSkeleton sampleEnv "cpu 1 1 1\n".toList failSystemdBind).2.1 cgCtlMap 0 Cache.empty []
          (bindSkeleton sampleEnv "cpu 1 1 1\n".toList failSystemdBind).2.2 =
        (.ret vzctlEResource, cache', head, log) ∧
        LoopExt sampleEnv head (bindSkeleton sampleEnv "cpu 1 1 1\n".toList failSystemdBind).2.2 log ∧
        (bindmountEnvCgroup sampleEnv cpuSystemdTable "cpu 1 1 1\n".toList failSystemdBind
            Cache.empty).2.2 = log ++
          ((head.map fun m => snprintfStr pathMax (sampleEnv.root ++ '/' :: m)) ++
            [snprintfStr pathMax (sampleEnv.root ++ "/sys/fs/cgroup".toList),
              snprintfStr pathMax (sampleEnv.root ++ "/sys".toList)]).map
            (fun t => ((SysCall.umount t, none) : Event)) ∧
        mountsLeft (bindmountEnvCgroup sampleEnv cpuSystemdTable "cpu 1 1 1\n".toList failSystemdBind
          Cache.empty).2.2 = [] :=
  bindmountEnvCgroup_unwinds (r := vzctlEResource) (fun _ _ => rfl) (fun _ _ h => nomatch h)
    (by decide) (by decide) (by decide) (by decide)

end Err

end VzCgroup
