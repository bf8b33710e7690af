import VzCgroup.Attach
import VzCgroup.Ve
import VzCgroup.EnvParam
import VzCgroup.Hierarchy
import VzCgroup.BindMount
import VzCgroup.Hierarchy.Lifecycle
import VzCgroup.Resolver.Concurrent

/-!
# VzCgroup — the resolver cache over a whole run of the library

The only state `cgroup.c` keeps across calls is the `mount_path` of each entry of
`cg_ctl_map`, the resolver cache. Every entry point changes it through `cg_get_ctl` alone:
its cache afterwards is reached from the one before by `cg_get_ctl` calls (`Resolves`). A
`cg_get_ctl` call keeps the cache sound and never changes an entry once set
(`cacheSound_cgGetCtl`, `cgGetCtl_cache_stable`), and so does any run of them.

`LibStep` is one call of an entry point, with any answers from the system, and
`library_cache` the result over every sequence of them from the start of the process: with
the mount table unchanged, each `mount_path` set is the table's answer for its controller,
and once set it is never changed; so every control file's path is built on the table's
mount point (`library_cgGetPath`). The entry points built of others are runs of those
(`cg_set_ul`, `cg_add_veip`, ... are `cg_set_param` calls; `cg_freezer_cmd` is a
`cg_set_param` call and `cg_get_param` calls).

`cg_new_cgroup` resolves every controller and returns `0` only when none failed; after it
the cache is the table's whole map for the rest of the run, and the resolution of a mounted
controller cannot fail any more (`cgNewCgroup_cache_complete`). A `cg_attach_task` after it,
with `/proc/mounts` opening and the writes succeeding, puts the task into the container's
group under every mounted controller (`cgAttachTask_after_new`).

Threads calling `cg_get_ctl` under `cg_ctl_map_mtx` change the fields as a run of
`cg_get_ctl` calls does when every scan reads the same table, so the fields stay sound under
every interleaving (`Mtx.run_cacheSound`).
-/

namespace VzCgroup

/-! ## §1 Runs of `cg_get_ctl` -/

/-- One `cg_get_ctl` call, for any controller, with any answers. -/
def CtlStep (text : List Char) (cache cache' : Cache) : Prop :=
  ∃ a c, (cgGetCtl text a cache c).2 = cache'

/-- The caches reached from a cache by `cg_get_ctl` calls. -/
def Resolves (text : List Char) : Cache → Cache → Prop :=
  Relation.ReflTransGen (CtlStep text)

section Resolves

variable {text : List Char} {cache cache' : Cache}

theorem resolves_cgGetCtl (a : ResolveAnswer) (c : Ctl) :
    Resolves text cache (cgGetCtl text a cache c).2 :=
  Relation.ReflTransGen.single ⟨a, c, rfl⟩

/-- **Soundness along a run.** Every cache a run of `cg_get_ctl` reaches from a sound cache
is sound. -/
theorem Resolves.sound (h : Resolves text cache cache') (hs : CacheSound text cache) :
    CacheSound text cache' := by
  induction h with
  | refl => exact hs
  | tail _ hstep ih =>
    obtain ⟨a, c, rfl⟩ := hstep
    exact cacheSound_cgGetCtl ih

/-- **Set once along a run.** An entry set before a run of `cg_get_ctl` is the same after. -/
theorem Resolves.stable (h : Resolves text cache cache') {c : Ctl} {p : List Char}
    (hc : cache c = some p) : cache' c = some p := by
  induction h with
  | refl => exact hc
  | tail _ hstep ih =>
    obtain ⟨a, c', rfl⟩ := hstep
    exact cgGetCtl_cache_stable ih

end Resolves

/-! ## §2 Each entry point is a run of `cg_get_ctl`

One lemma per function of the model that hands the cache on: its cache afterwards is
reached from the one before. -/

section Calls

variable {text : List Char} {cache : Cache} {n : Names} {ctid : Option (List Char)} {c : Ctl}
  {name : List Char}

theorem resolves_cgGetPath (a : ResolveAnswer) (size : Nat) :
    Resolves text cache (cgGetPath text a cache n ctid c name size).2.2 := by
  rw [cgGetPath_cache]
  exact resolves_cgGetCtl a c

theorem resolves_of_cgGetPath {a : ResolveAnswer} {size : Nat} {r : Int} {o : Option (List Char)}
    {cache' : Cache} (h : cgGetPath text a cache n ctid c name size = (r, o, cache')) :
    Resolves text cache cache' := by
  simpa only [h] using @resolves_cgGetPath text cache n ctid c name a size

theorem resolves_cgSetParam (a : ResolveAnswer) (data : List Char) (w : WriteAnswer) :
    Resolves text cache (cgSetParam text a cache n ctid c name data w).2.2 := by
  rw [cgSetParam_cache]
  exact resolves_cgGetCtl a c

theorem resolves_cgGetParam (a : ResolveAnswer) (files : List Char → Except Nat (List Char))
    (size : Nat) (mem : Int → Char) :
    Resolves text cache (cgGetParam text a cache n ctid c name files size mem).2.2 := by
  unfold cgGetParam
  split <;> rename_i heq <;> simpa using resolves_of_cgGetPath heq

theorem resolves_cgGetUll (a : ResolveAnswer) (files : List Char → Except Nat (List Char))
    (mem : Int → Char) : Resolves text cache (cgGetUll text a cache n ctid c name files mem).2.2 := by
  have h := @resolves_cgGetParam text cache n ctid c name a files 32 mem
  unfold cgGetUll
  generalize cgGetParam text a cache n ctid c name files 32 mem = g at h ⊢
  obtain ⟨r, acc, k⟩ := g
  dsimp only at h ⊢
  split_ifs <;> exact h

theorem resolves_cgGetUl (a : ResolveAnswer) (files : List Char → Except Nat (List Char))
    (mem : Int → Char) (parseUl : List Char → Int × Option UInt64) :
    Resolves text cache (cgGetUl text a cache n ctid c name files mem parseUl).2.2 := by
  have h := @resolves_cgGetParam text cache n ctid c name a files 32 mem
  unfold cgGetUl
  generalize cgGetParam text a cache n ctid c name files 32 mem = g at h ⊢
  obtain ⟨r, acc, k⟩ := g
  dsimp only at h ⊢
  split_ifs <;> exact h

theorem resolves_cgEnvGetVeState (a : ResolveAnswer) (accessOk : Bool)
    (files : List Char → Except Nat (List Char)) (mem : Int → Char) :
    Resolves text cache (cgEnvGetVeState text a cache n ctid accessOk files mem).2 := by
  unfold cgEnvGetVeState
  split <;> rename_i heq
  · split_ifs <;> exact resolves_of_cgGetPath heq
  · exact resolves_of_cgGetPath heq

theorem resolves_cgSetVeid (a : ResolveAnswer) (accessOk : Bool) (w : WriteAnswer) (veid : BitVec 32) :
    Resolves text cache (cgSetVeid text a cache n ctid accessOk w veid).2.2 := by
  unfold cgSetVeid
  split <;> rename_i heq
  · split_ifs <;> exact resolves_of_cgGetPath heq
  · exact resolves_of_cgGetPath heq

theorem resolves_cgPseudosuperOpen (a : ResolveAnswer) (openOk : Bool) :
    Resolves text cache (cgPseudosuperOpen text a cache n ctid openOk).2.2 := by
  unfold cgPseudosuperOpen
  split <;> rename_i heq
  · split_ifs <;> exact resolves_of_cgGetPath heq
  · exact resolves_of_cgGetPath heq

theorem resolves_cgEnvGetPids (a : ResolveAnswer) (files : List Char → Except Errno (List Char))
    (r : ReadAnswers) (list : List (List Char)) :
    Resolves text cache (cgEnvGetPids text a cache n ctid files r list).2.2 := by
  unfold cgEnvGetPids
  split <;> rename_i heq
  · split <;> exact resolves_of_cgGetPath heq
  · exact resolves_of_cgGetPath heq

theorem resolves_cgGetVeip (a4 a6 : ResolveAnswer) (files : List Char → Except Errno (List Char))
    (r4 r6 : ReadAnswers) (getIpName : List Char → Int × List Char) (list : List (List Char)) :
    Resolves text cache (cgGetVeip text a4 a6 cache n ctid files r4 r6 getIpName list).2.2 := by
  unfold cgGetVeip
  split <;> rename_i heq
  · have h4 := resolves_of_cgGetPath heq
    repeat' split
    all_goals first
      | exact h4
      | exact h4.trans (resolves_of_cgGetPath ‹cgGetPath _ _ _ _ _ _ _ _ = _›)
  · exact resolves_of_cgGetPath heq

end Calls

/-! ## §3 The loops -/

section Loops

variable {text : List Char} {n : Names} {ctid : Option (List Char)}

theorem resolves_attachCall (a : Ctl → ResolveAnswer) (w : Ctl → WriteAnswer) (pid : BitVec 32)
    (cache : Cache) (c : Ctl) : Resolves text cache (attachCall text a n ctid w pid cache c).2.2 :=
  resolves_cgSetParam _ _ _

theorem resolves_attachLoop (a : Ctl → ResolveAnswer) (w : Ctl → WriteAnswer)
    (except : Option (List Char)) (pid : BitVec 32) :
    ∀ (cs : List Ctl) (cache : Cache),
      Resolves text cache (attachLoop text a n ctid w except pid cs cache).2.2
  | [], _ => Relation.ReflTransGen.refl
  | c :: cs, cache => by
    have ih := resolves_attachLoop a w except pid cs
    have hk : Resolves text cache (attachCall text a n ctid w pid cache c).2.2 :=
      resolves_attachCall a w pid cache c
    unfold attachLoop
    split_ifs
    · exact ih cache
    rcases hcall : attachCall text a n ctid w pid cache c with ⟨r, wr, k⟩
    rw [hcall] at hk
    rcases hl : attachLoop text a n ctid w except pid cs k with ⟨r', wrs, k'⟩
    have ih' := ih k
    rw [hl] at ih'
    simp only [hl]
    split_ifs
    · exact hk
    · exact hk.trans ih'

theorem resolves_setUlSeq (a : Nat → ResolveAnswer) (c : Ctl) (w : Nat → WriteAnswer) :
    ∀ (k : Nat) (items : List (List Char × UInt64)) (cache : Cache),
      Resolves text cache (setUlSeq text a n ctid c w k items cache).2.2
  | _, [], _ => Relation.ReflTransGen.refl
  | k, (name, v) :: items, cache => by
    have hs : Resolves text cache (cgSetUl text (a k) cache n ctid c name v (w k)).2.2 :=
      resolves_cgSetParam _ _ _
    unfold setUlSeq
    rcases hcall : cgSetUl text (a k) cache n ctid c name v (w k) with ⟨r, wr, cache'⟩
    rw [hcall] at hs
    rcases hl : setUlSeq text a n ctid c w (k + 1) items cache' with ⟨r', wrs, cache''⟩
    have ih := resolves_setUlSeq a c w (k + 1) items cache'
    rw [hl] at ih
    simp only [hl]
    split_ifs
    · exact hs
    · exact hs.trans ih

theorem resolves_envParamLoop (ans : Ctl → ResolveAnswer) (ep : Int) :
    ∀ (cs : List Ctl) (cache : Cache) (p : Int) (ws : List (Int × Char)),
      Resolves text cache (envParamLoop text ans n ctid ep cs cache p ws).2.2
  | [], _, _, _ => Relation.ReflTransGen.refl
  | c :: cs, cache, p, ws => by
    have h1 : Resolves text cache (cgGetCtl text (ans c) cache c).2 := resolves_cgGetCtl _ _
    have ih := resolves_envParamLoop ans ep cs (cgGetCtl text (ans c) cache c).2
    unfold envParamLoop
    dsimp only
    split_ifs
    all_goals first | exact h1 | exact h1.trans (ih _ _)

theorem resolves_cgNewLoop (ctid' : List Char) (ans : NewAnswers) :
    ∀ (i : Nat) (cs : List Ctl) (h : Host),
      Resolves text h.cache (cgNewLoop text n ctid' ans i cs h).2.2.cache
  | _, [], _ => Relation.ReflTransGen.refl
  | i, c :: cs, h => by
    have h1 : Resolves text h.cache (cgGetCtl text (ans.resolve c) h.cache c).2 :=
      resolves_cgGetCtl _ _
    have ih := resolves_cgNewLoop ctid' ans (i + 1) cs
    unfold cgNewLoop
    dsimp only
    split_ifs
    all_goals first | exact h1 | exact h1.trans (ih ⟨_, _⟩)

theorem resolves_cgDestroyLoop {fuel : Nat} (ctid' : List Char) (res : Ctl → ResolveAnswer)
    (rm : Ctl → RmAnswers) :
    ∀ (cs : List Ctl) (h : Host) (ret : Nat) (log : List (Ctl × Nat)) {r : Nat} {h' : Host}
      {log' : List (Ctl × Nat)}, cgDestroyLoop fuel text n ctid' res rm cs h ret log = some (r, h', log') →
      Resolves text h.cache h'.cache
  | [], _, _, _, _, _, _, hd => by
    simp only [cgDestroyLoop, Option.some.injEq, Prod.mk.injEq] at hd
    obtain ⟨-, rfl, -⟩ := hd
    exact Relation.ReflTransGen.refl
  | c :: cs, h, ret, log, _, _, _, hd => by
    have h1 : Resolves text h.cache (cgGetCtl text (res c) h.cache c).2 := resolves_cgGetCtl _ _
    unfold cgDestroyLoop at hd
    dsimp only at hd
    split_ifs at hd
    · exact h1.trans (resolves_cgDestroyLoop ctid' res rm cs ⟨_, _⟩ _ _ hd)
    · split at hd
      · cases hd
      · exact h1.trans (resolves_cgDestroyLoop ctid' res rm cs ⟨_, _⟩ _ _ hd)

/-- What `cg_new_cgroup` returns is its loop's result, and the cache is the one the loop
left: the rollback of an error only removes directories. -/
theorem cgNewCgroup_inv {fuel : Nat} {ctid' : List Char} {ans : NewAnswers} {h h' : Host} {r : Int}
    (hn : cgNewCgroup fuel text n ctid' ans h = some (r, h')) :
    (cgNewLoop text n ctid' ans 0 cgCtlMap h).1 = r ∧
      h'.cache = (cgNewLoop text n ctid' ans 0 cgCtlMap h).2.2.cache := by
  unfold cgNewCgroup at hn
  generalize cgNewLoop text n ctid' ans 0 cgCtlMap h = p at hn ⊢
  obtain ⟨ret, i, hh⟩ := p
  dsimp only at hn ⊢
  split_ifs at hn with hret
  · cases hn
    exact ⟨hret, rfl⟩
  · obtain ⟨fs, -, hfs⟩ := Option.map_eq_some'.mp hn
    cases hfs
    exact ⟨rfl, rfl⟩

theorem resolves_cgNewCgroup {fuel : Nat} {ctid' : List Char} {ans : NewAnswers} {h h' : Host} {r : Int}
    (hn : cgNewCgroup fuel text n ctid' ans h = some (r, h')) : Resolves text h.cache h'.cache :=
  (cgNewCgroup_inv hn).2 ▸ resolves_cgNewLoop ctid' ans 0 cgCtlMap h

theorem resolves_cgEnvSetMask (a : Nat → ResolveAnswer) (cache : Cache) (bm : Bitmaps)
    (name : List Char) (cpumask size : Nat) (files : List Char → Except Nat (List Char))
    (mem : Int → Char) (mallocOk : Bool) (w : WriteAnswer) :
    Resolves text cache (cgEnvSetMask text a cache n ctid bm name cpumask size files mem mallocOk w).2.2 := by
  have h0 := @resolves_cgGetParam text cache n (some []) .cpuset (snprintfStr 64 ("cpuset.".toList ++ name))
    (a 0) files 4096 mem
  simp only [cgEnvSetMask]
  generalize snprintfStr 64 ("cpuset.".toList ++ name) = cgName at h0 ⊢
  rcases hg : cgGetParam text (a 0) cache n (some []) .cpuset cgName files 4096 mem with ⟨r, acc, k⟩
  rw [hg] at h0
  dsimp only
  split_ifs
  · exact h0
  · exact h0
  split
  · exact h0
  split_ifs
  · exact h0
  all_goals exact h0.trans (resolves_cgSetParam _ _ _)

theorem resolves_bindLoop (e : BindEnv) (a : BindAnswers) (cgroups : List (List Char)) :
    ∀ (cs : List Ctl) (ret : Int) (cache : Cache) (head : List (List Char)) (log : List Event),
      Resolves text cache (bindLoop e text a cgroups cs ret cache head log).2.1
  | [], _, _, _, _ => Relation.ReflTransGen.refl
  | c :: cs, _, cache, head, log => by
    have h1 : Resolves text cache (cgGetCtl text (a.resolve c) cache c).2 := resolves_cgGetCtl _ _
    have ih := resolves_bindLoop e a cgroups cs
    unfold bindLoop
    rcases hg : cgGetCtl text (a.resolve c) cache c with ⟨r, k⟩
    rw [hg] at h1
    dsimp only
    repeat' split
    all_goals first | exact h1 | exact h1.trans (ih _ _ _ _)

theorem resolves_bindmountEnvCgroup (e : BindEnv) (procCgroups : List Char) (a : BindAnswers)
    (cache : Cache) : Resolves text cache (bindmountEnvCgroup e text procCgroups a cache).2.1 := by
  unfold bindmountEnvCgroup cgBindmountCgroup
  rcases bindSkeleton e procCgroups a with ⟨r, cgroups, log⟩
  have hl := @resolves_bindLoop text e a cgroups cgCtlMap 0 cache [] log
  dsimp only
  split_ifs
  · exact Relation.ReflTransGen.refl
  split <;> simp_all only

theorem resolves_cgDestroyCgroup {fuel : Nat} {ctid' : List Char} {res : Ctl → ResolveAnswer}
    {rm : Ctl → RmAnswers} {h h' : Host} {r : Nat} {log : List (Ctl × Nat)}
    (hd : cgDestroyCgroup fuel text n ctid' res rm h = some (r, h', log)) : Resolves text h.cache h'.cache :=
  resolves_cgDestroyLoop ctid' res rm cgCtlMap h 0 [] hd

end Loops

/-! ## §4 The library's steps

One constructor per function of the model that hands the cache on, with every argument and
every answer free: a step is any one call of it. -/

/-- One call of an entry point from `cache`, and the cache it leaves. -/
inductive LibStep (text : List Char) : Cache → Cache → Prop
  | getPath (cache : Cache) (a : ResolveAnswer) (n : Names) (ctid : Option (List Char)) (c : Ctl)
      (name : List Char) (size : Nat) :
      LibStep text cache (cgGetPath text a cache n ctid c name size).2.2
  | setParam (cache : Cache) (a : ResolveAnswer) (n : Names) (ctid : Option (List Char)) (c : Ctl)
      (name data : List Char) (w : WriteAnswer) :
      LibStep text cache (cgSetParam text a cache n ctid c name data w).2.2
  | getParam (cache : Cache) (a : ResolveAnswer) (n : Names) (ctid : Option (List Char)) (c : Ctl)
      (name : List Char) (files : List Char → Except Nat (List Char)) (size : Nat)
      (mem : Int → Char) :
      LibStep text cache (cgGetParam text a cache n ctid c name files size mem).2.2
  | getUll (cache : Cache) (a : ResolveAnswer) (n : Names) (ctid : Option (List Char)) (c : Ctl)
      (name : List Char) (files : List Char → Except Nat (List Char)) (mem : Int → Char) :
      LibStep text cache (cgGetUll text a cache n ctid c name files mem).2.2
  | getUl (cache : Cache) (a : ResolveAnswer) (n : Names) (ctid : Option (List Char)) (c : Ctl)
      (name : List Char) (files : List Char → Except Nat (List Char)) (mem : Int → Char)
      (parseUl : List Char → Int × Option UInt64) :
      LibStep text cache (cgGetUl text a cache n ctid c name files mem parseUl).2.2
  | setUlSeq (cache : Cache) (a : Nat → ResolveAnswer) (n : Names) (ctid : Option (List Char))
      (c : Ctl) (w : Nat → WriteAnswer) (k : Nat) (items : List (List Char × UInt64)) :
      LibStep text cache (setUlSeq text a n ctid c w k items cache).2.2
  | setMask (cache : Cache) (a : Nat → ResolveAnswer) (n : Names) (ctid : Option (List Char))
      (bm : Bitmaps) (name : List Char) (cpumask size : Nat)
      (files : List Char → Except Nat (List Char)) (mem : Int → Char) (mallocOk : Bool)
      (w : WriteAnswer) :
      LibStep text cache (cgEnvSetMask text a cache n ctid bm name cpumask size files mem mallocOk w).2.2
  | attachTask (cache : Cache) (a : Ctl → ResolveAnswer) (n : Names) (ctid : Option (List Char))
      (w : Ctl → WriteAnswer) (except : Option (List Char)) (pid : BitVec 32) :
      LibStep text cache (cgAttachTask text a n ctid w except pid cache).2.2
  | getVeState (cache : Cache) (a : ResolveAnswer) (n : Names) (ctid : Option (List Char))
      (accessOk : Bool) (files : List Char → Except Nat (List Char)) (mem : Int → Char) :
      LibStep text cache (cgEnvGetVeState text a cache n ctid accessOk files mem).2
  | setVeid (cache : Cache) (a : ResolveAnswer) (n : Names) (ctid : Option (List Char))
      (accessOk : Bool) (w : WriteAnswer) (veid : BitVec 32) :
      LibStep text cache (cgSetVeid text a cache n ctid accessOk w veid).2.2
  | pseudosuperOpen (cache : Cache) (a : ResolveAnswer) (n : Names) (ctid : Option (List Char))
      (openOk : Bool) :
      LibStep text cache (cgPseudosuperOpen text a cache n ctid openOk).2.2
  | getPids (cache : Cache) (a : ResolveAnswer) (n : Names) (ctid : Option (List Char))
      (files : List Char → Except Errno (List Char)) (r : ReadAnswers) (list : List (List Char)) :
      LibStep text cache (cgEnvGetPids text a cache n ctid files r list).2.2
  | getVeip (cache : Cache) (a4 a6 : ResolveAnswer) (n : Names) (ctid : Option (List Char))
      (files : List Char → Except Errno (List Char)) (r4 r6 : ReadAnswers)
      (getIpName : List Char → Int × List Char) (list : List (List Char)) :
      LibStep text cache (cgGetVeip text a4 a6 cache n ctid files r4 r6 getIpName list).2.2
  | envParam (cache : Cache) (ans : Ctl → ResolveAnswer) (n : Names) (ctid : Option (List Char))
      (size : Nat) :
      LibStep text cache (cgGetCgroupEnvParam text ans n cache ctid size).2.2
  | newCgroup (fuel : Nat) (fs : Fs) (cache : Cache) (n : Names) (ctid : List Char) (ans : NewAnswers)
      (r : Int) (h' : Host) (hn : cgNewCgroup fuel text n ctid ans ⟨fs, cache⟩ = some (r, h')) :
      LibStep text cache h'.cache
  | destroyCgroup (fuel : Nat) (fs : Fs) (cache : Cache) (n : Names) (ctid : List Char)
      (res : Ctl → ResolveAnswer) (rm : Ctl → RmAnswers) (r : Nat) (h' : Host)
      (log : List (Ctl × Nat))
      (hd : cgDestroyCgroup fuel text n ctid res rm ⟨fs, cache⟩ = some (r, h', log)) :
      LibStep text cache h'.cache
  | bindmount (cache : Cache) (e : BindEnv) (procCgroups : List Char) (a : BindAnswers) :
      LibStep text cache (bindmountEnvCgroup e text procCgroups a cache).2.1

/-- Every step of the library is a run of `cg_get_ctl`. -/
theorem LibStep.resolves {text : List Char} {cache cache' : Cache} (h : LibStep text cache cache') :
    Resolves text cache cache' := by
  cases h with
  | getPath => exact resolves_cgGetPath _ _
  | setParam => exact resolves_cgSetParam _ _ _
  | getParam => exact resolves_cgGetParam _ _ _ _
  | getUll => exact resolves_cgGetUll _ _ _
  | getUl => exact resolves_cgGetUl _ _ _ _
  | setUlSeq => exact resolves_setUlSeq _ _ _ _ _ _
  | setMask => exact resolves_cgEnvSetMask _ _ _ _ _ _ _ _ _ _
  | attachTask => exact resolves_attachLoop _ _ _ _ _ _
  | getVeState => exact resolves_cgEnvGetVeState _ _ _ _
  | setVeid => exact resolves_cgSetVeid _ _ _ _
  | pseudosuperOpen => exact resolves_cgPseudosuperOpen _ _
  | getPids => exact resolves_cgEnvGetPids _ _ _ _
  | getVeip => exact resolves_cgGetVeip _ _ _ _ _ _ _
  | envParam => exact resolves_envParamLoop _ _ _ _ _ _
  | newCgroup _ _ _ _ _ _ _ _ hn => exact resolves_cgNewCgroup hn
  | destroyCgroup _ _ _ _ _ _ _ _ _ _ hd => exact resolves_cgDestroyCgroup hd
  | bindmount => exact resolves_bindmountEnvCgroup _ _ _ _

/-- Every run of the library is a run of `cg_get_ctl`. -/
theorem LibStep.run_resolves {text : List Char} {cache cache' : Cache}
    (h : Relation.ReflTransGen (LibStep text) cache cache') : Resolves text cache cache' :=
  Relation.ReflTransGen.lift' id (fun _ _ hs => hs.resolves) h

/-! ## §5 The cache over a whole run -/

/-- **The resolver cache over any run of the library.** From the start of the process, along
any sequence of calls of the library's entry points, with any answers from the system and the
mount table unchanged: every `mount_path` set is the table's answer for its controller, and
any further calls leave it as it is. -/
theorem library_cache (text : List Char) {cache : Cache}
    (h : Relation.ReflTransGen (LibStep text) Cache.empty cache) {c : Ctl} {p : List Char}
    (hc : cache c = some p) :
    resolvedPath text c = some p ∧
      ∀ cache', Relation.ReflTransGen (LibStep text) cache cache' → cache' c = some p :=
  ⟨LibStep.run_resolves h |>.sound (fun _ _ h0 => nomatch h0) c p hc,
    fun _ h' => (LibStep.run_resolves h').stable hc⟩

/-- `cg_attach_task` from the start, with only `cpu` mounted at `/c`: the walk resolves `cpu`,
and `/c` stays its entry whatever the library does next. -/
theorem library_cache_attach :
    let k := (cgAttachTask cpuTable (fun _ => {}) ⟨cgGetSliceName none, [], []⟩ (some "101".toList)
      (fun _ => {}) none 42 Cache.empty).2.2
    Relation.ReflTransGen (LibStep cpuTable) Cache.empty k ∧ k .cpu = some "/c".toList ∧
      resolvedPath cpuTable .cpu = some "/c".toList ∧
        ∀ cache', Relation.ReflTransGen (LibStep cpuTable) k cache' → cache' .cpu = some "/c".toList :=
  have hrun := Relation.ReflTransGen.single (LibStep.attachTask Cache.empty _ _ _ _ _ _)
  have hc : _ = some "/c".toList := by decide
  ⟨hrun, hc, library_cache cpuTable hrun hc⟩

/-- **The files the library addresses.** After any run of the library from the start of the
process, a `cg_get_path` that answers `0` has built its path on the mount point the table
gives the controller: `<mount>/<name>` without a container, `<cgroup of ctid>/<name>` with
one. The `""` that stands in for an unset `mount_path` is never used. -/
theorem library_cgGetPath {text : List Char} {cache cache' : Cache} {a : ResolveAnswer} {n : Names}
    {ctid : Option (List Char)} {c : Ctl} {name : List Char} {size : Nat} {path : List Char}
    (h0 : Relation.ReflTransGen (LibStep text) Cache.empty cache)
    (h : cgGetPath text a cache n ctid c name size = (0, some path, cache')) :
    ∃ mp, resolvedPath text c = some mp ∧
      path = snprintfStr size
        ((match ctid with | none => mp | some id => getCgroupName n id mp c) ++ '/' :: name) := by
  have hs : CacheSound text cache := (LibStep.run_resolves h0).sound fun _ _ h => nomatch h
  rcases cgGetCtl_cases text a cache c with ⟨p, hq, hp⟩ | ⟨hq, -⟩ | ⟨hq, -⟩
  · refine ⟨p, hp.elim (hs c p) And.right, ?_⟩
    simp only [cgGetPath, hq, ne_eq, not_true_eq_false, if_false, Function.update_same,
      Option.getD_some] at h
    cases ctid <;> simp only [Prod.mk.injEq, Option.some.injEq] at h <;> exact h.2.1.symm
  all_goals simp [cgGetPath, hq] at h

/-- The `tasks` file of container `101` under `cpu`, mounted at `/c`, from the start. -/
theorem library_cgGetPath_cpuTable :
    ∃ cache', cgGetPath cpuTable {} Cache.empty ⟨cgGetSliceName none, [], []⟩ (some "101".toList) .cpu
        "tasks".toList pathMax = (0, some "/c/machine.slice/101/tasks".toList, cache') ∧
      ∃ mp, resolvedPath cpuTable .cpu = some mp ∧
        "/c/machine.slice/101/tasks".toList = snprintfStr pathMax
          (getCgroupName ⟨cgGetSliceName none, [], []⟩ "101".toList mp .cpu ++ '/' :: "tasks".toList) := by
  obtain ⟨cache', h⟩ : ∃ cache', cgGetPath cpuTable {} Cache.empty ⟨cgGetSliceName none, [], []⟩
      (some "101".toList) .cpu "tasks".toList pathMax =
        (0, some "/c/machine.slice/101/tasks".toList, cache') := ⟨_, rfl⟩
  exact ⟨cache', h, library_cgGetPath .refl h⟩

/-! ## §6 After a successful `cg_new_cgroup`

`cg_new_cgroup` resolves every controller of the table and returns `0` only if none of
them answered `-1`. Each then holds the table's answer: its path, or `NULL` for a
controller the table does not mount. From a sound cache such an entry never changes, so
from then on the cache is the table's map, and `cg_get_ctl` of a mounted controller
answers `0` from the cache whatever the system would answer. -/

section Complete

variable {text : List Char} {n : Names}

/-- A `cg_get_ctl` from a sound cache that does not fail leaves the table's answer at its
controller. -/
theorem cgGetCtl_agree {a : ResolveAnswer} {cache : Cache} {c : Ctl} (hs : CacheSound text cache)
    (hr : (cgGetCtl text a cache c).1 ≠ -1) : (cgGetCtl text a cache c).2 c = resolvedPath text c := by
  rcases cgGetCtl_cases text a cache c with ⟨p, hq, hp | ⟨-, hp⟩⟩ | ⟨hq, hn, hp⟩ | ⟨hq, -⟩
  · simp only [hq, Function.update_same, hs c p hp]
  · simp only [hq, Function.update_same, hp]
  · simp only [hq, hn, hp]
  · exact absurd (by rw [hq]) hr

/-- **Agreement along a run.** From a sound cache, an entry that holds the table's answer
holds it after any run: a path set stays, and an entry the table leaves unresolved is never
set. -/
theorem Resolves.agree {cache cache' : Cache} (h : Resolves text cache cache')
    (hs : CacheSound text cache) {c : Ctl} (hc : cache c = resolvedPath text c) :
    cache' c = resolvedPath text c := by
  rcases hq : cache c with _ | p
  · rw [hq] at hc
    rw [← hc, Option.eq_none_iff_forall_not_mem]
    intro p hp
    rw [h.sound hs c p hp] at hc
    cases hc
  · rw [h.stable hq, ← hq, hc]

theorem cgNewLoop_agree (ctid : List Char) (ans : NewAnswers) :
    ∀ (i : Nat) (cs : List Ctl) (h : Host), CacheSound text h.cache →
      (cgNewLoop text n ctid ans i cs h).1 = 0 →
      ∀ c ∈ cs, (cgNewLoop text n ctid ans i cs h).2.2.cache c = resolvedPath text c
  | _, [], _, _, _ => fun _ hc => nomatch hc
  | i, c :: cs, h, hs, h0 => by
    have hs' : CacheSound text (cgGetCtl text (ans.resolve c) h.cache c).2 := cacheSound_cgGetCtl hs
    have hnext : ∀ fs : Fs, (cgGetCtl text (ans.resolve c) h.cache c).1 ≠ -1 →
        (cgNewLoop text n ctid ans (i + 1) cs ⟨fs, (cgGetCtl text (ans.resolve c) h.cache c).2⟩).1 = 0 →
        ∀ c' ∈ c :: cs, (cgNewLoop text n ctid ans (i + 1) cs
          ⟨fs, (cgGetCtl text (ans.resolve c) h.cache c).2⟩).2.2.cache c' = resolvedPath text c' := by
      intro fs hr hl c' hc'
      rcases List.mem_cons.mp hc' with rfl | hc'
      · exact (resolves_cgNewLoop ctid ans (i + 1) cs ⟨fs, _⟩).agree hs' (cgGetCtl_agree hs hr)
      · exact cgNewLoop_agree ctid ans (i + 1) cs ⟨fs, _⟩ hs' hl c' hc'
    unfold cgNewLoop at h0 ⊢
    dsimp only at h0 ⊢
    split_ifs at h0 ⊢ with h1 h2 h3
    · cases h0
    · exact hnext h.fs h1 h0
    · exact absurd h0 h3
    · exact hnext _ h1 h0

/-- `cg_new_cgroup` returning `0` from a sound cache leaves the table's answer in every
entry. -/
theorem cgNewCgroup_agree {fuel : Nat} {ctid : List Char} {ans : NewAnswers} {h h' : Host}
    (hs : CacheSound text h.cache) (hn : cgNewCgroup fuel text n ctid ans h = some (0, h')) (c : Ctl) :
    h'.cache c = resolvedPath text c := by
  obtain ⟨h0, hc⟩ := cgNewCgroup_inv hn
  rw [hc]
  exact cgNewLoop_agree ctid ans 0 cgCtlMap h hs h0 c (mem_cgCtlMap c)

/-- **After a successful `cg_new_cgroup`.** In a run of the library from the start of the
process, once `cg_new_cgroup` has returned `0`, every later cache holds the mount table's
answer for every controller, and `cg_get_ctl` of a controller the table mounts answers `0`
without a change, whatever the system would answer. -/
theorem cgNewCgroup_cache_complete {fuel : Nat} {ctid : List Char} {ans : NewAnswers} {h h' : Host}
    {k : Cache} (h0 : Relation.ReflTransGen (LibStep text) Cache.empty h.cache)
    (hn : cgNewCgroup fuel text n ctid ans h = some (0, h'))
    (hk : Relation.ReflTransGen (LibStep text) h'.cache k) (c : Ctl) :
    k c = resolvedPath text c ∧
      ∀ a p, resolvedPath text c = some p → cgGetCtl text a k c = (0, k) := by
  have hs : CacheSound text h.cache := (LibStep.run_resolves h0).sound fun _ _ h => nomatch h
  have hk' : k c = resolvedPath text c :=
    (LibStep.run_resolves hk).agree ((resolves_cgNewCgroup hn).sound hs) (cgNewCgroup_agree hs hn c)
  refine ⟨hk', fun a p hp => ?_⟩
  simp only [cgGetCtl, hk', hp]

/-- Container `a` created on a host with `cpu` and `cpuset` mounted: `cpuset`'s entry is
`/c/cpuset`, and `cg_get_ctl` answers `0` from it even with `/proc/mounts` unreadable. -/
theorem cgNewCgroup_cache_complete_twoMounts :
    ∃ h', cgNewCgroup (rmTreeFuel mountsFs) twoMounts ⟨cgGetSliceName none, [], []⟩ "a".toList {} ⟨mountsFs, Cache.empty⟩ =
        some (0, h') ∧
      h'.cache .cpuset = resolvedPath twoMounts .cpuset ∧
        ∀ a p, resolvedPath twoMounts .cpuset = some p → cgGetCtl twoMounts a h'.cache .cpuset = (0, h'.cache) := by
  obtain ⟨h', hn⟩ : ∃ h', cgNewCgroup (rmTreeFuel mountsFs) twoMounts ⟨cgGetSliceName none, [], []⟩ "a".toList {}
      ⟨mountsFs, Cache.empty⟩ = some (0, h') := ⟨_, rfl⟩
  exact ⟨h', hn, cgNewCgroup_cache_complete .refl hn .refl .cpuset⟩

/-- From a cache that holds the table's answer for `c`, with `/proc/mounts` opening and the
write succeeding, the `cg_set_ul` of `cg_attach_task` for `c` writes the pid to the `tasks`
file of the container's group when the table mounts `c`, and answers `1` otherwise; the
cache stays. -/
theorem attachCall_of_agree {a : Ctl → ResolveAnswer} {ctid : List Char} {pid : BitVec 32}
    {k : Cache} {c : Ctl} (hkc : k c = resolvedPath text c) (ha : (a c).mountsOpen = true) :
    attachCall text a n (some ctid) (fun _ => {}) pid k c =
      match resolvedPath text c with
      | some mp => (0, some (snprintfStr pathMax (getCgroupName n ctid mp c ++ '/' :: "tasks".toList),
          Nat.toDigits 10 (pid.toInt % 2 ^ 64).toNat), k)
      | none => (1, none, k) := by
  rcases hr : resolvedPath text c with _ | mp
  · rw [hr] at hkc
    simp only [attachCall, cgSetUl, cgSetParam, cgGetPath_unresolved hr hkc, ha, if_true]
  · rw [hr] at hkc
    have hctl : cgGetCtl text (a c) k c = (0, k) := by simp [cgGetCtl, hkc]
    have hcall : attachCall text a n (some ctid) (fun _ => {}) pid k c =
        (0, some (snprintfStr pathMax (getCgroupName n ctid mp c ++ '/' :: "tasks".toList),
          cstr (formatDecimal 32 (pidValue pid).toNat)), k) := by
      simp [attachCall, cgSetUl, cgSetParam, cgGetPath, hctl, hkc, writeData]
    rw [hcall, ← attachCall_write (congrArg (fun r => r.2.1) hcall)]

/-- The walk of `cg_attach_task` over controllers that all answer other than `-1` and leave
the cache as it is: `0`, the writes of those it does not pass over, and the cache. -/
theorem attachLoop_of_calls {a : Ctl → ResolveAnswer} {ctid : Option (List Char)}
    {w : Ctl → WriteAnswer} {except : Option (List Char)} {pid : BitVec 32} {k : Cache} :
    ∀ cs : List Ctl, (∀ c ∈ cs, (attachCall text a n ctid w pid k c).1 ≠ -1 ∧
        (attachCall text a n ctid w pid k c).2.2 = k) →
      attachLoop text a n ctid w except pid cs k =
        (0, (cs.filter fun c => !attachSkips except c).filterMap
          (fun c => (attachCall text a n ctid w pid k c).2.1), k)
  | [], _ => rfl
  | c :: cs, hcs => by
    have ih := @attachLoop_of_calls a ctid w except pid k cs fun c' h =>
      hcs c' (List.mem_cons_of_mem _ h)
    obtain ⟨hr, hk⟩ := hcs c (List.mem_cons_self _ _)
    unfold attachLoop
    by_cases hs : attachSkips except c
    · simp [hs, ih]
    rcases hcall : attachCall text a n ctid w pid k c with ⟨r, wr, k'⟩
    rw [hcall] at hr hk
    subst hk
    rcases wr with _ | wr <;> simp [hs, hr, ih, hcall]

/-- **`cg_attach_task` after `cg_new_cgroup`.** In a run of the library from the start of
the process, once `cg_new_cgroup` has returned `0` for `ctid`, a later `cg_attach_task`, with
`/proc/mounts` opening and every write succeeding, returns `0`: it writes the pid to the
`tasks` file of the container's group under every controller the table mounts, but the one
passed over, in table order, and leaves the cache as it is. -/
theorem cgAttachTask_after_new {fuel : Nat} {ctid : List Char} {ans : NewAnswers} {h h' : Host} {k : Cache}
    {a : Ctl → ResolveAnswer} {except : Option (List Char)} {pid : BitVec 32}
    (h0 : Relation.ReflTransGen (LibStep text) Cache.empty h.cache)
    (hn : cgNewCgroup fuel text n ctid ans h = some (0, h'))
    (hk : Relation.ReflTransGen (LibStep text) h'.cache k) (ha : ∀ c, (a c).mountsOpen = true) :
    cgAttachTask text a n (some ctid) (fun _ => {}) except pid k =
      (0, (cgCtlMap.filter fun c => !attachSkips except c).filterMap (fun c =>
          (resolvedPath text c).map fun mp =>
            (snprintfStr pathMax (getCgroupName n ctid mp c ++ '/' :: "tasks".toList),
              Nat.toDigits 10 (pid.toInt % 2 ^ 64).toNat)), k) := by
  have hs : CacheSound text h.cache := (LibStep.run_resolves h0).sound fun _ _ h => nomatch h
  have hkc : ∀ c, k c = resolvedPath text c := fun c =>
    (LibStep.run_resolves hk).agree ((resolves_cgNewCgroup hn).sound hs) (cgNewCgroup_agree hs hn c)
  have hcall := fun c => @attachCall_of_agree text n a ctid pid k c (hkc c) (ha c)
  rw [cgAttachTask, attachLoop_of_calls cgCtlMap fun c _ => by
    rw [hcall c]; split <;> exact ⟨by simp, rfl⟩]
  congr 2
  refine List.filterMap_congr fun c _ => ?_
  rw [hcall c]
  split <;> simp_all

/-- Container `a` created on the host with `cpu` and `cpuset` mounted, then task `42`
attached. -/
theorem cgAttachTask_after_new_twoMounts :
    ∃ h', cgNewCgroup (rmTreeFuel mountsFs) twoMounts ⟨cgGetSliceName none, [], []⟩ "a".toList {} ⟨mountsFs, Cache.empty⟩ =
        some (0, h') ∧
      cgAttachTask twoMounts (fun _ => {}) ⟨cgGetSliceName none, [], []⟩ (some "a".toList) (fun _ => {})
          none 42 h'.cache =
        (0, (cgCtlMap.filter fun c => !attachSkips none c).filterMap (fun c =>
            (resolvedPath twoMounts c).map fun mp =>
              (snprintfStr pathMax (getCgroupName ⟨cgGetSliceName none, [], []⟩ "a".toList mp c ++
                '/' :: "tasks".toList), Nat.toDigits 10 ((42 : BitVec 32).toInt % 2 ^ 64).toNat)),
          h'.cache) := by
  obtain ⟨h', hn⟩ : ∃ h', cgNewCgroup (rmTreeFuel mountsFs) twoMounts ⟨cgGetSliceName none, [], []⟩ "a".toList {}
      ⟨mountsFs, Cache.empty⟩ = some (0, h') := ⟨_, rfl⟩
  exact ⟨h', hn, cgAttachTask_after_new .refl hn .refl fun _ => rfl⟩

end Complete

/-! ## §7 Threads

The model of `cg_get_ctl` under `cg_ctl_map_mtx` (`Mtx`) lets each scan read the mount table
as it stands at that step. When every scan reads the same table, an interleaved run changes
the fields as a run of `cg_get_ctl` calls on that table does: the soundness and the
set-once results above hold under every interleaving of threads. -/

namespace Mtx

/-- Every thread past its scan read the table `text`. -/
def ScansRead (text : List Char) (pc : Nat → Pc) : Prop :=
  ∀ t text', pc t = .scanned text' → text' = text

section Scans

variable {ctl : Nat → Ctl} {ans : Nat → ResolveAnswer} {text : List Char} {w w' : World}

theorem ScansRead.update {pc : Nat → Pc} (h : ScansRead text pc) {t : Nat} {p : Pc}
    (hp : ∀ text', p = .scanned text' → text' = text) : ScansRead text (Function.update pc t p) := by
  intro u text' hu
  by_cases hut : u = t
  · subst hut
    exact hp text' (by rwa [Function.update_same] at hu)
  · exact h u text' (by rwa [Function.update_noteq hut] at hu)

/-- **One step of the threads.** A step whose scan, if it is one, reads `text`, from a world
whose scanned threads read `text`, changes the fields by a run of `cg_get_ctl` on `text`:
only a store changes them, and it is the `cgGetCtl` of the table its thread scanned. -/
theorem Inv.step_resolves {a : Act} (hinv : Inv ctl w) (hsc : ScansRead text w.pc)
    (ha : ∀ t text', a = .scan t text' → text' = text) (h : step ctl ans w a = some w') :
    Resolves text w.cache w'.cache ∧ ScansRead text w'.pc := by
  cases a with
  | lock t =>
    obtain ⟨-, -, rfl⟩ := step_lock.mp h
    exact ⟨.refl, hsc.update fun _ h => Pc.noConfusion h⟩
  | hit t =>
    obtain ⟨-, -, rfl⟩ := step_hit.mp h
    exact ⟨.refl, hsc.update fun _ h => Pc.noConfusion h⟩
  | scan t text₀ =>
    obtain ⟨-, -, rfl⟩ := step_scan.mp h
    exact ⟨.refl, hsc.update fun _ h => (Pc.scanned.inj h).symm ▸ ha t text₀ rfl⟩
  | store t =>
    obtain ⟨text₀, hs₀, rfl⟩ := step_store.mp h
    obtain rfl := hsc t text₀ hs₀
    refine ⟨?_, hsc.update fun _ h => Pc.noConfusion h⟩
    rw [← cgGetCtl_of_none (hinv.scanned t text₀ hs₀)]
    exact resolves_cgGetCtl _ _
  | unlock t =>
    obtain ⟨-, -, rfl⟩ := step_unlock.mp h
    exact ⟨.refl, hsc.update fun _ h => Pc.noConfusion h⟩

theorem run_resolves {acts : List Act} (hinv : Inv ctl w) (hsc : ScansRead text w.pc)
    (ha : ∀ t text', Act.scan t text' ∈ acts → text' = text) (h : run ctl ans w acts = some w') :
    Resolves text w.cache w'.cache := by
  induction acts generalizing w with
  | nil => exact Option.some.inj h ▸ .refl
  | cons a as ih =>
    obtain ⟨w₁, h₁, hrun⟩ := run_cons.mp h
    obtain ⟨hr, hsc₁⟩ := hinv.step_resolves hsc (fun t text' he => ha t text' (he ▸ List.mem_cons_self _ _)) h₁
    exact hr.trans (ih (hinv.of_step h₁) hsc₁ (fun t text' hm => ha t text' (List.mem_cons_of_mem _ hm)) hrun)

/-- **The fields under every interleaving.** From the start of the process, in any
interleaving of threads calling `cg_get_ctl` whose scans all read the mount table `text`,
every `mount_path` set is the table's answer for its controller, and it stays so through any
further interleaving of such calls. -/
theorem run_cacheSound {acts acts' : List Act} {w'' : World}
    (ha : ∀ t text', Act.scan t text' ∈ acts → text' = text)
    (h : run ctl ans (World.start Cache.empty) acts = some w') (h' : run ctl ans w' acts' = some w'')
    {c : Ctl} {p : List Char} (hc : w'.cache c = some p) :
    resolvedPath text c = some p ∧ w''.cache c = some p := by
  have hsc : ScansRead text (World.start Cache.empty).pc := fun _ _ h => Pc.noConfusion h
  have hr : Resolves text Cache.empty w'.cache :=
    run_resolves (Inv.start _) hsc ha h
  exact ⟨hr.sound (fun _ _ h => nomatch h) c p hc,
    run_cache_stable ((Inv.start Cache.empty).of_run h) h' hc⟩

/-- One thread resolving `cpu` under `cpuTable`: the field it sets is `/c`. -/
theorem run_cacheSound_cpuTable :
    ∃ w', run (fun _ => .cpu) (fun _ => {}) (World.start Cache.empty)
        [.lock 0, .scan 0 cpuTable, .store 0, .unlock 0] = some w' ∧ w'.cache .cpu = some "/c".toList ∧
      resolvedPath cpuTable .cpu = some "/c".toList ∧ w'.cache .cpu = some "/c".toList :=
  have h : run (fun _ => Ctl.cpu) (fun _ => {}) (World.start Cache.empty)
      [.lock 0, .scan 0 cpuTable, .store 0, .unlock 0] = some _ := rfl
  ⟨_, h, rfl, run_cacheSound (fun t text' hm => by simp at hm; exact hm.2) h (rfl : run _ _ _ [] = _) rfl⟩

end Scans

end Mtx

end VzCgroup
