import VzCgroup.Resolver

/-!
# VzCgroup — `cg_get_ctl` under `cg_ctl_map_mtx`, over every interleaving

The `mount_path` fields of `cg_ctl_map` are the one state of `cgroup.c` that threads share.
`cg_get_ctl` takes the one mutex `cg_ctl_map_mtx`, tests the field, and only while it is
`NULL` calls `get_mount_path` to scan `/proc/mounts` and `xstrdup`s what it found into the
field; then it releases the mutex. Its callers (`cg_get_path`) read the field after the
release.

A thread's place in that code is a `Mtx.Pc`; a run is any interleaving of the threads' steps
(`Mtx.step`, `Mtx.run`), and each scan reads the mount table as it is at that step, so the
table may change between scans. The module supplies, for every run:

* **the mutex invariant** (`Mtx.Inv`, kept by every step, `Mtx.Inv.run`): at most one
  thread is between `pthread_mutex_lock` and `pthread_mutex_unlock`, a thread past its scan
  still finds the field `NULL`, and a thread that returned `0` finds it set;
* **set once** (`Mtx.run_cache_stable`): a stored mount path is never changed;
* **linearizability** (`Mtx.run_refines`): the run is a sequence of atomic `cgGetCtl` calls,
  one per call that got past its test or its store, each with the table its scan read;
* **one scan** (`Mtx.run_scans_le_one`, `Mtx.one_scan_of_returned`): once a scan has
  succeeded no thread scans that controller again, so with scans that succeed the table is
  scanned once per controller, and exactly once when any caller has returned.
-/

namespace VzCgroup

/-! ## §1 — the code after `get_mount_path` -/

/-- What `cg_get_ctl` does once `get_mount_path` has read the mount table `text` (or failed
to open it): its `1` or `-1`, `-1` when `xstrdup` fails, or `0` with the field set. -/
def afterScan (a : ResolveAnswer) (c : Ctl) (text : List Char) (cache : Cache) : Int × Cache :=
  match getMountPath c.subsys (if a.mountsOpen then some text else none) with
  | (0, some p) => if a.strdupOk then (0, Function.update cache c (some p)) else (-1, cache)
  | (r, _) => (r, cache)

/-- `afterScan` is the `NULL` branch of `cgGetCtl`. -/
theorem cgGetCtl_of_none {text : List Char} {a : ResolveAnswer} {cache : Cache} {c : Ctl}
    (h : cache c = none) : cgGetCtl text a cache c = afterScan a c text cache := by
  simp only [cgGetCtl, h]
  rfl

namespace Mtx

/-! ## §2 — threads, the mutex and the fields -/

/-- Where a thread is in `cg_get_ctl`. -/
inductive Pc where
  /-- Before `pthread_mutex_lock`. -/
  | idle
  /-- Holding the mutex, at the test of `mount_path`. -/
  | locked
  /-- Holding the mutex, `get_mount_path` having read the mount table `text`. -/
  | scanned (text : List Char)
  /-- Holding the mutex, at `out:` with `ret`. -/
  | leaving (ret : Int)
  /-- Returned `ret`, the mutex released. -/
  | returned (ret : Int)
  deriving DecidableEq, Repr

/-- Between `pthread_mutex_lock` and `pthread_mutex_unlock`. -/
def Pc.holds : Pc → Bool
  | .locked | .scanned _ | .leaving _ => true
  | _ => false

/-- What the call has returned, once it is past its test or its store. -/
def Pc.ret : Pc → Option Int
  | .leaving r | .returned r => some r
  | _ => none

@[simp] theorem Pc.holds_idle : Pc.idle.holds = false := rfl
@[simp] theorem Pc.holds_locked : Pc.locked.holds = true := rfl
@[simp] theorem Pc.holds_scanned (text : List Char) : (Pc.scanned text).holds = true := rfl
@[simp] theorem Pc.holds_leaving (r : Int) : (Pc.leaving r).holds = true := rfl
@[simp] theorem Pc.holds_returned (r : Int) : (Pc.returned r).holds = false := rfl

/-- The shared state: the `mount_path` fields, the thread holding `cg_ctl_map_mtx`, and
where each thread is. -/
structure World where
  cache : Cache
  holder : Option Nat
  pc : Nat → Pc

/-- The process before any call: the fields as `cache`, the mutex free. -/
def World.start (cache : Cache) : World := ⟨cache, none, fun _ => .idle⟩

/-- One step of one thread. -/
inductive Act where
  /-- `pthread_mutex_lock` returns. -/
  | lock (t : Nat)
  /-- The test finds `mount_path` set. -/
  | hit (t : Nat)
  /-- The test finds it `NULL`, and `get_mount_path` reads the table `text`. -/
  | scan (t : Nat) (text : List Char)
  /-- The code after `get_mount_path`. -/
  | store (t : Nat)
  /-- `pthread_mutex_unlock`, and the return. -/
  | unlock (t : Nat)
  deriving DecidableEq, Repr

/-- The step is a scan of the controller `c`. -/
def Act.scansFor (ctl : Nat → Ctl) (c : Ctl) : Act → Bool
  | .scan t _ => ctl t = c
  | _ => false

section Steps

variable (ctl : Nat → Ctl) (ans : Nat → ResolveAnswer)

/-- A step of thread `t`, calling `cg_get_ctl` for `ctl t` with the answers `ans t`; `none`
when `t` cannot take it (a `pthread_mutex_lock` blocks while another thread holds the
mutex). -/
def step (w : World) : Act → Option World
  | .lock t =>
    if w.holder = none ∧ w.pc t = .idle then
      some { w with holder := some t, pc := Function.update w.pc t .locked }
    else none
  | .hit t =>
    if w.pc t = .locked ∧ (w.cache (ctl t)).isSome then
      some { w with pc := Function.update w.pc t (.leaving 0) }
    else none
  | .scan t text =>
    if w.pc t = .locked ∧ w.cache (ctl t) = none then
      some { w with pc := Function.update w.pc t (.scanned text) }
    else none
  | .store t =>
    match w.pc t with
    | .scanned text =>
      let res := afterScan (ans t) (ctl t) text w.cache
      some { w with cache := res.2, pc := Function.update w.pc t (.leaving res.1) }
    | _ => none
  | .unlock t =>
    match w.pc t with
    | .leaving r => some { w with holder := none, pc := Function.update w.pc t (.returned r) }
    | _ => none

/-- An interleaving of steps. -/
def run (w : World) : List Act → Option World
  | [] => some w
  | a :: as => (step ctl ans w a).bind fun w' => run w' as

end Steps

variable {ctl : Nat → Ctl} {ans : Nat → ResolveAnswer} {w w' : World} {t : Nat}

theorem run_cons {a : Act} {as : List Act} :
    run ctl ans w (a :: as) = some w' ↔ ∃ w₁, step ctl ans w a = some w₁ ∧ run ctl ans w₁ as = some w' :=
  Option.bind_eq_some

/-! ## §3 — what each step does -/

theorem step_lock : step ctl ans w (.lock t) = some w' ↔
    w.holder = none ∧ w.pc t = .idle ∧
      { w with holder := some t, pc := Function.update w.pc t .locked } = w' := by
  simp only [step, Option.ite_none_right_eq_some, Option.some.injEq, and_assoc]

theorem step_hit : step ctl ans w (.hit t) = some w' ↔
    w.pc t = .locked ∧ (w.cache (ctl t)).isSome ∧
      { w with pc := Function.update w.pc t (.leaving 0) } = w' := by
  simp only [step, Option.ite_none_right_eq_some, Option.some.injEq, and_assoc]

theorem step_scan {text : List Char} : step ctl ans w (.scan t text) = some w' ↔
    w.pc t = .locked ∧ w.cache (ctl t) = none ∧
      { w with pc := Function.update w.pc t (.scanned text) } = w' := by
  simp only [step, Option.ite_none_right_eq_some, Option.some.injEq, and_assoc]

theorem step_store : step ctl ans w (.store t) = some w' ↔
    ∃ text, w.pc t = .scanned text ∧
      { w with cache := (afterScan (ans t) (ctl t) text w.cache).2,
               pc := Function.update w.pc t (.leaving (afterScan (ans t) (ctl t) text w.cache).1) } =
        w' := by
  cases h : w.pc t <;> simp [step, h]

theorem step_unlock : step ctl ans w (.unlock t) = some w' ↔
    ∃ r, w.pc t = .leaving r ∧
      { w with holder := none, pc := Function.update w.pc t (.returned r) } = w' := by
  cases h : w.pc t <;> simp [step, h]


/-! ## §4 — the mutex invariant -/

/-- What every world a run reaches keeps: the mutex is held by exactly the thread between its
lock and its unlock, a thread past its scan still finds the field `NULL`, and a call leaving
or returned with `0` finds it set. -/
structure Inv (ctl : Nat → Ctl) (w : World) : Prop where
  holds : ∀ t, (w.pc t).holds → w.holder = some t
  holder : ∀ t, w.holder = some t → (w.pc t).holds
  scanned : ∀ t text, w.pc t = .scanned text → w.cache (ctl t) = none
  leaving : ∀ t, w.pc t = .leaving 0 → (w.cache (ctl t)).isSome
  returned : ∀ t, w.pc t = .returned 0 → (w.cache (ctl t)).isSome

theorem Inv.start (cache : Cache) : Inv ctl (World.start cache) where
  holds _ h := by simp [World.start] at h
  holder _ h := by simp [World.start] at h
  scanned _ _ h := by simp [World.start] at h
  leaving _ h := by simp [World.start] at h
  returned _ h := by simp [World.start] at h

/-- **Mutual exclusion**: two threads holding the mutex are one. -/
theorem Inv.excl (hinv : Inv ctl w) {u : Nat} (ht : (w.pc t).holds) (hu : (w.pc u).holds) :
    t = u :=
  Option.some.inj ((hinv.holds t ht).symm.trans (hinv.holds u hu))

/-- A step taking a thread that holds the mutex to another place holding it keeps the mutex
clauses. -/
theorem Inv.holds_move (hinv : Inv ctl w) (ht : (w.pc t).holds) {p : Pc} (hp : p.holds) :
    (∀ u, (Function.update w.pc t p u).holds → w.holder = some u) ∧
      ∀ u, w.holder = some u → (Function.update w.pc t p u).holds := by
  refine ⟨fun u hu => ?_, fun u hu => ?_⟩ <;> by_cases hut : u = t
  · exact hut ▸ hinv.holds t ht
  · rw [Function.update_noteq hut] at hu; exact hinv.holds u hu
  · rw [hut, Function.update_same]; exact hp
  · rw [Function.update_noteq hut]; exact hinv.holder u hu

theorem Inv.lock (hinv : Inv ctl w) (h : step ctl ans w (.lock t) = some w') : Inv ctl w' := by
  obtain ⟨hfree, -, rfl⟩ := step_lock.mp h
  refine ⟨fun u hu => ?_, fun u hu => ?_, fun u text hu => ?_, fun u hu => ?_, fun u hu => ?_⟩ <;>
    dsimp only at hu ⊢
  · by_cases hut : u = t
    · rw [hut]
    · rw [Function.update_noteq hut] at hu
      simp [hinv.holds u hu] at hfree
  · obtain rfl : t = u := Option.some.inj hu
    simp
  all_goals
    have hut : u ≠ t := by rintro rfl; simp at hu
    rw [Function.update_noteq hut] at hu
  · exact hinv.scanned u text hu
  · exact hinv.leaving u hu
  · exact hinv.returned u hu

theorem Inv.hit (hinv : Inv ctl w) (h : step ctl ans w (.hit t) = some w') : Inv ctl w' := by
  obtain ⟨hlk, hset, rfl⟩ := step_hit.mp h
  obtain ⟨hholds, hholder⟩ := hinv.holds_move (t := t) (by simp [hlk]) (Pc.holds_leaving 0)
  refine ⟨hholds, hholder, fun u text hu => ?_, fun u hu => ?_, fun u hu => ?_⟩ <;>
    dsimp only at hu ⊢
  · have hut : u ≠ t := by rintro rfl; simp at hu
    rw [Function.update_noteq hut] at hu; exact hinv.scanned u text hu
  · by_cases hut : u = t
    · exact hut ▸ hset
    · rw [Function.update_noteq hut] at hu; exact hinv.leaving u hu
  · have hut : u ≠ t := by rintro rfl; simp at hu
    rw [Function.update_noteq hut] at hu; exact hinv.returned u hu

theorem Inv.scan {text : List Char} (hinv : Inv ctl w) (h : step ctl ans w (.scan t text) = some w') :
    Inv ctl w' := by
  obtain ⟨hlk, hnone, rfl⟩ := step_scan.mp h
  obtain ⟨hholds, hholder⟩ := hinv.holds_move (t := t) (by simp [hlk]) (Pc.holds_scanned text)
  refine ⟨hholds, hholder, fun u text' hu => ?_, fun u hu => ?_, fun u hu => ?_⟩ <;>
    dsimp only at hu ⊢
  · by_cases hut : u = t
    · exact hut ▸ hnone
    · rw [Function.update_noteq hut] at hu; exact hinv.scanned u text' hu
  all_goals
    have hut : u ≠ t := by rintro rfl; simp at hu
    rw [Function.update_noteq hut] at hu
  · exact hinv.leaving u hu
  · exact hinv.returned u hu

theorem Inv.store (hinv : Inv ctl w) (h : step ctl ans w (.store t) = some w') : Inv ctl w' := by
  obtain ⟨text, hsc, rfl⟩ := step_store.mp h
  rw [← cgGetCtl_of_none (hinv.scanned t text hsc)]
  obtain ⟨hholds, hholder⟩ := hinv.holds_move (t := t) (by simp [hsc]) (Pc.holds_leaving _)
  have hother : ∀ u, u ≠ t → ¬ (w.pc u).holds := fun u hut hu => hut (hinv.excl hu (by simp [hsc]))
  refine ⟨hholds, hholder, fun u text' hu => ?_, fun u hu => ?_, fun u hu => ?_⟩ <;>
    dsimp only at hu ⊢
  · have hut : u ≠ t := by rintro rfl; simp at hu
    rw [Function.update_noteq hut] at hu
    exact absurd (by simp [hu]) (hother u hut)
  · by_cases hut : u = t
    · subst hut
      simp only [Function.update_same, Pc.leaving.injEq] at hu
      rcases cgGetCtl_cases text (ans u) w.cache (ctl u) with ⟨p, hq, -⟩ | ⟨hq, -⟩ | ⟨hq, -⟩ <;>
        simp [hq] at hu ⊢
    · rw [Function.update_noteq hut] at hu
      exact absurd (by simp [hu]) (hother u hut)
  · have hut : u ≠ t := by rintro rfl; simp at hu
    rw [Function.update_noteq hut] at hu
    obtain ⟨p, hp⟩ := Option.isSome_iff_exists.mp (hinv.returned u hu)
    simp [cgGetCtl_cache_stable hp]

theorem Inv.unlock (hinv : Inv ctl w) (h : step ctl ans w (.unlock t) = some w') : Inv ctl w' := by
  obtain ⟨r, hlv, rfl⟩ := step_unlock.mp h
  have hother : ∀ u, u ≠ t → ¬ (w.pc u).holds := fun u hut hu => hut (hinv.excl hu (by simp [hlv]))
  refine ⟨fun u hu => ?_, fun u hu => ?_, fun u text hu => ?_, fun u hu => ?_, fun u hu => ?_⟩ <;>
    dsimp only at hu ⊢
  · have hut : u ≠ t := by rintro rfl; simp at hu
    rw [Function.update_noteq hut] at hu
    exact absurd hu (hother u hut)
  · simp at hu
  · have hut : u ≠ t := by rintro rfl; simp at hu
    rw [Function.update_noteq hut] at hu
    exact hinv.scanned u text hu
  · have hut : u ≠ t := by rintro rfl; simp at hu
    rw [Function.update_noteq hut] at hu
    exact hinv.leaving u hu
  · by_cases hut : u = t
    · subst hut
      simp only [Function.update_same, Pc.returned.injEq] at hu
      exact hinv.leaving u (hu ▸ hlv)
    · rw [Function.update_noteq hut] at hu
      exact hinv.returned u hu

/-- **Every step keeps the invariant.** -/
theorem Inv.of_step {a : Act} (hinv : Inv ctl w) (h : step ctl ans w a = some w') : Inv ctl w' := by
  cases a with
  | lock t => exact hinv.lock h
  | hit t => exact hinv.hit h
  | scan t text => exact hinv.scan h
  | store t => exact hinv.store h
  | unlock t => exact hinv.unlock h

/-- **Every run keeps the invariant.** -/
theorem Inv.of_run {acts : List Act} (hinv : Inv ctl w) (h : run ctl ans w acts = some w') :
    Inv ctl w' := by
  induction acts generalizing w with
  | nil => exact Option.some.inj h ▸ hinv
  | cons a as ih =>
    obtain ⟨w₁, h₁, hrun⟩ := run_cons.mp h
    exact ih (hinv.of_step h₁) hrun

/-! ## §5 — linearizability: each call is one atomic `cgGetCtl` -/

/-- The calls as atomic `cg_get_ctl`s: the fields, and what each thread's call returned
(`none` while it is pending). -/
structure Atomic where
  cache : Cache
  ret : Nat → Option Int

/-- A world seen atomically: a call has returned once it is past its test or its store. -/
def World.atomic (w : World) : Atomic := ⟨w.cache, Pc.ret ∘ w.pc⟩

section Calls

variable (ctl) (ans)

/-- The pending call of thread `t` as one `cgGetCtl`, reading the mount table `text`. -/
def callStep (a : Atomic) (t : Nat) (text : List Char) : Option Atomic :=
  if a.ret t = none then
    some ⟨(cgGetCtl text (ans t) a.cache (ctl t)).2,
      Function.update a.ret t (some (cgGetCtl text (ans t) a.cache (ctl t)).1)⟩
  else none

/-- A sequence of atomic calls. -/
def callRun (a : Atomic) : List (Nat × List Char) → Option Atomic
  | [] => some a
  | (t, text) :: cs => (callStep ctl ans a t text).bind fun a' => callRun a' cs

end Calls

theorem atomic_update_pc {cache : Cache} {holder : Option Nat} {pc : Nat → Pc} {p : Pc} :
    (World.mk cache holder (Function.update pc t p)).atomic =
      ⟨cache, Function.update (Pc.ret ∘ pc) t p.ret⟩ := by
  simp only [World.atomic, Function.comp_update]

theorem cgGetCtl_of_some {text : List Char} {a : ResolveAnswer} {cache : Cache} {c : Ctl}
    (h : (cache c).isSome) : cgGetCtl text a cache c = (0, cache) := by
  obtain ⟨p, hp⟩ := Option.isSome_iff_exists.mp h
  simp [cgGetCtl, hp]

/-- **The step simulation.** A test that finds the field set, and the code after a scan, are
each one atomic `cgGetCtl` of their thread, the latter with the table the scan read; every
other step leaves the atomic view as it was. -/
theorem Inv.step_refines {a : Act} (hinv : Inv ctl w) (h : step ctl ans w a = some w') :
    w'.atomic = w.atomic ∨ ∃ t text, callStep ctl ans w.atomic t text = some w'.atomic := by
  cases a with
  | lock t =>
    obtain ⟨-, hidle, rfl⟩ := step_lock.mp h
    left
    rw [atomic_update_pc, show Pc.locked.ret = (Pc.ret ∘ w.pc) t by simp [hidle, Pc.ret],
      Function.update_eq_self]
    rfl
  | hit t =>
    obtain ⟨hlk, hset, rfl⟩ := step_hit.mp h
    refine .inr ⟨t, [], ?_⟩
    simp [callStep, World.atomic, hlk, Pc.ret, cgGetCtl_of_some hset, Function.comp_update]
  | scan t text =>
    obtain ⟨hlk, -, rfl⟩ := step_scan.mp h
    left
    rw [atomic_update_pc, show (Pc.scanned text).ret = (Pc.ret ∘ w.pc) t by simp [hlk, Pc.ret],
      Function.update_eq_self]
    rfl
  | store t =>
    obtain ⟨text, hsc, rfl⟩ := step_store.mp h
    refine .inr ⟨t, text, ?_⟩
    simp [callStep, World.atomic, hsc, Pc.ret, ← cgGetCtl_of_none (hinv.scanned t text hsc),
      Function.comp_update]
  | unlock t =>
    obtain ⟨r, hlv, rfl⟩ := step_unlock.mp h
    left
    rw [atomic_update_pc, show (Pc.returned r).ret = (Pc.ret ∘ w.pc) t by simp [hlv, Pc.ret],
      Function.update_eq_self]
    rfl

/-- **Linearizability.** Every run is, seen atomically, a sequence of atomic `cgGetCtl`
calls. -/
theorem run_refines {acts : List Act} (hinv : Inv ctl w) (h : run ctl ans w acts = some w') :
    ∃ calls, callRun ctl ans w.atomic calls = some w'.atomic := by
  induction acts generalizing w with
  | nil => exact ⟨[], by rw [Option.some.inj h]; rfl⟩
  | cons a as ih =>
    obtain ⟨w₁, h₁, hrun⟩ := run_cons.mp h
    obtain ⟨calls, hcalls⟩ := ih (hinv.of_step h₁) hrun
    rcases hinv.step_refines h₁ with he | ⟨t, text, hs⟩
    · exact ⟨calls, he ▸ hcalls⟩
    · exact ⟨(t, text) :: calls, by simp [callRun, hs, hcalls]⟩

/-! ## §6 — set once -/

/-- A step never changes a set field: the one step that writes a field is an atomic
`cgGetCtl`, which keeps every set entry. -/
theorem Inv.step_cache {a : Act} {c : Ctl} {p : List Char} (hinv : Inv ctl w)
    (h : step ctl ans w a = some w') (hc : w.cache c = some p) : w'.cache c = some p := by
  rcases hinv.step_refines h with he | ⟨t, text, hs⟩
  · rw [show w'.cache = w.cache from congrArg Atomic.cache he]
    exact hc
  · unfold callStep at hs
    split_ifs at hs
    have hc' := congrArg Atomic.cache (Option.some.inj hs)
    dsimp only [World.atomic] at hc'
    rw [← hc']
    exact cgGetCtl_cache_stable hc

/-- **Set once.** Along any run, a set field keeps its mount path. -/
theorem run_cache_stable {acts : List Act} {c : Ctl} {p : List Char} (hinv : Inv ctl w)
    (h : run ctl ans w acts = some w') (hc : w.cache c = some p) : w'.cache c = some p := by
  induction acts generalizing w with
  | nil => exact Option.some.inj h ▸ hc
  | cons a as ih =>
    obtain ⟨w₁, h₁, hrun⟩ := run_cons.mp h
    exact ih (hinv.of_step h₁) hrun (hinv.step_cache h₁ hc)

/-! ## §7 — one scan per controller -/

/-- A thread that has scanned holds the mutex, so its store is the only step any thread can
take. -/
theorem Inv.only_store {a : Act} {text : List Char} (hinv : Inv ctl w)
    (hsc : w.pc t = .scanned text) (h : step ctl ans w a = some w') : a = .store t := by
  have ht : (w.pc t).holds := by simp [hsc]
  cases a with
  | lock u =>
    obtain ⟨hfree, -, -⟩ := step_lock.mp h
    simp [hinv.holds t ht] at hfree
  | hit u =>
    obtain ⟨hlk, -, -⟩ := step_hit.mp h
    obtain rfl := hinv.excl (u := u) ht (by simp [hlk])
    simp [hlk] at hsc
  | scan u text' =>
    obtain ⟨hlk, -, -⟩ := step_scan.mp h
    obtain rfl := hinv.excl (u := u) ht (by simp [hlk])
    simp [hlk] at hsc
  | store u =>
    obtain ⟨text', hsc', -⟩ := step_store.mp h
    rw [hinv.excl (u := u) ht (by simp [hsc'])]
  | unlock u =>
    obtain ⟨r, hlv, -⟩ := step_unlock.mp h
    obtain rfl := hinv.excl (u := u) ht (by simp [hlv])
    simp [hlv] at hsc

/-- With answers under which nothing fails, the code after a scan of a table that resolves
`c` sets the field of `c`. -/
theorem afterScan_clean {c : Ctl} {text : List Char} {cache : Cache}
    (h : (resolvedPath text c).isSome) : ((afterScan {} c text cache).2 c).isSome := by
  rcases getMountPath_some_cases c.subsys text with hg | ⟨p, hg⟩
  · simp [resolvedPath, hg] at h
  · simp [afterScan, hg]

/-- The resolution of `c` is decided: its field is set, or a thread holding the mutex has
scanned, for `c` and with answers under which nothing fails, a table that resolves it. -/
def Settled (ctl : Nat → Ctl) (ans : Nat → ResolveAnswer) (c : Ctl) (w : World) : Prop :=
  (w.cache c).isSome ∨
    ∃ t text, w.pc t = .scanned text ∧ ctl t = c ∧ ans t = {} ∧ (resolvedPath text c).isSome

/-- A settled controller is not scanned, and stays settled. -/
theorem Inv.settled_step {a : Act} {c : Ctl} (hinv : Inv ctl w) (hs : Settled ctl ans c w)
    (h : step ctl ans w a = some w') : a.scansFor ctl c = false ∧ Settled ctl ans c w' := by
  rcases hs with hset | ⟨t, text, hsc, hct, hans, hres⟩
  · refine ⟨?_, .inl ?_⟩
    · cases a with
      | scan u text' =>
        obtain ⟨-, hnone, -⟩ := step_scan.mp h
        simp only [Act.scansFor, decide_eq_false_iff_not]
        rintro rfl
        simp [hnone] at hset
      | _ => rfl
    · obtain ⟨p, hp⟩ := Option.isSome_iff_exists.mp hset
      simp [hinv.step_cache h hp]
  · obtain rfl := hinv.only_store hsc h
    obtain ⟨text', hsc', rfl⟩ := step_store.mp h
    obtain rfl : text' = text := by simpa [hsc] using hsc'.symm
    refine ⟨rfl, .inl ?_⟩
    rw [hans, hct]
    exact afterScan_clean hres

/-- Once settled, no thread scans the controller again. -/
theorem Inv.run_no_scan {acts : List Act} {c : Ctl} (hinv : Inv ctl w)
    (hs : Settled ctl ans c w) (h : run ctl ans w acts = some w') :
    acts.countP (Act.scansFor ctl c) = 0 := by
  induction acts generalizing w with
  | nil => rfl
  | cons a as ih =>
    obtain ⟨w₁, h₁, hrun⟩ := run_cons.mp h
    obtain ⟨ha, hs₁⟩ := hinv.settled_step hs h₁
    rw [List.countP_cons_of_neg _ _ (show ¬ a.scansFor ctl c = true by simp [ha])]
    exact ih (hinv.of_step h₁) hs₁ hrun

/-- **At most one scan.** When the calls for `c` have answers under which nothing fails and
every scan of `c` reads a table that resolves it, `/proc/mounts` is scanned for `c` at most
once in any interleaving. -/
theorem run_scans_le_one {acts : List Act} {c : Ctl} (hinv : Inv ctl w)
    (h : run ctl ans w acts = some w') (hans : ∀ t, ctl t = c → ans t = {})
    (hres : ∀ t text, Act.scan t text ∈ acts → ctl t = c → (resolvedPath text c).isSome) :
    acts.countP (Act.scansFor ctl c) ≤ 1 := by
  induction acts generalizing w with
  | nil => simp
  | cons a as ih =>
    obtain ⟨w₁, h₁, hrun⟩ := run_cons.mp h
    by_cases ha : a.scansFor ctl c
    · obtain ⟨t, text, rfl⟩ : ∃ t text, a = .scan t text := by
        cases a <;> simp_all [Act.scansFor]
      have hct : ctl t = c := by simpa [Act.scansFor] using ha
      obtain ⟨-, -, rfl⟩ := step_scan.mp h₁
      have hs : Settled ctl ans c { w with pc := Function.update w.pc t (.scanned text) } :=
        .inr ⟨t, text, Function.update_same _ _ _, hct, hans t hct,
          hres t text (List.mem_cons_self _ _) hct⟩
      rw [List.countP_cons_of_pos _ _ ha, (hinv.of_step h₁).run_no_scan hs hrun]
    · rw [List.countP_cons_of_neg _ _ ha]
      exact ih (hinv.of_step h₁) hrun fun t text hm => hres t text (List.mem_cons_of_mem _ hm)

/-- No call for `c` has got past its test, and the field of `c` is unset. -/
def Fresh (ctl : Nat → Ctl) (c : Ctl) (w : World) : Prop :=
  w.cache c = none ∧ ∀ t, ctl t = c → w.pc t = .idle ∨ w.pc t = .locked

/-- A step that does not scan `c` keeps it fresh. -/
theorem Inv.fresh_step {a : Act} {c : Ctl} (hinv : Inv ctl w) (hf : Fresh ctl c w)
    (h : step ctl ans w a = some w') (ha : a.scansFor ctl c = false) : Fresh ctl c w' := by
  obtain ⟨hnone, hpc⟩ := hf
  -- the thread that steps, when it is not one of `c`'s
  have keep : ∀ u p, ctl u ≠ c → ∀ t, ctl t = c →
      Function.update w.pc u p t = .idle ∨ Function.update w.pc u p t = .locked :=
    fun u p hu t ht => by rw [Function.update_noteq (by rintro rfl; exact hu ht)]; exact hpc t ht
  cases a with
  | lock u =>
    obtain ⟨-, -, rfl⟩ := step_lock.mp h
    refine ⟨hnone, fun t ht => ?_⟩
    by_cases htu : t = u
    · subst htu; simp
    · dsimp only; rw [Function.update_noteq htu]; exact hpc t ht
  | hit u =>
    obtain ⟨-, hset, rfl⟩ := step_hit.mp h
    exact ⟨hnone, keep u _ (by rintro rfl; simp [hnone] at hset)⟩
  | scan u text =>
    obtain ⟨-, -, rfl⟩ := step_scan.mp h
    exact ⟨hnone, keep u _ (by simpa [Act.scansFor] using ha)⟩
  | store u =>
    obtain ⟨text, hsc, rfl⟩ := step_store.mp h
    have hu : ctl u ≠ c := by rintro hu; rcases hpc u hu with h' | h' <;> simp [hsc] at h'
    refine ⟨?_, keep u _ hu⟩
    dsimp only
    rw [← cgGetCtl_of_none (hinv.scanned u text hsc), cgGetCtl_snd_ne (Ne.symm hu)]
    exact hnone
  | unlock u =>
    obtain ⟨r, hlv, rfl⟩ := step_unlock.mp h
    exact ⟨hnone, keep u _ (by rintro hu; rcases hpc u hu with h' | h' <;> simp [hlv] at h')⟩

/-- A call for `c` that has returned from a fresh start was preceded by a scan of `c`. -/
theorem Inv.scan_of_returned {acts : List Act} {c : Ctl} {u : Nat} (hinv : Inv ctl w)
    (hf : Fresh ctl c w) (h : run ctl ans w acts = some w') (hu : ctl u = c)
    (hret : (w'.pc u).ret.isSome) : 1 ≤ acts.countP (Act.scansFor ctl c) := by
  induction acts generalizing w with
  | nil =>
    rw [← Option.some.inj h] at hret
    rcases hf.2 u hu with h' | h' <;> simp [h', Pc.ret] at hret
  | cons a as ih =>
    obtain ⟨w₁, h₁, hrun⟩ := run_cons.mp h
    by_cases ha : a.scansFor ctl c
    · simp [List.countP_cons_of_pos _ _ ha]
    · rw [List.countP_cons_of_neg _ _ ha]
      exact ih (hinv.of_step h₁) (hinv.fresh_step hf h₁ (by simpa using ha)) hrun

/-! ## §8 — the interleaved resolver -/

/-- **The interleaved `cg_get_ctl`.** Threads each call `cg_get_ctl` for their own controller
with their own answers, from any fields, and their steps are interleaved in any order. In the
world a run reaches, at most one thread holds the mutex; a call that returned `0` finds its
controller's mount path set, and that mount path is the same in every later world; every set
field keeps its mount path; and the run, seen atomically, is a sequence of atomic `cgGetCtl`
calls, each reading the table its scan read. -/
theorem interleaved_cgGetCtl (cache : Cache) {acts acts' : List Act} {w w' : World}
    (h : run ctl ans (World.start cache) acts = some w) (h' : run ctl ans w acts' = some w') :
    (∀ t u, (w.pc t).holds → (w.pc u).holds → t = u) ∧
    (∀ t, w.pc t = .returned 0 → ∃ p, w.cache (ctl t) = some p ∧ w'.cache (ctl t) = some p) ∧
    (∀ c p, w.cache c = some p → w'.cache c = some p) ∧
    ∃ calls, callRun ctl ans (World.start cache).atomic calls = some w.atomic := by
  have hinv := (Inv.start cache).of_run h
  refine ⟨fun t u ht hu => hinv.excl ht hu, fun t ht => ?_,
    fun c p hc => run_cache_stable hinv h' hc, run_refines (Inv.start cache) h⟩
  obtain ⟨p, hp⟩ := Option.isSome_iff_exists.mp (hinv.returned t ht)
  exact ⟨p, hp, run_cache_stable hinv h' hp⟩

/-- **One scan.** From any fields, in every interleaving in which the calls for `c` have
answers under which nothing fails and each scan of `c` reads a table that resolves it,
`/proc/mounts` is scanned for `c` at most once; and exactly once when the field of `c` was
unset at the start and a call for `c` has returned. -/
theorem one_scan (cache : Cache) {acts : List Act} {w : World} {c : Ctl}
    (h : run ctl ans (World.start cache) acts = some w) (hans : ∀ t, ctl t = c → ans t = {})
    (hres : ∀ t text, Act.scan t text ∈ acts → ctl t = c → (resolvedPath text c).isSome) :
    acts.countP (Act.scansFor ctl c) ≤ 1 ∧
      (cache c = none → ∀ u, ctl u = c → (w.pc u).ret.isSome →
        acts.countP (Act.scansFor ctl c) = 1) := by
  have hle := run_scans_le_one (Inv.start cache) h hans hres
  refine ⟨hle, fun hc u hu hret => le_antisymm hle ?_⟩
  exact (Inv.start cache).scan_of_returned ⟨hc, fun _ _ => .inl rfl⟩ h hu hret

/-- `cpu` mounted at `/c`. -/
def cpuMounts : List Char := "cgroup /c cgroup rw,cpu 0 0\n".toList

/-- Thread `0` resolves `cpu` from `cpuMounts`; thread `1` then finds it set. -/
def twoCalls : List Act :=
  [.lock 0, .scan 0 cpuMounts, .store 0, .unlock 0, .lock 1, .hit 1, .unlock 1]

theorem interleaved_cgGetCtl_twoCalls :
    ∃ w, run (fun _ => .cpu) (fun _ => {}) (World.start Cache.empty) twoCalls = some w ∧
      (∀ t u, (w.pc t).holds → (w.pc u).holds → t = u) ∧
      (∀ t, w.pc t = .returned 0 → ∃ p, w.cache Ctl.cpu = some p ∧ w.cache Ctl.cpu = some p) ∧
      (∀ c p, w.cache c = some p → w.cache c = some p) ∧
      ∃ calls, callRun (fun _ => .cpu) (fun _ => {}) (World.start Cache.empty).atomic calls =
        some w.atomic :=
  ⟨_, rfl, @interleaved_cgGetCtl (fun _ => .cpu) (fun _ => {}) Cache.empty twoCalls [] _ _ rfl rfl⟩

theorem one_scan_twoCalls :
    ∃ w, run (fun _ => .cpu) (fun _ => {}) (World.start Cache.empty) twoCalls = some w ∧
      twoCalls.countP (Act.scansFor (fun _ => .cpu) .cpu) ≤ 1 ∧
      (Cache.empty Ctl.cpu = none → ∀ u, Ctl.cpu = Ctl.cpu → (w.pc u).ret.isSome →
        twoCalls.countP (Act.scansFor (fun _ => .cpu) .cpu) = 1) :=
  ⟨_, rfl, @one_scan (fun _ => .cpu) (fun _ => {}) Cache.empty twoCalls _ .cpu rfl (fun _ _ => rfl)
    fun t text hm _ => by
    simp [twoCalls] at hm
    obtain ⟨-, rfl⟩ := hm
    decide⟩

end Mtx

end VzCgroup
