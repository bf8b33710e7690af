import VzCgroup.Accessors

/-!
# VzCgroup — moving a task into the container's groups (`cg_attach_task`)

`cg_attach_task(ctid, pid, except)` walks the controller table in order and writes `pid`
to the `tasks` file of every controller but the one named `except`, with `cg_set_ul`. A
controller that is not mounted, or whose `tasks` file does not exist, answers `1` and is
passed over ("Skip non exists"); the first `-1` ends the walk and is the result, the task
staying in the groups of the controllers before it.

The walk threads the resolver's cache from one controller to the next, but each
`cg_set_ul` reads and sets its own controller's entry only (`attachCall_congr`,
`attachCall_cache_ne`), and the table names each controller once. So every controller
answers as it would from the cache the walk started with, and `cgAttachTask_spec` gives the
whole walk from these answers: the result is `-1` exactly when one of them is, the writes
are those of the controllers up to and including the first `-1`, and each is the decimal
text of `pid` taken modulo `2^64`.
-/

namespace VzCgroup

/-! ## §1 The walk -/

/-- `cg_subsys_except && !strcmp(cg_ctl_map[i].subsys, cg_subsys_except)`. -/
def attachSkips (except : Option (List Char)) (c : Ctl) : Bool :=
  match except with
  | some e => c.subsys == e
  | none => false

/-- The `pid_t` (an `int`) that `cg_set_ul` takes as an `unsigned long`: its value modulo
`2^64`. -/
def pidValue (pid : BitVec 32) : UInt64 :=
  UInt64.ofNat (pid.toInt % 2 ^ 64).toNat

section Walk

variable (text : List Char) (a : Ctl → ResolveAnswer) (n : Names) (ctid : Option (List Char))
  (w : Ctl → WriteAnswer) (except : Option (List Char)) (pid : BitVec 32)

/-- `cg_set_ul(ctid, c->subsys, "tasks", pid)` from `cache`, each controller with the
answers of its own calls. -/
def attachCall (cache : Cache) (c : Ctl) : Int × Option (List Char × List Char) × Cache :=
  cgSetUl text (a c) cache n ctid c "tasks".toList (pidValue pid) (w c)

/-- The loop of `cg_attach_task` over the table entries `cs`: the result, the writes made,
in order, and the cache. -/
def attachLoop : List Ctl → Cache → Int × List (List Char × List Char) × Cache
  | [], cache => (0, [], cache)
  | c :: cs, cache =>
    if attachSkips except c then attachLoop cs cache else
    let (r, wr, cache) := attachCall text a n ctid w pid cache c
    if r = -1 then (-1, wr.toList, cache) else
    let (r, wrs, cache) := attachLoop cs cache
    (r, wr.toList ++ wrs, cache)

/-- `cg_attach_task(ctid, pid, except)`. -/
def cgAttachTask (cache : Cache) : Int × List (List Char × List Char) × Cache :=
  attachLoop text a n ctid w except pid cgCtlMap cache

end Walk

/-! ## §2 One controller

A controller's `cg_set_ul` reads the cache at that controller only and leaves the other
entries: the two facts that let the walk be read controller by controller. -/

section Step

variable {text : List Char} {a : Ctl → ResolveAnswer} {n : Names} {ctid : Option (List Char)}
  {w : Ctl → WriteAnswer} {except : Option (List Char)} {pid : BitVec 32} {cache cache₀ : Cache}
  {c c' : Ctl}

theorem attachCall_congr (h : cache c = cache₀ c) :
    (attachCall text a n ctid w pid cache c).1 = (attachCall text a n ctid w pid cache₀ c).1 ∧
      (attachCall text a n ctid w pid cache c).2.1 = (attachCall text a n ctid w pid cache₀ c).2.1 :=
  cgSetParam_congr h

theorem attachCall_cache_ne (h : c' ≠ c) :
    (attachCall text a n ctid w pid cache c).2.2 c' = cache c' := by
  rw [attachCall, cgSetUl, cgSetParam_cache, cgGetCtl_snd_ne h]

/-- The text written to a `tasks` file: the decimal text of `pid` modulo `2^64`. -/
theorem attachCall_write {path data : List Char}
    (h : (attachCall text a n ctid w pid cache c).2.1 = some (path, data)) :
    data = Nat.toDigits 10 (pid.toInt % 2 ^ 64).toNat := by
  rw [cgSetUl_write h, pidValue, UInt64.toNat_ofNat_of_lt (by simp only [UInt64.size]; omega)]

end Step

/-! ## §3 The whole walk -/

section Run

variable {text : List Char} {a : Ctl → ResolveAnswer} {n : Names} {ctid : Option (List Char)}
  {w : Ctl → WriteAnswer} {except : Option (List Char)} {pid : BitVec 32} {cache₀ : Cache}

/-- **The walk from any point.** Over distinct controllers whose cache entries are still
those of `cache₀`, the loop answers `-1` exactly when a controller it does not pass over
answers `-1` from `cache₀`, and makes the writes those controllers make from `cache₀`, up to
and including the first `-1`. -/
theorem attachLoop_eq (cs : List Ctl) (hnd : cs.Nodup) (cache : Cache)
    (h : ∀ c ∈ cs, cache c = cache₀ c) :
    let ok c := (attachCall text a n ctid w pid cache₀ c).1 != -1
    let ts := cs.filter fun c => !attachSkips except c
    (attachLoop text a n ctid w except pid cs cache).1 = (if ts.all ok then 0 else -1) ∧
      (attachLoop text a n ctid w except pid cs cache).2.1 =
        (ts.takeWhile ok ++ (ts.dropWhile ok).take 1).filterMap
          fun c => (attachCall text a n ctid w pid cache₀ c).2.1 := by
  induction cs generalizing cache with
  | nil => simp [attachLoop]
  | cons c cs ih =>
    obtain ⟨hnc, hnd⟩ := List.nodup_cons.mp hnd
    have hrest : ∀ c' ∈ cs, cache c' = cache₀ c' := fun c' hc' => h c' (List.mem_cons_of_mem _ hc')
    by_cases hs : attachSkips except c
    · simpa [attachLoop, hs] using ih hnd cache hrest
    obtain ⟨h1, h2⟩ := @attachCall_congr text a n ctid w pid cache cache₀ c (h c (List.mem_cons_self _ _))
    rcases hcall : attachCall text a n ctid w pid cache c with ⟨r, wr, k⟩
    simp only [hcall] at h1 h2
    by_cases hr : r = -1
    · rcases wr with _ | wr <;> simp [attachLoop, hs, hcall, hr, ← h1, ← h2]
    · have hk : ∀ c' ∈ cs, k c' = cache₀ c' := fun c' hc' =>
        calc k c' = (attachCall text a n ctid w pid cache c).2.2 c' := by rw [hcall]
          _ = cache c' := attachCall_cache_ne (ne_of_mem_of_not_mem hc' hnc)
          _ = cache₀ c' := hrest c' hc'
      obtain ⟨ih1, ih2⟩ := ih hnd k hk
      rcases wr with _ | wr <;> simp [attachLoop, hs, hcall, hr, ← h1, ← h2, ih1, ih2]

/-- **`cg_attach_task`.** From any cache, the call answers `-1` exactly when one of the
controllers it does not pass over answers `-1` to its own `cg_set_ul` from that cache, and
`0` otherwise; it writes what those controllers write, in table order, up to and including
the first `-1`; and every text it writes is the decimal text of `pid` modulo `2^64`. -/
theorem cgAttachTask_spec (cache : Cache) :
    let ok c := (attachCall text a n ctid w pid cache c).1 != -1
    let ts := cgCtlMap.filter fun c => !attachSkips except c
    (cgAttachTask text a n ctid w except pid cache).1 = (if ts.all ok then 0 else -1) ∧
      (cgAttachTask text a n ctid w except pid cache).2.1 =
        (ts.takeWhile ok ++ (ts.dropWhile ok).take 1).filterMap
          (fun c => (attachCall text a n ctid w pid cache c).2.1) ∧
      ∀ path data, (path, data) ∈ (cgAttachTask text a n ctid w except pid cache).2.1 →
        data = Nat.toDigits 10 (pid.toInt % 2 ^ 64).toNat := by
  obtain ⟨h1, h2⟩ := @attachLoop_eq text a n ctid w except pid cache cgCtlMap cgCtlMap_nodup cache
    fun _ _ => rfl
  refine ⟨h1, h2, fun path data hwr => ?_⟩
  rw [cgAttachTask, h2, List.mem_filterMap] at hwr
  obtain ⟨c, -, hc⟩ := hwr
  exact attachCall_write hc

example :
    (cgAttachTask cpuTable (fun _ => {}) ⟨cgGetSliceName none, [], []⟩ (some "101".toList)
        (fun _ => {}) none 42 Cache.empty).2.1 = [("/c/machine.slice/101/tasks".toList, "42".toList)] := by
  decide

end Run

end VzCgroup
