import VzCgroup.ParamIO.Typed

/-!
# VzCgroup — resource accessors (`cg_env_set_*`, `cg_env_get_*`)

The accessors are thin layers over `cg_set_ul`, `cg_set_param` and `cg_get_ul`, with three
that carry logic of their own.

`cg_env_set_cpuunits` scales the requested thousandths to the kernel's 1024 basis with
`cpuunits * 1024 / 1000` on an `unsigned int`, and writes the result to `cpu.shares` with
`cg_set_ul`. The product is taken modulo `2^32`: from `cpuunits = 4194304` on it wraps, and
the weight written falls back towards `0`.

`cg_env_set_ub` and `cg_env_set_io` set several `beancounter` files in a row and stop at the
first call that fails: one definition, `setUlSeq`, and one lemma, `setUlSeq_writes`, for
both.

`cg_env_set_mask` cuts the requested CPU or memory-node mask down to the active one of the
slice before writing it (`cgEnvSetMask_writes`). It tests `cg_get_param`'s answer with
`< 0`, so an unmounted `cpuset`, answered with `1`, lets it parse a buffer nothing was read
into; the call then fails all the same (`cgEnvSetMask_unmounted`).
-/

namespace VzCgroup

/-! ## The CPU weight -/

/-- `cg_env_set_cpuunits(ctid, cpuunits)`: `cg_set_ul(ctid, CG_CPU, "cpu.shares",
cpuunits * 1024 / 1000)`, the product and the quotient computed in `unsigned int`. -/
def cgEnvSetCpuunits (text : List Char) (a : ResolveAnswer) (cache : Cache) (n : Names)
    (ctid : Option (List Char)) (cpuunits : UInt32) (w : WriteAnswer) :
    Int × Option (List Char × List Char) × Cache :=
  cgSetUl text a cache n ctid .cpu "cpu.shares".toList (cpuunits * 1024 / 1000).toUInt64 w

/-- The weight `cg_env_set_cpuunits` computes, as a number. -/
theorem cpuShares_toNat (x : UInt32) :
    (x * 1024 / 1000).toUInt64.toNat = x.toNat * 1024 % 2 ^ 32 / 1000 := by
  show (x * 1024 / 1000).toNat = _
  rw [UInt32.toNat_div]
  rfl

/-- The text `cg_set_ul` writes for a value: its decimal digits. -/
theorem cgSetUl_write {text : List Char} {a : ResolveAnswer} {cache : Cache} {n : Names}
    {ctid : Option (List Char)} {c : Ctl} {name : List Char} {v : UInt64} {w : WriteAnswer}
    {path data : List Char} (h : (cgSetUl text a cache n ctid c name v w).2.1 = some (path, data)) :
    data = Nat.toDigits 10 v.toNat := by
  obtain ⟨-, rfl⟩ := cgSetParam_write h
  obtain ⟨-, hd⟩ := toDigits_digits v.toNat
  rw [formatDecimal, snprintfStr, List.take_of_length_le (by have := toDigits_length_le v.toNat_lt_size; omega),
    cstr_digits hd]

theorem toDigits_injective {m m' : Nat} (h : Nat.toDigits 10 m = Nat.toDigits 10 m') : m = m' := by
  obtain ⟨pre, hpre, -, -, hv⟩ := toDigitsCore_digits (m + 1) m [] (by omega)
  obtain ⟨pre', hpre', -, -, hv'⟩ := toDigitsCore_digits (m' + 1) m' [] (by omega)
  rw [Nat.toDigits, Nat.toDigits, hpre, hpre', List.append_nil, List.append_nil] at h
  rw [← hv, ← hv', h]

/-- For every `cpuunits`, the text written to `cpu.shares` is the decimal text of
`(cpuunits * 1024 mod 2^32) / 1000`; it is that of the exact `⌊cpuunits * 1024 / 1000⌋`
exactly when `cpuunits < 4194304`. -/
theorem cgEnvSetCpuunits_writes {text : List Char} {a : ResolveAnswer} {cache : Cache} {n : Names}
    {ctid : Option (List Char)} {cpuunits : UInt32} {w : WriteAnswer} {path data : List Char}
    (h : (cgEnvSetCpuunits text a cache n ctid cpuunits w).2.1 = some (path, data)) :
    data = Nat.toDigits 10 (cpuunits.toNat * 1024 % 2 ^ 32 / 1000) ∧
      (data = Nat.toDigits 10 (cpuunits.toNat * 1024 / 1000) ↔ cpuunits.toNat < 4194304) := by
  have hdata := cgSetUl_write h
  rw [cpuShares_toNat] at hdata
  refine ⟨hdata, ⟨fun h' => ?_, fun hlt => ?_⟩⟩
  · have heq := toDigits_injective (hdata.symm.trans h')
    by_contra hge
    have hlt := cpuunits.toNat_lt_size
    have : cpuunits.toNat * 1024 % 2 ^ 32 = cpuunits.toNat * 1024 - 2 ^ 32 := by
      rw [Nat.mod_eq_sub_mod (by omega), Nat.mod_eq_of_lt (by simp [UInt32.size] at hlt; omega)]
    omega
  · rw [hdata, Nat.mod_eq_of_lt (by omega)]

/-- At `cpuunits = 4194304` the product `4194304 * 1024 = 2^32` wraps to `0`: the call
writes `0` where the exact weight is `4294967`, and one unit less writes `4294966`. -/
theorem cgEnvSetCpuunits_wraps :
    (cgEnvSetCpuunits cpuTable {} Cache.empty ⟨cgGetSliceName none, [], []⟩ none 4194303 {}).2.1 =
        some ("/c/cpu.shares".toList, "4294966".toList) ∧
      (cgEnvSetCpuunits cpuTable {} Cache.empty ⟨cgGetSliceName none, [], []⟩ none 4194304 {}).2.1 =
        some ("/c/cpu.shares".toList, "0".toList) ∧
      4194304 * 1024 / 1000 = 4294967 := by
  decide

/-! ## The one-call setters -/

/-- `cg_env_set_vcpus(ctid, vcpus)`: `cg_set_ul(ctid, CG_CPU, "cpu.nr_cpus", vcpus)`. -/
def cgEnvSetVcpus (text : List Char) (a : ResolveAnswer) (cache : Cache) (n : Names)
    (ctid : Option (List Char)) (vcpus : UInt32) (w : WriteAnswer) :
    Int × Option (List Char × List Char) × Cache :=
  cgSetUl text a cache n ctid .cpu "cpu.nr_cpus".toList vcpus.toUInt64 w

/-- `cg_env_set_devices(ctid, name, data)`: `cg_set_param(ctid, CG_DEVICES, name, data)`. -/
def cgEnvSetDevices (text : List Char) (a : ResolveAnswer) (cache : Cache) (n : Names)
    (ctid : Option (List Char)) (name data : List Char) (w : WriteAnswer) :
    Int × Option (List Char × List Char) × Cache :=
  cgSetParam text a cache n ctid .devices name data w

/-- `cg_env_set_memory(ctid, name, value)`: `cg_set_ul(ctid, CG_MEMORY, name, value)`. -/
def cgEnvSetMemory (text : List Char) (a : ResolveAnswer) (cache : Cache) (n : Names)
    (ctid : Option (List Char)) (name : List Char) (value : UInt64) (w : WriteAnswer) :
    Int × Option (List Char × List Char) × Cache :=
  cgSetUl text a cache n ctid .memory name value w

/-- `cg_env_set_net_classid(ctid, classid)`: `cg_set_ul(ctid, CG_NET_CLS, CG_NET_CLASSID,
classid)`, the file name `CG_NET_CLASSID` (a macro not in the source) given as
`classidName`. -/
def cgEnvSetNetClassid (text : List Char) (a : ResolveAnswer) (cache : Cache) (n : Names)
    (ctid : Option (List Char)) (classidName : List Char) (classid : UInt32) (w : WriteAnswer) :
    Int × Option (List Char × List Char) × Cache :=
  cgSetUl text a cache n ctid .netCls classidName classid.toUInt64 w

/-! ## Sequences of `cg_set_ul` (`cg_env_set_ub`, `cg_env_set_io`)

Both set several `beancounter` files in a row, each name formatted into a `STR_SIZE`
buffer, and stop at the first call that does not answer `0`. -/

/-- `cg_set_ul(ctid, c->subsys, name, value)` for each `(name, value)` in turn, call `k` with
the answers `a k` and `w k`, each from the cache the call before left; the first non-zero
answer ends the sequence and is its result. The writes made, in order. -/
def setUlSeq (text : List Char) (a : Nat → ResolveAnswer) (n : Names) (ctid : Option (List Char))
    (c : Ctl) (w : Nat → WriteAnswer) :
    Nat → List (List Char × UInt64) → Cache → Int × List (List Char × List Char) × Cache
  | _, [], cache => (0, [], cache)
  | k, (name, v) :: items, cache =>
    let (r, wr, cache) := cgSetUl text (a k) cache n ctid c name v (w k)
    if r ≠ 0 then (r, wr.toList, cache) else
    let (r, wrs, cache) := setUlSeq text a n ctid c w (k + 1) items cache
    (r, wr.toList ++ wrs, cache)

/-- `cg_env_set_ub(ctid, name, b, l)`: `beancounter.<name>.barrier`, then `.limit`, each
name formatted into `char _name[STR_SIZE]`. -/
def cgEnvSetUb (text : List Char) (a : Nat → ResolveAnswer) (cache : Cache) (n : Names)
    (ctid : Option (List Char)) (w : Nat → WriteAnswer) (strSize : Nat) (name : List Char)
    (b l : UInt64) : Int × List (List Char × List Char) × Cache :=
  setUlSeq text a n ctid .ub w 0
    [(snprintfStr strSize ("beancounter.".toList ++ name ++ ".barrier".toList), b),
      (snprintfStr strSize ("beancounter.".toList ++ name ++ ".limit".toList), l)] cache

/-- `cg_env_set_io(ctid, name, speed, burst, latency)`: `CG_UB".<name>.speed"`, `.burst`,
then `.latency`, each name formatted into `char buf[STR_SIZE]`, each value an
`unsigned int`. -/
def cgEnvSetIo (text : List Char) (a : Nat → ResolveAnswer) (cache : Cache) (n : Names)
    (ctid : Option (List Char)) (w : Nat → WriteAnswer) (strSize : Nat) (name : List Char)
    (speed burst latency : UInt32) : Int × List (List Char × List Char) × Cache :=
  setUlSeq text a n ctid .ub w 0
    [(snprintfStr strSize (Ctl.ub.subsys ++ '.' :: name ++ ".speed".toList), speed.toUInt64),
      (snprintfStr strSize (Ctl.ub.subsys ++ '.' :: name ++ ".burst".toList), burst.toUInt64),
      (snprintfStr strSize (Ctl.ub.subsys ++ '.' :: name ++ ".latency".toList), latency.toUInt64)]
    cache

/-- `cg_env_set_iolimit(ctid, speed, burst, latency)`. -/
def cgEnvSetIolimit (text : List Char) (a : Nat → ResolveAnswer) (cache : Cache) (n : Names)
    (ctid : Option (List Char)) (w : Nat → WriteAnswer) (strSize : Nat)
    (speed burst latency : UInt32) : Int × List (List Char × List Char) × Cache :=
  cgEnvSetIo text a cache n ctid w strSize "iolimit".toList speed burst latency

/-- `cg_env_set_iopslimit(ctid, speed, burst, latency)`. -/
def cgEnvSetIopslimit (text : List Char) (a : Nat → ResolveAnswer) (cache : Cache) (n : Names)
    (ctid : Option (List Char)) (w : Nat → WriteAnswer) (strSize : Nat)
    (speed burst latency : UInt32) : Int × List (List Char × List Char) × Cache :=
  cgEnvSetIo text a cache n ctid w strSize "iopslimit".toList speed burst latency

/-- **A sequence of `cg_set_ul`.** The texts written are, in order, the decimal texts of the
first values of the sequence, and of every value when the sequence answers `0`; and every
write but the last answered `0`: `write_data`, with the answers of the call that made it, at
its path and with its text. A value is written only after every one before it was written
and answered `0`. -/
theorem setUlSeq_writes {text : List Char} {a : Nat → ResolveAnswer} {n : Names}
    {ctid : Option (List Char)} {c : Ctl} {w : Nat → WriteAnswer} :
    ∀ (items : List (List Char × UInt64)) (k : Nat) (cache : Cache) (r : Int)
      (wrs : List (List Char × List Char)) (cache' : Cache),
      setUlSeq text a n ctid c w k items cache = (r, wrs, cache') →
      wrs.map Prod.snd <+: items.map (fun it => Nat.toDigits 10 it.2.toNat) ∧
        (∀ i (hi : i + 1 < wrs.length), (writeData (w (k + i)) wrs[i].1 wrs[i].2).1 = 0) ∧
        (r = 0 → wrs.map Prod.snd = items.map fun it => Nat.toDigits 10 it.2.toNat)
  | [], _, _, _, _, _, h => by
    simp only [setUlSeq, Prod.mk.injEq] at h
    obtain ⟨rfl, rfl, -⟩ := h
    simp
  | (name, v) :: items, k, cache, r, wrs, cache₂, h => by
    rcases hcall : cgSetUl text (a k) cache n ctid c name v (w k) with ⟨r₀, wr, cache₁⟩
    have hdata : ∀ p d, wr = some (p, d) → d = Nat.toDigits 10 v.toNat := fun p d hw =>
      cgSetUl_write (by rw [hcall]; exact hw)
    by_cases hr : r₀ = 0
    · obtain ⟨p, hp⟩ := cgSetParam_ok_write (hcall ▸ hr : (cgSetUl text (a k) cache n ctid c name v (w k)).1 = 0)
      obtain rfl : wr = some (p, cstr (formatDecimal 32 v.toNat)) :=
        (congrArg (fun x => x.2.1) hcall).symm.trans hp
      have hfirst : (writeData (w k) p (cstr (formatDecimal 32 v.toNat))).1 = 0 := by
        rw [writeData_cstr, ← cgSetParam_answer_of_write hp]
        exact (congrArg Prod.fst hcall).trans hr
      rcases hrest : setUlSeq text a n ctid c w (k + 1) items cache₁ with ⟨r', wrs', cache₃⟩
      obtain ⟨ih1, ih2, ih3⟩ := setUlSeq_writes items (k + 1) cache₁ r' wrs' cache₃ hrest
      simp only [setUlSeq, hcall, hr, ne_eq, not_true_eq_false, if_false, hrest, Option.toList_some,
        List.singleton_append, Prod.mk.injEq] at h
      obtain ⟨rfl, rfl, -⟩ := h
      rw [List.map_cons, List.map_cons, ← hdata _ _ rfl]
      refine ⟨List.prefix_cons_inj _ |>.mpr ih1, fun i hi => ?_, fun h0 => congrArg _ (ih3 h0)⟩
      cases i with
      | zero => exact hfirst
      | succ i =>
        simpa only [List.getElem_cons_succ, Nat.add_assoc, Nat.add_comm 1 i] using
          ih2 i (by simpa using hi)
    · simp only [setUlSeq, hcall, hr, ne_eq, not_false_eq_true, if_true, Prod.mk.injEq] at h
      obtain ⟨rfl, rfl, -⟩ := h
      refine ⟨?_, fun i hi => ?_, fun h0 => absurd h0 hr⟩
      · rcases wr with _ | ⟨p, d⟩
        · exact List.nil_prefix
        · simp [hdata p d rfl]
      · rcases wr with _ | ⟨p, d⟩ <;> simp at hi

/-- The beancounter controller mounted at `/bc`. -/
def ubTable : List Char :=
  "cgroup /bc cgroup rw,beancounter 0 0\n".toList

/-- Write answers under which the second `write` of a sequence writes nothing. -/
def limitShort : Nat → WriteAnswer := fun k => if k = 1 then { writeRet := fun _ => 0 } else {}

/-- `cg_env_set_ub` whose `limit` write comes short: the barrier is written and answered `0`,
the limit is written and the call answers `-1`. -/
theorem setUlSeq_writes_limitShort :
    cgEnvSetUb ubTable (fun _ => {}) Cache.empty ⟨cgGetSliceName none, [], []⟩ none limitShort 64
        "kmem".toList 10 20 =
      (-1, [("/bc/beancounter.kmem.barrier".toList, "10".toList),
          ("/bc/beancounter.kmem.limit".toList, "20".toList)],
        (cgEnvSetUb ubTable (fun _ => {}) Cache.empty ⟨cgGetSliceName none, [], []⟩ none limitShort 64
          "kmem".toList 10 20).2.2) ∧
      ["10".toList, "20".toList] <+: ["10".toList, "20".toList] ∧
      (writeData (limitShort 0) "/bc/beancounter.kmem.barrier".toList "10".toList).1 = 0 :=
  have h : cgEnvSetUb ubTable (fun _ => {}) Cache.empty ⟨cgGetSliceName none, [], []⟩ none limitShort 64
        "kmem".toList 10 20 =
      (-1, [("/bc/beancounter.kmem.barrier".toList, "10".toList),
          ("/bc/beancounter.kmem.limit".toList, "20".toList)],
        (cgEnvSetUb ubTable (fun _ => {}) Cache.empty ⟨cgGetSliceName none, [], []⟩ none limitShort 64
          "kmem".toList 10 20).2.2) := Prod.ext (by decide) (Prod.ext (by decide) rfl)
  ⟨h, (setUlSeq_writes _ _ _ _ _ _ h).1, (setUlSeq_writes _ _ _ _ _ _ h).2.1 0 (by decide)⟩

/-! ## Reading an `unsigned long` (`cg_get_ul` and its callers) -/

/-- `cg_get_ul(ctid, c->subsys, name, &value)`: `cg_get_param` into `char data[32]` (at `0`
of `mem`), then `parse_ul(data, value)`, a routine out of the source given as `parseUl`
(its result and the value it stores). The result, the value stored and the cache. -/
def cgGetUl (text : List Char) (a : ResolveAnswer) (cache : Cache) (n : Names)
    (ctid : Option (List Char)) (c : Ctl) (name : List Char)
    (files : List Char → Except Nat (List Char)) (mem : Int → Char)
    (parseUl : List Char → Int × Option UInt64) : Int × Option UInt64 × Cache :=
  let (r, acc, cache) := cgGetParam text a cache n ctid c name files 32 mem
  if r ≠ 0 then (r, none, cache) else
  let (r, v) := parseUl (strAt (applyAccesses mem acc) 32 0)
  (r, v, cache)

/-- `cg_env_get_memory(ctid, name, &value)`: `cg_get_ul(ctid, CG_MEMORY, name, value)`. -/
def cgEnvGetMemory (text : List Char) (a : ResolveAnswer) (cache : Cache) (n : Names)
    (ctid : Option (List Char)) (name : List Char) (files : List Char → Except Nat (List Char))
    (mem : Int → Char) (parseUl : List Char → Int × Option UInt64) : Int × Option UInt64 × Cache :=
  cgGetUl text a cache n ctid .memory name files mem parseUl

/-- `cg_get_legacy_veid(ctid, &value)`: `cg_get_ul(ctid, CG_VE, "ve.legacy_veid", value)`. -/
def cgGetLegacyVeid (text : List Char) (a : ResolveAnswer) (cache : Cache) (n : Names)
    (ctid : Option (List Char)) (files : List Char → Except Nat (List Char)) (mem : Int → Char)
    (parseUl : List Char → Int × Option UInt64) : Int × Option UInt64 × Cache :=
  cgGetUl text a cache n ctid .ve "ve.legacy_veid".toList files mem parseUl

/-- `cg_env_get_cpulimit(ctid, &limit)`: `cg_get_ul` of `cpu.rate`, then
`limit1024 * 100 / 1024` computed in `unsigned long`; the value is the quotient, before its
conversion to `float`. -/
def cgEnvGetCpulimit (text : List Char) (a : ResolveAnswer) (cache : Cache) (n : Names)
    (ctid : Option (List Char)) (files : List Char → Except Nat (List Char)) (mem : Int → Char)
    (parseUl : List Char → Int × Option UInt64) : Int × Option Nat × Cache :=
  let (r, v, cache) := cgGetUl text a cache n ctid .cpu "cpu.rate".toList files mem parseUl
  if r ≠ 0 then (r, none, cache) else
  (0, v.map fun v => (v * 100 / 1024).toNat, cache)

/-! ## CPU and memory-node masks (`cg_env_set_mask`)

The mask asked for is cut down to the active one, read from the slice's `cpuset` file
(`cg_get_param("", ...)`), and written to the container's. The bitmap routines are out of
the source: a mask is a set of bits, a natural number, and `bitmap_and` over `size` bits is
the bitwise and taken modulo `2^size`. -/

/-- The errors `cg_env_set_mask` returns, `VZCTL_E_CPUMASK` and `VZCTL_E_NOMEM` of
`vzerror.h` (not in the source). -/
inductive MaskErr where
  | cpumask | nomem
  deriving DecidableEq, Repr

/-- The bitmap routines `cg_env_set_mask` calls: `vzctl2_bitmap_parse` of a text (`none`
when it fails) and `bitmap_snprintf` of a mask into the 4096-byte buffer. -/
structure Bitmaps where
  parse : List Char → Option Nat
  format : Nat → List Char

/-- `cg_env_set_mask(ctid, name, cpumask, size)`, with `malloc` succeeding as `mallocOk`
says, the slice's file read into `char buf[4096]` at `0` of `mem`, and call `0` and `1` of
the resolver answering `a 0` and `a 1`: the error, if any, the write made and the cache. -/
def cgEnvSetMask (text : List Char) (a : Nat → ResolveAnswer) (cache : Cache) (n : Names)
    (ctid : Option (List Char)) (bm : Bitmaps) (name : List Char) (cpumask size : Nat)
    (files : List Char → Except Nat (List Char)) (mem : Int → Char) (mallocOk : Bool)
    (w : WriteAnswer) : Option MaskErr × Option (List Char × List Char) × Cache :=
  let cgName := snprintfStr 64 ("cpuset.".toList ++ name)
  let (r, acc, cache) := cgGetParam text (a 0) cache n (some []) .cpuset cgName files 4096 mem
  if r < 0 then (some .cpumask, none, cache) else
  if !mallocOk then (some .nomem, none, cache) else
  match bm.parse (strAt (applyAccesses mem acc) 4096 0) with
  | none => (some .cpumask, none, cache)
  | some active =>
    let mask := (cpumask &&& active) % 2 ^ size
    if mask = 0 then (some .cpumask, none, cache) else
    let (r, wr, cache) := cgSetParam text (a 1) cache n ctid .cpuset cgName (bm.format mask) w
    (if r ≠ 0 then some .cpumask else none, wr, cache)

/-- `cg_env_set_cpumask(ctid, cpumask, size)`. -/
def cgEnvSetCpumask (text : List Char) (a : Nat → ResolveAnswer) (cache : Cache) (n : Names)
    (ctid : Option (List Char)) (bm : Bitmaps) (cpumask size : Nat)
    (files : List Char → Except Nat (List Char)) (mem : Int → Char) (mallocOk : Bool)
    (w : WriteAnswer) : Option MaskErr × Option (List Char × List Char) × Cache :=
  cgEnvSetMask text a cache n ctid bm "cpus".toList cpumask size files mem mallocOk w

/-- `cg_env_set_nodemask(ctid, nodemask, size)`. -/
def cgEnvSetNodemask (text : List Char) (a : Nat → ResolveAnswer) (cache : Cache) (n : Names)
    (ctid : Option (List Char)) (bm : Bitmaps) (nodemask size : Nat)
    (files : List Char → Except Nat (List Char)) (mem : Int → Char) (mallocOk : Bool)
    (w : WriteAnswer) : Option MaskErr × Option (List Char × List Char) × Cache :=
  cgEnvSetMask text a cache n ctid bm "mems".toList nodemask size files mem mallocOk w

section Mask

variable {text : List Char} {a : Nat → ResolveAnswer} {cache : Cache} {n : Names}
  {ctid : Option (List Char)} {bm : Bitmaps} {name : List Char} {cpumask size : Nat}
  {files : List Char → Except Nat (List Char)} {mem : Int → Char} {mallocOk : Bool}
  {w : WriteAnswer}

/-- A controller the table has no mount for, and not cached: `cg_get_ctl` answers `1`, or `-1`
when `/proc/mounts` does not open, and `cg_get_path` passes that on with no path. -/
theorem cgGetPath_unresolved {a' : ResolveAnswer} {c : Ctl} {name' : List Char} {size' : Nat}
    (hres : resolvedPath text c = none) (hc : cache c = none) :
    cgGetPath text a' cache n ctid c name' size' = (if a'.mountsOpen then 1 else -1, none, cache) := by
  have hctl : cgGetCtl text a' cache c = (if a'.mountsOpen then 1 else -1, cache) := by
    rcases getMountPath_some_cases c.subsys text with hg | ⟨p, hg⟩
    · cases ho : a'.mountsOpen
      · simp [cgGetCtl, hc, ho, getMountPath]
      · simp [cgGetCtl, hc, ho, hg]
    · simp [resolvedPath, hg] at hres
  simp only [cgGetPath, hctl]
  split_ifs <;> simp_all

/-- **`cg_env_set_mask` with `cpuset` not mounted.** `cg_get_param` answers `1` without
touching the buffer, and `1` passes the `< 0` check: the active mask is parsed from the
buffer as it stood before the call. The call still fails, with `VZCTL_E_NOMEM` when `malloc`
fails and `VZCTL_E_CPUMASK` otherwise, and writes nothing. -/
theorem cgEnvSetMask_unmounted (hres : resolvedPath text .cpuset = none) (hc : cache .cpuset = none)
    (h0 : (a 0).mountsOpen = true) :
    cgGetParam text (a 0) cache n (some []) .cpuset (snprintfStr 64 ("cpuset.".toList ++ name))
        files 4096 mem = (1, [], cache) ∧
      (cgEnvSetMask text a cache n ctid bm name cpumask size files mem mallocOk w).1 =
        some (if mallocOk then .cpumask else .nomem) ∧
      (cgEnvSetMask text a cache n ctid bm name cpumask size files mem mallocOk w).2.1 = none := by
  have hget : cgGetParam text (a 0) cache n (some []) .cpuset (snprintfStr 64 ("cpuset.".toList ++ name))
      files 4096 mem = (1, [], cache) := by
    simp only [cgGetParam, cgGetPath_unresolved hres hc, h0, if_true]
  refine ⟨hget, ?_⟩
  have hset := @cgGetPath_unresolved text cache n ctid (a 1) .cpuset (snprintfStr 64 ("cpuset.".toList ++ name))
    pathMax hres hc
  simp only [cgEnvSetMask]
  generalize snprintfStr 64 ("cpuset.".toList ++ name) = cgName at hget hset ⊢
  cases h1 : (a 1).mountsOpen <;> cases mallocOk <;>
    simp [hget, cgSetParam, hset, h1] <;> split <;> simp

/-- Bitmap routines that parse every text as CPU `0` alone. -/
def cpu0Bitmaps : Bitmaps := ⟨fun _ => some 1, fun _ => "0".toList⟩

/-- `cg_env_set_cpumask` under `cpuTable`, where only `cpu` is mounted. -/
theorem cgEnvSetMask_unmounted_cpuTable :
    resolvedPath cpuTable .cpuset = none ∧ Cache.empty .cpuset = none ∧
      ((fun _ => {}) 0 : ResolveAnswer).mountsOpen = true ∧
      cgGetParam cpuTable {} Cache.empty ⟨cgGetSliceName none, [], []⟩ (some []) .cpuset
          (snprintfStr 64 ("cpuset.".toList ++ "cpus".toList)) (fun _ => .ok []) 4096 (fun _ => 'x') =
        (1, [], Cache.empty) ∧
      (cgEnvSetMask cpuTable (fun _ => {}) Cache.empty ⟨cgGetSliceName none, [], []⟩ (some "101".toList)
          cpu0Bitmaps "cpus".toList 1 64 (fun _ => .ok []) (fun _ => 'x') true {}).1 =
        some (if true then .cpumask else .nomem) ∧
      (cgEnvSetMask cpuTable (fun _ => {}) Cache.empty ⟨cgGetSliceName none, [], []⟩ (some "101".toList)
          cpu0Bitmaps "cpus".toList 1 64 (fun _ => .ok []) (fun _ => 'x') true {}).2.1 = none :=
  have hres : resolvedPath cpuTable .cpuset = none := by decide
  ⟨hres, rfl, rfl, @cgEnvSetMask_unmounted cpuTable (fun _ => {}) Cache.empty ⟨cgGetSliceName none, [], []⟩
    (some "101".toList) cpu0Bitmaps "cpus".toList 1 64 (fun _ => .ok []) (fun _ => 'x') true {} hres rfl rfl⟩

end Mask

end VzCgroup
