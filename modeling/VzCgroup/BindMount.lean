import VzCgroup.Fs
import VzCgroup.Resolver

/-!
# VzCgroup — the container's cgroup view (`bindmount_env_cgroup`)

`cg_bindmount_cgroup` mounts a `sysfs` at `<root>/sys` and a `tmpfs` at
`<root>/sys/fs/cgroup`, reads the kernel's controller list from `/proc/cgroups`, and then,
for each shared controller the list names (systemd always), remounts the host mount point
as a slave and bind-mounts the container's own directory over `<root>` + mount point,
once per mount point. A failure in the controller loop jumps to `err:`, which unmounts
what the list `head` names and then the two skeleton mounts.

Every system call the code makes is logged with the error it answered; the answers come
from a `BindAnswers`, whose defaults are the calls succeeding. The kernel's mount table is
then a function of the log (`mountsLeft`).
-/

namespace VzCgroup

/-! ## Calls and answers -/

/-- Linux's `MS_BIND`. -/
def msBind : Nat := 4096

/-- Linux's `MS_PRIVATE`. -/
def msPrivate : Nat := 262144

/-- Linux's `MS_SLAVE`. -/
def msSlave : Nat := 524288

/-- Modelled from the spec: `VZCTL_E_CREATE_DIR`, `VZCTL_E_RESOURCE` and `VZCTL_E_NOMEM`
(`vzerror.h`, not in src/); nothing here depends on their values beyond their being
non-zero. -/
def vzctlECreateDir : Int := 5

@[inherit_doc vzctlECreateDir]
def vzctlEResource : Int := 6

@[inherit_doc vzctlECreateDir]
def vzctlENomem : Int := 4

/-- A system call of `cg_bindmount_cgroup` and its helpers, with the arguments the code
passes (`make_dir(p, 1)`, which creates missing parents, counts as one call). -/
inductive SysCall where
  | makeDir (path : List Char)
  | mount (src target fstype : Option (List Char)) (flags : Nat)
  | umount (target : List Char)
  | unlink (path : List Char)
  | symlink (oldpath newpath : List Char)
  deriving DecidableEq, Repr

/-- A call made, and the error it answered. -/
abbrev Event := SysCall × Option Errno

/-- How the calls of one `bindmount_env_cgroup` go. `err n c` answers the call `c` made
`n`-th; `cgroupsAlloc k` and `headAlloc k` say whether `add_str_param` gets its memory for
the `k`-th entry of the controller list and of `head`. -/
structure BindAnswers where
  present : List Char → Bool := fun _ => false
  err : Nat → SysCall → Option Errno := fun _ _ => none
  cgroupsOpen : Bool := true
  cgroupsAlloc : Nat → Bool := fun _ => true
  headAlloc : Nat → Bool := fun _ => true
  resolve : Ctl → ResolveAnswer := fun _ => {}

/-- Make a call: its answer, and the log with it. -/
def BindAnswers.call (a : BindAnswers) (log : List Event) (c : SysCall) :
    Option Errno × List Event :=
  (a.err log.length c, log ++ [(c, a.err log.length c)])

@[simp] theorem BindAnswers.call_fst (a : BindAnswers) (log : List Event) (c : SysCall) :
    (a.call log c).1 = a.err log.length c := rfl

@[simp] theorem BindAnswers.call_snd (a : BindAnswers) (log : List Event) (c : SysCall) :
    (a.call log c).2 = log ++ [(c, a.err log.length c)] := rfl

/-- What `cg_bindmount_cgroup` reads of the container and of the headers outside src/: the
root `ve_root`, the id `EID(h)`, the names of its directories, and `STR_SIZE`. -/
structure BindEnv where
  root : List Char
  ctid : List Char
  names : Names
  strSize : Nat

/-! ## The helpers -/

/-- `access(p, F_OK) && make_dir(p, 1)` read as success: whether `p` is there or was made. -/
def ensureDir (a : BindAnswers) (log : List Event) (p : List Char) : Bool × List Event :=
  if a.present p then (true, log)
  else
    let (e, log) := a.call log (.makeDir p)
    (e.isNone, log)

/-- `do_bindmount(src, dst, mnt_flags)`. -/
def doBindmount (a : BindAnswers) (src dst : List Char) (flags : Nat) (log : List Event) :
    Int × List Event :=
  let (ok, log) := ensureDir a log dst
  if !ok then (vzctlEResource, log) else
  let (ok, log) := ensureDir a log src
  if !ok then (vzctlEResource, log) else
  let (e, log) := a.call log (.mount (some src) (some dst) none flags)
  (if e.isSome then vzctlEResource else 0, log)

/-- The loop of `create_perctl_symlink`: link `name`, stop after the `last` one, otherwise
cut the next name out of the rest `p` at its first comma (`last` when there is none).
`fuel` counts iterations; the caller gives more than the loop can take. -/
def perctlLoop (a : BindAnswers) (root path oldpath : List Char) :
    Nat → List Char → List Char → Bool → List Event → Int × List Event
  | 0, _, _, _, log => (0, log)
  | fuel + 1, name, p, last, log =>
    let newpath := snprintfStr pathMax (root ++ '/' :: path ++ "/../".toList ++ name)
    let log := (a.call log (.unlink newpath)).2
    let (e, log) := a.call log (.symlink oldpath newpath)
    if e.isSome && e != some .eexist then (-1, log)
    else if last then (0, log)
    else match p.span (· ≠ ',') with
      | (nm, []) => perctlLoop a root path oldpath fuel nm [] true log
      | (nm, _ :: rest) => perctlLoop a root path oldpath fuel nm rest false log

/-- `create_perctl_symlink(root, path)`: for a last component `n1,...,nk` of `path`
(cut to `STR_SIZE - 1` bytes), a link `<root>/<path>/../ni` to it for each name. -/
def createPerctlSymlink (a : BindAnswers) (strSize : Nat) (root path : List Char)
    (log : List Event) : Int × List Event :=
  if '/' ∉ path then (0, log) else
  let buf := snprintfStr strSize (path.reverse.takeWhile (· ≠ '/')).reverse
  match buf.span (· ≠ ',') with
  | (_, []) => (0, log)
  | (name, _ :: p) => perctlLoop a root path buf (buf.length + 1) name p false log

/-- The loop of `get_cgroups` over the `fgets` buffers of `/proc/cgroups`: the first word
of each, unless there is none or it begins with `#`, appended to the list. A failed
`add_str_param` frees the list and returns `VZCTL_E_NOMEM`. -/
def getCgroupsLoop (a : BindAnswers) : List (List Char) → List (List Char) →
    Int × List (List Char)
  | [], acc => (0, acc)
  | buf :: bufs, acc =>
    match scanWord none (cstr buf) with
    | none => getCgroupsLoop a bufs acc
    | some (w, _) =>
      if w.head? = some '#' then getCgroupsLoop a bufs acc
      else if a.cgroupsAlloc acc.length then getCgroupsLoop a bufs (acc ++ [w])
      else (vzctlENomem, [])

/-- `get_cgroups(&cgroups)` on the contents of `/proc/cgroups`, read with `fgets` into a
`STR_SIZE` buffer. -/
def getCgroups (a : BindAnswers) (strSize : Nat) (text : List Char) : Int × List (List Char) :=
  if a.cgroupsOpen then getCgroupsLoop a (fgetsLines (strSize - 1) text.length text) []
  else (vzctlESystem, [])

/-! ## `cg_bindmount_cgroup` -/

/-- How the controller loop, or the whole call, ends: with `ret`, or by handing a
controller's unset `mount_path` (left `NULL` by a `cg_get_ctl` that answered `1`) to
`find_str`, past which the code's behaviour is not defined. -/
inductive BindEnd where
  | ret (r : Int)
  | nullMountPath (c : Ctl)
  deriving DecidableEq, Repr

/-- The turn of the controller loop of `cg_bindmount_cgroup` for a controller `c` whose
mount path `mnt` is not in `head` yet: the slave remount, the append to `head`, the bind
mount of the container's directory and the per-controller links. `ret`, `head` and the
log after it; a non-zero `ret` leaves the loop (`goto err`, or `break` for the append). -/
def bindMountPath (e : BindEnv) (a : BindAnswers) (c : Ctl) (mnt : List Char)
    (head : List (List Char)) (log : List Event) : Int × List (List Char) × List Event :=
  let (err, log) := a.call log (.mount none (some mnt) none msSlave)
  if err.isSome then (vzctlESystem, head, log)
  else if !a.headAlloc head.length then (vzctlENomem, head, log)
  else
    let head := head ++ [mnt]
    let flags := if cgIsSystemd c.subsys then msBind else msBind ||| msPrivate
    let (r, log) := doBindmount a (getCgroupName e.names e.ctid mnt c)
      (snprintfStr pathMax (e.root ++ mnt)) flags log
    if r ≠ 0 then (r, head, log)
    else
      let (r, log) := createPerctlSymlink a e.strSize e.root mnt log
      (r, head, log)

/-- The controller loop of `cg_bindmount_cgroup` from `ret`: how it is left (at the end of
the table, or for `err:`), and the cache, `head` and log then. `find_str` and
`add_str_param`, list helpers outside src/, search a list by `strcmp` and append to it. -/
def bindLoop (e : BindEnv) (text : List Char) (a : BindAnswers) (cgroups : List (List Char)) :
    List Ctl → Int → Cache → List (List Char) → List Event →
      BindEnd × Cache × List (List Char) × List Event
  | [], ret, cache, head, log => (.ret ret, cache, head, log)
  | c :: cs, _, cache, head, log =>
    let (r, cache) := cgGetCtl text (a.resolve c) cache c
    if r = -1 then (.ret (-1), cache, head, log)
    else if c.isPrvt then bindLoop e text a cgroups cs r cache head log
    else if !cgIsSystemd c.subsys && !cgroups.contains c.subsys then
      bindLoop e text a cgroups cs r cache head log
    else match cache c with
      | none => (.nullMountPath c, cache, head, log)
      | some mnt =>
        if head.contains mnt then bindLoop e text a cgroups cs r cache head log
        else
          let (r, head, log) := bindMountPath e a c mnt head log
          if r ≠ 0 then (.ret r, cache, head, log)
          else bindLoop e text a cgroups cs r cache head log

/-- The `err:` block with `ret` non-zero: unmount `<root>/<m>` for every `m` of `head`, in
list order, then the `tmpfs` and the `sysfs`. -/
def unwind (e : BindEnv) (a : BindAnswers) (head : List (List Char)) (log : List Event) :
    List Event :=
  let log := head.foldl (fun log m => (a.call log (.umount (snprintfStr pathMax
    (e.root ++ '/' :: m)))).2) log
  let log := (a.call log (.umount (snprintfStr pathMax (e.root ++ "/sys/fs/cgroup".toList)))).2
  (a.call log (.umount (snprintfStr pathMax (e.root ++ "/sys".toList)))).2

/-- The first steps of `cg_bindmount_cgroup`: the `sysfs` at `<root>/sys`, the `tmpfs` at
`<root>/sys/fs/cgroup` and `get_cgroups`. The error they return, `0` to go on, the
controller list and the log. -/
def bindSkeleton (e : BindEnv) (procCgroups : List Char) (a : BindAnswers) :
    Int × List (List Char) × List Event :=
  let sys := snprintfStr pathMax (e.root ++ "/sys".toList)
  let (ok, log) := ensureDir a [] sys
  if !ok then (vzctlECreateDir, [], log) else
  let (err, log) := a.call log (.mount none (some sys) (some "sysfs".toList) 0)
  if err.isSome then (vzctlEResource, [], log) else
  let cg := snprintfStr pathMax (e.root ++ "/sys/fs/cgroup".toList)
  let (ok, log) := ensureDir a log cg
  if !ok then (vzctlEResource, [], log) else
  let (err, log) := a.call log (.mount none (some cg) (some "tmpfs".toList) 0)
  if err.isSome then (vzctlEResource, [], log) else
  let (r, cgroups) := getCgroups a e.strSize procCgroups
  (r, cgroups, log)

/-- `cg_bindmount_cgroup(h, head)` with the mount table `text` and `/proc/cgroups` holding
`procCgroups`: how it ends, the resolver cache and the calls it made. An error of the first
steps is returned at once; one of the controller loop goes through `err:`. -/
def cgBindmountCgroup (e : BindEnv) (text procCgroups : List Char) (a : BindAnswers)
    (cache : Cache) (head : List (List Char)) : BindEnd × Cache × List Event :=
  let (r, cgroups, log) := bindSkeleton e procCgroups a
  if r ≠ 0 then (.ret r, cache, log) else
  match bindLoop e text a cgroups cgCtlMap 0 cache head log with
  | (.ret r, cache, head, log) => (.ret r, cache, if r ≠ 0 then unwind e a head log else log)
  | (.nullMountPath c, cache, _, log) => (.nullMountPath c, cache, log)

/-- `bindmount_env_cgroup(h)`: `cg_bindmount_cgroup` with an empty `head`. -/
def bindmountEnvCgroup (e : BindEnv) (text procCgroups : List Char) (a : BindAnswers)
    (cache : Cache) : BindEnd × Cache × List Event :=
  cgBindmountCgroup e text procCgroups a cache []

/-! ## The mount table -/

/-- The mount a call makes when it succeeds, by its path: a `mount` that names a type or
binds. `MS_SLAVE` alone only changes how an existing mount propagates. -/
def SysCall.mountsAt : SysCall → Option Path
  | .mount _ (some t) fstype flags =>
    if fstype.isSome || flags &&& msBind != 0 then some (components t) else none
  | _ => none

/-- One call's effect on the mounts made so far: a successful mount adds one, a successful
`umount` takes one at its path away. -/
def Event.apply (m : List Path) : Event → List Path
  | (.umount t, none) => m.erase (components t)
  | (c, none) => m ++ c.mountsAt.toList
  | (_, some _) => m

/-- The mounts a run of calls made and left in place. -/
def mountsLeft (log : List Event) : List Path :=
  log.foldl Event.apply []

/-! ## Early returns -/

/-- A container at `/ct`. -/
def sampleEnv : BindEnv :=
  ⟨"/ct".toList, "101".toList, ⟨cgGetSliceName none, [], []⟩, 512⟩

/-- With `/proc/cgroups` unreadable, `bindmount_env_cgroup` returns `VZCTL_E_SYSTEM` with
the `sysfs` and the `tmpfs` still mounted: `get_cgroups` fails after both and the call
returns before `err:`. With `make_dir` of `<root>/sys/fs/cgroup` failing, the third call, it
returns `VZCTL_E_RESOURCE` with the `sysfs` mounted. -/
theorem bindmountEnvCgroup_early_return_keeps_mounts :
    (bindmountEnvCgroup sampleEnv [] [] { cgroupsOpen := false } Cache.empty).1 =
        .ret vzctlESystem ∧
      mountsLeft (bindmountEnvCgroup sampleEnv [] [] { cgroupsOpen := false } Cache.empty).2.2 =
        [components "/ct/sys".toList, components "/ct/sys/fs/cgroup".toList] ∧
      (bindmountEnvCgroup sampleEnv [] [] { err := fun n _ => if n = 2 then some .other else none }
        Cache.empty).1 = .ret vzctlEResource ∧
      mountsLeft (bindmountEnvCgroup sampleEnv [] []
        { err := fun n _ => if n = 2 then some .other else none } Cache.empty).2.2 =
        [components "/ct/sys".toList] := by
  decide

end VzCgroup
