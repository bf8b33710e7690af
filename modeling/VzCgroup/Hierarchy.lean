import VzCgroup.TreeWalk.Run
import VzCgroup.Resolver

/-!
# VzCgroup — a container's hierarchy (`cg_create`, `cg_destroy`, `cg_new_cgroup`, `cg_destroy_cgroup`)

A container has one directory under every controller whose mount resolves: the path
`get_cgroup_name` formats from the controller's mount point and the container id.
`cg_new_cgroup` walks the table in order, creating each with `make_dir`, and on the first
failure destroys the directories of the controllers before it, last first, with
`cg_destroy` (`rm_tree` of the directory). `cg_destroy_cgroup` walks the table and ORs the
results of `cg_destroy`, skipping the controllers `cg_get_ctl` does not resolve.

The operations change two things, the filesystem and the resolver's cache (`Host`).
What they ask of the kernel is given by answers: `ResolveAnswer` for each `cg_get_ctl`,
a `make_dir` failure for each creation, `RmAnswers` for each `rm_tree`. Every `rm_tree` of
a call runs on the call's fuel; a walk that has not ended by then is a call that does not
return (`none`). A result on some fuel is the result on every larger one
(`cgNewCgroup_mono`, `cgDestroyCgroup_mono`), so what holds on every fuel holds of every
call that returns.
-/

namespace VzCgroup

/-! ## `make_dir` -/

/-- `mkdir` of each missing directory from `pre ++ [x]` down to `pre ++ rest`, outermost
first, stopping at the first refusal. -/
def mkdirAllFrom (fs : Fs) (pre : Path) : Path → Fs
  | [] => fs
  | x :: rest =>
    if fs.isDir (pre ++ [x]) then mkdirAllFrom fs (pre ++ [x]) rest
    else
      match fs.mkdir (pre ++ [x]) with
      | .ok fs' => mkdirAllFrom fs' (pre ++ [x]) rest
      | .error _ => fs

/-- Every missing directory of `p`, outermost first. -/
def mkdirAll (fs : Fs) (p : Path) : Fs :=
  mkdirAllFrom fs [] p

/-- Modelled from the spec: `make_dir(path, 1)` (util.c, not in src/) "recursively
create[s]" the directory, and an existing directory is no error. A failure
(`fail = some k`) may come after the first `k` components were created, never after the
last; the code returned is then non-zero (`-1` here). -/
def makeDir (fail : Option Nat) (fs : Fs) (p : Path) : Int × Fs :=
  match fail with
  | none =>
    let fs' := mkdirAll fs p
    (if fs'.isDir p then 0 else -1, fs')
  | some k => (-1, mkdirAll fs (p.take (min k (p.length - 1))))

/-! ## The operations -/

/-- What `cgroup.c` changes: the filesystem and the resolved mount paths. -/
structure Host where
  fs : Fs
  cache : Cache

/-- `cg_create(ctid, ctl)` for a controller whose mount path is `mp`. -/
def cgCreate (n : Names) (fail : Option Nat) (ctid mp : List Char) (c : Ctl) (fs : Fs) : Int × Fs :=
  makeDir fail fs (components (getCgroupName n ctid mp c))

/-- `cg_destroy(ctid, ctl)`: `0` when the mount path is unset; otherwise `rm_tree` of the
container's directory, `VZCTL_E_SYSTEM` if it fails. Both results are non-negative, so the
`int` OR of `cg_destroy_cgroup` is `Nat`'s. -/
def cgDestroy (fuel : Nat) (n : Names) (ans : RmAnswers) (ctid : List Char) (cache : Cache) (c : Ctl)
    (fs : Fs) : Option (Nat × Fs) :=
  match cache c with
  | none => some (0, fs)
  | some mp =>
    match rmTree fuel ans fs (getCgroupName n ctid mp c) with
    | none => none
    | some (r, fs', _) => some (if r ≠ 0 then vzctlESystem else 0, fs')

/-- The answers of one `cg_new_cgroup`, per controller: its `cg_get_ctl`, its `make_dir`,
and the `rm_tree` of its rollback. -/
structure NewAnswers where
  resolve : Ctl → ResolveAnswer := fun _ => {}
  makeDir : Ctl → Option Nat := fun _ => none
  rm : Ctl → RmAnswers := fun _ => {}

/-- The rollback of `cg_new_cgroup`: `cg_destroy` of the given controllers in order, the
results ignored. -/
def rollback (fuel : Nat) (n : Names) (rm : Ctl → RmAnswers) (ctid : List Char) (cache : Cache) :
    List Ctl → Fs → Option Fs
  | [], fs => some fs
  | c :: cs, fs =>
    match cgDestroy fuel n (rm c) ctid cache c fs with
    | none => none
    | some (_, fs') => rollback fuel n rm ctid cache cs fs'

/-- The controller loop of `cg_new_cgroup` from table position `i`: the result, the
position it stopped at, and the host. -/
def cgNewLoop (text : List Char) (n : Names) (ctid : List Char) (ans : NewAnswers) :
    Nat → List Ctl → Host → Int × Nat × Host
  | i, [], h => (0, i, h)
  | i, c :: cs, h =>
    let r := cgGetCtl text (ans.resolve c) h.cache c
    let h := { h with cache := r.2 }
    if r.1 = -1 then (-1, i, h)
    else if r.1 ≠ 0 then cgNewLoop text n ctid ans (i + 1) cs h
    else
      let cr := cgCreate n (ans.makeDir c) ctid ((r.2 c).getD []) c h.fs
      if cr.1 ≠ 0 then (cr.1, i, { h with fs := cr.2 })
      else cgNewLoop text n ctid ans (i + 1) cs { h with fs := cr.2 }

/-- `cg_new_cgroup(ctid)`: on an error at position `i`, `cg_destroy` of the controllers
`i - 1` down to `0`, and the error. -/
def cgNewCgroup (fuel : Nat) (text : List Char) (n : Names) (ctid : List Char) (ans : NewAnswers)
    (h : Host) : Option (Int × Host) :=
  let (ret, i, h) := cgNewLoop text n ctid ans 0 cgCtlMap h
  if ret = 0 then some (0, h)
  else (rollback fuel n ans.rm ctid h.cache (cgCtlMap.take i).reverse h.fs).map fun fs => (ret, { h with fs })

/-- The controller loop of `cg_destroy_cgroup`: the OR of the results so far, the host,
and each `cg_destroy` made with its result. -/
def cgDestroyLoop (fuel : Nat) (text : List Char) (n : Names) (ctid : List Char)
    (res : Ctl → ResolveAnswer) (rm : Ctl → RmAnswers) : List Ctl → Host → Nat → List (Ctl × Nat) →
      Option (Nat × Host × List (Ctl × Nat))
  | [], h, ret, log => some (ret, h, log)
  | c :: cs, h, ret, log =>
    let r := cgGetCtl text (res c) h.cache c
    let h := { h with cache := r.2 }
    if r.1 ≠ 0 then cgDestroyLoop fuel text n ctid res rm cs h ret log
    else
      match cgDestroy fuel n (rm c) ctid h.cache c h.fs with
      | none => none
      | some (d, fs) => cgDestroyLoop fuel text n ctid res rm cs { h with fs } (ret ||| d) (log ++ [(c, d)])

/-- `cg_destroy_cgroup(ctid)`: the result, the host, and the `cg_destroy` calls made. -/
def cgDestroyCgroup (fuel : Nat) (text : List Char) (n : Names) (ctid : List Char)
    (res : Ctl → ResolveAnswer) (rm : Ctl → RmAnswers) (h : Host) : Option (Nat × Host × List (Ctl × Nat)) :=
  cgDestroyLoop fuel text n ctid res rm cgCtlMap h 0 []

/-- The directory of container `ctid` under controller `c`, when the mount table
resolves `c`. -/
def cgPath (text : List Char) (n : Names) (ctid : List Char) (c : Ctl) : Option Path :=
  (resolvedPath text c).map fun mp => components (getCgroupName n ctid mp c)

end VzCgroup
