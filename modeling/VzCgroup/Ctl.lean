import VzCgroup.Basic

/-!
# VzCgroup — the controller table and cgroup path derivation

`cg_ctl_map` is a fixed table of thirteen controllers; its only mutable field, the
resolved mount path, is the resolver's cache and lives in the state of
`VzCgroup.Resolver`. Here are the table's static columns (`subsys`, `is_prvt`), its order,
and `get_cgroup_name`, the pure function from a controller's mount path and a container id
to the container's directory under that controller.
-/

namespace VzCgroup

/-- The entries of `cg_ctl_map`. -/
inductive Ctl where
  | cpu | cpuset | netCls | memory | devices | blkio | freezer
  | ub | ve | perfEvent | hugetlb | pids | systemd
  deriving DecidableEq, Repr

namespace Ctl

/-- Modelled from the spec: the values of the `CG_*` macros (`cgroup.h`, not in src/),
as the spec names the controllers and their control files (`beancounter.<name>.barrier`,
`ve.state`, ...). -/
def subsys : Ctl → List Char
  | cpu => "cpu".toList
  | cpuset => "cpuset".toList
  | netCls => "net_cls".toList
  | memory => "memory".toList
  | devices => "devices".toList
  | blkio => "blkio".toList
  | freezer => "freezer".toList
  | ub => "beancounter".toList
  | ve => "ve".toList
  | perfEvent => "perf_event".toList
  | hugetlb => "hugetlb".toList
  | pids => "pids".toList
  | systemd => "systemd".toList

/-- `is_prvt`: set for `{CG_UB, 1}` and `{CG_VE, 1}` only. -/
def isPrvt : Ctl → Bool
  | ub | ve => true
  | _ => false

end Ctl

/-- `cg_ctl_map`, in table order. -/
def cgCtlMap : List Ctl :=
  [.cpu, .cpuset, .netCls, .memory, .devices, .blkio, .freezer,
   .ub, .ve, .perfEvent, .hugetlb, .pids, .systemd]

theorem mem_cgCtlMap (c : Ctl) : c ∈ cgCtlMap := by
  cases c <;> decide

theorem cgCtlMap_nodup : cgCtlMap.Nodup := by
  decide

/-- `cg_is_systemd`. -/
def cgIsSystemd (subsys : List Char) : Bool :=
  subsys = "systemd".toList

/-- `find_cg_ctl`: the first table entry whose `subsys` is the given name. -/
def findCgCtl (subsys : List Char) : Option Ctl :=
  cgCtlMap.find? (·.subsys = subsys)

@[simp] theorem findCgCtl_subsys (c : Ctl) : findCgCtl c.subsys = some c := by
  cases c <;> decide

@[simp] theorem cgIsSystemd_subsys (c : Ctl) : cgIsSystemd c.subsys = (c = .systemd) := by
  cases c <;> decide

/-- What `cgroup.c` takes from outside the file to name a container's directories: the
slice `cg_get_slice_name` returns, and the systemd scope format `SYSTEMD_CTID_SCOPE_FMT`
(`cgroup.h`, not in src/) split at its `%s`. -/
structure Names where
  slice : List Char
  scopePre : List Char
  scopePost : List Char

/-- `cg_get_slice_name`: the global parameter `VE_CGROUP_SLICE` when it is set (read into a
64-byte buffer), `machine.slice` otherwise. -/
def cgGetSliceName (param : Option (List Char)) : List Char :=
  match param with
  | some s => s.take 63
  | none => "machine.slice".toList

/-- The text `get_cgroup_name` formats, before `snprintf` cuts it to the buffer. -/
def cgroupNameText (n : Names) (ctid mountPath : List Char) (c : Ctl) : List Char :=
  if cgIsSystemd c.subsys then mountPath ++ '/' :: (n.scopePre ++ ctid ++ n.scopePost)
  else if c.isPrvt then mountPath ++ '/' :: ctid
  else mountPath ++ '/' :: (n.slice ++ '/' :: ctid)

/-- `get_cgroup_name(ctid, ctl, out, PATH_MAX)`, for a controller whose mount path is set. -/
def getCgroupName (n : Names) (ctid mountPath : List Char) (c : Ctl) : List Char :=
  snprintfStr pathMax (cgroupNameText n ctid mountPath c)

end VzCgroup
