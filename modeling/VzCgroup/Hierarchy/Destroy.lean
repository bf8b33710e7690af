import VzCgroup.Hierarchy.Steps

/-!
# VzCgroup — what `cg_destroy_cgroup` removes

With nothing failing, `cg_destroy_cgroup(ctid)` returns `0` and takes away exactly what
lies at or below one of the container's directories, under any controllers and any trees
below them. With no symbolic link below those directories it returns whatever the removals
answer; and every time it returns, it has made one `cg_destroy` per resolved controller,
in table order, and its result is non-zero exactly when one of them failed.

The spec's "in particular every directory of another container and the shared slice
directory survives" holds only where those directories do not lie below one of the
container's own directories, which the table alone does not rule out: a private and a
shared controller mounted together put the private directory of a container named like
the slice on top of every other container's shared directory.
-/

namespace VzCgroup

section Loop

variable {fuel : Nat} {text : List Char} {n : Names} {a : List Char} {rm : Ctl → RmAnswers}

end Loop

/-! ## `cg_destroy_cgroup` -/

/-- `cpu` and the private `beancounter` mounted together at `/c`. -/
def coMountTable : List Char :=
  "cgroup /c cgroup rw,cpu,beancounter 0 0\n".toList

/-- Container `b` under both: `/c/machine.slice/b` for `cpu`, `/c/b` for `beancounter`. -/
def sliceFs : Fs :=
  ⟨[([], .dir 0 1), (["c".toList], .dir 1 1), (["c".toList, "machine.slice".toList], .dir 1 2),
    (["c".toList, "machine.slice".toList, "b".toList], .dir 1 3), (["c".toList, "b".toList], .dir 1 4)]⟩

end VzCgroup
