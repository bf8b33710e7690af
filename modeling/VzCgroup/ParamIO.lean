import VzCgroup.Resolver

/-!
# VzCgroup — parameter I/O (`cg_read`, `cg_get_path`, `cg_get_param`)

`cg_read` reads a control file into the caller's buffer `out` of `size` bytes and then
looks at the byte before the end of what it read, to drop a trailing newline. The buffer
is modelled as the memory around it, `Int → Char` with `out[0]` at index `0`, and the run
as the list of its accesses to that memory, so that a claim about which bytes are touched
is a statement about that list.
-/

namespace VzCgroup

/-- One access of `cg_read` to the memory at `out`. -/
inductive Access where
  | read (i : Int)
  | write (i : Int) (c : Char)
  deriving DecidableEq, Repr

/-- The index an access touches. -/
def Access.index : Access → Int
  | .read i => i
  | .write i _ => i

/-- Memory after a list of accesses. -/
def applyAccesses (mem : Int → Char) : List Access → Int → Char
  | [] => mem
  | .read _ :: as => applyAccesses mem as
  | .write i c :: as => applyAccesses (Function.update mem i c) as

/-- The `count` of `read(fd, out, size-1)`: `size - 1` as an `int`, converted to `size_t`. -/
def readCount (size : Nat) : Nat :=
  (((size : Int) - 1) % 2 ^ 64).toNat

/-- `read(2)` of a control file holding `c` into `out`: the byte count it returns and the
stores it makes, `out[0, r)`. -/
def readStores (c : List Char) (count : Nat) : Nat × List Access :=
  let r := min c.length count
  (r, (List.range r).map fun (i : Nat) => .write (i : Int) (c.getD i '\x00'))

/-- `cg_read(path, out, size)` on a file that opens and reads as `file` (`.error e`: the
open or the read fails with `errno = e`). Returns the result and the accesses to `out`, in
program order; the byte `out[r-1]` is read from memory as it stands after the read. -/
def cgRead (file : Except Nat (List Char)) (size : Nat) (mem : Int → Char) :
    Int × List Access :=
  match file with
  | .error e => (-(e : Int), [])
  | .ok c =>
    let (r, stores) := readStores c (readCount size)
    let last : Int := (r : Int) - 1
    if applyAccesses mem stores last = '\n' then
      (0, stores ++ [.read last, .write last '\x00'])
    else
      (0, stores ++ [.read last, .write r '\x00'])

/-- The C string `cg_read` leaves at `out`: the bytes from `out[0]` up to the first NUL,
read from memory after the run. `bound` caps the scan. -/
def strAt (mem : Int → Char) : (bound : Nat) → (i : Nat) → List Char
  | 0, _ => []
  | b + 1, i => if mem i = '\x00' then [] else mem i :: strAt mem b (i + 1)

/-- `cg_get_path(ctid, c->subsys, name, out, size)`: a non-zero answer of `cg_get_ctl` as it
is, or `0` with the path of the control file `name` under the mount point (`ctid` `NULL`)
or under the container's directory. -/
def cgGetPath (text : List Char) (a : ResolveAnswer) (cache : Cache) (n : Names)
    (ctid : Option (List Char)) (c : Ctl) (name : List Char) (size : Nat) :
    Int × Option (List Char) × Cache :=
  let (r, cache) := cgGetCtl text a cache c
  if r ≠ 0 then (r, none, cache) else
  let mp := (cache c).getD []
  match ctid with
  | none => (0, some (snprintfStr size (mp ++ '/' :: name)), cache)
  | some id => (0, some (snprintfStr size (getCgroupName n id mp c ++ '/' :: name)), cache)

/-- `cg_get_param(ctid, c->subsys, name, out, size)`, with the control files read as
`files` says: `cg_get_path`'s non-zero answer, or `cg_read` of the file at the path. -/
def cgGetParam (text : List Char) (a : ResolveAnswer) (cache : Cache) (n : Names)
    (ctid : Option (List Char)) (c : Ctl) (name : List Char)
    (files : List Char → Except Nat (List Char)) (size : Nat) (mem : Int → Char) :
    Int × List Access × Cache :=
  match cgGetPath text a cache n ctid c name pathMax with
  | (0, some path, cache) => let (r, acc) := cgRead (files path) size mem; (r, acc, cache)
  | (r, _, cache) => (r, [], cache)

/-! ## `cg_read` on an empty file -/

/-- An empty control file, read into the 32-byte buffer of `cg_get_ull`: `read` returns
`0`, and `cg_read` reads `out[-1]`, the byte before the buffer. When that byte happens to
be a newline it also stores a NUL there and leaves `out[0]` as it was. -/
theorem cgRead_empty_reads_before_buffer (mem : Int → Char) :
    Access.read (-1) ∈ (cgRead (.ok []) 32 mem).2 ∧
      (mem (-1) = '\n' → Access.write (-1) '\x00' ∈ (cgRead (.ok []) 32 mem).2 ∧
        ∀ a ∈ (cgRead (.ok []) 32 mem).2, a.index ≠ 0) := by
  simp [cgRead, readStores, readCount, applyAccesses]
  split <;> simp_all [Access.index]

end VzCgroup
