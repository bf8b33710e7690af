import Mathlib.Data.Nat.Digits

/-!
# VzCgroup — the libc string operations `cgroup.c` relies on

A C string is modelled as the list of its bytes, `List Char`, without its terminating
NUL; a buffer that may hold a NUL before its end is read through `cstr`. This module keeps
the few libc behaviours the rest of the development turns on: the `isspace` class that
`sscanf` skips, the tokens `strsep` hands out, and the truncation `snprintf` applies to a
buffer of `size` bytes. Paths are resolved by the kernel one component at a time, so a
path string is also read as the list of its non-empty components (`components`).
-/

namespace VzCgroup

/-- `isspace` in the C locale. -/
def isSpace (c : Char) : Bool :=
  c = ' ' || c = '\t' || c = '\n' || c = '\x0b' || c = '\x0c' || c = '\r'

/-- The C string stored in a buffer: its bytes up to the first NUL. -/
def cstr (s : List Char) : List Char :=
  s.takeWhile (· ≠ '\x00')

/-- The tokens `strsep(&p, d)` returns, in order, when called until it returns `NULL`:
the pieces of `s` between occurrences of `d`, empty pieces included. `acc` is the current
token, reversed. -/
def strsepTokens (d : Char) : List Char → (acc : List Char := []) → List (List Char)
  | [], acc => [acc.reverse]
  | c :: s, acc => if c = d then acc.reverse :: strsepTokens d s else strsepTokens d s (c :: acc)

/-- `has_substr(buf, str)`: some `strsep` token of `buf` at `,` equals `str`. -/
def hasSubstr (buf str : List Char) : Bool :=
  (strsepTokens ',' buf).contains str

/-- The bytes `snprintf(out, size, "%s", s)` stores: at most `size - 1` bytes of `s` and the
NUL, nothing when `size = 0`. Its return value is `s.length` whatever `size` is. -/
def snprintfBytes (size : Nat) (s : List Char) : List Char :=
  if size = 0 then [] else s.take (size - 1) ++ ['\x00']

/-- The string left in a buffer of `size > 0` bytes by `snprintf(out, size, "%s", s)`. -/
def snprintfStr (size : Nat) (s : List Char) : List Char :=
  s.take (size - 1)

/-- `PATH_MAX`: the size of every path buffer of `cgroup.c`. -/
def pathMax : Nat := 4096

/-- The components of a path string: the non-empty pieces between slashes. `//` and a
trailing slash name the same directory as `/`, which is how the kernel resolves them. -/
def components (s : List Char) : List (List Char) :=
  (strsepTokens '/' s).filter (· ≠ [])

/-- Modelled from the spec: `VZCTL_E_INVAL`, one of the error codes of `vzerror.h` (not in
src/) that `cgroup.c` returns; nothing here depends on its value beyond its being non-zero. -/
def vzctlEInval : Int := 10

/-- Modelled from the spec: `VZCTL_E_SYSTEM` (`vzerror.h`, not in src/), the error
`cg_destroy` returns when `rm_tree` fails; nothing here depends on its value beyond its
being non-zero. -/
def vzctlESystem : Nat := 3

/-! ## `strsep` tokens -/

/-- The tokens of `s ++ d :: t`: those of `s`, then those of `t`. -/
theorem strsepTokens_append_delim (d : Char) (s t acc : List Char) (h : d ∉ s) :
    strsepTokens d (s ++ d :: t) acc = (acc.reverse ++ s) :: strsepTokens d t := by
  induction s generalizing acc with
  | nil => simp [strsepTokens]
  | cons c s ih =>
    have hc : c ≠ d := fun hc => h (hc ▸ List.mem_cons_self c s)
    have hs : d ∉ s := fun hs => h (List.mem_cons_of_mem c hs)
    simp [strsepTokens, hc, ih _ hs]

/-- The tokens of `s ++ d :: t` for any `s`: those of `s`, the last one ended by the `d`,
then those of `t`. -/
theorem strsepTokens_append_cons (d : Char) (s t acc : List Char) :
    strsepTokens d (s ++ d :: t) acc = strsepTokens d s acc ++ strsepTokens d t := by
  induction s generalizing acc with
  | nil => simp [strsepTokens]
  | cons c s ih =>
    by_cases hc : c = d <;> simp [strsepTokens, hc, ih]

/-- A slash between two strings joins their components. -/
theorem components_append_slash (s t : List Char) :
    components (s ++ '/' :: t) = components s ++ components t := by
  simp [components, strsepTokens_append_cons]

@[simp] theorem components_nil : components [] = [] := rfl

/-- A leading slash names nothing more. -/
theorem components_cons_slash (t : List Char) : components ('/' :: t) = components t := by
  simpa using components_append_slash [] t

end VzCgroup
