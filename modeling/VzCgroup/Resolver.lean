import VzCgroup.MountTable

/-!
# VzCgroup — the mount resolver (`cg_get_ctl`) and its cache

`cg_ctl_map[i].mount_path` is the one piece of state shared by every operation of
`cgroup.c`: `NULL` until `cg_get_ctl` first resolves the controller, then the mount point
`get_mount_path` found. `cg_get_ctl` answers in three ways, `0` (resolved), `1` (no
matching mount) and `-1` (`/proc/mounts` could not be opened, or `xstrdup` failed); only
`0` fills the cache, and a filled entry is never changed again.

The mount table is fixed (`text`); what may differ from call to call is whether the
call's own system work succeeds, which the caller supplies as a `ResolveAnswer`.
-/

namespace VzCgroup

/-- `cg_ctl_map[i].mount_path` for every controller. -/
abbrev Cache := Ctl → Option (List Char)

/-- The cache at process start: every `mount_path` is `NULL`. -/
def Cache.empty : Cache := fun _ => none

/-- How the system calls of one `cg_get_ctl` go: whether `fopen("/proc/mounts")` succeeds
and whether `xstrdup` gets its memory. -/
structure ResolveAnswer where
  mountsOpen : Bool := true
  strdupOk : Bool := true
  deriving DecidableEq, Repr

/-- `cg_get_ctl(c->subsys, &ctl)`: every caller passes a table entry's own name, which
`find_cg_ctl` maps back to that entry (`findCgCtl_subsys`), so `ctl` is `c`. -/
def cgGetCtl (text : List Char) (a : ResolveAnswer) (cache : Cache) (c : Ctl) : Int × Cache :=
  match cache c with
  | some _ => (0, cache)
  | none =>
    match getMountPath c.subsys (if a.mountsOpen then some text else none) with
    | (0, some p) => if a.strdupOk then (0, Function.update cache c (some p)) else (-1, cache)
    | (r, _) => (r, cache)

/-- What the table resolves a controller to, when nothing fails. -/
def resolvedPath (text : List Char) (c : Ctl) : Option (List Char) :=
  (getMountPath c.subsys (some text)).2

/-- The cache holds what the mount table resolves to: an entry is either unset or the
table's answer. -/
def CacheSound (text : List Char) (cache : Cache) : Prop :=
  ∀ c p, cache c = some p → resolvedPath text c = some p

section
variable {text : List Char} {a : ResolveAnswer} {cache : Cache} {c c' : Ctl} {p : List Char}

theorem getMountPath_some_cases (subsys text : List Char) :
    getMountPath subsys (some text) = (1, none) ∨ ∃ p, getMountPath subsys (some text) = (0, some p) := by
  simp only [getMountPath]
  split <;> simp

/-- The three answers of `cg_get_ctl`, and what each leaves in the cache: `0` with the
entry set (it was already, or the table resolves it), `1` when the table has no mount for
the controller, `-1` on a failed call; only `0` changes the cache, and only at `c`. -/
theorem cgGetCtl_cases (text : List Char) (a : ResolveAnswer) (cache : Cache) (c : Ctl) :
    (∃ p, cgGetCtl text a cache c = (0, Function.update cache c (some p)) ∧
        (cache c = some p ∨ cache c = none ∧ resolvedPath text c = some p)) ∨
      (cgGetCtl text a cache c = (1, cache) ∧ cache c = none ∧ resolvedPath text c = none) ∨
      (cgGetCtl text a cache c = (-1, cache) ∧ cache c = none) := by
  unfold cgGetCtl
  rcases hc : cache c with _ | p
  · cases a.mountsOpen
    · simp [getMountPath]
    · rcases getMountPath_some_cases c.subsys text with hg | ⟨p, hg⟩
      · simp [hg, resolvedPath]
      · cases a.strdupOk
        · simp [hg]
        · simp [hg, resolvedPath]
  · exact .inl ⟨p, by simp [← hc], .inl rfl⟩

/-- With nothing failing and a sound cache, `cg_get_ctl` answers from the mount table:
`0`, with the table's mount path cached, or `1`. -/
theorem cgGetCtl_clean (hs : CacheSound text cache) :
    cgGetCtl text {} cache c = match resolvedPath text c with
      | some p => (0, Function.update cache c (some p))
      | none => (1, cache) := by
  unfold cgGetCtl
  rcases hc : cache c with _ | q
  · rcases getMountPath_some_cases c.subsys text with hg | ⟨p, hg⟩
    · simp [hg, resolvedPath]
    · simp [hg, resolvedPath]
  · simp only [hs c q hc]
    rw [← hc, Function.update_eq_self]

/-- The answer of `cg_get_ctl` for `c` reads the cache at `c` only. -/
theorem cgGetCtl_fst_congr {cache' : Cache} (h : cache c = cache' c) :
    (cgGetCtl text a cache c).1 = (cgGetCtl text a cache' c).1 := by
  simp only [cgGetCtl, h]
  repeat' split
  all_goals rfl

/-- The entry `cg_get_ctl` leaves at `c` also depends on the cache at `c` only. -/
theorem cgGetCtl_snd_congr {cache' : Cache} (h : cache c = cache' c) :
    (cgGetCtl text a cache c).2 c = (cgGetCtl text a cache' c).2 c := by
  simp only [cgGetCtl, h]
  repeat' split
  all_goals simp_all

/-- `cg_get_ctl` for `c` leaves the other entries of the cache. -/
theorem cgGetCtl_snd_ne (h : c' ≠ c) : (cgGetCtl text a cache c).2 c' = cache c' := by
  rcases cgGetCtl_cases text a cache c with ⟨q, hq, -⟩ | ⟨hq, -⟩ | ⟨hq, -⟩ <;>
    simp [hq, Function.update_noteq h]

/-- A resolved mount path is never changed: the spec's "once `mount_path` is resolved it
never changes for the process lifetime". -/
theorem cgGetCtl_cache_stable (h : cache c' = some p) :
    (cgGetCtl text a cache c).2 c' = some p := by
  rcases cgGetCtl_cases text a cache c with ⟨q, hq, hwhich⟩ | ⟨hq, -⟩ | ⟨hq, -⟩
  · rw [hq]
    by_cases hcc : c' = c
    · subst hcc
      rcases hwhich with hq' | ⟨hn, -⟩
      · simp [← h.symm.trans hq']
      · simp [h] at hn
    · simp [Function.update_noteq hcc, h]
  · simp [hq, h]
  · simp [hq, h]

/-- `cg_get_ctl` keeps the cache sound. -/
theorem cacheSound_cgGetCtl (hs : CacheSound text cache) :
    CacheSound text (cgGetCtl text a cache c).2 := by
  intro c' p' hp'
  rcases cgGetCtl_cases text a cache c with ⟨q, hq, hwhich⟩ | ⟨hq, -⟩ | ⟨hq, -⟩
  · rw [hq] at hp'
    by_cases hcc : c' = c
    · subst hcc
      simp only [Function.update_same, Option.some.injEq] at hp'
      subst hp'
      rcases hwhich with hq' | ⟨-, hr⟩
      · exact hs _ _ hq'
      · exact hr
    · exact hs _ _ (by simpa [Function.update_noteq hcc] using hp')
  · exact hs _ _ (by simpa [hq] using hp')
  · exact hs _ _ (by simpa [hq] using hp')

end

end VzCgroup
