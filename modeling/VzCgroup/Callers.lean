import VzCgroup.Hierarchy.Destroy
import VzCgroup.BindMount
import VzCgroup.EnvParam

/-!
# VzCgroup — how the callers of `cg_get_ctl` read its answer

`cg_get_ctl` answers `0` (resolved), `1` (no such mount: `mount_path` stays `NULL`) or
`-1` (`/proc/mounts` unreadable, or no memory). `cg_new_cgroup` and
`cg_get_cgroup_env_param` test `-1` first and then skip any other non-zero answer;
`cg_destroy_cgroup` skips every non-zero answer, and `cg_bindmount_cgroup` goes on to read
`mount_path` whatever the answer when it is not `-1`.
-/

namespace VzCgroup

/-- With `/proc/mounts` unreadable every `cg_get_ctl` answers `-1`, and `cg_destroy_cgroup`
returns `0` having made no `cg_destroy`: container `b`'s directory stays. On a host whose
systemd hierarchy is not mounted, `bindmount_env_cgroup` reaches systemd with `cg_get_ctl`
answering `1`, and hands its unset `mount_path` to `find_str` with `/c` already in
`head`. -/
theorem resolver_answers_misread :
    (cgDestroyCgroup (rmTreeFuel sliceFs) coMountTable ⟨cgGetSliceName none, [], []⟩ "b".toList
        (fun _ => { mountsOpen := false }) (fun _ => {}) ⟨sliceFs, Cache.empty⟩).map
      (fun x => (x.1, x.2.2, x.2.1.fs.isDir (components "/c/machine.slice/b".toList))) =
        some (0, [], true) ∧
      (bindmountEnvCgroup sampleEnv "cgroup /c cgroup rw,cpu 0 0\n".toList "cpu 1 1 1\n".toList
        {} Cache.empty).1 = .nullMountPath .systemd := by
  decide

/-! ## A failed resolution is never success -/

section Fails

variable {text : List Char} {c : Ctl}

/-- A `cg_get_ctl` for `c` that would fail still fails after one for another controller. -/
theorem fails_after_other {a b : ResolveAnswer} {cache : Cache} {c0 : Ctl} (h0 : c0 ≠ c)
    (hf : (cgGetCtl text a cache c).1 = -1) :
    (cgGetCtl text a (cgGetCtl text b cache c0).2 c).1 = -1 := by
  rwa [cgGetCtl_fst_congr (cgGetCtl_snd_ne (Ne.symm h0))]

/-- The creation loop does not succeed past a controller whose resolution fails. -/
theorem cgNewLoop_fails {n : Names} {a : List Char} {ans : NewAnswers} :
    ∀ {cs : List Ctl} {i : Nat} {h : Host}, c ∈ cs →
      (cgGetCtl text (ans.resolve c) h.cache c).1 = -1 → (cgNewLoop text n a ans i cs h).1 ≠ 0
  | [], _, _, hc, _ => absurd hc (List.not_mem_nil _)
  | c0 :: cs, i, h, hc, hf => by
    simp only [cgNewLoop]
    by_cases h0 : c0 = c
    · subst h0
      simp [hf]
    have hc' := (List.mem_cons.mp hc).resolve_left (Ne.symm h0)
    have hf' := fails_after_other (b := ans.resolve c0) h0 hf
    split_ifs with _ _ h3
    · simp
    · exact cgNewLoop_fails hc' hf'
    · exact h3
    · exact cgNewLoop_fails hc' hf'

/-- The map loop of `cg_get_cgroup_env_param` does not succeed past a controller whose
resolution fails. -/
theorem envParamLoop_fails {res : Ctl → ResolveAnswer} {n : Names} {ctid : Option (List Char)}
    {ep : Int} : ∀ {cs : List Ctl} {cache : Cache} {p : Int} {ws : List (Int × Char)}, c ∈ cs →
      (cgGetCtl text (res c) cache c).1 = -1 → (envParamLoop text res n ctid ep cs cache p ws).1 ≠ 0
  | [], _, _, _, hc, _ => absurd hc (List.not_mem_nil _)
  | c0 :: cs, cache, p, ws, hc, hf => by
    simp only [envParamLoop]
    by_cases h0 : c0 = c
    · subst h0
      simp [hf]
    have hc' := (List.mem_cons.mp hc).resolve_left (Ne.symm h0)
    have hf' := fails_after_other (b := res c0) h0 hf
    split_ifs
    · simp
    · exact envParamLoop_fails hc' hf'
    · exact envParamLoop_fails hc' hf'
    · simp [vzctlEInval]
    · exact envParamLoop_fails hc' hf'

/-- The controller loop of `cg_bindmount_cgroup` does not succeed past a controller whose
resolution fails. -/
theorem bindLoop_fails {e : BindEnv} {a : BindAnswers} {cgroups : List (List Char)} :
    ∀ {cs : List Ctl} {ret : Int} {cache : Cache} {head : List (List Char)} {log : List Event},
      c ∈ cs → (cgGetCtl text (a.resolve c) cache c).1 = -1 →
      (bindLoop e text a cgroups cs ret cache head log).1 ≠ .ret 0
  | [], _, _, _, _, hc, _ => absurd hc (List.not_mem_nil _)
  | c0 :: cs, ret, cache, head, log, hc, hf => by
    rcases hr : cgGetCtl text (a.resolve c0) cache c0 with ⟨r, cache'⟩
    by_cases h0 : c0 = c
    · subst h0
      rw [hr] at hf
      simp [bindLoop, hr, show r = -1 from hf]
    have hc' := (List.mem_cons.mp hc).resolve_left (Ne.symm h0)
    have hf' := fails_after_other (b := a.resolve c0) h0 hf
    rw [hr] at hf'
    simp only [bindLoop, hr]
    split_ifs
    · simp
    · exact bindLoop_fails hc' hf'
    · exact bindLoop_fails hc' hf'
    rcases cache' c0 with _ | mnt
    · simp
    simp only
    split_ifs with _ hb
    · exact bindLoop_fails hc' hf'
    · simpa using hb
    · exact bindLoop_fails hc' hf'

/-- `cg_new_cgroup` is not a success when the loop is not: it rolls back, or does not
return. -/
theorem cgNewCgroup_fails {fuel : Nat} {n : Names} {a : List Char} {ans : NewAnswers} {h : Host}
    (hf : (cgGetCtl text (ans.resolve c) h.cache c).1 = -1) :
    (cgNewCgroup fuel text n a ans h).map Prod.fst ≠ some 0 := by
  have hl := cgNewLoop_fails (n := n) (a := a) (i := 0) (mem_cgCtlMap c) hf
  simp only [cgNewCgroup]
  rcases hr : cgNewLoop text n a ans 0 cgCtlMap h with ⟨ret, i, h'⟩
  rw [hr] at hl
  simp only at hl ⊢
  rw [if_neg hl]
  cases rollback fuel n ans.rm a h'.cache (cgCtlMap.take i).reverse h'.fs <;> simp [hl]

/-- `bindmount_env_cgroup` is not a success when the skeleton's mounts fail or the loop
does not succeed. -/
theorem bindmountEnvCgroup_fails {e : BindEnv} {procCgroups : List Char} {a : BindAnswers}
    {cache : Cache} (hf : (cgGetCtl text (a.resolve c) cache c).1 = -1) :
    (bindmountEnvCgroup e text procCgroups a cache).1 ≠ .ret 0 := by
  have hl : ∀ cgroups log x, bindLoop e text a cgroups cgCtlMap 0 cache [] log = x →
      x.1 ≠ .ret 0 := fun _ _ _ hx => hx ▸ bindLoop_fails (mem_cgCtlMap c) hf
  simp only [bindmountEnvCgroup, cgBindmountCgroup]
  split_ifs with hr
  · simpa using hr
  split
  · rename_i hb
    have := hl _ _ _ hb
    split_ifs <;> simpa using this
  · simp

/-- A failed resolution is never taken for success: when `cg_get_ctl` would answer `-1`
for a controller, `cg_new_cgroup`, `cg_get_cgroup_env_param` and `bindmount_env_cgroup`
do not return `0`. -/
theorem resolution_failure_not_zero :
    (∀ fuel n a (ans : NewAnswers) (h : Host), (cgGetCtl text (ans.resolve c) h.cache c).1 = -1 →
        (cgNewCgroup fuel text n a ans h).map Prod.fst ≠ some 0) ∧
      (∀ res n (cache : Cache) ctid size, (cgGetCtl text (res c) cache c).1 = -1 →
        (cgGetCgroupEnvParam text res n cache ctid size).1 ≠ 0) ∧
      (∀ e procCgroups (a : BindAnswers) (cache : Cache), (cgGetCtl text (a.resolve c) cache c).1 = -1 →
        (bindmountEnvCgroup e text procCgroups a cache).1 ≠ .ret 0) :=
  ⟨fun _ _ _ _ _ hf => cgNewCgroup_fails hf, fun _ _ _ _ _ hf => envParamLoop_fails (mem_cgCtlMap c) hf,
    fun _ _ _ _ hf => bindmountEnvCgroup_fails hf⟩

/-- With `/proc/mounts` unreadable, none of the three returns `0`. -/
theorem resolution_failure_not_zero_unreadable :
    (cgNewCgroup (rmTreeFuel sliceFs) coMountTable ⟨cgGetSliceName none, [], []⟩ "b".toList
        { resolve := fun _ => { mountsOpen := false } } ⟨sliceFs, Cache.empty⟩).map Prod.fst ≠ some 0 ∧
      (cgGetCgroupEnvParam coMountTable (fun _ => { mountsOpen := false })
        ⟨cgGetSliceName none, [], []⟩ Cache.empty none 100).1 ≠ 0 ∧
      (bindmountEnvCgroup sampleEnv coMountTable [] { resolve := fun _ => { mountsOpen := false } }
        Cache.empty).1 ≠ .ret 0 :=
  have hf : (cgGetCtl coMountTable { mountsOpen := false } Cache.empty .cpu).1 = -1 := by decide
  ⟨resolution_failure_not_zero.1 _ _ _ _ ⟨sliceFs, Cache.empty⟩ hf,
    resolution_failure_not_zero.2.1 _ _ _ _ _ hf, resolution_failure_not_zero.2.2 _ _ _ _ hf⟩

end Fails

end VzCgroup
