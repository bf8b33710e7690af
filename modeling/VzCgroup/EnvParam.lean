import VzCgroup.Resolver

/-!
# VzCgroup — the cgroup map for the container environment (`cg_get_cgroup_env_param`)

`cg_get_cgroup_env_param` formats `VE_CGROUP_MOUNT_MAP=` and one ` subsys:path` entry per
resolved shared controller into the caller's buffer with successive `snprintf` calls, each
told `ep - p` bytes remain. The cursor `p` advances by what `snprintf` would have written,
and the only check, `p > ep`, comes after each entry. The buffer is modelled as the list of
stores the calls make, each at its offset from `out`; `ep - p` reaches `snprintf` as a
`size_t`, so a negative distance is a huge size.
-/

namespace VzCgroup

/-- `ep - p` as the `size_t` `snprintf` receives. -/
def sizeT (d : Int) : Nat :=
  (d % 2 ^ 64).toNat

/-- The stores of `snprintf(out + p, n, ...)` when the formatted text is `s`. -/
def snprintfAt (p : Int) (n : Nat) (s : List Char) : List (Int × Char) :=
  (snprintfBytes n s).enum.map fun (i, ch) => (p + i, ch)

/-- The entry `cg_get_cgroup_env_param` formats for a resolved shared controller: with a
container id, `" %s:%s"` of the subsystem and the container's directory; without one,
`" %s:%s"` of the mount point and the subsystem. -/
def envEntry (n : Names) (ctid : Option (List Char)) (mountPath : List Char) (c : Ctl) :
    List Char :=
  match ctid with
  | some id => ' ' :: (c.subsys ++ ':' :: getCgroupName n id mountPath c)
  | none => ' ' :: (mountPath ++ ':' :: c.subsys)

/-- The prefix of the map. -/
def envPrefix : List Char := "VE_CGROUP_MOUNT_MAP=".toList

/-- The controller loop of `cg_get_cgroup_env_param`, from cursor `p` with end `ep`:
the result, the stores made so far (`ws`) and the cache. -/
def envParamLoop (text : List Char) (ans : Ctl → ResolveAnswer) (n : Names)
    (ctid : Option (List Char)) (ep : Int) :
    List Ctl → Cache → Int → List (Int × Char) → Int × List (Int × Char) × Cache
  | [], cache, _, ws => (0, ws, cache)
  | c :: cs, cache, p, ws =>
    let r := cgGetCtl text (ans c) cache c
    if r.1 = -1 then (1, ws, r.2)
    else if c.isPrvt then envParamLoop text ans n ctid ep cs r.2 p ws
    else if r.1 ≠ 0 then envParamLoop text ans n ctid ep cs r.2 p ws
    else
      let e := envEntry n ctid ((r.2 c).getD []) c
      let ws := ws ++ snprintfAt p (sizeT (ep - p)) e
      if p + e.length > ep then (vzctlEInval, ws, r.2)
      else envParamLoop text ans n ctid ep cs r.2 (p + e.length) ws

/-- `cg_get_cgroup_env_param(ctid, out, size)`: the result, the stores into memory at
offsets from `out`, and the resolver cache afterwards. -/
def cgGetCgroupEnvParam (text : List Char) (ans : Ctl → ResolveAnswer) (n : Names)
    (cache : Cache) (ctid : Option (List Char)) (size : Nat) :
    Int × List (Int × Char) × Cache :=
  envParamLoop text ans n ctid size cgCtlMap cache envPrefix.length
    (snprintfAt 0 size envPrefix)

/-! ## Buffers shorter than the map -/

/-- A 10-byte buffer. With no controller mounted the call returns `0` though the map's
prefix alone needs 21 bytes: the cursor, already at offset 20, is never compared with the
end after the prefix. With `cpu` mounted, the first entry is formatted at offset 20 with
`ep - p = -10` taken as a size of `2^64 - 10`: the call stores bytes past the buffer's
end before its `p > ep` check returns an error. -/
theorem cgGetCgroupEnvParam_short_buffer :
    (cgGetCgroupEnvParam [] (fun _ => {}) ⟨cgGetSliceName none, [], []⟩ Cache.empty none 10).1 = 0 ∧
      ∃ w ∈ (cgGetCgroupEnvParam "cgroup /c cgroup rw,cpu\n".toList (fun _ => {})
          ⟨cgGetSliceName none, [], []⟩ Cache.empty none 10).2.1, 10 ≤ w.1 := by
  decide

/-! ## The map, when the buffer holds it -/

/-- Memory after the stores `ws`, in order, over the memory `mem` (`out[0]` at `0`). -/
def storeAll (mem : Int → Char) (ws : List (Int × Char)) : Int → Char :=
  ws.foldl (fun m st => Function.update m st.1 st.2) mem

/-- The map for the controllers `cs`: the entry `cg_get_cgroup_env_param` formats for each
non-private controller the table resolves, in order. -/
def envEntries (text : List Char) (n : Names) (ctid : Option (List Char)) (cs : List Ctl) :
    List Char :=
  ((cs.filter fun c => !c.isPrvt).filterMap fun c =>
    (resolvedPath text c).map fun mp => envEntry n ctid mp c).flatten

/-- The buffer holds `done` from `out[0]` on, ended by a NUL, and every store made so far
fell inside its `size` bytes. -/
structure Holds (size : Nat) (mem : Int → Char) (ws : List (Int × Char)) (done : List Char) :
    Prop where
  inside : ∀ st ∈ ws, 0 ≤ st.1 ∧ st.1 < size
  text : ∀ i < done.length, storeAll mem ws i = done.getD i '\x00'
  nul : storeAll mem ws done.length = '\x00'

theorem storeAll_append (mem : Int → Char) (ws ws' : List (Int × Char)) :
    storeAll mem (ws ++ ws') = storeAll (storeAll mem ws) ws' :=
  List.foldl_append _ _ _ _

/-- Stores of the bytes of `l` from `out[p + k]` on. -/
theorem storeAll_enumFrom (p : Int) :
    ∀ (l : List Char) (k : Nat) (m : Int → Char) (j : Int),
      storeAll m ((l.enumFrom k).map fun (i, ch) => (p + i, ch)) j =
        if p + k ≤ j ∧ j < p + k + l.length then l.getD (j - p - k).toNat '\x00' else m j
  | [], k, m, j => by
    simp only [List.enumFrom_nil, List.map_nil, storeAll, List.foldl_nil, List.length_nil]
    rw [if_neg (by omega)]
  | x :: l, k, m, j => by
    rw [List.enumFrom_cons, List.map_cons, storeAll, List.foldl_cons, ← storeAll,
      storeAll_enumFrom p l (k + 1)]
    rw [List.length_cons]
    by_cases hj : j = p + k
    · subst hj
      rw [if_neg (by omega), if_pos (by omega), show p + k - p - k = 0 by omega]
      simp
    · rw [Function.update_noteq hj]
      split_ifs with h1 h2 h2
      · obtain ⟨t, ht⟩ : ∃ t : Nat, j - p - k = t + 1 := ⟨(j - p - k - 1).toNat, by omega⟩
        rw [ht, show j - p - ((k + 1 : Nat) : Int) = t by omega]
        simp
      · omega
      · omega
      · rfl

/-- One entry formatted at the end of `done`, with room for it and its NUL: the buffer then
holds `done ++ e`. What was at `done.length` before does not matter. -/
theorem holds_snprintf {size : Nat} {mem : Int → Char} {ws : List (Int × Char)} {done e : List Char}
    (hin : ∀ st ∈ ws, 0 ≤ st.1 ∧ st.1 < size)
    (htext : ∀ i < done.length, storeAll mem ws i = done.getD i '\x00')
    (hfit : done.length + e.length < size) :
    Holds size mem (ws ++ snprintfAt done.length (size - done.length) e) (done ++ e) := by
  have hbytes : snprintfBytes (size - done.length) e = e ++ ['\x00'] := by
    rw [snprintfBytes, if_neg (by omega), List.take_of_length_le (by omega)]
  have hw : ∀ j : Int, storeAll mem (ws ++ snprintfAt done.length (size - done.length) e) j =
      if done.length ≤ j ∧ j < done.length + (e.length + 1) then
        (e ++ ['\x00']).getD (j - done.length).toNat '\x00' else storeAll mem ws j := by
    intro j
    rw [storeAll_append, snprintfAt, hbytes, List.enum, storeAll_enumFrom]
    simp
  refine ⟨fun st hst => ?_, fun i hi => ?_, ?_⟩
  · rcases List.mem_append.mp hst with hst | hst
    · exact hin st hst
    · simp only [snprintfAt, hbytes, List.mem_map, List.mem_enum_iff_getElem?] at hst
      obtain ⟨⟨i, ch⟩, hi, rfl⟩ := hst
      have := (List.getElem?_eq_some_iff.mp hi).1
      simp at this ⊢
      omega
  · rw [hw]
    by_cases hi' : i < done.length
    · rw [if_neg (by omega), htext i hi']
      simp [List.getD_eq_getElem?_getD, List.getElem?_append_left hi']
    · rw [if_pos (by rw [List.length_append] at hi; omega)]
      simp only [List.length_append] at hi
      rw [show ((i : Int) - done.length).toNat = i - done.length by omega]
      simp [List.getD_eq_getElem?_getD, List.getElem?_append_right (by omega : done.length ≤ i),
        List.getElem?_append_left (by omega : i - done.length < e.length)]
  · rw [hw, if_pos (by rw [List.length_append]; omega)]
    rw [show ((((done ++ e).length : Nat) : Int) - (done.length : Int)).toNat = e.length by
      rw [List.length_append]; omega]
    simp [List.getD_eq_getElem?_getD]

theorem sizeT_sub {a b : Nat} (h : b ≤ a) (h' : a < 2 ^ 64) : sizeT ((a : Int) - b) = a - b := by
  unfold sizeT
  rw [Int.emod_eq_of_lt (by omega) (by omega)]
  omega

theorem envEntries_cons (text : List Char) (n : Names) (ctid : Option (List Char)) (c : Ctl) (cs : List Ctl) :
    envEntries text n ctid (c :: cs) =
      (if c.isPrvt then [] else ((resolvedPath text c).map fun mp => envEntry n ctid mp c).getD []) ++
        envEntries text n ctid cs := by
  unfold envEntries
  by_cases hp : c.isPrvt <;> rcases h : resolvedPath text c with _ | mp <;> simp [hp, List.filter_cons, h]

theorem envParamLoop_holds {text : List Char} {ans : Ctl → ResolveAnswer} {n : Names}
    {ctid : Option (List Char)} {size : Nat} {mem : Int → Char} (hsz : size < 2 ^ 63) :
    ∀ (cs : List Ctl) (cache : Cache) (ws : List (Int × Char)) (done : List Char)
      (ws' : List (Int × Char)) (cache' : Cache),
      CacheSound text cache → Holds size mem ws done →
      done.length + (envEntries text n ctid cs).length < size →
      envParamLoop text ans n ctid size cs cache done.length ws = (0, ws', cache') →
      Holds size mem ws' (done ++ envEntries text n ctid cs)
  | [], cache, ws, done, ws', cache', _, hh, _, hrun => by
    simp only [envParamLoop, Prod.mk.injEq] at hrun
    obtain ⟨-, rfl, -⟩ := hrun
    simpa [envEntries] using hh
  | c :: cs, cache, ws, done, ws', cache', hs, hh, hfit, hrun => by
    have hs1 := cacheSound_cgGetCtl (a := ans c) (c := c) hs
    rw [envEntries_cons] at hfit ⊢
    simp only [envParamLoop] at hrun
    rcases cgGetCtl_cases text (ans c) cache c with ⟨mp, hr, hwhich⟩ | ⟨hr, hc, hres⟩ | ⟨hr, hc⟩
    · have hres : resolvedPath text c = some mp := by
        rcases hwhich with h' | ⟨-, h'⟩
        · exact hs c mp h'
        · exact h'
      rw [hr] at hrun hs1
      dsimp only at hrun
      rw [if_neg (by decide : ¬ (0 : Int) = -1)] at hrun
      by_cases hp : c.isPrvt
      · rw [if_pos hp] at hrun
        simpa [hp] using envParamLoop_holds hsz cs _ ws done ws' cache' hs1 hh (by simpa [hp] using hfit) hrun
      · simp only [hp, Bool.false_eq_true, ↓reduceIte, hres, Option.map_some', Option.getD_some,
          List.length_append] at hfit ⊢
        simp only [Function.update_same, Option.getD_some, hp, Bool.false_eq_true, ↓reduceIte, ne_eq,
          not_true_eq_false] at hrun
        rw [sizeT_sub (by omega) (by omega), if_neg (by omega),
          show (done.length : Int) + (envEntry n ctid mp c).length = ((done ++ envEntry n ctid mp c).length : Nat) by
            simp] at hrun
        simpa using envParamLoop_holds hsz cs _ _ (done ++ envEntry n ctid mp c) ws' cache' hs1
          (holds_snprintf hh.inside hh.text (by omega)) (by rw [List.length_append]; omega) hrun
    · -- no mount for `c`: skipped
      rw [hr] at hrun
      dsimp only at hrun
      rw [if_neg (by decide : ¬ (1 : Int) = -1)] at hrun
      have hrun' : envParamLoop text ans n ctid size cs cache done.length ws = (0, ws', cache') := by
        by_cases hp : c.isPrvt
        · rwa [if_pos hp] at hrun
        · rwa [if_neg hp, if_pos (by decide : (1 : Int) ≠ 0)] at hrun
      simpa [hres] using
        envParamLoop_holds hsz cs cache ws done ws' cache' hs hh (by simpa [hres] using hfit) hrun'
    · -- `cg_get_ctl` failed: the call returns `1`
      rw [hr] at hrun
      simp at hrun

/-- What a buffer that `Holds` the text `done` reads as, byte by byte up to the NUL. -/
theorem Holds.bytes {size : Nat} {mem : Int → Char} {ws : List (Int × Char)} {done : List Char}
    (h : Holds size mem ws done) :
    (List.range (done.length + 1)).map (fun i : Nat => storeAll mem ws i) = done ++ ['\x00'] := by
  refine List.ext_getElem (by simp) fun i h1 _ => ?_
  simp only [List.length_map, List.length_range] at h1
  rw [List.getElem_map, List.getElem_range]
  by_cases hi : i < done.length
  · rw [h.text i hi, List.getElem_append_left hi]
    simp [List.getD_eq_getElem?_getD, List.getElem?_eq_getElem hi]
  · obtain rfl : i = done.length := by omega
    rw [h.nul]
    simp

/-- When `cg_get_cgroup_env_param` returns `0` into a buffer with room for the whole map
(and an `int` size), every byte it stores is inside the buffer, and the buffer holds
`VE_CGROUP_MOUNT_MAP=` followed by the entry of each non-private controller the mount table
resolves, in table order, and a NUL: ` subsys:dir` (`get_cgroup_name`) with a container id,
` mountpoint:subsys` without one. -/
theorem cgGetCgroupEnvParam_map {text : List Char} {ans : Ctl → ResolveAnswer} {n : Names}
    {cache : Cache} {ctid : Option (List Char)} {size : Nat} (hs : CacheSound text cache)
    (h0 : (cgGetCgroupEnvParam text ans n cache ctid size).1 = 0)
    (hfit : (envPrefix ++ envEntries text n ctid cgCtlMap).length < size) (hint : size < 2 ^ 31)
    (mem : Int → Char) :
    (∀ st ∈ (cgGetCgroupEnvParam text ans n cache ctid size).2.1, 0 ≤ st.1 ∧ st.1 < size) ∧
      (List.range ((envPrefix ++ envEntries text n ctid cgCtlMap).length + 1)).map
          (fun i : Nat => storeAll mem (cgGetCgroupEnvParam text ans n cache ctid size).2.1 i) =
        envPrefix ++ envEntries text n ctid cgCtlMap ++ ['\x00'] := by
  rcases hrun : cgGetCgroupEnvParam text ans n cache ctid size with ⟨r, ws', cache'⟩
  rw [hrun] at h0
  subst h0
  have hstart : Holds size mem (snprintfAt 0 size envPrefix) envPrefix := by
    simpa using @holds_snprintf size mem [] [] envPrefix (by simp) (by simp)
      (by rw [List.length_append] at hfit; rw [List.length_nil]; omega)
  have h := envParamLoop_holds (by omega) cgCtlMap cache _ envPrefix ws' cache' hs hstart
    (by simpa using hfit) hrun
  exact ⟨h.inside, h.bytes⟩

theorem cgGetCgroupEnvParam_map_cpu :
    CacheSound "cgroup /c cgroup rw,cpu 0 0\n".toList Cache.empty ∧
      (cgGetCgroupEnvParam "cgroup /c cgroup rw,cpu 0 0\n".toList (fun _ => {}) ⟨cgGetSliceName none, [], []⟩
        Cache.empty (some "101".toList) 100).1 = 0 ∧
      (envPrefix ++ envEntries "cgroup /c cgroup rw,cpu 0 0\n".toList ⟨cgGetSliceName none, [], []⟩
        (some "101".toList) cgCtlMap).length < 100 ∧ 100 < 2 ^ 31 ∧
      ((∀ st ∈ (cgGetCgroupEnvParam "cgroup /c cgroup rw,cpu 0 0\n".toList (fun _ => {})
          ⟨cgGetSliceName none, [], []⟩ Cache.empty (some "101".toList) 100).2.1, 0 ≤ st.1 ∧ st.1 < 100) ∧
        (List.range ((envPrefix ++ envEntries "cgroup /c cgroup rw,cpu 0 0\n".toList
            ⟨cgGetSliceName none, [], []⟩ (some "101".toList) cgCtlMap).length + 1)).map
          (fun i : Nat => storeAll (fun _ => 'x') (cgGetCgroupEnvParam "cgroup /c cgroup rw,cpu 0 0\n".toList
            (fun _ => {}) ⟨cgGetSliceName none, [], []⟩ Cache.empty (some "101".toList) 100).2.1 i) =
          envPrefix ++ envEntries "cgroup /c cgroup rw,cpu 0 0\n".toList ⟨cgGetSliceName none, [], []⟩
            (some "101".toList) cgCtlMap ++ ['\x00']) :=
  have hs : CacheSound "cgroup /c cgroup rw,cpu 0 0\n".toList Cache.empty := fun _ _ h => nomatch h
  have h0 : (cgGetCgroupEnvParam "cgroup /c cgroup rw,cpu 0 0\n".toList (fun _ => {})
      ⟨cgGetSliceName none, [], []⟩ Cache.empty (some "101".toList) 100).1 = 0 := by decide
  have hfit : (envPrefix ++ envEntries "cgroup /c cgroup rw,cpu 0 0\n".toList ⟨cgGetSliceName none, [], []⟩
      (some "101".toList) cgCtlMap).length < 100 := by decide
  ⟨hs, h0, hfit, by decide, cgGetCgroupEnvParam_map hs h0 hfit (by decide) (fun _ => 'x')⟩

/-- Without a container id the entries put the mount point first: with `cpu` mounted at
`/c` the buffer holds `VE_CGROUP_MOUNT_MAP= /c:cpu`, not ` cpu:/c`. -/
theorem cgGetCgroupEnvParam_host_entry_mount_first :
    (cgGetCgroupEnvParam "cgroup /c cgroup rw,cpu 0 0\n".toList (fun _ => {}) ⟨cgGetSliceName none, [], []⟩
        Cache.empty none 100).1 = 0 ∧
      (List.range 28).map (fun i : Nat => storeAll (fun _ => 'x') (cgGetCgroupEnvParam
        "cgroup /c cgroup rw,cpu 0 0\n".toList (fun _ => {}) ⟨cgGetSliceName none, [], []⟩ Cache.empty
        none 100).2.1 i) = "VE_CGROUP_MOUNT_MAP= /c:cpu\x00".toList := by
  decide

end VzCgroup
