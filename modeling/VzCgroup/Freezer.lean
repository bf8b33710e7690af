import VzCgroup.ParamIO.Typed

/-!
# VzCgroup — the freezer (`cg_set_freezer_state`, `cg_freezer_cmd`)

`cg_set_freezer_state` writes the target state to `freezer.state` with `cg_set_param`, then
reads the file back with `cg_get_param` into its local `buf[STR_SIZE]` until
`strncmp(buf, state, strlen(state))` finds the state at the front of the buffer, sleeping
one second after each read that does not. Nothing bounds the number of reads, so the poll
is modelled with fuel (`none`: still polling), and the kernel's answer to the `k`-th read is
`reads k`. `STR_SIZE` is in the `vzctl` headers, not in src/: it is the parameter `strSize`.

* **the test** (`strncmpAt_eq_zero_iff`): `strncmp(buf, state, strlen(state)) == 0` says
  that the C string in the buffer begins with `state`;
* **one read** (`freezerPoll_waits`, `freezerPoll_finds`, `freezerPoll_fails`): a read of
  another state costs one sleep and goes on to the next read; a read of the state returns
  `0`; a failed read returns `-errno`;
* **the whole poll** (`cgSetFreezerState_polls`): after the write, the call returns `0` after
  exactly `m` sleeps when the `m`-th read is the first to find the state, returns `-errno`
  of a failed read after the sleeps before it, and never returns while every read finds
  another state.
-/

namespace VzCgroup

/-! ## §1 — `strncmp` on the buffer -/

/-- `strncmp(out + i, s, n)` with `out` in the memory `m`: the difference of the first bytes
that differ, or `0` when the first `n` agree or both strings end together. -/
def strncmpAt (m : Int → Char) (i : Nat) : List Char → Nat → Int
  | _, 0 => 0
  | s, n + 1 =>
    if m i ≠ s.headD '\x00' then ((m i).toNat : Int) - (s.headD '\x00').toNat
    else if s.headD '\x00' = '\x00' then 0
    else strncmpAt m (i + 1) s.tail n

/-- A string without NUL is its own C string. -/
theorem cstr_eq_self {s : List Char} (hs : '\x00' ∉ s) : cstr s = s :=
  List.takeWhile_eq_self_iff.mpr fun x hx => by
    simp only [decide_eq_true_eq]
    rintro rfl
    exact hs hx

/-- **The test.** For a string `s` without NUL, `strncmp(out + i, s, strlen(s)) == 0` says
that the C string at `out + i`, read within `b ≥ strlen(s)` bytes, begins with `s`. -/
theorem strncmpAt_eq_zero_iff (m : Int → Char) :
    ∀ (s : List Char) (b i : Nat), '\x00' ∉ s → s.length ≤ b →
      (strncmpAt m i s s.length = 0 ↔ s <+: strAt m b i)
  | [], _, _, _, _ => by simp [strncmpAt]
  | _ :: _, 0, _, _, hb => by simp at hb
  | x :: s, b + 1, i, hs, hb => by
    have hx : x ≠ '\x00' := fun h => hs (h ▸ List.mem_cons_self _ _)
    have ih := strncmpAt_eq_zero_iff m s b (i + 1) (fun h => hs (List.mem_cons_of_mem _ h))
      (by simp only [List.length_cons] at hb; omega)
    by_cases hm : m i = x
    · simp [strncmpAt, strAt, hm, hx, ih]
    · have hne : ((m i).toNat : Int) - x.toNat ≠ 0 := fun h => hm (by
        have := congrArg Char.ofNat (show (m i).toNat = x.toNat by omega)
        rwa [Char.ofNat_toNat, Char.ofNat_toNat] at this)
      by_cases h0 : m i = '\x00'
      · have hrhs : strAt m (b + 1) i = [] := by simp [strAt, h0]
        simp [strncmpAt, hm, hne, hrhs]
      · simp [strncmpAt, strAt, hm, hne, h0, List.cons_prefix_cons, Ne.symm hm]

/-! ## §2 — the poll and the commands -/

/-- The poll of `cg_set_freezer_state` from its `k`-th read, with `buf` (its `buf[0]` at `0`)
in `mem` and `fuel` reads left: `some (ret, sleeps)` when it returns, `none` while it is still
polling. `a (k + 1)` answers the `cg_get_ctl` of the `k`-th read. -/
def freezerPoll (text : List Char) (a : Nat → ResolveAnswer) (n : Names)
    (ctid : Option (List Char)) (reads : Nat → List Char → Except Nat (List Char))
    (strSize : Nat) (state : List Char) : Nat → Nat → Cache → (Int → Char) → Option (Int × Nat)
  | 0, _, _, _ => none
  | fuel + 1, k, cache, mem =>
    let (r, acc, cache) := cgGetParam text (a (k + 1)) cache n ctid .freezer
      "freezer.state".toList (reads k) strSize mem
    if r ≠ 0 then some (r, k) else
    let mem := applyAccesses mem acc
    if strncmpAt mem 0 state (cstr state).length = 0 then some (0, k)
    else freezerPoll text a n ctid reads strSize state fuel (k + 1) cache mem

/-- `cg_set_freezer_state(ctid, state)`: `cg_set_param` of `state` to `freezer.state`,
answered by `a 0` and `w`, then the poll. -/
def cgSetFreezerState (text : List Char) (a : Nat → ResolveAnswer) (cache : Cache) (n : Names)
    (ctid : Option (List Char)) (w : WriteAnswer)
    (reads : Nat → List Char → Except Nat (List Char)) (strSize : Nat) (mem : Int → Char)
    (state : List Char) (fuel : Nat) : Option (Int × Nat) :=
  let (r, _, cache) := cgSetParam text (a 0) cache n ctid .freezer "freezer.state".toList state w
  if r ≠ 0 then some (r, 0) else freezerPoll text a n ctid reads strSize state fuel 0 cache mem

/-- The commands of `cg_freezer_cmd`: `VZCTL_CMD_RESUME`, `VZCTL_CMD_SUSPEND`, and every other
value (the two constants are in the `vzctl` headers, not in src/). -/
inductive FreezerCmd where
  | resume | suspend | other
  deriving DecidableEq, Repr

/-- `cg_freezer_cmd(ctid, cmd)`. -/
def cgFreezerCmd (text : List Char) (a : Nat → ResolveAnswer) (cache : Cache) (n : Names)
    (ctid : Option (List Char)) (w : WriteAnswer)
    (reads : Nat → List Char → Except Nat (List Char)) (strSize : Nat) (mem : Int → Char)
    (cmd : FreezerCmd) (fuel : Nat) : Option (Int × Nat) :=
  match cmd with
  | .resume => cgSetFreezerState text a cache n ctid w reads strSize mem "THAWED".toList fuel
  | .suspend => cgSetFreezerState text a cache n ctid w reads strSize mem "FROZEN".toList fuel
  | .other => some (-1, 0)

/-! ## §3 — one read -/

/-- The string a read that finds `c` leaves in `buf`: its first `strSize - 1` bytes, one
final newline dropped, up to the first NUL. -/
def freezerText (strSize : Nat) (c : List Char) : List Char :=
  cstr (stripNl (c.take (strSize - 1)))

/-- The read finds, within the bytes `buf` keeps, another state than `state`. -/
def Waits (strSize : Nat) (state : List Char) (r : Except Nat (List Char)) : Prop :=
  ∃ c, r = .ok c ∧ c.take (strSize - 1) ≠ [] ∧ ¬ state <+: freezerText strSize c

/-- The read finds `state` at the front of the bytes `buf` keeps. -/
def Finds (strSize : Nat) (state : List Char) (r : Except Nat (List Char)) : Prop :=
  ∃ c, r = .ok c ∧ c.take (strSize - 1) ≠ [] ∧ state <+: freezerText strSize c

section Poll

variable {text : List Char} {a : Nat → ResolveAnswer} {n : Names} {ctid : Option (List Char)}
  {reads : Nat → List Char → Except Nat (List Char)} {strSize : Nat} {state : List Char}
  {cache : Cache} {path : List Char}
  (hp : ∀ a', cgGetPath text a' cache n ctid .freezer "freezer.state".toList pathMax =
    (0, some path, cache))

include hp

/-- Once the path is cached, one iteration of the poll is one `cg_read` of it. -/
theorem freezerPoll_succ (fuel k : Nat) (mem : Int → Char) :
    freezerPoll text a n ctid reads strSize state (fuel + 1) k cache mem =
      if (cgRead (reads k path) strSize mem).1 ≠ 0 then some ((cgRead (reads k path) strSize mem).1, k)
      else if strncmpAt (applyAccesses mem (cgRead (reads k path) strSize mem).2) 0 state
          (cstr state).length = 0 then some (0, k)
      else freezerPoll text a n ctid reads strSize state fuel (k + 1) cache
        (applyAccesses mem (cgRead (reads k path) strSize mem).2) := by
  simp only [freezerPoll, cgGetParam, hp]

/-- A failed read: the poll returns `-errno`. -/
theorem freezerPoll_fails {fuel k e : Nat} {mem : Int → Char} (he : reads k path = .error e)
    (he0 : e ≠ 0) :
    freezerPoll text a n ctid reads strSize state (fuel + 1) k cache mem = some (-(e : Int), k) := by
  rw [freezerPoll_succ hp, he, if_pos (by simp [cgRead]; omega)]
  rfl

variable (hs : '\x00' ∉ state) (hlen : state.length ≤ strSize) (h0 : 0 < strSize)
  (hsz : strSize ≤ 2 ^ 63)

include hs hlen h0 hsz

/-- A read of another state: one sleep, and the poll goes on at the next read. -/
theorem freezerPoll_waits {fuel k : Nat} {mem : Int → Char} (hw : Waits strSize state (reads k path)) :
    freezerPoll text a n ctid reads strSize state (fuel + 1) k cache mem =
      freezerPoll text a n ctid reads strSize state fuel (k + 1) cache
        (applyAccesses mem (cgRead (reads k path) strSize mem).2) := by
  obtain ⟨c, hc, hne, hnot⟩ := hw
  obtain ⟨hr, hstr⟩ := cgRead_str h0 hsz hne mem
  rw [freezerPoll_succ hp, hc, if_neg (by simpa using hr), if_neg]
  rw [cstr_eq_self hs, strncmpAt_eq_zero_iff _ _ strSize 0 hs hlen, hstr]
  exact hnot

/-- A read of the state: the poll returns `0`. -/
theorem freezerPoll_finds {fuel k : Nat} {mem : Int → Char} (hf : Finds strSize state (reads k path)) :
    freezerPoll text a n ctid reads strSize state (fuel + 1) k cache mem = some (0, k) := by
  obtain ⟨c, hc, hne, hpre⟩ := hf
  obtain ⟨hr, hstr⟩ := cgRead_str h0 hsz hne mem
  rw [freezerPoll_succ hp, hc, if_neg (by simpa using hr), if_pos]
  rw [cstr_eq_self hs, strncmpAt_eq_zero_iff _ _ strSize 0 hs hlen, hstr]
  exact hpre

/-- **The sleeps.** `m` reads of other states use `m` units of fuel and leave the poll at
read `k + m`, whatever was in `buf`. -/
theorem freezerPoll_waiting :
    ∀ (m k fuel : Nat) (mem : Int → Char), (∀ j < m, Waits strSize state (reads (k + j) path)) →
      ∃ mem', freezerPoll text a n ctid reads strSize state (fuel + m) k cache mem =
        freezerPoll text a n ctid reads strSize state fuel (k + m) cache mem'
  | 0, _, _, mem, _ => ⟨mem, rfl⟩
  | m + 1, k, fuel, mem, hw => by
    rw [show fuel + (m + 1) = fuel + m + 1 by omega,
      freezerPoll_waits hp hs hlen h0 hsz (k := k) (by simpa using hw 0 (by omega))]
    obtain ⟨mem', h⟩ := freezerPoll_waiting m (k + 1) fuel _ fun j hj => by
      simpa [Nat.add_assoc, Nat.add_comm 1 j] using hw (j + 1) (by omega)
    exact ⟨mem', by rw [h, Nat.add_assoc, Nat.add_comm 1 m]⟩

end Poll

/-! ## §4 — the whole poll -/

/-- `cg_set_param` that finds the path: the answer of its `write_data` there, with the cache
its `cg_get_path` left. -/
theorem cgSetParam_of_path {text : List Char} {a : ResolveAnswer} {cache cache' : Cache}
    {n : Names} {ctid : Option (List Char)} {c : Ctl} {name data path : List Char}
    {w : WriteAnswer} (hp : cgGetPath text a cache n ctid c name pathMax = (0, some path, cache')) :
    cgSetParam text a cache n ctid c name data w =
      ((writeData w path data).1, (writeData w path data).2, cache') := by
  simp only [cgSetParam, hp]

/-- **The poll.** Once `cg_set_param` has found `freezer.state` at `path` and written
`state` there, for a state without NUL that `buf` holds, and whatever `buf` held before:
the call returns `0` after exactly `m` sleeps when the `m`-th read is the first to find the
state, given more than `m` reads of fuel; it returns `-errno` after `m` sleeps when the
`m`-th read fails after `m` reads of other states; and while every read finds another state
it never returns, whatever the fuel. -/
theorem cgSetFreezerState_polls {text : List Char} {a : Nat → ResolveAnswer}
    {cache cache' : Cache} {n : Names} {ctid : Option (List Char)} {w : WriteAnswer}
    {reads : Nat → List Char → Except Nat (List Char)} {strSize : Nat} {mem : Int → Char}
    {state path : List Char} (hs : '\x00' ∉ state) (hlen : state.length ≤ strSize)
    (h0 : 0 < strSize) (hsz : strSize ≤ 2 ^ 63)
    (hpath : cgGetPath text (a 0) cache n ctid .freezer "freezer.state".toList pathMax =
      (0, some path, cache'))
    (hw : (writeData w path state).1 = 0) :
    (∀ m, (∀ j < m, Waits strSize state (reads j path)) → Finds strSize state (reads m path) →
      ∀ fuel, m < fuel →
        cgSetFreezerState text a cache n ctid w reads strSize mem state fuel = some (0, m)) ∧
    (∀ m e, (∀ j < m, Waits strSize state (reads j path)) → reads m path = .error e → e ≠ 0 →
      ∀ fuel, m < fuel →
        cgSetFreezerState text a cache n ctid w reads strSize mem state fuel =
          some (-(e : Int), m)) ∧
    ((∀ j, Waits strSize state (reads j path)) →
      ∀ fuel, cgSetFreezerState text a cache n ctid w reads strSize mem state fuel = none) := by
  have hp : ∀ a', cgGetPath text a' cache' n ctid .freezer "freezer.state".toList pathMax =
      (0, some path, cache') := fun _ => cgGetPath_again hpath
  have hstart : ∀ fuel, cgSetFreezerState text a cache n ctid w reads strSize mem state fuel =
      freezerPoll text a n ctid reads strSize state fuel 0 cache' mem := fun fuel => by
    simp only [cgSetFreezerState, cgSetParam_of_path hpath, hw, ne_eq, not_true_eq_false, if_false]
  have hwait := @freezerPoll_waiting text a n ctid reads strSize state cache' path hp hs hlen h0 hsz
  refine ⟨fun m hw' hf fuel hm => ?_, fun m e hw' he he0 fuel hm => ?_, fun hall fuel => ?_⟩
  · obtain ⟨f, rfl⟩ : ∃ f, fuel = f + 1 + m := ⟨fuel - m - 1, by omega⟩
    obtain ⟨mem', h⟩ := hwait m 0 (f + 1) mem (by simpa using hw')
    rw [hstart, h, Nat.zero_add, freezerPoll_finds hp hs hlen h0 hsz hf]
  · obtain ⟨f, rfl⟩ : ∃ f, fuel = f + 1 + m := ⟨fuel - m - 1, by omega⟩
    obtain ⟨mem', h⟩ := hwait m 0 (f + 1) mem (by simpa using hw')
    rw [hstart, h, Nat.zero_add, freezerPoll_fails hp he he0]
  · obtain ⟨mem', h⟩ := hwait fuel 0 0 mem fun j _ => by simpa using hall j
    rw [hstart]
    simpa [freezerPoll] using h

/-- `freezer` mounted at `/f`. -/
def freezerMounts : List Char := "cgroup /f cgroup rw,freezer 0 0\n".toList

/-- Container `101`, outside any slice override. -/
def freezerNames : Names := ⟨cgGetSliceName none, [], []⟩

/-- The reads of a container on its way to being frozen: `FREEZING` at the first read,
`FROZEN` from the second on. -/
def freezingReads (k : Nat) (_ : List Char) : Except Nat (List Char) :=
  if k = 0 then .ok "FREEZING\n".toList else .ok "FROZEN\n".toList

/-- Suspending a container that is still freezing: the first read finds `FREEZING` and the
call sleeps once; the second finds `FROZEN` and the call returns `0` after that one sleep. -/
theorem cgSetFreezerState_polls_freezing :
    '\x00' ∉ "FROZEN".toList ∧ "FROZEN".toList.length ≤ 512 ∧ 0 < 512 ∧ 512 ≤ 2 ^ 63 ∧
    cgGetPath freezerMounts {} Cache.empty freezerNames (some "101".toList) .freezer
        "freezer.state".toList pathMax =
      (0, some "/f/machine.slice/101/freezer.state".toList,
        (cgGetPath freezerMounts {} Cache.empty freezerNames (some "101".toList) .freezer
          "freezer.state".toList pathMax).2.2) ∧
    (writeData {} "/f/machine.slice/101/freezer.state".toList "FROZEN".toList).1 = 0 ∧
    (∀ j < 1, Waits 512 "FROZEN".toList (freezingReads j "/f/machine.slice/101/freezer.state".toList)) ∧
    Finds 512 "FROZEN".toList (freezingReads 1 "/f/machine.slice/101/freezer.state".toList) ∧
    cgSetFreezerState freezerMounts (fun _ => {}) Cache.empty freezerNames (some "101".toList)
      {} freezingReads 512 (fun _ => 'x') "FROZEN".toList 2 = some (0, 1) := by
  have hpath : cgGetPath freezerMounts {} Cache.empty freezerNames (some "101".toList) .freezer
      "freezer.state".toList pathMax = (0, some "/f/machine.slice/101/freezer.state".toList,
        (cgGetPath freezerMounts {} Cache.empty freezerNames (some "101".toList) .freezer
          "freezer.state".toList pathMax).2.2) :=
    Prod.ext (by decide) (Prod.ext (by decide) rfl)
  have hw : (writeData {} "/f/machine.slice/101/freezer.state".toList "FROZEN".toList).1 = 0 := by
    decide
  have hwait : ∀ j < 1, Waits 512 "FROZEN".toList
      (freezingReads j "/f/machine.slice/101/freezer.state".toList) := fun j hj => by
    obtain rfl : j = 0 := by omega
    exact ⟨"FREEZING\n".toList, rfl, by decide, by decide⟩
  have hfind : Finds 512 "FROZEN".toList
      (freezingReads 1 "/f/machine.slice/101/freezer.state".toList) :=
    ⟨"FROZEN\n".toList, rfl, by decide, by decide⟩
  exact ⟨by decide, by decide, by decide, by norm_num, hpath, hw, hwait, hfind,
    (@cgSetFreezerState_polls freezerMounts (fun _ => {}) Cache.empty _ freezerNames
      (some "101".toList) {} freezingReads 512 (fun _ => 'x') "FROZEN".toList _
      (by decide) (by decide) (by decide) (by norm_num) hpath hw).1 1 hwait hfind 2 (by decide)⟩

end VzCgroup
