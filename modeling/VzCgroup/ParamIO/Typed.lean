import VzCgroup.Fs
import VzCgroup.ParamIO
import VzCgroup.Decimal

/-!
# VzCgroup — typed parameters (`cg_set_ul`, `cg_set_ull`, `cg_get_ull`)

`cg_set_ul` and `cg_set_ull` format the value with `%lu` / `%llu` into a 32-byte buffer and
hand the text to `write_data` at the path `cg_get_path` gives. `cg_get_ull` reads the file
back into a 32-byte buffer with `cg_read`, which keeps at most 31 bytes and drops one final
newline, and parses what is there with `strtoull`; it answers `-1` when text is left after
the number or the number was out of range.

The bridge is `cgRead_str`: for a file that is not empty, the string `cg_read` leaves is
the file's first `size - 1` bytes, one final newline dropped, up to the first NUL.
-/

namespace VzCgroup

/-! ## Writing -/

/-- How the calls of one `write_data` go: the error of a failing `open`, what `write`
returns for a text of a given length, and whether `close` succeeds. -/
structure WriteAnswer where
  openErr : Option Errno := none
  writeRet : Nat → Int := fun len => len
  closeOk : Bool := true

/-- `write_data(path, data)`: the result, and the `write` it makes, as the path written and
the `strlen(data)` bytes of `data`. -/
def writeData (w : WriteAnswer) (path data : List Char) : Int × Option (List Char × List Char) :=
  match w.openErr with
  | some e => (if e = Errno.enoent then 1 else -1, none)
  | none =>
    let wr := some (path, cstr data)
    if w.writeRet (cstr data).length ≠ (cstr data).length then (-1, wr)
    else if !w.closeOk then (-1, wr)
    else (0, wr)

/-- `cg_set_param(ctid, c->subsys, name, data)`: `cg_get_path`'s non-zero answer, or
`write_data` at the path. The result, the write made and the cache. -/
def cgSetParam (text : List Char) (a : ResolveAnswer) (cache : Cache) (n : Names)
    (ctid : Option (List Char)) (c : Ctl) (name data : List Char) (w : WriteAnswer) :
    Int × Option (List Char × List Char) × Cache :=
  match cgGetPath text a cache n ctid c name pathMax with
  | (0, some path, cache) => let (r, wr) := writeData w path data; (r, wr, cache)
  | (r, _, cache) => (r, none, cache)

/-- `cg_set_ul(ctid, c->subsys, name, value)`: `snprintf(data, 32, "%lu", value)`, then
`cg_set_param`. -/
def cgSetUl (text : List Char) (a : ResolveAnswer) (cache : Cache) (n : Names)
    (ctid : Option (List Char)) (c : Ctl) (name : List Char) (value : UInt64) (w : WriteAnswer) :
    Int × Option (List Char × List Char) × Cache :=
  cgSetParam text a cache n ctid c name (formatDecimal 32 value.toNat) w

/-- `cg_set_ull(ctid, c->subsys, name, value)`: `snprintf(data, 32, "%llu", value)`, then
`cg_set_param`. -/
def cgSetUll (text : List Char) (a : ResolveAnswer) (cache : Cache) (n : Names)
    (ctid : Option (List Char)) (c : Ctl) (name : List Char) (value : UInt64) (w : WriteAnswer) :
    Int × Option (List Char × List Char) × Cache :=
  cgSetParam text a cache n ctid c name (formatDecimal 32 value.toNat) w

/-! ## Reading -/

/-- `cg_get_ull(ctid, c->subsys, name, &value)` with the control files read as `files` and
the 32-byte buffer `data` over the memory `mem` (`data[0]` at `0`): the result, the value
stored to `*value` (`none` when `cg_get_param` failed and nothing was stored), and the cache.
The string `strtoull` parses is read within the buffer. -/
def cgGetUll (text : List Char) (a : ResolveAnswer) (cache : Cache) (n : Names)
    (ctid : Option (List Char)) (c : Ctl) (name : List Char)
    (files : List Char → Except Nat (List Char)) (mem : Int → Char) :
    Int × Option UInt64 × Cache :=
  let (r, acc, cache) := cgGetParam text a cache n ctid c name files 32 mem
  if r ≠ 0 then (r, none, cache) else
  let (v, tail, erange) := strtoull (strAt (applyAccesses mem acc) 32 0)
  (if tail ≠ [] || erange then -1 else 0, some v, cache)

/-- A text with one final newline removed, if it has one. -/
def stripNl (s : List Char) : List Char :=
  if s.getLast? = some '\n' then s.dropLast else s

/-! ## What `cg_read` leaves -/

theorem applyAccesses_append (mem : Int → Char) (l₁ l₂ : List Access) :
    applyAccesses mem (l₁ ++ l₂) = applyAccesses (applyAccesses mem l₁) l₂ := by
  induction l₁ generalizing mem with
  | nil => rfl
  | cons a l ih => cases a <;> exact ih _

/-- The stores of `read`: bytes `0` to `r - 1` hold the text, the rest of memory is as it
was. -/
theorem applyAccesses_writes (mem : Int → Char) (f : Nat → Char) (r : Nat) (j : Int) :
    applyAccesses mem ((List.range r).map fun (i : Nat) => .write (i : Int) (f i)) j =
      if 0 ≤ j ∧ j < r then f j.toNat else mem j := by
  induction r with
  | zero =>
    simp only [List.range_zero, List.map_nil, applyAccesses, Nat.cast_zero]
    rw [if_neg (by omega)]
  | succ r ih =>
    rw [List.range_succ, List.map_append, applyAccesses_append]
    simp only [List.map_cons, List.map_nil, applyAccesses]
    by_cases hj : j = r
    · subst hj; simp
    · rw [Function.update_noteq hj, ih]
      congr 1
      simp only [Nat.cast_add, Nat.cast_one, eq_iff_iff]
      omega

/-- The C string at `i`, up to `b` bytes, of memory that holds `s` there followed by a NUL
is the C string of `s`. -/
theorem strAt_eq_cstr (m : Int → Char) :
    ∀ (s : List Char) (b i : Nat), s.length < b → (∀ k < s.length, m (i + k : Nat) = s.getD k '\x00') →
      m (i + s.length : Nat) = '\x00' → strAt m b i = cstr s
  | [], b, i, hb, _, hnul => by
    obtain ⟨b, rfl⟩ : ∃ b', b = b' + 1 := ⟨b - 1, by rw [List.length_nil] at hb; omega⟩
    simpa [strAt, cstr] using hnul
  | x :: s, b, i, hb, hs, hnul => by
    obtain ⟨b, rfl⟩ : ∃ b', b = b' + 1 := ⟨b - 1, by rw [List.length_cons] at hb; omega⟩
    have hx : m i = x := by simpa using hs 0 (by simp)
    have ih := strAt_eq_cstr m s b (i + 1) (by simpa using hb)
      (fun k hk => by simpa [Nat.add_assoc, Nat.add_comm 1 k] using hs (k + 1) (by simpa using hk))
      (by simpa [Nat.add_assoc, Nat.add_comm 1] using hnul)
    by_cases h0 : x = '\x00'
    · simp [strAt, cstr, hx, h0]
    · simp only [strAt, hx, h0, if_false, ih, cstr, List.takeWhile_cons]
      simp [h0]

/-- After the stores of `read` and a NUL at `s.length`, within or just after the bytes stored,
the C string at `out` is that of `s` when the stores put `s` before the NUL. -/
theorem strAt_stores_nul (mem : Int → Char) {c s : List Char} {r size : Nat} (x : Int)
    (hs : s.length ≤ r) (hsize : s.length < size)
    (hget : ∀ k < s.length, c.getD k '\x00' = s.getD k '\x00') :
    strAt (applyAccesses mem ((List.range r).map (fun (i : Nat) => .write (i : Int) (c.getD i '\x00')) ++
      [.read x, .write (s.length : Nat) '\x00'])) size 0 = cstr s := by
  rw [applyAccesses_append]
  refine strAt_eq_cstr _ s size 0 hsize (fun k hk => ?_) ?_
  · simp only [applyAccesses]
    rw [Function.update_noteq (by omega), applyAccesses_writes, if_pos (by omega), Int.toNat_ofNat,
      Nat.zero_add, hget k hk]
  · rw [Nat.zero_add]
    exact Function.update_same _ _ _

theorem readCount_eq {size : Nat} (h0 : 0 < size) (h : size ≤ 2 ^ 63) : readCount size = size - 1 := by
  unfold readCount
  rw [Int.emod_eq_of_lt (by omega) (by omega)]
  omega

/-- `cg_read` of a file whose first `size - 1` bytes are not empty: `0`, and the string left
in the buffer is those bytes with one final newline dropped, up to their first NUL. -/
theorem cgRead_str {c : List Char} {size : Nat} (h0 : 0 < size) (h : size ≤ 2 ^ 63)
    (hc : c.take (size - 1) ≠ []) (mem : Int → Char) :
    (cgRead (.ok c) size mem).1 = 0 ∧
      strAt (applyAccesses mem (cgRead (.ok c) size mem).2) size 0 = cstr (stripNl (c.take (size - 1))) := by
  set t := c.take (size - 1) with ht
  have hr : min c.length (size - 1) = t.length := by rw [ht, List.length_take, min_comm]
  have hpos : 0 < t.length := List.length_pos.mpr hc
  have htlen : t.length ≤ size - 1 := by simp [ht]
  -- after `read`, byte `j` of the buffer is byte `j` of `t`
  have hget : ∀ j < t.length, c.getD j '\x00' = t.getD j '\x00' := fun j hj => by
    simp [ht, List.getD_eq_getElem?_getD, List.getElem?_take, (by omega : j < size - 1)]
  refine ⟨by simp only [cgRead]; split <;> rfl, ?_⟩
  simp only [cgRead, readStores, readCount_eq h0 h, hr]
  have hlast : applyAccesses mem ((List.range t.length).map fun (i : Nat) => .write (i : Int) (c.getD i '\x00'))
      ((t.length : Int) - 1) = t.getD (t.length - 1) '\x00' := by
    rw [applyAccesses_writes, if_pos (by omega), hget _ (by omega)]
    congr 1; omega
  rw [hlast]
  have hlastIdx : t.getD (t.length - 1) '\x00' = '\n' ↔ t.getLast? = some '\n' := by
    rw [List.getLast?_eq_getElem?, List.getD_eq_getElem?_getD,
      List.getElem?_eq_getElem (by omega : t.length - 1 < t.length)]
    simp
  by_cases hnl : t.getD (t.length - 1) '\x00' = '\n'
  · rw [if_pos hnl, stripNl, if_pos (hlastIdx.mp hnl),
      show (t.length : Int) - 1 = (t.dropLast.length : Nat) by rw [List.length_dropLast]; omega]
    refine strAt_stores_nul mem _ (by simp) (by simp; omega) fun k hk => ?_
    simp only [List.length_dropLast] at hk
    rw [hget k (by omega)]
    simp [List.getD_eq_getElem?_getD, List.getElem?_dropLast, hk,
      List.getElem?_eq_getElem (by omega : k < t.length)]
  · rw [if_neg hnl, stripNl, if_neg (mt hlastIdx.mpr hnl)]
    exact strAt_stores_nul mem _ le_rfl (by omega) hget

/-! ## The path, resolved once -/

section Path

variable {text : List Char} {a a' : ResolveAnswer} {cache cache' : Cache} {n : Names}
  {ctid : Option (List Char)} {c : Ctl} {name : List Char} {size : Nat} {path : List Char}

/-- The cache `cg_get_path` leaves is the one its `cg_get_ctl` left. -/
theorem cgGetPath_cache : (cgGetPath text a cache n ctid c name size).2.2 = (cgGetCtl text a cache c).2 := by
  simp only [cgGetPath]
  split_ifs
  · rfl
  · split <;> rfl

/-- What `cg_get_path` answers and the path it builds read the cache at `c` only. -/
theorem cgGetPath_congr (h : cache c = cache' c) :
    (cgGetPath text a cache n ctid c name size).1 = (cgGetPath text a cache' n ctid c name size).1 ∧
      (cgGetPath text a cache n ctid c name size).2.1 = (cgGetPath text a cache' n ctid c name size).2.1 := by
  have h1 : (cgGetCtl text a cache c).1 = (cgGetCtl text a cache' c).1 := cgGetCtl_fst_congr h
  have h2 : (cgGetCtl text a cache c).2 c = (cgGetCtl text a cache' c).2 c := cgGetCtl_snd_congr h
  rcases hg : cgGetCtl text a cache c with ⟨r, k⟩
  rcases hg' : cgGetCtl text a cache' c with ⟨r', k'⟩
  simp only [hg, hg'] at h1 h2
  subst h1
  simp only [cgGetPath, hg, hg', h2]
  split_ifs <;> cases ctid <;> exact ⟨rfl, rfl⟩

/-- A `cg_get_path` that found the path leaves the controller's mount path cached. -/
theorem cgGetPath_cached (h : cgGetPath text a cache n ctid c name size = (0, some path, cache')) :
    (cache' c).isSome := by
  have hc := congrArg (fun r => r.2.2) h
  simp only [cgGetPath_cache] at hc
  rcases cgGetCtl_cases text a cache c with ⟨q, hq, -⟩ | ⟨hq, -⟩ | ⟨hq, -⟩
  · simp [← hc, hq]
  all_goals simp [cgGetPath, hq] at h

/-- A second `cg_get_path` for the same file, from the cache a successful one left, finds
the same path, whatever its own calls would answer. -/
theorem cgGetPath_again (h : cgGetPath text a cache n ctid c name size = (0, some path, cache')) :
    cgGetPath text a' cache' n ctid c name size = (0, some path, cache') := by
  obtain ⟨q, hq⟩ := Option.isSome_iff_exists.mp (cgGetPath_cached h)
  have hctl : cgGetCtl text a' cache' c = (0, cache') := by simp [cgGetCtl, hq]
  have hctl0 : cgGetCtl text a cache c = (0, cache') := by
    rcases cgGetCtl_cases text a cache c with ⟨q', hq', -⟩ | ⟨hq', -⟩ | ⟨hq', -⟩
    · have hc := congrArg (fun r => r.2.2) h
      simp only [cgGetPath_cache, hq'] at hc
      rw [hq', hc]
    all_goals simp [cgGetPath, hq'] at h
  rw [← h]
  simp only [cgGetPath, hctl, hctl0]

/-- A `cg_get_path` that answers `0` has built a path. -/
theorem cgGetPath_isSome (h : (cgGetPath text a cache n ctid c name size).1 = 0) :
    (cgGetPath text a cache n ctid c name size).2.1.isSome := by
  unfold cgGetPath at h ⊢
  generalize cgGetCtl text a cache c = g at h ⊢
  obtain ⟨r, k⟩ := g
  dsimp only at h ⊢
  split_ifs at h ⊢ with hr
  · exact absurd h hr
  · cases ctid <;> rfl

/-- A `write_data` that answers `0` has written the C string of the text. -/
theorem writeData_ok {w : WriteAnswer} {p d : List Char} (h : (writeData w p d).1 = 0) :
    (writeData w p d).2 = some (p, cstr d) := by
  unfold writeData at h ⊢
  split at h
  · split_ifs at h <;> simp at h
  · split_ifs at h <;> simp_all

theorem writeData_write {w : WriteAnswer} {p d p' d' : List Char}
    (h : (writeData w p d).2 = some (p', d')) : p' = p ∧ d' = cstr d := by
  unfold writeData at h
  split at h
  · simp at h
  · split_ifs at h <;>
    · simp only [Option.some.injEq, Prod.mk.injEq] at h
      exact ⟨h.1.symm, h.2.symm⟩

theorem cstr_cstr (d : List Char) : cstr (cstr d) = cstr d := by
  simp [cstr, List.takeWhile_takeWhile]

/-- `write_data` reads the text only up to its first NUL. -/
theorem writeData_cstr {w : WriteAnswer} {p d : List Char} : writeData w p (cstr d) = writeData w p d := by
  rw [writeData, writeData, cstr_cstr]

/-- The write `cg_set_param` makes is at the path `cg_get_path` found, and holds the C string
of the text. -/
theorem cgSetParam_write {w : WriteAnswer} {data wdata : List Char}
    (h : (cgSetParam text a cache n ctid c name data w).2.1 = some (path, wdata)) :
    cgGetPath text a cache n ctid c name pathMax =
        (0, some path, (cgSetParam text a cache n ctid c name data w).2.2) ∧ wdata = cstr data := by
  unfold cgSetParam at h ⊢
  split at h
  · rename_i path' cache'' heq
    rcases hw : writeData w path' data with ⟨r, wr⟩
    rw [hw] at h
    obtain ⟨rfl, rfl⟩ := writeData_write (hw ▸ h : (writeData w path' data).2 = some (path, wdata))
    simp [heq]
  · simp at h

section
variable {data : List Char} {w : WriteAnswer}

/-- What `cg_set_param` answers and the write it makes read the cache at `c` only. -/
theorem cgSetParam_congr (h : cache c = cache' c) :
    (cgSetParam text a cache n ctid c name data w).1 = (cgSetParam text a cache' n ctid c name data w).1 ∧
      (cgSetParam text a cache n ctid c name data w).2.1 =
        (cgSetParam text a cache' n ctid c name data w).2.1 := by
  obtain ⟨h1, h2⟩ := @cgGetPath_congr text a cache cache' n ctid c name pathMax h
  rcases hg : cgGetPath text a cache n ctid c name pathMax with ⟨r, o, k⟩
  rcases hg' : cgGetPath text a cache' n ctid c name pathMax with ⟨r', o', k'⟩
  simp only [hg, hg'] at h1 h2
  subst h1 h2
  simp only [cgSetParam, hg, hg']
  rcases o with _ | p <;> rcases r with (_ | _) | _ <;> exact ⟨rfl, rfl⟩

/-- A `cg_set_param` that answers `0` has made its write. -/
theorem cgSetParam_ok_write (h : (cgSetParam text a cache n ctid c name data w).1 = 0) :
    ∃ path, (cgSetParam text a cache n ctid c name data w).2.1 = some (path, cstr data) := by
  unfold cgSetParam at h ⊢
  split at h
  · rename_i path _ heq
    simp only [heq]
    exact ⟨path, writeData_ok h⟩
  · rename_i r o k hne heq
    obtain ⟨p, hp⟩ := Option.isSome_iff_exists.mp
      (cgGetPath_isSome (heq ▸ h : (cgGetPath text a cache n ctid c name pathMax).1 = 0))
    rw [heq] at hp
    exact absurd hp (hne p h)

/-- A `cg_set_param` that made a write answers what that `write_data` answered. -/
theorem cgSetParam_answer_of_write {path wdata : List Char}
    (h : (cgSetParam text a cache n ctid c name data w).2.1 = some (path, wdata)) :
    (cgSetParam text a cache n ctid c name data w).1 = (writeData w path data).1 := by
  obtain ⟨hg, -⟩ := cgSetParam_write h
  unfold cgSetParam
  rw [hg]
  rfl

/-- The cache `cg_set_param` leaves is the one its `cg_get_ctl` left. -/
theorem cgSetParam_cache :
    (cgSetParam text a cache n ctid c name data w).2.2 = (cgGetCtl text a cache c).2 := by
  rw [← @cgGetPath_cache text a cache n ctid c name pathMax]
  unfold cgSetParam
  split <;> simp_all

end

end Path

/-! ## `cg_get_ull` reads back what `cg_set_ull` wrote -/

theorem toDigits_digits (m : Nat) :
    Nat.toDigits 10 m ≠ [] ∧ ∀ ch ∈ Nat.toDigits 10 m, ch.isDigit = true := by
  obtain ⟨pre, hpre, hne, hd, -⟩ := toDigitsCore_digits (m + 1) m [] (by omega)
  rw [Nat.toDigits, hpre, List.append_nil]
  exact ⟨hne, hd⟩

theorem cstr_digits {ds : List Char} (hd : ∀ ch ∈ ds, ch.isDigit = true) : cstr ds = ds :=
  List.takeWhile_eq_self_iff.mpr fun ch hch => by
    have := hd ch hch
    simp only [decide_eq_true_eq]
    rintro rfl
    simp at this

/-- The digits of a number, with or without one final newline, as `cg_read` leaves them in
a 32-byte buffer: the digits. -/
theorem cstr_stripNl_digits {ds : List Char} (hd : ∀ ch ∈ ds, ch.isDigit = true)
    (hlen : ds.length ≤ 20) (nl : Bool) :
    cstr (stripNl ((ds ++ if nl then ['\n'] else []).take 31)) = ds := by
  have hlast : ds.getLast? ≠ some '\n' := fun h => by
    simpa using hd _ (List.mem_of_getLast?_eq_some h)
  rw [List.take_of_length_le (by split <;> simp <;> omega)]
  cases nl
  · simp [stripNl, hlast, cstr_digits hd]
  · simp [stripNl, cstr_digits hd]

/-- For every 64-bit value, `cg_get_ull` of the file `cg_set_ull` wrote, holding exactly that
text or that text and a newline, answers `0` with the value, from the cache `cg_set_ull`
left and whatever its own resolution would answer. -/
theorem cgGetUll_cgSetUll (v : UInt64) {text : List Char} {a a' : ResolveAnswer} {cache : Cache}
    {n : Names} {ctid : Option (List Char)} {c : Ctl} {name : List Char} {w : WriteAnswer}
    {path data : List Char} {files : List Char → Except Nat (List Char)}
    (hset : (cgSetUll text a cache n ctid c name v w).2.1 = some (path, data))
    (hfile : files path = .ok data ∨ files path = .ok (data ++ ['\n'])) (mem : Int → Char) :
    cgGetUll text a' (cgSetUll text a cache n ctid c name v w).2.2 n ctid c name files mem =
      (0, some v, (cgSetUll text a cache n ctid c name v w).2.2) := by
  obtain ⟨hpath, rfl⟩ := cgSetParam_write hset
  set cache' := (cgSetUll text a cache n ctid c name v w).2.2 with hc'
  change cgGetPath text a cache n ctid c name pathMax = (0, some path, cache') at hpath
  obtain ⟨hne, hd⟩ := toDigits_digits v.toNat
  have hlen := toDigits_length_le v.toNat_lt_size
  have hdata : cstr (formatDecimal 32 v.toNat) = Nat.toDigits 10 v.toNat := by
    rw [formatDecimal, snprintfStr, List.take_of_length_le (by omega), cstr_digits hd]
  obtain ⟨nl, hnl⟩ : ∃ nl : Bool,
      files path = .ok (Nat.toDigits 10 v.toNat ++ if nl then ['\n'] else []) := by
    rcases hfile with h | h
    · exact ⟨false, by simpa [hdata] using h⟩
    · exact ⟨true, by simpa [hdata] using h⟩
  have h32 : (32 : Nat) ≤ 2 ^ 63 := by norm_num
  have hread := cgRead_str (c := Nat.toDigits 10 v.toNat ++ if nl then ['\n'] else [])
    (by norm_num : 0 < 32) h32 (by simp [hne]) mem
  have hparam : cgGetParam text a' cache' n ctid c name files 32 mem =
      (0, (cgRead (files path) 32 mem).2, cache') := by
    simp only [cgGetParam, cgGetPath_again hpath, hnl, hread.1]
  have hstr : strAt (applyAccesses mem (cgRead (files path) 32 mem).2) 32 0 = Nat.toDigits 10 v.toNat := by
    rw [← cstr_stripNl_digits hd hlen nl, ← hread.2, hnl]
  unfold cgGetUll
  rw [hparam]
  dsimp only
  rw [hstr, strtoull_toDigits]
  rfl

/-- `cpu` mounted at `/c`. -/
def cpuTable : List Char :=
  "cgroup /c cgroup rw,cpu 0 0\n".toList

/-- `ULLONG_MAX`, twenty digits, written to `/c/cpu.shares` and read back with the newline
the kernel adds. -/
theorem cgGetUll_cgSetUll_max :
    (cgSetUll cpuTable {} Cache.empty ⟨cgGetSliceName none, [], []⟩ none .cpu "cpu.shares".toList
        18446744073709551615 {}).2.1 = some ("/c/cpu.shares".toList, "18446744073709551615".toList) ∧
      ((fun _ => .ok "18446744073709551615\n".toList) : List Char → Except Nat (List Char))
          "/c/cpu.shares".toList = .ok ("18446744073709551615".toList ++ ['\n']) ∧
      cgGetUll cpuTable {} (cgSetUll cpuTable {} Cache.empty ⟨cgGetSliceName none, [], []⟩ none .cpu
          "cpu.shares".toList 18446744073709551615 {}).2.2 ⟨cgGetSliceName none, [], []⟩ none .cpu
          "cpu.shares".toList (fun _ => .ok "18446744073709551615\n".toList) (fun _ => 'x') =
        (0, some 18446744073709551615, (cgSetUll cpuTable {} Cache.empty ⟨cgGetSliceName none, [], []⟩
          none .cpu "cpu.shares".toList 18446744073709551615 {}).2.2) :=
  have hset : (cgSetUll cpuTable {} Cache.empty ⟨cgGetSliceName none, [], []⟩ none .cpu
      "cpu.shares".toList 18446744073709551615 {}).2.1 =
      some ("/c/cpu.shares".toList, "18446744073709551615".toList) := by decide
  ⟨hset, rfl, cgGetUll_cgSetUll _ hset (.inr rfl) _⟩

/-! ## Contents `cg_get_ull` takes for numbers -/

/-- `cg_get_ull` answers `0` for control files that are not a plain decimal numeral:
`-1` reads as `ULLONG_MAX` (`strtoull` negates modulo `2^64`), ` 5` as `5` (leading blanks
are skipped), an empty file as `0` (with the byte before the buffer not a newline), and a
32-byte file of thirty zeros and `79` as `7` (the read keeps 31 bytes). -/
theorem cgGetUll_accepts_non_numerals :
    (cgGetUll cpuTable {} Cache.empty ⟨cgGetSliceName none, [], []⟩ none .cpu "cpu.shares".toList
        (fun _ => .ok "-1".toList) (fun _ => 'x')).1 = 0 ∧
      (cgGetUll cpuTable {} Cache.empty ⟨cgGetSliceName none, [], []⟩ none .cpu "cpu.shares".toList
        (fun _ => .ok "-1".toList) (fun _ => 'x')).2.1 = some 18446744073709551615 ∧
      (cgGetUll cpuTable {} Cache.empty ⟨cgGetSliceName none, [], []⟩ none .cpu "cpu.shares".toList
        (fun _ => .ok " 5".toList) (fun _ => 'x')).1 = 0 ∧
      (cgGetUll cpuTable {} Cache.empty ⟨cgGetSliceName none, [], []⟩ none .cpu "cpu.shares".toList
        (fun _ => .ok " 5".toList) (fun _ => 'x')).2.1 = some 5 ∧
      (cgGetUll cpuTable {} Cache.empty ⟨cgGetSliceName none, [], []⟩ none .cpu "cpu.shares".toList
        (fun _ => .ok []) (fun _ => 'x')).1 = 0 ∧
      (cgGetUll cpuTable {} Cache.empty ⟨cgGetSliceName none, [], []⟩ none .cpu "cpu.shares".toList
        (fun _ => .ok []) (fun _ => 'x')).2.1 = some 0 ∧
      (cgGetUll cpuTable {} Cache.empty ⟨cgGetSliceName none, [], []⟩ none .cpu "cpu.shares".toList
        (fun _ => .ok "00000000000000000000000000000079".toList) (fun _ => 'x')).1 = 0 ∧
      (cgGetUll cpuTable {} Cache.empty ⟨cgGetSliceName none, [], []⟩ none .cpu "cpu.shares".toList
        (fun _ => .ok "00000000000000000000000000000079".toList) (fun _ => 'x')).2.1 = some 7 := by
  decide

end VzCgroup
