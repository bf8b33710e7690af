import VzCgroup.ParamIO.Typed
import VzCgroup.ListReaders

/-!
# VzCgroup — the `ve` controller's files and the init pid check

`cg_env_get_ve_state` reads `ve.state` into a zeroed 64-byte buffer with `cg_read`, whose
result it does not look at, and reports the container running (`1`) unless the text is
`STOPPED` or `STOPPING`; a missing file reports it stopped (`0`). `cg_set_veid` formats the
`int` id with `sprintf(id, "%d", veid)` into `char id[12]` and writes it to `ve.veid` when
that file exists. `cg_env_check_init_pid` reads `/proc/<pid>/status` with `fgets` into a
4096-byte buffer and decides on the first line that `sscanf(buf, "envID:  %s", buf)`
accepts; `cg_env_get_init_pid` clears the pid when that check fails. `cg_add_veip` and
`cg_del_veip` write an address to the allow or the deny file of its family.

The results: the state is the file's text, an unreadable or empty file counting as running
(`cgEnvGetVeState_stopped`); the id always fits its buffer (`cgSetVeid_fits`); and on a
status file as the kernel renders it, one `Key:` tab `value` line per field, the check
answers from the first `envID` field (`cgEnvCheckInitPid_status`), for which `fgets` must
give back the lines (`fgetsLines_render`) and `sscanf` the field's value
(`scanEnvId_statusLine`).
-/

namespace VzCgroup

/-! ## §1 `ve.state` -/

/-- `char buf[64] = ""`: the `size` bytes of the buffer at `0` zeroed, the rest of memory as
it is. -/
def zeroedBuf (size : Nat) (mem : Int → Char) : Int → Char :=
  fun i => if 0 ≤ i ∧ i < size then '\x00' else mem i

/-- `cg_env_get_ve_state(ctid)`, with `access(path, F_OK)` answering `accessOk` and the
files read as `files`: the result and the cache. -/
def cgEnvGetVeState (text : List Char) (a : ResolveAnswer) (cache : Cache) (n : Names)
    (ctid : Option (List Char)) (accessOk : Bool) (files : List Char → Except Nat (List Char))
    (mem : Int → Char) : Int × Cache :=
  match cgGetPath text a cache n ctid .ve "ve.state".toList pathMax with
  | (0, some path, cache) =>
    if !accessOk then (0, cache) else
    let buf := zeroedBuf 64 mem
    let s := strAt (applyAccesses buf (cgRead (files path) 64 buf).2) 64 0
    (if s ≠ "STOPPED".toList ∧ s ≠ "STOPPING".toList then 1 else 0, cache)
  | (r, _, cache) => (r, cache)

/-- What the zeroed buffer holds after `cg_read`, whatever it answered: the file's first 63
bytes, one final newline dropped, up to the first NUL; nothing when the file could not be
read or is empty. -/
theorem cgRead_zeroedBuf (file : Except Nat (List Char)) (mem : Int → Char) :
    strAt (applyAccesses (zeroedBuf 64 mem) (cgRead file 64 (zeroedBuf 64 mem)).2) 64 0 =
      match file with
      | .ok c => cstr (stripNl (c.take 63))
      | .error _ => [] := by
  rcases file with e | c
  · simp [cgRead, applyAccesses, strAt, zeroedBuf]
  by_cases hc : c.take 63 = []
  · obtain rfl : c = [] := by simpa using hc
    simp only [cgRead, readStores, List.length_nil, Nat.zero_min, List.range_zero, List.map_nil]
    split <;> simp [applyAccesses, strAt, zeroedBuf, stripNl, cstr]
  · exact (cgRead_str (by norm_num) (by norm_num) hc _).2

section State

variable {text : List Char} {a : ResolveAnswer} {cache cache' : Cache} {n : Names}
  {ctid : Option (List Char)} {accessOk : Bool} {files : List Char → Except Nat (List Char)}
  {mem : Int → Char} {path : List Char}

/-- **`cg_env_get_ve_state`.** Once the path is found the answer is `0` or `1`, and it is `0`
(stopped) exactly when `ve.state` does not exist or reads `STOPPED` or `STOPPING`, one
final newline dropped: a state file that cannot be read, or is empty, reads as running. -/
theorem cgEnvGetVeState_stopped
    (hpath : cgGetPath text a cache n ctid .ve "ve.state".toList pathMax = (0, some path, cache')) :
    ((cgEnvGetVeState text a cache n ctid accessOk files mem).1 = 0 ∨
        (cgEnvGetVeState text a cache n ctid accessOk files mem).1 = 1) ∧
      ((cgEnvGetVeState text a cache n ctid accessOk files mem).1 = 0 ↔
        accessOk = false ∨ ∃ c, files path = .ok c ∧
          (cstr (stripNl (c.take 63)) = "STOPPED".toList ∨
            cstr (stripNl (c.take 63)) = "STOPPING".toList)) := by
  have hbuf := cgRead_zeroedBuf (files path) mem
  unfold cgEnvGetVeState
  rw [hpath]
  cases accessOk
  · simp
  rcases hf : files path with e | c <;> simp only [hf] at hbuf <;> simp only [hf, hbuf]
  · simp
  · simp only [Bool.not_true, Bool.false_eq_true, if_false]
    split_ifs with h
    · simp_all
    · rw [ne_eq, ne_eq, ← not_or, not_not] at h
      simpa using h

/-- The state file of container `101` under `veTable`, holding `STOPPED` and a newline. -/
theorem cgEnvGetVeState_stopped_veTable :
    cgGetPath veTable {} Cache.empty veNames (some "101".toList) .ve "ve.state".toList pathMax =
        (0, some "/v/101/ve.state".toList,
          (cgGetPath veTable {} Cache.empty veNames (some "101".toList) .ve "ve.state".toList pathMax).2.2) ∧
      ((cgEnvGetVeState veTable {} Cache.empty veNames (some "101".toList) true
          (fun _ => .ok "STOPPED\n".toList) (fun _ => 'x')).1 = 0 ∨
        (cgEnvGetVeState veTable {} Cache.empty veNames (some "101".toList) true
          (fun _ => .ok "STOPPED\n".toList) (fun _ => 'x')).1 = 1) ∧
      ((cgEnvGetVeState veTable {} Cache.empty veNames (some "101".toList) true
          (fun _ => .ok "STOPPED\n".toList) (fun _ => 'x')).1 = 0 ↔
        true = false ∨ ∃ c, (.ok "STOPPED\n".toList : Except Nat (List Char)) = .ok c ∧
          (cstr (stripNl (c.take 63)) = "STOPPED".toList ∨
            cstr (stripNl (c.take 63)) = "STOPPING".toList)) :=
  have hpath : cgGetPath veTable {} Cache.empty veNames (some "101".toList) .ve "ve.state".toList pathMax =
      (0, some "/v/101/ve.state".toList,
        (cgGetPath veTable {} Cache.empty veNames (some "101".toList) .ve "ve.state".toList pathMax).2.2) :=
    Prod.ext (by decide) (Prod.ext (by decide) rfl)
  ⟨hpath, cgEnvGetVeState_stopped hpath⟩

end State

/-! ## §2 `ve.veid` -/

/-- `sprintf(id, "%d", v)`: the decimal text of an `int`, after a minus sign when it is
negative. -/
def formatInt (v : Int) : List Char :=
  if v < 0 then '-' :: Nat.toDigits 10 v.natAbs else Nat.toDigits 10 v.natAbs

/-- `cg_set_veid(ctid, veid)`, with `access(path, F_OK)` answering `accessOk`: the result,
the write made and the cache. -/
def cgSetVeid (text : List Char) (a : ResolveAnswer) (cache : Cache) (n : Names)
    (ctid : Option (List Char)) (accessOk : Bool) (w : WriteAnswer) (veid : BitVec 32) :
    Int × Option (List Char × List Char) × Cache :=
  match cgGetPath text a cache n ctid .ve "ve.veid".toList pathMax with
  | (0, some path, cache) =>
    if !accessOk then (0, none, cache) else
    let (r, wr) := writeData w path (formatInt veid.toInt)
    (r, wr, cache)
  | (r, _, cache) => (r, none, cache)

/-- An `int` is at most `2^31` from zero. -/
theorem natAbs_toInt_le (v : BitVec 32) : v.toInt.natAbs ≤ 2 ^ 31 := by
  have := v.isLt
  rw [BitVec.toInt_eq_toNat_cond]
  split <;> omega

theorem toDigits_length_le_ten {m : Nat} (h : m ≤ 2 ^ 31) : (Nat.toDigits 10 m).length ≤ 10 :=
  Nat.toDigitsCore_length 10 (by decide) (m + 1) m 10 (by omega) (by decide)

/-- The text of an `int` has no NUL. -/
theorem cstr_formatInt (v : Int) : cstr (formatInt v) = formatInt v := by
  have hd := cstr_digits (toDigits_digits v.natAbs).2
  unfold formatInt
  split_ifs
  · rw [cstr, List.takeWhile_cons_of_pos (by decide)]
    exact congrArg _ hd
  · exact hd

/-- **`cg_set_veid`.** For every `int` id the text `sprintf` stores, with its NUL, fits
`char id[12]`; and the write the call makes is that text. -/
theorem cgSetVeid_fits {text : List Char} {a : ResolveAnswer} {cache : Cache} {n : Names}
    {ctid : Option (List Char)} {accessOk : Bool} {w : WriteAnswer} (veid : BitVec 32) :
    (formatInt veid.toInt).length + 1 ≤ 12 ∧
      ∀ path data, (cgSetVeid text a cache n ctid accessOk w veid).2.1 = some (path, data) →
        data = formatInt veid.toInt := by
  refine ⟨?_, fun path data h => ?_⟩
  · have := toDigits_length_le_ten (natAbs_toInt_le veid)
    unfold formatInt
    split_ifs
    · rw [List.length_cons]; omega
    · omega
  · unfold cgSetVeid at h
    split at h
    · split_ifs at h
      rcases hw : writeData w _ (formatInt veid.toInt) with ⟨r, wr⟩
      rw [hw] at h
      rw [(writeData_write (hw ▸ h : (writeData w _ _).2 = some (path, data))).2, cstr_formatInt]
    · simp at h

/-- `INT_MIN` fills the buffer. -/
example : (formatInt (-2147483648 : BitVec 32).toInt).length + 1 = 12 := by decide

/-! ## §3 The init pid

`fgets` cuts the status file into strings of at most 4095 bytes, each ended by its newline
(`fgetsLines`, as for the mount table); `sscanf` accepts a string that opens with `envID:`
and has a word after it; the loop decides on the first string accepted. -/

/-- `sscanf(buf, "envID:  %s", buf) == 1` on the string `buf` read, and the word it stores.
The literal `envID:` must open the string; the blanks of the format skip white space, and so
does `%s` before it takes its word. -/
def scanEnvId (buf : List Char) : Option (List Char) :=
  let s := cstr buf
  if "envID:".toList.isPrefixOf s then (scanWord none ((s.drop 6).dropWhile isSpace)).map Prod.fst
  else none

/-- The loop of `cg_env_check_init_pid` over the strings read: `1` unless the first string
`sscanf` accepts names `ctid`. -/
def checkInitPidLoop (ctid : List Char) : List (List Char) → Int
  | [] => 1
  | buf :: bufs =>
    match scanEnvId buf with
    | none => checkInitPidLoop ctid bufs
    | some word => if cstr ctid = word then 0 else 1

/-- `snprintf(buf, sizeof(buf), "/proc/%d/status", pid)`. -/
def statusPath (pid : BitVec 32) : List Char :=
  snprintfStr 4096 ("/proc/".toList ++ formatInt pid.toInt ++ "/status".toList)

/-- `cg_env_check_init_pid(ctid, pid)` with the files read as `files`: `-1` when the status
file does not open, else what the loop decides over the 4096-byte `fgets` reads. -/
def cgEnvCheckInitPid (ctid : List Char) (pid : BitVec 32)
    (files : List Char → Except Nat (List Char)) : Int :=
  match files (statusPath pid) with
  | .error _ => -1
  | .ok s => checkInitPidLoop ctid (fgetsLines 4095 s.length s)

/-- `cg_env_get_init_pid(ctid, &pid)`, with `read_init_pid` answering `readInitPid` (its
result and the pid it stored): the result and the pid left. -/
def cgEnvGetInitPid (ctid : List Char) (readInitPid : Int × BitVec 32)
    (files : List Char → Except Nat (List Char)) : Int × BitVec 32 :=
  let (ret, pid) := readInitPid
  if ret ≠ 0 then (ret, pid) else
  let ret := cgEnvCheckInitPid ctid pid files
  if ret ≠ 0 then (ret, 0) else (0, pid)

/-- The line the kernel prints for a field of `/proc/<pid>/status`: `Key:`, a tab, the
value. -/
def statusLine (f : List Char × List Char) : List Char :=
  f.1 ++ ':' :: '\t' :: f.2

/-- A status file: each field's line, ended by a newline. -/
def renderStatus (fields : List (List Char × List Char)) : List Char :=
  fields.flatMap fun f => statusLine f ++ ['\n']

/-- A field as the kernel prints it: a key without a colon, a newline or a NUL; a value that
is one word without a NUL; and a line that, with its newline, fits the 4095 bytes `fgets`
stores. -/
def StatusField (f : List Char × List Char) : Prop :=
  ':' ∉ f.1 ∧ '\n' ∉ f.1 ∧ '\x00' ∉ f.1 ∧ f.2 ≠ [] ∧
    (∀ c ∈ f.2, isSpace c = false ∧ c ≠ '\x00') ∧ (statusLine f).length < 4095

instance : DecidablePred StatusField := fun _ => inferInstanceAs (Decidable (_ ∧ _))

theorem renderStatus_cons (f : List Char × List Char) (fs : List (List Char × List Char)) :
    renderStatus (f :: fs) = statusLine f ++ '\n' :: renderStatus fs := by
  simp [renderStatus]

/-- `fgets` gives back the lines of a rendered status file. -/
theorem fgetsLines_render (fields : List (List Char × List Char)) (fuel : Nat)
    (hf : ∀ f ∈ fields, StatusField f) (hfuel : (renderStatus fields).length ≤ fuel) :
    fgetsLines 4095 fuel (renderStatus fields) = fields.map fun f => statusLine f ++ ['\n'] := by
  have hrender : renderStatus fields = (fields.map statusLine).flatMap (· ++ ['\n']) := by
    simp [renderStatus, List.flatMap_map]
  have hlines : ∀ l ∈ fields.map statusLine, '\n' ∉ l ∧ l.length < 4095 := by
    simp only [List.mem_map]
    rintro _ ⟨f, hmem, rfl⟩
    obtain ⟨-, hnl, -, -, hv, hlen⟩ := hf f hmem
    refine ⟨?_, hlen⟩
    simp only [statusLine, List.mem_append, List.mem_cons, not_or]
    exact ⟨hnl, by decide, by decide, fun h => by simpa [isSpace] using (hv _ h).1⟩
  rw [hrender, fgetsLines_lines 4095 _ fuel hlines (hrender ▸ hfuel), List.map_map]
  rfl

/-- A tag ended by a separator opens `key`, followed by the separator, exactly when `key` is
the tag, provided neither holds the separator. -/
theorem isPrefixOf_append_sep {sep : Char} :
    ∀ (p key r : List Char), sep ∉ p → sep ∉ key →
      ((p ++ [sep]).isPrefixOf (key ++ sep :: r) = true ↔ key = p)
  | [], [], _, _, _ => by simp [List.isPrefixOf]
  | [], k :: _, _, _, hk => by
    have : sep ≠ k := fun h => hk (h ▸ List.mem_cons_self _ _)
    simp [List.isPrefixOf, this]
  | x :: _, [], _, hp, _ => by
    have : x ≠ sep := fun h => hp (h ▸ List.mem_cons_self _ _)
    simp [List.isPrefixOf, this]
  | x :: p, k :: key, r, hp, hk => by
    rw [List.cons_append, List.cons_append, List.isPrefixOf_cons₂, Bool.and_eq_true, beq_iff_eq,
      isPrefixOf_append_sep p key r (fun h => hp (List.mem_cons_of_mem _ h))
        (fun h => hk (List.mem_cons_of_mem _ h)), List.cons.injEq, eq_comm (a := x)]

/-- `sscanf` on a field's line: the value of an `envID` field, nothing for any other. -/
theorem scanEnvId_statusLine {f : List Char × List Char} (hf : StatusField f) :
    scanEnvId (statusLine f ++ ['\n']) = if f.1 = "envID".toList then some f.2 else none := by
  obtain ⟨hcolon, -, hnul, hne, hv, -⟩ := hf
  obtain ⟨key, value⟩ := f
  dsimp only at hcolon hnul hne hv ⊢
  obtain ⟨v, vs, rfl⟩ := List.exists_cons_of_ne_nil hne
  have hcstr : cstr (statusLine (key, v :: vs) ++ ['\n']) = statusLine (key, v :: vs) ++ ['\n'] := by
    refine List.takeWhile_eq_self_iff.mpr fun c hc => decide_eq_true ?_
    simp only [statusLine, List.mem_append, List.mem_cons, List.mem_singleton] at hc
    rcases hc with ((h | rfl | rfl | h) | rfl | h)
    · exact fun h0 => hnul (h0 ▸ h)
    · decide
    · decide
    · exact (hv c (List.mem_cons.mpr h)).2
    · decide
    · cases h
  have hpre := isPrefixOf_append_sep "envID".toList key ('\t' :: v :: vs ++ ['\n']) (by decide) hcolon
  have hline : statusLine (key, v :: vs) ++ ['\n'] = key ++ ':' :: ('\t' :: v :: vs ++ ['\n']) := by
    simp [statusLine]
  rw [scanEnvId, hcstr, hline, show "envID:".toList = "envID".toList ++ [':'] from rfl]
  by_cases hk : key = "envID".toList
  · subst hk
    have hword : scanWord none (v :: vs ++ ['\n']) = some (v :: vs, ['\n']) :=
      @scanWord_word none [] (v :: vs) [] '\n' (fun _ h => nomatch h) (fun x hx => (hv x hx).1) hne
        (by decide) (fun _ h => nomatch h)
    have hdrop : (("envID".toList ++ ':' :: ('\t' :: v :: vs ++ ['\n'])).drop 6).dropWhile isSpace =
        v :: vs ++ ['\n'] := by
      rw [show ("envID".toList ++ ':' :: ('\t' :: v :: vs ++ ['\n'])).drop 6 = '\t' :: (v :: vs ++ ['\n'])
        from rfl, List.dropWhile_cons_of_pos (by decide), List.cons_append,
        List.dropWhile_cons_of_neg (by simp [(hv v (List.mem_cons_self _ _)).1])]
    simp only [hpre.mpr rfl, if_true, hdrop, hword, Option.map_some']
  · simp only [Bool.eq_false_iff.mpr (hpre.not.mpr hk), Bool.false_eq_true, if_false, if_neg hk]

/-- The loop over the lines of a rendered status file decides on the first `envID` field. -/
theorem checkInitPidLoop_render (ctid : List Char) :
    ∀ fields : List (List Char × List Char), (∀ f ∈ fields, StatusField f) →
      checkInitPidLoop ctid (fields.map fun f => statusLine f ++ ['\n']) =
        if fields.lookup "envID".toList = some (cstr ctid) then 0 else 1
  | [], _ => by simp [checkInitPidLoop]
  | f :: fs, hf => by
    have ih := checkInitPidLoop_render ctid fs fun f' h => hf f' (List.mem_cons_of_mem _ h)
    obtain ⟨key, value⟩ := f
    by_cases hk : key = "envID".toList
    · subst hk
      rw [List.map_cons, checkInitPidLoop, scanEnvId_statusLine (hf _ (List.mem_cons_self _ _)),
        if_pos rfl, List.lookup_cons_self]
      simp only [Option.some.injEq, @eq_comm _ value]
    · have hne : ("envID".toList == key) = false := by simpa using Ne.symm hk
      rw [List.map_cons, checkInitPidLoop, scanEnvId_statusLine (hf _ (List.mem_cons_self _ _)),
        if_neg hk, List.lookup_cons, hne]
      exact ih

/-- **`cg_env_check_init_pid`.** On a status file as the kernel renders it, one line per
field, every line shorter than the 4096-byte buffer, the check answers `0` exactly when the
first `envID` field is `ctid`, and `1` otherwise, also when there is no `envID` field. -/
theorem cgEnvCheckInitPid_status {ctid : List Char} {pid : BitVec 32}
    {files : List Char → Except Nat (List Char)} {fields : List (List Char × List Char)}
    (hfields : ∀ f ∈ fields, StatusField f) (hfile : files (statusPath pid) = .ok (renderStatus fields)) :
    cgEnvCheckInitPid ctid pid files = if fields.lookup "envID".toList = some (cstr ctid) then 0 else 1 := by
  rw [cgEnvCheckInitPid, hfile]
  dsimp only
  rw [fgetsLines_render fields _ hfields le_rfl, checkInitPidLoop_render ctid fields hfields]

/-- A status file with the container `101` as `envID`. -/
def initStatus : List (List Char × List Char) :=
  [("Name".toList, "init".toList), ("envID".toList, "101".toList)]

theorem cgEnvCheckInitPid_status_initStatus :
    (∀ f ∈ initStatus, StatusField f) ∧
      (fun _ => .ok (renderStatus initStatus) : List Char → Except Nat (List Char)) (statusPath 1) =
        .ok (renderStatus initStatus) ∧
      cgEnvCheckInitPid "101".toList 1 (fun _ => .ok (renderStatus initStatus)) =
        if initStatus.lookup "envID".toList = some (cstr "101".toList) then 0 else 1 :=
  have hf : ∀ f ∈ initStatus, StatusField f := by decide
  ⟨hf, rfl, cgEnvCheckInitPid_status hf rfl⟩

/-! ## §4 `ve.pseudosuper` -/

/-- `cg_enable_pseudosuper(ctid)`: `cg_set_ul(ctid, CG_VE, "ve.pseudosuper", 1)`. -/
def cgEnablePseudosuper (text : List Char) (a : ResolveAnswer) (cache : Cache) (n : Names)
    (ctid : Option (List Char)) (w : WriteAnswer) : Int × Option (List Char × List Char) × Cache :=
  cgSetUl text a cache n ctid .ve "ve.pseudosuper".toList 1 w

/-- `cg_pseudosuper_open(ctid, &fd)`, with `open` succeeding as `openOk` says: the result,
the path opened for writing, and the cache. -/
def cgPseudosuperOpen (text : List Char) (a : ResolveAnswer) (cache : Cache) (n : Names)
    (ctid : Option (List Char)) (openOk : Bool) : Int × Option (List Char) × Cache :=
  match cgGetPath text a cache n ctid .ve "ve.pseudosuper".toList pathMax with
  | (0, some path, cache) => if openOk then (0, some path, cache) else (-1, none, cache)
  | (r, _, cache) => (r, none, cache)

/-- `cg_disable_pseudosuper(fd)`: `do_write_data(fd, NULL, "0", 1)`, with `write` returning
`writeRet` for the one byte. -/
def cgDisablePseudosuper (writeRet : Int) : Int :=
  if writeRet ≠ 1 then -1 else 0

/-! ## §5 `ve.ip_allow` and `ve.ip_deny` -/

/-- The errors of `cg_add_veip` and `cg_del_veip`: `VZCTL_E_IP_INUSE`, `VZCTL_E_CANT_ADDIP`
and `VZCTL_E_SYSTEM` of `vzerror.h` (not in the source). -/
inductive VeipErr where
  | ipInuse | cantAddip | system
  deriving DecidableEq, Repr

/-- `cg_add_veip(ctid, ip)`, with `is_ip6(ip)` (out of the source) answering `ip6`, and
`errno == EADDRINUSE` after a failed `cg_set_param` answering `inUse`: the error, if any,
the write made and the cache. -/
def cgAddVeip (text : List Char) (a : ResolveAnswer) (cache : Cache) (n : Names)
    (ctid : Option (List Char)) (ip6 : Bool) (ip : List Char) (w : WriteAnswer) (inUse : Bool) :
    Option VeipErr × Option (List Char × List Char) × Cache :=
  let (r, wr, cache) := cgSetParam text a cache n ctid .ve
    (if ip6 then "ve.ip6_allow".toList else "ve.ip_allow".toList) ip w
  (if r ≠ 0 then some (if inUse then .ipInuse else .cantAddip) else none, wr, cache)

/-- `cg_del_veip(ctid, ip)`, with `is_ip6(ip)` answering `ip6`. -/
def cgDelVeip (text : List Char) (a : ResolveAnswer) (cache : Cache) (n : Names)
    (ctid : Option (List Char)) (ip6 : Bool) (ip : List Char) (w : WriteAnswer) :
    Option VeipErr × Option (List Char × List Char) × Cache :=
  let (r, wr, cache) := cgSetParam text a cache n ctid .ve
    (if ip6 then "ve.ip6_deny".toList else "ve.ip_deny".toList) ip w
  (if r ≠ 0 then some .system else none, wr, cache)

end VzCgroup
