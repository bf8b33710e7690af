import VzCgroup.ParamIO
import VzCgroup.Fs

/-!
# VzCgroup — list readers (`cg_env_get_pids`, `get_veip`, `cg_get_veip`)

`cg_env_get_pids` reads the container's `tasks` file with `getline` and appends each line,
its newline cut, to the caller's list; `get_veip` reads `ve.ip_list` or `ve.ip6_list` with
`fgets` into a 64-byte buffer and appends what `get_ip_name` makes of each piece. Both are
one loop, `readLoop`, with what differs as parameters: a failed `getline` returns `-1`, a
failed `fgets` ends the loop as the end of the file does; `get_ip_name` may refuse a piece
and its code is returned; and a failed insertion frees the whole list, the caller's own
entries with it (`free_str`, `free_ip`), and returns `-1`.

`readLoop_outcome` says how every run ends: after the items before the stop went through,
at the end, at a failed read, at an item refused, or at a failed insertion. The two readers
part at a failed read: `cg_env_get_pids` sets `errno = 0` before `getline` and returns `-1`
when it fails with an error, where `get_veip` takes a failed `fgets` for the end of the file
and returns `0` (`cgGetVeip_read_error_returns_zero`).
-/

namespace VzCgroup

/-! ## The loop -/

/-- How the reads of one reader go: the read (numbered from `0`) that fails with an error, if
one does, and the insertion into the list that fails for want of memory, if one does. -/
structure ReadAnswers where
  readErrAt : Option Nat := none
  allocFailAt : Option Nat := none
  deriving DecidableEq, Repr

/-- The loop of a list reader from read `k` over the items left (`getline` lines or `fgets`
pieces): a failed read ends it with `onReadErr`; `conv` turns an item into the text to
insert, or into a non-zero code that ends it; a failed insertion frees the list and ends it
with `-1`; the end of the input ends it with `0`. -/
def readLoop (onReadErr : Int) (conv : List Char → Int × List Char) (r : ReadAnswers) :
    Nat → List (List Char) → List (List Char) → Int × List (List Char)
  | k, [], list => (if r.readErrAt = some k then onReadErr else 0, list)
  | k, item :: items, list =>
    if r.readErrAt = some k then (onReadErr, list)
    else
      let (ret, s) := conv item
      if ret ≠ 0 then (ret, list)
      else if r.allocFailAt = some k then (-1, [])
      else readLoop onReadErr conv r (k + 1) items (list ++ [s])

/-- `p = strrchr(s, c); if (p != NULL) *p = '\0';` on the C string `s`: `s` cut at its last
`c`. -/
def cutAtLast (c : Char) (s : List Char) : List Char :=
  if c ∈ s then ((s.reverse.dropWhile (· ≠ c)).drop 1).reverse else s

/-- The lines `getline` returns, newline included: `fgets` with a buffer as long as the text. -/
def getlineLines (s : List Char) : List (List Char) :=
  fgetsLines s.length s.length s

/-! ## `cg_env_get_pids` -/

/-- What `cg_env_get_pids` inserts for a line: the string at `str` (up to its first NUL) cut at
its last newline. -/
def pidItem (line : List Char) : Int × List Char :=
  (0, cutAtLast '\n' (cstr line))

/-- The `getline` loop of `cg_env_get_pids`: a failed read returns `-1`. -/
def getPidsLoop (r : ReadAnswers) : Nat → List (List Char) → List (List Char) →
    Int × List (List Char) :=
  readLoop (-1) pidItem r

/-- `cg_env_get_pids(ctid, list)` with the files read as `files`: the result, the list and the
resolver cache. -/
def cgEnvGetPids (text : List Char) (a : ResolveAnswer) (cache : Cache) (n : Names)
    (ctid : Option (List Char)) (files : List Char → Except Errno (List Char)) (r : ReadAnswers)
    (list : List (List Char)) : Int × List (List Char) × Cache :=
  match cgGetPath text a cache n ctid .ve "tasks".toList pathMax with
  | (0, some path, cache) =>
    match files path with
    | .error _ => (-1, list, cache)
    | .ok content =>
      let (ret, list) := getPidsLoop r 0 (getlineLines content) list
      (ret, list, cache)
  | (ret, _, cache) => (ret, list, cache)

/-! ## `get_veip` and `cg_get_veip` -/

/-- What `get_veip` hands `get_ip_name` for an `fgets` piece, and what it answers:
`getIpName` is `get_ip_name(str, ip_str, sizeof(ip_str))` (outside src/), its result and the
text it leaves in `ip_str`. -/
def veipItem (getIpName : List Char → Int × List Char) (piece : List Char) : Int × List Char :=
  getIpName (cutAtLast '\n' (cstr piece))

/-- The `fgets` loop of `get_veip`: a failed read ends it as the end of the file does. -/
def getVeipLoop (r : ReadAnswers) (getIpName : List Char → Int × List Char) :
    Nat → List (List Char) → List (List Char) → Int × List (List Char) :=
  readLoop 0 (veipItem getIpName) r

/-- `get_veip(path, list)`: a file that does not exist gives nothing and `0`, one that does
not open `-1`; otherwise the loop over the 63-byte `fgets` pieces. -/
def getVeip (files : List Char → Except Errno (List Char)) (r : ReadAnswers)
    (getIpName : List Char → Int × List Char) (path : List Char) (list : List (List Char)) :
    Int × List (List Char) :=
  match files path with
  | .error e => (if e = .enoent then 0 else -1, list)
  | .ok content => getVeipLoop r getIpName 0 (fgetsLines 63 content.length content) list

/-- `cg_get_veip(ctid, list)`: `get_veip` on `ve.ip_list`, then on `ve.ip6_list`, each after
its `cg_get_path`; the first non-zero code is returned. -/
def cgGetVeip (text : List Char) (a4 a6 : ResolveAnswer) (cache : Cache) (n : Names)
    (ctid : Option (List Char)) (files : List Char → Except Errno (List Char))
    (r4 r6 : ReadAnswers) (getIpName : List Char → Int × List Char) (list : List (List Char)) :
    Int × List (List Char) × Cache :=
  match cgGetPath text a4 cache n ctid .ve "ve.ip_list".toList pathMax with
  | (0, some path, cache) =>
    let (ret, list) := getVeip files r4 getIpName path list
    if ret ≠ 0 then (ret, list, cache) else
    match cgGetPath text a6 cache n ctid .ve "ve.ip6_list".toList pathMax with
    | (0, some path, cache) =>
      let (ret, list) := getVeip files r6 getIpName path list
      (ret, list, cache)
    | (ret, _, cache) => (ret, list, cache)
  | (ret, _, cache) => (ret, list, cache)

/-! ## How a run ends -/

/-- The items from read `k` on go through: each read succeeds, `conv` accepts each item, and
each insertion gets its memory. -/
def ReadAnswers.Clear (r : ReadAnswers) (conv : List Char → Int × List Char) (k : Nat)
    (items : List (List Char)) : Prop :=
  ∀ p ∈ items.enumFrom k, r.readErrAt ≠ some p.1 ∧ (conv p.2).1 = 0 ∧ r.allocFailAt ≠ some p.1

section Outcome

variable {onReadErr : Int} {conv : List Char → Int × List Char} {r : ReadAnswers}

@[simp] theorem ReadAnswers.clear_nil (k : Nat) : r.Clear conv k [] := by
  simp [ReadAnswers.Clear]

theorem ReadAnswers.clear_cons {k : Nat} {x : List Char} {xs : List (List Char)} :
    r.Clear conv k (x :: xs) ↔
      (r.readErrAt ≠ some k ∧ (conv x).1 = 0 ∧ r.allocFailAt ≠ some k) ∧ r.Clear conv (k + 1) xs := by
  simp [ReadAnswers.Clear, List.enumFrom]

/-- An item that goes through is inserted, and the loop goes on with the next read. -/
theorem readLoop_cons {k : Nat} {item : List Char} {items list : List (List Char)}
    (h : r.readErrAt ≠ some k ∧ (conv item).1 = 0 ∧ r.allocFailAt ≠ some k) :
    readLoop onReadErr conv r k (item :: items) list =
      readLoop onReadErr conv r (k + 1) items (list ++ [(conv item).2]) := by
  simp [readLoop, h.1, h.2.1, h.2.2]

/-- The four ways a run of a reader's loop over `items`, from read `k` and appending to
`list`, can end with `res`, the items before the stop having gone through: at the end of the
input, with `0` and every item inserted; at a failed read, with `onReadErr`; at an item `conv`
refuses, with its code; or at a failed insertion, with `-1` and the list emptied. -/
inductive ReadEnd (r : ReadAnswers) (onReadErr : Int) (conv : List Char → Int × List Char)
    (k : Nat) (items list : List (List Char)) : Int × List (List Char) → Prop
  | done : r.Clear conv k items → r.readErrAt ≠ some (k + items.length) →
      ReadEnd r onReadErr conv k items list (0, list ++ items.map (Prod.snd ∘ conv))
  | readErr (i : Nat) : i ≤ items.length → r.Clear conv k (items.take i) →
      r.readErrAt = some (k + i) →
      ReadEnd r onReadErr conv k items list (onReadErr, list ++ (items.take i).map (Prod.snd ∘ conv))
  | refused (i : Nat) (item : List Char) : items[i]? = some item → r.Clear conv k (items.take i) →
      r.readErrAt ≠ some (k + i) → (conv item).1 ≠ 0 →
      ReadEnd r onReadErr conv k items list
        ((conv item).1, list ++ (items.take i).map (Prod.snd ∘ conv))
  | noMem (i : Nat) (item : List Char) : items[i]? = some item → r.Clear conv k (items.take i) →
      r.readErrAt ≠ some (k + i) → (conv item).1 = 0 → r.allocFailAt = some (k + i) →
      ReadEnd r onReadErr conv k items list (-1, [])

/-- An end of the run from the next read is an end of the run from an item that went through. -/
theorem ReadEnd.cons {k : Nat} {item : List Char} {items list : List (List Char)}
    {res : Int × List (List Char)}
    (hok : r.readErrAt ≠ some k ∧ (conv item).1 = 0 ∧ r.allocFailAt ≠ some k)
    (h : ReadEnd r onReadErr conv (k + 1) items (list ++ [(conv item).2]) res) :
    ReadEnd r onReadErr conv k (item :: items) list res := by
  have hidx : ∀ i, k + 1 + i = k + (i + 1) := fun i => by omega
  have hmap : ∀ l : List (List Char), list ++ [(conv item).2] ++ l.map (Prod.snd ∘ conv) =
      list ++ (item :: l).map (Prod.snd ∘ conv) := fun l => by simp
  have hcl : ∀ {l}, r.Clear conv (k + 1) l → r.Clear conv k (item :: l) :=
    fun hcl => ReadAnswers.clear_cons.mpr ⟨hok, hcl⟩
  cases h with
  | done hc hr =>
    rw [hmap]
    exact .done (hcl hc) (by simpa [hidx] using hr)
  | readErr i hi hc hr =>
    rw [hmap, ← List.take_succ_cons]
    exact .readErr (i + 1) (by simpa using hi) (hcl hc) (hidx i ▸ hr)
  | refused i it hit hc hr hcv =>
    rw [hmap, ← List.take_succ_cons]
    exact .refused (i + 1) it (by simpa using hit) (hcl hc) (hidx i ▸ hr) hcv
  | noMem i it hit hc hr hcv ha =>
    exact .noMem (i + 1) it (by simpa using hit) (hcl hc) (hidx i ▸ hr) hcv (hidx i ▸ ha)

/-- Every run of the loop ends in one of the four ways. -/
theorem readLoop_outcome : ∀ (items : List (List Char)) (k : Nat) (list : List (List Char)),
    ReadEnd r onReadErr conv k items list (readLoop onReadErr conv r k items list)
  | [], k, list => by
    by_cases h : r.readErrAt = some k
    · simpa [readLoop, h] using @ReadEnd.readErr r onReadErr conv k [] list 0 le_rfl (by simp)
        (by simpa using h)
    · simpa [readLoop, h] using @ReadEnd.done r onReadErr conv k [] list (by simp) (by simpa using h)
  | item :: items, k, list => by
    by_cases h : r.readErrAt = some k
    · simpa [readLoop, h] using @ReadEnd.readErr r onReadErr conv k (item :: items) list 0
        (Nat.zero_le _) (by simp) (by simpa using h)
    by_cases hc : (conv item).1 = 0
    swap
    · simpa [readLoop, h, hc] using @ReadEnd.refused r onReadErr conv k (item :: items) list 0 item
        (by simp) (by simp) (by simpa using h) hc
    by_cases ha : r.allocFailAt = some k
    · simpa [readLoop, h, hc, ha] using @ReadEnd.noMem r onReadErr conv k (item :: items) list 0
        item (by simp) (by simp) (by simpa using h) hc (by simpa using ha)
    rw [readLoop_cons ⟨h, hc, ha⟩]
    exact (readLoop_outcome items (k + 1) _).cons ⟨h, hc, ha⟩

end Outcome

/-! ## The readers -/

section Readers

variable {text : List Char} {cache cache' : Cache} {n : Names} {ctid : Option (List Char)}
  {files : List Char → Except Errno (List Char)} {getIpName : List Char → Int × List Char}
  {path : List Char} {list : List (List Char)}

/-- `cg_env_get_pids` once `tasks` is found and opens: the end of its loop. -/
theorem cgEnvGetPids_open {a : ResolveAnswer} {r : ReadAnswers} {content : List Char}
    (hp : cgGetPath text a cache n ctid .ve "tasks".toList pathMax = (0, some path, cache'))
    (hf : files path = .ok content) :
    cgEnvGetPids text a cache n ctid files r list =
      ((getPidsLoop r 0 (getlineLines content) list).1,
        (getPidsLoop r 0 (getlineLines content) list).2, cache') := by
  unfold cgEnvGetPids
  rw [hp]
  simp only [hf]

/-- `cg_get_veip` once `ve.ip_list` is found: a non-zero code of `get_veip` on it is returned
with the list it left. -/
theorem cgGetVeip_ipList_fails {a4 a6 : ResolveAnswer} {r4 r6 : ReadAnswers}
    (hp : cgGetPath text a4 cache n ctid .ve "ve.ip_list".toList pathMax = (0, some path, cache'))
    (hv : (getVeip files r4 getIpName path list).1 ≠ 0) :
    cgGetVeip text a4 a6 cache n ctid files r4 r6 getIpName list =
      ((getVeip files r4 getIpName path list).1, (getVeip files r4 getIpName path list).2,
        cache') := by
  unfold cgGetVeip
  rw [hp]
  simp only [hv, ne_eq, not_false_eq_true, if_true]

/-- `cg_get_veip` once `ve.ip_list` gave `0` and the list `list'`: `get_veip` on
`ve.ip6_list` goes on from `list'`. -/
theorem cgGetVeip_ipList_ok {a4 a6 : ResolveAnswer} {r4 r6 : ReadAnswers} {path6 : List Char}
    {list' : List (List Char)} {cache'' : Cache}
    (hp : cgGetPath text a4 cache n ctid .ve "ve.ip_list".toList pathMax = (0, some path, cache'))
    (hv : getVeip files r4 getIpName path list = (0, list'))
    (hp6 : cgGetPath text a6 cache' n ctid .ve "ve.ip6_list".toList pathMax =
      (0, some path6, cache'')) :
    cgGetVeip text a4 a6 cache n ctid files r4 r6 getIpName list =
      ((getVeip files r6 getIpName path6 list').1, (getVeip files r6 getIpName path6 list').2,
        cache'') := by
  unfold cgGetVeip
  rw [hp]
  simp only [hv, ne_eq, not_true_eq_false, if_false]
  rw [hp6]
  rfl

end Readers

/-- Every content of `tasks`, `ve.ip_list` and `ve.ip6_list`, every failed read and every
failed insertion. Once `tasks` is found and opens, `cg_env_get_pids` ends its loop in one of
the ways of `ReadEnd`, a failed read returning `-1`; `get_veip` on a file that opens ends its
loop in one of them, a failed read returning `0`; and `cg_get_veip` returns a non-zero code of
`get_veip` on `ve.ip_list` with the list that left, and otherwise goes on to `ve.ip6_list`
from that list. -/
theorem listReaders_outcomes :
    (∀ (text : List Char) (a : ResolveAnswer) (cache : Cache) (n : Names)
        (ctid : Option (List Char)) (files : List Char → Except Errno (List Char))
        (r : ReadAnswers) (list : List (List Char)) (path content : List Char) (cache' : Cache),
      cgGetPath text a cache n ctid .ve "tasks".toList pathMax = (0, some path, cache') →
      files path = .ok content →
      ReadEnd r (-1) pidItem 0 (getlineLines content) list
          ((cgEnvGetPids text a cache n ctid files r list).1,
            (cgEnvGetPids text a cache n ctid files r list).2.1) ∧
        (cgEnvGetPids text a cache n ctid files r list).2.2 = cache') ∧
    (∀ (files : List Char → Except Errno (List Char)) (r : ReadAnswers)
        (getIpName : List Char → Int × List Char) (path content : List Char)
        (list : List (List Char)),
      files path = .ok content →
      ReadEnd r 0 (veipItem getIpName) 0 (fgetsLines 63 content.length content) list
        (getVeip files r getIpName path list)) ∧
    (∀ (text : List Char) (a4 a6 : ResolveAnswer) (cache : Cache) (n : Names)
        (ctid : Option (List Char)) (files : List Char → Except Errno (List Char))
        (r4 r6 : ReadAnswers) (getIpName : List Char → Int × List Char) (list : List (List Char))
        (path : List Char) (cache' : Cache),
      cgGetPath text a4 cache n ctid .ve "ve.ip_list".toList pathMax = (0, some path, cache') →
      ((getVeip files r4 getIpName path list).1 ≠ 0 →
        cgGetVeip text a4 a6 cache n ctid files r4 r6 getIpName list =
          ((getVeip files r4 getIpName path list).1, (getVeip files r4 getIpName path list).2,
            cache')) ∧
      ∀ (path6 : List Char) (list' : List (List Char)) (cache'' : Cache),
        getVeip files r4 getIpName path list = (0, list') →
        cgGetPath text a6 cache' n ctid .ve "ve.ip6_list".toList pathMax =
          (0, some path6, cache'') →
        cgGetVeip text a4 a6 cache n ctid files r4 r6 getIpName list =
          ((getVeip files r6 getIpName path6 list').1, (getVeip files r6 getIpName path6 list').2,
            cache'')) := by
  refine ⟨fun text a cache n ctid files r list path content cache' hp hf => ?_,
    fun files r getIpName path content list hf => ?_,
    fun text a4 a6 cache n ctid files r4 r6 getIpName list path cache' hp =>
      ⟨cgGetVeip_ipList_fails hp, fun _ _ _ hv hp6 => cgGetVeip_ipList_ok hp hv hp6⟩⟩
  · rw [cgEnvGetPids_open hp hf]
    exact ⟨readLoop_outcome _ 0 list, rfl⟩
  · rw [getVeip, hf]
    exact readLoop_outcome _ 0 list

/-! ## A container's files -/

/-- A mount table with the `ve` controller alone, at `/v`. -/
def veTable : List Char := "cgroup /v cgroup rw,ve 0 0\n".toList

/-- The names of a container outside any slice. -/
def veNames : Names := ⟨cgGetSliceName none, [], []⟩

/-- The files of container `101`: two tasks and one IPv4 address; `ve.ip6_list` does not
open. -/
def veFiles (p : List Char) : Except Errno (List Char) :=
  if p = "/v/101/tasks".toList then .ok "1\n2\n".toList
  else if p = "/v/101/ve.ip_list".toList then .ok "10.0.0.1\n".toList
  else .error .other

theorem listReaders_outcomes_ve :
    (cgGetPath veTable {} Cache.empty veNames (some "101".toList) .ve "tasks".toList pathMax =
        (0, some "/v/101/tasks".toList,
          (cgGetPath veTable {} Cache.empty veNames (some "101".toList) .ve "tasks".toList
            pathMax).2.2) ∧
      veFiles "/v/101/tasks".toList = .ok "1\n2\n".toList ∧
      ReadEnd {} (-1) pidItem 0 (getlineLines "1\n2\n".toList) []
        ((cgEnvGetPids veTable {} Cache.empty veNames (some "101".toList) veFiles {} []).1,
          (cgEnvGetPids veTable {} Cache.empty veNames (some "101".toList) veFiles {} []).2.1)) ∧
    (veFiles "/v/101/ve.ip_list".toList = .ok "10.0.0.1\n".toList ∧
      ReadEnd {} 0 (veipItem fun s => (0, s)) 0
        (fgetsLines 63 "10.0.0.1\n".toList.length "10.0.0.1\n".toList) []
        (getVeip veFiles {} (fun s => (0, s)) "/v/101/ve.ip_list".toList [])) ∧
    (cgGetPath veTable {} Cache.empty veNames (some "101".toList) .ve "ve.ip_list".toList
          pathMax =
        (0, some "/v/101/ve.ip_list".toList,
          (cgGetPath veTable {} Cache.empty veNames (some "101".toList) .ve "ve.ip_list".toList
            pathMax).2.2) ∧
      (getVeip veFiles {} (fun s => (-22, s)) "/v/101/ve.ip_list".toList []).1 ≠ 0 ∧
      cgGetVeip veTable {} {} Cache.empty veNames (some "101".toList) veFiles {} {}
          (fun s => (-22, s)) [] =
        ((getVeip veFiles {} (fun s => (-22, s)) "/v/101/ve.ip_list".toList []).1,
          (getVeip veFiles {} (fun s => (-22, s)) "/v/101/ve.ip_list".toList []).2,
          (cgGetPath veTable {} Cache.empty veNames (some "101".toList) .ve "ve.ip_list".toList
            pathMax).2.2)) ∧
    (getVeip veFiles {} (fun s => (0, s)) "/v/101/ve.ip_list".toList [] =
        (0, ["10.0.0.1".toList]) ∧
      cgGetPath veTable {}
          (cgGetPath veTable {} Cache.empty veNames (some "101".toList) .ve "ve.ip_list".toList
            pathMax).2.2
          veNames (some "101".toList) .ve "ve.ip6_list".toList pathMax =
        (0, some "/v/101/ve.ip6_list".toList,
          (cgGetPath veTable {}
            (cgGetPath veTable {} Cache.empty veNames (some "101".toList) .ve "ve.ip_list".toList
              pathMax).2.2
            veNames (some "101".toList) .ve "ve.ip6_list".toList pathMax).2.2) ∧
      cgGetVeip veTable {} {} Cache.empty veNames (some "101".toList) veFiles {} {}
          (fun s => (0, s)) [] =
        ((getVeip veFiles {} (fun s => (0, s)) "/v/101/ve.ip6_list".toList
            ["10.0.0.1".toList]).1,
          (getVeip veFiles {} (fun s => (0, s)) "/v/101/ve.ip6_list".toList
            ["10.0.0.1".toList]).2,
          (cgGetPath veTable {}
            (cgGetPath veTable {} Cache.empty veNames (some "101".toList) .ve "ve.ip_list".toList
              pathMax).2.2
            veNames (some "101".toList) .ve "ve.ip6_list".toList pathMax).2.2)) := by
  have hp := show cgGetPath veTable {} Cache.empty veNames (some "101".toList) .ve
      "tasks".toList pathMax = (0, some "/v/101/tasks".toList, _) from
    Prod.ext (by decide) (Prod.ext (by decide) rfl)
  have hp4 := show cgGetPath veTable {} Cache.empty veNames (some "101".toList) .ve
      "ve.ip_list".toList pathMax = (0, some "/v/101/ve.ip_list".toList, _) from
    Prod.ext (by decide) (Prod.ext (by decide) rfl)
  have hp6 := show cgGetPath veTable {} (cgGetPath veTable {} Cache.empty veNames
      (some "101".toList) .ve "ve.ip_list".toList pathMax).2.2 veNames (some "101".toList) .ve
      "ve.ip6_list".toList pathMax = (0, some "/v/101/ve.ip6_list".toList, _) from
    Prod.ext (by decide) (Prod.ext (by decide) rfl)
  have hv4 : (getVeip veFiles {} (fun s => (-22, s)) "/v/101/ve.ip_list".toList []).1 ≠ 0 := by
    decide
  have hv : getVeip veFiles {} (fun s => (0, s)) "/v/101/ve.ip_list".toList [] =
      (0, ["10.0.0.1".toList]) := by decide
  have part3 := fun g => listReaders_outcomes.2.2 veTable {} {} Cache.empty veNames
    (some "101".toList) veFiles {} {} g [] _ _ hp4
  exact ⟨⟨hp, rfl, (listReaders_outcomes.1 veTable {} Cache.empty veNames (some "101".toList)
      veFiles {} [] _ "1\n2\n".toList _ hp rfl).1⟩,
    ⟨rfl, listReaders_outcomes.2.1 veFiles {} (fun s => (0, s)) _ "10.0.0.1\n".toList [] rfl⟩,
    ⟨hp4, hv4, (part3 _).1 hv4⟩, ⟨hv, hp6, (part3 _).2 _ _ _ hv hp6⟩⟩

/-- The files of container `101` with `ve.ip6_list` holding one address. -/
def veFiles6 (p : List Char) : Except Errno (List Char) :=
  if p = "/v/101/ve.ip6_list".toList then .ok "fe80::1\n".toList else veFiles p

/-- A read that fails is reported by `cg_env_get_pids` and not by `cg_get_veip`. A first
`getline` of `tasks` that fails returns `-1`. A first `fgets` of `ve.ip6_list` that fails (the
file opens, but reading it fails, as for a directory) ends `get_veip`'s loop as the end of the
file does: `cg_get_veip` returns `0` with the address of `ve.ip6_list` missing from the list,
the list it returns when the read succeeds less that address. A failed second `getline` and a
failed second insertion return `-1` with the caller's `["0"]` changed. -/
theorem cgGetVeip_read_error_returns_zero :
    (cgEnvGetPids veTable {} Cache.empty veNames (some "101".toList) veFiles6
        { readErrAt := some 0 } []).1 = -1 ∧
    ((cgGetVeip veTable {} {} Cache.empty veNames (some "101".toList) veFiles6 {}
          { readErrAt := some 0 } (fun s => (0, s)) []).1,
        (cgGetVeip veTable {} {} Cache.empty veNames (some "101".toList) veFiles6 {}
          { readErrAt := some 0 } (fun s => (0, s)) []).2.1) = (0, ["10.0.0.1".toList]) ∧
    ((cgGetVeip veTable {} {} Cache.empty veNames (some "101".toList) veFiles6 {} {}
          (fun s => (0, s)) []).1,
        (cgGetVeip veTable {} {} Cache.empty veNames (some "101".toList) veFiles6 {} {}
          (fun s => (0, s)) []).2.1) = (0, ["10.0.0.1".toList, "fe80::1".toList]) ∧
    ((cgEnvGetPids veTable {} Cache.empty veNames (some "101".toList) veFiles6
          { readErrAt := some 1 } ["0".toList]).1,
        (cgEnvGetPids veTable {} Cache.empty veNames (some "101".toList) veFiles6
          { readErrAt := some 1 } ["0".toList]).2.1) = (-1, ["0".toList, "1".toList]) ∧
    ((cgEnvGetPids veTable {} Cache.empty veNames (some "101".toList) veFiles6
          { allocFailAt := some 1 } ["0".toList]).1,
        (cgEnvGetPids veTable {} Cache.empty veNames (some "101".toList) veFiles6
          { allocFailAt := some 1 } ["0".toList]).2.1) = (-1, []) := by
  decide

end VzCgroup
