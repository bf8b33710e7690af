import VzCgroup.BindMount

/-!
# VzCgroup — the links of a joined hierarchy (`create_perctl_symlink`)

For a mount point whose last component joins several controllers, `n1,...,nk`,
`create_perctl_symlink` makes a link `<root>/<path>/../ni` to the whole component for each
name, so that each can be found under its own name inside the container. The code splits
the component in place: the first comma is cut before the loop, and each turn links the
current name, then cuts the next one out of the rest at its first comma, or sets `last`
when there is none.

`linkAll` is the same work as a loop over a list of names. `perctlLoop_eq_linkAll` shows
that the code's loop is `linkAll` over `buf.splitOn ','` once it has the fuel its caller
gives, so no name is lost at either end; the rest is said of `linkAll`.
-/

namespace VzCgroup

/-! ## The loop over the names -/

/-- Where the link for `name` goes: `snprintf(newpath, PATH_MAX, "%s/%s/../%s", root, path,
name)`. -/
def linkPath (root path name : List Char) : List Char :=
  snprintfStr pathMax (root ++ '/' :: path ++ "/../".toList ++ name)

/-- Whether `symlink` answered an error other than `EEXIST`, the answer the loop stops at. -/
def linkFails (e : Option Errno) : Bool :=
  e.isSome && e != some .eexist

/-- A `symlink` call that failed other than with `EEXIST`. -/
def Event.linkFailed : Event → Bool
  | (.symlink _ _, e) => linkFails e
  | _ => false

/-- The calls made for one name: `unlink(newpath)`, then `symlink(oldpath, newpath)`. -/
def linkCalls (root path old name : List Char) : List SysCall :=
  [.unlink (linkPath root path name), .symlink old (linkPath root path name)]

/-- The links for a list of names, one after the other, stopping at the first `symlink`
that fails other than with `EEXIST`. -/
def linkAll (a : BindAnswers) (root path old : List Char) :
    List (List Char) → List Event → Int × List Event
  | [], log => (0, log)
  | nm :: nms, log =>
    let log := (a.call log (.unlink (linkPath root path nm))).2
    let (e, log) := a.call log (.symlink old (linkPath root path nm))
    if linkFails e then (-1, log) else linkAll a root path old nms log

/-- The text after the last `/` of `path`, where `strrchr(path, '/')` points. -/
def lastComponent (path : List Char) : List Char :=
  (path.reverse.takeWhile (· ≠ '/')).reverse

/-! ## Cutting at commas -/

/-- `span` at the first comma of a text with none: all of it. -/
theorem span_comma_nil {p nm : List Char} (h : p.span (· ≠ ',') = (nm, [])) :
    nm = p ∧ ',' ∉ p := by
  rw [List.span_eq_take_drop, Prod.mk.injEq] at h
  have hall := List.dropWhile_eq_nil_iff.mp h.2
  exact ⟨h.1 ▸ List.takeWhile_eq_self_iff.mpr hall, fun hc => by simpa using hall ',' hc⟩

/-- `span` at the first comma of a text with one: the name before it, and the rest after. -/
theorem span_comma_cons {p nm rest : List Char} {c : Char}
    (h : p.span (· ≠ ',') = (nm, c :: rest)) : p = nm ++ ',' :: rest ∧ ',' ∉ nm := by
  rw [List.span_eq_take_drop, Prod.mk.injEq] at h
  obtain ⟨hn, hd⟩ := h
  have hc : c = ',' := by
    have := List.head?_dropWhile_not (· ≠ ',') p
    rw [hd] at this
    simpa using this
  refine ⟨by rw [← hc, ← hn, ← hd, List.takeWhile_append_dropWhile], fun hm => ?_⟩
  exact absurd (List.mem_takeWhile_imp (hn ▸ hm)) (by decide)

theorem splitOn_comma_of_not_mem {p : List Char} (h : ',' ∉ p) : p.splitOn ',' = [p] :=
  List.splitOnP_eq_single _ _ fun x hx => by simpa using ne_of_mem_of_not_mem hx h

theorem splitOn_comma_cons {nm : List Char} (rest : List Char) (h : ',' ∉ nm) :
    (nm ++ ',' :: rest).splitOn ',' = nm :: rest.splitOn ',' :=
  List.splitOnP_first _ _ (fun x hx => by simpa using ne_of_mem_of_not_mem hx h) ',' (by simp) rest

/-- A text of `n` bytes has at most `n + 1` comma-separated pieces. -/
theorem length_splitOn_le (p : List Char) : (p.splitOn ',').length ≤ p.length + 1 := by
  induction p with
  | nil => simp
  | cons c p ih =>
    rw [List.splitOn, List.splitOnP_cons, ← List.splitOn]
    split <;> simp [List.length_modifyHead] <;> omega

/-! ## The code's loop is the loop over the names -/

/-- With a turn for each name left, the loop of `create_perctl_symlink` from `name`, the rest
`p` and `last` links exactly the names `name :: p.splitOn ','` (only `name` when `last`). -/
theorem perctlLoop_eq_linkAll (a : BindAnswers) (root path old : List Char) :
    ∀ fuel name p last log, (if last then 1 else (p.splitOn ',').length + 1) ≤ fuel →
      perctlLoop a root path old fuel name p last log =
        linkAll a root path old (if last then [name] else name :: p.splitOn ',') log
  | 0, _, _, last, _, h => by cases last <;> simp at h
  | fuel + 1, name, p, true, log, _ => by
    simp only [perctlLoop, linkAll, linkFails, linkPath, if_true]
  | fuel + 1, name, p, false, log, h => by
    simp only [perctlLoop, linkAll, linkFails, linkPath, Bool.false_eq_true, if_false]
    split_ifs
    · rfl
    split
    · rename_i nm hs
      obtain ⟨rfl, hp⟩ := span_comma_nil hs
      rw [splitOn_comma_of_not_mem hp, if_neg Bool.false_ne_true, List.length_singleton] at h
      rw [splitOn_comma_of_not_mem hp]
      exact perctlLoop_eq_linkAll a root path old fuel nm [] true _ (by rw [if_pos rfl]; omega)
    · rename_i nm _ rest hs
      obtain ⟨rfl, hn⟩ := span_comma_cons hs
      rw [splitOn_comma_cons rest hn] at h ⊢
      exact perctlLoop_eq_linkAll a root path old fuel nm rest false _ (by simpa using h)

/-- `create_perctl_symlink` is `linkAll` over the comma-separated names of the last component
of `path` as it fits in `buf`, when `path` has a `/` and that text a comma; otherwise it
makes no call and returns `0`. -/
theorem createPerctlSymlink_eq (a : BindAnswers) (strSize : Nat) (root path : List Char)
    (log : List Event) :
    createPerctlSymlink a strSize root path log =
      let buf := snprintfStr strSize (lastComponent path)
      if '/' ∈ path ∧ ',' ∈ buf then linkAll a root path buf (buf.splitOn ',') log
      else (0, log) := by
  unfold createPerctlSymlink lastComponent
  by_cases hs : '/' ∈ path
  · simp only [hs, not_true_eq_false, if_false, true_and]
    generalize snprintfStr strSize (path.reverse.takeWhile (· ≠ '/')).reverse = buf
    split
    · rename_i nm hsp
      simp [(span_comma_nil hsp).2]
    · rename_i nm _ p hsp
      obtain ⟨rfl, hn⟩ := span_comma_cons hsp
      rw [if_pos (by simp), splitOn_comma_cons p hn]
      refine perctlLoop_eq_linkAll a _ _ _ _ _ _ false _ ?_
      have := length_splitOn_le p
      have : (p.splitOn ',').length + 1 ≤ (nm ++ ',' :: p).length + 1 := by
        rw [List.length_append, List.length_cons]
        omega
      exact this
  · simp [hs]

theorem lastComponent_append {pre s : List Char} (h : '/' ∉ s) :
    lastComponent (pre ++ '/' :: s) = s := by
  have hs : ∀ c ∈ s.reverse, decide (c ≠ '/') = true := fun c hc => by
    simpa using ne_of_mem_of_not_mem (List.mem_reverse.mp hc) h
  unfold lastComponent
  rw [List.reverse_append, List.reverse_cons, List.append_assoc, List.takeWhile_append_of_pos hs]
  simp

/-! ## What the links are -/

section Links

variable {a : BindAnswers} {root path old : List Char}

/-- The two events `linkAll` logs for `name` after `log`. -/
def linkEvents (a : BindAnswers) (root path old name : List Char) (log : List Event) :
    List Event :=
  [(.unlink (linkPath root path name), a.err log.length (.unlink (linkPath root path name))),
    (.symlink old (linkPath root path name),
      a.err (log.length + 1) (.symlink old (linkPath root path name)))]

theorem linkAll_cons (nm : List Char) (nms : List (List Char)) (log : List Event) :
    linkAll a root path old (nm :: nms) log =
      if linkFails (a.err (log.length + 1) (.symlink old (linkPath root path nm)))
      then (-1, log ++ linkEvents a root path old nm log)
      else linkAll a root path old nms (log ++ linkEvents a root path old nm log) := by
  simp [linkAll, linkEvents]

@[simp] theorem map_fst_linkEvents (nm : List Char) (log : List Event) :
    (linkEvents a root path old nm log).map Prod.fst = linkCalls root path old nm := rfl

/-- Of the two events of a name, only the `symlink` can have failed, and it is the last. -/
theorem linkFailed_of_mem_linkEvents {nm : List Char} {log : List Event} {ev : Event}
    (h : ev ∈ linkEvents a root path old nm log) (hf : ev.linkFailed) :
    linkFails (a.err (log.length + 1) (.symlink old (linkPath root path nm))) ∧
      (linkEvents a root path old nm log).getLast? = some ev := by
  simp only [linkEvents, List.mem_cons, List.mem_singleton, List.not_mem_nil, or_false] at h
  rcases h with rfl | rfl
  · simp [Event.linkFailed] at hf
  · exact ⟨hf, rfl⟩

/-- With no `symlink` failing other than with `EEXIST`, `linkAll` returns `0` having made the
two calls of every name, in order. -/
theorem linkAll_ok (hl : ∀ i o p, linkFails (a.err i (.symlink o p)) = false) :
    ∀ names log, ∃ evs, linkAll a root path old names log = (0, log ++ evs) ∧
      evs.map Prod.fst = names.flatMap (linkCalls root path old)
  | [], log => ⟨[], by simp [linkAll]⟩
  | nm :: nms, log => by
    obtain ⟨evs, h, hc⟩ := linkAll_ok hl nms (log ++ linkEvents a root path old nm log)
    rw [linkAll_cons, hl, if_neg Bool.false_ne_true, h, List.append_assoc]
    exact ⟨_, rfl, by simp [hc]⟩

/-- A `symlink` that fails other than with `EEXIST` is the last call `linkAll` makes, and
the result is then `-1`. -/
theorem linkAll_stops : ∀ names log, ∃ evs, (linkAll a root path old names log).2 = log ++ evs ∧
    ∀ ev ∈ evs, ev.linkFailed → (linkAll a root path old names log).1 = -1 ∧ evs.getLast? = some ev
  | [], log => ⟨[], by simp [linkAll]⟩
  | nm :: nms, log => by
    rw [linkAll_cons]
    split_ifs with hf
    · exact ⟨_, rfl, fun ev hev hev' => ⟨rfl, (linkFailed_of_mem_linkEvents hev hev').2⟩⟩
    · obtain ⟨evs, h, hs⟩ := linkAll_stops nms (log ++ linkEvents a root path old nm log)
      refine ⟨linkEvents a root path old nm log ++ evs, by rw [h, List.append_assoc],
        fun ev hev hev' => ?_⟩
      rcases List.mem_append.mp hev with hev | hev
      · exact absurd (linkFailed_of_mem_linkEvents hev hev').1 hf
      · obtain ⟨hr, hl⟩ := hs ev hev hev'
        exact ⟨hr, by simp [hl]⟩

end Links

/-- A text of `PATH_MAX - 1` bytes or more fills a `PATH_MAX` buffer: what follows it is
cut. -/
theorem snprintfStr_pathMax_append {s : List Char} (t : List Char) (h : pathMax - 1 ≤ s.length) :
    snprintfStr pathMax (s ++ t) = s.take (pathMax - 1) :=
  List.take_append_of_le_length h

/-! ## `create_perctl_symlink` -/

section Create

variable {a : BindAnswers} {strSize : Nat} {root : List Char}

/-- A mount point `pre/lc` whose last component `lc` fits in `buf` and has two names or more,
with no `symlink` failing other than with `EEXIST`: `0`, after the two calls of each name. -/
theorem createPerctlSymlink_ok {pre lc : List Char} (log : List Event)
    (hk : 2 ≤ (lc.splitOn ',').length) (hs : '/' ∉ lc) (hfit : lc.length < strSize)
    (hl : ∀ i o p, linkFails (a.err i (.symlink o p)) = false) :
    ∃ evs, createPerctlSymlink a strSize root (pre ++ '/' :: lc) log = (0, log ++ evs) ∧
      evs.map Prod.fst = (lc.splitOn ',').flatMap (linkCalls root (pre ++ '/' :: lc) lc) := by
  have hbuf : snprintfStr strSize (lastComponent (pre ++ '/' :: lc)) = lc := by
    rw [lastComponent_append hs, snprintfStr, List.take_of_length_le (by omega)]
  have hc : ',' ∈ lc := by
    by_contra hc
    rw [splitOn_comma_of_not_mem hc, List.length_singleton] at hk
    omega
  rw [createPerctlSymlink_eq]
  dsimp only
  rw [hbuf, if_pos ⟨by simp, hc⟩]
  exact linkAll_ok hl _ _

/-- A last component with no comma: no call, and `0`. -/
theorem createPerctlSymlink_no_comma {path : List Char} (log : List Event)
    (h : ',' ∉ lastComponent path) : createPerctlSymlink a strSize root path log = (0, log) := by
  rw [createPerctlSymlink_eq]
  exact if_neg fun hc => h (List.mem_of_mem_take hc.2)

/-- Whatever the answers, a `symlink` that fails other than with `EEXIST` is the last call,
and the result is `-1`. -/
theorem createPerctlSymlink_stops (path : List Char) (log : List Event) :
    ∃ evs, (createPerctlSymlink a strSize root path log).2 = log ++ evs ∧
      ∀ ev ∈ evs, ev.linkFailed →
        (createPerctlSymlink a strSize root path log).1 = -1 ∧ evs.getLast? = some ev := by
  rw [createPerctlSymlink_eq]
  dsimp only
  split_ifs
  · exact linkAll_stops _ _
  · exact ⟨[], by simp, by simp⟩

/-- `create_perctl_symlink(root, path)` for a mount point `pre/lc` whose last component `lc`
is `n1,...,nk` with `k ≥ 2` and fits in `buf`, every `symlink` succeeding: it returns `0`
after `unlink` and `symlink` of the `newpath` of each name, in order, the last included, each
link to the whole of `lc`. A last component without a comma gets no call. Whatever the
answers, a `symlink` failing other than with `EEXIST` is the last call, and `-1` is
returned. -/
theorem createPerctlSymlink_links (strSize : Nat) (root : List Char) :
    (∀ (a : BindAnswers) (pre lc : List Char) (log : List Event),
      2 ≤ (lc.splitOn ',').length → '/' ∉ lc → lc.length < strSize →
      (∀ i o p, a.err i (.symlink o p) = none) →
      ∃ evs, createPerctlSymlink a strSize root (pre ++ '/' :: lc) log = (0, log ++ evs) ∧
        evs.map Prod.fst = (lc.splitOn ',').flatMap (linkCalls root (pre ++ '/' :: lc) lc)) ∧
    (∀ (a : BindAnswers) (path : List Char) (log : List Event), ',' ∉ lastComponent path →
      createPerctlSymlink a strSize root path log = (0, log)) ∧
    (∀ (a : BindAnswers) (path : List Char) (log : List Event), ∃ evs,
      (createPerctlSymlink a strSize root path log).2 = log ++ evs ∧
      ∀ ev ∈ evs, ev.linkFailed →
        (createPerctlSymlink a strSize root path log).1 = -1 ∧ evs.getLast? = some ev) :=
  ⟨fun _ _ _ log hk hs hfit hn =>
      createPerctlSymlink_ok log hk hs hfit fun i o p => by simp [linkFails, hn i o p],
    fun _ _ log h => createPerctlSymlink_no_comma log h,
    fun _ path log => createPerctlSymlink_stops path log⟩

theorem createPerctlSymlink_links_cpuacct :
    2 ≤ ("cpu,cpuacct".toList.splitOn ',').length ∧ '/' ∉ "cpu,cpuacct".toList ∧
      "cpu,cpuacct".toList.length < 512 ∧
      ∃ evs, createPerctlSymlink {} 512 "/ct".toList ("/c".toList ++ '/' :: "cpu,cpuacct".toList) [] =
          (0, [] ++ evs) ∧
        evs.map Prod.fst = ("cpu,cpuacct".toList.splitOn ',').flatMap
          (linkCalls "/ct".toList ("/c".toList ++ '/' :: "cpu,cpuacct".toList) "cpu,cpuacct".toList) :=
  have hk : 2 ≤ ("cpu,cpuacct".toList.splitOn ',').length := by decide
  have hs : '/' ∉ "cpu,cpuacct".toList := by decide
  have hfit : "cpu,cpuacct".toList.length < 512 := by decide
  ⟨hk, hs, hfit, (createPerctlSymlink_links 512 "/ct".toList).1 {} "/c".toList "cpu,cpuacct".toList []
    hk hs hfit fun _ _ _ => rfl⟩

/-- A root of `PATH_MAX` bytes or more: every `newpath` is the root cut to `PATH_MAX - 1`
bytes, so both links of `/c/cpu,cpuacct` are made at that one path and neither at
`<root>/c/cpu,cpuacct/../<name>`. -/
theorem createPerctlSymlink_long_root :
    (createPerctlSymlink {} 512 (List.replicate 4096 'r') "/c/cpu,cpuacct".toList []).2.map
        Prod.fst =
      [.unlink (List.replicate 4095 'r'), .symlink "cpu,cpuacct".toList (List.replicate 4095 'r'),
        .unlink (List.replicate 4095 'r'), .symlink "cpu,cpuacct".toList (List.replicate 4095 'r')] := by
  have hlp : ∀ nm, linkPath (List.replicate 4096 'r') "/c/cpu,cpuacct".toList nm =
      List.replicate 4095 'r' := fun nm => by
    have h : pathMax - 1 ≤ (List.replicate 4096 'r').length := by
      rw [List.length_replicate]
      decide
    rw [linkPath, List.append_assoc, List.append_assoc, snprintfStr_pathMax_append _ h,
      List.take_replicate]
    rfl
  have hb : snprintfStr 512 (lastComponent "/c/cpu,cpuacct".toList) = "cpu,cpuacct".toList := by
    decide
  have hn : "cpu,cpuacct".toList.splitOn ',' = ["cpu".toList, "cpuacct".toList] := by decide
  rw [createPerctlSymlink_eq]
  dsimp only
  rw [hb, if_pos (by decide), hn, linkAll_cons, linkAll_cons]
  simp only [linkEvents, hlp]
  generalize List.replicate 4095 'r' = r
  generalize List.replicate 4096 'r' = root
  simp [linkAll, linkFails]

end Create

end VzCgroup
