import VzCgroup.TreeWalk

/-!
# VzCgroup — one step of the walk at a time

The bricks the walk's invariant is assembled from: what opening and closing a descriptor
does to the table, what a scan of `goto_next_dir` can end with, and what `rmdir_retry`
can end with. Every later proof cites these and never unfolds the walk's definitions.
-/

namespace VzCgroup

/-! ## Descriptors -/

namespace Walk

variable {w : Walk} {d : Fs.OpenDir} {h h' : Nat} {o : Option Nat}

@[simp] theorem openFd_fs : (w.openFd d).fs = w.fs := rfl
@[simp] theorem openFd_next : (w.openFd d).next = w.next + 1 := rfl
@[simp] theorem openFd_fd : (w.openFd d).fd = w.fd := rfl
@[simp] theorem openFd_parentfd : (w.openFd d).parentfd = w.parentfd := rfl
@[simp] theorem openFd_name : (w.openFd d).name = w.name := rfl
@[simp] theorem openFd_level : (w.openFd d).level = w.level := rfl
@[simp] theorem closeOpt_fs : (w.closeOpt o).fs = w.fs := by cases o <;> rfl
@[simp] theorem closeOpt_next : (w.closeOpt o).next = w.next := by cases o <;> rfl
@[simp] theorem closeOpt_fd : (w.closeOpt o).fd = w.fd := by cases o <;> rfl
@[simp] theorem closeOpt_parentfd : (w.closeOpt o).parentfd = w.parentfd := by cases o <;> rfl
@[simp] theorem closeOpt_name : (w.closeOpt o).name = w.name := by cases o <;> rfl
@[simp] theorem closeOpt_level : (w.closeOpt o).level = w.level := by cases o <;> rfl

/-- A record update that keeps the table keeps what every descriptor is open on. -/
@[simp] theorem dirOf_mk {fs : Fs} {next : Nat} {log : List FdEvent} {fd pf : Option Nat}
    {nm : List Char} {lv : Int} : (Walk.mk fs w.fds next log fd pf nm lv).dirOf o = w.dirOf o := rfl

theorem dirOf_congr {v : Walk} (h : w.fds = v.fds) : w.dirOf o = v.dirOf o := by
  simp [dirOf, h]

theorem dirOf_openFd_self : (w.openFd d).dirOf (some w.next) = some d := by
  simp [dirOf, openFd]

theorem dirOf_openFd_ne (hne : h ≠ w.next) : (w.openFd d).dirOf (some h) = w.dirOf (some h) := by
  simp [dirOf, openFd, List.find?_cons, Ne.symm hne]

theorem find?_filter_ne {l : List (Nat × Fs.OpenDir)} {h'' : Nat} (hne : h ≠ h'') :
    (l.filter fun x => x.1 ≠ h'').find? (·.1 = h) = l.find? (·.1 = h) := by
  induction l with
  | nil => rfl
  | cons x l ih =>
    by_cases hx' : x.1 = h''
    · have hx : ¬ x.1 = h := fun e => hne (e ▸ hx')
      rw [List.filter_cons_of_neg (by simpa using hx'), ih,
        List.find?_cons_of_neg _ (by simpa using hx)]
    · rw [List.filter_cons_of_pos (by simpa using hx'), List.find?_cons, List.find?_cons, ih]

theorem dirOf_closeOpt_ne (hne : o ≠ some h) : (w.closeOpt o).dirOf (some h) = w.dirOf (some h) := by
  cases o with
  | none => rfl
  | some h'' =>
    have : h ≠ h'' := fun e => hne (e ▸ rfl)
    simp only [closeOpt, closeFd, dirOf, Option.some_bind]
    rw [find?_filter_ne this]

end Walk

section Descend

variable {w : Walk} {d : Fs.OpenDir} {nm : List Char} {h : Nat}

@[simp] theorem descend_fs : (descend w d nm).fs = w.fs := by simp [descend]
@[simp] theorem descend_next : (descend w d nm).next = w.next + 1 := by simp [descend]
@[simp] theorem descend_fd : (descend w d nm).fd = some w.next := rfl
@[simp] theorem descend_parentfd : (descend w d nm).parentfd = w.fd := rfl
@[simp] theorem descend_name : (descend w d nm).name = nm := rfl
@[simp] theorem descend_level : (descend w d nm).level = w.level := by simp [descend]

theorem descend_dirOf_self (hp : w.parentfd ≠ some w.next) :
    (descend w d nm).dirOf (some w.next) = some d := by
  rw [Walk.dirOf_congr (w := descend w d nm) (v := (w.openFd d).closeOpt w.parentfd) rfl,
    Walk.dirOf_closeOpt_ne hp, Walk.dirOf_openFd_self]

theorem descend_dirOf_ne (h1 : h ≠ w.next) (h2 : w.parentfd ≠ some h) :
    (descend w d nm).dirOf (some h) = w.dirOf (some h) := by
  rw [Walk.dirOf_congr (w := descend w d nm) (v := (w.openFd d).closeOpt w.parentfd) rfl,
    Walk.dirOf_closeOpt_ne h2, Walk.dirOf_openFd_ne h1]

end Descend

section HandUp

variable {w : Walk} {pp : Fs.OpenDir} {h : Nat}

@[simp] theorem handUp_fs : (handUp w pp).fs = w.fs := by simp [handUp]
@[simp] theorem handUp_next : (handUp w pp).next = w.next + 1 := by simp [handUp]
@[simp] theorem handUp_fd : (handUp w pp).fd = w.parentfd := rfl
@[simp] theorem handUp_parentfd : (handUp w pp).parentfd = some w.next := rfl
@[simp] theorem handUp_name : (handUp w pp).name = w.name := by simp [handUp]
@[simp] theorem handUp_level : (handUp w pp).level = w.level := by simp [handUp]

theorem handUp_dirOf_self (hf : w.fd ≠ some w.next) : (handUp w pp).dirOf (some w.next) = some pp := by
  rw [Walk.dirOf_congr (w := handUp w pp) (v := (w.openFd pp).closeOpt w.fd) rfl,
    Walk.dirOf_closeOpt_ne hf, Walk.dirOf_openFd_self]

theorem handUp_dirOf_ne (h1 : h ≠ w.next) (h2 : w.fd ≠ some h) :
    (handUp w pp).dirOf (some h) = w.dirOf (some h) := by
  rw [Walk.dirOf_congr (w := handUp w pp) (v := (w.openFd pp).closeOpt w.fd) rfl,
    Walk.dirOf_closeOpt_ne h2, Walk.dirOf_openFd_ne h1]

end HandUp

/-! ## The scan of `goto_next_dir` -/

section Scan

variable {a : ScanAnswers} {fs : Fs} {cur : Path} {l : List (List Char)} {st : Bool}
  {nm : List Char} {d : Fs.OpenDir}

/-- The scan skips nothing: `readdir` and `fstatat` never fail, and `openat` never answers
`ENOENT` (the three failures `goto_next_dir` reads as "not a directory here"). -/
structure ScanAnswers.NoSkip (a : ScanAnswers) : Prop where
  cut : a.readdirCut = none
  fstatat : ∀ nm, a.fstatat nm = none
  openat : ∀ nm, a.openat nm ≠ some .enoent

theorem listing_mem (hc : a.readdirCut = none) {names : List (List Char)} :
    nm ∈ a.listing names ↔ nm ∈ names := by
  simp [ScanAnswers.listing, hc, List.mem_insertionSort]

theorem mem_of_mem_listing {names : List (List Char)} (h : nm ∈ a.listing names) : nm ∈ names := by
  unfold ScanAnswers.listing at h
  split at h
  · exact (List.mem_insertionSort _).mp (List.mem_of_mem_take h)
  · exact (List.mem_insertionSort _).mp h

/-- Every name a scan sees is an entry of the scanned directory. -/
theorem listing_get_isSome (hwf : fs.WF) : ∀ x ∈ a.listing (fs.entries cur), (fs.get (cur ++ [x])).isSome :=
  fun _ hx => by
    obtain ⟨n, hn⟩ := Fs.mem_entries.mp (mem_of_mem_listing hx)
    simp [Fs.get_of_mem hwf hn]

theorem fstatatAt_of_get (hf : a.fstatat nm = none) {n : Node} (hg : fs.get (cur ++ [nm]) = some n) :
    fstatatAt a fs cur nm = .ok n.isDir := by
  simp [fstatatAt, answer, hf, hg]

theorem entryStep_of_get (hf : a.fstatat nm = none) {n : Node} (hg : fs.get (cur ++ [nm]) = some n) :
    entryStep a fs cur nm st =
      if n.isDir then
        match openatAt a fs cur nm with
        | .ok d => .found d
        | .error .enoent => .next true
        | .error _ => .fail
      else .next false := by
  simp only [entryStep, fstatatAt_of_get hf hg]
  cases n.isDir <;> rfl

/-- An entry the scan opens is a real directory of the scanned directory, unless
`fstatat` failed on a symbolic link: the stale `st` then lets `openat` follow the link. -/
theorem entryStep_found (hf : a.fstatat nm = none ∨ ∀ t, fs.get (cur ++ [nm]) ≠ some (.symlink t))
    (h : entryStep a fs cur nm st = .found d) :
    d.path = cur ++ [nm] ∧ fs.get (cur ++ [nm]) = some (.dir d.dev d.ino) := by
  simp only [entryStep] at h
  split at h
  · cases h
  · cases h
  rename_i hseen
  split at h
  · cases h
    rename_i ho
    simp only [openatAt, answer] at ho
    split at ho
    · cases ho
    rcases Fs.openDir_ok_cases ho with ⟨t, ht⟩ | hd
    · rcases hf with hf | hf
      · simp [fstatatAt, answer, hf, ht, Node.isDir] at hseen
      · exact absurd ht (hf t)
    · exact hd
  all_goals cases h

/-- A scan descends only into a real directory entry of the scanned directory, when no
entry it reads is a symbolic link whose `fstatat` failed. -/
theorem scanDir_found (hf : ∀ x ∈ l, a.fstatat x = none ∨ ∀ t, fs.get (cur ++ [x]) ≠ some (.symlink t))
    (h : scanDir a fs cur l st = .found nm d) :
    nm ∈ l ∧ d.path = cur ++ [nm] ∧ fs.get (cur ++ [nm]) = some (.dir d.dev d.ino) := by
  induction l generalizing st with
  | nil => cases h
  | cons x l ih =>
    simp only [scanDir] at h
    split at h
    · exact (ih (fun y hy => hf y (List.mem_cons_of_mem x hy)) h).imp_left (List.mem_cons_of_mem x)
    · rename_i hx
      cases h
      exact ⟨List.mem_cons_self _ _, entryStep_found (hf _ (List.mem_cons_self _ _)) hx⟩
    · cases h

/-- A scan that skips nothing and finds no directory has looked at no directory. -/
theorem scanDir_none (hs : a.NoSkip) (hl : ∀ x ∈ l, (fs.get (cur ++ [x])).isSome)
    (h : scanDir a fs cur l st = .none) :
    ∀ x ∈ l, ∀ n, fs.get (cur ++ [x]) = some n → n.isDir = false := by
  induction l generalizing st with
  | nil => simp
  | cons x l ih =>
    obtain ⟨n, hn⟩ := Option.isSome_iff_exists.mp (hl x (List.mem_cons_self _ _))
    have hl' : ∀ y ∈ l, (fs.get (cur ++ [y])).isSome := fun y hy => hl y (List.mem_cons_of_mem _ hy)
    simp only [scanDir, entryStep_of_get (hs.fstatat x) hn] at h
    intro y hy n' hn'
    cases hd : n.isDir
    · simp only [hd] at h
      rcases List.mem_cons.mp hy with rfl | hy
      · rw [hn] at hn'; cases hn'; exact hd
      · exact ih hl' h y hy n' hn'
    · simp only [hd, if_true] at h
      cases ho : openatAt a fs cur x with
      | ok od => simp [ho] at h
      | error e =>
        cases e
        · simp only [openatAt, answer] at ho
          split at ho
          · cases ho; exact absurd ‹_› (hs.openat x)
          · cases n with
            | dir dv i => simp [Fs.openDir_of_get hn] at ho
            | file => simp [Node.isDir] at hd
            | symlink t => simp [Node.isDir] at hd
        all_goals simp [ho] at h

/-- A whole scan that skips nothing and finds no directory leaves no doubt: the directory
has no subdirectory, and `rmdir` may remove it. -/
theorem hasSubdir_of_scanDir_none (hs : a.NoSkip) (hwf : fs.WF)
    (h : scanDir a fs cur (a.listing (fs.entries cur)) st = .none) : fs.hasSubdir cur = false := by
  have hnd := scanDir_none hs (listing_get_isSome hwf) h
  cases hsd : fs.hasSubdir cur
  · rfl
  · obtain ⟨nm, d, i, hm⟩ := Fs.hasSubdir_iff.mp hsd
    have := hnd nm ((listing_mem hs.cut).mpr (Fs.mem_entries.mpr ⟨_, hm⟩)) _ (Fs.get_of_mem hwf hm)
    simp [Node.isDir] at this

/-- Every call of the scan succeeds: nothing fails and every entry can be opened. -/
theorem scanDir_ne_fail (hf : ∀ nm, a.fstatat nm = none) (ho : ∀ nm, a.openat nm = none)
    (hl : ∀ x ∈ l, (fs.get (cur ++ [x])).isSome) : scanDir a fs cur l st ≠ .fail := by
  induction l generalizing st with
  | nil => simp [scanDir]
  | cons x l ih =>
    obtain ⟨n, hn⟩ := Option.isSome_iff_exists.mp (hl x (List.mem_cons_self _ _))
    have hl' : ∀ y ∈ l, (fs.get (cur ++ [y])).isSome := fun y hy => hl y (List.mem_cons_of_mem _ hy)
    simp only [scanDir, entryStep_of_get (hf x) hn]
    cases hd : n.isDir
    · exact ih hl'
    · cases n with
      | dir dv i => simp [openatAt, answer, ho x, Fs.openDir_of_get hn]
      | file => simp [Node.isDir] at hd
      | symlink t => simp [Node.isDir] at hd

end Scan

/-! ## `rmdir_retry` -/

/-- `wait` and `total` of `rmdir_retry` after `k` sleeps. -/
def retryClock : Nat → Nat × Nat
  | 0 => (10000, 0)
  | k + 1 => (min (2 * (retryClock k).1) rmdirMaxWait, (retryClock k).2 + (retryClock k).1)

/-- The `unlinkat` answers of one `rmdir_retry` are transient: `EBUSY` some number of
times whose sleeps stay within the 30 s budget, then what the kernel does. -/
def Transient (u : Nat → Option Errno) : Prop :=
  ∃ m, (∀ j < m, u j = some .ebusy) ∧ u m = none ∧ (retryClock m).2 < rmdirTimeout

theorem retryClock_wait_ge (k : Nat) : 10000 ≤ (retryClock k).1 := by
  induction k with
  | zero => simp [retryClock]
  | succ k ih => simp only [retryClock, rmdirMaxWait]; omega

theorem retryClock_total_ge (k : Nat) : 10000 * k ≤ (retryClock k).2 := by
  induction k with
  | zero => simp [retryClock]
  | succ k ih => have := retryClock_wait_ge k; simp only [retryClock]; omega

theorem retryClock_total_mono {j k : Nat} (h : j ≤ k) : (retryClock j).2 ≤ (retryClock k).2 := by
  induction h with
  | refl => exact le_refl _
  | step _ ih => simp only [retryClock]; omega

section Retry

variable {u : Nat → Option Errno} {fs fs' : Fs} {p : Path}

/-- `rmdir_retry` ends with `0` and what `rmdir` leaves, or with an error and the
filesystem unchanged. -/
theorem rmdirRetryLoop_cases (fuel j wait total : Nat) :
    (∃ fs', rmdirRetryLoop u fs p fuel j wait total = (0, fs') ∧ fs.rmdir p = .ok fs') ∨
      ∃ r, r ≠ 0 ∧ rmdirRetryLoop u fs p fuel j wait total = (r, fs) := by
  induction fuel generalizing j wait total with
  | zero => exact .inr ⟨-1, by decide, rfl⟩
  | succ fuel ih =>
    simp only [rmdirRetryLoop]
    split
    · rename_i fs' hr
      left
      refine ⟨fs', rfl, ?_⟩
      simp only [answer] at hr
      split at hr
      · cases hr
      · exact hr
    · split
      · exact ih _ _ _
      · exact .inr ⟨-1, by decide, rfl⟩
    · exact .inr ⟨-1, by decide, rfl⟩

theorem rmdirRetry_cases :
    (∃ fs', rmdirRetry u fs p = (0, fs') ∧ fs.rmdir p = .ok fs') ∨
      ∃ r, r ≠ 0 ∧ rmdirRetry u fs p = (r, fs) :=
  rmdirRetryLoop_cases _ _ _ _

/-- Transient `EBUSY` answers delay a removal the kernel allows but do not stop it. -/
theorem rmdirRetry_transient (hu : Transient u) (h : fs.rmdir p = .ok fs') :
    rmdirRetry u fs p = (0, fs') := by
  obtain ⟨m, hbusy, hm, hclock⟩ := hu
  have hm3000 : m < 3000 := by
    have := retryClock_total_ge m
    simp only [rmdirTimeout] at hclock
    omega
  -- from the `k`-th attempt on, with the clock `retryClock k`, the loop reaches attempt `m`
  have key : ∀ i, i ≤ m → ∀ fuel, i < fuel →
      rmdirRetryLoop u fs p fuel (m - i) (retryClock (m - i)).1 (retryClock (m - i)).2 = (0, fs') := by
    intro i
    induction i with
    | zero =>
      intro _ fuel hfuel
      obtain ⟨fuel, rfl⟩ : ∃ f, fuel = f + 1 := ⟨fuel - 1, by omega⟩
      simp [rmdirRetryLoop, answer, hm, h]
    | succ i ih =>
      intro hi fuel hfuel
      obtain ⟨fuel, rfl⟩ : ∃ f, fuel = f + 1 := ⟨fuel - 1, by omega⟩
      have hk : m - (i + 1) < m := by omega
      have hnext : m - (i + 1) + 1 = m - i := by omega
      have hlt : (retryClock (m - (i + 1))).2 + (retryClock (m - (i + 1))).1 < rmdirTimeout := by
        have := retryClock_total_mono (show m - (i + 1) + 1 ≤ m by omega)
        simp only [retryClock] at this
        omega
      simp only [rmdirRetryLoop, answer, hbusy _ hk, hlt, if_true]
      have := ih (by omega) fuel (by omega)
      rw [← hnext] at this
      simpa [retryClock] using this
  simpa using key m le_rfl 3001 (by omega)

end Retry

/-! ## One iteration

How an iteration of `rm_tree`'s loop can end: `iterate_cases` and `ascend_cases` list the
ways, and `iterate_found`, `iterate_none`, `ascend_root` and `ascend_up` say that each way
is taken when its calls answer as it needs. -/

section Iteration

variable {a : ScanAnswers} {i0 : Nat} {w : Walk} {e : IterEnd} {cur par pp d : Fs.OpenDir}
  {nm : List Char}

theorem iterate_found (hc : w.dirOf w.fd = some cur) (ho : a.fdopendirOk = true)
    (hs : scanDir a w.fs cur.path (a.listing (w.fs.entries cur.path)) a.stat0IsDir = .found nm d) :
    iterate a i0 w = .cont { descend w d nm with level := w.level + 1 } := by
  simp [iterate, gotoNextDir, hc, ho, hs]

theorem iterate_none (hc : w.dirOf w.fd = some cur) (ho : a.fdopendirOk = true)
    (hs : scanDir a w.fs cur.path (a.listing (w.fs.entries cur.path)) a.stat0IsDir = .none) :
    iterate a i0 w = ascend a i0 w := by
  simp [iterate, gotoNextDir, hc, ho, hs]

theorem iterate_cases (h : iterate a i0 w = e) :
    (∃ cur nm d, w.dirOf w.fd = some cur ∧
        scanDir a w.fs cur.path (a.listing (w.fs.entries cur.path)) a.stat0IsDir = .found nm d ∧
        e = .cont { descend w d nm with level := w.level + 1 }) ∨
      (∃ cur, w.dirOf w.fd = some cur ∧
        scanDir a w.fs cur.path (a.listing (w.fs.entries cur.path)) a.stat0IsDir = .none ∧
        e = ascend a i0 w) ∨
      e = .stop w (-1) := by
  subst h
  rcases hc : w.dirOf w.fd with _ | cur
  · simp [iterate, gotoNextDir, hc]
  cases ho : a.fdopendirOk
  · simp [iterate, gotoNextDir, hc, ho]
  rcases hs : scanDir a w.fs cur.path (a.listing (w.fs.entries cur.path)) a.stat0IsDir with
    _ | ⟨nm, d⟩ | _
  · exact .inr (.inl ⟨cur, rfl, hs, iterate_none hc ho hs⟩)
  · exact .inl ⟨cur, nm, d, rfl, hs, iterate_found hc ho hs⟩
  · simp [iterate, gotoNextDir, hc, ho, hs]

theorem ascend_root (hc : w.dirOf w.fd = some cur) (ho : a.fstatOk = true) (hi : i0 = cur.ino) :
    ascend a i0 w = .stop w 0 := by
  simp [ascend, hc, ho, hi]

theorem ascend_up (hc : w.dirOf w.fd = some cur) (ho : a.fstatOk = true) (hi : i0 ≠ cur.ino)
    (hp : w.dirOf w.parentfd = some par) (hd : a.dotdotOk = true)
    (hpp : w.fs.openParent par = .ok pp) (fs' : Fs)
    (hr : w.name = [] ∧ fs' = w.fs ∨ w.name ≠ [] ∧ rmdirRetry a.unlink w.fs (par.path ++ [w.name]) = (0, fs')) :
    ascend a i0 w = .cont { handUp w pp with fs := fs', name := [], level := w.level - 1 } := by
  rcases hr with ⟨hn, rfl⟩ | ⟨hn, hr⟩
  · simp [ascend, hc, ho, hi, hp, hd, hpp, hn]
  · simp [ascend, hc, ho, hi, hp, hd, hpp, hn, hr]

theorem ascend_cases (h : ascend a i0 w = e) :
    (∃ cur, w.dirOf w.fd = some cur ∧ cur.ino = i0 ∧ e = .stop w 0) ∨
      (∃ w', w'.fs = w.fs ∧ e = .stop w' (-1)) ∨
      ∃ cur par pp fs', w.dirOf w.fd = some cur ∧ cur.ino ≠ i0 ∧ w.dirOf w.parentfd = some par ∧
        w.fs.openParent par = .ok pp ∧
        (w.name = [] ∧ fs' = w.fs ∨ w.name ≠ [] ∧ w.fs.rmdir (par.path ++ [w.name]) = .ok fs') ∧
        e = .cont { handUp w pp with fs := fs', name := [], level := w.level - 1 } := by
  subst h
  rcases hc : w.dirOf w.fd with _ | cur
  · simp [ascend, hc]
  cases ho : a.fstatOk
  · simp [ascend, hc, ho]
  by_cases hi : i0 = cur.ino
  · exact .inl ⟨cur, rfl, hi.symm, ascend_root hc ho hi⟩
  rcases hp : w.dirOf w.parentfd with _ | par
  · simp [ascend, hc, ho, hi, hp]
  cases hd : a.dotdotOk
  · simp [ascend, hc, ho, hi, hp, hd]
  rcases hpp : w.fs.openParent par with _ | pp
  · simp [ascend, hc, ho, hi, hp, hd, hpp]
  by_cases hn : w.name = []
  · exact .inr (.inr ⟨cur, par, pp, w.fs, rfl, Ne.symm hi, rfl, hpp, .inl ⟨hn, rfl⟩,
      ascend_up hc ho hi hp hd hpp _ (.inl ⟨hn, rfl⟩)⟩)
  rcases @rmdirRetry_cases a.unlink w.fs (par.path ++ [w.name]) with
    ⟨fs', hr, hrm⟩ | ⟨r, hr0, hr⟩
  · exact .inr (.inr ⟨cur, par, pp, fs', rfl, Ne.symm hi, rfl, hpp, .inr ⟨hn, hrm⟩,
      ascend_up hc ho hi hp hd hpp _ (.inr ⟨hn, hr⟩)⟩)
  · right; left
    simp only [ascend, hc, ho, hi, hp, hd, hpp, hn, hr]
    split <;> simp_all

end Iteration

end VzCgroup
