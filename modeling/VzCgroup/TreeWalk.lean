import VzCgroup.Fs

/-!
# VzCgroup — the tree removal walk (`rm_tree`, `goto_next_dir`, `rmdir_retry`)

`rm_tree` removes a directory subtree without recursion. It holds two directory
descriptors, `fd` (the current directory) and `parentfd`, and a name: the name of `fd`'s
directory in `parentfd`'s, or empty after an ascent. Each iteration of its loop either
descends into the first subdirectory `goto_next_dir` finds, or, when there is none,
ascends: it opens `..` of the parent, hands the descriptors up and, if the name is set,
removes the directory it just left with `rmdir_retry`. The walk ends when the current
directory has the root's `st_ino`; the root itself is then removed best-effort.

Every system call of the walk may fail. The answers of the calls are an argument of the
model: `ScanAnswers` for one iteration of the loop, `RmAnswers` for a whole call; its
defaults are the calls succeeding. A failing `fstatat` leaves `st` as it was, which is
what `goto_next_dir` then reads: its value from an earlier entry of the scan, or the
uninitialised `st` at the scan's start (`stat0IsDir`). Descriptors are numbered in the
order they are opened and every `open` and `close` is logged, so that descriptor
discipline is a property of the log.

The loop runs on fuel: `none` is a walk that had not ended when the fuel ran out.
-/

namespace VzCgroup

/-- What happens to a descriptor. -/
inductive FdEvent where
  | opened (h : Nat)
  | closed (h : Nat)
  deriving DecidableEq, Repr

/-- The answers of the system calls of one iteration of `rm_tree`'s loop: a call whose
answer is `none` (or `true`) does what the kernel does on the filesystem. `rank` orders the
scan's `readdir`, `readdirCut` stops it early with an error, `unlink j` answers the `j`-th
attempt of `rmdir_retry`. -/
structure ScanAnswers where
  fdopendirOk : Bool := true
  rank : List Char → Nat := fun _ => 0
  readdirCut : Option Nat := none
  stat0IsDir : Bool := false
  fstatat : List Char → Option Errno := fun _ => none
  openat : List Char → Option Errno := fun _ => none
  fstatOk : Bool := true
  dotdotOk : Bool := true
  unlink : Nat → Option Errno := fun _ => none

/-- The answers of the system calls of one `rm_tree`: the `open` and `fstat` of the root,
those of the `k`-th iteration of the loop, and the final `rmdir`. -/
structure RmAnswers where
  openRoot : Option Errno := none
  fstatRoot : Bool := true
  iter : Nat → ScanAnswers := fun _ => {}
  rmdirRoot : Bool := true

/-- A system call's result: the injected failure, or what the kernel does. -/
def answer {α : Type} (inj : Option Errno) (real : Except Errno α) : Except Errno α :=
  match inj with
  | some e => .error e
  | none => real

/-- The names one scan of `goto_next_dir` sees, in the order of this iteration's
`readdir`, cut short where `readdir` fails. `.` and `..` are left out: the scan skips them. -/
def ScanAnswers.listing (a : ScanAnswers) (names : List (List Char)) : List (List Char) :=
  let l := names.insertionSort fun x y => a.rank x ≤ a.rank y
  match a.readdirCut with
  | some k => l.take k
  | none => l

/-- The state of `rm_tree`: the filesystem, the open descriptors with the directories
they are open on, the next descriptor number, the log, and the locals `fd`, `parentfd`
(`none` is `-1`), `name` and `level`. -/
structure Walk where
  fs : Fs
  fds : List (Nat × Fs.OpenDir)
  next : Nat
  log : List FdEvent
  fd : Option Nat
  parentfd : Option Nat
  name : List Char
  level : Int

namespace Walk

/-- The directory a descriptor variable is open on. -/
def dirOf (w : Walk) (h : Option Nat) : Option Fs.OpenDir :=
  h.bind fun h => (w.fds.find? (·.1 = h)).map (·.2)

/-- A new descriptor on `d`, numbered `w.next`. -/
def openFd (w : Walk) (d : Fs.OpenDir) : Walk :=
  { w with fds := (w.next, d) :: w.fds, next := w.next + 1, log := w.log ++ [.opened w.next] }

/-- `close(h)`. -/
def closeFd (w : Walk) (h : Nat) : Walk :=
  { w with fds := w.fds.filter (·.1 ≠ h), log := w.log ++ [.closed h] }

/-- `close(h)` when `h != -1`. -/
def closeOpt (w : Walk) : Option Nat → Walk
  | some h => w.closeFd h
  | none => w

end Walk

/-- What the scan makes of one entry. -/
inductive EntryStep where
  | next (st : Bool)
  | found (d : Fs.OpenDir)
  | fail

/-- `fstatat(fd, nm, &st, AT_SYMLINK_NOFOLLOW)` in the directory `cur`: `S_ISDIR` of the
entry, or the error. -/
def fstatatAt (a : ScanAnswers) (fs : Fs) (cur : Path) (nm : List Char) : Except Errno Bool :=
  answer (a.fstatat nm) <| match fs.get (cur ++ [nm]) with
    | some n => .ok n.isDir
    | none => .error .enoent

/-- `openat(fd, nm, O_DIRECTORY)` in the directory `cur`. -/
def openatAt (a : ScanAnswers) (fs : Fs) (cur : Path) (nm : List Char) : Except Errno Fs.OpenDir :=
  answer (a.openat nm) (fs.openDir (cur ++ [nm]))

/-- The body of `goto_next_dir`'s loop for one entry: a failing `fstatat` other than
`ENOENT` skips the entry; otherwise `S_ISDIR(st.st_mode)` decides, `st` being stale after
`ENOENT`. A directory is opened; `ENOENT` from `openat` skips it, any other error ends the
scan with `-1`. -/
def entryStep (a : ScanAnswers) (fs : Fs) (cur : Path) (nm : List Char) (st : Bool) :
    EntryStep :=
  let seen := match fstatatAt a fs cur nm with
    | .ok b => some b
    | .error .enoent => some st
    | .error _ => none
  match seen with
  | none => .next st
  | some false => .next false
  | some true =>
    match openatAt a fs cur nm with
    | .ok d => .found d
    | .error .enoent => .next true
    | .error _ => .fail

/-- What a scan of `goto_next_dir` ends with. -/
inductive ScanResult where
  | none
  | found (nm : List Char) (d : Fs.OpenDir)
  | fail

/-- `goto_next_dir`'s `readdir` loop over the names `l` of the directory `cur`, with `st`
as the previous entry left it. -/
def scanDir (a : ScanAnswers) (fs : Fs) (cur : Path) : List (List Char) → Bool → ScanResult
  | [], _ => .none
  | nm :: l, st =>
    match entryStep a fs cur nm st with
    | .next st => scanDir a fs cur l st
    | .found d => .found nm d
    | .fail => .fail

/-- The descent of `goto_next_dir`: `parentfd` is closed and takes `fd`, the new
descriptor (already open) becomes `fd`, and the name is recorded. -/
def descend (w : Walk) (d : Fs.OpenDir) (nm : List Char) : Walk :=
  let w' := (w.openFd d).closeOpt w.parentfd
  { w' with parentfd := w.fd, fd := some w.next, name := nm }

/-- `goto_next_dir(&parentfd, &fd, name, size)`: `0` after a descent, `1` when the scan
finds no directory, `-1` on an error. -/
def gotoNextDir (a : ScanAnswers) (w : Walk) : Int × Walk :=
  match w.dirOf w.fd with
  | none => (-1, w)
  | some cur =>
    if !a.fdopendirOk then (-1, w)
    else
      match scanDir a w.fs cur.path (a.listing (w.fs.entries cur.path)) a.stat0IsDir with
      | .none => (1, w)
      | .found nm d => (0, descend w d nm)
      | .fail => (-1, w)

/-- `rmdir_retry`'s time budget and its longest sleep, in microseconds. -/
def rmdirTimeout : Nat := 30 * 1000000
def rmdirMaxWait : Nat := 500000

/-- `rmdir_retry(fd, name)` on the path `p`: `unlinkat` until it succeeds or fails with
anything but `EBUSY`, sleeping `wait` after each `EBUSY` (doubled each time, at most
`maxwait`) while the total stays under the timeout. `j` numbers the attempts. Every sleep is
at least 10 ms, so 3001 attempts (`rmdirRetry`) outlast the 30 s budget and the fuel is
never what ends the loop. -/
def rmdirRetryLoop (u : Nat → Option Errno) (fs : Fs) (p : Path) :
    (fuel j wait total : Nat) → Int × Fs
  | 0, _, _, _ => (-1, fs)
  | fuel + 1, j, wait, total =>
    match answer (u j) (fs.rmdir p) with
    | .ok fs' => (0, fs')
    | .error .ebusy =>
      if total + wait < rmdirTimeout then
        rmdirRetryLoop u fs p fuel (j + 1) (min (2 * wait) rmdirMaxWait) (total + wait)
      else (-1, fs)
    | .error _ => (-1, fs)

/-- `rmdir_retry(fd, name)`, from `wait = 10000`, `total = 0`. -/
def rmdirRetry (u : Nat → Option Errno) (fs : Fs) (p : Path) : Int × Fs :=
  rmdirRetryLoop u fs p 3001 0 10000 0

/-- How one iteration of `rm_tree`'s loop ends: `cont` goes on to the loop test
`level >= 0`, `stop` leaves the loop with `ret`. -/
inductive IterEnd where
  | cont (w : Walk)
  | stop (w : Walk) (ret : Int)

/-- The hand-over of the ascent: `fd` is closed, `parentfd` becomes `fd`, and the new
descriptor `pp` on `..` becomes `parentfd`. -/
def handUp (w : Walk) (pp : Fs.OpenDir) : Walk :=
  { (w.openFd pp).closeOpt w.fd with fd := w.parentfd, parentfd := some w.next }

/-- The ascent, after `goto_next_dir` found no directory: `fstat(fd)`, the root test on
`st_ino`, `openat(parentfd, "..")`, the hand-over of the descriptors and the removal of the
directory left behind when `name` is set. -/
def ascend (a : ScanAnswers) (rootIno : Nat) (w : Walk) : IterEnd :=
  match w.dirOf w.fd with
  | none => .stop w (-1)
  | some cur =>
    if !a.fstatOk then .stop w (-1)
    else if rootIno = cur.ino then .stop w 0
    else
      match w.dirOf w.parentfd with
      | none => .stop w (-1)
      | some par =>
        match (if a.dotdotOk then w.fs.openParent par else .error .other) with
        | .error _ => .stop w (-1)
        | .ok pp =>
          let w' := handUp w pp
          if w.name ≠ [] then
            match rmdirRetry a.unlink w'.fs (par.path ++ [w.name]) with
            | (0, fs) => .cont { w' with fs := fs, name := [], level := w.level - 1 }
            | (_, fs) => .stop { w' with fs := fs } (-1)
          else .cont { w' with name := [], level := w.level - 1 }

/-- One iteration of `rm_tree`'s `do ... while (level >= 0)` loop. -/
def iterate (a : ScanAnswers) (rootIno : Nat) (w : Walk) : IterEnd :=
  match gotoNextDir a w with
  | (0, w) => .cont { w with level := w.level + 1 }
  | (1, w) => ascend a rootIno w
  | (_, w) => .stop w (-1)

/-- `rm_tree`'s loop, iteration `k` on, for at most `fuel` iterations. -/
def rmTreeLoop (ans : Nat → ScanAnswers) (rootIno : Nat) :
    (fuel : Nat) → (k : Nat) → Walk → Option (Walk × Int)
  | 0, _, _ => none
  | fuel + 1, k, w =>
    match iterate (ans k) rootIno w with
    | .stop w r => some (w, r)
    | .cont w => if 0 ≤ w.level then rmTreeLoop ans rootIno fuel (k + 1) w else some (w, 0)

/-- The state right after the root is opened as descriptor `0`. -/
def Walk.start (fs : Fs) (root : Fs.OpenDir) : Walk :=
  { (({ fs, fds := [], next := 0, log := [], fd := none, parentfd := none, name := [],
        level := 0 } : Walk).openFd root) with fd := some 0 }

/-- `rm_tree(path)`: the result, the filesystem afterwards and the descriptor log; `none`
when the loop had not ended after `fuel` iterations. -/
def rmTree (fuel : Nat) (ans : RmAnswers) (fs : Fs) (path : List Char) :
    Option (Int × Fs × List FdEvent) :=
  let p := components path
  match answer ans.openRoot (fs.openDir p) with
  | .error .enoent => some (0, fs, [])
  | .error _ => some (-1, fs, [])
  | .ok root =>
    if !ans.fstatRoot then some (-1, fs, [.opened 0, .closed 0])
    else
      match rmTreeLoop ans.iter root.ino fuel 0 (Walk.start fs root) with
      | none => none
      | some (w, ret) =>
        let w := (w.closeOpt w.fd).closeOpt w.parentfd
        let fs' := if ans.rmdirRoot then
            match w.fs.rmdir p with
            | .ok fs' => fs'
            | .error _ => w.fs
          else w.fs
        some (ret, fs', w.log)

end VzCgroup
