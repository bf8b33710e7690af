import VzCgroup.Ctl

/-!
# VzCgroup — reading the mount table (`get_mount_path`)

`get_mount_path` reads `/proc/mounts` with `fgets` into a `PATH_MAX` buffer and parses each
chunk with `sscanf(buf, "%*s %4095s cgroup %4095s", target, ops)`. The parse is not a
field split: `cgroup` in the format is a run of literal characters, matched against
whatever follows the target, and `fgets` hands a line longer than the buffer over in
pieces, each parsed as a line of its own. Both are modelled byte for byte here, next to
`specMountPath`, the reading of the table the spec gives (whole lines, whole fields).
-/

namespace VzCgroup

/-! ## `fgets` and `sscanf` -/

/-- One `fgets(buf, k + 1, fp)`: the bytes it stores (at most `k`, through the first
newline) and the text left unread. -/
def fgetsLine : Nat → List Char → List Char × List Char
  | 0, s => ([], s)
  | _ + 1, [] => ([], [])
  | k + 1, c :: s =>
    if c = '\n' then (['\n'], s) else ((c :: (fgetsLine k s).1), (fgetsLine k s).2)

/-- The successive buffers `while (fgets(buf, k + 1, fp))` sees; `fuel` bounds the number of
calls, and the text's length is always enough (`fgetsLine` consumes a byte or more). -/
def fgetsLines (k : Nat) : (fuel : Nat) → List Char → List (List Char)
  | 0, _ => []
  | fuel + 1, s => if s = [] then [] else (fgetsLine k s).1 :: fgetsLines k fuel (fgetsLine k s).2

/-- A line without a newline inside, shorter than the buffer: one `fgets` stores it whole,
with its newline. -/
theorem fgetsLine_line : ∀ (k : Nat) (l rest : List Char), '\n' ∉ l → l.length < k →
    fgetsLine k (l ++ '\n' :: rest) = (l ++ ['\n'], rest)
  | 0, _, _, _, h => absurd h (Nat.not_lt_zero _)
  | _ + 1, [], _, _, _ => by simp [fgetsLine]
  | k + 1, c :: l, rest, hl, hlen => by
    have hc : c ≠ '\n' := fun h => hl (h ▸ List.mem_cons_self _ _)
    have ih := fgetsLine_line k l rest (fun h => hl (List.mem_cons_of_mem _ h))
      (by rw [List.length_cons] at hlen; omega)
    simp [fgetsLine, hc, ih]

/-- `fgets` over whole lines, none holding a newline and each shorter than the buffer, gives
back each line with its newline. -/
theorem fgetsLines_lines (k : Nat) : ∀ (ls : List (List Char)) (fuel : Nat),
    (∀ l ∈ ls, '\n' ∉ l ∧ l.length < k) → (ls.flatMap (· ++ ['\n'])).length ≤ fuel →
      fgetsLines k fuel (ls.flatMap (· ++ ['\n'])) = ls.map (· ++ ['\n'])
  | [], fuel, _, _ => by cases fuel <;> simp [fgetsLines]
  | l :: ls, fuel, hl, hfuel => by
    obtain ⟨hnl, hlen⟩ := hl l (List.mem_cons_self _ _)
    rw [List.flatMap_cons, List.length_append, List.length_append, List.length_singleton] at hfuel
    obtain ⟨fuel, rfl⟩ : ∃ f, fuel = f + 1 := ⟨fuel - 1, by omega⟩
    have ih := fgetsLines_lines k ls fuel (fun l' h => hl l' (List.mem_cons_of_mem _ h)) (by omega)
    rw [List.flatMap_cons, List.append_assoc, List.singleton_append, fgetsLines, if_neg (by simp),
      fgetsLine_line _ _ _ hnl hlen]
    simp [ih]

/-- A `%s` directive (`%Ns` when `width = some N`): skip blanks, then store at most `N`
non-blank bytes, at least one; `none` is a matching or input failure. -/
def scanWord (width : Option Nat) (s : List Char) : Option (List Char × List Char) :=
  let s := s.dropWhile isSpace
  let w := s.takeWhile (fun c => !isSpace c)
  let w := match width with
    | some n => w.take n
    | none => w
  if w = [] then none else some (w, s.drop w.length)

/-- A `%s` directive on blanks, then a word within its width followed by white space, takes
the word. -/
theorem scanWord_word {width : Option Nat} {sp w rest : List Char} {c : Char}
    (hsp : ∀ x ∈ sp, isSpace x = true) (hw : ∀ x ∈ w, isSpace x = false) (hne : w ≠ [])
    (hc : isSpace c = true) (hlen : ∀ k, width = some k → w.length ≤ k) :
    scanWord width (sp ++ w ++ c :: rest) = some (w, c :: rest) := by
  obtain ⟨x, xs, rfl⟩ := List.exists_cons_of_ne_nil hne
  have hdrop : (sp ++ x :: xs ++ c :: rest).dropWhile isSpace = x :: xs ++ c :: rest := by
    rw [List.append_assoc, List.dropWhile_append_of_pos hsp, List.cons_append,
      List.dropWhile_cons_of_neg (by simp [hw x (List.mem_cons_self _ _)])]
  have htake : (x :: xs ++ c :: rest).takeWhile (fun c => !isSpace c) = x :: xs := by
    rw [List.takeWhile_append_of_pos (fun y hy => by simp [hw y hy]),
      List.takeWhile_cons_of_neg (by simp [hc]), List.append_nil]
  cases width with
  | none => simp only [scanWord, hdrop, htake, if_neg (List.cons_ne_nil _ _), List.drop_left]
  | some n =>
    simp only [scanWord, hdrop, htake, List.take_of_length_le (hlen n rfl),
      if_neg (List.cons_ne_nil _ _), List.drop_left]

/-- `sscanf(buf, "%*s %4095s cgroup %4095s", target, ops) == 2`, and the two words it
stored. The literal `cgroup` is matched byte by byte against what follows the blanks after
the target, so `cgroupX` passes it and leaves `X` to the next directive. -/
def scanMountLine (buf : List Char) : Option (List Char × List Char) := do
  let (_, s) ← scanWord none (cstr buf)
  let (target, s) ← scanWord (some 4095) s
  let s := s.dropWhile isSpace
  let s ← if "cgroup".toList.isPrefixOf s then some (s.drop 6) else none
  let (ops, _) ← scanWord (some 4095) s
  pure (target, ops)

/-- The mount option a controller is looked up by: its name, `name=systemd` for systemd. -/
def mountKey (subsys : List Char) : List Char :=
  if cgIsSystemd subsys then "name=systemd".toList else subsys

/-- `get_mount_path(subsys, out, PATH_MAX)` on the contents of `/proc/mounts` (`none`: the
file cannot be opened). Returns `0` with the target copied into `out`, `1` when no buffer
matches, `-1` when the file cannot be opened. -/
def getMountPath (subsys : List Char) (mounts : Option (List Char)) :
    Int × Option (List Char) :=
  match mounts with
  | none => (-1, none)
  | some text =>
    match (fgetsLines (pathMax - 1) text.length text).findSome? (fun buf =>
        match scanMountLine buf with
        | some (target, ops) => if hasSubstr ops (mountKey subsys) then some target else none
        | none => none) with
    | some target => (0, some (target.take (pathMax - 1)))
    | none => (1, none)

/-! ## The spec's reading of the mount table -/

/-- A line of `/proc/mounts` as the spec reads it: the mount point when the type field is
exactly `cgroup` and the option field, split at commas, holds `key` as a whole element. -/
def specMountLine (key line : List Char) : Option (List Char) := do
  let (_, s) ← scanWord none line
  let (target, s) ← scanWord none s
  let (type, s) ← scanWord none s
  let (ops, _) ← scanWord none s
  if type = "cgroup".toList ∧ key ∈ strsepTokens ',' ops then some target else none

/-- The spec's `resolve`: the mount point of the first qualifying line, if any. -/
def specMountPath (subsys text : List Char) : Option (List Char) :=
  (strsepTokens '\n' text).findSome? (specMountLine (mountKey subsys))

/-! ## A type field that only begins with `cgroup` -/

/-- A mount of type `cgroupcpu` with option `rw`: no line qualifies for `cpu`, yet
`get_mount_path` returns `0` and the line's mount point, because the literal `cgroup`
matched the front of the type field and `%4095s` then stored `cpu` as the options. -/
theorem getMountPath_cgroup_prefix_type :
    specMountPath "cpu".toList "none /mnt cgroupcpu rw 0 0\n".toList = none ∧
      getMountPath "cpu".toList (some "none /mnt cgroupcpu rw 0 0\n".toList) =
        (0, some "/mnt".toList) := by
  decide

end VzCgroup
