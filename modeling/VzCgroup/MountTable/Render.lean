import VzCgroup.MountTable

/-!
# VzCgroup — `get_mount_path` on the mount table the kernel writes

`/proc/mounts` holds one line per mount: the device, the mount point, the type and the
options, each a word without blanks (the kernel escapes them), then the dump and pass
numbers. `MountEntry` is such a line and `renderMounts` the file, and `mountLookup` says
what the table gives a controller: the mount point of the first mount of type `cgroup`
whose options, split at commas, hold the controller's key.

On a table of well-formed lines (`MountEntry.WellFormed`: words without blanks or NULs,
each line shorter than the `PATH_MAX` buffer, and every type either `cgroup` or a word that
does not begin with `cgroup`), `fgets` gives back the lines (`fgetsLines_lines`), the
`sscanf` of a line stores its mount point and options exactly when its type is `cgroup`
(`scanMountLine_line`), and the spec's field split reads the same line
(`specMountLine_line`). So `get_mount_path` and the spec's reading of the table both give
`mountLookup` (`getMountPath_render`). The last condition is needed: a type that only
begins with `cgroup` is read as `cgroup` by the literal of the `sscanf` format.
-/

namespace VzCgroup

/-! ## §1 The table -/

/-- A line of `/proc/mounts`: the device, mount point, type and options fields, and the rest
of the line after the blank that ends the options. -/
structure MountEntry where
  dev : List Char
  target : List Char
  type : List Char
  opts : List Char
  rest : List Char
  deriving DecidableEq, Repr

/-- The line of a mount, without its newline. -/
def MountEntry.line (m : MountEntry) : List Char :=
  m.dev ++ ' ' :: (m.target ++ ' ' :: (m.type ++ ' ' :: (m.opts ++ ' ' :: m.rest)))

/-- The text of `/proc/mounts`: each line ended by a newline. -/
def renderMounts (ms : List MountEntry) : List Char :=
  ms.flatMap fun m => m.line ++ ['\n']

/-- A field of a mount line: a word with no blank and no NUL. -/
def IsField (w : List Char) : Prop :=
  w ≠ [] ∧ ∀ c ∈ w, isSpace c = false ∧ c ≠ '\x00'

instance : DecidablePred IsField := fun _ => inferInstanceAs (Decidable (_ ∧ _))

/-- A mount line `get_mount_path` reads as a whole line, with a type the `cgroup` literal
of its format tells apart. -/
def MountEntry.WellFormed (m : MountEntry) : Prop :=
  IsField m.dev ∧ IsField m.target ∧ IsField m.type ∧ IsField m.opts ∧
    (∀ c ∈ m.rest, c ≠ '\n' ∧ c ≠ '\x00') ∧ m.line.length < pathMax - 1 ∧
    (m.type = "cgroup".toList ∨ "cgroup".toList.isPrefixOf m.type = false)

instance : DecidablePred MountEntry.WellFormed := fun _ => inferInstanceAs (Decidable (_ ∧ _))

/-- What the table gives the key `key`: the mount point of the first mount of type `cgroup`
whose options, split at commas, hold `key`. -/
def mountLookup (key : List Char) (ms : List MountEntry) : Option (List Char) :=
  ms.findSome? fun m =>
    if m.type = "cgroup".toList ∧ key ∈ strsepTokens ',' m.opts then some m.target else none

/-! ## §2 One line -/

section Line

variable {m : MountEntry}

theorem MountEntry.line_length (m : MountEntry) :
    m.line.length = m.dev.length + m.target.length + m.type.length + m.opts.length + m.rest.length + 4 := by
  simp only [MountEntry.line, List.length_append, List.length_cons]
  omega

/-- A literal without the blank is a prefix of a word followed by a blank exactly when it is
a prefix of the word. -/
theorem isPrefixOf_append_blank {c : Char} : ∀ {p : List Char} (t r : List Char), c ∉ p →
    p.isPrefixOf (t ++ c :: r) = p.isPrefixOf t
  | [], _, _, _ => by simp [List.isPrefixOf]
  | x :: p, [], r, hc => by
    have : (x == c) = false := beq_false_of_ne fun h => hc (h ▸ List.mem_cons_self _ _)
    simp [List.isPrefixOf, this]
  | x :: p, y :: t, r, hc => by
    simp only [List.cons_append, List.isPrefixOf_cons₂,
      isPrefixOf_append_blank t r fun h => hc (List.mem_cons_of_mem _ h)]

/-- The words of a well-formed line hold no blank. -/
theorem IsField.blank {w : List Char} (hw : IsField w) : ∀ x ∈ w, isSpace x = false :=
  fun x hx => (hw.2 x hx).1

/-- No field of a well-formed line holds a newline or a NUL. -/
theorem IsField.not_mem {w : List Char} (hw : IsField w) {ch : Char} (hch : ch = '\n' ∨ ch = '\x00') :
    ch ∉ w := fun h => by
  rcases hch with rfl | rfl
  · simpa [isSpace] using hw.blank _ h
  · exact (hw.2 _ h).2 rfl

/-- Nor does a well-formed line: the file splits into its lines, each a whole C string. -/
theorem MountEntry.WellFormed.not_mem (hm : m.WellFormed) {ch : Char} (hch : ch = '\n' ∨ ch = '\x00') :
    ch ∉ m.line := by
  obtain ⟨hd, ht, hy, ho, hr, -⟩ := hm
  have hsp : ch ≠ ' ' := by rcases hch with rfl | rfl <;> decide
  have hrest : ch ∉ m.rest := fun h => by
    rcases hch with rfl | rfl
    exacts [(hr _ h).1 rfl, (hr _ h).2 rfl]
  simp only [MountEntry.line, List.mem_append, List.mem_cons, not_or]
  exact ⟨hd.not_mem hch, hsp, ht.not_mem hch, hsp, hy.not_mem hch, hsp, ho.not_mem hch, hsp, hrest⟩

theorem cstr_line (hm : m.WellFormed) : cstr (m.line ++ ['\n']) = m.line ++ ['\n'] :=
  List.takeWhile_eq_self_iff.mpr fun c hc => decide_eq_true fun h => by
    subst h
    rcases List.mem_append.mp hc with hc | hc
    · exact hm.not_mem (.inr rfl) hc
    · cases List.mem_singleton.mp hc

/-- **The `sscanf` of a line.** `%*s %4095s cgroup %4095s` on a well-formed line stores its
mount point and options exactly when its type is `cgroup`. -/
theorem scanMountLine_line (hm : m.WellFormed) :
    scanMountLine (m.line ++ ['\n']) =
      if m.type = "cgroup".toList then some (m.target, m.opts) else none := by
  have hcstr := cstr_line hm
  obtain ⟨hd, ht, hy, ho, -, hlen, htype⟩ := hm
  have hl := m.line_length
  have hdev : scanWord none (m.line ++ ['\n']) = some (m.dev, ' ' :: (m.target ++ ' ' ::
      (m.type ++ ' ' :: (m.opts ++ ' ' :: (m.rest ++ ['\n']))))) := by
    simpa [MountEntry.line] using
      @scanWord_word none [] m.dev _ ' ' (fun _ h => nomatch h) hd.blank hd.1 rfl (fun _ h => nomatch h)
  have htgt : scanWord (some 4095) (' ' :: (m.target ++ ' ' :: (m.type ++ ' ' ::
      (m.opts ++ ' ' :: (m.rest ++ ['\n']))))) =
        some (m.target, ' ' :: (m.type ++ ' ' :: (m.opts ++ ' ' :: (m.rest ++ ['\n'])))) :=
    @scanWord_word (some 4095) [' '] m.target _ ' ' (by simp [isSpace]) ht.blank ht.1 rfl
      (fun _ h => by cases h; simp only [pathMax] at hlen; omega)
  obtain ⟨y, ys, hy'⟩ := List.exists_cons_of_ne_nil hy.1
  have htyp : (' ' :: (m.type ++ ' ' :: (m.opts ++ ' ' :: (m.rest ++ ['\n'])))).dropWhile isSpace =
      m.type ++ ' ' :: (m.opts ++ ' ' :: (m.rest ++ ['\n'])) := by
    rw [List.dropWhile_cons_of_pos (by decide), hy', List.cons_append,
      List.dropWhile_cons_of_neg (by simp [hy.blank y (hy' ▸ List.mem_cons_self _ _)])]
  have hpre := @isPrefixOf_append_blank ' ' "cgroup".toList m.type (m.opts ++ ' ' :: (m.rest ++ ['\n']))
    (by decide)
  simp only [scanMountLine, hcstr, hdev, htgt, htyp, hpre, Option.bind_eq_bind, Option.some_bind]
  rcases htype with htype | htype
  · have hops : scanWord (some 4095) (' ' :: (m.opts ++ ' ' :: (m.rest ++ ['\n']))) =
        some (m.opts, ' ' :: (m.rest ++ ['\n'])) :=
      @scanWord_word (some 4095) [' '] m.opts _ ' ' (by simp [isSpace]) ho.blank ho.1 rfl
        (fun _ h => by cases h; simp only [pathMax] at hlen; omega)
    simp [htype, hops]
  · have hne : m.type ≠ "cgroup".toList := fun h => by simp [h] at htype
    simp only [htype, hne, Bool.false_eq_true, if_false, Option.none_bind]

/-- The spec's reading of a well-formed line: its mount point when its type is `cgroup` and
its options hold `key`. -/
theorem specMountLine_line (key : List Char) (hm : m.WellFormed) :
    specMountLine key m.line =
      if m.type = "cgroup".toList ∧ key ∈ strsepTokens ',' m.opts then some m.target else none := by
  obtain ⟨hd, ht, hy, ho, -, -, -⟩ := hm
  have hw : ∀ {w : List Char} (rest : List Char) (sp : List Char), (∀ x ∈ sp, isSpace x = true) →
      IsField w → scanWord none (sp ++ w ++ ' ' :: rest) = some (w, ' ' :: rest) :=
    fun _ _ hsp hf => scanWord_word hsp hf.blank hf.1 rfl fun _ h => nomatch h
  have hsp : ∀ x ∈ [' '], isSpace x = true := by simp [isSpace]
  have h1 := hw (m.target ++ ' ' :: (m.type ++ ' ' :: (m.opts ++ ' ' :: m.rest))) [] (fun _ h => nomatch h) hd
  have h2 := hw (m.type ++ ' ' :: (m.opts ++ ' ' :: m.rest)) [' '] hsp ht
  have h3 := hw (m.opts ++ ' ' :: m.rest) [' '] hsp hy
  have h4 := hw m.rest [' '] hsp ho
  simp only [List.nil_append, List.singleton_append, List.cons_append] at h1 h2 h3 h4
  simp only [specMountLine, MountEntry.line, h1, h2, h3, h4, Option.bind_eq_bind, Option.some_bind]

end Line

/-! ## §3 The whole table -/

section Table

variable {ms : List MountEntry}

/-- `fgets` gives back the lines of a well-formed table. -/
theorem fgetsLines_renderMounts (hms : ∀ m ∈ ms, m.WellFormed) :
    fgetsLines (pathMax - 1) (renderMounts ms).length (renderMounts ms) =
      ms.map fun m => m.line ++ ['\n'] := by
  have hr : renderMounts ms = (ms.map MountEntry.line).flatMap (· ++ ['\n']) := by
    simp [renderMounts, List.flatMap_map]
  have hlines : ∀ l ∈ ms.map MountEntry.line, '\n' ∉ l ∧ l.length < pathMax - 1 := by
    simp only [List.mem_map]
    rintro _ ⟨m, hm, rfl⟩
    exact ⟨(hms m hm).not_mem (.inl rfl), (hms m hm).2.2.2.2.2.1⟩
  rw [hr, fgetsLines_lines _ _ _ hlines le_rfl, List.map_map]
  rfl

/-- The spec's split of a well-formed table at newlines: its lines, and the empty text after
the last newline. -/
theorem strsepTokens_renderMounts (hms : ∀ m ∈ ms, m.WellFormed) :
    strsepTokens '\n' (renderMounts ms) = ms.map MountEntry.line ++ [[]] := by
  induction ms with
  | nil => rfl
  | cons m ms ih =>
    rw [renderMounts, List.flatMap_cons, List.append_assoc, List.singleton_append,
      strsepTokens_append_delim _ _ _ _ ((hms m (List.mem_cons_self _ _)).not_mem (.inl rfl))]
    simp [renderMounts] at ih
    simp [ih fun m' h => hms m' (List.mem_cons_of_mem _ h)]

/-- A mount point `mountLookup` gives is one of the table's. -/
theorem mountLookup_target {key t : List Char} (h : mountLookup key ms = some t) :
    ∃ m ∈ ms, m.target = t := by
  obtain ⟨m, hm, hf⟩ := List.exists_of_findSome?_eq_some h
  split_ifs at hf
  · exact ⟨m, hm, Option.some.inj hf⟩

/-- The `get_mount_path` loop over the lines of a well-formed table stops at the line
`mountLookup` finds, with its mount point. -/
theorem findSome?_scanMountLine (key : List Char) : ∀ {ms : List MountEntry}, (∀ m ∈ ms, m.WellFormed) →
    (ms.map fun m => m.line ++ ['\n']).findSome? (fun buf =>
      match scanMountLine buf with
      | some (target, ops) => if hasSubstr ops key then some target else none
      | none => none) = mountLookup key ms
  | [], _ => rfl
  | m :: ms, hms => by
    have ih := findSome?_scanMountLine key fun m' h => hms m' (List.mem_cons_of_mem _ h)
    simp only [mountLookup] at ih ⊢
    rw [List.map_cons, List.findSome?_cons, List.findSome?_cons, ih,
      scanMountLine_line (hms m (List.mem_cons_self _ _))]
    by_cases ht : m.type = "cgroup".toList
    · simp [ht, hasSubstr]
    · simp only [ht, if_false, false_and]

/-- The spec's search over the split of a well-formed table finds the same line. -/
theorem findSome?_specMountLine (key : List Char) : ∀ {ms : List MountEntry}, (∀ m ∈ ms, m.WellFormed) →
    (ms.map MountEntry.line ++ [[]]).findSome? (specMountLine key) = mountLookup key ms
  | [], _ => rfl
  | m :: ms, hms => by
    have ih := findSome?_specMountLine key fun m' h => hms m' (List.mem_cons_of_mem _ h)
    simp only [mountLookup] at ih ⊢
    rw [List.map_cons, List.cons_append, List.findSome?_cons, List.findSome?_cons, ih,
      specMountLine_line key (hms m (List.mem_cons_self _ _))]

/-- **`get_mount_path` on a well-formed table.** For every controller, `get_mount_path`
returns `0` and the mount point `mountLookup` gives its key, or `1` when there is none; and
the spec's reading of the table gives the same mount point. -/
theorem getMountPath_render (subsys : List Char) (hms : ∀ m ∈ ms, m.WellFormed) :
    getMountPath subsys (some (renderMounts ms)) =
        (match mountLookup (mountKey subsys) ms with
          | some t => (0, some t)
          | none => (1, none)) ∧
      specMountPath subsys (renderMounts ms) = mountLookup (mountKey subsys) ms := by
  refine ⟨?_, by rw [specMountPath, strsepTokens_renderMounts hms, findSome?_specMountLine _ hms]⟩
  simp only [getMountPath]
  rw [fgetsLines_renderMounts hms]
  generalize hf : List.findSome? _ _ = r
  obtain rfl : r = mountLookup (mountKey subsys) ms := hf.symm.trans (findSome?_scanMountLine _ hms)
  rcases hl : mountLookup (mountKey subsys) ms with _ | t
  · rfl
  · obtain ⟨m, hm, rfl⟩ := mountLookup_target hl
    have hlen := (hms m hm).2.2.2.2.2.1
    have htake : m.target.length ≤ pathMax - 1 := by have := m.line_length; omega
    simp only [List.take_of_length_le htake]

/-- A host with a `tmpfs` over the hierarchies, `cpu` and `cpuacct` mounted together, and the
systemd hierarchy. -/
def sampleMounts : List MountEntry :=
  [⟨"tmpfs".toList, "/sys/fs/cgroup".toList, "tmpfs".toList, "ro,mode=755".toList, "0 0".toList⟩,
    ⟨"cgroup".toList, "/sys/fs/cgroup/cpu,cpuacct".toList, "cgroup".toList, "rw,cpu,cpuacct".toList,
      "0 0".toList⟩,
    ⟨"cgroup".toList, "/sys/fs/cgroup/systemd".toList, "cgroup".toList,
      "rw,xattr,name=systemd".toList, "0 0".toList⟩]

theorem getMountPath_render_sample :
    (∀ m ∈ sampleMounts, m.WellFormed) ∧
      (getMountPath "cpuacct".toList (some (renderMounts sampleMounts)) =
          (match mountLookup (mountKey "cpuacct".toList) sampleMounts with
            | some t => (0, some t)
            | none => (1, none)) ∧
        specMountPath "cpuacct".toList (renderMounts sampleMounts) =
          mountLookup (mountKey "cpuacct".toList) sampleMounts) :=
  have hms : ∀ m ∈ sampleMounts, m.WellFormed := by decide
  ⟨hms, getMountPath_render _ hms⟩

end Table

end VzCgroup
