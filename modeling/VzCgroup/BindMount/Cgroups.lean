import VzCgroup.BindMount.Setup
import VzCgroup.MountTable.Render

/-!
# VzCgroup — the controller list `get_cgroups` reads from `/proc/cgroups`

`/proc/cgroups` is a `#` header line, then one line per controller the kernel knows: its
name, a tab, and its hierarchy, count and enabled fields. `get_cgroups` reads it with
`fgets` into a `STR_SIZE` buffer, takes the first word of each buffer with `sscanf("%s")`,
and keeps it unless it begins with `#`. The controller loop of `cg_bindmount_cgroup` takes
a shared controller up when this list names it.

On a file whose lines fit the buffer and whose controller names are words that do not begin
with `#`, with every `add_str_param` getting its memory, `get_cgroups` returns `0` and the
names in the file's order (`getCgroups_render`). The bricks:

* **`fgetsLines_lines`** — `fgets` gives back the file's lines, each with its newline;
* **`getCgroupsLoop_header`** — the header's first word begins with `#`: it is passed over;
* **`getCgroupsLoop_rows`** — each controller's line is a whole C string whose first word is
  its name, appended to the list.
-/

namespace VzCgroup

/-! ## §1 The file -/

/-- A controller's line of `/proc/cgroups`: its name, and what follows the tab after it. -/
structure CgroupsRow where
  name : List Char
  fields : List Char
  deriving DecidableEq, Repr

/-- The line of a controller, without its newline. -/
def CgroupsRow.line (r : CgroupsRow) : List Char :=
  r.name ++ '\t' :: r.fields

/-- The text of `/proc/cgroups`: the header line `#<header>`, then each controller's line. -/
def renderCgroups (header : List Char) (rows : List CgroupsRow) : List Char :=
  '#' :: header ++ '\n' :: rows.flatMap fun r => r.line ++ ['\n']

/-- A controller's line `get_cgroups` reads whole, with a name that is a word and not a
comment. -/
def CgroupsRow.WellFormed (strSize : Nat) (r : CgroupsRow) : Prop :=
  IsField r.name ∧ r.name.head? ≠ some '#' ∧ (∀ c ∈ r.fields, c ≠ '\n' ∧ c ≠ '\x00') ∧
    r.line.length < strSize - 1

instance (strSize : Nat) : DecidablePred (CgroupsRow.WellFormed strSize) :=
  fun _ => inferInstanceAs (Decidable (_ ∧ _))

/-! ## §2 The loop -/

section Loop

variable {a : BindAnswers}

/-- The header line is passed over: its first word begins with `#`. -/
theorem getCgroupsLoop_header (header : List Char) (bufs acc : List (List Char)) :
    getCgroupsLoop a (('#' :: header ++ ['\n']) :: bufs) acc = getCgroupsLoop a bufs acc := by
  have hcstr : cstr ('#' :: header ++ ['\n']) = '#' :: cstr (header ++ ['\n']) :=
    List.takeWhile_cons_of_pos (by decide)
  rw [getCgroupsLoop, hcstr]
  simp [scanWord, isSpace]

/-- With every `add_str_param` getting its memory, the loop over the lines of well-formed rows
appends their names. -/
theorem getCgroupsLoop_rows (ha : a.Clean) {strSize : Nat} :
    ∀ (rows : List CgroupsRow) (acc : List (List Char)), (∀ r ∈ rows, r.WellFormed strSize) →
      getCgroupsLoop a (rows.map fun r => r.line ++ ['\n']) acc = (0, acc ++ rows.map CgroupsRow.name)
  | [], acc, _ => by simp [getCgroupsLoop]
  | r :: rows, acc, hrows => by
    obtain ⟨hname, hhash, hfields, -⟩ := hrows r (List.mem_cons_self _ _)
    have hcstr : cstr (r.line ++ ['\n']) = r.line ++ ['\n'] := by
      refine List.takeWhile_eq_self_iff.mpr fun c hc => decide_eq_true ?_
      simp only [CgroupsRow.line, List.mem_append, List.mem_cons, List.not_mem_nil, or_false] at hc
      rcases hc with (hc | rfl | hc) | rfl
      · exact (hname.2 c hc).2
      · decide
      · exact (hfields c hc).2
      · decide
    have hscan : scanWord none (r.line ++ ['\n']) = some (r.name, '\t' :: (r.fields ++ ['\n'])) := by
      simpa [CgroupsRow.line] using
        @scanWord_word none [] r.name (r.fields ++ ['\n']) '\t' (fun _ h => nomatch h) hname.blank
          hname.1 rfl (fun _ h => nomatch h)
    rw [List.map_cons, getCgroupsLoop, hcstr, hscan]
    simp only [hhash, if_false, ha.cgroupsAlloc, if_true]
    rw [getCgroupsLoop_rows ha rows _ fun r' h => hrows r' (List.mem_cons_of_mem _ h)]
    simp

end Loop

/-! ## §3 The whole file -/

/-- **`get_cgroups` on `/proc/cgroups`.** With `/proc/cgroups` opening and every
`add_str_param` getting its memory, on a file whose lines have no newline inside and fit the
`STR_SIZE` buffer, and whose controller names are words not beginning with `#`,
`get_cgroups` returns `0` and the controllers' names, in the file's order. -/
theorem getCgroups_render {a : BindAnswers} (ha : a.Clean) {strSize : Nat} {header : List Char}
    {rows : List CgroupsRow} (hheader : '\n' ∉ header) (hlen : header.length + 1 < strSize - 1)
    (hrows : ∀ r ∈ rows, r.WellFormed strSize) :
    getCgroups a strSize (renderCgroups header rows) = (0, rows.map CgroupsRow.name) := by
  have hr : renderCgroups header rows =
      (('#' :: header) :: rows.map CgroupsRow.line).flatMap (· ++ ['\n']) := by
    simp [renderCgroups, List.flatMap_map]
  have hlines : ∀ l ∈ ('#' :: header) :: rows.map CgroupsRow.line, '\n' ∉ l ∧ l.length < strSize - 1 := by
    simp only [List.mem_cons, List.mem_map]
    rintro _ (rfl | ⟨r, hmem, rfl⟩)
    · exact ⟨by simpa using hheader, by simpa using hlen⟩
    · obtain ⟨hname, -, hfields, hl⟩ := hrows r hmem
      refine ⟨?_, hl⟩
      simp only [CgroupsRow.line, List.mem_append, List.mem_cons, not_or]
      exact ⟨hname.not_mem (.inl rfl), by decide, fun h => (hfields _ h).1 rfl⟩
  rw [getCgroups, if_pos ha.cgroupsOpen, hr, fgetsLines_lines _ _ _ hlines le_rfl, List.map_cons,
    List.map_map]
  exact (getCgroupsLoop_header header _ []).trans (getCgroupsLoop_rows ha rows [] hrows)

/-- The controllers of a kernel with `cpuset`, `cpu` and `memory`. -/
def sampleCgroups : List CgroupsRow :=
  [⟨"cpuset".toList, "1\t1\t1".toList⟩, ⟨"cpu".toList, "2\t1\t1".toList⟩,
    ⟨"memory".toList, "3\t1\t1".toList⟩]

/-- Its `/proc/cgroups`, read into a 512-byte buffer. -/
theorem getCgroups_render_sample :
    ({} : BindAnswers).Clean ∧ '\n' ∉ "subsys_name\thierarchy\tnum_cgroups\tenabled".toList ∧
      "subsys_name\thierarchy\tnum_cgroups\tenabled".toList.length + 1 < 512 - 1 ∧
      (∀ r ∈ sampleCgroups, CgroupsRow.WellFormed 512 r) ∧
      getCgroups {} 512 (renderCgroups "subsys_name\thierarchy\tnum_cgroups\tenabled".toList sampleCgroups) =
        (0, sampleCgroups.map CgroupsRow.name) :=
  have hh : '\n' ∉ "subsys_name\thierarchy\tnum_cgroups\tenabled".toList := by decide
  have hl : "subsys_name\thierarchy\tnum_cgroups\tenabled".toList.length + 1 < 512 - 1 := by decide
  have hr : ∀ r ∈ sampleCgroups, CgroupsRow.WellFormed 512 r := by decide
  ⟨bindAnswers_default_clean, hh, hl, hr, getCgroups_render bindAnswers_default_clean hh hl hr⟩

end VzCgroup
