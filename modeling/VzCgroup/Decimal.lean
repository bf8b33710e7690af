import VzCgroup.Basic

/-!
# VzCgroup — decimal text (`%lu`, `%llu`, `strtoull`)

The typed parameter helpers write an unsigned value as the text `snprintf` makes of it with
`%lu` or `%llu`, which is Lean's own `Nat.toDigits 10`, and read one back with
`strtoull(data, &tail, 10)`. `strtoull` in the C locale skips `isspace` characters, takes
one optional sign, then the longest run of digits; with no digit it answers `0` with `tail`
at the start of the string, beyond `ULLONG_MAX` it answers `ULLONG_MAX` and sets `ERANGE`,
and a `-` negates the value modulo `2^64`.

The round trip rests on one lemma about `Nat.toDigitsCore`: the digits it puts in front of
any text denote the number it was given.
-/

namespace VzCgroup

/-- The value of a decimal digit character. -/
def digitVal (d : Char) : Nat :=
  d.toNat - '0'.toNat

/-- The number a run of digits denotes, accumulated most significant digit first, as
`strtoull` does. -/
def decValue (ds : List Char) : Nat :=
  ds.foldl (fun acc d => 10 * acc + digitVal d) 0

/-- The optional sign `strtoull` takes after the blanks: whether it is `-`, and the rest. -/
def takeSign : List Char → Bool × List Char
  | '-' :: r => (true, r)
  | '+' :: r => (false, r)
  | t => (false, t)

/-- `strtoull(s, &tail, 10)` on the C string `s`: the value, the text at `tail`, and whether
`errno` was set to `ERANGE`. -/
def strtoull (s : List Char) : UInt64 × List Char × Bool :=
  let (neg, t) := takeSign (s.dropWhile isSpace)
  let ds := t.takeWhile Char.isDigit
  if ds = [] then (0, s, false)
  else if 2 ^ 64 ≤ decValue ds then (UInt64.ofNat (2 ^ 64 - 1), t.dropWhile Char.isDigit, true)
  else
    let v := UInt64.ofNat (decValue ds)
    (if neg then 0 - v else v, t.dropWhile Char.isDigit, false)

/-- The text `snprintf(data, size, "%lu", v)` (or `"%llu"`) leaves in its buffer. -/
def formatDecimal (size v : Nat) : List Char :=
  snprintfStr size (Nat.toDigits 10 v)

/-! ## The digits of a number -/

theorem digitChar_isDigit {d : Nat} (h : d < 10) : (Nat.digitChar d).isDigit = true := by
  have key : ∀ d : Fin 10, (Nat.digitChar d).isDigit = true := by decide
  exact key ⟨d, h⟩

theorem digitVal_digitChar {d : Nat} (h : d < 10) : digitVal (Nat.digitChar d) = d := by
  have key : ∀ d : Fin 10, digitVal (Nat.digitChar d) = d := by decide
  exact key ⟨d, h⟩

theorem decValue_append_digit (ds : List Char) (d : Char) :
    decValue (ds ++ [d]) = 10 * decValue ds + digitVal d := by
  simp [decValue, List.foldl_append]

/-- `Nat.toDigitsCore` with enough fuel puts in front of `ds` a non-empty run of digits
denoting `n`. -/
theorem toDigitsCore_digits :
    ∀ (fuel n : Nat) (ds : List Char), n < fuel → ∃ pre, Nat.toDigitsCore 10 fuel n ds = pre ++ ds ∧
      pre ≠ [] ∧ (∀ c ∈ pre, c.isDigit = true) ∧ decValue pre = n
  | 0, _, _, h => absurd h (Nat.not_lt_zero _)
  | fuel + 1, n, ds, h => by
    have hd := digitChar_isDigit (Nat.mod_lt n (by decide : 10 > 0))
    have hv := digitVal_digitChar (Nat.mod_lt n (by decide : 10 > 0))
    simp only [Nat.toDigitsCore]
    split
    · refine ⟨[Nat.digitChar (n % 10)], rfl, by simp, by simpa using hd, ?_⟩
      simpa [decValue, hv] using (by omega : n % 10 = n)
    · obtain ⟨pre, hpre, -, hdig, hval⟩ :=
        toDigitsCore_digits fuel (n / 10) (Nat.digitChar (n % 10) :: ds) (by omega)
      refine ⟨pre ++ [Nat.digitChar (n % 10)], by simp [hpre], by simp, ?_, ?_⟩
      · simpa [or_imp, forall_and] using ⟨hdig, hd⟩
      · rw [decValue_append_digit, hval, hv]
        omega

/-- The `%llu` text of a value below `2^64`: at most twenty digits. -/
theorem toDigits_length_le {v : Nat} (h : v < 2 ^ 64) : (Nat.toDigits 10 v).length ≤ 20 :=
  Nat.toDigitsCore_length 10 (by decide) (v + 1) v 20 (lt_trans h (by decide)) (by decide)

/-! ## Reading digits back -/

/-- `strtoull` of a run of digits whose value fits: that value, with `tail` at the end and
no `ERANGE`. -/
theorem strtoull_of_digits {ds : List Char} (hne : ds ≠ []) (hd : ∀ c ∈ ds, c.isDigit = true)
    (hlt : decValue ds < 2 ^ 64) : strtoull ds = (UInt64.ofNat (decValue ds), [], false) := by
  obtain ⟨c, cs, rfl⟩ := List.exists_cons_of_ne_nil hne
  have hc := hd c (List.mem_cons_self _ _)
  have hsp : isSpace c = false := by
    by_contra hs
    simp only [isSpace, Bool.not_eq_false, Bool.or_eq_true, decide_eq_true_eq] at hs
    rcases hs with ((((rfl | rfl) | rfl) | rfl) | rfl) | rfl <;> revert hc <;> decide
  have hsign : takeSign (c :: cs) = (false, c :: cs) := by
    unfold takeSign
    split
    · rename_i heq; cases heq; exact absurd hc (by decide)
    · rename_i heq; cases heq; exact absurd hc (by decide)
    · rfl
  simpa [strtoull, hsp, hsign, List.takeWhile_eq_self_iff.mpr hd, List.dropWhile_eq_nil_iff.mpr hd]
    using hlt

/-- The `%llu` text of `v`, read back by `strtoull`, is `v`. -/
theorem strtoull_toDigits (v : UInt64) : strtoull (Nat.toDigits 10 v.toNat) = (v, [], false) := by
  obtain ⟨pre, hpre, hne, hd, hval⟩ := toDigitsCore_digits (v.toNat + 1) v.toNat [] (by omega)
  rw [Nat.toDigits, hpre, List.append_nil, strtoull_of_digits hne hd (hval ▸ v.toNat_lt_size), hval]
  exact congrArg (·, [], false) (UInt64.eq_of_toBitVec_eq (by simp [UInt64.ofNat, UInt64.toNat]))

end VzCgroup
