import Mathlib.Tactic.LinearCombination
import Moo.Base.Csv
import Moo.Lib.Numeral

/-!
# Base.CsvNumbers

The numbers of a CSV file: how `write_csv` prints a double and what `read_csv` makes of the text.

The precision of the stream is `max_digits10`, the digits that tell all doubles apart, but with
`std::fixed` it counts the digits behind the point.

* `csvNumbers`: the format of the numbers.
* `Resolved`: a double that a decimal number with this many digits behind the point tells apart from
  the others: all from `2 ^ (-4)` on (`resolved_of_le`), and none but zero below half a unit of the
  last digit (`le_of_resolved`).
* `lossless_iff`: these are the doubles that are read back. `token_iff`: so they are the numbers
  that make a file `Writable`.
-/

namespace Moo

open Binary Numeral

def maxDigits10 : ℕ := 17

/-- `file << v`. -/
def printFixed : Double → List Char
  | .finite v => (fixed maxDigits10 v).text
  | .inf neg => if neg then "-inf".toList else "inf".toList
  | .nan => "nan".toList

def csvNumbers : NumberFormat Double where
  print := printFixed
  stod := stod binary64
  nan := .nan

/-- Some decimal number with `maxDigits10` digits behind the point is closer to `v` than to any
other double. -/
def Resolved (v : binary64.Number) : Prop :=
  ∃ k : ℤ, ∀ w : binary64.Number, w ≠ v →
    |(k : ℚ) / 10 ^ maxDigits10 - v.val| < |(k : ℚ) / 10 ^ maxDigits10 - w.val|

theorem stod_printFixed (v : binary64.Number) :
    csvNumbers.stod (csvNumbers.print (.finite v)) =
      (binary64.ofRat (fixed maxDigits10 v).value).map .finite :=
  stod_text _ _

section Digits

variable {v : binary64.Number} {m : ℤ}

/-- What is printed is in range. -/
theorem inRange_printed (hm : |v.val - m / 10 ^ maxDigits10| ≤ 1 / 2 / 10 ^ maxDigits10) :
    binary64.InRange ((m : ℚ) / 10 ^ maxDigits10) := by
  refine Format.inRange_of ?_ ?_
  · have hv := Format.abs_le_of_isValue v.2
    have hone : (1 : ℚ) ≤ 2 ^ binary64.emax := one_le_zpow₀ one_le_two (by decide)
    have htri := abs_sub_abs_le_abs_sub ((m : ℚ) / 10 ^ maxDigits10) v.val
    rw [abs_sub_comm] at htri
    have hsmall : (1 : ℚ) / 2 / 10 ^ maxDigits10 < 1 / 2 := by norm_num [maxDigits10]
    unfold Format.limit
    linarith
  · rcases eq_or_ne m 0 with rfl | hne
    · exact .inl (by simp)
    · right
      have hm : (1 : ℚ) ≤ |(m : ℚ)| := by exact_mod_cast Int.one_le_abs hne
      have hmin : (2 : ℚ) * binary64.normalMin ≤ 2 ^ (-57 : ℤ) := by
        rw [Format.normalMin, ← zpow_one_add₀ two_ne_zero]
        exact zpow_le_zpow_right₀ one_le_two (by decide)
      rw [abs_div, abs_of_pos (by positivity : (0 : ℚ) < 10 ^ maxDigits10)]
      calc (2 : ℚ) * binary64.normalMin ≤ 2 ^ (-57 : ℤ) := hmin
        _ ≤ 1 / 10 ^ maxDigits10 := by norm_num [maxDigits10]
        _ ≤ |(m : ℚ)| / 10 ^ maxDigits10 := by gcongr

/-- The doubles from `2 ^ (-4)` on are farther apart than two decimal numbers. -/
theorem closer_of_le (h : 2 ^ (-4 : ℤ) ≤ |v.val|)
    (hm : |v.val - m / 10 ^ maxDigits10| ≤ 1 / 2 / 10 ^ maxDigits10) {w : binary64.Number}
    (hw : w ≠ v) : |(m : ℚ) / 10 ^ maxDigits10 - v.val| < |(m : ℚ) / 10 ^ maxDigits10 - w.val| := by
  have hne : v.val ≠ w.val := fun heq => hw (Subtype.ext heq.symm)
  rw [abs_sub_comm]
  rcases h.lt_or_eq with h | h
  · have hgap := Format.value_gap v.2 w.2 hne h
    have hunit : (1 : ℚ) / 10 ^ maxDigits10 < 2 ^ ((-4 : ℤ) - binary64.prec + 1) := by
      norm_num [maxDigits10, binary64]
    have htri := abs_sub_le v.val (m / 10 ^ maxDigits10) w.val
    have hhalf : (1 : ℚ) / 2 / 10 ^ maxDigits10 + 1 / 2 / 10 ^ maxDigits10 =
        1 / 10 ^ maxDigits10 := by ring
    linarith
  · -- `2 ^ (-4)` itself is such a decimal number
    have hexact : v.val = m / 10 ^ maxDigits10 := by
      obtain ⟨k, hk⟩ : ∃ k : ℤ, v.val = k / 10 ^ maxDigits10 := by
        rcases abs_choice v.val with hsign | hsign
        · refine ⟨625 * 10 ^ 13, ?_⟩
          rw [← hsign, ← h]
          norm_num [maxDigits10]
        · refine ⟨-(625 * 10 ^ 13), ?_⟩
          rw [← neg_eq_iff_eq_neg.mpr hsign, ← h]
          norm_num [maxDigits10]
      have hkm : k = m := by
        by_contra hkm
        have hone := one_le_abs_sub_cast hkm
        rw [hk, ← sub_div, abs_div, abs_of_pos (by positivity : (0 : ℚ) < 10 ^ maxDigits10),
          div_le_div_iff_of_pos_right (by positivity)] at hm
        linarith
      rw [hk, hkm]
    rw [← hexact, sub_self, abs_zero]
    exact abs_pos.mpr (sub_ne_zero.mpr hne)

/-- Around a double below `2 ^ (-4)`, the multiples of `2 ^ (-57)` are doubles. -/
theorem isValue_around (h : |v.val| < 2 ^ (-4 : ℤ)) (n : ℤ)
    (hn : |(n : ℚ) * 2 ^ (-57 : ℤ) - v.val| ≤ 2 ^ (-57 : ℤ)) :
    binary64.IsValue (n * 2 ^ (-57 : ℤ)) := by
  have hpos : (0 : ℚ) < 2 ^ (-57 : ℤ) := zpow_pos two_pos _
  have htri := abs_sub_abs_le_abs_sub ((n : ℚ) * 2 ^ (-57 : ℤ)) v.val
  rw [abs_mul, abs_of_pos hpos] at htri
  have hpow : (2 : ℚ) ^ (-4 : ℤ) = 2 ^ 53 * 2 ^ (-57 : ℤ) := by norm_num
  have hbound : |(n : ℚ)| * 2 ^ (-57 : ℤ) < (2 ^ 53 + 1) * 2 ^ (-57 : ℤ) := by linarith
  have hbound := lt_of_mul_lt_mul_right hbound hpos.le
  exact Format.isValue_mul_zpow (F := binary64)
    (Int.lt_add_one_iff.mp (by exact_mod_cast hbound)) (by decide) (by decide)

/-- Below, the doubles are so close that only the decimal number next to `v` can resolve it. -/
theorem abs_sub_lt_of_resolves (h : |v.val| < 2 ^ (-4 : ℤ)) {d : ℚ}
    (hd : ∀ w : binary64.Number, w ≠ v → |d - v.val| < |d - w.val|) :
    |v.val - d| < 1 / 2 / 10 ^ maxDigits10 := by
  have hunit : (2 : ℚ) ^ (-57 : ℤ) / 2 < 1 / 2 / 10 ^ maxDigits10 := by norm_num [maxDigits10]
  rw [abs_sub_comm]
  refine (abs_sub_lt_of_grid (zpow_pos two_pos (-57)) fun n hn hne => ?_).trans hunit
  exact hd ⟨n * 2 ^ (-57 : ℤ), isValue_around h n hn⟩ fun heq => hne (congrArg Subtype.val heq)

/-- The unit of the doubles below one. -/
theorem exponent_of_lt_one {d : ℚ} (h : |d| < 1) :
    ∃ t : ℕ, binary64.exponent d = -(t + 18 : ℕ) := by
  refine ⟨(-binary64.exponent d - 18).toNat, ?_⟩
  have hlog : Int.log 2 |d| ≤ 0 := by
    rcases eq_or_ne d 0 with rfl | hne
    · simp
    · refine (Int.lt_zpow_iff_log_lt one_lt_two (abs_pos.mpr hne) |>.mp ?_).le
      simpa using h
  have he : binary64.exponent d ≤ -18 := by
    unfold Format.exponent
    simp only [binary64]
    omega
  omega

/-- No decimal number below one is halfway between two doubles. -/
theorem fract_ne_half (h : |(m : ℚ) / 10 ^ maxDigits10| < 1) :
    Int.fract ((m : ℚ) / 10 ^ maxDigits10 / binary64.ulp (m / 10 ^ maxDigits10)) ≠ 1 / 2 := by
  intro hfract
  obtain ⟨t, ht⟩ := exponent_of_lt_one h
  obtain ⟨d, hd⟩ : ∃ d : ℚ, d = m / 10 ^ maxDigits10 := ⟨_, rfl⟩
  rw [← hd] at ht hfract
  have hsum := Int.floor_add_fract (d / binary64.ulp d)
  obtain ⟨n, hn⟩ : ∃ n, n = ⌊d / binary64.ulp d⌋ := ⟨_, rfl⟩
  rw [hfract, ← hn, Format.ulp, ht, zpow_neg, div_inv_eq_mul, zpow_natCast, hd] at hsum
  -- an odd multiple of `5 ^ 17` would be even
  have hcross : (2 * n + 1) * 5 ^ 17 = m * 2 ^ (t + 2) := by
    have hcast : ((2 * n + 1) * 10 ^ 17 : ℚ) = m * 2 ^ (t + 2) * 2 ^ 17 := by
      rw [maxDigits10] at hsum
      field_simp at hsum
      linear_combination hsum
    have hpow : (10 : ℚ) ^ 17 = 5 ^ 17 * 2 ^ 17 := by norm_num
    rw [hpow, ← mul_assoc] at hcast
    exact_mod_cast mul_right_cancel₀ (by norm_num) hcast
  obtain ⟨s, hs⟩ : ∃ s, s = m * 2 ^ (t + 1) := ⟨_, rfl⟩
  have heven : m * 2 ^ (t + 2) = s * 2 := by rw [hs, pow_succ, mul_assoc]
  omega

end Digits

section Lossless

variable {v : binary64.Number}

theorem resolved_of_read (h : csvNumbers.stod (csvNumbers.print (.finite v)) = some (.finite v)) :
    Resolved v := by
  obtain ⟨m, hval, hm⟩ := value_fixed maxDigits10 v.val
  rw [stod_printFixed, hval] at h
  obtain ⟨v', hv', heq⟩ := Option.map_eq_some_iff.mp h
  obtain rfl : v' = v := Float.finite.inj heq
  refine ⟨m, fun w hw => ?_⟩
  rcases le_or_gt (2 ^ (-4 : ℤ)) |v'.val| with hlarge | hsmall
  · exact closer_of_le hlarge hm hw
  · refine Format.closer_of_ofRat hv' (fract_ne_half ?_) hw
    have htri := abs_sub_abs_le_abs_sub ((m : ℚ) / 10 ^ maxDigits10) v'.val
    rw [abs_sub_comm, sub_le_iff_le_add'] at htri
    calc |(m : ℚ) / 10 ^ maxDigits10| ≤ |v'.val| + |v'.val - m / 10 ^ maxDigits10| := htri
      _ < 2 ^ (-4 : ℤ) + 1 / 2 / 10 ^ maxDigits10 := add_lt_add_of_lt_of_le hsmall hm
      _ < 1 := by norm_num [maxDigits10]

theorem read_of_resolved (h : Resolved v) :
    csvNumbers.stod (csvNumbers.print (.finite v)) = some (.finite v) := by
  obtain ⟨k, hk⟩ := h
  obtain ⟨m, hval, hm⟩ := value_fixed maxDigits10 v.val
  rw [stod_printFixed, hval]
  refine Option.map_eq_some_iff.mpr ⟨v, Format.ofRat_of_closer (inRange_printed hm) ?_, rfl⟩
  intro w hw
  rcases le_or_gt (2 ^ (-4 : ℤ)) |v.val| with hlarge | hsmall
  · exact closer_of_le hlarge hm hw
  · -- the decimal number that resolves `v` is the printed one
    have hpow : (0 : ℚ) < 10 ^ maxDigits10 := by positivity
    have hnear := abs_sub_lt_of_resolves hsmall hk
    have hscale : ∀ n : ℤ, |v.val * 10 ^ maxDigits10 - n| =
        |v.val - n / 10 ^ maxDigits10| * 10 ^ maxDigits10 := by
      intro n
      rw [← abs_of_pos hpow, ← abs_mul, abs_of_pos hpow, sub_mul, div_mul_cancel₀ _ hpow.ne']
    have hkm : m = k := by
      by_contra hne
      have hlt := half_lt_of_ne (x := v.val * 10 ^ maxDigits10) (n := k)
        (by rwa [hscale, ← lt_div_iff₀ hpow]) hne
      rw [hscale, ← div_lt_iff₀ hpow] at hlt
      exact absurd hlt (not_lt.mpr hm)
    rw [hkm]
    exact hk w hw

theorem resolved_of_le (h : 2 ^ (-4 : ℤ) ≤ |v.val|) : Resolved v :=
  have ⟨m, _, hm⟩ := value_fixed maxDigits10 v.val
  ⟨m, fun _ => closer_of_le h hm⟩

/-- A double below half a unit of the last digit is resolved only when it is zero. -/
theorem le_of_resolved (h : Resolved v) (hv : v ≠ 0) : 1 / 2 / 10 ^ maxDigits10 ≤ |v.val| := by
  obtain ⟨k, hk⟩ := h
  have hunit : (0 : ℚ) < 10 ^ maxDigits10 := by positivity
  rcases le_or_gt (2 ^ (-4 : ℤ)) |v.val| with hlarge | hsmall
  · refine le_trans ?_ hlarge
    norm_num [maxDigits10]
  · have hk0 : k ≠ 0 := by
      rintro rfl
      have hlt := hk 0 (Ne.symm hv)
      have hzero : (0 : binary64.Number).val = 0 := rfl
      rw [hzero, Int.cast_zero, zero_div, sub_self, abs_zero] at hlt
      exact absurd hlt (not_lt.mpr (abs_nonneg _))
    have hone : (1 : ℚ) / 10 ^ maxDigits10 ≤ |(k : ℚ) / 10 ^ maxDigits10| := by
      rw [abs_div, abs_of_pos hunit]
      gcongr
      exact_mod_cast Int.one_le_abs hk0
    have hnear := abs_sub_lt_of_resolves hsmall hk
    have htri := abs_sub_abs_le_abs_sub ((k : ℚ) / 10 ^ maxDigits10) v.val
    rw [abs_sub_comm] at htri
    have hhalf : (1 : ℚ) / 10 ^ maxDigits10 =
        1 / 2 / 10 ^ maxDigits10 + 1 / 2 / 10 ^ maxDigits10 := by ring
    linarith

end Lossless

/-- `std::fixed` with `max_digits10` prints the doubles that decimal numbers with as many digits
behind the point tell apart so that they are read back, and no others. -/
theorem lossless_iff (v : binary64.Number) :
    csvNumbers.stod (csvNumbers.print (.finite v)) = some (.finite v) ↔ Resolved v :=
  ⟨resolved_of_read, read_of_resolved⟩

/-- A double that no digit reaches. -/
def tiny : binary64.Number :=
  ⟨2 ^ (-70 : ℤ), 1, -70, by decide, by decide, by decide, by simp⟩

theorem tiny_read_as_zero :
    csvNumbers.print (.finite tiny) = "0.00000000000000000".toList ∧
      csvNumbers.stod (csvNumbers.print (.finite tiny)) = some (.finite 0) ∧
      ¬ ∀ v : binary64.Number,
        csvNumbers.stod (csvNumbers.print (.finite v)) = some (.finite v) := by
  have hread : csvNumbers.stod (csvNumbers.print (.finite tiny)) = some (.finite 0) := by
    have hval : (fixed maxDigits10 tiny.val).value = 0 := by decide +kernel
    rw [stod_printFixed, hval, Format.ofRat_zero]
    rfl
  refine ⟨by decide +kernel, hread, fun hall => ?_⟩
  have heq := Float.finite.inj (Option.some.inj (hread.symm.trans (hall tiny)))
  exact (zpow_ne_zero (-70) (two_ne_zero' ℚ)) (congrArg Subtype.val heq).symm

/-! ## Files -/

/-- The numbers that stand in a file as cells that are read back. -/
theorem token_iff (v : binary64.Number) :
    NumberFormat.Token csvNumbers (.finite v) ↔ Resolved v := by
  refine ⟨fun h => resolved_of_read h.stod_print, fun h => ?_⟩
  have hother : ∀ c ∈ csvNumbers.print (.finite v), c ∉ [',', '\n', '#'] := by
    intro c hc hmem
    have hall : ∀ d ∈ [',', '\n', '#'], d.isDigit = false ∧ d ∉ ['.', 'e', 'E', '+', '-'] := by simp
    obtain ⟨hdigit, hsigns⟩ := hall c hmem
    rcases (fixed maxDigits10 v.val).mem_text hc with h | h
    · rw [h] at hdigit
      cases hdigit
    · exact hsigns h
  exact
    { stod_print := read_of_resolved h
      nonempty := (fixed maxDigits10 v.val).text_ne_nil
      comma := fun hc => hother _ hc (by decide)
      newline := fun hc => hother _ hc (by decide)
      hash := fun hc => hother _ (List.mem_of_head? hc) (by decide) }

end Moo
