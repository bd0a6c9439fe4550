import Mathlib.Data.Int.Log
import Mathlib.Data.Rat.Floor
import Mathlib.Tactic.Linarith
import Mathlib.Tactic.Ring

/-!
# Lib.Binary

Binary floating-point formats: which rational numbers are values, and rounding to the nearest one.

* `roundTo`: rounding to a grid, to the even multiple between two. `roundTo_le`: no multiple is
  nearer; `roundTo_lt`: any other is farther, unless the number is halfway.
* `Format`, `Format.IsValue`, `Format.nearest`: a format with subnormal numbers, and the rounding
  to it. `nearest_le`, `nearest_lt`: the same two facts about all values of the format.
* `Format.ofRat`: the nearest value, where rounding neither overflows nor underflows.

A zero has no sign.
-/

namespace Binary

/-! ## Grids -/

section Grid

/-- The nearest whole number, the even one of two. -/
def roundEven (x : ℚ) : ℤ :=
  if Int.fract x < 1 / 2 ∨ (Int.fract x = 1 / 2 ∧ ⌊x⌋ % 2 = 0) then ⌊x⌋ else ⌊x⌋ + 1

/-- The nearest multiple of `u`. -/
def roundTo (u x : ℚ) : ℚ := roundEven (x / u) * u

variable (x : ℚ)

theorem roundEven_error : |x - roundEven x| ≤ 1 / 2 := by
  have hx := Int.floor_add_fract x
  have h0 := Int.fract_nonneg x
  have h1 := (Int.fract_lt_one x).le
  unfold roundEven
  split
  · rename_i h
    rw [abs_le]
    rcases h with h | h <;> constructor <;> linarith
  · rename_i h
    have hle : 1 / 2 ≤ Int.fract x := not_lt.mp fun hlt => h (.inl hlt)
    push_cast
    rw [abs_le]
    constructor <;> linarith

theorem abs_roundEven_le : |(roundEven x : ℚ)| ≤ |x| + 1 / 2 := by
  have h := abs_sub_abs_le_abs_sub (roundEven x : ℚ) x
  rw [abs_sub_comm] at h
  linarith [roundEven_error x]

variable {x}

theorem roundEven_error_lt (h : Int.fract x ≠ 1 / 2) : |x - roundEven x| < 1 / 2 := by
  have hx := Int.floor_add_fract x
  have h0 := Int.fract_nonneg x
  have h1 := Int.fract_lt_one x
  unfold roundEven
  rcases lt_or_gt_of_ne h with h | h
  · rw [if_pos (.inl h), abs_lt]
    constructor <;> linarith
  · rw [if_neg (by rintro (h' | h') <;> linarith), abs_lt]
    push_cast
    constructor <;> linarith

/-- Two whole numbers are at least one apart. -/
theorem one_le_abs_sub_cast {m n : ℤ} (h : m ≠ n) : (1 : ℚ) ≤ |(m : ℚ) - n| := by
  have h := Int.one_le_abs (sub_ne_zero.mpr h)
  exact_mod_cast h

theorem half_lt_of_ne {m n : ℤ} (hn : |x - n| < 1 / 2) (h : m ≠ n) : 1 / 2 < |x - m| := by
  have hmn := one_le_abs_sub_cast h
  have htri := abs_sub_le (m : ℚ) x n
  rw [abs_sub_comm (m : ℚ) x] at htri
  linarith

theorem half_le_of_ne {m n : ℤ} (hn : |x - n| ≤ 1 / 2) (h : m ≠ n) : 1 / 2 ≤ |x - m| := by
  have hmn := one_le_abs_sub_cast h
  have htri := abs_sub_le (m : ℚ) x n
  rw [abs_sub_comm (m : ℚ) x] at htri
  linarith

/-- A number nearer to `v` than to neighbours on both sides is within half their distance. -/
theorem abs_sub_lt_of_between {a b d v u : ℚ} (ha : a < v) (hau : v - a ≤ u) (hb : v < b)
    (hbu : b - v ≤ u) (hda : |d - v| < |d - a|) (hdb : |d - v| < |d - b|) : |d - v| < u / 2 := by
  rcases le_total d v with h | h
  · rw [abs_of_nonpos (sub_nonpos.mpr h)] at hda ⊢
    rcases abs_cases (d - a) with ⟨habs, -⟩ | ⟨habs, -⟩ <;> linarith
  · rw [abs_of_nonneg (sub_nonneg.mpr h)] at hdb ⊢
    rcases abs_cases (d - b) with ⟨habs, -⟩ | ⟨habs, -⟩ <;> linarith

variable {u : ℚ} (hu : 0 < u)
include hu

/-- Distances on the grid, in units. -/
theorem abs_sub_mul (y : ℚ) : |x - y * u| = |x / u - y| * u := by
  rw [← abs_of_pos hu, ← abs_mul, abs_of_pos hu, sub_mul, div_mul_cancel₀ x hu.ne']

theorem roundTo_error : |x - roundTo u x| ≤ u / 2 := by
  rw [roundTo, abs_sub_mul hu]
  have h := mul_le_mul_of_nonneg_right (roundEven_error (x / u)) hu.le
  linarith

theorem roundTo_le (n : ℤ) : |x - roundTo u x| ≤ |x - n * u| := by
  rw [roundTo, abs_sub_mul hu, abs_sub_mul hu]
  refine mul_le_mul_of_nonneg_right ?_ hu.le
  rcases eq_or_ne n (roundEven (x / u)) with rfl | hne
  · rfl
  · exact (roundEven_error _).trans (half_le_of_ne (roundEven_error _) hne)

/-- Away from the middle between two multiples, any other multiple is farther. -/
theorem roundTo_lt (h : Int.fract (x / u) ≠ 1 / 2) {n : ℤ} (hn : n * u ≠ roundTo u x) :
    |x - roundTo u x| < |x - n * u| := by
  rw [roundTo, abs_sub_mul hu, abs_sub_mul hu]
  refine mul_lt_mul_of_pos_right ?_ hu
  have hne : n ≠ roundEven (x / u) := fun heq => hn (by rw [heq, roundTo])
  exact (roundEven_error_lt h).trans (half_lt_of_ne (roundEven_error_lt h) hne)

/-- A number nearer to `v` than to the multiples of `u` around `v` is within half of `u`. -/
theorem abs_sub_lt_of_grid {v d : ℚ}
    (h : ∀ n : ℤ, |(n : ℚ) * u - v| ≤ u → (n : ℚ) * u ≠ v → |d - v| < |d - n * u|) :
    |d - v| < u / 2 := by
  have hfloor := Int.floor_le (v / u)
  have hfloor' := Int.lt_floor_add_one (v / u)
  have hceil := Int.le_ceil (v / u)
  have hceil' := Int.ceil_lt_add_one (v / u)
  rw [le_div_iff₀ hu] at hfloor
  rw [div_lt_iff₀ hu] at hfloor'
  rw [div_le_iff₀ hu] at hceil
  rw [← sub_lt_iff_lt_add, lt_div_iff₀ hu] at hceil'
  have hbelow := h (⌈v / u⌉ - 1) (by
    push_cast
    rw [abs_le]
    constructor <;> linarith) (by
    push_cast
    exact hceil'.ne)
  have habove := h (⌊v / u⌋ + 1) (by
    push_cast
    rw [abs_le]
    constructor <;> linarith) (by
    push_cast
    exact hfloor'.ne')
  push_cast at hbelow habove
  exact abs_sub_lt_of_between hceil' (by linarith) hfloor' (by linarith) hbelow habove

end Grid

/-! ## Formats -/

/-- Whole mantissas of `prec` digits, with the exponents `emin` to `emax`. -/
structure Format where
  prec : ℕ
  emin : ℤ
  emax : ℤ
  prec_pos : 0 < prec
  emin_le : emin ≤ emax

/-- Double precision. -/
def binary64 : Format where
  prec := 53
  emin := -1074
  emax := 971
  prec_pos := by decide
  emin_le := by decide

namespace Format

variable (F : Format)

def IsValue (x : ℚ) : Prop :=
  ∃ m e : ℤ, |m| < 2 ^ F.prec ∧ F.emin ≤ e ∧ e ≤ F.emax ∧ x = m * 2 ^ e

/-- The values of the format. -/
abbrev Number : Type := { x : ℚ // F.IsValue x }

/-- The exponent of the values around `x`. -/
def exponent (x : ℚ) : ℤ := max F.emin (Int.log 2 |x| - (F.prec - 1))

def ulp (x : ℚ) : ℚ := 2 ^ F.exponent x

/-- The nearest value, were there no largest one. -/
def nearest (x : ℚ) : ℚ := roundTo (F.ulp x) x

/-- From here on, rounding overflows. -/
def limit : ℚ := (2 ^ F.prec - 1 / 2) * 2 ^ F.emax

/-- The smallest value with a full mantissa. -/
def normalMin : ℚ := 2 ^ (F.emin + F.prec - 1)

/-- A result that is not exact, and below `normalMin` after rounding to `prec` digits. -/
def Underflow (x : ℚ) : Prop :=
  |roundTo (2 ^ (Int.log 2 |x| - (F.prec - 1))) x| < F.normalMin ∧ F.nearest x ≠ x

def InRange (x : ℚ) : Prop := |x| < F.limit ∧ ¬ F.Underflow x

instance (x : ℚ) : Decidable (F.InRange x) :=
  inferInstanceAs (Decidable (_ ∧ ¬ (_ ∧ _)))

theorem isValue_zero : F.IsValue 0 :=
  ⟨0, F.emin, by simp, le_rfl, F.emin_le, by simp⟩

instance : Zero F.Number := ⟨⟨0, F.isValue_zero⟩⟩

variable {F} {x w : ℚ}

theorem ulp_pos (x : ℚ) : 0 < F.ulp x := zpow_pos two_pos _

@[simp] theorem nearest_zero : F.nearest 0 = 0 := by
  simp [nearest, roundTo, roundEven]

theorem lt_ulp (x : ℚ) : |x| < 2 ^ F.prec * F.ulp x := by
  have hle : Int.log 2 |x| + 1 ≤ (F.prec : ℤ) + F.exponent x := by
    have := le_max_right F.emin (Int.log 2 |x| - (F.prec - 1))
    unfold exponent
    omega
  calc |x| < (2 : ℚ) ^ (Int.log 2 |x| + 1) := by
        exact_mod_cast Int.lt_zpow_succ_log_self one_lt_two |x|
    _ ≤ 2 ^ ((F.prec : ℤ) + F.exponent x) := zpow_le_zpow_right₀ one_le_two hle
    _ = 2 ^ F.prec * F.ulp x := by rw [zpow_add₀ two_ne_zero, zpow_natCast, ulp]

/-- Between a small number and a large one, one of `p` and `-p` is nearer to the large one. -/
theorem exists_sign_closer {p : ℚ} (hw : |w| < p) (hx : p ≤ |x|) :
    ∃ s : ℤ, |x - s * p| < |x - w| := by
  have htri := abs_sub_abs_le_abs_sub x w
  rcases le_total 0 x with h0 | h0
  · refine ⟨1, ?_⟩
    rw [abs_of_nonneg h0] at hx htri
    rw [Int.cast_one, one_mul, abs_of_nonneg (sub_nonneg.mpr hx)]
    linarith
  · refine ⟨-1, ?_⟩
    rw [abs_of_nonpos h0] at hx htri
    rw [Int.cast_neg, Int.cast_one, neg_one_mul, abs_of_nonpos (by linarith)]
    linarith

/-- A mantissa times the unit of its exponent. -/
theorem abs_mul_zpow_lt {m : ℤ} (hm : |m| < 2 ^ F.prec) (e : ℤ) :
    |(m : ℚ) * 2 ^ e| < 2 ^ ((F.prec : ℤ) + e) := by
  have hm : |(m : ℚ)| < 2 ^ F.prec := by exact_mod_cast hm
  calc |(m : ℚ) * 2 ^ e| = |(m : ℚ)| * 2 ^ e := by
        rw [abs_mul, abs_of_pos (zpow_pos (two_pos (α := ℚ)) e)]
    _ < 2 ^ F.prec * 2 ^ e := mul_lt_mul_of_pos_right hm (zpow_pos two_pos e)
    _ = 2 ^ ((F.prec : ℤ) + e) := by rw [zpow_add₀ two_ne_zero, zpow_natCast]

/-- A value is a multiple of the unit at `x`, or a multiple of the unit is nearer to `x`. -/
theorem value_grid (hw : F.IsValue w) (x : ℚ) :
    (∃ n : ℤ, w = n * F.ulp x) ∨ ∃ n : ℤ, |x - n * F.ulp x| < |x - w| := by
  obtain ⟨m, f, hm, hmin, -, rfl⟩ := hw
  rcases le_or_gt (F.exponent x) f with hf | hf
  · refine .inl ⟨m * 2 ^ (f - F.exponent x).toNat, ?_⟩
    push_cast
    rw [mul_assoc, ulp, ← zpow_natCast, Int.toNat_of_nonneg (by omega), ← zpow_add₀ two_ne_zero]
    congr 2
    omega
  · rcases eq_or_ne x 0 with rfl | hx
    · -- around zero every value is on the grid, or farther than zero
      rcases eq_or_ne m 0 with rfl | hm0
      · exact .inl ⟨0, by simp⟩
      · refine .inr ⟨0, ?_⟩
        have : (m : ℚ) ≠ 0 := by exact_mod_cast hm0
        simpa using mul_pos (abs_pos.mpr this) (abs_pos.mpr (zpow_ne_zero f (two_ne_zero' ℚ)))
    · -- the power of two below `x` lies between the value and `x`
      have he : F.exponent x = Int.log 2 |x| - (F.prec - 1) := by
        unfold exponent at hf ⊢
        omega
      have hpow : (2 : ℚ) ^ (F.prec - 1) * F.ulp x = 2 ^ Int.log 2 |x| := by
        have hprec := F.prec_pos
        rw [ulp, he, ← zpow_natCast, ← zpow_add₀ two_ne_zero]
        congr 1
        omega
      have hlow : (2 : ℚ) ^ Int.log 2 |x| ≤ |x| := by
        exact_mod_cast Int.zpow_log_le_self one_lt_two (abs_pos.mpr hx)
      have hsmall : |(m : ℚ) * 2 ^ f| < 2 ^ Int.log 2 |x| :=
        (abs_mul_zpow_lt hm f).trans_le (zpow_le_zpow_right₀ one_le_two (by omega))
      obtain ⟨s, hs⟩ := exists_sign_closer hsmall hlow
      refine .inr ⟨s * 2 ^ (F.prec - 1), ?_⟩
      push_cast
      rwa [mul_assoc, hpow]

theorem nearest_le (hw : F.IsValue w) (x : ℚ) : |x - F.nearest x| ≤ |x - w| := by
  rcases value_grid hw x with ⟨n, rfl⟩ | ⟨n, hn⟩
  · exact roundTo_le (ulp_pos x) n
  · exact (roundTo_le (ulp_pos x) n).trans hn.le

theorem nearest_lt (hw : F.IsValue w) (h : Int.fract (x / F.ulp x) ≠ 1 / 2)
    (hne : w ≠ F.nearest x) : |x - F.nearest x| < |x - w| := by
  rcases value_grid hw x with ⟨n, rfl⟩ | ⟨n, hn⟩
  · exact roundTo_lt (ulp_pos x) h hne
  · exact (roundTo_le (ulp_pos x) n).trans_lt hn

/-! ## Values -/

theorem exponent_le (hx : x ≠ 0) (h : |x| < F.limit) : F.exponent x ≤ F.emax := by
  have hpow : |x| < (2 : ℚ) ^ ((F.prec : ℤ) + F.emax) := by
    refine h.trans ?_
    rw [limit, zpow_add₀ two_ne_zero, zpow_natCast]
    exact mul_lt_mul_of_pos_right (by linarith) (zpow_pos two_pos _)
  have hlog := (Int.lt_zpow_iff_log_lt one_lt_two (abs_pos.mpr hx)).mp (by exact_mod_cast hpow)
  have hmin := F.emin_le
  unfold exponent
  omega

/-- A mantissa that has grown by a digit: half of it, one exponent higher. -/
theorem isValue_mul_zpow {n e : ℤ} (hn : |n| ≤ 2 ^ F.prec) (hmin : F.emin ≤ e) (hmax : e < F.emax) :
    F.IsValue (n * 2 ^ e) := by
  rcases hn.lt_or_eq with hn | hn
  · exact ⟨n, e, hn, hmin, hmax.le, rfl⟩
  obtain ⟨p, hp⟩ : ∃ p, F.prec = p + 1 := ⟨F.prec - 1, by have := F.prec_pos; omega⟩
  have hhalf : ∀ s : ℤ, n = s * 2 ^ F.prec → |s| = 1 → F.IsValue (n * 2 ^ e) := by
    intro s hs hone
    refine ⟨s * 2 ^ p, e + 1, ?_, by omega, by omega, ?_⟩
    · rw [abs_mul, hone, one_mul, abs_of_pos (pow_pos two_pos _), hp]
      exact pow_lt_pow_right₀ one_lt_two (Nat.lt_succ_self p)
    · rw [hs, hp, zpow_add_one₀ two_ne_zero, pow_succ]
      push_cast
      ring
  rcases abs_choice n with hsign | hsign
  · exact hhalf 1 (by rw [one_mul, ← hn, hsign]) rfl
  · exact hhalf (-1) (by rw [neg_one_mul, ← hn, hsign, neg_neg]) rfl

theorem abs_le_of_isValue (hw : F.IsValue w) : |w| ≤ (2 ^ F.prec - 1) * 2 ^ F.emax := by
  obtain ⟨m, e, hm, -, he, rfl⟩ := hw
  have hm : |(m : ℚ)| ≤ 2 ^ F.prec - 1 := by
    exact_mod_cast Int.le_sub_one_of_lt hm
  rw [abs_mul, abs_of_pos (zpow_pos (two_pos (α := ℚ)) e)]
  exact mul_le_mul hm (zpow_le_zpow_right₀ one_le_two he) (zpow_nonneg two_pos.le _)
    ((abs_nonneg _).trans hm)

/-- From `2 ^ j` on, the values are multiples of this unit. -/
theorem value_multiple {j : ℤ} (hw : F.IsValue w) (h : 2 ^ j ≤ |w|) :
    ∃ n : ℤ, w = n * 2 ^ (j - F.prec + 1) := by
  obtain ⟨m, e, hm, -, -, rfl⟩ := hw
  have he := (zpow_lt_zpow_iff_right₀ one_lt_two).mp (h.trans_lt (abs_mul_zpow_lt hm e))
  refine ⟨m * 2 ^ (e - (j - F.prec + 1)).toNat, ?_⟩
  push_cast
  rw [mul_assoc, ← zpow_natCast, Int.toNat_of_nonneg (by omega), ← zpow_add₀ two_ne_zero]
  congr 2
  omega

theorem le_abs_sub_mul {u : ℚ} (hu : 0 < u) {m n : ℤ} (h : (m : ℚ) * u ≠ n * u) :
    u ≤ |m * u - n * u| := by
  have hmn : m ≠ n := fun heq => h (by rw [heq])
  have hone := one_le_abs_sub_cast hmn
  rw [← sub_mul, abs_mul, abs_of_pos hu]
  exact le_mul_of_one_le_left hu.le hone

/-- Any two values, one of them beyond `2 ^ j`, are this far apart. -/
theorem value_gap {j : ℤ} {v : ℚ} (hv : F.IsValue v) (hw : F.IsValue w) (hne : v ≠ w)
    (h : 2 ^ j < |v|) : 2 ^ (j - F.prec + 1) ≤ |v - w| := by
  have hu : (0 : ℚ) < 2 ^ (j - F.prec + 1) := zpow_pos two_pos _
  obtain ⟨m, hm⟩ := value_multiple hv h.le
  rcases le_or_gt (2 ^ j) |w| with hlarge | hsmall
  · obtain ⟨n, hn⟩ := value_multiple hw hlarge
    rw [hm, hn] at hne ⊢
    exact le_abs_sub_mul hu hne
  · -- `2 ^ j` is a multiple too, and lies between the values
    have hprec := F.prec_pos
    have hpow : (2 : ℚ) ^ j = (2 ^ (F.prec - 1) : ℤ) * 2 ^ (j - F.prec + 1) := by
      push_cast
      rw [← zpow_natCast, ← zpow_add₀ two_ne_zero]
      congr 1
      omega
    have habs : |v| = (|m| : ℤ) * 2 ^ (j - F.prec + 1) := by
      rw [hm, abs_mul, abs_of_pos hu, Int.cast_abs]
    have hstep : (2 : ℚ) ^ (j - F.prec + 1) ≤ |v| - 2 ^ j := by
      rw [habs, hpow] at h ⊢
      exact (le_abs_sub_mul hu h.ne').trans_eq (abs_of_pos (sub_pos.mpr h))
    linarith [abs_sub_abs_le_abs_sub v w]

theorem abs_div_ulp (x : ℚ) : |x / F.ulp x| = |x| / F.ulp x := by
  rw [abs_div, abs_of_pos (ulp_pos x)]

/-- The mantissa after rounding. -/
theorem mantissa_le (x : ℚ) : |roundEven (x / F.ulp x)| ≤ 2 ^ F.prec := by
  have hle := abs_roundEven_le (x / F.ulp x)
  have hlt : |x / F.ulp x| < 2 ^ F.prec := by
    rw [abs_div_ulp, div_lt_iff₀ (ulp_pos x)]
    exact lt_ulp x
  have : (|roundEven (x / F.ulp x)| : ℚ) < 2 ^ F.prec + 1 := by linarith
  exact Int.lt_add_one_iff.mp (by exact_mod_cast this)

/-- Below the limit it does not grow by a digit at the last exponent. -/
theorem mantissa_lt (h : |x| < F.limit) (he : F.exponent x = F.emax) :
    |roundEven (x / F.ulp x)| < 2 ^ F.prec := by
  have hle := abs_roundEven_le (x / F.ulp x)
  have hlt : |x / F.ulp x| < 2 ^ F.prec - 1 / 2 := by
    rw [abs_div_ulp, div_lt_iff₀ (ulp_pos x), ulp, he]
    exact h
  have : (|roundEven (x / F.ulp x)| : ℚ) < 2 ^ F.prec := by linarith
  exact_mod_cast this

theorem isValue_nearest (h : |x| < F.limit) : F.IsValue (F.nearest x) := by
  rcases eq_or_ne x 0 with rfl | hx
  · rw [nearest_zero]
    exact F.isValue_zero
  have he := exponent_le hx h
  have hmin : F.emin ≤ F.exponent x := le_max_left ..
  rw [nearest, roundTo, ulp]
  rcases he.lt_or_eq with hlt | heq
  · exact isValue_mul_zpow (mantissa_le x) hmin hlt
  · exact ⟨_, _, mantissa_lt h heq, hmin, he, rfl⟩

/-- The nearest value, in the range of the format. -/
def ofRat (F : Format) (x : ℚ) : Option F.Number :=
  if h : F.InRange x then some ⟨F.nearest x, isValue_nearest h.1⟩ else none

theorem abs_le_two_mul_roundTo (hx : x ≠ 0) :
    |x| ≤ 2 * |roundTo (2 ^ (Int.log 2 |x| - (F.prec - 1))) x| := by
  have hprec := F.prec_pos
  have herr := roundTo_error (x := x) (zpow_pos (two_pos (α := ℚ)) (Int.log 2 |x| - (F.prec - 1)))
  have hle : (2 : ℚ) ^ (Int.log 2 |x| - (F.prec - 1)) ≤ |x| := by
    calc (2 : ℚ) ^ (Int.log 2 |x| - (F.prec - 1)) ≤ 2 ^ Int.log 2 |x| :=
          zpow_le_zpow_right₀ one_le_two (by omega)
      _ ≤ |x| := by exact_mod_cast Int.zpow_log_le_self one_lt_two (abs_pos.mpr hx)
  have htri := abs_sub_abs_le_abs_sub x (roundTo (2 ^ (Int.log 2 |x| - (F.prec - 1))) x)
  linarith

theorem inRange_of (h : |x| < F.limit) (hx : x = 0 ∨ 2 * F.normalMin ≤ |x|) : F.InRange x := by
  refine ⟨h, fun hunder => ?_⟩
  rcases hx with rfl | hx
  · exact hunder.2 nearest_zero
  · have hpos : 0 < F.normalMin := zpow_pos two_pos _
    have hne : x ≠ 0 := abs_pos.mp (by linarith)
    have := abs_le_two_mul_roundTo (F := F) hne
    linarith [hunder.1]

variable {v : F.Number}

/-- A value that is nearer than any other is the result of rounding. -/
theorem ofRat_of_closer (hx : F.InRange x)
    (h : ∀ w : F.Number, w ≠ v → |x - v.val| < |x - w.val|) : F.ofRat x = some v := by
  rw [ofRat, dif_pos hx]
  by_contra hne
  have hlt := h ⟨F.nearest x, isValue_nearest hx.1⟩ fun heq => hne (congrArg some heq)
  exact absurd hlt (not_lt.mpr (nearest_le v.2 x))

@[simp] theorem ofRat_zero : F.ofRat 0 = some 0 := by
  have hlimit : (0 : ℚ) < F.limit := by
    have : (1 : ℚ) ≤ 2 ^ F.prec := one_le_pow₀ one_le_two
    exact mul_pos (by linarith) (zpow_pos two_pos _)
  rw [ofRat, dif_pos (inRange_of (by rwa [abs_zero]) (.inl rfl))]
  exact congrArg some (Subtype.ext nearest_zero)

theorem eq_nearest_of_ofRat (h : F.ofRat x = some v) : v.val = F.nearest x := by
  unfold ofRat at h
  split at h
  · exact congrArg Subtype.val (Option.some.inj h).symm
  · cases h

theorem closer_of_ofRat (h : F.ofRat x = some v) (hx : Int.fract (x / F.ulp x) ≠ 1 / 2)
    {w : F.Number} (hw : w ≠ v) : |x - v.val| < |x - w.val| := by
  have hv := eq_nearest_of_ofRat h
  rw [hv]
  exact nearest_lt w.2 hx fun heq => hw (Subtype.ext (heq.trans hv.symm))

end Format

end Binary
