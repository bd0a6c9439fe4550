import Moo.Lib.Binary
import Moo.Lib.Text

/-!
# Lib.Numeral

Decimal numbers as texts, and what the library functions of C and C++ read from a text.

* `Decimal`: a decimal number with its spelling; the fields carry that it is well formed.
* `stod`: `std::stod` over any binary format. `stod_text`: from a decimal number it reads the
  nearest value, and throws where the format has none in range.
* `Integer`, `stoi`, `stoi_text`: the same for `std::stoi`.
* `fixed`: the number a stream writes in fixed notation. `value_fixed`: its value is the multiple of
  the last digit's unit next to the number.
-/

namespace Numeral

open Binary Text

/-! ## Spelling -/

inductive Sign where
  | none
  | plus
  | minus
deriving DecidableEq

namespace Sign

def text : Sign → List Char
  | .none => []
  | .plus => ['+']
  | .minus => ['-']

def neg (s : Sign) : Bool := decide (s = .minus)

end Sign

/-- `-x` behind a minus sign. -/
def signed {α : Type} [Neg α] (neg : Bool) (x : α) : α := if neg then -x else x

/-- Digits; digits behind a point; and an exponent: its mark, its sign and its digits. -/
structure Decimal where
  sign : Sign
  whole : List Char
  frac : Option (List Char)
  exponent : Option (Char × Sign × List Char)
  whole_digits : ∀ c ∈ whole, c.isDigit = true
  frac_digits : ∀ c ∈ frac.getD [], c.isDigit = true
  nonempty : whole ≠ [] ∨ frac.getD [] ≠ []
  exponent_mark : ∀ e ∈ exponent, e.1 = 'e' ∨ e.1 = 'E'
  exponent_digits : ∀ e ∈ exponent, (∀ c ∈ e.2.2, c.isDigit = true)

def Decimal.exponentText (n : Decimal) : List Char :=
  n.exponent.elim [] fun e => e.1 :: (e.2.1.text ++ e.2.2)

/-- What stands behind the sign. -/
def Decimal.body (n : Decimal) : List Char :=
  n.whole ++ n.frac.elim [] (fun frac => '.' :: frac) ++ n.exponentText

def Decimal.text (n : Decimal) : List Char := n.sign.text ++ n.body

def Decimal.exponentValue (n : Decimal) : ℤ :=
  n.exponent.elim 0 fun e => signed e.2.1.neg (Nat.ofDigitChars 10 e.2.2 0 : ℤ)

def Decimal.value (n : Decimal) : ℚ :=
  signed n.sign.neg (Nat.ofDigitChars 10 (n.whole ++ n.frac.getD []) 0 /
    10 ^ (n.frac.getD []).length * 10 ^ n.exponentValue)

/-- A sign and digits. -/
structure Integer where
  sign : Sign
  digits : List Char
  isDigit : ∀ c ∈ digits, c.isDigit = true
  nonempty : digits ≠ []

def Integer.text (n : Integer) : List Char := n.sign.text ++ n.digits

def Integer.value (n : Integer) : ℤ := signed n.sign.neg (Nat.ofDigitChars 10 n.digits 0 : ℤ)

/-! ## Reading -/

/-- The sign, and what follows it. -/
def scanSign : List Char → Bool × List Char
  | '-' :: s => (true, s)
  | '+' :: s => (false, s)
  | s => (false, s)

/-- How the digits, the exponent and its mark are read. -/
structure Radix where
  isDigit : Char → Bool
  digits : List Char → ℕ
  base : ℕ
  mark : Char
  scale : ℕ

def decimal : Radix where
  isDigit := Char.isDigit
  digits s := Nat.ofDigitChars 10 s 0
  base := 10
  mark := 'e'
  scale := 10

def hexadecimal : Radix where
  isDigit := Char.isHexDigit
  digits s := s.foldl (fun n c =>
    16 * n + if c.isDigit then c.toNat - '0'.toNat else c.toLower.toNat - 'a'.toNat + 10) 0
  base := 16
  mark := 'p'
  scale := 2

/-- The exponent; one without digits counts nothing. -/
def Radix.scanExponent (R : Radix) : List Char → ℤ
  | [] => 0
  | c :: s =>
    if c.toLower = R.mark then
      let (neg, s) := scanSign s
      signed neg (Nat.ofDigitChars 10 (s.takeWhile Char.isDigit) 0 : ℤ)
    else 0

def Radix.scan (R : Radix) (s : List Char) : Option ℚ :=
  let whole := s.takeWhile R.isDigit
  let s := s.dropWhile R.isDigit
  let point := decide (s.head? = some '.')
  let frac := if point then s.tail.takeWhile R.isDigit else []
  let s := if point then s.tail.dropWhile R.isDigit else s
  if whole = [] ∧ frac = [] then none
  else some (R.digits (whole ++ frac) / R.base ^ frac.length * R.scale ^ R.scanExponent s)

def lower (s : List Char) : List Char := s.map Char.toLower

/-- A number without sign: hexadecimal behind `0x`. -/
def magnitude (s : List Char) : Option ℚ :=
  (if lower (s.take 2) = ['0', 'x'] then hexadecimal.scan (s.drop 2) else none).or (decimal.scan s)

/-- A floating-point number. -/
inductive Float (F : Format) where
  | finite (v : F.Number)
  | inf (neg : Bool)
  | nan
deriving DecidableEq

abbrev Double : Type := Float binary64

instance : Zero Double := ⟨.finite 0⟩

/-- `std::stod`, `none` where it throws: without a number at the start of the text, or out of
range. -/
def stod (F : Format) (s : List Char) : Option (Float F) :=
  let (neg, s) := scanSign (s.dropWhile isSpace)
  if lower (s.take 3) = ['i', 'n', 'f'] then some (.inf neg)
  else if lower (s.take 3) = ['n', 'a', 'n'] then some .nan
  else (magnitude s).bind fun q => (F.ofRat (signed neg q)).map .finite

/-- `std::stoi`. -/
def stoi (s : List Char) : Option ℤ :=
  let (neg, s) := scanSign (s.dropWhile isSpace)
  let digits := s.takeWhile Char.isDigit
  if digits = [] then none
  else
    let n := signed neg (Nat.ofDigitChars 10 digits 0 : ℤ)
    if -2 ^ 31 ≤ n ∧ n < 2 ^ 31 then some n else none

/-! ## Reading what was spelled -/

section Read

theorem isDigit_lower {c : Char} (h : c.isDigit = true) : c.toLower = c := by
  have h := (Char.isDigit_iff_toNat.mp h).2
  refine dif_neg fun hupper => ?_
  have hA := UInt32.le_iff_toNat_le.mp hupper.1
  exact absurd (hA.trans h) (by decide)

theorem takeWhile_digits {p : Char → Bool} {digits r : List Char} (h : ∀ c ∈ digits, p c = true)
    (hr : ∀ c ∈ r.head?, p c = false) :
    (digits ++ r).takeWhile p = digits ∧ (digits ++ r).dropWhile p = r := by
  rw [List.takeWhile_append_of_pos h, List.dropWhile_append_of_pos h]
  cases r with
  | nil => simp
  | cons c r =>
    have hc : p c = false := hr c rfl
    simp [hc]

theorem scanSign_text (sign : Sign) {s : List Char} (h : ∀ c ∈ s.head?, c ≠ '-' ∧ c ≠ '+') :
    scanSign (sign.text ++ s) = (sign.neg, s) := by
  cases sign with
  | plus => rfl
  | minus => rfl
  | none =>
    cases s with
    | nil => rfl
    | cons c s =>
      obtain ⟨hminus, hplus⟩ := h c rfl
      simp only [Sign.text, List.nil_append]
      unfold scanSign
      split
      · rename_i heq
        exact absurd (List.cons.inj heq).1 hminus
      · rename_i heq
        exact absurd (List.cons.inj heq).1 hplus
      · rfl

theorem dropWhile_space (sign : Sign) {s : List Char} (h : ∀ c ∈ s.head?, isSpace c = false) :
    (sign.text ++ s).dropWhile isSpace = sign.text ++ s := by
  cases sign with
  | plus => rfl
  | minus => rfl
  | none =>
    cases s with
    | nil => rfl
    | cons c s => exact List.dropWhile_cons_of_neg (by simp [h c rfl])

/-- What a digit is not. -/
theorem ne_of_isDigit {c d : Char} (h : c.isDigit = true) (hd : d.isDigit = false) : c ≠ d := by
  rintro rfl
  rw [h] at hd
  cases hd

theorem isSpace_of_isDigit {c : Char} (h : c.isDigit = true) : isSpace c = false := by
  refine decide_eq_false fun hmem => ?_
  have hall : [' ', '\t', '\n', '\x0b', '\x0c', '\r'].all (fun c => !c.isDigit) = true := by decide
  have := List.all_eq_true.mp hall c hmem
  simp [h] at this

theorem stoi_text (n : Integer) : stoi n.text =
    if -2 ^ 31 ≤ n.value ∧ n.value < 2 ^ 31 then some n.value else none := by
  have hhead : ∀ c ∈ n.digits.head?, c.isDigit = true := fun c hc =>
    n.isDigit c (List.mem_of_head? hc)
  have htake : n.digits.takeWhile Char.isDigit = n.digits :=
    List.takeWhile_eq_self_iff.mpr n.isDigit
  unfold stoi Integer.text
  rw [dropWhile_space _ fun c hc => isSpace_of_isDigit (hhead c hc),
    scanSign_text _ fun c hc => ⟨ne_of_isDigit (hhead c hc) rfl,
      ne_of_isDigit (hhead c hc) rfl⟩]
  simp only [htake, if_neg n.nonempty]
  rfl

variable (n : Decimal)

theorem Decimal.head_exponentText : ∀ c ∈ n.exponentText.head?, c = 'e' ∨ c = 'E' := by
  intro c hc
  unfold exponentText at hc
  cases he : n.exponent with
  | none => simp [he] at hc
  | some e =>
    have := n.exponent_mark e he
    simp only [he, Option.elim_some, List.head?_cons, Option.mem_some_iff] at hc
    exact hc ▸ this

theorem Decimal.scanExponent_text : decimal.scanExponent n.exponentText = n.exponentValue := by
  unfold exponentText exponentValue
  cases he : n.exponent with
  | none => rfl
  | some e =>
    obtain ⟨mark, sign, digits⟩ := e
    have hdigits : ∀ c ∈ digits, c.isDigit = true := n.exponent_digits _ he
    have hmark : mark = 'e' ∨ mark = 'E' := n.exponent_mark _ he
    have hlower : mark.toLower = 'e' := by rcases hmark with rfl | rfl <;> rfl
    have hhead : ∀ c ∈ digits.head?, c ≠ '-' ∧ c ≠ '+' := fun c hc =>
      have hc := hdigits c (List.mem_of_head? hc)
      ⟨ne_of_isDigit hc rfl, ne_of_isDigit hc rfl⟩
    simp only [Option.elim_some, Radix.scanExponent, decimal, hlower, if_true,
      scanSign_text sign hhead, List.takeWhile_eq_self_iff.mpr hdigits]

/-- What stands behind the sign is digits, a point, and the signs and marks of exponents. -/
theorem Decimal.mem_body {c : Char} (hc : c ∈ n.body) :
    c.isDigit = true ∨ c ∈ ['.', 'e', 'E', '+', '-'] := by
  simp only [body, exponentText, List.mem_append] at hc
  rcases hc with (hc | hc) | hc
  · exact .inl (n.whole_digits c hc)
  · cases hf : n.frac with
    | none => simp [hf] at hc
    | some frac =>
      have hdigits := n.frac_digits
      simp only [hf, Option.elim_some, List.mem_cons, Option.getD_some] at hc hdigits
      rcases hc with rfl | hc
      · exact .inr (by simp)
      · exact .inl (hdigits c hc)
  · cases he : n.exponent with
    | none => simp [he] at hc
    | some e =>
      have hmark := n.exponent_mark e he
      simp only [he, Option.elim_some, List.mem_cons, List.mem_append] at hc
      rcases hc with rfl | hc | hc
      · rcases hmark with h | h <;> exact .inr (by simp [h])
      · refine .inr ?_
        cases hs : e.2.1 <;> simp [hs, Sign.text] at hc <;> simp [hc]
      · exact .inl (n.exponent_digits e he c hc)

theorem Decimal.mem_text {c : Char} (hc : c ∈ n.text) :
    c.isDigit = true ∨ c ∈ ['.', 'e', 'E', '+', '-'] := by
  rcases List.mem_append.mp hc with hc | hc
  · refine .inr ?_
    cases hs : n.sign <;> simp [hs, Sign.text] at hc <;> simp [hc]
  · exact n.mem_body hc

/-- So it is not spelled with any other letter. -/
theorem Decimal.notMem_lower {c : Char} (hc : c ∈ ['i', 'n', 'x']) : c ∉ lower n.body := by
  intro hmem
  obtain ⟨c', hc', rfl⟩ := List.mem_map.mp hmem
  rcases n.mem_body hc' with hdigit | hother
  · rw [isDigit_lower hdigit] at hc
    have : ∀ d ∈ ['i', 'n', 'x'], d.isDigit = false := by simp
    exact ne_of_isDigit hdigit (this _ hc) rfl
  · have : ∀ d ∈ ['.', 'e', 'E', '+', '-'], d.toLower ∉ ['i', 'n', 'x'] := by simp
    exact this c' hother hc

theorem Decimal.lower_take_ne {c : Char} {s : List Char} (k : ℕ) (hc : c ∈ ['i', 'n', 'x'])
    (hmem : c ∈ s) : lower (n.body.take k) ≠ s := by
  rintro rfl
  refine n.notMem_lower hc ?_
  rw [lower, List.map_take] at hmem
  exact List.mem_of_mem_take hmem

theorem Decimal.head_body : ∀ c ∈ n.body.head?, c.isDigit = true ∨ c = '.' := by
  intro c hc
  unfold body at hc
  cases hw : n.whole with
  | cons d whole =>
    have hd := n.whole_digits d (by simp [hw])
    simp only [hw, List.cons_append, List.head?_cons, Option.mem_some_iff] at hc
    exact .inl (hc ▸ hd)
  | nil =>
    cases hf : n.frac with
    | none => exact absurd n.nonempty (by simp [hw, hf])
    | some frac =>
      simp only [hw, hf, List.nil_append, Option.elim_some, List.cons_append, List.head?_cons,
        Option.mem_some_iff] at hc
      exact .inr hc.symm

theorem Decimal.text_ne_nil : n.text ≠ [] := by
  rcases n.nonempty with h | h
  · simp [text, body, h]
  · cases hf : n.frac with
    | none => simp [hf] at h
    | some frac => simp [text, body, hf]

theorem Decimal.scan_body : decimal.scan n.body =
    some ((Nat.ofDigitChars 10 (n.whole ++ n.frac.getD []) 0 : ℚ) / 10 ^ (n.frac.getD []).length *
      10 ^ n.exponentValue) := by
  have hexp : ∀ c ∈ n.exponentText.head?, c.isDigit = false := fun c hc => by
    rcases n.head_exponentText c hc with h | h <;> exact h ▸ rfl
  have hpoint : n.exponentText.head? ≠ some '.' := fun h => by
    rcases n.head_exponentText '.' h with h | h <;> cases h
  have hnonempty := n.nonempty
  rw [← n.scanExponent_text]
  unfold body Radix.scan
  cases hf : n.frac with
  | none =>
    obtain ⟨htake, hdrop⟩ := takeWhile_digits n.whole_digits hexp
    rw [hf] at hnonempty
    simp only [decimal, Option.elim_none, List.append_nil, htake, hdrop, hpoint, decide_false,
      Bool.false_eq_true, if_false, and_true, Option.getD_none] at hnonempty ⊢
    rw [if_neg (by simpa using hnonempty)]
    rfl
  | some frac =>
    have hdigits := n.frac_digits
    simp only [hf, Option.getD_some] at hdigits hnonempty
    obtain ⟨htake, hdrop⟩ := takeWhile_digits (r := '.' :: (frac ++ n.exponentText))
      n.whole_digits (by simp)
    obtain ⟨htake', hdrop'⟩ := takeWhile_digits hdigits hexp
    simp only [decimal, Option.elim_some, List.append_assoc, List.cons_append, htake, hdrop,
      List.head?_cons, decide_true, if_true, List.tail_cons, htake', hdrop', Option.getD_some]
    rw [if_neg (by tauto)]
    rfl

theorem stod_text (F : Format) : stod F n.text = (F.ofRat n.value).map .finite := by
  have hspace : ∀ c ∈ n.body.head?, isSpace c = false := fun c hc => by
    rcases n.head_body c hc with h | rfl
    · exact isSpace_of_isDigit h
    · rfl
  have hsign : ∀ c ∈ n.body.head?, c ≠ '-' ∧ c ≠ '+' := fun c hc => by
    rcases n.head_body c hc with h | rfl
    · exact ⟨ne_of_isDigit h rfl, ne_of_isDigit h rfl⟩
    · decide
  have hmagnitude : magnitude n.body = decimal.scan n.body := by
    have hx : lower (n.body.take 2) ≠ ['0', 'x'] :=
      n.lower_take_ne 2 (c := 'x') (by simp) (by simp)
    rw [magnitude, if_neg hx, Option.none_or]
  unfold stod Decimal.text
  rw [dropWhile_space _ hspace, scanSign_text _ hsign]
  have hinf : lower (n.body.take 3) ≠ ['i', 'n', 'f'] :=
    n.lower_take_ne 3 (c := 'i') (by simp) (by simp)
  have hnan : lower (n.body.take 3) ≠ ['n', 'a', 'n'] :=
    n.lower_take_ne 3 (c := 'n') (by simp) (by simp)
  simp only [if_neg hinf, if_neg hnan, hmagnitude, n.scan_body, Option.bind_some]
  rfl

example : decimal.scan "12.50e-1x".toList = some (5 / 4) := by decide +kernel

example : magnitude "0x1.8p3".toList = some 12 := by decide +kernel

end Read

/-! ## Fixed notation -/

section Fixed

/-- The digits of `k`, filled up with zeros to `n` of them. -/
def padded (n k : ℕ) : List Char :=
  List.replicate (n - (Nat.toDigits 10 k).length) '0' ++ Nat.toDigits 10 k

variable {n k : ℕ}

theorem isDigit_toDigits : ∀ c ∈ Nat.toDigits 10 k, c.isDigit = true := fun _ =>
  Nat.isDigit_of_mem_toDigits (by omega) (by omega)

theorem isDigit_padded : ∀ c ∈ padded n k, c.isDigit = true := by
  intro c hc
  rcases List.mem_append.mp hc with hc | hc
  · rw [List.eq_of_mem_replicate hc]
    rfl
  · exact isDigit_toDigits c hc

@[simp] theorem ofDigitChars_padded : Nat.ofDigitChars 10 (padded n k) 0 = k := by
  rw [padded, Nat.ofDigitChars_append, Nat.ofDigitChars_replicate_zero, mul_zero,
    Nat.ofDigitChars_ten_toDigits]

theorem length_padded (hn : 0 < n) (hk : k < 10 ^ n) : (padded n k).length = n := by
  have := (Nat.length_toDigits_le_iff (by omega) hn).mpr hk
  simp [padded, this]

/-- `x` in units of the last of `prec` digits behind the point, rounded. -/
def fixedUnits (prec : ℕ) (x : ℚ) : ℕ := (roundEven (|x| * 10 ^ prec)).toNat

/-- `std::fixed` with a precision. -/
def fixed (prec : ℕ) (x : ℚ) : Decimal where
  sign := if x < 0 then .minus else .none
  whole := Nat.toDigits 10 (fixedUnits prec x / 10 ^ prec)
  frac := if prec = 0 then none else some (padded prec (fixedUnits prec x % 10 ^ prec))
  exponent := none
  whole_digits := isDigit_toDigits
  frac_digits := by
    split
    · simp
    · exact isDigit_padded
  nonempty := .inl Nat.toDigits_ne_nil
  exponent_mark := by simp
  exponent_digits := by simp

variable (prec : ℕ) (x : ℚ)

theorem value_fixed_eq :
    (fixed prec x).value = signed (decide (x < 0)) (fixedUnits prec x / 10 ^ prec : ℚ) := by
  have hsign : (fixed prec x).sign.neg = decide (x < 0) := by
    by_cases h : x < 0 <;> simp [fixed, Sign.neg, h]
  have hexp : (fixed prec x).exponentValue = 0 := rfl
  rw [Decimal.value, hsign, hexp, zpow_zero, mul_one]
  congr 1
  rcases Nat.eq_zero_or_pos prec with rfl | hprec
  · simp [fixed]
  · have hlt := Nat.mod_lt (fixedUnits prec x) (pow_pos (Nat.succ_pos 9) prec)
    simp only [fixed, if_neg hprec.ne', Option.getD_some, length_padded hprec hlt]
    rw [Nat.ofDigitChars_append, Nat.ofDigitChars_ten_toDigits,
      Nat.ofDigitChars_eq_ofDigitChars_zero, ofDigitChars_padded, length_padded hprec hlt,
      Nat.div_add_mod]

/-- The multiple of the last digit's unit next to `x`. -/
theorem value_fixed : ∃ m : ℤ, (fixed prec x).value = m / 10 ^ prec ∧
    |x - m / 10 ^ prec| ≤ 1 / 2 / 10 ^ prec := by
  have hpow : (0 : ℚ) < 10 ^ prec := by positivity
  have hunits : (fixedUnits prec x : ℚ) = roundEven (|x| * 10 ^ prec) := by
    have hfloor : 0 ≤ ⌊|x| * 10 ^ prec⌋ := Int.floor_nonneg.mpr (by positivity)
    have hnonneg : 0 ≤ roundEven (|x| * 10 ^ prec) := by
      unfold roundEven
      split <;> omega
    rw [fixedUnits]
    exact_mod_cast congrArg (Int.cast (R := ℚ)) (Int.toNat_of_nonneg hnonneg)
  have herr := roundEven_error (|x| * 10 ^ prec)
  rw [← hunits] at herr
  have herr : |(|x| - fixedUnits prec x / 10 ^ prec)| ≤ 1 / 2 / 10 ^ prec := by
    rw [le_div_iff₀ hpow, ← abs_of_pos hpow, ← abs_mul, abs_of_pos hpow, sub_mul,
      div_mul_cancel₀ _ hpow.ne']
    exact herr
  refine ⟨signed (decide (x < 0)) (fixedUnits prec x : ℤ), ?_, ?_⟩
  · rw [value_fixed_eq]
    by_cases h : x < 0 <;> simp [signed, h, neg_div]
  · by_cases h : x < 0
    · rw [abs_of_neg h, ← abs_neg] at herr
      simpa [signed, h, neg_div, add_comm, sub_eq_add_neg] using herr
    · rw [abs_of_nonneg (not_lt.mp h)] at herr
      simpa [signed, h] using herr

example : (fixed 3 (-1 / 16)).text = "-0.062".toList := by decide +kernel

end Fixed

end Numeral
