import Mathlib.Algebra.Order.Field.Basic
import Mathlib.Data.List.GetD

/-!
# Lib.PiecewiseLinear

The piecewise linear function through samples, constant outside of them.

`piecewiseLinear_eq` finds its value by the first sample that is not before the argument, which is
what a binary search over sorted samples returns. `piecewiseLinear_segment` is the value on any
segment that contains the argument.
-/

namespace PiecewiseLinear

variable {K : Type*} [Field K] [LinearOrder K]

/-- Through `v0` at `t0`, `v1` at `t1` and so on. -/
def piecewiseLinear : List K → List K → K → K
  | t0 :: t1 :: ts, v0 :: v1 :: vs, t =>
    if t ≤ t0 then v0
    else if t ≤ t1 then v0 + (t - t0) * (v1 - v0) / (t1 - t0)
    else piecewiseLinear (t1 :: ts) (v1 :: vs) t
  | _, v0 :: _, _ => v0
  | _, [], _ => 0

/-- The first sample time that is not before `t`. -/
def firstNotBefore (ts : List K) (t : K) : Nat := ts.findIdx fun s => decide (¬ s < t)

omit [Field K] in
theorem firstNotBefore_cons (t0 : K) (ts : List K) (t : K) :
    firstNotBefore (t0 :: ts) t = if t ≤ t0 then 0 else firstNotBefore ts t + 1 := by
  rw [firstNotBefore, List.findIdx_cons]
  by_cases h : t ≤ t0
  · simp [h]
  · simp [h, firstNotBefore]

/-- Up to the first sample, behind the last, and between two neighbours. -/
theorem piecewiseLinear_eq {ts vs : List K} (hl : ts.length = vs.length) (t : K) :
    piecewiseLinear ts vs t =
      if firstNotBefore ts t = 0 then vs.getD 0 0
      else if firstNotBefore ts t = ts.length then vs.getD (vs.length - 1) 0
      else
        let k := firstNotBefore ts t
        vs.getD (k - 1) 0 + (t - ts.getD (k - 1) 0) * (vs.getD k 0 - vs.getD (k - 1) 0) /
          (ts.getD k 0 - ts.getD (k - 1) 0) := by
  induction ts generalizing vs with
  | nil =>
    obtain rfl : vs = [] := List.length_eq_zero_iff.mp hl.symm
    rfl
  | cons t0 ts ih =>
    cases vs with
    | nil => simp at hl
    | cons v0 vs =>
      cases ts with
      | nil =>
        obtain rfl : vs = [] := by simpa using hl.symm
        rw [firstNotBefore_cons]
        by_cases h : t ≤ t0 <;> simp [piecewiseLinear, firstNotBefore, h]
      | cons t1 ts =>
        cases vs with
        | nil => simp at hl
        | cons v1 vs =>
          rw [piecewiseLinear, firstNotBefore_cons]
          by_cases h0 : t ≤ t0
          · simp [h0]
          · have hi := @ih (v1 :: vs) (by simpa using hl)
            have hk := firstNotBefore_cons t1 ts t
            by_cases h1 : t ≤ t1
            · simp [h0, h1, hk]
            · rw [if_neg h1] at hk
              rw [if_neg h0, if_neg h1, hi, if_neg h0, hk]
              simp

/-! ## Increasing samples -/

section Increasing

variable {ts vs : List K} (hl : ts.length = vs.length) (hs : ts.Pairwise (· < ·))

omit [LinearOrder K] in
theorem pairwise_getD {R : K → K → Prop} {l : List K} (h : l.Pairwise R) {i j : Nat} (hij : i < j)
    (hj : j < l.length) : R (l.getD i 0) (l.getD j 0) := by
  rw [List.getD_eq_getElem _ _ (by omega), List.getD_eq_getElem _ _ hj]
  exact List.pairwise_iff_getElem.mp h i j (by omega) hj hij

include hs in
theorem firstNotBefore_eq {t : K} {k : Nat} (hk : k < ts.length)
    (hlt : k = 0 ∨ ts.getD (k - 1) 0 < t) (hle : t ≤ ts.getD k 0) : firstNotBefore ts t = k := by
  rw [firstNotBefore, List.findIdx_eq hk]
  rw [List.getD_eq_getElem _ _ hk] at hle
  refine ⟨by simpa using hle, fun j hj => ?_⟩
  have hj' : ts[j] < t := by
    rw [← List.getD_eq_getElem _ 0 (by omega)]
    rcases hlt with rfl | hlt
    · omega
    · rcases Nat.lt_or_eq_of_le (Nat.le_sub_one_of_lt hj) with h | rfl
      · exact (pairwise_getD hs h (by omega)).trans hlt
      · exact hlt
  simpa using hj'

include hl hs

theorem piecewiseLinear_left {t : K} (hn : 0 < ts.length) (h : t ≤ ts.getD 0 0) :
    piecewiseLinear ts vs t = vs.getD 0 0 := by
  rw [piecewiseLinear_eq hl, if_pos (firstNotBefore_eq hs hn (.inl rfl) h)]

/-- At a sample. -/
theorem piecewiseLinear_sample {k : Nat} (hk : k < ts.length) :
    piecewiseLinear ts vs (ts.getD k 0) = vs.getD k 0 := by
  cases k with
  | zero => exact piecewiseLinear_left hl hs hk le_rfl
  | succ k =>
    have hlt := pairwise_getD hs (Nat.lt_succ_self k) hk
    rw [piecewiseLinear_eq hl, firstNotBefore_eq hs hk (.inr hlt) le_rfl, if_neg (by omega),
      if_neg (by omega)]
    simp only [Nat.add_sub_cancel]
    rw [mul_comm, mul_div_assoc, div_self (sub_ne_zero.mpr hlt.ne'), mul_one, add_sub_cancel]

theorem piecewiseLinear_segment {t : K} {k : Nat} (hk : k + 1 < ts.length)
    (h0 : ts.getD k 0 ≤ t) (h1 : t ≤ ts.getD (k + 1) 0) :
    piecewiseLinear ts vs t = vs.getD k 0 + (t - ts.getD k 0) *
      (vs.getD (k + 1) 0 - vs.getD k 0) / (ts.getD (k + 1) 0 - ts.getD k 0) := by
  rcases h0.eq_or_lt with rfl | h0
  · rw [piecewiseLinear_sample hl hs (by omega), sub_self, zero_mul, zero_div, add_zero]
  · rw [piecewiseLinear_eq hl, firstNotBefore_eq hs hk (.inr h0) h1, if_neg (by omega),
      if_neg (by omega)]
    rfl

theorem piecewiseLinear_right {t : K} (hn : 0 < ts.length) (h : ts.getD (ts.length - 1) 0 ≤ t) :
    piecewiseLinear ts vs t = vs.getD (vs.length - 1) 0 := by
  rcases h.eq_or_lt with rfl | h
  · rw [← hl]
    exact piecewiseLinear_sample hl hs (by omega)
  · have hlen : firstNotBefore ts t = ts.length := by
      rw [firstNotBefore, List.findIdx_eq_length]
      intro x hx
      obtain ⟨i, hi, rfl⟩ := List.getElem_of_mem hx
      have hle : ts[i] < t := by
        rw [← List.getD_eq_getElem _ 0 hi]
        rcases Nat.lt_or_eq_of_le (Nat.le_sub_one_of_lt hi) with hlt | rfl
        · exact (pairwise_getD hs hlt (by omega)).trans h
        · exact h
      simpa using hle
    rw [piecewiseLinear_eq hl, hlen, if_neg (by omega), if_pos rfl]

end Increasing

end PiecewiseLinear
