import Mathlib.LinearAlgebra.Lagrange

/-!
# Lib.Barycentric

The second barycentric formula with weights that are known up to a common factor, and polynomials
under a change of the interval.
-/

namespace Barycentric

open Polynomial Finset

variable {K : Type*} [Field K]

/-- `w` are the barycentric weights of the nodes `v 0, …, v (n - 1)`, up to a common factor. -/
def Weights (n : Nat) (v w : Nat → K) : Prop :=
  ∃ s, s ≠ 0 ∧ ∀ j, j < n → w j = s * Lagrange.nodalWeight (range n) v j

section SecondForm

variable {n : Nat} {v w : Nat → K} {r : K[X]} {x : K}

theorem sum_weights (hw : Weights n v w) :
    ∃ s, s ≠ 0 ∧ ∀ y : Nat → K, ∑ j ∈ range n, w j / (x - v j) * y j =
      s * ∑ j ∈ range n, Lagrange.nodalWeight (range n) v j * (x - v j)⁻¹ * y j := by
  obtain ⟨s, hs, hw⟩ := hw
  refine ⟨s, hs, fun y => ?_⟩
  rw [mul_sum]
  refine sum_congr rfl fun j hj => ?_
  rw [hw j (mem_range.mp hj), div_eq_mul_inv]
  ring

theorem denominator_ne_zero (hn : 0 < n) (hv : Set.InjOn v (range n)) (hw : Weights n v w)
    (hx : ∀ j, j < n → x ≠ v j) : ∑ j ∈ range n, w j / (x - v j) ≠ 0 := by
  obtain ⟨s, hs, h⟩ := sum_weights (x := x) hw
  have h1 := h fun _ => 1
  simp only [mul_one] at h1
  rw [h1]
  refine mul_ne_zero hs (Lagrange.sum_nodalWeight_mul_inv_sub_ne_zero hv ?_ ?_)
  · intro j hj
    exact hx j (mem_range.mp hj)
  · exact nonempty_range_iff.mpr hn.ne'

theorem secondForm (hn : 0 < n) (hv : Set.InjOn v (range n)) (hw : Weights n v w)
    (hx : ∀ j, j < n → x ≠ v j) (hr : r.degree < n) :
    (∑ j ∈ range n, w j / (x - v j) * r.eval (v j)) / ∑ j ∈ range n, w j / (x - v j) =
      r.eval x := by
  obtain ⟨s, hs, h⟩ := sum_weights (x := x) hw
  have h1 := h fun _ => 1
  simp only [mul_one] at h1
  have hr' : r = Lagrange.interpolate (range n) v fun j => r.eval (v j) :=
    Lagrange.eq_interpolate hv (by rwa [card_range])
  have hx' : ∀ j ∈ range n, x ≠ v j := fun j hj => hx j (mem_range.mp hj)
  have he := Lagrange.eval_interpolate_not_at_node' (fun j => r.eval (v j)) hv
    (nonempty_range_iff.mpr hn.ne') hx'
  rw [h1, h, mul_div_mul_left _ _ hs, ← he, ← hr']

end SecondForm

/-- A polynomial with its argument moved affinely. -/
theorem degree_comp_lt {q : K[X]} {n : Nat} (hq : q.degree < n) (a b : K) :
    (q.comp (C a * X + C b)).degree < n := by
  rcases Nat.eq_zero_or_pos n with rfl | hn
  · have : q = 0 := by simpa [degree_lt_iff_coeff_zero, Polynomial.ext_iff] using hq
    simp [this]
  · have hq' : q.natDegree < n := by
      rcases eq_or_ne q 0 with rfl | h0
      · simpa using hn
      · exact (natDegree_lt_iff_degree_lt h0).mpr hq
    have hlin : (C a * X + C b).natDegree ≤ 1 := natDegree_linear_le
    have hc : (q.comp (C a * X + C b)).natDegree < n := by
      calc (q.comp (C a * X + C b)).natDegree ≤ q.natDegree * (C a * X + C b).natDegree :=
            natDegree_comp_le
        _ ≤ q.natDegree * 1 := Nat.mul_le_mul_left _ hlin
        _ < n := by omega
    exact degree_le_natDegree.trans_lt (by exact_mod_cast hc)

end Barycentric
