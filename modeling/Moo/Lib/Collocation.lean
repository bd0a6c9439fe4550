import Mathlib.Algebra.Polynomial.Derivative
import Mathlib.Analysis.Calculus.Deriv.Polynomial
import Mathlib.MeasureTheory.Integral.IntervalIntegral.FundThmCalculus
import Mathlib.Tactic.FieldSimp
import Mathlib.Topology.Algebra.Polynomial
import Moo.Lib.Barycentric

/-!
# Lib.Collocation

Collocation at nodes whose quadrature is exact, over any field.

* `Quadrature`: the rule `∑ b_j h(c_j)` integrates over `[0, 1]` without an error. The statement
  takes the antiderivative, so that no integral is needed. `Quadrature.by_parts`;
  `Quadrature.integral` is the statement with an integral.
* `Differentiation`: the matrix that differentiates polynomials at `τ_0, …, τ_p`.
* `Differentiation.adjoint`: the transpose of the matrix, weighted by the quadrature, is minus the
  derivative, up to the values at both ends.
* `stretch`: the same on the interval from `a` to `a + h`.
-/

namespace Collocation

open Polynomial Finset

variable {K : Type*} [Field K]

/-- Exact for integrands whose antiderivative has a degree below `n`. -/
def Quadrature (p n : Nat) (c b : Nat → K) : Prop :=
  ∀ q : K[X], q.degree < n →
    ∑ j ∈ range p, b j * (derivative q).eval (c j) = q.eval 1 - q.eval 0

/-- `D` differentiates at the nodes `τ_0, …, τ_p` what these nodes determine. -/
def Differentiation (p : Nat) (τ : Nat → K) (D : Nat → Nat → K) : Prop :=
  ∀ q : K[X], q.degree < (p + 1 : Nat) → ∀ k, k < p + 1 →
    ∑ col ∈ range (p + 1), D k col * q.eval (τ col) = (derivative q).eval (τ k)

/-! Both are linear in the polynomial: powers suffice. -/

section Powers

variable {p n : Nat} {c b τ : Nat → K} {D : Nat → Nat → K}

theorem eval_eq_sum_powers {q : K[X]} (hq : q.degree < n) (x : K) :
    q.eval x = ∑ m ∈ range n, q.coeff m * x ^ m ∧
      (derivative q).eval x = ∑ m ∈ range n, q.coeff m * (m * x ^ (m - 1)) := by
  have hs : q = ∑ m ∈ range n, C (q.coeff m) * X ^ m := by
    refine Polynomial.ext fun k => ?_
    rw [finsetSum_coeff]
    simp only [coeff_C_mul, coeff_X_pow, mul_ite, mul_one, mul_zero, sum_ite_eq, mem_range]
    split
    · rfl
    · rename_i hk
      exact degree_lt_iff_coeff_zero _ _ |>.mp hq k (not_lt.mp hk)
  constructor
  · conv_lhs => rw [hs]
    simp [eval_finsetSum]
  · conv_lhs => rw [hs]
    simp [eval_finsetSum, derivative_X_pow]

theorem Quadrature.of_powers
    (h : ∀ m, m < n → ∑ j ∈ range p, b j * (m * c j ^ (m - 1)) = 1 ^ m - 0 ^ m) :
    Quadrature p n c b := by
  intro q hq
  rw [(eval_eq_sum_powers hq 1).1, (eval_eq_sum_powers hq 0).1, ← sum_sub_distrib,
    sum_congr rfl fun j _ => by rw [(eval_eq_sum_powers hq (c j)).2, mul_sum], sum_comm]
  refine sum_congr rfl fun m hm => ?_
  rw [← mul_sub, ← h m (mem_range.mp hm), mul_sum]
  exact sum_congr rfl fun j _ => by ring

theorem Differentiation.of_powers (h : ∀ m, m < p + 1 → ∀ k, k < p + 1 →
    ∑ col ∈ range (p + 1), D k col * τ col ^ m = m * τ k ^ (m - 1)) : Differentiation p τ D := by
  intro q hq k hk
  rw [(eval_eq_sum_powers hq (τ k)).2,
    sum_congr rfl fun col _ => by rw [(eval_eq_sum_powers hq (τ col)).1, mul_sum], sum_comm]
  refine sum_congr rfl fun m hm => ?_
  rw [← h m (mem_range.mp hm) k hk, mul_sum]
  exact sum_congr rfl fun col _ => by ring

end Powers

/-! ## Interpolants -/

section Interpolant

variable {n : Nat} {τ : Nat → K}

/-- The polynomial of degree below `n` with these values at the first `n` nodes. -/
noncomputable def interpolant (n : Nat) (τ : Nat → K) (values : Nat → K) : K[X] :=
  Lagrange.interpolate (range n) τ values

theorem interpolant_degree (hτ : Set.InjOn τ (range n)) (values : Nat → K) :
    (interpolant n τ values).degree < n := by
  have h := Lagrange.degree_interpolate_lt values hτ
  rwa [card_range] at h

theorem interpolant_eval (hτ : Set.InjOn τ (range n)) (values : Nat → K) {j : Nat} (hj : j < n) :
    (interpolant n τ values).eval (τ j) = values j :=
  Lagrange.eval_interpolate_at_node values hτ (mem_range.mpr hj)

theorem interpolant_unique (hτ : Set.InjOn τ (range n)) {q : K[X]} (hq : q.degree < n) :
    q = interpolant n τ fun j => q.eval (τ j) :=
  Lagrange.eq_interpolate hτ (by rwa [card_range])

end Interpolant

/-! ## Other intervals -/

section Stretch

variable {a h : K}

theorem derivative_comp_linear (a b : K) (q : K[X]) :
    derivative (q.comp (C a * X + C b)) = C a * (derivative q).comp (C a * X + C b) := by
  rw [derivative_comp]
  simp

/-- `q` with `[0, 1]` moved to `[a, a + h]`. -/
noncomputable def stretch (a h : K) (q : K[X]) : K[X] := q.comp (C h⁻¹ * X + C (-(h⁻¹ * a)))

theorem stretch_degree {q : K[X]} {n : Nat} (hq : q.degree < n) : (stretch a h q).degree < n :=
  Barycentric.degree_comp_lt hq _ _

variable (hh : h ≠ 0) (q : K[X]) (s : K)

include hh

theorem stretch_argument : (C h⁻¹ * X + C (-(h⁻¹ * a)) : K[X]).eval (a + h * s) = s := by
  simp only [eval_add, eval_mul, eval_C, eval_X]
  field_simp
  ring

theorem stretch_eval : (stretch a h q).eval (a + h * s) = q.eval s := by
  rw [stretch, eval_comp, stretch_argument hh]

theorem stretch_start : (stretch a h q).eval a = q.eval 0 := by
  have hs := stretch_eval (a := a) hh q 0
  rwa [mul_zero, add_zero] at hs

theorem stretch_end : (stretch a h q).eval (a + h) = q.eval 1 := by
  have hs := stretch_eval (a := a) hh q 1
  rwa [mul_one] at hs

theorem stretch_derivative : h * (derivative (stretch a h q)).eval (a + h * s) =
    (derivative q).eval s := by
  rw [stretch, derivative_comp_linear, eval_mul, eval_comp, stretch_argument hh, eval_C,
    ← mul_assoc, mul_inv_cancel₀ hh, one_mul]

omit hh in
/-- A rule for `[0, 1]`, on the interval from `a` to `a + h`. -/
theorem Quadrature.on_interval {p n : Nat} {c b : Nat → K} (hb : Quadrature p n c b) {q : K[X]}
    (hq : q.degree < n) : ∑ j ∈ range p, h * b j * (derivative q).eval (a + h * c j) =
      q.eval (a + h) - q.eval a := by
  have hr := hb (q.comp (C h * X + C a)) (Barycentric.degree_comp_lt hq h a)
  have hat : ∀ s, (C h * X + C a : K[X]).eval s = a + h * s := fun s => by
    simp only [eval_add, eval_mul, eval_C, eval_X]
    ring
  simp only [derivative_comp_linear, eval_comp, eval_mul, eval_C, hat, mul_one, mul_zero,
    add_zero] at hr
  rw [← hr]
  exact sum_congr rfl fun j _ => by ring

end Stretch

theorem degree_mul_lt {q r : K[X]} {m n : Nat} (hq : q.degree < (m + 1 : Nat))
    (hr : r.degree < n) : (q * r).degree < (m + n : Nat) := by
  rcases eq_or_ne q 0 with rfl | hq0
  · simp
  rcases eq_or_ne r 0 with rfl | hr0
  · simp
  rw [degree_eq_natDegree hq0] at hq
  rw [degree_eq_natDegree hr0] at hr
  rw [degree_mul, degree_eq_natDegree hq0, degree_eq_natDegree hr0]
  have hq' : q.natDegree < m + 1 := by exact_mod_cast hq
  have hr' : r.natDegree < n := by exact_mod_cast hr
  exact_mod_cast show q.natDegree + r.natDegree < m + n by omega

/-! ## Quadrature -/

section Quadrature

variable {p n : Nat} {c b : Nat → K}

theorem Quadrature.by_parts (h : Quadrature p n c b) {q r : K[X]} (hqr : (q * r).degree < n) :
    ∑ j ∈ range p, b j * (r.eval (c j) * (derivative q).eval (c j)) =
      q.eval 1 * r.eval 1 - q.eval 0 * r.eval 0 -
        ∑ j ∈ range p, b j * ((derivative r).eval (c j) * q.eval (c j)) := by
  have hq := h (q * r) hqr
  rw [derivative_mul] at hq
  simp only [eval_add, eval_mul, mul_add, sum_add_distrib] at hq
  rw [← hq, eq_sub_iff_add_eq]
  refine congrArg₂ (· + ·) ?_ ?_
  · exact sum_congr rfl fun j _ => by ring
  · exact sum_congr rfl fun j _ => by ring

end Quadrature

/-! ## Antiderivatives -/

section Antiderivative

variable [CharZero K]

noncomputable def antiderivative (q : K[X]) : K[X] :=
  ∑ m ∈ range (q.natDegree + 1), C (q.coeff m / (m + 1)) * X ^ (m + 1)

theorem derivative_antiderivative (q : K[X]) : derivative (antiderivative q) = q := by
  have term : ∀ m : Nat, derivative (C (q.coeff m / (m + 1)) * X ^ (m + 1) : K[X]) =
      C (q.coeff m) * X ^ m := by
    intro m
    have hm : (m + 1 : K) ≠ 0 := by exact_mod_cast m.succ_ne_zero
    rw [derivative_C_mul_X_pow, Nat.add_sub_cancel]
    push_cast
    rw [div_mul_cancel₀ _ hm]
  rw [antiderivative, derivative_sum, sum_congr rfl fun m _ => term m]
  exact q.as_sum_range_C_mul_X_pow.symm

omit [CharZero K] in
theorem antiderivative_degree {q : K[X]} {n : Nat} (hq : q.degree < n) :
    (antiderivative q).degree < (n + 1 : Nat) := by
  rcases eq_or_ne q 0 with rfl | h0
  · simp [antiderivative]
  have hn : q.natDegree < n := (natDegree_lt_iff_degree_lt h0).mpr hq
  refine lt_of_le_of_lt (degree_sum_le _ _) ((Finset.sup_lt_iff (WithBot.bot_lt_coe _)).mpr ?_)
  intro m hm
  refine (degree_C_mul_X_pow_le _ _).trans_lt ?_
  have hm := mem_range.mp hm
  exact_mod_cast show m + 1 < n + 1 by omega

theorem Quadrature.antiderivative {p n : Nat} {c b : Nat → K} (h : Quadrature p (n + 1) c b)
    {q : K[X]} (hq : q.degree < n) : ∑ j ∈ range p, b j * q.eval (c j) =
      (antiderivative q).eval 1 - (antiderivative q).eval 0 := by
  have hr := h _ (antiderivative_degree hq)
  rwa [derivative_antiderivative] at hr

end Antiderivative

/-- Over the reals, the rule is the integral. -/
theorem Quadrature.integral {p n : Nat} {c b : Nat → ℝ} (h : Quadrature p (n + 1) c b) {q : ℝ[X]}
    (hq : q.degree < n) : ∑ j ∈ range p, b j * q.eval (c j) = ∫ s in (0 : ℝ)..1, q.eval s := by
  have hd : ∀ s : ℝ, HasDerivAt (fun s => (Collocation.antiderivative q).eval s) (q.eval s) s := by
    intro s
    have hs := (Collocation.antiderivative q).hasDerivAt s
    rwa [derivative_antiderivative] at hs
  rw [h.antiderivative hq]
  exact (intervalIntegral.integral_eq_sub_of_hasDerivAt (fun s _ => hd s)
    (q.continuous.intervalIntegrable 0 1)).symm

/-! ## Differentiation -/

section Differentiation

variable {p : Nat} {τ : Nat → K} {D : Nat → Nat → K} (hD : Differentiation p τ D)
variable (hτ : Set.InjOn τ (range (p + 1)))

include hD hτ

/-- An entry is the derivative of a basis polynomial. -/
theorem Differentiation.entry {k m : Nat} (hk : k < p + 1) (hm : m < p + 1) :
    D k m = (derivative (Lagrange.basis (range (p + 1)) τ m)).eval (τ k) := by
  have hm' := mem_range.mpr hm
  have hdeg : (Lagrange.basis (range (p + 1)) τ m).degree < (p + 1 : Nat) := by
    rw [Lagrange.degree_basis hτ hm', card_range, Nat.add_sub_cancel]
    exact_mod_cast Nat.lt_succ_self p
  rw [← hD _ hdeg k hk, sum_eq_single_of_mem m hm']
  · rw [Lagrange.eval_basis_self hτ hm', mul_one]
  · intro col hcol hne
    rw [Lagrange.eval_basis_of_ne hne.symm hcol, mul_zero]

variable {c b : Nat → K} (hb : Quadrature p (2 * p) c b)
variable (h0 : τ 0 = 0) (hs : ∀ j, j < p → τ (j + 1) = c j) (h1 : τ p = 1)

include hb h0 hs h1

theorem Differentiation.adjoint {r : K[X]} (hr : r.degree < p) {m : Nat} (hm : m < p + 1) :
    ∑ j ∈ range p, b j * (r.eval (c j) * D (j + 1) m) =
      (if m = p then r.eval 1 else 0) -
        if m = 0 then r.eval 0 else b (m - 1) * (derivative r).eval (c (m - 1)) := by
  have hm' := mem_range.mpr hm
  have basis_at {k : Nat} (hk : k < p + 1) :
      (Lagrange.basis (range (p + 1)) τ m).eval (τ k) = if k = m then 1 else 0 := by
    by_cases h : k = m
    · rw [h, Lagrange.eval_basis_self hτ hm', if_pos rfl]
    · rw [Lagrange.eval_basis_of_ne (Ne.symm h) (mem_range.mpr hk), if_neg h]
  have hdeg : (Lagrange.basis (range (p + 1)) τ m * r).degree < (2 * p : Nat) := by
    rw [Nat.two_mul]
    refine degree_mul_lt ?_ hr
    rw [Lagrange.degree_basis hτ hm', card_range, Nat.add_sub_cancel]
    exact_mod_cast Nat.lt_succ_self p
  -- `r` has a degree below `p`, so there is a node behind zero
  have hp : 0 < p ∨ r = 0 := by
    rcases Nat.eq_zero_or_pos p with rfl | hp
    · exact .inr (by simpa [degree_lt_iff_coeff_zero, Polynomial.ext_iff] using hr)
    · exact .inl hp
  rcases hp with hp | rfl
  swap
  · simp
  calc ∑ j ∈ range p, b j * (r.eval (c j) * D (j + 1) m)
      = ∑ j ∈ range p, b j * (r.eval (c j) *
          (derivative (Lagrange.basis (range (p + 1)) τ m)).eval (c j)) := by
        refine sum_congr rfl fun j hj => ?_
        have hj := mem_range.mp hj
        rw [hD.entry hτ (Nat.succ_lt_succ hj) hm, hs j hj]
    _ = (if p = m then 1 else 0) * r.eval 1 - (if 0 = m then 1 else 0) * r.eval 0 -
          ∑ j ∈ range p, b j * ((derivative r).eval (c j) * if j + 1 = m then 1 else 0) := by
        rw [hb.by_parts hdeg, ← h1, basis_at (Nat.lt_succ_self p), h1, ← h0,
          basis_at (Nat.succ_pos p), h0]
        refine congrArg _ (sum_congr rfl fun j hj => ?_)
        have hj := mem_range.mp hj
        rw [← hs j hj, basis_at (Nat.succ_lt_succ hj)]
    _ = _ := ?_
  cases m with
  | zero =>
    rw [sum_eq_zero fun j _ => by simp]
    simp [hp.ne, hp.ne']
  | succ k =>
    rw [sum_eq_single_of_mem k (mem_range.mpr (by omega)) fun j _ hne => by
      rw [if_neg fun h => hne (Nat.succ.inj h), mul_zero, mul_zero]]
    simp [eq_comm (a := p)]

end Differentiation

end Collocation
