import Mathlib.Analysis.Calculus.FDeriv.Pow
import Moo.Lib.Coo
import Moo.Lib.RowForm
import Moo.NLP.Solve

/-!
# NLP.ScalingCorrect

With exact derivatives of its own, an NLP under nominal scaling is one consistent problem for the
solver.

* `Exact N`: gradient, Jacobian and lower triangle of the Hessian are those of `f` and `g`.
* `solverF`, `solverG`: the functions the solver sees, as it evaluates them.
* `scaled_consistent`: in every state of a solve, what the solver is given as derivatives are
  those of `solverF` and `solverG`, and its bounds are those of the NLP.
-/

namespace Moo
namespace NLP

open FixedVector Coo RowForm

/-- Derivatives in COO format that are exact. `hesL` is the lower triangle of the Hessian of
`sigmaF * f + lambdaᵀ g`. -/
structure Exact (N : Functions ℝ) : Prop where
  gradF : ∀ x : Fin N.numberVars → ℝ,
    HasFDerivAt (fun y : Fin N.numberVars → ℝ => N.f (extend y))
      (form N.numberVars (N.gradF (extend x))) x
  jacG : ∀ (x : Fin N.numberVars → ℝ) (r : Nat), r < N.numberConstraints →
    HasFDerivAt (fun y : Fin N.numberVars → ℝ => N.g (extend y) r)
      (form N.numberVars (coo N.nnzJac N.jac.row N.jac.col (N.jacG (extend x)) r)) x
  hesL : ∀ (x : Fin N.numberVars → ℝ) (lambda : Nat → ℝ) (sigmaF : ℝ),
    ∃ L'' : (Fin N.numberVars → ℝ) →L[ℝ] (Fin N.numberVars → ℝ) →L[ℝ] ℝ,
      HasFDerivAt (fderiv ℝ fun y : Fin N.numberVars → ℝ => sigmaF * N.f (extend y) +
        ∑ r ∈ Finset.range N.numberConstraints, lambda r * N.g (extend y) r) L'' x ∧
      ∀ i j : Fin N.numberVars, j ≤ i →
        coo N.nnzHes N.hes.row N.hes.col (N.hesL (extend x) lambda sigmaF) i j =
          L'' (Pi.single i 1) (Pi.single j 1)

structure Nominals.Positive (nom : Nominals ℝ) (N : Functions ℝ) : Prop where
  x_length : nom.x.length = N.numberVars
  g_length : nom.g.length = N.numberConstraints
  x : ∀ v ∈ nom.x, 0 < v
  g : ∀ v ∈ nom.g, 0 < v
  f : 0 < nom.f

section Solver

variable {σ : Type} (V : Virtuals σ ℝ) (s : NLP σ ℝ) {n : Nat} (x : Fin n → ℝ)

/-- `F`, as evaluated. -/
noncomputable def solverF : ℝ := ((s.solverEvalF V true (extend x)).map Prod.snd).getD 0

/-- `G`, as evaluated. -/
noncomputable def solverG (r : Nat) : ℝ :=
  raw (((s.solverEvalG V true (extend x)).map Prod.snd).getD []) r

end Solver

/-- One problem: derivatives at `x` and bounds, as given to the solver in state `s`. -/
structure Consistent {σ : Type} (V : Virtuals σ ℝ) (N : Functions ℝ) (nom : Nominals ℝ)
    (s : NLP σ ℝ) (x : Fin N.numberVars → ℝ) (lambda : Nat → ℝ) (sigma : ℝ) : Prop where
  gradF : ∃ s' grad, s.solverEvalGradF V true (extend x) = some (s', grad) ∧
    HasFDerivAt (fun y : Fin N.numberVars → ℝ => solverF V s y) (form N.numberVars (raw grad)) x
  jac : ∃ s' jac, s.solverEvalJac V true (extend x) = some (s', jac) ∧
    ∀ r, r < N.numberConstraints → HasFDerivAt (fun y : Fin N.numberVars → ℝ => solverG V s y r)
      (form N.numberVars (coo N.nnzJac s.jac.row s.jac.col (raw jac) r)) x
  hes : ∃ s' hes, s.solverEvalHes V true (extend x) true lambda sigma = some (s', hes) ∧
    ∃ L'' : (Fin N.numberVars → ℝ) →L[ℝ] (Fin N.numberVars → ℝ) →L[ℝ] ℝ,
      HasFDerivAt (fderiv ℝ fun y : Fin N.numberVars → ℝ => sigma * solverF V s y +
        ∑ r ∈ Finset.range N.numberConstraints, lambda r * solverG V s y r) L'' x ∧
      ∀ i j : Fin N.numberVars, j ≤ i →
        coo N.nnzHes s.hes.row s.hes.col (raw hes) i j = L'' (Pi.single i 1) (Pi.single j 1)
  bounds : ∃ s' b, s.solverGetBounds V = some (s', b) ∧
    ((∀ i, i < N.numberVars → raw b.xLb i ≤ extend x i ∧ extend x i ≤ raw b.xUb i) ↔
      ∀ i, i < N.numberVars → raw N.bounds.xLb i ≤ raw nom.x i * extend x i ∧
        raw nom.x i * extend x i ≤ raw N.bounds.xUb i) ∧
    ((∀ r, r < N.numberConstraints → raw b.gLb r ≤ solverG V s x r ∧
        solverG V s x r ≤ raw b.gUb r) ↔
      ∀ r, r < N.numberConstraints →
        raw N.bounds.gLb r ≤ N.g (extend (diag _ (raw nom.x) x)) r ∧
        N.g (extend (diag _ (raw nom.x) x)) r ≤ raw N.bounds.gUb r)

section Proof

variable {N : Functions ℝ} {nom : Nominals ℝ}

theorem Nominals.Positive.pos_x (h : nom.Positive N) {i : Nat} (hi : i < N.numberVars) :
    0 < raw nom.x i := by
  rw [← h.x_length] at hi
  rw [raw, List.getD_eq_getElem _ _ hi]
  exact h.x _ (List.getElem_mem hi)

theorem Nominals.Positive.pos_g (h : nom.Positive N) {r : Nat} (hr : r < N.numberConstraints) :
    0 < raw nom.g r := by
  rw [← h.g_length] at hr
  rw [raw, List.getD_eq_getElem _ _ hr]
  exact h.g _ (List.getElem_mem hr)

/-- The point of the instance is the scaled point of the solver. -/
theorem raw_unscale (nom : Nominals ℝ) {n : Nat} (x : Fin n → ℝ) :
    raw (nom.unscale n (extend x)) = extend (diag n (raw nom.x) x) := by
  funext i
  rw [Nominals.unscale, raw_fill]
  by_cases hi : i < n
  · simp only [extend, if_pos hi, dif_pos hi, diag_apply]
  · simp only [extend, if_neg hi, dif_neg hi]

variable {σ : Type} {V : Virtuals σ ℝ} {I : σ → Prop} {s : NLP σ ℝ} (hV : Implements V I N nom)
variable (h : Ready I N nom s) (x : Fin N.numberVars → ℝ)

include hV h

theorem solverF_eq :
    solverF V s x = N.f (extend (diag _ (raw nom.x) x)) / nom.f := by
  obtain ⟨s', e⟩ := h.evalF_value hV (extend x)
  rw [solverF, e, raw_unscale]
  rfl

theorem solverG_eq {r : Nat} (hr : r < N.numberConstraints) :
    solverG V s x r = N.g (extend (diag _ (raw nom.x) x)) r / raw nom.g r := by
  obtain ⟨s', e⟩ := h.evalG_value hV (extend x)
  rw [solverG, e, raw_unscale]
  exact raw_fill_lt _ hr

variable (hN : Exact N)

include hN

theorem consistent_gradF : ∃ s' grad, s.solverEvalGradF V true (extend x) = some (s', grad) ∧
    HasFDerivAt (fun y : Fin N.numberVars → ℝ => solverF V s y)
      (form N.numberVars (raw grad)) x := by
  obtain ⟨s', e⟩ := h.evalGradF_value hV (extend x)
  refine ⟨s', _, e, ?_⟩
  have hF : (fun y : Fin N.numberVars → ℝ => solverF V s y) =
      fun y => nom.f⁻¹ * N.f (extend (diag _ (raw nom.x) y)) := by
    funext y
    rw [solverF_eq hV h, div_eq_inv_mul]
  rw [hF]
  refine (hasFDerivAt_mul nom.f⁻¹ (hasFDerivAt_diag (raw nom.x) (hN.gradF _))).congr_fderiv ?_
  refine form_congr fun c hc => ?_
  rw [raw_fill_lt _ hc, raw_unscale]
  ring

theorem consistent_jac : ∃ s' jac, s.solverEvalJac V true (extend x) = some (s', jac) ∧
    ∀ r, r < N.numberConstraints → HasFDerivAt (fun y : Fin N.numberVars → ℝ => solverG V s y r)
      (form N.numberVars (coo N.nnzJac s.jac.row s.jac.col (raw jac) r)) x := by
  obtain ⟨s', e⟩ := h.evalJac_value hV (extend x)
  refine ⟨s', _, e, fun r hr => ?_⟩
  have hG : (fun y : Fin N.numberVars → ℝ => solverG V s y r) =
      fun y => (raw nom.g r)⁻¹ * N.g (extend (diag _ (raw nom.x) y)) r := by
    funext y
    rw [solverG_eq hV h y hr, div_eq_inv_mul]
  rw [hG]
  refine (hasFDerivAt_mul _ (hasFDerivAt_diag (raw nom.x) (hN.jacG _ r hr))).congr_fderiv ?_
  refine form_congr fun c _ => ?_
  rw [h.jac, coo, coo, Finset.mul_sum, Finset.mul_sum]
  refine Finset.sum_congr rfl fun k hk => ?_
  rw [raw_fill_lt _ (Finset.mem_range.mp hk), raw_unscale]
  by_cases hc : N.jac.row k = r ∧ N.jac.col k = c
  · obtain ⟨rfl, rfl⟩ := hc
    rw [if_pos ⟨rfl, rfl⟩, if_pos ⟨rfl, rfl⟩]
    ring
  · rw [if_neg hc, if_neg hc, mul_zero, mul_zero]

theorem consistent_hes (lambda : Nat → ℝ) (sigma : ℝ) :
    ∃ s' hes, s.solverEvalHes V true (extend x) true lambda sigma = some (s', hes) ∧
    ∃ L'' : (Fin N.numberVars → ℝ) →L[ℝ] (Fin N.numberVars → ℝ) →L[ℝ] ℝ,
      HasFDerivAt (fderiv ℝ fun y : Fin N.numberVars → ℝ => sigma * solverF V s y +
        ∑ r ∈ Finset.range N.numberConstraints, lambda r * solverG V s y r) L'' x ∧
      ∀ i j : Fin N.numberVars, j ≤ i →
        coo N.nnzHes s.hes.row s.hes.col (raw hes) i j =
          L'' (Pi.single i 1) (Pi.single j 1) := by
  obtain ⟨s', e⟩ := h.evalHes_value hV (extend x) lambda sigma
  -- the Lagrangian of the solver is that of the NLP with the multipliers `l` and the factor
  -- `sigma / nom.f`, in scaled variables
  let l : Nat → ℝ := raw (fill N.numberConstraints fun r => lambda r / raw nom.g r)
  let L : (Fin N.numberVars → ℝ) → ℝ := fun y => sigma / nom.f * N.f (extend y) +
    ∑ r ∈ Finset.range N.numberConstraints, l r * N.g (extend y) r
  have hL : (fun y : Fin N.numberVars → ℝ => sigma * solverF V s y +
      ∑ r ∈ Finset.range N.numberConstraints, lambda r * solverG V s y r) =
      fun y => L (diag _ (raw nom.x) y) := by
    funext y
    rw [solverF_eq hV h]
    refine congrArg₂ (· + ·) (by ring) (Finset.sum_congr rfl fun r hr => ?_)
    have hr := Finset.mem_range.mp hr
    rw [solverG_eq hV h y hr, show l r = _ from raw_fill_lt _ hr]
    ring
  have hd : Differentiable ℝ L := fun y =>
    (hasFDerivAt_add (hasFDerivAt_mul _ (hN.gradF y)) (hasFDerivAt_sum _ fun r hr =>
      hasFDerivAt_mul (l r) (hN.jacG y r (Finset.mem_range.mp hr)))).differentiableAt
  obtain ⟨L'', h1, h2⟩ := hN.hesL (diag _ (raw nom.x) x) l (sigma / nom.f)
  obtain ⟨F'', h3, h4⟩ := hasFDerivAt_fderiv_diag (raw nom.x) hd h1
  refine ⟨s', _, e, F'', by rw [hL]; exact h3, fun i j hij => ?_⟩
  rw [h4, ← h2 i j hij, h.hes, coo, coo, Finset.mul_sum]
  refine Finset.sum_congr rfl fun k hk => ?_
  rw [raw_fill_lt _ (Finset.mem_range.mp hk), raw_unscale]
  by_cases hc : N.hes.row k = i ∧ N.hes.col k = j
  · rw [if_pos hc, if_pos hc, hc.1, hc.2]
  · rw [if_neg hc, if_neg hc, mul_zero]

omit h hN in
theorem consistent_bounds (h : Ready I N nom s) (hpos : nom.Positive N) :
    ∃ s' b, s.solverGetBounds V = some (s', b) ∧
    ((∀ i, i < N.numberVars → raw b.xLb i ≤ extend x i ∧ extend x i ≤ raw b.xUb i) ↔
      ∀ i, i < N.numberVars → raw N.bounds.xLb i ≤ raw nom.x i * extend x i ∧
        raw nom.x i * extend x i ≤ raw N.bounds.xUb i) ∧
    ((∀ r, r < N.numberConstraints → raw b.gLb r ≤ solverG V s x r ∧
        solverG V s x r ≤ raw b.gUb r) ↔
      ∀ r, r < N.numberConstraints →
        raw N.bounds.gLb r ≤ N.g (extend (diag _ (raw nom.x) x)) r ∧
        N.g (extend (diag _ (raw nom.x) x)) r ≤ raw N.bounds.gUb r) := by
  obtain ⟨s', e⟩ := h.bounds_value hV
  have hx : ∀ (v : List ℝ) {i : Nat}, i < N.numberVars →
      raw (nom.scaling.inplaceScaleX v) i = raw v i / raw nom.x i := by
    intro v i hi
    refine (raw_diagmatVecInplace _ v ?_).trans ?_
    · simpa [NominalScaling.new, hpos.x_length] using hi
    · rw [NominalScaling.new, raw_reciprocals, mul_one_div]
  have hg : ∀ (v : List ℝ) {r : Nat}, r < N.numberConstraints →
      raw (nom.scaling.inplaceScaleG v) r = raw v r / raw nom.g r := by
    intro v r hr
    refine (raw_diagmatVecInplace _ v ?_).trans ?_
    · simpa [NominalScaling.new, hpos.g_length] using hr
    · rw [NominalScaling.new, raw_reciprocals, mul_one_div]
  refine ⟨s', _, e, forall₂_congr fun i hi => ?_, forall₂_congr fun r hr => ?_⟩
  · have hp := hpos.pos_x hi
    rw [hx _ hi, hx _ hi, div_le_iff₀' hp, le_div_iff₀' hp]
  · have hp := hpos.pos_g hr
    rw [hg _ hr, hg _ hr, solverG_eq hV h x hr, div_le_div_iff_of_pos_right hp,
      div_le_div_iff_of_pos_right hp]

omit h in
theorem scaled_consistent (hpos : nom.Positive N) {s₀ : NLP σ ℝ} (h₀ : I s₀.inst)
    (h : Solving V s₀ s) (lambda : Nat → ℝ) (sigma : ℝ) : Consistent V N nom s x lambda sigma :=
  have hr := h.ready hV h₀
  { gradF := consistent_gradF hV hr x hN
    jac := consistent_jac hV hr x hN
    hes := consistent_hes hV hr x hN lambda sigma
    bounds := consistent_bounds hV x hr hpos }

end Proof

/-! Minimise `x²` subject to bounds on `g = x`. -/

section Square

def square : Functions ℝ where
  numberVars := 1
  numberConstraints := 1
  nnzJac := 1
  nnzHes := 1
  bounds := { xLb := [-1], xUb := [1], gLb := [0], gUb := [1] }
  jac := { iRow := [0], jCol := [0] }
  hes := { iRow := [0], jCol := [0] }
  f := fun x => x 0 * x 0
  gradF := fun x _ => x 0 + x 0
  g := fun x _ => x 0
  jacG := fun _ _ => 1
  hesL := fun _ _ sigma _ => sigma + sigma

theorem square_exact : Exact square where
  gradF := fun x => by
    have h := hasFDerivAt_extend x 0
    refine (h.mul h).congr_fderiv ?_
    rw [form_smul, form_add]
    refine form_congr fun c hc => ?_
    obtain rfl : c = 0 := Nat.lt_one_iff.mp hc
    simp only [square, if_true]
    ring
  jacG := fun x r hr => by
    obtain rfl : r = 0 := Nat.lt_one_iff.mp hr
    refine (hasFDerivAt_extend x 0).congr_fderiv (form_congr fun c hc => ?_)
    obtain rfl : c = 0 := Nat.lt_one_iff.mp hc
    simp [square, coo, Pattern.row, Pattern.col]
  hesL := fun x lambda sigma => by
    let e := form square.numberVars fun c => if 0 = c then 1 else 0
    have h0 : ∀ y : Fin square.numberVars → ℝ,
        HasFDerivAt (fun y : Fin square.numberVars → ℝ => extend y 0) e y :=
      fun y => hasFDerivAt_extend y 0
    have hfd : (fderiv ℝ fun y : Fin square.numberVars → ℝ => sigma * square.f (extend y) +
        ∑ r ∈ Finset.range square.numberConstraints, lambda r * square.g (extend y) r) =
        fun y => (2 * sigma * extend y 0 + lambda 0) • e := by
      funext y
      have h := (((h0 y).mul (h0 y)).const_mul sigma).add ((h0 y).const_mul (lambda 0))
      have hs : ∀ F : Nat → ℝ, ∑ r ∈ Finset.range square.numberConstraints, F r = F 0 :=
        fun F => Finset.sum_range_one F
      simp only [hs]
      rw [show (2 * sigma * extend y 0 + lambda 0) • e =
        sigma • (extend y 0 • e + extend y 0 • e) + lambda 0 • e by module]
      exact h.fderiv
    refine ⟨_, hfd ▸ (((h0 x).const_mul (2 * sigma)).add_const (lambda 0)).smul_const e,
      fun i j _ => ?_⟩
    obtain rfl : i = (0 : Fin 1) := Subsingleton.elim (α := Fin 1) _ _
    obtain rfl : j = (0 : Fin 1) := Subsingleton.elim (α := Fin 1) _ _
    have he : e (Pi.single (0 : Fin 1) 1) = 1 := by
      refine (form_apply _ _).trans ((Fin.sum_univ_one _).trans ?_)
      refine (congrArg₂ (· * ·) (if_pos rfl) (Pi.single_eq_same _ _)).trans ?_
      exact one_mul 1
    simp only [ContinuousLinearMap.smulRight_apply, smul_apply, he]
    simp [square, coo, Pattern.row, Pattern.col, two_mul]

theorem scaled_consistent_square :
    Consistent (square.virtuals ⟨[2], [4], 3⟩) square ⟨[2], [4], 3⟩
      ((((NLP.new ()).solverGetInfo (square.virtuals ⟨[2], [4], 3⟩)).solverGetJacSparsity
        (square.virtuals ⟨[2], [4], 3⟩)).1.solverGetHesSparsity (square.virtuals ⟨[2], [4], 3⟩)).1
      (fun _ => 1) (fun _ => 1) 1 :=
  scaled_consistent (square.implements ⟨[2], [4], 3⟩) (fun _ => 1) square_exact
    ⟨rfl, rfl, by simp, by simp, by norm_num⟩ trivial .opened (fun _ => 1) 1

end Square

end NLP
end Moo
