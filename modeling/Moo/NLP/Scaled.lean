import Moo.NLP.ScalingCorrect

/-!
# NLP.Scaled

An NLP seen through a scaling is an NLP.

* `Functions.scaled u`: what the base class computes from the functions of `N`, as functions.
* `scaled_admissible_iff`, `scaled_minimizer_iff`: with positive nominals, the solver's points meet
  the bounds, and are least, where the unscaled points do and are.
* `Exact.scaled`: exact derivatives stay exact, with and without nominals.
-/

namespace Moo
namespace NLP

open FixedVector Coo RowForm

/-! ## Factors -/

namespace UserScaling

variable {K : Type} [Field K]

def xFactor : UserScaling K → Nat → K
  | .noScaling => fun _ => 1
  | .nominal nom => raw nom.x

def gFactor : UserScaling K → Nat → K
  | .noScaling => fun _ => 1
  | .nominal nom => raw nom.g

def fFactor : UserScaling K → K
  | .noScaling => 1
  | .nominal nom => nom.f

variable (u : UserScaling K)

theorem unscaleX_eq (x : Nat → K) (n : Nat) :
    u.unscaleX x n = fill n fun i => u.xFactor i * x i := by
  cases u with
  | noScaling => simp only [unscaleX, xFactor, one_mul]
  | nominal nom => rfl

theorem scaleF_eq (o : K) : u.scaleF o = o / u.fFactor := by
  cases u with
  | noScaling => exact (div_one o).symm
  | nominal nom => rfl

theorem scaleG_eq (g : Nat → K) (n : Nat) :
    u.scaleG g n = fill n fun r => g r / u.gFactor r := by
  cases u with
  | noScaling => simp only [scaleG, gFactor, div_one]
  | nominal nom => rfl

theorem scaleGradF_eq (grad : Nat → K) (n : Nat) :
    u.scaleGradF grad n = fill n fun i => u.xFactor i / u.fFactor * grad i := by
  cases u with
  | noScaling => simp only [scaleGradF, xFactor, fFactor, div_one, one_mul]
  | nominal nom => rfl

theorem scaleJac_eq (jac : Nat → K) (row col : Nat → Nat) (nnz : Nat) :
    u.scaleJac jac row col nnz =
      fill nnz fun nz => u.xFactor (col nz) / u.gFactor (row nz) * jac nz := by
  cases u with
  | noScaling => simp only [scaleJac, xFactor, gFactor, div_one, one_mul]
  | nominal nom => rfl

theorem scaleHes_eq (hes : Nat → K) (row col : Nat → Nat) (nnz : Nat) :
    u.scaleHes hes row col nnz =
      fill nnz fun nz => u.xFactor (row nz) * u.xFactor (col nz) * hes nz := by
  cases u with
  | noScaling => simp only [scaleHes, xFactor, one_mul]
  | nominal nom => rfl

end UserScaling

/-! ## The scaled NLP -/

section Scaled

variable {K : Type} [Field K] (N : Functions K) (u : UserScaling K)

/-- `x`, `lambda` and the factor of the objective are those of the solver. -/
def Functions.scaled : Functions K :=
  let point (x : Nat → K) := raw (u.unscaleX x N.numberVars)
  { N with
    bounds :=
      { xLb := u.create.inplaceScaleX N.bounds.xLb
        xUb := u.create.inplaceScaleX N.bounds.xUb
        gLb := u.create.inplaceScaleG N.bounds.gLb
        gUb := u.create.inplaceScaleG N.bounds.gUb }
    f := fun x => u.scaleF (N.f (point x))
    gradF := fun x => raw (u.scaleGradF (N.gradF (point x)) N.numberVars)
    g := fun x => raw (u.scaleG (N.g (point x)) N.numberConstraints)
    jacG := fun x => raw (u.scaleJac (N.jacG (point x)) N.jac.row N.jac.col N.nnzJac)
    hesL := fun x lambda sigmaF =>
      let lambda := raw (u.scaleG lambda N.numberConstraints)
      let hes := N.hesL (point x) lambda (u.scaleF sigmaF)
      raw (u.scaleHes hes N.hes.row N.hes.col N.nnzHes) }

end Scaled

theorem UserScaling.inplaceScaleX_length {K : Type} [Field K] (u : UserScaling K) (v : List K) :
    (u.create.inplaceScaleX v).length = v.length := by
  cases u with
  | noScaling => rfl
  | nominal nom =>
    dsimp only [create, Nominals.scaling, Scaling.inplaceScaleX, NominalScaling.inplaceScaleX,
      diagmatVecInplace]
    rw [edit_length]

/-! ## Points that meet the bounds -/

section Admissible

variable {K : Type} [Field K] [LinearOrder K]

structure Functions.Admissible (N : Functions K) (x : Nat → K) : Prop where
  bounds : ∀ i, i < N.numberVars → raw N.bounds.xLb i ≤ x i ∧ x i ≤ raw N.bounds.xUb i
  constraints : ∀ r, r < N.numberConstraints →
    raw N.bounds.gLb r ≤ N.g x r ∧ N.g x r ≤ raw N.bounds.gUb r

/-- A positive nominal for each of the `n` variables, the `m` constraints and the objective. -/
structure UserScaling.Positive (u : UserScaling K) (n m : Nat) : Prop where
  sizes : ∀ nom, u = .nominal nom → nom.x.length = n ∧ nom.g.length = m
  x : ∀ i, i < n → 0 < u.xFactor i
  g : ∀ r, r < m → 0 < u.gFactor r
  f : 0 < u.fFactor

variable {u : UserScaling K} {n m : Nat} (h : u.Positive n m)

include h

theorem UserScaling.Positive.inplaceScaleX (v : List K) {i : Nat} (hi : i < n) :
    raw (u.create.inplaceScaleX v) i = raw v i / u.xFactor i := by
  cases u with
  | noScaling => exact (div_one _).symm
  | nominal nom =>
    refine (raw_diagmatVecInplace _ v ?_).trans ?_
    · simpa [NominalScaling.new, (h.sizes nom rfl).1] using hi
    · rw [NominalScaling.new, raw_reciprocals, mul_one_div]
      rfl

theorem UserScaling.Positive.inplaceScaleG (v : List K) {r : Nat} (hr : r < m) :
    raw (u.create.inplaceScaleG v) r = raw v r / u.gFactor r := by
  cases u with
  | noScaling => exact (div_one _).symm
  | nominal nom =>
    refine (raw_diagmatVecInplace _ v ?_).trans ?_
    · simpa [NominalScaling.new, (h.sizes nom rfl).2] using hr
    · rw [NominalScaling.new, raw_reciprocals, mul_one_div]
      rfl

omit h in
/-- The solver's point meets the scaled bounds where the unscaled point meets those of the NLP. -/
theorem scaled_admissible_iff [IsStrictOrderedRing K] {N : Functions K}
    (h : u.Positive N.numberVars N.numberConstraints) {x : Nat → K} :
    (N.scaled u).Admissible x ↔ N.Admissible (raw (u.unscaleX x N.numberVars)) := by
  have hx : ∀ i, i < N.numberVars →
      (raw (N.scaled u).bounds.xLb i ≤ x i ∧ x i ≤ raw (N.scaled u).bounds.xUb i ↔
        raw N.bounds.xLb i ≤ raw (u.unscaleX x N.numberVars) i ∧
          raw (u.unscaleX x N.numberVars) i ≤ raw N.bounds.xUb i) := by
    intro i hi
    rw [u.unscaleX_eq, raw_fill_lt _ hi]
    dsimp only [Functions.scaled]
    rw [h.inplaceScaleX _ hi, h.inplaceScaleX _ hi, div_le_iff₀' (h.x i hi),
      le_div_iff₀' (h.x i hi)]
  have hg : ∀ r, r < N.numberConstraints →
      (raw (N.scaled u).bounds.gLb r ≤ (N.scaled u).g x r ∧
          (N.scaled u).g x r ≤ raw (N.scaled u).bounds.gUb r ↔
        raw N.bounds.gLb r ≤ N.g (raw (u.unscaleX x N.numberVars)) r ∧
          N.g (raw (u.unscaleX x N.numberVars)) r ≤ raw N.bounds.gUb r) := by
    intro r hr
    dsimp only [Functions.scaled]
    rw [u.scaleG_eq, raw_fill_lt _ hr, h.inplaceScaleG _ hr, h.inplaceScaleG _ hr,
      div_le_div_iff_of_pos_right (h.g r hr), div_le_div_iff_of_pos_right (h.g r hr)]
  exact ⟨fun ⟨hbx, hbg⟩ =>
      ⟨fun i hi => (hx i hi).mp (hbx i hi), fun r hr => (hg r hr).mp (hbg r hr)⟩,
    fun ⟨hbx, hbg⟩ =>
      ⟨fun i hi => (hx i hi).mpr (hbx i hi), fun r hr => (hg r hr).mpr (hbg r hr)⟩⟩

/-- No other point that meets the bounds has a smaller objective. -/
structure Functions.Minimizer (N : Functions K) (x : Nat → K) : Prop where
  admissible : N.Admissible x
  least : ∀ y : List K, y.length = N.numberVars → N.Admissible (raw y) → N.f x ≤ N.f (raw y)

omit h in
/-- What is least for the solver is least for the NLP. -/
theorem scaled_minimizer_iff [IsStrictOrderedRing K] {N : Functions K}
    (h : u.Positive N.numberVars N.numberConstraints) {x : Nat → K} :
    (N.scaled u).Minimizer x ↔ N.Minimizer (raw (u.unscaleX x N.numberVars)) := by
  have objective (y y' : Nat → K) : (N.scaled u).f y ≤ (N.scaled u).f y' ↔
      N.f (raw (u.unscaleX y N.numberVars)) ≤ N.f (raw (u.unscaleX y' N.numberVars)) := by
    dsimp only [Functions.scaled]
    rw [u.scaleF_eq, u.scaleF_eq, div_le_div_iff_of_pos_right h.f]
  constructor
  · rintro ⟨hx, hle⟩
    refine ⟨(scaled_admissible_iff h).mp hx, fun y hy hay => ?_⟩
    -- every point of the NLP is one of the solver, unscaled
    let z := fill N.numberVars fun i => raw y i / u.xFactor i
    have hz : u.unscaleX (raw z) N.numberVars = y := by
      rw [u.unscaleX_eq, ← fill_raw y, hy]
      refine fill_congr fun i hi => ?_
      rw [raw_fill_lt _ hi, mul_div_cancel₀ _ (h.x i hi).ne']
    have ha : (N.scaled u).Admissible (raw z) := (scaled_admissible_iff h).mpr (by rwa [hz])
    have := (objective x (raw z)).mp (hle z (fill_length ..) ha)
    rwa [hz] at this
  · rintro ⟨hx, hle⟩
    refine ⟨(scaled_admissible_iff h).mpr hx, fun y hy hay => (objective x (raw y)).mpr ?_⟩
    refine hle _ ?_ ((scaled_admissible_iff h).mp hay)
    rw [u.unscaleX_eq, fill_length]

end Admissible

/-! ## Exact derivatives -/

section Exact

variable {N : Functions ℝ} (u : UserScaling ℝ)

theorem raw_unscaleX {n : Nat} (x : Fin n → ℝ) :
    raw (u.unscaleX (extend x) n) = extend (diag n u.xFactor x) := by
  funext i
  rw [u.unscaleX_eq, raw_fill]
  by_cases hi : i < n
  · simp only [extend, if_pos hi, dif_pos hi, diag_apply]
  · simp only [extend, if_neg hi, dif_neg hi]

theorem scaled_f (x : Fin N.numberVars → ℝ) :
    (N.scaled u).f (extend x) = u.fFactor⁻¹ * N.f (extend (diag _ u.xFactor x)) := by
  rw [← raw_unscaleX, ← div_eq_inv_mul]
  exact u.scaleF_eq _

theorem scaled_g (x : Fin N.numberVars → ℝ) {r : Nat} (hr : r < N.numberConstraints) :
    (N.scaled u).g (extend x) r =
      (u.gFactor r)⁻¹ * N.g (extend (diag _ u.xFactor x)) r := by
  rw [← raw_unscaleX, ← div_eq_inv_mul]
  exact (congrArg (raw · r) (u.scaleG_eq _ _)).trans (raw_fill_lt _ hr)

theorem scaled_gradF (x : Fin N.numberVars → ℝ) {c : Nat} (hc : c < N.numberVars) :
    (N.scaled u).gradF (extend x) c =
      u.xFactor c / u.fFactor * N.gradF (extend (diag _ u.xFactor x)) c := by
  rw [← raw_unscaleX]
  exact (congrArg (raw · c) (u.scaleGradF_eq _ _)).trans (raw_fill_lt _ hc)

theorem scaled_jacG (x : Fin N.numberVars → ℝ) {k : Nat} (hk : k < N.nnzJac) :
    (N.scaled u).jacG (extend x) k = u.xFactor (N.jac.col k) / u.gFactor (N.jac.row k) *
      N.jacG (extend (diag _ u.xFactor x)) k := by
  rw [← raw_unscaleX]
  exact (congrArg (raw · k) (u.scaleJac_eq _ _ _ _)).trans (raw_fill_lt _ hk)

theorem scaled_hesL (x : Fin N.numberVars → ℝ) (lambda : Nat → ℝ) (sigmaF : ℝ) {k : Nat}
    (hk : k < N.nnzHes) : (N.scaled u).hesL (extend x) lambda sigmaF k =
      u.xFactor (N.hes.row k) * u.xFactor (N.hes.col k) *
        N.hesL (extend (diag _ u.xFactor x)) (raw (u.scaleG lambda N.numberConstraints))
          (u.scaleF sigmaF) k := by
  rw [← raw_unscaleX]
  exact (congrArg (raw · k) (u.scaleHes_eq _ _ _ _)).trans (raw_fill_lt _ hk)

/-- Entries of a matrix, with factors that depend on row and column. -/
theorem coo_factors {nnz : Nat} {row col : Nat → Nat} {F : Nat → Nat → ℝ} {v w : Nat → ℝ}
    (h : ∀ k, k < nnz → w k = F (row k) (col k) * v k) (r c : Nat) :
    coo nnz row col w r c = F r c * coo nnz row col v r c := by
  rw [coo, coo, Finset.mul_sum]
  refine Finset.sum_congr rfl fun k hk => ?_
  rw [h k (Finset.mem_range.mp hk)]
  by_cases hc : row k = r ∧ col k = c
  · rw [if_pos hc, if_pos hc, hc.1, hc.2]
  · rw [if_neg hc, if_neg hc, mul_zero]

variable (hN : Exact N)

include hN

theorem hasFDerivAt_scaled_f (x : Fin N.numberVars → ℝ) :
    HasFDerivAt (fun y : Fin N.numberVars → ℝ => (N.scaled u).f (extend y))
      (form N.numberVars ((N.scaled u).gradF (extend x))) x := by
  simp only [scaled_f]
  refine (hasFDerivAt_mul _ (hasFDerivAt_diag u.xFactor (hN.gradF _))).congr_fderiv
    (form_congr fun c hc => ?_)
  rw [scaled_gradF u x hc]
  ring

theorem hasFDerivAt_scaled_g (x : Fin N.numberVars → ℝ) {r : Nat} (hr : r < N.numberConstraints) :
    HasFDerivAt (fun y : Fin N.numberVars → ℝ => (N.scaled u).g (extend y) r)
      (form N.numberVars
        (coo N.nnzJac N.jac.row N.jac.col ((N.scaled u).jacG (extend x)) r)) x := by
  simp only [scaled_g u _ hr]
  refine (hasFDerivAt_mul _ (hasFDerivAt_diag u.xFactor (hN.jacG _ r hr))).congr_fderiv
    (form_congr fun c _ => ?_)
  rw [coo_factors (F := fun r c => u.xFactor c / u.gFactor r) (fun k hk => scaled_jacG u x hk)]
  ring

/-- The Lagrangian of the scaled NLP is that of the NLP with unscaled multipliers, in scaled
variables. -/
theorem hasFDerivAt_scaled_lagrangian (x : Fin N.numberVars → ℝ) (lambda : Nat → ℝ) (sigmaF : ℝ) :
    ∃ L'' : (Fin N.numberVars → ℝ) →L[ℝ] (Fin N.numberVars → ℝ) →L[ℝ] ℝ,
      HasFDerivAt (fderiv ℝ fun y : Fin N.numberVars → ℝ => sigmaF * (N.scaled u).f (extend y) +
        ∑ r ∈ Finset.range N.numberConstraints, lambda r * (N.scaled u).g (extend y) r) L'' x ∧
      ∀ i j : Fin N.numberVars, j ≤ i →
        coo N.nnzHes N.hes.row N.hes.col ((N.scaled u).hesL (extend x) lambda sigmaF) i j =
          L'' (Pi.single i 1) (Pi.single j 1) := by
  let mu : Nat → ℝ := raw (u.scaleG lambda N.numberConstraints)
  have hmu : ∀ r, r < N.numberConstraints → mu r = lambda r / u.gFactor r := fun r hr =>
    (congrArg (raw · r) (u.scaleG_eq _ _)).trans (raw_fill_lt _ hr)
  let L : (Fin N.numberVars → ℝ) → ℝ := fun y => u.scaleF sigmaF * N.f (extend y) +
    ∑ r ∈ Finset.range N.numberConstraints, mu r * N.g (extend y) r
  have hL : (fun y : Fin N.numberVars → ℝ => sigmaF * (N.scaled u).f (extend y) +
      ∑ r ∈ Finset.range N.numberConstraints, lambda r * (N.scaled u).g (extend y) r) =
      fun y => L (diag _ u.xFactor y) := by
    funext y
    rw [scaled_f]
    refine congrArg₂ (· + ·) ?_ (Finset.sum_congr rfl fun r hr => ?_)
    · rw [u.scaleF_eq]
      ring
    · have hr := Finset.mem_range.mp hr
      rw [scaled_g u y hr, hmu r hr]
      ring
  have hd : Differentiable ℝ L := fun y =>
    (hasFDerivAt_add (hasFDerivAt_mul _ (hN.gradF y)) (hasFDerivAt_sum _ fun r hr =>
      hasFDerivAt_mul (mu r) (hN.jacG y r (Finset.mem_range.mp hr)))).differentiableAt
  obtain ⟨L'', h1, h2⟩ := hN.hesL (diag _ u.xFactor x) mu (u.scaleF sigmaF)
  obtain ⟨F'', h3, h4⟩ := hasFDerivAt_fderiv_diag u.xFactor hd h1
  refine ⟨F'', hL ▸ h3, fun i j hij => ?_⟩
  rw [h4, ← h2 i j hij]
  exact coo_factors (F := fun i j => u.xFactor i * u.xFactor j)
    (fun k hk => scaled_hesL u x lambda sigmaF hk) i j

theorem Exact.scaled : Exact (N.scaled u) where
  gradF := hasFDerivAt_scaled_f u hN
  jacG := fun x _ hr => hasFDerivAt_scaled_g u hN x hr
  hesL := hasFDerivAt_scaled_lagrangian u hN

end Exact

end NLP
end Moo
