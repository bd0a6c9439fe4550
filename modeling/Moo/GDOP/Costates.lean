import Moo.Base.StridedInterpolation
import Moo.GDOP.Lagrangian
import Moo.GDOP.Transcription

/-!
# GDOP.Costates

What `finalize_optimal_costates` returns are costates of the continuous problem.

* `Stationary`: the gradient of the Lagrangian of the program, from the gradient and the matrix that
  the evaluations assemble, vanishes.
* `Mesh.nodePolynomial`: the polynomial through the entries of a series at the nodes of an interval;
  `adjoint_sum` is the rule for the transposed differentiation matrix.
* `lagrangianGradient_index`: the gradient of the Lagrangian at each component, in terms of the
  series that are returned.
* `CostateEquations`, `costates_adjoint`: it vanishes exactly where the series solve the adjoint
  equations, with their end conditions and the conditions for controls and parameters.
-/

namespace Moo

open Loop FixedVector Mesh Polynomial Collocation

/-! ## Polynomials through the nodes -/

namespace Mesh

variable {K : Type} [Field K] [LinearOrder K] {T : FLGR K} (M : Mesh T) (series : List K)

/-- Through the entries at the nodes of interval `i`, not the one before it. -/
noncomputable def nodePolynomial (i : Nat) : K[X] :=
  stretch (M.gridAt i) (M.deltaTAt i)
    (interpolant (M.nodesAt i) (T.getC (M.nodesAt i)) fun j => raw series (M.accNodesAt i j + 1))

variable {M} [IsStrictOrderedRing K] (h : M.Ordered) (hT : ∀ p ∈ M.nodes, T.Radau p)
variable {i : Nat} (hi : i < M.intervals)

include hT hi

omit [IsStrictOrderedRing K] in
theorem nodes_injOn : Set.InjOn (T.getC (M.nodesAt i)) (Finset.range (M.nodesAt i)) := by
  have hp := hT _ (M.nodesAt_mem hi)
  intro j hj k hk e
  simp only [Finset.coe_range, Set.mem_Iio] at hj hk
  rw [← hp.nodes.succ j hj, ← hp.nodes.succ k hk] at e
  refine Nat.succ.inj (hp.injOn ?_ ?_ e) <;>
  · simp only [Finset.coe_range, Set.mem_Iio]
    omega

include h

theorem nodePolynomial_node {j : Nat} (hj : j < M.nodesAt i) :
    (M.nodePolynomial series i).eval (M.tAt i j) = raw series (M.accNodesAt i j + 1) := by
  rw [tAt_eq hi hj, nodePolynomial, stretch_eval (deltaTAt_pos h hi).ne',
    interpolant_eval (nodes_injOn hT hi) _ hj]

/-- A column of the transposed differentiation matrix, weighted by the quadrature: the derivative
with the opposite sign, and what it leaves at both ends of the interval. -/
theorem adjoint_sum {c : Nat} (hc : c < M.nodesAt i + 1) :
    ∑ j ∈ Finset.range (M.nodesAt i), T.getB (M.nodesAt i) j *
        (raw series (M.accNodesAt i j + 1) * T.getD (M.nodesAt i) (j + 1) c) =
      (if c = M.nodesAt i then (M.nodePolynomial series i).eval (M.gridAt (i + 1)) else 0) -
        if c = 0 then (M.nodePolynomial series i).eval (M.gridAt i)
        else T.getB (M.nodesAt i) (c - 1) * (M.deltaTAt i *
          (derivative (M.nodePolynomial series i)).eval (M.tAt i (c - 1))) := by
  have hp := hT _ (M.nodesAt_mem hi)
  have hd := (deltaTAt_pos h hi).ne'
  have hr := interpolant_degree (nodes_injOn hT hi) fun j => raw series (M.accNodesAt i j + 1)
  have ha := Differentiation.adjoint hp.differentiates hp.injOn hp.integrates hp.nodes.zero
    hp.nodes.succ hp.nodes.last hr hc
  have hend : M.gridAt (i + 1) = M.gridAt i + M.deltaTAt i := by rw [deltaTAt_eq hi, add_sub_cancel]
  calc ∑ j ∈ Finset.range (M.nodesAt i), T.getB (M.nodesAt i) j *
        (raw series (M.accNodesAt i j + 1) * T.getD (M.nodesAt i) (j + 1) c)
      = ∑ j ∈ Finset.range (M.nodesAt i), T.getB (M.nodesAt i) j * ((interpolant (M.nodesAt i)
          (T.getC (M.nodesAt i)) fun j => raw series (M.accNodesAt i j + 1)).eval
            (T.getC (M.nodesAt i) j) * T.getD (M.nodesAt i) (j + 1) c) := by
        refine Finset.sum_congr rfl fun j hj => ?_
        rw [interpolant_eval (nodes_injOn hT hi) _ (Finset.mem_range.mp hj)]
    _ = _ := ha
    _ = _ := by
        rw [hend, nodePolynomial, stretch_end hd, stretch_start hd]
        congr 1
        split
        · rfl
        · rw [tAt_eq hi (by omega), stretch_derivative hd]

end Mesh

namespace GDOP

open Segment

/-! ## The value at the start of the horizon -/

section AtZero

variable {K : Type} [Field K] [LinearOrder K] [IsStrictOrderedRing K] {T : FLGR K}
variable {mesh : MeshPtr T} (h : mesh.mesh.Ordered) (hT : ∀ p ∈ mesh.mesh.nodes, T.Radau p)
variable (hW : T.Tables (mesh.mesh.nodesAt 0) false)

include h hT hW

/-- What is extrapolated to `t = 0` is the polynomial of the first interval. -/
theorem valueAtZero_eq {v : Nat → K} {start stride : Nat} {series : List K}
    (hv : ∀ j, j < mesh.mesh.nodesAt 0 →
      v (start + stride * j) = raw series (mesh.mesh.accNodesAt 0 j + 1)) :
    valueAtZero mesh v start stride = (mesh.mesh.nodePolynomial series 0).eval 0 := by
  have hi := mesh.mesh.intervals_pos
  have hp0 := mesh.mesh.nodesAt_pos hi
  have hp := hT _ (mesh.mesh.nodesAt_mem hi)
  have hpc := hp.nodes.nodes hp0
  have hd := deltaTAt_pos h hi
  have hq : (mesh.mesh.nodePolynomial series 0).degree < (mesh.mesh.nodesAt 0 : Nat) :=
    stretch_degree (interpolant_degree (nodes_injOn hT hi) _)
  have hnode := fun j (hj : j < mesh.mesh.nodesAt 0) => nodePolynomial_node series h hT hi hj
  unfold valueAtZero
  rcases Nat.lt_or_eq_of_le (show 1 ≤ mesh.mesh.nodesAt 0 from hp0) with h2 | h1
  · have ht : ∀ j, j < mesh.mesh.nodesAt 0 →
        mesh.mesh.tAt 0 j = mesh.mesh.deltaTAt 0 * T.getC (mesh.mesh.nodesAt 0) j := fun j hj => by
      rw [tAt_eq hi hj, h.start, zero_add]
    have hgrid : mesh.mesh.gridAt 1 = mesh.mesh.deltaTAt 0 := by
      rw [deltaTAt_eq hi, h.start, sub_zero]
    have hlast := hpc.last
    have hc0 : T.getC (mesh.mesh.nodesAt 0) 0 < 1 := by
      rw [← hlast]
      exact hpc.increasing 0 _ (by omega) (by omega)
    have hne : 1 - T.getC (mesh.mesh.nodesAt 0) 0 ≠ 0 := (sub_pos.mpr hc0).ne'
    have hab : mesh.mesh.tAt 0 0 ≠ mesh.mesh.gridAt 1 := by
      rw [ht 0 hp0, hgrid]
      intro e
      exact hne (by rw [mul_right_eq_self₀.mp e |>.resolve_right hd.ne', sub_self])
    have hhat : T.pointHat (mesh.mesh.nodesAt 0) false (mesh.mesh.tAt 0 0) (mesh.mesh.gridAt 1) 0 =
        0 := by
      simp only [FLGR.pointHat, FLGR.nodesOf, FLGR.nodeCountOf, Bool.false_eq_true, if_false,
        Nat.add_zero, hlast, ht 0 hp0, hgrid]
      have hd' := hd.ne'
      field_simp
      ring
    have hbefore : ∀ j, j < FLGR.nodeCountOf (mesh.mesh.nodesAt 0) false →
        T.pointHat (mesh.mesh.nodesAt 0) false (mesh.mesh.tAt 0 0) (mesh.mesh.gridAt 1) 0 +
          FLGR.nodeTol ≤ T.nodesOf (mesh.mesh.nodesAt 0) false j := by
      intro j hj
      have hs := hp.nodes.separated 0 (j + 1) (Nat.succ_pos j) (Nat.succ_lt_succ hj)
      change FLGR.nodeTol ≤ |T.getC0 _ (j + 1) - T.getC0 _ 0| at hs
      rw [hp.nodes.zero, sub_zero, hp.nodes.succ j hj, abs_of_pos (hpc.mem hj).1] at hs
      rw [hhat, zero_add]
      exact hs
    rw [FLGR.strided_of_before _ _ _ _ _ hbefore]
    refine FLGR.interpolate_clear hp0 hW hab hq (fun j hj => ?_) fun j hj hlt => ?_
    · rw [FLGR.gathered, hv j hj, ← hnode j hj, ht j hj]
      simp only [FLGR.nodeTime, FLGR.nodesOf, FLGR.nodeCountOf, Bool.false_eq_true, if_false,
        Nat.add_zero, hlast, ht 0 hp0, hgrid]
      congr 1
      field_simp
      ring
    · have := hbefore j hj
      rw [abs_sub_comm] at hlt
      exact absurd ((le_sub_iff_add_le'.mpr this).trans (le_abs_self _)) (not_le.mpr hlt)
  · -- one node: a constant
    rw [← h1] at hq
    rw [FLGR.interpolate_eq, if_pos (.inr ⟨rfl, h1.symm⟩),
      FLGR.eval_eq_of_degree_lt_one hq 0 (mesh.mesh.tAt 0 0), hnode 0 hp0, ← hv 0 hp0, Nat.mul_zero]

end AtZero

/-! ## The collocation part -/

section Collocation

variable {K : Type} [Field K] {T : FLGR K} {P : Problem K} {M : Mesh T}

theorem stateAt_ok {i k c : Nat} (hi : i < M.intervals) (hk : k < P.pc.xSize)
    (hc : c < M.nodesAt i + 1) : (stateAt M i k c).Ok P M := by
  cases c with
  | succ c => exact ⟨hi, Nat.lt_of_succ_lt_succ hc, hk⟩
  | zero =>
    cases i with
    | zero => exact hk
    | succ i =>
      have hi' : i < M.intervals := Nat.lt_of_succ_lt hi
      have := M.nodesAt_pos hi'
      exact ⟨hi', Nat.sub_one_lt_of_lt this, hk⟩

/-- A row of the differentiation matrix, by the states it is applied to. -/
theorem collRow_index {i j k : Nat} (hi : i < M.intervals) (hk : k < P.pc.xSize) {v : Variable}
    (hv : v.Ok P M) : collRow T M (getSizes P M) i j k (unit (v.index (getSizes P M))) =
      ∑ c ∈ Finset.range (M.nodesAt i + 1),
        if stateAt M i k c = v then T.getD (M.nodesAt i) (j + 1) c else 0 := by
  have row : ∀ φ : Nat → K, collRow T M (getSizes P M) i j k φ =
      ∑ c ∈ Finset.range (M.nodesAt i + 1),
        T.getD (M.nodesAt i) (j + 1) c * φ ((stateAt M i k c).index (getSizes P M)) := by
    intro φ
    rw [collRow, Finset.sum_range_succ', stateAt_zero, add_comm]
    rfl
  rw [row]
  refine Finset.sum_congr rfl fun c hc => ?_
  rw [unit_index hv (stateAt_ok hi hk (Finset.mem_range.mp hc)), mul_ite, mul_one, mul_zero]

end Collocation

/-! ## The gradient of the Lagrangian -/

section Stationary

variable {K : Type} [Field K] [LinearOrder K] {T : FLGR K} (P : Problem K) (mesh : MeshPtr T)
variable (B : Buffers K)

/-- An entry of `∇f + Jᵀ λ - z_L + z_U`, with the gradient and the matrix of the evaluations. -/
def lagrangianGradient (rows cols : Nat → Nat) (lambda zLb zUb : Nat → K) (n : Nat) : K :=
  evalGradFInternal P mesh.mesh (getSizes P mesh.mesh) B n +
    ∑ r ∈ Finset.range (getSizes P mesh.mesh).numberConstraints,
      lambda r * jacMatrix P mesh.mesh B rows cols r n - zLb n + zUb n

/-- Stationarity, with the multipliers the solver hands over. -/
def Stationary (rows cols : Nat → Nat) (optLambda optZLb optZUb : List K) : Prop :=
  ∀ n, n < (getSizes P mesh.mesh).numberVars →
    lagrangianGradient P mesh B rows cols (raw optLambda) (raw optZLb) (raw optZUb) n = 0

variable (costates : CostateTrajectory T)

/-- The derivative of `Δt (L + λᵀ f) - μᵀ g` at a node, where `E` takes the derivative of each
function. -/
def nodeLagrangian (E : JacobianLFG → K) (i j : Nat) : K :=
  mesh.mesh.deltaTAt i * ((if P.pc.hasLagrange then E (lagrangeJac P) else 0) +
    ∑ f ∈ Finset.range P.pc.fSize,
      raw (costates.costatesF.getD f []) (mesh.mesh.accNodesAt i j + 1) * E (P.full.fAt f).jac) -
  ∑ g ∈ Finset.range P.pc.gSize,
    raw (costates.costatesG.getD g []) (mesh.mesh.accNodesAt i j + 1) * E (P.full.gAt g).jac

/-- The derivative of `M + νᵀ r`. -/
def boundaryLagrangian (E : JacobianMR → K) : K :=
  (if P.pc.hasMayer then E (mayerJac P) else 0) +
    ∑ r ∈ Finset.range P.pc.rSize, raw costates.costatesR r * E (P.boundary.rAt r).jac

end Stationary

/-! ## The multipliers, from the series -/

section Series

variable {K : Type} [Field K] [LinearOrder K] {T : FLGR K} {P : Problem K} {mesh : MeshPtr T}
variable (hb : ∀ i j, i < mesh.mesh.intervals → j < mesh.mesh.nodesAt i →
  T.getB (mesh.mesh.nodesAt i) j ≠ 0)
variable (optLambda optZ : List K)

theorem costatesF_getD {k : Nat} (hk : k < P.pc.fSize) :
    (finalizeOptimalCostates P mesh (getSizes P mesh.mesh) optLambda).costatesF.getD k [] =
      mesh.mesh.nodeSeries (valueAtZero mesh (transformDualsCostates P mesh (getSizes P mesh.mesh)
          true (raw optLambda)) k P.pc.fgSize)
        fun i j => transformDualsCostates P mesh (getSizes P mesh.mesh) true (raw optLambda)
          ((getSizes P mesh.mesh).offAccFg i j + k) := getD_map_range _ _ _ hk

section Nodes

variable {i j k : Nat} (hi : i < mesh.mesh.intervals) (hj : j < mesh.mesh.nodesAt i)

include hi hj

theorem costatesF_node (hk : k < P.pc.fSize) :
    raw ((finalizeOptimalCostates P mesh (getSizes P mesh.mesh) optLambda).costatesF.getD k [])
      (mesh.mesh.accNodesAt i j + 1) =
        transformDualsCostates P mesh (getSizes P mesh.mesh) true (raw optLambda)
          ((getSizes P mesh.mesh).offAccFg i j + k) := by
  rw [costatesF_getD optLambda hk]
  exact mesh.mesh.nodeSeries_node _ _ hi hj

theorem costatesG_node (hk : k < P.pc.gSize) :
    raw ((finalizeOptimalCostates P mesh (getSizes P mesh.mesh) optLambda).costatesG.getD k [])
      (mesh.mesh.accNodesAt i j + 1) =
        transformDualsCostates P mesh (getSizes P mesh.mesh) true (raw optLambda)
          ((getSizes P mesh.mesh).offAccFg i j + P.pc.fSize + k) := by
  have hs : (finalizeOptimalCostates P mesh (getSizes P mesh.mesh) optLambda).costatesG.getD k [] =
      mesh.mesh.nodeSeries (valueAtZero mesh (transformDualsCostates P mesh (getSizes P mesh.mesh)
          true (raw optLambda)) (P.pc.fSize + k) P.pc.fgSize)
        fun i j => transformDualsCostates P mesh (getSizes P mesh.mesh) true (raw optLambda)
          ((getSizes P mesh.mesh).offAccFg i j + P.pc.fSize + k) := getD_map_range _ _ _ hk
  rw [hs]
  exact mesh.mesh.nodeSeries_node _ _ hi hj

theorem boundDuals_x (hk : k < P.pc.xSize) :
    raw ((finalizeOptimalBoundDuals mesh (getSizes P mesh.mesh) optZ).x.getD k [])
      (mesh.mesh.accNodesAt i j + 1) =
        transformDualsCostatesBounds mesh (getSizes P mesh.mesh) true (raw optZ)
          ((getSizes P mesh.mesh).offAccXu i j + k) := by
  have hs : (finalizeOptimalBoundDuals mesh (getSizes P mesh.mesh) optZ).x.getD k [] =
      mesh.mesh.nodeSeries
        (transformDualsCostatesBounds mesh (getSizes P mesh.mesh) true (raw optZ) k)
        fun i j => transformDualsCostatesBounds mesh (getSizes P mesh.mesh) true (raw optZ)
          ((getSizes P mesh.mesh).offAccXu i j + k) := getD_map_range _ _ _ hk
  rw [hs]
  exact mesh.mesh.nodeSeries_node _ _ hi hj

theorem boundDuals_u (hk : k < P.pc.uSize) :
    raw ((finalizeOptimalBoundDuals mesh (getSizes P mesh.mesh) optZ).u.getD k [])
      (mesh.mesh.accNodesAt i j + 1) =
        transformDualsCostatesBounds mesh (getSizes P mesh.mesh) true (raw optZ)
          ((getSizes P mesh.mesh).offAccXu i j + (P.pc.xSize + k)) := by
  have hs : (finalizeOptimalBoundDuals mesh (getSizes P mesh.mesh) optZ).u.getD k [] =
      mesh.mesh.nodeSeries (valueAtZero mesh
          (transformDualsCostatesBounds mesh (getSizes P mesh.mesh) true (raw optZ))
          (2 * P.pc.xSize + k) P.pc.xuSize)
        fun i j => transformDualsCostatesBounds mesh (getSizes P mesh.mesh) true (raw optZ)
          ((getSizes P mesh.mesh).offAccXu i j + P.pc.xSize + k) := getD_map_range _ _ _ hk
  rw [hs, ← Nat.add_assoc]
  exact mesh.mesh.nodeSeries_node _ _ hi hj

variable {optLambda optZ}

include hb

omit [LinearOrder K] in
/-- A multiplier is minus the weight times what it is transformed to. -/
theorem dual_eq {offAcc : Nat → Nat → Nat} {base size y : Nat} {v : Nat → K}
    (hoff : ∀ i j, i < mesh.mesh.intervals → j < mesh.mesh.nodesAt i →
      offAcc i j = base + size * mesh.mesh.accNodesAt i j) (hy : y < size) :
    v (offAcc i j + y) = -(T.getB (mesh.mesh.nodesAt i) j *
      transformDuals mesh.mesh offAcc size true v (offAcc i j + y)) := by
  rw [(transformDuals_spec mesh.mesh hoff true v).2 i j y hi hj hy, if_pos rfl, ← neg_mul,
    mul_div_cancel₀ _ (neg_ne_zero.mpr (hb i j hi hj))]

theorem lambda_f (hk : k < P.pc.fSize) :
    raw optLambda ((getSizes P mesh.mesh).offAccFg i j + k) =
      -(T.getB (mesh.mesh.nodesAt i) j * raw ((finalizeOptimalCostates P mesh
        (getSizes P mesh.mesh) optLambda).costatesF.getD k []) (mesh.mesh.accNodesAt i j + 1)) := by
  rw [costatesF_node optLambda hi hj hk]
  exact dual_eq hb hi hj (offAccFg_blocks P mesh) (Nat.lt_add_right _ hk)

theorem lambda_g (hk : k < P.pc.gSize) :
    raw optLambda ((getSizes P mesh.mesh).offAccFg i j + P.pc.fSize + k) =
      -(T.getB (mesh.mesh.nodesAt i) j * raw ((finalizeOptimalCostates P mesh
        (getSizes P mesh.mesh) optLambda).costatesG.getD k []) (mesh.mesh.accNodesAt i j + 1)) := by
  rw [costatesG_node optLambda hi hj hk, Nat.add_assoc]
  exact dual_eq hb hi hj (offAccFg_blocks P mesh) (Nat.add_lt_add_left hk _)

theorem zeta_x (hk : k < P.pc.xSize) :
    raw optZ ((Variable.x i j k).index (getSizes P mesh.mesh)) =
      -(T.getB (mesh.mesh.nodesAt i) j * raw ((finalizeOptimalBoundDuals mesh
        (getSizes P mesh.mesh) optZ).x.getD k []) (mesh.mesh.accNodesAt i j + 1)) := by
  rw [boundDuals_x optZ hi hj hk]
  exact dual_eq hb hi hj (offAccXu_blocks P mesh) (Nat.lt_add_right _ hk)

theorem zeta_u (hk : k < P.pc.uSize) :
    raw optZ ((Variable.u i j k).index (getSizes P mesh.mesh)) =
      -(T.getB (mesh.mesh.nodesAt i) j * raw ((finalizeOptimalBoundDuals mesh
        (getSizes P mesh.mesh) optZ).u.getD k []) (mesh.mesh.accNodesAt i j + 1)) := by
  rw [boundDuals_u optZ hi hj hk, Variable.index_u, Nat.add_assoc, getSizes_offX]
  exact dual_eq hb hi hj (offAccXu_blocks P mesh) (Nat.add_lt_add_left hk _)

end Nodes

/-! What belongs to no node is not transformed. -/

section Static

variable {optLambda optZ} {k : Nat}

theorem lambda_r (hk : k < P.pc.rSize) :
    raw optLambda ((getSizes P mesh.mesh).offFgTotal + k) =
      raw (finalizeOptimalCostates P mesh (getSizes P mesh.mesh) optLambda).costatesR k := by
  have hs : raw (finalizeOptimalCostates P mesh (getSizes P mesh.mesh) optLambda).costatesR k =
      transformDualsCostates P mesh (getSizes P mesh.mesh) true (raw optLambda)
        ((getSizes P mesh.mesh).offFgTotal + k) := getD_map_range _ _ _ hk
  rw [hs]
  refine ((transformDuals_spec mesh.mesh (offAccFg_blocks P mesh) true _).1 _ (.inr ?_)).symm
  rw [getSizes_offFgTotal, Nat.zero_add, Nat.mul_comm]
  exact Nat.le_add_right _ _

theorem zeta_x0 (hk : k < P.pc.xSize) :
    raw optZ ((Variable.x0 k).index (getSizes P mesh.mesh)) =
      raw ((finalizeOptimalBoundDuals mesh (getSizes P mesh.mesh) optZ).x.getD k []) 0 := by
  have hs : (finalizeOptimalBoundDuals mesh (getSizes P mesh.mesh) optZ).x.getD k [] =
      mesh.mesh.nodeSeries
        (transformDualsCostatesBounds mesh (getSizes P mesh.mesh) true (raw optZ) k)
        fun i j => transformDualsCostatesBounds mesh (getSizes P mesh.mesh) true (raw optZ)
          ((getSizes P mesh.mesh).offAccXu i j + k) := getD_map_range _ _ _ hk
  rw [hs]
  refine Eq.trans ?_ (mesh.mesh.nodeSeries_zero _ _).symm
  exact ((transformDuals_spec mesh.mesh (offAccXu_blocks P mesh) true _).1 k (.inl hk)).symm

theorem zeta_p (hk : k < P.pc.pSize) :
    raw optZ ((Variable.p k).index (getSizes P mesh.mesh)) =
      raw (finalizeOptimalBoundDuals mesh (getSizes P mesh.mesh) optZ).p k := by
  have hs : raw (finalizeOptimalBoundDuals mesh (getSizes P mesh.mesh) optZ).p k =
      transformDualsCostatesBounds mesh (getSizes P mesh.mesh) true (raw optZ)
        ((getSizes P mesh.mesh).offXuTotal + k) := getD_map_range _ _ _ hk
  rw [hs]
  refine ((transformDuals_spec mesh.mesh (offAccXu_blocks P mesh) true _).1 _ (.inr ?_)).symm
  rw [Variable.index_p, getSizes_offXuTotal]
  exact Nat.le_add_right _ _

end Static

end Series

/-! ## The gradient of the Lagrangian, component by component -/

section Components

variable {K : Type} [Field K] [LinearOrder K] [IsStrictOrderedRing K] {T : FLGR K}
variable {P : Problem K} {mesh : MeshPtr T} {B : Buffers K}
variable (h : mesh.mesh.Ordered) (hT : ∀ p ∈ mesh.mesh.nodes, T.Radau p)
variable (hb : ∀ i j, i < mesh.mesh.intervals → j < mesh.mesh.nodesAt i →
  T.getB (mesh.mesh.nodesAt i) j ≠ 0)
variable (optLambda : List K)

/-- The costate of state `k` on interval `i`. -/
noncomputable def costateOn (costates : CostateTrajectory T) (mesh : MeshPtr T) (i k : Nat) :
    K[X] :=
  mesh.mesh.nodePolynomial (costates.costatesF.getD k []) i

/-- Column `c` of the transposed differentiation matrix of an interval, applied to a costate. -/
noncomputable def adjointTerm (costates : CostateTrajectory T) (mesh : MeshPtr T) (i k c : Nat) :
    K :=
  (if c = mesh.mesh.nodesAt i then
      (costateOn costates mesh i k).eval (mesh.mesh.gridAt (i + 1)) else 0) -
    if c = 0 then (costateOn costates mesh i k).eval (mesh.mesh.gridAt i)
    else T.getB (mesh.mesh.nodesAt i) (c - 1) * (mesh.mesh.deltaTAt i *
      (derivative (costateOn costates mesh i k)).eval (mesh.mesh.tAt i (c - 1)))

omit [LinearOrder K] [IsStrictOrderedRing K] in
theorem adjointTerm_zero {costates : CostateTrajectory T} {i k : Nat}
    (hi : i < mesh.mesh.intervals) : adjointTerm costates mesh i k 0 =
      -(costateOn costates mesh i k).eval (mesh.mesh.gridAt i) := by
  rw [adjointTerm, if_neg (mesh.mesh.nodesAt_pos hi).ne, if_pos rfl, zero_sub]

omit [LinearOrder K] [IsStrictOrderedRing K] in
theorem adjointTerm_succ (costates : CostateTrajectory T) (i j k : Nat) :
    adjointTerm costates mesh i k (j + 1) =
      (if j + 1 = mesh.mesh.nodesAt i then
        (costateOn costates mesh i k).eval (mesh.mesh.gridAt (i + 1)) else 0) -
      T.getB (mesh.mesh.nodesAt i) j * (mesh.mesh.deltaTAt i *
        (derivative (costateOn costates mesh i k)).eval (mesh.mesh.tAt i j)) := rfl

omit [LinearOrder K] [IsStrictOrderedRing K] in
theorem isLast_eq {i j : Nat} (hi : i < mesh.mesh.intervals) (hj : j < mesh.mesh.nodesAt i) :
    mesh.mesh.isLast i j =
      decide (i + 1 = mesh.mesh.intervals ∧ j + 1 = mesh.mesh.nodesAt i) := by
  rw [Bool.eq_iff_iff, decide_eq_true_eq, Mesh.isLast, Bool.and_eq_true, beq_iff_eq, beq_iff_eq]
  constructor
  · rintro ⟨rfl, hj'⟩
    omega
  · rintro ⟨hi', hj'⟩
    obtain rfl : i = mesh.mesh.intervals - 1 := by omega
    omega

/-- What the collocation contributes to the component `v`. -/
noncomputable def Variable.collocation (costates : CostateTrajectory T) (mesh : MeshPtr T) :
    Variable → K
  | .x0 k => -adjointTerm costates mesh 0 k 0
  | .x i j k => -adjointTerm costates mesh i k (j + 1) -
      if j + 1 = mesh.mesh.nodesAt i ∧ i + 1 < mesh.mesh.intervals then
        adjointTerm costates mesh (i + 1) k 0 else 0
  | .u _ _ _ => 0
  | .p _ => 0

include h hT hb

theorem collocation_rows {v : Variable} (hv : v.Ok P mesh.mesh) :
    ∑ i ∈ Finset.range mesh.mesh.intervals, ∑ j ∈ Finset.range (mesh.mesh.nodesAt i),
      ∑ f ∈ Finset.range P.pc.fSize, raw optLambda ((getSizes P mesh.mesh).offAccFg i j + f) *
        collRow T mesh.mesh (getSizes P mesh.mesh) i j f
          (unit (v.index (getSizes P mesh.mesh))) =
    -∑ i ∈ Finset.range mesh.mesh.intervals, ∑ f ∈ Finset.range P.pc.xSize,
      ∑ c ∈ Finset.range (mesh.mesh.nodesAt i + 1), if stateAt mesh.mesh i f c = v then
        adjointTerm (finalizeOptimalCostates P mesh (getSizes P mesh.mesh) optLambda) mesh i f c
        else 0 := by
  rw [← Finset.sum_neg_distrib]
  refine Finset.sum_congr rfl fun i hi => ?_
  have hi := Finset.mem_range.mp hi
  rw [Finset.sum_comm, ← Finset.sum_neg_distrib]
  refine Finset.sum_congr rfl fun f hf => ?_
  have hf := Finset.mem_range.mp hf
  calc ∑ j ∈ Finset.range (mesh.mesh.nodesAt i),
        raw optLambda ((getSizes P mesh.mesh).offAccFg i j + f) *
          collRow T mesh.mesh (getSizes P mesh.mesh) i j f (unit (v.index (getSizes P mesh.mesh)))
      = ∑ j ∈ Finset.range (mesh.mesh.nodesAt i),
          ∑ c ∈ Finset.range (mesh.mesh.nodesAt i + 1), -(if stateAt mesh.mesh i f c = v then
            T.getB (mesh.mesh.nodesAt i) j * (raw ((finalizeOptimalCostates P mesh
              (getSizes P mesh.mesh) optLambda).costatesF.getD f [])
                (mesh.mesh.accNodesAt i j + 1) *
                  T.getD (mesh.mesh.nodesAt i) (j + 1) c) else 0) := by
        refine Finset.sum_congr rfl fun j hj => ?_
        have hj := Finset.mem_range.mp hj
        rw [lambda_f hb hi hj hf, collRow_index hi hf hv, Finset.mul_sum]
        refine Finset.sum_congr rfl fun c _ => ?_
        split <;> ring
    _ = _ := by
        rw [Finset.sum_comm, ← Finset.sum_neg_distrib]
        refine Finset.sum_congr rfl fun c hc => ?_
        rw [Finset.sum_neg_distrib]
        refine congrArg Neg.neg ?_
        split
        · exact adjoint_sum _ h hT hi (Finset.mem_range.mp hc)
        · exact Finset.sum_const_zero

omit [LinearOrder K] [IsStrictOrderedRing K] h hT hb in
/-- Of the columns of all intervals those of the component matter: its own, and the first one of the
next interval. -/
theorem sum_stateAt {v : Variable} (hv : v.Ok P mesh.mesh) (costates : CostateTrajectory T) :
    -∑ i ∈ Finset.range mesh.mesh.intervals, ∑ f ∈ Finset.range P.pc.xSize,
      ∑ c ∈ Finset.range (mesh.mesh.nodesAt i + 1), (if stateAt mesh.mesh i f c = v then
        adjointTerm costates mesh i f c else 0) = v.collocation costates mesh := by
  have first : ∀ f, stateAt mesh.mesh 0 f 0 = .x0 f := fun _ => rfl
  have joint : ∀ i f, stateAt mesh.mesh (i + 1) f 0 = .x i (mesh.mesh.nodesAt i - 1) f :=
    fun _ _ => rfl
  have own : ∀ i f c, stateAt mesh.mesh i f (c + 1) = .x i c f := fun _ _ _ => rfl
  obtain ⟨n, hn⟩ : ∃ n, mesh.mesh.intervals = n + 1 :=
    ⟨mesh.mesh.intervals - 1, by have := mesh.mesh.intervals_pos; omega⟩
  simp only [Finset.sum_range_succ' _ (mesh.mesh.nodesAt _), Finset.sum_add_distrib, own]
  rw [hn, Finset.sum_range_succ' (fun i => ∑ f ∈ Finset.range P.pc.xSize,
    if stateAt mesh.mesh i f 0 = v then _ else _)]
  simp only [first, joint]
  cases v with
  | p k => simp [Variable.collocation]
  | u i j k => simp [Variable.collocation]
  | x0 k =>
    have hk : k < P.pc.xSize := hv
    simp [Variable.collocation, hk]
  | x i j k =>
    obtain ⟨hi, hj, hk⟩ := hv
    have hlast : mesh.mesh.nodesAt i - 1 = j ↔ j + 1 = mesh.mesh.nodesAt i := by omega
    have hin : i ≤ n := by omega
    by_cases h1 : j + 1 = mesh.mesh.nodesAt i <;> by_cases h2 : i < n <;>
      simp [Variable.collocation, ite_and, hn, hk, hj, hin, hlast, h1, h2, sub_eq_add_neg, add_comm]

variable (hP : JacobianLayoutOk P) (hL : JacobianLFGOk P.pc (lagrangeJac P))
variable (hM : JacobianMROk P.pc (mayerJac P)) (rows cols : Nat → Nat) (zLb zUb : Nat → K)

include hP hL hM

theorem lagrangianGradient_index {v : Variable} (hv : v.Ok P mesh.mesh) :
    let costates := finalizeOptimalCostates P mesh (getSizes P mesh.mesh) optLambda
    lagrangianGradient P mesh B rows cols (raw optLambda) zLb zUb
        (v.index (getSizes P mesh.mesh)) =
      v.collocation costates mesh +
        ∑ i ∈ Finset.range mesh.mesh.intervals, ∑ j ∈ Finset.range (mesh.mesh.nodesAt i),
          T.getB (mesh.mesh.nodesAt i) j * nodeLagrangian P mesh costates
            (fun jac => v.nodeEntry jac i j fun b => lfgJac P mesh.mesh B b i j) i j +
        boundaryLagrangian P costates (fun jac => v.boundaryEntry mesh.mesh B jac) -
        zLb (v.index (getSizes P mesh.mesh)) + zUb (v.index (getSizes P mesh.mesh)) := by
  intro costates
  -- what a node adds, besides the collocation
  have node : ∀ i, i < mesh.mesh.intervals → ∀ j, j < mesh.mesh.nodesAt i →
      (if P.pc.hasLagrange then nodeWeight mesh.mesh i j *
          lfgRow P mesh.mesh (getSizes P mesh.mesh) B (lagrangeJac P) i j
            (unit (v.index (getSizes P mesh.mesh))) else 0) +
        (∑ f ∈ Finset.range P.pc.fSize, -(raw optLambda ((getSizes P mesh.mesh).offAccFg i j + f) *
            (mesh.mesh.deltaTAt i * lfgRow P mesh.mesh (getSizes P mesh.mesh) B
              (P.full.fAt f).jac i j (unit (v.index (getSizes P mesh.mesh))))) +
          ∑ g ∈ Finset.range P.pc.gSize,
            raw optLambda ((getSizes P mesh.mesh).offAccFg i j + P.pc.fSize + g) *
              lfgRow P mesh.mesh (getSizes P mesh.mesh) B (P.full.gAt g).jac i j
                (unit (v.index (getSizes P mesh.mesh)))) =
        T.getB (mesh.mesh.nodesAt i) j * nodeLagrangian P mesh costates
          (fun jac => v.nodeEntry jac i j fun b => lfgJac P mesh.mesh B b i j) i j := by
    intro i hi j hj
    have hf : ∀ f ∈ Finset.range P.pc.fSize,
        -(raw optLambda ((getSizes P mesh.mesh).offAccFg i j + f) * (mesh.mesh.deltaTAt i *
          lfgRow P mesh.mesh (getSizes P mesh.mesh) B (P.full.fAt f).jac i j
            (unit (v.index (getSizes P mesh.mesh))))) =
        T.getB (mesh.mesh.nodesAt i) j * (mesh.mesh.deltaTAt i *
          (raw (costates.costatesF.getD f []) (mesh.mesh.accNodesAt i j + 1) *
            v.nodeEntry (P.full.fAt f).jac i j fun b => lfgJac P mesh.mesh B b i j)) := by
      intro f hf
      have hf := Finset.mem_range.mp hf
      rw [lambda_f hb hi hj hf, lfgRow_index (hP.fAt hf) hi hj hv]
      ring
    have hg : ∀ g ∈ Finset.range P.pc.gSize,
        raw optLambda ((getSizes P mesh.mesh).offAccFg i j + P.pc.fSize + g) *
          lfgRow P mesh.mesh (getSizes P mesh.mesh) B (P.full.gAt g).jac i j
            (unit (v.index (getSizes P mesh.mesh))) =
        -(T.getB (mesh.mesh.nodesAt i) j *
          (raw (costates.costatesG.getD g []) (mesh.mesh.accNodesAt i j + 1) *
            v.nodeEntry (P.full.gAt g).jac i j fun b => lfgJac P mesh.mesh B b i j)) := by
      intro g hg
      have hg := Finset.mem_range.mp hg
      rw [lambda_g hb hi hj hg, lfgRow_index (hP.gAt hg) hi hj hv]
      ring
    rw [Finset.sum_congr rfl hf, Finset.sum_congr rfl hg, lfgRow_index hL hi hj hv,
      Finset.sum_neg_distrib, ← Finset.mul_sum, ← Finset.mul_sum, ← Finset.mul_sum,
      nodeLagrangian, nodeWeight]
    split <;> ring
  have rest : ∑ r ∈ Finset.range P.pc.rSize, raw optLambda ((getSizes P mesh.mesh).offFgTotal + r) *
        mrRow (getSizes P mesh.mesh) B (P.boundary.rAt r).jac
          (unit (v.index (getSizes P mesh.mesh))) =
      ∑ r ∈ Finset.range P.pc.rSize, raw costates.costatesR r *
        v.boundaryEntry mesh.mesh B (P.boundary.rAt r).jac := by
    refine Finset.sum_congr rfl fun r hr => ?_
    have hr := Finset.mem_range.mp hr
    rw [lambda_r hr, mrRow_index (hP.rAt hr) hv]
  have lagrange : (if P.pc.hasLagrange then
        ∑ i ∈ Finset.range mesh.mesh.intervals, ∑ j ∈ Finset.range (mesh.mesh.nodesAt i),
          nodeWeight mesh.mesh i j * lfgRow P mesh.mesh (getSizes P mesh.mesh) B (lagrangeJac P) i j
            (unit (v.index (getSizes P mesh.mesh))) else 0) =
      ∑ i ∈ Finset.range mesh.mesh.intervals, ∑ j ∈ Finset.range (mesh.mesh.nodesAt i),
        if P.pc.hasLagrange then nodeWeight mesh.mesh i j *
          lfgRow P mesh.mesh (getSizes P mesh.mesh) B (lagrangeJac P) i j
            (unit (v.index (getSizes P mesh.mesh))) else 0 := by
    split <;> simp
  rw [lagrangianGradient, evalGradFInternal_eq P mesh.mesh B hL, gradRow, lagrange,
    transposed_sum P mesh.mesh B hP, rest, mrRow_index hM hv, ← sum_stateAt hv,
    ← collocation_rows h hT hb optLambda hv, boundaryLagrangian,
    ← Finset.sum_congr rfl fun i hi => Finset.sum_congr rfl fun j hj =>
      node i (Finset.mem_range.mp hi) j (Finset.mem_range.mp hj)]
  simp only [mul_sub, Finset.sum_add_distrib, Finset.sum_sub_distrib, Finset.sum_neg_distrib]
  ring

end Components

/-! ## The adjoint equations -/

section Equations

variable {K : Type} [Field K] [LinearOrder K] {T : FLGR K} (P : Problem K) (mesh : MeshPtr T)
variable (B : Buffers K) (costates : CostateTrajectory T) (lower upper : Trajectory T)

/-- The derivative of `Δt (L + λᵀ f) - μᵀ g` by variable `k` of one kind. -/
def nodePartial (part : JacobianLFG → List JacobianSparsity) (i j k : Nat) : K :=
  nodeLagrangian P mesh costates
    (fun jac => partialAt (part jac) (fun b => lfgJac P mesh.mesh B b i j) k) i j

/-- The derivative of `M + νᵀ r` by variable `k` of one kind. -/
def boundaryPartial (part : JacobianMR → List JacobianSparsity) (k : Nat) : K :=
  boundaryLagrangian P costates fun jac => partialAt (part jac) (mrJac B) k

/-- `Δt (λ' + H_x) - μᵀ g_x + ζ_L - ζ_U` for state `k` at node `(i, j)`. -/
noncomputable def adjointResidual (i j k : Nat) : K :=
  mesh.mesh.deltaTAt i * (derivative (costateOn costates mesh i k)).eval (mesh.mesh.tAt i j) +
    nodePartial P mesh B costates JacobianLFG.dx i j k +
    raw (lower.x.getD k []) (mesh.mesh.accNodesAt i j + 1) -
    raw (upper.x.getD k []) (mesh.mesh.accNodesAt i j + 1)

/-- `Δt H_u - μᵀ g_u + ζ_L - ζ_U` for control `k` at node `(i, j)`. -/
def controlResidual (i j k : Nat) : K :=
  nodePartial P mesh B costates JacobianLFG.du i j k +
    raw (lower.u.getD k []) (mesh.mesh.accNodesAt i j + 1) -
    raw (upper.u.getD k []) (mesh.mesh.accNodesAt i j + 1)

/-- The costates solve the adjoint differential equation at the inner nodes. At the last node of an
interval, the weighted residual is the jump to the next interval, and at the end of the horizon what
the transversality condition leaves. -/
structure CostateEquations : Prop where
  inner : ∀ i j k, i < mesh.mesh.intervals → j + 1 < mesh.mesh.nodesAt i → k < P.pc.xSize →
    adjointResidual P mesh B costates lower upper i j k = 0
  joint : ∀ i j k, i + 1 < mesh.mesh.intervals → j + 1 = mesh.mesh.nodesAt i → k < P.pc.xSize →
    T.getB (mesh.mesh.nodesAt i) j * adjointResidual P mesh B costates lower upper i j k =
      (costateOn costates mesh i k).eval (mesh.mesh.gridAt (i + 1)) -
        (costateOn costates mesh (i + 1) k).eval (mesh.mesh.gridAt (i + 1))
  final : ∀ i j k, i + 1 = mesh.mesh.intervals → j + 1 = mesh.mesh.nodesAt i → k < P.pc.xSize →
    T.getB (mesh.mesh.nodesAt i) j * adjointResidual P mesh B costates lower upper i j k =
      (costateOn costates mesh i k).eval mesh.mesh.tf -
        boundaryPartial P B costates JacobianMR.dxf k
  initial : ∀ k, k < P.pc.xSize → raw (costates.costatesF.getD k []) 0 =
    raw (lower.x.getD k []) 0 - raw (upper.x.getD k []) 0 -
      boundaryPartial P B costates JacobianMR.dx0 k
  control : ∀ i j k, i < mesh.mesh.intervals → j < mesh.mesh.nodesAt i → k < P.pc.uSize →
    T.getB (mesh.mesh.nodesAt i) j * controlResidual P mesh B costates lower upper i j k +
      (if mesh.mesh.isLast i j then boundaryPartial P B costates JacobianMR.duf k else 0) = 0
  parameter : ∀ k, k < P.pc.pSize →
    ∑ i ∈ Finset.range mesh.mesh.intervals, ∑ j ∈ Finset.range (mesh.mesh.nodesAt i),
      T.getB (mesh.mesh.nodesAt i) j * nodePartial P mesh B costates JacobianLFG.dp i j k +
      boundaryPartial P B costates JacobianMR.dp k - raw lower.p k + raw upper.p k = 0

section Sums

variable {P mesh B costates}

omit [LinearOrder K] in
@[simp] theorem nodeLagrangian_zero (i j : Nat) :
    nodeLagrangian P mesh costates (fun _ => 0) i j = 0 := by simp [nodeLagrangian]

omit [LinearOrder K] in
@[simp] theorem boundaryLagrangian_zero : boundaryLagrangian P costates (fun _ => 0) = 0 := by
  simp [boundaryLagrangian]

omit [LinearOrder K] in
/-- A variable of one node occurs at this node only. -/
theorem sum_node {i j : Nat} (hi : i < mesh.mesh.intervals) (hj : j < mesh.mesh.nodesAt i)
    (E : Nat → Nat → JacobianLFG → K) :
    ∑ i' ∈ Finset.range mesh.mesh.intervals, ∑ j' ∈ Finset.range (mesh.mesh.nodesAt i'),
      T.getB (mesh.mesh.nodesAt i') j' * nodeLagrangian P mesh costates
        (fun jac => if i' = i ∧ j' = j then E i' j' jac else 0) i' j' =
      T.getB (mesh.mesh.nodesAt i) j * nodeLagrangian P mesh costates (E i j) i j := by
  rw [Finset.sum_eq_single_of_mem i (Finset.mem_range.mpr hi),
    Finset.sum_eq_single_of_mem j (Finset.mem_range.mpr hj)]
  · simp
  · intro j' _ hne
    simp [hne]
  · intro i' _ hne
    simp [hne]

omit [LinearOrder K] in
theorem boundaryLagrangian_ite (b : Bool) (E : JacobianMR → K) :
    boundaryLagrangian P costates (fun jac => if b then E jac else 0) =
      if b then boundaryLagrangian P costates E else 0 := by
  cases b <;> simp

end Sums

end Equations

section Costates

variable {K : Type} [Field K] [LinearOrder K] [IsStrictOrderedRing K] {T : FLGR K}
variable {P : Problem K} {mesh : MeshPtr T} {B : Buffers K}
variable (h : mesh.mesh.Ordered) (hT : ∀ p ∈ mesh.mesh.nodes, T.Radau p)
variable (hb : ∀ i j, i < mesh.mesh.intervals → j < mesh.mesh.nodesAt i →
  T.getB (mesh.mesh.nodesAt i) j ≠ 0)
variable (hP : JacobianLayoutOk P) (hL : JacobianLFGOk P.pc (lagrangeJac P))
variable (hM : JacobianMROk P.pc (mayerJac P)) (rows cols : Nat → Nat)
variable (optLambda optZLb optZUb : List K)

include h hT hb hP hL hM

theorem lagrangianGradient_x {i j k : Nat} (hv : (Variable.x i j k).Ok P mesh.mesh) :
    let costates := finalizeOptimalCostates P mesh (getSizes P mesh.mesh) optLambda
    lagrangianGradient P mesh B rows cols (raw optLambda) (raw optZLb) (raw optZUb)
        ((Variable.x i j k).index (getSizes P mesh.mesh)) =
      T.getB (mesh.mesh.nodesAt i) j * adjointResidual P mesh B costates
        (finalizeOptimalBoundDuals mesh (getSizes P mesh.mesh) optZLb)
        (finalizeOptimalBoundDuals mesh (getSizes P mesh.mesh) optZUb) i j k -
      (if j + 1 = mesh.mesh.nodesAt i then
        (costateOn costates mesh i k).eval (mesh.mesh.gridAt (i + 1)) -
          if i + 1 < mesh.mesh.intervals then
            (costateOn costates mesh (i + 1) k).eval (mesh.mesh.gridAt (i + 1))
          else boundaryPartial P B costates JacobianMR.dxf k
      else 0) := by
  intro costates
  obtain ⟨hi, hj, hk⟩ := id hv
  rw [lagrangianGradient_index h hT hb optLambda hP hL hM rows cols _ _ hv, zeta_x hb hi hj hk,
    zeta_x hb hi hj hk]
  simp only [Variable.nodeEntry, Variable.boundaryEntry, boundaryLagrangian_ite]
  rw [sum_node hi hj fun i j jac => partialAt jac.dx (fun b => lfgJac P mesh.mesh B b i j) k,
    Variable.collocation, adjointTerm_succ, isLast_eq hi hj, adjointResidual, nodePartial]
  by_cases hlast : j + 1 = mesh.mesh.nodesAt i
  · by_cases hnext : i + 1 < mesh.mesh.intervals
    · simp only [hlast, hnext, hnext.ne, and_self, and_true, decide_false, if_true, if_false,
        Bool.false_eq_true, adjointTerm_zero hnext]
      ring
    · have hend : i + 1 = mesh.mesh.intervals := by omega
      simp only [hlast, hend, lt_irrefl, and_self, and_false, decide_true, if_true, if_false,
        boundaryPartial]
      ring
  · simp only [hlast, false_and, and_false, decide_false, if_false, Bool.false_eq_true]
    ring

theorem lagrangianGradient_x0 {k : Nat} (hk : k < P.pc.xSize) :
    let costates := finalizeOptimalCostates P mesh (getSizes P mesh.mesh) optLambda
    lagrangianGradient P mesh B rows cols (raw optLambda) (raw optZLb) (raw optZUb)
        ((Variable.x0 k).index (getSizes P mesh.mesh)) =
      (costateOn costates mesh 0 k).eval 0 + boundaryPartial P B costates JacobianMR.dx0 k -
        raw ((finalizeOptimalBoundDuals mesh (getSizes P mesh.mesh) optZLb).x.getD k []) 0 +
        raw ((finalizeOptimalBoundDuals mesh (getSizes P mesh.mesh) optZUb).x.getD k []) 0 := by
  intro costates
  have hv : (Variable.x0 k).Ok P mesh.mesh := hk
  rw [lagrangianGradient_index h hT hb optLambda hP hL hM rows cols _ _ hv, zeta_x0 hk, zeta_x0 hk]
  simp only [Variable.nodeEntry, Variable.boundaryEntry, nodeLagrangian_zero, mul_zero,
    Finset.sum_const_zero, add_zero]
  rw [Variable.collocation, adjointTerm_zero mesh.mesh.intervals_pos, neg_neg, h.start]
  rfl

theorem lagrangianGradient_u {i j k : Nat} (hv : (Variable.u i j k).Ok P mesh.mesh) :
    let costates := finalizeOptimalCostates P mesh (getSizes P mesh.mesh) optLambda
    lagrangianGradient P mesh B rows cols (raw optLambda) (raw optZLb) (raw optZUb)
        ((Variable.u i j k).index (getSizes P mesh.mesh)) =
      T.getB (mesh.mesh.nodesAt i) j * controlResidual P mesh B costates
        (finalizeOptimalBoundDuals mesh (getSizes P mesh.mesh) optZLb)
        (finalizeOptimalBoundDuals mesh (getSizes P mesh.mesh) optZUb) i j k +
      if mesh.mesh.isLast i j then boundaryPartial P B costates JacobianMR.duf k else 0 := by
  intro costates
  obtain ⟨hi, hj, hk⟩ := id hv
  rw [lagrangianGradient_index h hT hb optLambda hP hL hM rows cols _ _ hv, zeta_u hb hi hj hk,
    zeta_u hb hi hj hk]
  simp only [Variable.nodeEntry, Variable.boundaryEntry, boundaryLagrangian_ite]
  rw [sum_node hi hj fun i j jac => partialAt jac.du (fun b => lfgJac P mesh.mesh B b i j) k,
    Variable.collocation, controlResidual, nodePartial, boundaryPartial]
  ring

theorem lagrangianGradient_p {k : Nat} (hk : k < P.pc.pSize) :
    let costates := finalizeOptimalCostates P mesh (getSizes P mesh.mesh) optLambda
    lagrangianGradient P mesh B rows cols (raw optLambda) (raw optZLb) (raw optZUb)
        ((Variable.p k).index (getSizes P mesh.mesh)) =
      ∑ i ∈ Finset.range mesh.mesh.intervals, ∑ j ∈ Finset.range (mesh.mesh.nodesAt i),
        T.getB (mesh.mesh.nodesAt i) j * nodePartial P mesh B costates JacobianLFG.dp i j k +
        boundaryPartial P B costates JacobianMR.dp k -
        raw (finalizeOptimalBoundDuals mesh (getSizes P mesh.mesh) optZLb).p k +
        raw (finalizeOptimalBoundDuals mesh (getSizes P mesh.mesh) optZUb).p k := by
  intro costates
  have hv : (Variable.p k).Ok P mesh.mesh := hk
  rw [lagrangianGradient_index h hT hb optLambda hP hL hM rows cols _ _ hv, zeta_p hk, zeta_p hk,
    Variable.collocation, zero_add]
  rfl

omit hb hP hL hM in
theorem costatesF_zero (hW : T.Tables (mesh.mesh.nodesAt 0) false) {k : Nat}
    (hk : k < P.pc.xSize) :
    let costates := finalizeOptimalCostates P mesh (getSizes P mesh.mesh) optLambda
    raw (costates.costatesF.getD k []) 0 = (costateOn costates mesh 0 k).eval 0 := by
  intro costates
  have hi := mesh.mesh.intervals_pos
  have hz : raw (costates.costatesF.getD k []) 0 = valueAtZero mesh (transformDualsCostates P mesh
      (getSizes P mesh.mesh) true (raw optLambda)) k P.pc.fgSize := by
    rw [costatesF_getD optLambda hk]
    exact mesh.mesh.nodeSeries_zero _ _
  rw [hz]
  refine valueAtZero_eq h hT hW fun j hj => ?_
  rw [costatesF_node optLambda hi hj hk, getSizes_offAccFg P mesh.mesh hi hj,
    mesh.mesh.accNodesAt_eq hi hj, mesh.mesh.nodesBefore_zero, Nat.zero_add]
  exact congrArg _ (by rw [Nat.mul_comm, Nat.add_comm])

/-- The multipliers of the program are stationary exactly where the series that are returned solve
the adjoint equations of the continuous problem. -/
theorem costates_adjoint (hW : T.Tables (mesh.mesh.nodesAt 0) false) :
    Stationary P mesh B rows cols optLambda optZLb optZUb ↔
      CostateEquations P mesh B (finalizeOptimalCostates P mesh (getSizes P mesh.mesh) optLambda)
        (finalizeOptimalBoundDuals mesh (getSizes P mesh.mesh) optZLb)
        (finalizeOptimalBoundDuals mesh (getSizes P mesh.mesh) optZUb) := by
  have hx := fun {i j k} => lagrangianGradient_x (i := i) (j := j) (k := k) h hT hb hP hL hM rows
    cols optLambda optZLb optZUb (B := B)
  have hend : mesh.mesh.gridAt mesh.mesh.intervals = mesh.mesh.tf := mesh.mesh.tf_eq
  constructor
  · intro hs
    have at_index {v : Variable} (ok : v.Ok P mesh.mesh) := hs _ (Variable.index_lt ok)
    constructor
    · intro i j k hi hj hk
      have hz := at_index (v := .x i j k) ⟨hi, by omega, hk⟩
      rw [hx ⟨hi, by omega, hk⟩, if_neg hj.ne, sub_zero, mul_eq_zero] at hz
      exact hz.resolve_left (hb i j hi (by omega))
    · intro i j k hi hj hk
      have hz := at_index (v := .x i j k) ⟨by omega, by omega, hk⟩
      rwa [hx ⟨by omega, by omega, hk⟩, if_pos hj, if_pos hi, sub_eq_zero] at hz
    · intro i j k hi hj hk
      have hz := at_index (v := .x i j k) ⟨by omega, by omega, hk⟩
      rwa [hx ⟨by omega, by omega, hk⟩, if_pos hj, if_neg (by omega), sub_eq_zero, hi, hend] at hz
    · intro k hk
      have hz := at_index (v := .x0 k) hk
      rw [lagrangianGradient_x0 h hT hb hP hL hM rows cols _ _ _ hk,
        ← costatesF_zero h hT optLambda hW hk] at hz
      linear_combination hz
    · intro i j k hi hj hk
      have hz := at_index (v := .u i j k) ⟨hi, hj, hk⟩
      rwa [lagrangianGradient_u h hT hb hP hL hM rows cols _ _ _ ⟨hi, hj, hk⟩] at hz
    · intro k hk
      have hz := at_index (v := .p k) hk
      rwa [lagrangianGradient_p h hT hb hP hL hM rows cols _ _ _ hk] at hz
  · intro he n hn
    obtain ⟨v, ok, rfl⟩ := Variable.exists_index hn
    cases v with
    | x0 k =>
      rw [lagrangianGradient_x0 h hT hb hP hL hM rows cols _ _ _ ok,
        ← costatesF_zero h hT optLambda hW ok, he.initial k ok]
      ring
    | x i j k =>
      obtain ⟨hi, hj, hk⟩ := id ok
      rw [hx ok]
      by_cases hlast : j + 1 = mesh.mesh.nodesAt i
      · rw [if_pos hlast, sub_eq_zero]
        by_cases hnext : i + 1 < mesh.mesh.intervals
        · rw [if_pos hnext]
          exact he.joint i j k hnext hlast hk
        · have hi' : i + 1 = mesh.mesh.intervals := by omega
          rw [if_neg hnext, hi', hend]
          exact he.final i j k hi' hlast hk
      · rw [if_neg hlast, sub_zero, he.inner i j k hi (by omega) hk, mul_zero]
    | u i j k =>
      rw [lagrangianGradient_u h hT hb hP hL hM rows cols _ _ _ ok]
      exact he.control i j k ok.1 ok.2.1 ok.2.2
    | p k =>
      rw [lagrangianGradient_p h hT hb hP hL hM rows cols _ _ _ ok]
      exact he.parameter k ok

end Costates

/-- `L = 2 x` and `M = x(3)` for a state whose derivative does not depend on it. -/
def descent : Problem ℚ where
  pc := { hasMayer := true, hasLagrange := true, xBounds := [⟨0, 9⟩], uBounds := [], pBounds := []
          x0Fixed := [some 1], xfFixed := [none], rBounds := [], gBounds := [] }
  full := { L := some { jac := { dx := [⟨0, 0⟩] } }, f := [{ bufIndex := 1 }], g := [] }
  boundary := { M := some { jac := { dxf := [⟨0, 0⟩] } }, r := [] }
  f_length := by decide
  g_length := by decide
  r_length := by decide

theorem descent_columns (n : Nat) : ColumnsOk n [] := ⟨by simp, List.nodup_nil⟩

theorem descent_jacobian : JacobianLayoutOk descent := by
  refine ⟨fun fn hfn => ?_, by simp [descent], by simp [descent], fun fn hfn => ?_⟩
  · rw [List.mem_singleton.mp hfn]
    exact ⟨descent_columns _, descent_columns _, descent_columns _⟩
  · rw [List.mem_singleton.mp hfn]
    exact List.Pairwise.nil

theorem descent_lagrange : JacobianLFGOk descent.pc (lagrangeJac descent) :=
  ⟨⟨by decide, by decide⟩, descent_columns _, descent_columns _⟩

theorem descent_mayer : JacobianMROk descent.pc (mayerJac descent) :=
  ⟨descent_columns _, ⟨by decide, by decide⟩, descent_columns _, descent_columns _⟩

theorem unevenMesh_weights {i j : Nat} (hi : i < unevenMesh.mesh.intervals)
    (hj : j < unevenMesh.mesh.nodesAt i) : radauTwo.getB (unevenMesh.mesh.nodesAt i) j ≠ 0 := by
  have h : ∀ i < unevenMesh.mesh.intervals, ∀ j < unevenMesh.mesh.nodesAt i,
      radauTwo.getB (unevenMesh.mesh.nodesAt i) j ≠ 0 := by decide +kernel
  exact h i hi j hj

/-- The costate `1 + 2 (3 - t)` at the nodes of the second interval, and the `7` at which a constant
can arrive before it, weighted. -/
theorem costates_adjoint_descent : CostateEquations descent unevenMesh
    { Buffers.zero with jac := fun _ => 2, mrJac := fun _ => 1 }
    (finalizeOptimalCostates descent unevenMesh (getSizes descent unevenMesh.mesh)
      [-7, -11 / 4, -1 / 4])
    (finalizeOptimalBoundDuals unevenMesh (getSizes descent unevenMesh.mesh) [7, 0, 0, 0])
    (finalizeOptimalBoundDuals unevenMesh (getSizes descent unevenMesh.mesh) [0, 0, 0, 0]) := by
  refine (costates_adjoint unevenMesh_ordered unevenMesh_radau (fun _ _ => unevenMesh_weights)
    descent_jacobian descent_lagrange descent_mayer id id _ _ _
    (FLGR.radauTwo_tables (.inl rfl) false)).mp ?_
  unfold Stationary
  decide +kernel

end GDOP
end Moo
