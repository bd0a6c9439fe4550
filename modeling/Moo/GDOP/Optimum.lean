import Moo.GDOP.Costates
import Moo.GDOP.SolverView
import Moo.GDOP.WarmStart
import Moo.NLP.Kkt

/-!
# GDOP.Optimum

From a point of the solver to a solution of the optimal control problem.

* `nlp_admissible_iff`, `nlp_stationary_iff`: the bounds and the stationarity of the NLP are those
  of the program of the mesh.
* `Collocates`, `Optimal`: unknowns whose trajectory solves the collocated problem, and does so at
  the least cost.
* `finalized`: what `finalizeSolution` makes of the vectors a solver hands over.
* `optimum`: after every run that sets its flags as it should, points within the bounds, minimizers
  and stationary points of what the solver is told are finalized to solutions, optimal solutions and
  solutions of the adjoint equations.
-/

namespace Moo
namespace GDOP

open Loop FixedVector NLP Coo Segment

/-! ## The NLP and the program of the mesh -/

section Nlp

variable {K : Type} [Field K] {T : FLGR K} {cb : Callbacks T} {P : Problem K} {mesh : MeshPtr T}
variable (past : Nat → Nat × Nat)

/-- The rows of the Jacobian are constraints. -/
theorem nlp_jac_row (hP : JacobianLayoutOk P) {k : Nat} (hk : k < (nlp cb P mesh past).nnzJac) :
    (nlp cb P mesh past).jac.row k < (nlp cb P mesh past).numberConstraints := by
  let B : Buffers K := Buffers.zero
  have hk' : k < (jacSlots P mesh.mesh (getSizes P mesh.mesh) B).length :=
    hk.trans_eq (nnzJac_eq P mesh.mesh B hP.walks)
  have hrow : (nlp cb P mesh past).jac.row k =
      (jacSlots P mesh.mesh (getSizes P mesh.mesh) B)[k].row := by
    refine (getD_fill ..).trans ((if_pos hk).trans ?_)
    exact congrArg JacCell.row (assembledPattern_at P mesh.mesh B hP.walks _ _ hk')
  rw [hrow]
  exact ((jacSlots_seg P mesh.mesh B hP).bounds _ (List.mem_map_of_mem (List.getElem_mem hk'))).2

variable [LinearOrder K]

theorem nlp_admissible_iff {x : Nat → K} : (nlp cb P mesh past).Admissible x ↔
    Feasible P mesh (freshBuffers cb P mesh.mesh x) x := by
  have bounds (side : Bounds K → K) {i : Nat} (hi : i < (getSizes P mesh.mesh).numberVars) :=
    raw_fill_lt (boundsX P mesh (getSizes P mesh.mesh) side fun _ => 0) hi
  have constraints (side : Bounds K → K) {r : Nat}
      (hr : r < (getSizes P mesh.mesh).numberConstraints) :=
    raw_fill_lt (boundsG P mesh (getSizes P mesh.mesh) side fun _ => 0) hr
  constructor
  · rintro ⟨hx, hg⟩
    refine ⟨fun i hi => ?_, fun r hr => ?_⟩
    · rw [← bounds _ hi, ← bounds _ hi]
      exact hx i hi
    · rw [← constraints _ hr, ← constraints _ hr]
      exact hg r hr
  · rintro ⟨hx, hg⟩
    refine ⟨fun i hi => ?_, fun r hr => ?_⟩
    · have h := hx i hi
      rwa [← bounds _ hi, ← bounds _ hi] at h
    · have h := hg r hr
      rwa [← constraints _ hr, ← constraints _ hr] at h

omit [LinearOrder K] in
theorem nlp_stationary_iff (hP : LayoutsOk P) {it : Iterate K} :
    (nlp cb P mesh past).Stationary it ↔
      GDOP.Stationary P mesh (freshBuffers cb P mesh.mesh (raw it.x)) (fun _ => 0) (fun _ => 0)
        it.lambda it.zLb it.zUb := by
  refine forall₂_congr fun i _ => ?_
  have rows : ∀ k, k < (nlp cb P mesh past).nnzJac →
      (nlp cb P mesh past).jac.row k < (nlp cb P mesh past).numberConstraints :=
    fun k hk => nlp_jac_row past hP.jacobian hk
  have transposed := sum_coo rows (nlp cb P mesh past).jac.col
    ((nlp cb P mesh past).jacG (raw it.x)) (raw it.lambda) i
  simp only [coo_nlp_jac past hP] at transposed
  rw [lagrangianGradient]
  simp only [mul_comm ((nlp cb P mesh past).jacG (raw it.x) _)]
  rw [← transposed]
  rfl

end Nlp

/-! ## Solutions -/

section Solutions

variable {K : Type} [Field K] [LinearOrder K] {T : FLGR K} (cb : Callbacks T) (P : Problem K)
variable (mesh : MeshPtr T) (optX : List K)

/-- The trajectory of the unknowns solves the collocated problem, with the callbacks at it. -/
def Collocates : Prop :=
  CollocationSolution P mesh (freshBuffers cb P mesh.mesh (raw optX))
    (finalizeOptimalPrimals mesh (getSizes P mesh.mesh) optX)

/-- Mayer term plus quadrature of the Lagrange term. -/
def cost : K := evalFInternal P mesh.mesh (freshBuffers cb P mesh.mesh (raw optX))

structure Optimal : Prop where
  solution : Collocates cb P mesh optX
  least : ∀ optY : List K, optY.length = (getSizes P mesh.mesh).numberVars →
    Collocates cb P mesh optY → cost cb P mesh optX ≤ cost cb P mesh optY

variable {cb P mesh} [IsStrictOrderedRing K] (past : Nat → Nat × Nat)
variable (h : mesh.mesh.Ordered) (hT : ∀ p ∈ mesh.mesh.nodes, T.Radau p)

include h hT

theorem nlp_collocates : (nlp cb P mesh past).Admissible (raw optX) ↔ Collocates cb P mesh optX :=
  (nlp_admissible_iff past).trans (feasible_iff_solution h hT optX)

theorem nlp_optimal : (nlp cb P mesh past).Minimizer (raw optX) ↔ Optimal cb P mesh optX := by
  constructor
  · rintro ⟨hx, hle⟩
    exact ⟨(nlp_collocates optX past h hT).mp hx, fun y hy hc =>
      hle y hy ((nlp_collocates y past h hT).mpr hc)⟩
  · rintro ⟨hx, hle⟩
    exact ⟨(nlp_collocates optX past h hT).mpr hx, fun y hy hc =>
      hle y hy ((nlp_collocates y past h hT).mp hc)⟩

end Solutions

/-! ## What a solver hands over -/

section Finalized

variable {K : Type} [Field K] [LinearOrder K] {T : FLGR K} {cb : Callbacks T} {P : Problem K}
variable {past : Nat → Nat × Nat} {l : Ledger T} {s : State T}

/-- The solution is that of the iterate, unscaled by the factors the user gave. -/
theorem finalized (hi : Inv cb P past l s) (hr : l.Ready) (obj : K) (x lambda zL zU : Nat → K) :
    ∃ s' it, step cb P past s (.finalize obj x lambda zL zU) = some (s', []) ∧
      s'.inst.optimalSolution = some (solution P l.mesh (getSizes P l.mesh.mesh) it) ∧
      it.x = l.user.unscaleX x (getSizes P l.mesh.mesh).numberVars ∧
      it.lambda = l.user.scaleG lambda (getSizes P l.mesh.mesh).numberConstraints ∧
      it.zLb = l.user.unscaleX zL (getSizes P l.mesh.mesh).numberVars ∧
      it.zUb = l.user.unscaleX zU (getSizes P l.mesh.mesh).numberVars := by
  have hz := hi.sized hr.1
  obtain ⟨sc, hsc, hc, -⟩ := hz.scaling
  obtain ⟨s', hstep, hinst⟩ := step_finalize cb P hsc obj x lambda zL zU
  refine ⟨s', unscaledIterate sc s.numberVars s.numberConstraints x lambda zL zU, hstep, ?_, ?_⟩
  · rw [hinst, ← hz.off, ← hi.mesh]
    rfl
  · rw [← hz.numberVars, ← hz.numberConstraints]
    exact ⟨hc.unscaleX .., hc.scaleG .., hc.unscaleX .., hc.unscaleX ..⟩

omit [LinearOrder K] in
/-- Without scaling, the solver's vectors are stationary where the NLP's are. -/
theorem scaled_stationary_iff {N : Functions K} {it : Iterate K} {x : Nat → K}
    (hx : it.x = fill N.numberVars x) :
    (N.scaled .noScaling).Stationary it ↔ N.Stationary it := by
  have hpoint : raw ((UserScaling.noScaling : UserScaling K).unscaleX (raw it.x) N.numberVars) =
      raw it.x := by
    rw [hx]
    exact congrArg raw (fill_congr fun i hi => raw_fill_lt _ hi)
  refine forall₂_congr fun i hi => ?_
  dsimp only [Functions.scaled]
  rw [hpoint]
  have hgrad : raw ((UserScaling.noScaling : UserScaling K).scaleGradF (N.gradF (raw it.x))
      N.numberVars) i = N.gradF (raw it.x) i := raw_fill_lt _ hi
  rw [hgrad]
  refine Iff.of_eq (congrArg (fun t => N.gradF (raw it.x) i + t - raw it.zLb i + raw it.zUb i = 0)
    (Finset.sum_congr rfl fun k hk => ?_))
  have hjac : raw ((UserScaling.noScaling : UserScaling K).scaleJac (N.jacG (raw it.x)) N.jac.row
      N.jac.col N.nnzJac) k = N.jacG (raw it.x) k := raw_fill_lt _ (Finset.mem_range.mp hk)
  rw [hjac]
  rfl

end Finalized

section Optimum

variable {K : Type} [Field K] [LinearOrder K] [IsStrictOrderedRing K] {T : FLGR K}

/-- What can be said of the tables on a mesh. -/
structure RadauMesh (M : Mesh T) : Prop where
  ordered : M.Ordered
  radau : ∀ p ∈ M.nodes, T.Radau p
  weights : ∀ i j, i < M.intervals → j < M.nodesAt i → T.getB (M.nodesAt i) j ≠ 0
  tables : T.Tables (M.nodesAt 0) false

/-- What is handed over is finalized to a trajectory and costates of the continuous problem. -/
theorem Inv.finalize_optimum {cb : Callbacks T} {P : Problem K} (hP : LayoutsOk P)
    (hM : JacobianMROk P.pc (mayerJac P)) {past : Nat → Nat × Nat} {l : Ledger T} {s : State T}
    (hi : Inv cb P past l s) (hready : l.Ready) (hmesh : RadauMesh l.mesh.mesh)
    (hu : l.user.Positive (getSizes P l.mesh.mesh).numberVars
      (getSizes P l.mesh.mesh).numberConstraints) (obj : K) (x lambda zL zU : Nat → K) :
    let off := getSizes P l.mesh.mesh
    let N := (nlp cb P l.mesh past).scaled l.user
    ∃ s' it, GDOP.step cb P past s (.finalize obj x lambda zL zU) = some (s', []) ∧
      s'.inst.optimalSolution = some (solution P l.mesh off it) ∧
      (N.Admissible x ↔ Collocates cb P l.mesh it.x) ∧
      (N.Minimizer x ↔ Optimal cb P l.mesh it.x) ∧
      cost cb P l.mesh it.x = l.user.fFactor * N.f x ∧
      (l.user = .noScaling →
        (N.Stationary ⟨fill off.numberVars x, fill off.numberConstraints lambda,
            fill off.numberVars zL, fill off.numberVars zU⟩ ↔
          CostateEquations P l.mesh (freshBuffers cb P l.mesh.mesh (raw it.x))
            (finalizeOptimalCostates P l.mesh off it.lambda)
            (finalizeOptimalBoundDuals l.mesh off it.zLb)
            (finalizeOptimalBoundDuals l.mesh off it.zUb))) := by
  intro off N
  obtain ⟨s', it, hstep, hsol, ex, el, eL, eU⟩ := finalized hi hready obj x lambda zL zU
  refine ⟨s', it, hstep, hsol, ?_, ?_, ?_, fun hno => ?_⟩
  · rw [scaled_admissible_iff hu, ← nlp_collocates it.x past hmesh.ordered hmesh.radau, ex]
    rfl
  · rw [scaled_minimizer_iff hu, ← nlp_optimal it.x past hmesh.ordered hmesh.radau, ex]
    rfl
  · rw [cost, ex]
    refine (mul_div_cancel₀ _ hu.f.ne').symm.trans (congrArg _ ?_)
    exact (l.user.scaleF_eq _).symm
  · let handed : Iterate K := ⟨fill off.numberVars x, fill off.numberConstraints lambda,
      fill off.numberVars zL, fill off.numberVars zU⟩
    have hsc : (Functions.scaled (nlp cb P l.mesh past) .noScaling).Stationary handed ↔
        (nlp cb P l.mesh past).Stationary handed := scaled_stationary_iff rfl
    have hadj := costates_adjoint (B := freshBuffers cb P l.mesh.mesh (raw it.x)) hmesh.ordered
      hmesh.radau hmesh.weights hP.jacobian hP.gradient hM (fun _ => 0) (fun _ => 0) it.lambda
      it.zLb it.zUb hmesh.tables
    rw [hno] at ex el eL eU
    have hN : N = Functions.scaled (nlp cb P l.mesh past) .noScaling := by rw [← hno]
    rw [hN, hsc, nlp_stationary_iff past hP, ← hadj, ex, el, eL, eU]
    rfl

section Descent

def descentCallbacks : Callbacks radauTwo where
  fullEval := fun _ xu _ k =>
    if k % 2 = 0 then xu.elim 0 fun v => v (k / 2) + v (k / 2) else 2
  fullJac := fun _ _ _ _ => 2
  fullHes := fun _ _ _ _ _ _ _ => 0
  fullPpHes := fun _ _ _ _ _ _ _ => 0
  boundaryEval := fun _ _ xuf _ _ => xuf.elim 0 fun v => v 0
  boundaryJac := fun _ _ _ _ _ => 1
  boundaryHes := fun _ _ _ _ _ _ _ _ => 0

theorem descent_layoutsOk : LayoutsOk descent where
  jacobian := descent_jacobian
  gradient := descent_lagrange
  hessian := by constructor <;> intro e he <;> cases he

theorem unevenMesh_radauMesh : RadauMesh unevenMesh.mesh :=
  ⟨unevenMesh_ordered, unevenMesh_radau, fun _ _ => unevenMesh_weights,
    FLGR.radauTwo_tables (.inl rfl) false⟩

def descentCalls : List (Call radauTwo) := [.getInfo, .getJacSparsity, .getHesSparsity]

end Descent

end Optimum

end GDOP
end Moo
