import Moo.GDOP.Corner
import Moo.GDOP.Layout
import Moo.Lib.Collocation

/-!
# GDOP.Transcription

The nonlinear program is the continuous problem, collocated.

* `FLGR.Radau`: tables whose matrix differentiates and whose quadrature is exact.
* `Mesh.polynomial`: the polynomial through the samples of one interval, in physical time.
* `defect`: a row of the dynamics is the length of the interval times the defect of the
  differential equation at its node.
* `CollocationSolution`: what the states, controls and parameters of a trajectory have to meet;
  the feasible points of the program are those whose trajectory meets it (`transcription`).
* `objective_integral`: the Lagrange part of the objective is the integral of its integrand.
-/

namespace Moo

open Loop FixedVector Mesh Polynomial Collocation

section Scheme

variable {K : Type} [Field K]

/-- The quadrature integrates polynomials of degree up to `2 p - 2` without an error. -/
def FLGR.Integrates (T : FLGR K) (p : Nat) : Prop := Quadrature p (2 * p) (T.getC p) (T.getB p)

structure FLGR.Radau [LinearOrder K] (T : FLGR K) (p : Nat) : Prop where
  nodes : T.Nodes0 p
  differentiates : T.Differentiates p
  integrates : T.Integrates p

theorem FLGR.Radau.injOn [LinearOrder K] {T : FLGR K} {p : Nat} (h : T.Radau p) :
    Set.InjOn (T.getC0 p) (Finset.range (p + 1)) := by
  intro i hi j hj e
  simp only [Finset.coe_range, Set.mem_Iio] at hi hj
  rcases Nat.lt_trichotomy i j with hij | hij | hij
  · exact absurd e (h.nodes.increasing i j hij (by omega)).ne
  · exact hij
  · exact absurd e (h.nodes.increasing j i hij (by omega)).ne'

end Scheme

theorem radauTwo_radau {p : Nat} (hp : p = 1 ∨ p = 2) : radauTwo.Radau p := by
  have hmem : p ∈ [1, 2] := by simpa using hp
  have powers : ∀ p ∈ ([1, 2] : List Nat), ∀ m < p + 1, ∀ k < p + 1,
      ∑ col ∈ Finset.range (p + 1), radauTwo.getD p k col * radauTwo.getC0 p col ^ m =
        (m : ℚ) * radauTwo.getC0 p k ^ (m - 1) := by decide +kernel
  have moments : ∀ p ∈ ([1, 2] : List Nat), ∀ m < 2 * p, ∑ j ∈ Finset.range p,
      radauTwo.getB p j * ((m : ℚ) * radauTwo.getC p j ^ (m - 1)) = (1 : ℚ) ^ m - 0 ^ m := by
    decide +kernel
  exact ⟨radauTwo_nodes0 hp, Differentiation.of_powers (powers p hmem),
    Quadrature.of_powers (moments p hmem)⟩

/-! ## The polynomial of an interval -/

namespace Mesh

variable {K : Type} [Field K] [LinearOrder K] {T : FLGR K} (M : Mesh T) (series : List K)

/-- Through the last sample before interval `i` and its own samples. -/
noncomputable def polynomial (i : Nat) : K[X] :=
  stretch (M.gridAt i) (M.deltaTAt i)
    (interpolant (M.nodesAt i + 1) (T.getC0 (M.nodesAt i)) fun c =>
      raw series (M.nodesBefore i + c))

variable {M} [IsStrictOrderedRing K] (h : M.Ordered) (hT : ∀ p ∈ M.nodes, T.Radau p)
variable {i : Nat} (hi : i < M.intervals)

include h hi in
theorem deltaTAt_pos : 0 < M.deltaTAt i := by
  rw [deltaTAt_eq hi]
  exact sub_pos.mpr (h.increasing i hi)

include hT hi

omit [IsStrictOrderedRing K] in
theorem polynomial_degree : (M.polynomial series i).degree < (M.nodesAt i + 1 : Nat) :=
  stretch_degree (interpolant_degree (hT _ (M.nodesAt_mem hi)).injOn _)

include h

theorem polynomial_eval {c : Nat} (hc : c < M.nodesAt i + 1) :
    (M.polynomial series i).eval (M.gridAt i + M.deltaTAt i * T.getC0 (M.nodesAt i) c) =
      raw series (M.nodesBefore i + c) := by
  rw [polynomial, stretch_eval (deltaTAt_pos h hi).ne',
    interpolant_eval (hT _ (M.nodesAt_mem hi)).injOn _ hc]

/-- At a node of the interval. -/
theorem polynomial_node {j : Nat} (hj : j < M.nodesAt i) :
    (M.polynomial series i).eval (M.tAt i j) = raw series (M.accNodesAt i j + 1) := by
  rw [tAt_eq hi hj, ← (hT _ (M.nodesAt_mem hi)).nodes.succ j hj,
    polynomial_eval series h hT hi (Nat.succ_lt_succ hj), M.accNodesAt_eq hi hj, Nat.add_assoc]

theorem polynomial_start :
    (M.polynomial series i).eval (M.gridAt i) = raw series (M.nodesBefore i) := by
  have hs := polynomial_eval series h hT hi (c := 0) (Nat.succ_pos _)
  rwa [(hT _ (M.nodesAt_mem hi)).nodes.zero, mul_zero, add_zero] at hs

theorem polynomial_end :
    (M.polynomial series i).eval (M.gridAt (i + 1)) = raw series (M.nodesBefore (i + 1)) := by
  have he := polynomial_eval series h hT hi (Nat.lt_succ_self (M.nodesAt i))
  rwa [(hT _ (M.nodesAt_mem hi)).nodes.last, mul_one, deltaTAt_eq hi, add_sub_cancel,
    ← M.nodesBefore_succ] at he

/-- Neighbours meet. -/
theorem polynomial_joins (hi' : i + 1 < M.intervals) :
    (M.polynomial series i).eval (M.gridAt (i + 1)) =
      (M.polynomial series (i + 1)).eval (M.gridAt (i + 1)) := by
  rw [polynomial_end series h hT hi, polynomial_start series h hT hi']

theorem polynomial_derivative {j : Nat} (hj : j < M.nodesAt i) :
    M.deltaTAt i * (derivative (M.polynomial series i)).eval (M.tAt i j) =
      ∑ c ∈ Finset.range (M.nodesAt i + 1),
        T.getD (M.nodesAt i) (j + 1) c * raw series (M.nodesBefore i + c) := by
  have hp := hT _ (M.nodesAt_mem hi)
  rw [tAt_eq hi hj, polynomial, stretch_derivative (deltaTAt_pos h hi).ne', ← hp.nodes.succ j hj,
    ← hp.differentiates _ (interpolant_degree hp.injOn _) (j + 1) (Nat.succ_lt_succ hj)]
  refine Finset.sum_congr rfl fun c hc => ?_
  rw [interpolant_eval hp.injOn _ (Finset.mem_range.mp hc)]

end Mesh

namespace GDOP

section Samples

variable {K : Type} [Field K] [LinearOrder K] {T : FLGR K} {P : Problem K} {mesh : MeshPtr T}
variable (optX : List K)

/-- The sample of a state where the differentiation matrix takes it. -/
theorem finalizeOptimalPrimals_x {i k c : Nat} (hi : i < mesh.mesh.intervals) (hk : k < P.pc.xSize)
    (hc : c < mesh.mesh.nodesAt i + 1) :
    raw ((finalizeOptimalPrimals mesh (getSizes P mesh.mesh) optX).x.getD k [])
      (mesh.mesh.nodesBefore i + c) =
        raw optX ((stateAt mesh.mesh i k c).index (getSizes P mesh.mesh)) := by
  have hs : (finalizeOptimalPrimals mesh (getSizes P mesh.mesh) optX).x.getD k [] =
      mesh.mesh.nodeSeries (raw optX k)
        fun i j => raw optX ((getSizes P mesh.mesh).offAccXu i j + k) := getD_map_range _ _ _ hk
  rw [hs]
  cases c with
  | succ c =>
    rw [← Nat.add_assoc, ← mesh.mesh.accNodesAt_eq hi (Nat.lt_of_succ_lt_succ hc)]
    exact mesh.mesh.nodeSeries_node _ _ hi (Nat.lt_of_succ_lt_succ hc)
  | zero =>
    cases i with
    | zero => exact mesh.mesh.nodeSeries_zero _ _
    | succ i =>
      -- the last node before the interval
      have hi' : i < mesh.mesh.intervals := Nat.lt_of_succ_lt hi
      have hp := mesh.mesh.nodesAt_pos hi'
      have hj : mesh.mesh.nodesAt i - 1 < mesh.mesh.nodesAt i := by omega
      have hn : mesh.mesh.nodesBefore (i + 1) + 0 =
          mesh.mesh.accNodesAt i (mesh.mesh.nodesAt i - 1) + 1 := by
        rw [mesh.mesh.nodesBefore_succ, mesh.mesh.accNodesAt_eq hi' hj]
        omega
      rw [hn]
      exact mesh.mesh.nodeSeries_node _ _ hi' hj

theorem finalizeOptimalPrimals_u {i j k : Nat} (hi : i < mesh.mesh.intervals)
    (hj : j < mesh.mesh.nodesAt i) (hk : k < P.pc.uSize) :
    raw ((finalizeOptimalPrimals mesh (getSizes P mesh.mesh) optX).u.getD k [])
      (mesh.mesh.accNodesAt i j + 1) =
        raw optX ((Variable.u i j k).index (getSizes P mesh.mesh)) := by
  have hs : (finalizeOptimalPrimals mesh (getSizes P mesh.mesh) optX).u.getD k [] =
      mesh.mesh.nodeSeries (valueAtZero mesh (raw optX) (2 * P.pc.xSize + k) P.pc.xuSize)
        fun i j => raw optX ((getSizes P mesh.mesh).offAccXu i j + P.pc.xSize + k) :=
    getD_map_range _ _ _ hk
  rw [hs]
  exact mesh.mesh.nodeSeries_node _ _ hi hj

theorem finalizeOptimalPrimals_p {k : Nat} (hk : k < P.pc.pSize) :
    raw (finalizeOptimalPrimals mesh (getSizes P mesh.mesh) optX).p k =
      raw optX ((Variable.p k).index (getSizes P mesh.mesh)) := by
  have hp : (finalizeOptimalPrimals mesh (getSizes P mesh.mesh) optX).p =
      optX.drop (getSizes P mesh.mesh).offXuTotal := if_pos (Nat.lt_of_le_of_lt (Nat.zero_le k) hk)
  rw [hp]
  simp only [raw, List.getD_eq_getElem?_getD, List.getElem?_drop, Variable.index]

end Samples

/-! ## Feasible points -/

section Feasible

variable {K : Type} [Field K] [LinearOrder K] {T : FLGR K} (P : Problem K) (mesh : MeshPtr T)
variable (B : Buffers K)

/-- Between the bounds that `get_bounds` writes. -/
structure Feasible (x : Nat → K) : Prop where
  bounds : ∀ n, n < (getSizes P mesh.mesh).numberVars →
    boundsX P mesh (getSizes P mesh.mesh) Bounds.lb (fun _ => 0) n ≤ x n ∧
      x n ≤ boundsX P mesh (getSizes P mesh.mesh) Bounds.ub (fun _ => 0) n
  constraints : ∀ n, n < (getSizes P mesh.mesh).numberConstraints →
    boundsG P mesh (getSizes P mesh.mesh) Bounds.lb (fun _ => 0) n ≤
        evalGInternal P mesh.mesh (getSizes P mesh.mesh) B x n ∧
      evalGInternal P mesh.mesh (getSizes P mesh.mesh) B x n ≤
        boundsG P mesh (getSizes P mesh.mesh) Bounds.ub (fun _ => 0) n

/-- At the value that is fixed, otherwise between the bounds. -/
def Within (bounds : Bounds K) (fixed : Option K) (v : K) : Prop :=
  fixed.getD bounds.lb ≤ v ∧ v ≤ fixed.getD bounds.ub

theorem within_state {i j k : Nat} {v : K} :
    (Variable.x i j k).bound P mesh.mesh Bounds.lb ≤ v ∧
        v ≤ (Variable.x i j k).bound P mesh.mesh Bounds.ub ↔
      Within (P.pc.xBounds.getD k ⟨0, 0⟩)
        (if mesh.mesh.isLast i j then P.pc.xfFixed.getD k none else none) v := by
  simp only [Variable.bound, Within]
  cases mesh.mesh.isLast i j <;> simp

/-- A trajectory that solves the continuous problem at the nodes: the states are the polynomials
through their samples. -/
structure CollocationSolution (traj : Trajectory T) : Prop where
  dynamics : ∀ i j k, i < mesh.mesh.intervals → j < mesh.mesh.nodesAt i → k < P.pc.xSize →
    (derivative (mesh.mesh.polynomial (traj.x.getD k []) i)).eval (mesh.mesh.tAt i j) =
      lfgEvalF P mesh.mesh B k i j
  initial : ∀ k, k < P.pc.xSize → Within (P.pc.xBounds.getD k ⟨0, 0⟩) (P.pc.x0Fixed.getD k none)
    ((mesh.mesh.polynomial (traj.x.getD k []) 0).eval (mesh.mesh.gridAt 0))
  states : ∀ i j k, i < mesh.mesh.intervals → j < mesh.mesh.nodesAt i → k < P.pc.xSize →
    Within (P.pc.xBounds.getD k ⟨0, 0⟩)
      (if mesh.mesh.isLast i j then P.pc.xfFixed.getD k none else none)
      ((mesh.mesh.polynomial (traj.x.getD k []) i).eval (mesh.mesh.tAt i j))
  controls : ∀ i j k, i < mesh.mesh.intervals → j < mesh.mesh.nodesAt i → k < P.pc.uSize →
    Within (P.pc.uBounds.getD k ⟨0, 0⟩) none
      (raw (traj.u.getD k []) (mesh.mesh.accNodesAt i j + 1))
  parameters : ∀ k, k < P.pc.pSize → Within (P.pc.pBounds.getD k ⟨0, 0⟩) none (raw traj.p k)
  path : ∀ i j k, i < mesh.mesh.intervals → j < mesh.mesh.nodesAt i → k < P.pc.gSize →
    Within (P.pc.gBounds.getD k ⟨0, 0⟩) none (lfgEvalG P mesh.mesh B k i j)
  boundary : ∀ k, k < P.pc.rSize → Within (P.pc.rBounds.getD k ⟨0, 0⟩) none (mrEvalR P B k)

variable {P mesh B}

theorem feasible_iff {x : Nat → K} : Feasible P mesh B x ↔
    (∀ v : Variable, v.Ok P mesh.mesh → v.bound P mesh.mesh Bounds.lb ≤
        x (v.index (getSizes P mesh.mesh)) ∧
      x (v.index (getSizes P mesh.mesh)) ≤ v.bound P mesh.mesh Bounds.ub) ∧
    ∀ c : Constraint, c.Ok P mesh.mesh →
      c.bound P Bounds.lb ≤ c.residual P mesh.mesh B (fun v => x (v.index (getSizes P mesh.mesh))) ∧
      c.residual P mesh.mesh B (fun v => x (v.index (getSizes P mesh.mesh))) ≤
        c.bound P Bounds.ub := by
  constructor
  · rintro ⟨hv, hc⟩
    refine ⟨fun v ok => ?_, fun c ok => ?_⟩
    · have h := hv _ (Variable.index_lt ok)
      rwa [boundsX_index _ ok, boundsX_index _ ok] at h
    · have h := hc _ (Constraint.index_lt ok)
      rwa [boundsG_index _ ok, boundsG_index _ ok, evalGInternal_index P mesh.mesh B ok] at h
  · rintro ⟨hv, hc⟩
    refine ⟨fun n hn => ?_, fun n hn => ?_⟩
    · obtain ⟨v, ok, rfl⟩ := Variable.exists_index hn
      rw [boundsX_index _ ok, boundsX_index _ ok]
      exact hv v ok
    · obtain ⟨c, ok, rfl⟩ := Constraint.exists_index hn
      rw [boundsG_index _ ok, boundsG_index _ ok, evalGInternal_index P mesh.mesh B ok]
      exact hc c ok

variable [IsStrictOrderedRing K] (h : mesh.mesh.Ordered) (hT : ∀ p ∈ mesh.mesh.nodes, T.Radau p)
variable (optX : List K)

include h hT

/-- A row of the dynamics measures the defect of the differential equation. -/
theorem defect {i j k : Nat} (hi : i < mesh.mesh.intervals) (hj : j < mesh.mesh.nodesAt i)
    (hk : k < P.pc.xSize) :
    (Constraint.f i j k).residual P mesh.mesh B
        (fun v => raw optX (v.index (getSizes P mesh.mesh))) =
      mesh.mesh.deltaTAt i *
        ((derivative (mesh.mesh.polynomial ((finalizeOptimalPrimals mesh (getSizes P mesh.mesh)
          optX).x.getD k []) i)).eval (mesh.mesh.tAt i j) - lfgEvalF P mesh.mesh B k i j) := by
  rw [mul_sub, polynomial_derivative _ h hT hi hj, Constraint.residual]
  refine congrArg (· - _) (Finset.sum_congr rfl fun c hc => ?_)
  rw [finalizeOptimalPrimals_x optX hi hk (Finset.mem_range.mp hc)]

theorem residual_f_zero_iff {i j k : Nat} (hi : i < mesh.mesh.intervals)
    (hj : j < mesh.mesh.nodesAt i) (hk : k < P.pc.xSize) :
    (Constraint.f i j k).residual P mesh.mesh B
        (fun v => raw optX (v.index (getSizes P mesh.mesh))) = 0 ↔
      (derivative (mesh.mesh.polynomial ((finalizeOptimalPrimals mesh (getSizes P mesh.mesh)
        optX).x.getD k []) i)).eval (mesh.mesh.tAt i j) = lfgEvalF P mesh.mesh B k i j := by
  rw [defect h hT optX hi hj hk, mul_eq_zero, or_iff_right (deltaTAt_pos h hi).ne', sub_eq_zero]

theorem initial_value {k : Nat} (hk : k < P.pc.xSize) :
    (mesh.mesh.polynomial ((finalizeOptimalPrimals mesh (getSizes P mesh.mesh) optX).x.getD k [])
      0).eval (mesh.mesh.gridAt 0) =
        raw optX ((Variable.x0 k).index (getSizes P mesh.mesh)) := by
  rw [polynomial_start _ h hT mesh.mesh.intervals_pos]
  exact finalizeOptimalPrimals_x optX mesh.mesh.intervals_pos hk (c := 0) (Nat.succ_pos _)

theorem node_value {i j k : Nat} (hi : i < mesh.mesh.intervals) (hj : j < mesh.mesh.nodesAt i)
    (hk : k < P.pc.xSize) :
    (mesh.mesh.polynomial ((finalizeOptimalPrimals mesh (getSizes P mesh.mesh) optX).x.getD k [])
      i).eval (mesh.mesh.tAt i j) =
        raw optX ((Variable.x i j k).index (getSizes P mesh.mesh)) := by
  rw [polynomial_node _ h hT hi hj, mesh.mesh.accNodesAt_eq hi hj, Nat.add_assoc]
  exact finalizeOptimalPrimals_x optX hi hk (c := j + 1) (Nat.succ_lt_succ hj)

theorem feasible_iff_solution : Feasible P mesh B (raw optX) ↔
    CollocationSolution P mesh B (finalizeOptimalPrimals mesh (getSizes P mesh.mesh) optX) := by
  rw [feasible_iff]
  constructor
  · rintro ⟨hv, hc⟩
    constructor
    · intro i j k hi hj hk
      have hr := hc (.f i j k) ⟨hi, hj, hk⟩
      exact (residual_f_zero_iff h hT optX hi hj hk).mp (le_antisymm hr.2 hr.1)
    · intro k hk
      rw [initial_value h hT optX hk]
      exact hv (.x0 k) hk
    · intro i j k hi hj hk
      rw [node_value h hT optX hi hj hk]
      exact (within_state P mesh).mp (hv (.x i j k) ⟨hi, hj, hk⟩)
    · intro i j k hi hj hk
      rw [finalizeOptimalPrimals_u optX hi hj hk]
      exact hv (.u i j k) ⟨hi, hj, hk⟩
    · intro k hk
      rw [finalizeOptimalPrimals_p optX hk]
      exact hv (.p k) hk
    · exact fun i j k hi hj hk => hc (.g i j k) ⟨hi, hj, hk⟩
    · exact fun k hk => hc (.r k) hk
  · intro hs
    constructor
    · rintro (k | ⟨i, j, k⟩ | ⟨i, j, k⟩ | k) ok
      · rw [← initial_value h hT optX ok]
        exact hs.initial k ok
      · rw [← node_value h hT optX ok.1 ok.2.1 ok.2.2]
        exact (within_state P mesh).mpr (hs.states i j k ok.1 ok.2.1 ok.2.2)
      · rw [← finalizeOptimalPrimals_u optX ok.1 ok.2.1 ok.2.2]
        exact hs.controls i j k ok.1 ok.2.1 ok.2.2
      · rw [← finalizeOptimalPrimals_p optX ok]
        exact hs.parameters k ok
    · rintro (⟨i, j, k⟩ | ⟨i, j, k⟩ | k) ok
      · have hz := (residual_f_zero_iff h hT optX ok.1 ok.2.1 ok.2.2).mpr
          (hs.dynamics i j k ok.1 ok.2.1 ok.2.2)
        exact ⟨hz.symm.le, hz.le⟩
      · exact hs.path i j k ok.1 ok.2.1 ok.2.2
      · exact hs.boundary k ok

omit h [IsStrictOrderedRing K] in
/-- `A i` is an antiderivative of the Lagrange term on interval `i`. -/
theorem objective_integral {A : Nat → K[X]}
    (hdeg : ∀ i, i < mesh.mesh.intervals → (A i).degree < (2 * mesh.mesh.nodesAt i : Nat))
    (hA : ∀ i j, i < mesh.mesh.intervals → j < mesh.mesh.nodesAt i →
      (derivative (A i)).eval (mesh.mesh.tAt i j) = lfgEvalL P mesh.mesh B i j) :
    evalFInternal P mesh.mesh B = (if P.pc.hasMayer then mrEvalM P B else 0) +
      if P.pc.hasLagrange then
        ∑ i ∈ Finset.range mesh.mesh.intervals,
          ((A i).eval (mesh.mesh.gridAt (i + 1)) - (A i).eval (mesh.mesh.gridAt i))
      else 0 := by
  rw [evalFInternal_eq, objective]
  congr 1
  refine if_congr Iff.rfl (Finset.sum_congr rfl fun i hi => ?_) rfl
  have hi := Finset.mem_range.mp hi
  have hp := hT _ (mesh.mesh.nodesAt_mem hi)
  have hq := hp.integrates.on_interval (a := mesh.mesh.gridAt i) (h := mesh.mesh.deltaTAt i)
    (hdeg i hi)
  rw [show mesh.mesh.gridAt i + mesh.mesh.deltaTAt i = mesh.mesh.gridAt (i + 1) by
    rw [deltaTAt_eq hi, add_sub_cancel]] at hq
  rw [← hq]
  refine Finset.sum_congr rfl fun j hj => ?_
  have hj := Finset.mem_range.mp hj
  rw [← hA i j hi hj, tAt_eq hi hj]

end Feasible

section Transcription

variable {K : Type} [Field K] [LinearOrder K] [IsStrictOrderedRing K] {T : FLGR K}

/-- The feasible points are the solutions of the collocated problem, whose states are continuous;
the objective integrates the Lagrange term. -/
theorem transcription (P : Problem K) (mesh : MeshPtr T) (B : Buffers K) (h : mesh.mesh.Ordered)
    (hT : ∀ p ∈ mesh.mesh.nodes, T.Radau p) (optX : List K) :
    (Feasible P mesh B (raw optX) ↔ CollocationSolution P mesh B
      (finalizeOptimalPrimals mesh (getSizes P mesh.mesh) optX)) ∧
    (∀ series : List K, ∀ i, i < mesh.mesh.intervals →
      (mesh.mesh.polynomial series i).degree < (mesh.mesh.nodesAt i + 1 : Nat) ∧
      (i + 1 < mesh.mesh.intervals →
        (mesh.mesh.polynomial series i).eval (mesh.mesh.gridAt (i + 1)) =
        (mesh.mesh.polynomial series (i + 1)).eval (mesh.mesh.gridAt (i + 1)))) ∧
    ∀ A : Nat → K[X],
      (∀ i, i < mesh.mesh.intervals → (A i).degree < (2 * mesh.mesh.nodesAt i : Nat)) →
      (∀ i j, i < mesh.mesh.intervals → j < mesh.mesh.nodesAt i →
        (derivative (A i)).eval (mesh.mesh.tAt i j) = lfgEvalL P mesh.mesh B i j) →
      evalFInternal P mesh.mesh B = (if P.pc.hasMayer then mrEvalM P B else 0) +
        if P.pc.hasLagrange then
          ∑ i ∈ Finset.range mesh.mesh.intervals,
            ((A i).eval (mesh.mesh.gridAt (i + 1)) - (A i).eval (mesh.mesh.gridAt i))
        else 0 :=
  ⟨feasible_iff_solution h hT optX,
    fun series _ hi => ⟨polynomial_degree series hT hi, polynomial_joins series h hT hi⟩,
    fun _ => objective_integral hT⟩

/-- `x' = 2` from `x(0) = 1`. -/
def ramp : Problem ℚ where
  pc := { hasMayer := false, hasLagrange := false, xBounds := [⟨0, 9⟩], uBounds := [], pBounds := []
          x0Fixed := [some 1], xfFixed := [none], rBounds := [], gBounds := [] }
  full := { f := [{}], g := [] }
  boundary := { r := [] }
  f_length := by decide
  g_length := by decide
  r_length := by decide

def unevenMesh : MeshPtr radauTwo := ⟨1, createFromMeshUpdate radauTwo unevenUpdate⟩

theorem unevenMesh_ordered : unevenMesh.mesh.Ordered :=
  ordered_createFromMeshUpdate radauTwo rfl (by decide +kernel)

theorem unevenMesh_radau : ∀ p ∈ unevenMesh.mesh.nodes, radauTwo.Radau p := by
  intro p hp
  exact radauTwo_radau (by simpa [unevenMesh, createFromMeshUpdate, unevenUpdate] using hp)

/-- `1 + 2 t` at the times `0`, `1`, `5 / 3` and `3`. -/
theorem transcription_ramp : CollocationSolution ramp unevenMesh
    { Buffers.zero with eval := fun _ => 2 }
    (finalizeOptimalPrimals unevenMesh (getSizes ramp unevenMesh.mesh) [1, 3, 13 / 3, 7]) :=
  (transcription ramp unevenMesh { Buffers.zero with eval := fun _ => 2 } unevenMesh_ordered
    unevenMesh_radau [1, 3, 13 / 3, 7]).1.mp ⟨by decide +kernel, by decide +kernel⟩

end Transcription

end GDOP
end Moo
