import Moo.GDOP.Eval
import Moo.GDOP.Finalize
import Moo.GDOP.Hessian
import Moo.GDOP.Jacobian
import Moo.NLP.ScalingSpec

/-!
# GDOP.Instance

The dynamic optimization problem as an NLP: the members of `GDOP` and its virtual functions.

* `Callbacks`: the functions that fill the buffers, as functions of what they are passed.
* `Instance T`: the members; `update`, `setInitialGuess` and `setScalingFactory` are called from
  outside, between solves or within one.
* `virtuals`: the virtual functions of the base class. An evaluation runs the callbacks it needs
  when the flags of `evaluationState` say that their results are missing, then reads the buffers.
-/

namespace Moo
namespace GDOP

open Loop FixedVector NLP

/-- The callbacks of the two sweeps. A pointer is the entries from it on, or null. The Hessian
callbacks may read the Jacobian buffer of their sweep. -/
structure Callbacks {K : Type} [Field K] (T : FLGR K) where
  fullEval : Mesh T → (xu p : Option (Nat → K)) → Nat → K
  fullJac : Mesh T → (xu p : Option (Nat → K)) → Nat → K
  fullHes : Mesh T → (xu p : Option (Nat → K)) → (lagrangeFactors : Nat → Nat → K) →
    (lambda : Option (Nat → K)) → (jac : Nat → K) → Nat → K
  fullPpHes : Mesh T → (xu p : Option (Nat → K)) → (lagrangeFactors : Nat → Nat → K) →
    (lambda : Option (Nat → K)) → (jac : Nat → K) → Nat → K
  boundaryEval : Mesh T → (x0 xuf p : Option (Nat → K)) → Nat → K
  boundaryJac : Mesh T → (x0 xuf p : Option (Nat → K)) → Nat → K
  boundaryHes : Mesh T → (x0 xuf p : Option (Nat → K)) → (mayerFactor : K) →
    (lambda : Option (Nat → K)) → (jac : Nat → K) → Nat → K

section Types

variable {K : Type} [Field K]

def Buffers.zero : Buffers K where
  eval := fun _ => 0
  jac := fun _ => 0
  hes := fun _ => 0
  ppHes := fun _ => 0
  mrEval := fun _ => 0
  mrJac := fun _ => 0
  mrHes := fun _ => 0

def Offsets.zero : Offsets where
  offX := 0
  offU := 0
  offP := 0
  offXu := 0
  offLastXu := 0
  offXuTotal := 0
  offFgTotal := 0
  offAccXu := fun _ _ => 0
  offAccFg := fun _ _ => 0
  numberVars := 0
  numberConstraints := 0

/-- Creates the scaling of a problem from its mesh and its layout. -/
abbrev ScalingFactory (T : FLGR K) := Mesh T → Offsets → UserScaling K

/-- The members of `GDOP` and the buffers of its problem. What `get_sizes`, `get_nnz` and the
sparsity queries compute is zero before the first call. -/
structure Instance (T : FLGR K) where
  mesh : MeshPtr T
  evaluationState : NLPState := {}
  scalingFactory : Option (ScalingFactory T) := none
  initialGuess : Option (PrimalDualTrajectory T) := none
  optimalSolution : Option (PrimalDualTrajectory T) := none
  off : Offsets := .zero
  offAccJacFg : Nat → Nat := fun _ => 0
  constDerJac : List K := []
  hesBlock : HesBlock → BlockSparsity := resetBlocks
  lagrangeObjFactors : Nat → Nat → K := fun _ _ => 0
  transformedLambda : List K := []
  buffers : Buffers K := .zero

end Types

section Pointers

variable {K : Type} [Field K] {T : FLGR K} (P : Problem K) (off : Offsets)

def getXX0 (x : Nat → K) : Option (Nat → K) := if off.offX ≠ 0 then some x else none

def getXXu (x : Nat → K) : Option (Nat → K) :=
  if off.offXu ≠ 0 then some fun k => x (off.offX + k) else none

def getXXuf (x : Nat → K) : Option (Nat → K) :=
  if off.offXu ≠ 0 then some fun k => x (off.offLastXu + k) else none

def getXP (x : Nat → K) : Option (Nat → K) :=
  if off.offP ≠ 0 then some fun k => x (off.offXuTotal + k) else none

def getLmbdFg (lambda : Nat → K) : Option (Nat → K) :=
  if off.offFgTotal ≠ 0 then some lambda else none

def getLmbdR (lambda : Nat → K) : Option (Nat → K) :=
  if P.pc.rSize ≠ 0 then some fun k => lambda (off.offFgTotal + k) else none

end Pointers

section Duals

variable {K : Type} [Field K] {T : FLGR K} (P : Problem K) (M : Mesh T) (off : Offsets)

/-! `update_curr_lambda_obj_factors`: one loop over the nodes in the source, here one for each of
the two tables it writes. -/

def updateLagrangeObjFactors (sigma : K) (factors : Nat → Nat → K) : Nat → Nat → K :=
  if P.pc.hasLagrange then
    forRange M.intervals (fun i factors => forRange (M.nodesAt i) (fun j factors =>
      Function.update factors i (Function.update (factors i) j
        (sigma * T.getB (M.nodesAt i) j * M.deltaTAt i))) factors) factors
  else factors

def updateTransformedLambda (lambda : Nat → K) : Nat → K :=
  M.forNodes (fun i j => forRange P.pc.fSize fun f lambda =>
    Function.update lambda (off.offAccFg i j + f)
      (lambda (off.offAccFg i j + f) * -M.deltaTAt i)) lambda

end Duals

/-! ## Calls from outside -/

namespace Instance

section Outside

variable {K : Type} [Field K] {T : FLGR K} (s : Instance T)

/-- The mesh of the problem is the same pointer; its full sweep gets new buffers. -/
def update (newMesh : MeshPtr T) : Instance T :=
  { s with
    mesh := newMesh
    buffers := { s.buffers with eval := fun _ => 0, jac := fun _ => 0, hes := fun _ => 0 } }

def setInitialGuess (initialTrajectory : Option (PrimalDualTrajectory T)) : Instance T :=
  { s with initialGuess := initialTrajectory }

def setScalingFactory (factory : Option (ScalingFactory T)) : Instance T :=
  { s with scalingFactory := factory }

end Outside

/-! ## The virtual functions -/

section Queries

variable {K : Type} [Field K] [LinearOrder K] {T : FLGR K} (P : Problem K) (s : Instance T)

def getSizes : Instance T × Nat × Nat :=
  let off := GDOP.getSizes P s.mesh.mesh
  ({ s with off }, off.numberVars, off.numberConstraints)

def getNnz : Instance T × Nat × Nat :=
  let (offAccJacFg, nnzJac) := initJacobianNonzeros P s.mesh.mesh s.off.offX
  ({ s with offAccJacFg, constDerJac := fill nnzJac fun _ => 0, hesBlock := resetBlocks },
    nnzJac, initHessianNonzeros P s.mesh.mesh s.off.offX)

def getScaling : Instance T × Option (Scaling K) :=
  (s, s.scalingFactory.map fun factory => (factory s.mesh.mesh s.off).create)

def getBounds (b : BoundVectors K) : Instance T × BoundVectors K :=
  (s,
    { xLb := edit b.xLb (boundsX P s.mesh s.off Bounds.lb)
      xUb := edit b.xUb (boundsX P s.mesh s.off Bounds.ub)
      gLb := edit b.gLb (boundsG P s.mesh s.off Bounds.lb)
      gUb := edit b.gUb (boundsG P s.mesh s.off Bounds.ub) })

/-- A guess from another mesh is replaced by its interpolation: meshes are compared by address. -/
def onMesh {τ : Type} (inducingMesh : τ → Option (MeshPtr T))
    (interpolate : τ → Option τ) (traj : τ) : Option τ :=
  if (inducingMesh traj).map MeshPtr.addr = some s.mesh.addr then some traj else interpolate traj

/-- Writes what the guess has, whatever is asked for. The multipliers of the bounds are written
when both sides are there. -/
def getInitialGuess (it : Iterate K) : Option (Instance T × Iterate K) := do
  let guess ← s.initialGuess
  let primals ← guess.primals.mapM
    (s.onMesh Trajectory.inducingMesh fun t => t.interpolateOntoMesh s.mesh)
  let it := primals.elim it fun t =>
    { it with x := edit it.x (flattenTrajectoryToLayout s.mesh s.off t) }
  let costates ← guess.costates.mapM
    (s.onMesh CostateTrajectory.inducingMesh fun t => some (t.interpolateOntoMesh s.mesh))
  let it := costates.elim it fun t =>
    { it with lambda := edit it.lambda (guessLambda P s.mesh s.off t) }
  match guess.lowerCostates, guess.upperCostates with
  | some lower, some upper =>
    let lower ← s.onMesh Trajectory.inducingMesh (fun t => t.interpolateOntoMesh s.mesh) lower
    let upper ← s.onMesh Trajectory.inducingMesh (fun t => t.interpolateOntoMesh s.mesh) upper
    let z (t : Trajectory T) (v : List K) : List K := edit v fun v =>
      transformDualsCostatesBounds s.mesh s.off false (flattenTrajectoryToLayout s.mesh s.off t v)
    some ({ s with
        initialGuess := some
          { primals, costates, lowerCostates := some lower, upperCostates := some upper } },
      { it with zLb := z lower it.zLb, zUb := z upper it.zUb })
  | lowerCostates, upperCostates =>
    some ({ s with initialGuess := some { primals, costates, lowerCostates, upperCostates } }, it)

variable {P s} in
/-- Only the guess itself is written. -/
theorem getInitialGuess_eq {it : Iterate K} {r : Instance T × Iterate K}
    (hr : s.getInitialGuess P it = some r) : ∃ guess, r.1 = { s with initialGuess := guess } := by
  rw [getInitialGuess] at hr
  simp only [Option.bind_eq_bind, Option.bind_eq_some_iff] at hr
  obtain ⟨guess, -, primals, -, costates, -, hr⟩ := hr
  split at hr
  · simp only [Option.bind_eq_some_iff] at hr
    obtain ⟨lower, -, upper, -, hr⟩ := hr
    cases hr
    exact ⟨_, rfl⟩
  · cases hr
    exact ⟨_, rfl⟩

def getJacSparsity (p : Pattern) : Instance T × Pattern :=
  let t := GDOP.getJacSparsity P s.mesh.mesh s.off s.offAccJacFg fun k =>
    ⟨p.row k, p.col k, raw s.constDerJac k⟩
  ({ s with constDerJac := fill s.constDerJac.length fun k => (t.cells k).der },
    { iRow := fill p.iRow.length fun k => (t.cells k).row
      jCol := fill p.jCol.length fun k => (t.cells k).col })

def getHesSparsity (past : Nat → Nat × Nat) (numberConstraints : Nat) (p : Pattern) :
    Instance T × Pattern :=
  let h := getHesSparsityFrom P s.mesh.mesh s.off past s.hesBlock p.row p.col
  ({ s with
      lagrangeObjFactors := if P.pc.hasLagrange then fun _ _ => 0 else s.lagrangeObjFactors
      transformedLambda := fill numberConstraints fun _ => 0
      hesBlock := h.block },
    { iRow := fill p.iRow.length h.iRow
      jCol := fill p.jCol.length h.jCol })

def finalizeSolution (it : Iterate K) : Instance T :=
  { s with
    optimalSolution := some
      { primals := some (finalizeOptimalPrimals s.mesh s.off it.x)
        costates := some (finalizeOptimalCostates P s.mesh s.off it.lambda)
        lowerCostates := some (finalizeOptimalBoundDuals s.mesh s.off it.zLb)
        upperCostates := some (finalizeOptimalBoundDuals s.mesh s.off it.zUb) } }

end Queries

section Evaluations

variable {K : Type} [Field K] {T : FLGR K} (cb : Callbacks T) (P : Problem K) (s : Instance T)

def checkNewX (newX : Bool) : Instance T :=
  { s with evaluationState := s.evaluationState.checkResetX newX }

def checkNewLambda (newLambda : Bool) : Instance T :=
  { s with evaluationState := s.evaluationState.checkResetLambda newLambda }

def callbackEvaluation (currX : Nat → K) : Instance T :=
  let M := s.mesh.mesh
  { s with
    buffers :=
      { s.buffers with
        eval := cb.fullEval M (getXXu s.off currX) (getXP s.off currX)
        mrEval := cb.boundaryEval M (getXX0 s.off currX) (getXXuf s.off currX)
          (getXP s.off currX) }
    evaluationState := { s.evaluationState with evalF := true, evalG := true } }

def callbackJacobian (currX : Nat → K) : Instance T :=
  let M := s.mesh.mesh
  { s with
    buffers :=
      { s.buffers with
        jac := cb.fullJac M (getXXu s.off currX) (getXP s.off currX)
        mrJac := cb.boundaryJac M (getXX0 s.off currX) (getXXuf s.off currX)
          (getXP s.off currX) }
    evaluationState := { s.evaluationState with gradF := true, jacG := true } }

def callbackHessian (currX : Nat → K) (currLambda : List K) (currSigmaF : K) : Instance T :=
  let M := s.mesh.mesh
  let factors := updateLagrangeObjFactors P M currSigmaF s.lagrangeObjFactors
  let lambda := fill s.transformedLambda.length
    (updateTransformedLambda P M s.off (raw currLambda))
  { s with
    lagrangeObjFactors := factors
    transformedLambda := lambda
    buffers :=
      { s.buffers with
        hes := cb.fullHes M (getXXu s.off currX) (getXP s.off currX) factors
          (getLmbdFg s.off (raw lambda)) s.buffers.jac
        ppHes := cb.fullPpHes M (getXXu s.off currX) (getXP s.off currX) factors
          (getLmbdFg s.off (raw lambda)) s.buffers.jac
        mrHes := cb.boundaryHes M (getXX0 s.off currX) (getXXuf s.off currX) (getXP s.off currX)
          currSigmaF (getLmbdR P s.off (raw lambda)) s.buffers.mrJac }
    evaluationState := { s.evaluationState with hes := true } }

def evalF (newX : Bool) (currX : List K) : Instance T × K :=
  let s := s.checkNewX newX
  let s := if s.evaluationState.evalF then s else s.callbackEvaluation cb (raw currX)
  (s, evalFInternal P s.mesh.mesh s.buffers)

def evalG (newX : Bool) (currX currG : List K) : Instance T × List K :=
  let s := s.checkNewX newX
  let s := if s.evaluationState.evalG then s else s.callbackEvaluation cb (raw currX)
  (s, fill currG.length (evalGInternal P s.mesh.mesh s.off s.buffers (raw currX)))

def evalGradF (newX : Bool) (currX currGradF : List K) : Instance T × List K :=
  let s := s.checkNewX newX
  let s := if s.evaluationState.gradF then s else s.callbackJacobian cb (raw currX)
  (s, fill currGradF.length (evalGradFInternal P s.mesh.mesh s.off s.buffers))

def evalJacG (newX : Bool) (currX currJac : List K) : Instance T × List K :=
  let s := s.checkNewX newX
  let s := if s.evaluationState.jacG then s else s.callbackJacobian cb (raw currX)
  (s, fill currJac.length
    (evalJacGInternal P s.mesh.mesh s.off s.buffers s.offAccJacFg (raw s.constDerJac)).cells)

/-- Reads the block tables only, of what `get_hes_sparsity` computes. -/
def evalHesInternal : Option (Nat → K) :=
  GDOP.evalHesInternal P s.mesh.mesh s.off s.buffers
    { counter := 0, iRow := fun _ => 0, jCol := fun _ => 0, block := s.hesBlock }

def evalHes (newX : Bool) (currX : List K) (newLambda : Bool) (currLambda : List K)
    (currObjFactor : K) (currHes : List K) : Option (Instance T × List K) :=
  let s := (s.checkNewX newX).checkNewLambda newLambda
  let s := if s.evaluationState.hes then s
    else
      let s := if s.evaluationState.jacG then s else s.callbackJacobian cb (raw currX)
      s.callbackHessian cb P (raw currX) currLambda currObjFactor
  (s.evalHesInternal P).map fun hes => (s, fill currHes.length hes)

end Evaluations

end Instance

/-- The virtual functions of the instance; `past` is what lies behind the arrays that
`get_hes_sparsity` reads. -/
def virtuals {K : Type} [Field K] [LinearOrder K] {T : FLGR K} (cb : Callbacks T) (P : Problem K)
    (past : Nat → Nat × Nat) : Virtuals (Instance T) K where
  getSizes := fun s => s.getSizes P
  getNnz := fun s => s.getNnz P
  getScaling := fun s => s.getScaling
  getBounds := fun b s => s.getBounds P b
  getInitialGuess := fun _ _ _ it s => s.getInitialGuess P it
  getJacSparsity := fun p s => s.getJacSparsity P p
  getHesSparsity := fun n p s => s.getHesSparsity P past n p
  evalF := fun newX x _ s => s.evalF cb P newX x
  evalGradF := fun newX x v s => s.evalGradF cb P newX x v
  evalG := fun newX x v s => s.evalG cb P newX x v
  evalJacG := fun newX x _ v s => s.evalJacG cb P newX x v
  evalHes := fun newX x newLambda lambda sigma _ v s =>
    s.evalHes cb P newX x newLambda lambda sigma v
  finalizeSolution := fun _ it s => s.finalizeSolution P it

end GDOP
end Moo
