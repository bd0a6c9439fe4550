import Moo.NLP.Scaling

/-!
# NLP.Solver

The base class of all NLPs, between a solver and an instance.

* `Virtuals σ K`: the virtual functions, over the state `σ` of the instance. Arguments passed by
  reference are passed in and returned. Where the body may abort, the result is optional.
* `NLP σ K`: the members of the base class, together with the instance.
* `solver…`: the functions a solver calls. A vector of the solver is its content `Nat → K`, of
  which only the entries in range are read; what is written to the solver is returned.
-/

namespace Moo

open FixedVector

namespace NLP

/-- `x_lb`, `x_ub`, `g_lb`, `g_ub`. -/
structure BoundVectors (K : Type) where
  xLb : List K := []
  xUb : List K := []
  gLb : List K := []
  gUb : List K := []

/-- `curr_x`, `curr_lambda`, `z_lb`, `z_ub`. -/
structure Iterate (K : Type) where
  x : List K := []
  lambda : List K := []
  zLb : List K := []
  zUb : List K := []

/-- COO coordinates of a sparse matrix. -/
structure Pattern where
  iRow : List Nat := []
  jCol : List Nat := []

def Pattern.row (p : Pattern) (nz : Nat) : Nat := p.iRow.getD nz 0
def Pattern.col (p : Pattern) (nz : Nat) : Nat := p.jCol.getD nz 0

structure Virtuals (σ K : Type) where
  getSizes : σ → σ × Nat × Nat
  getNnz : σ → σ × Nat × Nat
  getScaling : σ → σ × Option (Scaling K)
  getBounds : BoundVectors K → σ → σ × BoundVectors K
  getInitialGuess : (initX initLambda initZ : Bool) → Iterate K → σ → Option (σ × Iterate K)
  getJacSparsity : Pattern → σ → σ × Pattern
  getHesSparsity : (numberConstraints : Nat) → Pattern → σ → σ × Pattern
  evalF : (newX : Bool) → (currX : List K) → K → σ → σ × K
  evalGradF : (newX : Bool) → (currX : List K) → List K → σ → σ × List K
  evalG : (newX : Bool) → (currX : List K) → List K → σ → σ × List K
  evalJacG : (newX : Bool) → (currX : List K) → Pattern → List K → σ → σ × List K
  evalHes : (newX : Bool) → (currX : List K) → (newLambda : Bool) → (currLambda : List K) →
    (currSigmaF : K) → Pattern → List K → σ → Option (σ × List K)
  finalizeSolution : (optObj : K) → Iterate K → σ → σ

end NLP

open NLP

/-- `scaling` is the null pointer before the first `solver_get_info`. -/
structure NLP (σ K : Type) where
  inst : σ
  numberVars : Nat := 0
  numberConstraints : Nat := 0
  nnzJac : Nat := 0
  nnzHes : Nat := 0
  curr : Iterate K := {}
  currSigmaF : K
  bounds : BoundVectors K := {}
  currObj : K
  currGrad : List K := []
  currG : List K := []
  currJac : List K := []
  currHes : List K := []
  jac : Pattern := {}
  hes : Pattern := {}
  scaling : Option (Scaling K) := none

namespace NLP

variable {σ K : Type} [Field K] (V : Virtuals σ K)

/-- The constructor. The source leaves `curr_obj` and `curr_sigma_f` uninitialised; neither is
read before it is written. -/
def new (inst : σ) : NLP σ K := { inst, currSigmaF := 0, currObj := 0 }

section Info

variable (s : NLP σ K)

def allocateBuffers : NLP σ K :=
  { s with
    curr :=
      { x := fill s.numberVars fun _ => 0
        lambda := fill s.numberConstraints fun _ => 0
        zLb := fill s.numberVars fun _ => 0
        zUb := fill s.numberVars fun _ => 0 }
    currGrad := fill s.numberVars fun _ => 0
    currG := fill s.numberConstraints fun _ => 0
    bounds :=
      { xLb := fill s.numberVars fun _ => 0
        xUb := fill s.numberVars fun _ => 0
        gLb := fill s.numberConstraints fun _ => 0
        gUb := fill s.numberConstraints fun _ => 0 } }

def allocateSparsityBuffers : NLP σ K :=
  { s with
    jac := { iRow := fill s.nnzJac fun _ => 0, jCol := fill s.nnzJac fun _ => 0 }
    hes := { iRow := fill s.nnzHes fun _ => 0, jCol := fill s.nnzHes fun _ => 0 }
    currJac := fill s.nnzJac fun _ => 0
    currHes := fill s.nnzHes fun _ => 0 }

/-- The four sizes are left in the state. -/
def solverGetInfo : NLP σ K :=
  let (inst, numberVars, numberConstraints) := V.getSizes s.inst
  let (inst, nnzJac, nnzHes) := V.getNnz inst
  let s := { s with inst, numberVars, numberConstraints, nnzJac, nnzHes }
  let s := s.allocateBuffers.allocateSparsityBuffers
  let (inst, userScaling) := V.getScaling s.inst
  { s with inst, scaling := some (userScaling.getD .noScaling) }

def solverGetBounds : Option (NLP σ K × BoundVectors K) := do
  let scaling ← s.scaling
  let (inst, bounds) := V.getBounds s.bounds s.inst
  some ({ s with inst, bounds },
    { xLb := scaling.inplaceScaleX bounds.xLb
      xUb := scaling.inplaceScaleX bounds.xUb
      gLb := scaling.inplaceScaleG bounds.gLb
      gUb := scaling.inplaceScaleG bounds.gUb })

/-- `unscale_curr_lambda`. -/
def unscaleCurrLambda (scaling : Scaling K) : List K :=
  scaling.unscaleG (raw s.curr.lambda) s.numberConstraints

/-- A part that is not asked for is not written. -/
def solverGetInitialGuess (initX initLambda initZ : Bool) (solver : Iterate K) :
    Option (NLP σ K × Iterate K) := do
  let scaling ← s.scaling
  let (inst, curr) ← V.getInitialGuess initX initLambda initZ s.curr s.inst
  let s := { s with inst, curr }
  some (s,
    { x := if initX then scaling.inplaceScaleX curr.x else solver.x
      lambda := if initLambda then s.unscaleCurrLambda scaling else solver.lambda
      zLb := if initZ then scaling.inplaceScaleX curr.zLb else solver.zLb
      zUb := if initZ then scaling.inplaceScaleX curr.zUb else solver.zUb })

def solverGetJacSparsity : NLP σ K × Pattern :=
  let (inst, jac) := V.getJacSparsity s.jac s.inst
  ({ s with inst, jac }, jac)

def solverGetHesSparsity : NLP σ K × Pattern :=
  let (inst, hes) := V.getHesSparsity s.numberConstraints s.hes s.inst
  ({ s with inst, hes }, hes)

end Info

section Helpers

variable (s : NLP σ K) (scaling : Scaling K)

def updateUnscaleCurrX (newX : Bool) (x : Nat → K) : NLP σ K :=
  if newX then { s with curr := { s.curr with x := scaling.unscaleX x s.numberVars } } else s

/-- The multipliers are scaled like `g`, the objective factor like `f`: the Hessian of the sum
cannot be scaled term by term afterwards. -/
def updateUnscaleCurrLambda (newLambda : Bool) (lambda : Nat → K) : NLP σ K :=
  if newLambda then
    { s with curr := { s.curr with lambda := scaling.scaleG lambda s.numberConstraints } }
  else s

def unscaleCurrSigmaF (sigmaF : K) : NLP σ K := { s with currSigmaF := scaling.scaleF sigmaF }

def unscaleObjective (obj : K) : NLP σ K := { s with currObj := scaling.unscaleF obj }

def unscaleDualBounds (zL zU : Nat → K) : NLP σ K :=
  { s with
    curr :=
      { s.curr with
        zLb := scaling.unscaleX zL s.numberVars
        zUb := scaling.unscaleX zU s.numberVars } }

end Helpers

section Eval

variable (s : NLP σ K) (newX : Bool) (solverX : Nat → K)

def solverEvalF : Option (NLP σ K × K) := do
  let scaling ← s.scaling
  let s := s.updateUnscaleCurrX scaling newX solverX
  let (inst, currObj) := V.evalF newX s.curr.x s.currObj s.inst
  some ({ s with inst, currObj }, scaling.scaleF currObj)

def solverEvalGradF : Option (NLP σ K × List K) := do
  let scaling ← s.scaling
  let s := s.updateUnscaleCurrX scaling newX solverX
  let (inst, currGrad) := V.evalGradF newX s.curr.x s.currGrad s.inst
  let (scaling, grad) := scaling.scaleGradF (raw currGrad) s.numberVars
  some ({ s with inst, currGrad, scaling := some scaling }, grad)

def solverEvalG : Option (NLP σ K × List K) := do
  let scaling ← s.scaling
  let s := s.updateUnscaleCurrX scaling newX solverX
  let (inst, currG) := V.evalG newX s.curr.x s.currG s.inst
  some ({ s with inst, currG }, scaling.scaleG (raw currG) s.numberConstraints)

def solverEvalJac : Option (NLP σ K × List K) := do
  let scaling ← s.scaling
  let s := s.updateUnscaleCurrX scaling newX solverX
  let (inst, currJac) := V.evalJacG newX s.curr.x s.jac s.currJac s.inst
  let (scaling, jac) := scaling.scaleJac (raw currJac) s.jac.row s.jac.col s.nnzJac
  some ({ s with inst, currJac, scaling := some scaling }, jac)

def solverEvalHes (newLambda : Bool) (solverLambda : Nat → K) (solverObjFactor : K) :
    Option (NLP σ K × List K) := do
  let scaling ← s.scaling
  let s := s.updateUnscaleCurrX scaling newX solverX
  let s := s.updateUnscaleCurrLambda scaling newLambda solverLambda
  let s := s.unscaleCurrSigmaF scaling solverObjFactor
  let (inst, currHes) ← V.evalHes newX s.curr.x newLambda s.curr.lambda s.currSigmaF s.hes
    s.currHes s.inst
  let (scaling, hes) := scaling.scaleHes (raw currHes) s.hes.row s.hes.col s.nnzHes
  some ({ s with inst, currHes, scaling := some scaling }, hes)

end Eval

/-- What is handed to `finalize_solution`: the objective and the unscaled iterate. -/
def finalIterate (s : NLP σ K) (scaling : Scaling K) (solverObjValue : K)
    (solverX solverLambda solverZLb solverZUb : Nat → K) : NLP σ K :=
  let s := s.unscaleObjective scaling solverObjValue
  let s := s.updateUnscaleCurrX scaling true solverX
  let s := s.updateUnscaleCurrLambda scaling true solverLambda
  s.unscaleDualBounds scaling solverZLb solverZUb

def solverFinalizeSolution (s : NLP σ K) (solverObjValue : K)
    (solverX solverLambda solverZLb solverZUb : Nat → K) : Option (NLP σ K) := do
  let scaling ← s.scaling
  let s := s.finalIterate scaling solverObjValue solverX solverLambda solverZLb solverZUb
  some { s with inst := V.finalizeSolution s.currObj s.curr s.inst }

theorem updateUnscaleCurrLambda_eq (s : NLP σ K) (scaling : Scaling K) (newLambda : Bool)
    (lambda : Nat → K) : s.updateUnscaleCurrLambda scaling newLambda lambda =
      { s with
        curr :=
          { s.curr with
            lambda := if newLambda then scaling.scaleG lambda s.numberConstraints
              else s.curr.lambda } } := by
  cases newLambda <;> rfl

/-! ## The calls with a scaling set -/

section Spec

variable {s : NLP σ K} {scaling : Scaling K} (hs : s.scaling = some scaling) (newX : Bool)
variable (x : Nat → K)

include hs

theorem solverEvalF_eq : s.solverEvalF V newX x =
    (let t := s.updateUnscaleCurrX scaling newX x
     let r := V.evalF newX t.curr.x t.currObj t.inst
     some ({ t with inst := r.1, currObj := r.2 }, scaling.scaleF r.2)) := by
  rw [solverEvalF, hs]
  rfl

theorem solverEvalGradF_eq : s.solverEvalGradF V newX x =
    (let t := s.updateUnscaleCurrX scaling newX x
     let r := V.evalGradF newX t.curr.x t.currGrad t.inst
     let q := scaling.scaleGradF (raw r.2) t.numberVars
     some ({ t with inst := r.1, currGrad := r.2, scaling := some q.1 }, q.2)) := by
  rw [solverEvalGradF, hs]
  rfl

theorem solverEvalG_eq : s.solverEvalG V newX x =
    (let t := s.updateUnscaleCurrX scaling newX x
     let r := V.evalG newX t.curr.x t.currG t.inst
     some ({ t with inst := r.1, currG := r.2 },
       scaling.scaleG (raw r.2) t.numberConstraints)) := by
  rw [solverEvalG, hs]
  rfl

theorem solverEvalJac_eq : s.solverEvalJac V newX x =
    (let t := s.updateUnscaleCurrX scaling newX x
     let r := V.evalJacG newX t.curr.x t.jac t.currJac t.inst
     let q := scaling.scaleJac (raw r.2) t.jac.row t.jac.col t.nnzJac
     some ({ t with inst := r.1, currJac := r.2, scaling := some q.1 }, q.2)) := by
  rw [solverEvalJac, hs]
  rfl

theorem solverEvalHes_eq (newLambda : Bool) (lambda : Nat → K) (sigma : K) :
    s.solverEvalHes V newX x newLambda lambda sigma =
    (let t := ((s.updateUnscaleCurrX scaling newX x).updateUnscaleCurrLambda scaling newLambda
        lambda).unscaleCurrSigmaF scaling sigma
     (V.evalHes newX t.curr.x newLambda t.curr.lambda t.currSigmaF t.hes t.currHes t.inst).map
      fun r =>
        let q := scaling.scaleHes (raw r.2) t.hes.row t.hes.col t.nnzHes
        ({ t with inst := r.1, currHes := r.2, scaling := some q.1 }, q.2)) := by
  rw [solverEvalHes, hs]
  dsimp only [Option.bind_eq_bind, Option.bind_some]
  cases V.evalHes _ _ _ _ _ _ _ _ with
  | none => rfl
  | some r => rfl

omit newX x

theorem solverGetBounds_eq : s.solverGetBounds V =
    (let r := V.getBounds s.bounds s.inst
     some ({ s with inst := r.1, bounds := r.2 },
      { xLb := scaling.inplaceScaleX r.2.xLb
        xUb := scaling.inplaceScaleX r.2.xUb
        gLb := scaling.inplaceScaleG r.2.gLb
        gUb := scaling.inplaceScaleG r.2.gUb })) := by
  rw [solverGetBounds, hs]
  rfl

theorem solverGetInitialGuess_eq (bx bl bz : Bool) (solver : Iterate K) :
    s.solverGetInitialGuess V bx bl bz solver =
    (V.getInitialGuess bx bl bz s.curr s.inst).map fun r =>
      (let t := { s with inst := r.1, curr := r.2 }
       (t,
        { x := if bx then scaling.inplaceScaleX r.2.x else solver.x
          lambda := if bl then t.unscaleCurrLambda scaling else solver.lambda
          zLb := if bz then scaling.inplaceScaleX r.2.zLb else solver.zLb
          zUb := if bz then scaling.inplaceScaleX r.2.zUb else solver.zUb })) := by
  rw [solverGetInitialGuess, hs]
  dsimp only [Option.bind_eq_bind, Option.bind_some]
  cases V.getInitialGuess _ _ _ _ _ with
  | none => rfl
  | some r => rfl

theorem solverFinalizeSolution_eq (obj : K) (x lambda zL zU : Nat → K) :
    s.solverFinalizeSolution V obj x lambda zL zU =
    (let t := s.finalIterate scaling obj x lambda zL zU
     some { t with inst := V.finalizeSolution t.currObj t.curr t.inst }) := by
  rw [solverFinalizeSolution, hs]
  rfl

end Spec

end NLP
end Moo
