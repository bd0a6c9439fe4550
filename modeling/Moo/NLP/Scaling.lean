import Mathlib.Algebra.Field.Defs
import Moo.Base.FixedVector

/-!
# NLP.Scaling

The two scalings of an NLP. `NoScaling` copies. `NominalScaling` multiplies by reciprocals of
nominal values; the factors of the gradient, the Jacobian and the Hessian are computed at their
first use, from the coordinates passed to that call, and kept.
-/

namespace Moo
namespace NLP

open FixedVector

/-- `x_scaling`, `g_scaling`, `f_scaling` are reciprocals of the nominals. -/
structure NominalScaling (K : Type) where
  xScaling : List K
  gScaling : List K
  fScaling : K
  gradScaling : List K := []
  jacScaling : List K := []
  hesScaling : List K := []

section Linalg

variable {K : Type} [Field K]

/-- `Linalg::diagmat_vec`. -/
def diagmatVec (D : Nat → K) (invD : Bool) (x : Nat → K) (size : Nat) : List K :=
  fill size fun i => if invD then x i / D i else D i * x i

/-- `Linalg::diagmat_vec_inplace`. -/
def diagmatVecInplace (D : Nat → K) (invD : Bool) (x : List K) (size : Nat) : List K :=
  edit x fun x i => if i < size then (if invD then x i / D i else x i * D i) else x i

end Linalg

namespace NominalScaling

variable {K : Type} [Field K]

/-- The constructor. -/
def new (xNominal gNominal : List K) (fNominal : K) : NominalScaling K where
  xScaling := xNominal.map fun x => 1 / x
  gScaling := gNominal.map fun g => 1 / g
  fScaling := 1 / fNominal

variable (s : NominalScaling K)

def createGradScaling (numberVars : Nat) : NominalScaling K :=
  { s with gradScaling := fill numberVars fun i => s.fScaling / raw s.xScaling i }

def createJacScaling (iRowJac jColJac : Nat → Nat) (jacNnz : Nat) : NominalScaling K :=
  { s with
    jacScaling := fill jacNnz fun nz => raw s.gScaling (iRowJac nz) / raw s.xScaling (jColJac nz) }

def createHesScaling (iRowHes jColHes : Nat → Nat) (hesNnz : Nat) : NominalScaling K :=
  { s with
    hesScaling := fill hesNnz fun nz =>
      1 / (raw s.xScaling (iRowHes nz) * raw s.xScaling (jColHes nz)) }

def unscaleX (xScaled : Nat → K) (numberVars : Nat) : List K :=
  diagmatVec (raw s.xScaling) true xScaled numberVars

def unscaleG (gScaled : Nat → K) (numberConstraints : Nat) : List K :=
  diagmatVec (raw s.gScaling) true gScaled numberConstraints

def unscaleF (fScaled : K) : K := fScaled / s.fScaling

def inplaceScaleX (xUnscaled : List K) : List K :=
  diagmatVecInplace (raw s.xScaling) false xUnscaled s.xScaling.length

def inplaceScaleG (gUnscaled : List K) : List K :=
  diagmatVecInplace (raw s.gScaling) false gUnscaled s.gScaling.length

def scaleF (fUnscaled : K) : K := s.fScaling * fUnscaled

def scaleG (gUnscaled : Nat → K) (numberConstraints : Nat) : List K :=
  diagmatVec (raw s.gScaling) false gUnscaled numberConstraints

def scaleGradF (gradUnscaled : Nat → K) (numberVars : Nat) : NominalScaling K × List K :=
  let s := if s.gradScaling.isEmpty then s.createGradScaling numberVars else s
  (s, diagmatVec (raw s.gradScaling) false gradUnscaled numberVars)

def scaleJac (jacUnscaled : Nat → K) (iRowJac jColJac : Nat → Nat) (jacNnz : Nat) :
    NominalScaling K × List K :=
  let s := if s.jacScaling.isEmpty then s.createJacScaling iRowJac jColJac jacNnz else s
  (s, diagmatVec (raw s.jacScaling) false jacUnscaled jacNnz)

def scaleHes (hesUnscaled : Nat → K) (iRowHes jColHes : Nat → Nat) (hesNnz : Nat) :
    NominalScaling K × List K :=
  let s := if s.hesScaling.isEmpty then s.createHesScaling iRowHes jColHes hesNnz else s
  (s, diagmatVec (raw s.hesScaling) false hesUnscaled hesNnz)

end NominalScaling

inductive Scaling (K : Type) where
  | noScaling
  | nominal (s : NominalScaling K)

namespace Scaling

variable {K : Type} [Field K]

def unscaleX (xScaled : Nat → K) (numberVars : Nat) : Scaling K → List K
  | .noScaling => fill numberVars xScaled
  | .nominal s => s.unscaleX xScaled numberVars

def unscaleG (gScaled : Nat → K) (numberConstraints : Nat) : Scaling K → List K
  | .noScaling => fill numberConstraints gScaled
  | .nominal s => s.unscaleG gScaled numberConstraints

def unscaleF (fScaled : K) : Scaling K → K
  | .noScaling => fScaled
  | .nominal s => s.unscaleF fScaled

def inplaceScaleX (xUnscaled : List K) : Scaling K → List K
  | .noScaling => xUnscaled
  | .nominal s => s.inplaceScaleX xUnscaled

def inplaceScaleG (gUnscaled : List K) : Scaling K → List K
  | .noScaling => gUnscaled
  | .nominal s => s.inplaceScaleG gUnscaled

def scaleF (fUnscaled : K) : Scaling K → K
  | .noScaling => fUnscaled
  | .nominal s => s.scaleF fUnscaled

def scaleG (gUnscaled : Nat → K) (numberConstraints : Nat) : Scaling K → List K
  | .noScaling => fill numberConstraints gUnscaled
  | .nominal s => s.scaleG gUnscaled numberConstraints

def scaleGradF (gradUnscaled : Nat → K) (numberVars : Nat) : Scaling K → Scaling K × List K
  | .noScaling => (.noScaling, fill numberVars gradUnscaled)
  | .nominal s => (s.scaleGradF gradUnscaled numberVars).map .nominal id

def scaleJac (jacUnscaled : Nat → K) (iRowJac jColJac : Nat → Nat) (jacNnz : Nat) :
    Scaling K → Scaling K × List K
  | .noScaling => (.noScaling, fill jacNnz jacUnscaled)
  | .nominal s => (s.scaleJac jacUnscaled iRowJac jColJac jacNnz).map .nominal id

def scaleHes (hesUnscaled : Nat → K) (iRowHes jColHes : Nat → Nat) (hesNnz : Nat) :
    Scaling K → Scaling K × List K
  | .noScaling => (.noScaling, fill hesNnz hesUnscaled)
  | .nominal s => (s.scaleHes hesUnscaled iRowHes jColHes hesNnz).map .nominal id

end Scaling

end NLP
end Moo
