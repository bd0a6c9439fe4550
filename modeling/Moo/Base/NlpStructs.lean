/-!
# Base.NlpStructs

Bounds, the sparsity layouts of the callbacks, and the evaluation flags.

A layout says, for each nonzero of a derivative, its local coordinates and the position
`bufIndex` at which the callback leaves its value in the buffer.
-/

namespace Moo

structure Bounds (K : Type) where
  lb : K
  ub : K

structure JacobianSparsity where
  col : Nat
  bufIndex : Nat
  deriving Repr, DecidableEq

structure HessianSparsity where
  row : Nat
  col : Nat
  bufIndex : Nat
  deriving Repr, DecidableEq

structure JacobianLFG where
  dx : List JacobianSparsity := []
  du : List JacobianSparsity := []
  dp : List JacobianSparsity := []

def JacobianLFG.nnz (jac : JacobianLFG) : Nat := jac.dx.length + jac.du.length + jac.dp.length

structure HessianLFG where
  dxDx : List HessianSparsity := []
  duDx : List HessianSparsity := []
  duDu : List HessianSparsity := []
  dpDx : List HessianSparsity := []
  dpDu : List HessianSparsity := []

def HessianLFG.nnz (hes : HessianLFG) : Nat :=
  hes.dxDx.length + hes.duDx.length + hes.duDu.length + hes.dpDx.length + hes.dpDu.length

structure ParameterHessian where
  dpDp : List HessianSparsity := []

def ParameterHessian.nnz (hes : ParameterHessian) : Nat := hes.dpDp.length

/-- A Lagrange, dynamic or path function: where its value goes, and its Jacobian. -/
structure FunctionLFG where
  bufIndex : Nat := 0
  jac : JacobianLFG := {}

structure JacobianMR where
  dx0 : List JacobianSparsity := []
  dxf : List JacobianSparsity := []
  duf : List JacobianSparsity := []
  dp : List JacobianSparsity := []

def JacobianMR.nnz (jac : JacobianMR) : Nat :=
  jac.dx0.length + jac.dxf.length + jac.duf.length + jac.dp.length

structure HessianMR where
  dx0Dx0 : List HessianSparsity := []
  dxfDx0 : List HessianSparsity := []
  dxfDxf : List HessianSparsity := []
  dufDx0 : List HessianSparsity := []
  dufDxf : List HessianSparsity := []
  dufDuf : List HessianSparsity := []
  dpDx0 : List HessianSparsity := []
  dpDxf : List HessianSparsity := []
  dpDuf : List HessianSparsity := []
  dpDp : List HessianSparsity := []

def HessianMR.nnz (hes : HessianMR) : Nat :=
  hes.dx0Dx0.length + hes.dxfDx0.length + hes.dxfDxf.length + hes.dufDx0.length +
    hes.dufDxf.length + hes.dufDuf.length + hes.dpDx0.length + hes.dpDxf.length +
    hes.dpDuf.length + hes.dpDp.length

/-- A Mayer or boundary function. -/
structure FunctionMR where
  bufIndex : Nat := 0
  jac : JacobianMR := {}

/-- Which callback results are valid for the current point. -/
structure NLPState where
  evalF : Bool := false
  evalG : Bool := false
  gradF : Bool := false
  jacG : Bool := false
  hes : Bool := false

def NLPState.checkResetX (s : NLPState) (newX : Bool) : NLPState := if newX then {} else s

def NLPState.checkResetLambda (s : NLPState) (newLambda : Bool) : NLPState :=
  if newLambda then { s with hes := false } else s

end Moo
