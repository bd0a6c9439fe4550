import Moo.Base.FixedVector
import Moo.GDOP.Problem

/-!
# C.Layout

The record of the C interface, and the layouts of the two sweeps that are built from it.

* `CProblem`: sizes, bounds, and the sparsity patterns as lists of triplets.
* `createFullsweepLayout`, `createBoundarysweepLayout`: every triplet is pushed to the list of its
  function and its block.
-/

namespace Moo
namespace C

open Loop FixedVector GDOP

/-- One nonzero of a pattern. -/
structure Triplet where
  row : Nat
  col : Nat
  bufIndex : Nat
  deriving Repr, DecidableEq, Inhabited

/-- `coo_t`. -/
structure CooT where
  row : Nat → Nat
  col : Nat → Nat
  bufIndex : Nat → Nat
  nnz : Nat

def CooT.triplet (coo : CooT) (nz : Nat) : Triplet := ⟨coo.row nz, coo.col nz, coo.bufIndex nz⟩

def CooT.triplets (coo : CooT) : List Triplet := (List.range coo.nnz).map coo.triplet

/-- The arrays of a list of triplets. -/
def CooT.ofTriplets (l : List Triplet) : CooT where
  row := fun nz => (l.getD nz default).row
  col := fun nz => (l.getD nz default).col
  bufIndex := fun nz => (l.getD nz default).bufIndex
  nnz := l.length

structure OptionalValue (K : Type) where
  value : K
  isSet : Bool

/-- `c_problem_t`: what the layouts and the constants of the problem are made of. Arrays are
pointers, `lfgEval` and `mrEval` those of `eval_structure_t`. -/
structure CProblem (K : Type) where
  xSize : Nat
  uSize : Nat
  xuSize : Nat
  pSize : Nat
  rSize : Nat
  gSize : Nat
  hasMayer : Bool
  hasLagrange : Bool
  xBounds : Nat → Bounds K
  uBounds : Nat → Bounds K
  pBounds : Nat → Bounds K
  rBounds : Nat → Bounds K
  gBounds : Nat → Bounds K
  x0Fixed : Nat → OptionalValue K
  xfFixed : Nat → OptionalValue K
  lfgEval : Nat → Nat
  lfgJac : CooT
  lfgLtHes : CooT
  mrEval : Nat → Nat
  mrJac : CooT
  mrLtHes : CooT
  xu_size : xuSize = xSize + uSize

/-! ## The full sweep -/

section FullSweep

variable {K : Type}

/-- The constructor of `FullSweepLayout`. -/
def newFullSweepLayout (hasLagrange : Bool) (sizeF sizeG : Nat) : FullSweepLayout where
  L := if hasLagrange then some {} else none
  f := List.replicate sizeF {}
  g := List.replicate sizeG {}

/-- The layout after an edit through the reference `access_Lfg_from_row(layout_lfg, row)`. -/
def accessLfgFromRow (layout : FullSweepLayout) (row : Nat) (edit : FunctionLFG → FunctionLFG) :
    FullSweepLayout :=
  let fSize := layout.f.length
  let LSize := if layout.L.isSome then 1 else 0
  if layout.L.isSome && row == 0 then { layout with L := layout.L.map edit }
  else if row < fSize + LSize then { layout with f := layout.f.modify (row - LSize) edit }
  else { layout with g := layout.g.modify (row - fSize - LSize) edit }

variable (layout : FullSweepLayout) (c : CProblem K)

def layoutLfgInitEval : FullSweepLayout :=
  let layout :=
    { layout with L := layout.L.map fun L => { L with bufIndex := c.lfgEval 0 } }
  let offset := if layout.L.isSome then 1 else 0
  let layout := forRange c.xSize (fun fIdx layout =>
    { layout with
      f := layout.f.modify fIdx fun fn =>
        { fn with bufIndex := c.lfgEval (offset + fIdx) } }) layout
  let offset := offset + c.xSize
  forRange c.gSize (fun gIdx layout =>
    { layout with
      g := layout.g.modify gIdx fun fn =>
        { fn with bufIndex := c.lfgEval (offset + gIdx) } }) layout

def pushJacLfg (t : Triplet) (jac : JacobianLFG) : JacobianLFG :=
  if t.col < c.xSize then { jac with dx := jac.dx ++ [⟨t.col, t.bufIndex⟩] }
  else if t.col < c.xuSize then { jac with du := jac.du ++ [⟨t.col - c.xSize, t.bufIndex⟩] }
  else { jac with dp := jac.dp ++ [⟨t.col - c.xuSize, t.bufIndex⟩] }

def layoutLfgInitJac : FullSweepLayout :=
  forRange c.lfgJac.nnz (fun nz layout =>
    let t := c.lfgJac.triplet nz
    accessLfgFromRow layout t.row fun fn => { fn with jac := pushJacLfg c t fn.jac }) layout

def pushHesLfg (t : Triplet) (layout : FullSweepLayout) : FullSweepLayout :=
  let hes := layout.hes
  let ppHes := layout.ppHes
  if t.row < c.xSize && t.col < c.xSize then
    { layout with hes := { hes with dxDx := hes.dxDx ++ [⟨t.row, t.col, t.bufIndex⟩] } }
  else if t.row < c.xuSize && t.col < c.xSize then
    { layout with hes := { hes with duDx := hes.duDx ++ [⟨t.row - c.xSize, t.col, t.bufIndex⟩] } }
  else if t.row < c.xuSize && t.col < c.xuSize then
    { layout with
      hes := { hes with
        duDu := hes.duDu ++ [⟨t.row - c.xSize, t.col - c.xSize, t.bufIndex⟩] } }
  else if t.col < c.xSize then
    { layout with hes := { hes with dpDx := hes.dpDx ++ [⟨t.row - c.xuSize, t.col, t.bufIndex⟩] } }
  else if t.col < c.xuSize then
    { layout with
      hes := { hes with
        dpDu := hes.dpDu ++ [⟨t.row - c.xuSize, t.col - c.xSize, t.bufIndex⟩] } }
  else
    { layout with
      ppHes := { ppHes with
        dpDp := ppHes.dpDp ++ [⟨t.row - c.xuSize, t.col - c.xuSize, t.bufIndex⟩] } }

def layoutLfgInitHes : FullSweepLayout :=
  forRange c.lfgLtHes.nnz (fun nz layout => pushHesLfg c (c.lfgLtHes.triplet nz) layout) layout

def createFullsweepLayout : FullSweepLayout :=
  let layout := newFullSweepLayout c.hasLagrange c.xSize c.gSize
  let layout := layoutLfgInitEval layout c
  let layout := layoutLfgInitJac layout c
  layoutLfgInitHes layout c

end FullSweep

/-! ## The boundary sweep -/

section BoundarySweep

variable {K : Type}

def newBoundarySweepLayout (mayerExists : Bool) (sizeR : Nat) : BoundarySweepLayout where
  M := if mayerExists then some {} else none
  r := List.replicate sizeR {}

variable (layout : BoundarySweepLayout) (c : CProblem K)

/-- The layout after an edit of the function of a row. -/
def accessMrFromRow (row : Nat) (edit : FunctionMR → FunctionMR) : BoundarySweepLayout :=
  if layout.M.isSome && row == 0 then { layout with M := layout.M.map edit }
  else { layout with r := layout.r.modify (row - if layout.M.isSome then 1 else 0) edit }

def layoutMrInitEval : BoundarySweepLayout :=
  let layout :=
    { layout with M := layout.M.map fun M => { M with bufIndex := c.mrEval 0 } }
  let offset := if layout.M.isSome then 1 else 0
  forRange c.rSize (fun rIdx layout =>
    { layout with
      r := layout.r.modify rIdx fun fn => { fn with bufIndex := c.mrEval (offset + rIdx) } }) layout

def pushJacMr (t : Triplet) (jac : JacobianMR) : JacobianMR :=
  if t.col < c.xSize then { jac with dx0 := jac.dx0 ++ [⟨t.col, t.bufIndex⟩] }
  else if t.col < 2 * c.xSize then { jac with dxf := jac.dxf ++ [⟨t.col - c.xSize, t.bufIndex⟩] }
  else if t.col < 2 * c.xSize + c.uSize then
    { jac with duf := jac.duf ++ [⟨t.col - 2 * c.xSize, t.bufIndex⟩] }
  else { jac with dp := jac.dp ++ [⟨t.col - (2 * c.xSize + c.uSize), t.bufIndex⟩] }

def layoutMrInitJac : BoundarySweepLayout :=
  forRange c.mrJac.nnz (fun nz layout =>
    let t := c.mrJac.triplet nz
    accessMrFromRow layout t.row fun fn => { fn with jac := pushJacMr c t fn.jac }) layout

def pushHesMr (t : Triplet) (hes : HessianMR) : HessianMR :=
  if t.row < c.xSize && t.col < c.xSize then
    { hes with dx0Dx0 := hes.dx0Dx0 ++ [⟨t.row, t.col, t.bufIndex⟩] }
  else if t.row < 2 * c.xSize && t.col < c.xSize then
    { hes with dxfDx0 := hes.dxfDx0 ++ [⟨t.row - c.xSize, t.col, t.bufIndex⟩] }
  else if t.row < 2 * c.xSize + c.uSize && t.col < c.xSize then
    { hes with dufDx0 := hes.dufDx0 ++ [⟨t.row - 2 * c.xSize, t.col, t.bufIndex⟩] }
  else if t.col < c.xSize then
    { hes with dpDx0 := hes.dpDx0 ++ [⟨t.row - (2 * c.xSize + c.uSize), t.col, t.bufIndex⟩] }
  else if t.row < 2 * c.xSize && t.col < 2 * c.xSize then
    { hes with dxfDxf := hes.dxfDxf ++ [⟨t.row - c.xSize, t.col - c.xSize, t.bufIndex⟩] }
  else if t.row < 2 * c.xSize + c.uSize && t.col < 2 * c.xSize then
    { hes with dufDxf := hes.dufDxf ++ [⟨t.row - 2 * c.xSize, t.col - c.xSize, t.bufIndex⟩] }
  else if t.col < 2 * c.xSize then
    { hes with
      dpDxf := hes.dpDxf ++ [⟨t.row - (2 * c.xSize + c.uSize), t.col - c.xSize, t.bufIndex⟩] }
  else if t.row < 2 * c.xSize + c.uSize && t.col < 2 * c.xSize + c.uSize then
    { hes with dufDuf := hes.dufDuf ++ [⟨t.row - 2 * c.xSize, t.col - 2 * c.xSize, t.bufIndex⟩] }
  else if t.col < 2 * c.xSize + c.uSize then
    { hes with
      dpDuf := hes.dpDuf ++ [⟨t.row - (2 * c.xSize + c.uSize), t.col - 2 * c.xSize, t.bufIndex⟩] }
  else
    { hes with
      dpDp := hes.dpDp ++
        [⟨t.row - (2 * c.xSize + c.uSize), t.col - (2 * c.xSize + c.uSize), t.bufIndex⟩] }

/-- Reads the Hessian list of the full sweep. -/
def layoutMrInitHes : BoundarySweepLayout :=
  forRange c.lfgLtHes.nnz (fun nz layout =>
    { layout with hes := pushHesMr c (c.lfgLtHes.triplet nz) layout.hes }) layout

def createBoundarysweepLayout : BoundarySweepLayout :=
  let layout := newBoundarySweepLayout c.hasMayer c.rSize
  let layout := layoutMrInitEval layout c
  let layout := layoutMrInitJac layout c
  layoutMrInitHes layout c

end BoundarySweep

/-! ## Constants -/

section Constants

variable {K : Type} (c : CProblem K)

def createBounds (bounds : Nat → Bounds K) (size : Nat) : List (Bounds K) := fill size bounds

def createFixed (optional : Nat → OptionalValue K) (size : Nat) : List (Option K) :=
  fill size fun idx => if (optional idx).isSet then some (optional idx).value else none

def createConstants : ProblemConstants K where
  hasMayer := c.hasMayer
  hasLagrange := c.hasLagrange
  xBounds := createBounds c.xBounds c.xSize
  uBounds := createBounds c.uBounds c.uSize
  pBounds := createBounds c.pBounds c.pSize
  x0Fixed := createFixed c.x0Fixed c.xSize
  xfFixed := createFixed c.xfFixed c.xSize
  rBounds := createBounds c.rBounds c.rSize
  gBounds := createBounds c.gBounds c.gSize

@[simp] theorem createConstants_xSize : (createConstants c).xSize = c.xSize := fill_length ..
@[simp] theorem createConstants_uSize : (createConstants c).uSize = c.uSize := fill_length ..
@[simp] theorem createConstants_pSize : (createConstants c).pSize = c.pSize := fill_length ..
@[simp] theorem createConstants_gSize : (createConstants c).gSize = c.gSize := fill_length ..
@[simp] theorem createConstants_rSize : (createConstants c).rSize = c.rSize := fill_length ..

end Constants

end C
end Moo
