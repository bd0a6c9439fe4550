import Moo.Base.FixedVector
import Moo.Base.Mesh
import Moo.Lib.PiecewiseLinear

/-!
# Base.Trajectory

Primal and dual trajectories, and their interpolation onto another mesh.

A series holds the value at `t = 0` and one value for each node of the mesh. `MeshPtr` is a
shared pointer to a mesh: pointers are compared by address. Dereferencing a null pointer has no
result (`none`).
-/

namespace Moo

open Loop FixedVector

inductive InterpolationMethod where
  | linear | polynomial
  deriving Repr, DecidableEq

structure MeshPtr {K : Type} [Field K] (T : FLGR K) where
  addr : Nat
  mesh : Mesh T

section Types

variable {K : Type} [Field K] (T : FLGR K)

structure Trajectory where
  t : List K := []
  x : List (List K) := []
  u : List (List K) := []
  p : List K := []
  interpolation : InterpolationMethod := .linear
  inducingMesh : Option (MeshPtr T) := none

/-- The default constructor of the source sets `interpolation` only where the object is value
initialised; a local object starts with any method. -/
structure CostateTrajectory where
  t : List K := []
  costatesF : List (List K) := []
  costatesG : List (List K) := []
  costatesR : List K := []
  interpolation : InterpolationMethod := .linear
  inducingMesh : Option (MeshPtr T) := none

structure PrimalDualTrajectory where
  primals : Option (Trajectory T) := none
  costates : Option (CostateTrajectory T) := none
  lowerCostates : Option (Trajectory T) := none
  upperCostates : Option (Trajectory T) := none

end Types

section Interpolation

variable {K : Type} [Field K] [LinearOrder K] {T : FLGR K}

/-- `std::lower_bound`: the first position whose entry is not less than `value`. -/
def lowerBound (l : List K) (value : K) : Nat := l.findIdx fun s => decide (¬ s < value)

def interpolateLinearSingle (oldT values newT : List K) : List K :=
  newT.map fun tNew =>
    let idx := lowerBound oldT tNew
    if idx = 0 then raw values 0
    else if idx = oldT.length then raw values (values.length - 1)
    else
      let t1 := raw oldT (idx - 1)
      let t2 := raw oldT idx
      let y1 := raw values (idx - 1)
      let y2 := raw values idx
      y1 + (tNew - t1) * (y2 - y1) / (t2 - t1)

def interpolateLinearMultiple (oldT : List K) (values : List (List K)) (newT : List K) :
    List (List K) :=
  values.map fun v => interpolateLinearSingle oldT v newT

/-- The search for the interval of the old mesh; offset and interval only grow. -/
def advance (M : Mesh T) (tQuery : K) (s : Nat × Nat) : Nat × Nat :=
  whileLoop M.intervals
    (fun s => decide (s.2 + 1 < M.intervals) && decide (M.gridAt (s.2 + 1) < tQuery))
    (fun s => (s.1 + M.nodesAt s.2, s.2 + 1)) s

/-- The polynomial of the interval. -/
def interpolateOn (M : Mesh T) (values : List K) (tQuery : K) (s : Nat × Nat) : K :=
  T.interpolate (M.nodesAt s.2) true (fun k => raw values (s.1 + k)) 1 (M.gridAt s.2)
    (M.gridAt (s.2 + 1)) tQuery

/-- One pass of a loop over times that writes one entry after the other. -/
def interpolatePolynomialStep (M : Mesh T) (values : List K) (s : List K × Nat × Nat)
    (tQuery : K) : List K × Nat × Nat :=
  let r := advance M tQuery s.2
  (s.1 ++ [interpolateOn M values tQuery r], r)

/-- The entry for `t = 0` is written before the loop, whose first pass overwrites it. An empty grid
has no place for it: `interpolatePolynomialOntoGridSingleRead` has no result there. -/
def interpolatePolynomialOntoGridSingle (M : Mesh T) (values timeGrid : List K) : List K :=
  let newValues := (List.replicate timeGrid.length 0).set 0 (raw values 0)
  (timeGrid.zipIdx.foldl (fun s q =>
    let r := advance M q.1 s.2
    (s.1.set q.2 (interpolateOn M values q.1 r), r)) (newValues, 0, 0)).1

def interpolatePolynomialOntoGridMultiple (M : Mesh T) (values : List (List K))
    (timeGrid : List K) : List (List K) :=
  values.map fun v => interpolatePolynomialOntoGridSingle M v timeGrid

theorem interpolateLinearSingle_length (oldT values newT : List K) :
    (interpolateLinearSingle oldT values newT).length = newT.length := by
  simp [interpolateLinearSingle]

/-- Each entry is a value of the piecewise linear function through the samples. -/
theorem interpolateLinearSingle_getD {oldT values : List K} (hl : oldT.length = values.length)
    (newT : List K) {k : Nat} (hk : k < newT.length) :
    raw (interpolateLinearSingle oldT values newT) k =
      PiecewiseLinear.piecewiseLinear oldT values (raw newT k) := by
  rw [interpolateLinearSingle, raw_map _ _ hk, PiecewiseLinear.piecewiseLinear_eq hl]
  rfl

namespace Trajectory

variable (traj : Trajectory T) (mesh : MeshPtr T)

def interpolateOntoMeshLinear : Trajectory T :=
  let newT := mesh.mesh.getFlatT
  { t := newT
    x := interpolateLinearMultiple traj.t traj.x newT
    u := interpolateLinearMultiple traj.t traj.u newT
    p := traj.p
    inducingMesh := some mesh }

/-- Dereferences `inducing_mesh`. -/
def interpolateOntoMeshPolynomial : Option (Trajectory T) :=
  traj.inducingMesh.map fun old =>
    let meshGrid := mesh.mesh.getFlatT
    { t := meshGrid
      x := interpolatePolynomialOntoGridMultiple old.mesh traj.x meshGrid
      u := interpolatePolynomialOntoGridMultiple old.mesh traj.u meshGrid
      p := traj.p
      inducingMesh := some mesh }

def interpolateOntoMesh : Option (Trajectory T) :=
  match traj.interpolation with
  | .linear => some (traj.interpolateOntoMeshLinear mesh)
  | .polynomial => traj.interpolateOntoMeshPolynomial mesh

end Trajectory

namespace CostateTrajectory

variable (traj : CostateTrajectory T) (mesh : MeshPtr T)

def interpolateOntoMeshLinear : CostateTrajectory T :=
  let newT := mesh.mesh.getFlatT
  { t := newT
    costatesF := interpolateLinearMultiple traj.t traj.costatesF newT
    costatesG := interpolateLinearMultiple traj.t traj.costatesG newT
    costatesR := traj.costatesR
    inducingMesh := some mesh }

def interpolateOntoMeshPolynomial (old : Mesh T) : CostateTrajectory T :=
  let newT := mesh.mesh.getFlatT
  { t := newT
    costatesF := interpolatePolynomialOntoGridMultiple old traj.costatesF newT
    costatesG := interpolatePolynomialOntoGridMultiple old traj.costatesG newT
    costatesR := traj.costatesR
    inducingMesh := some mesh }

/-- Without an inducing mesh the interpolation is linear, whatever the method. -/
def interpolateOntoMesh : CostateTrajectory T :=
  match traj.interpolation, traj.inducingMesh with
  | .polynomial, some old => traj.interpolateOntoMeshPolynomial mesh old.mesh
  | _, _ => traj.interpolateOntoMeshLinear mesh

end CostateTrajectory

end Interpolation

end Moo
