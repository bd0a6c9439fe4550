import Moo.Base.Trajectory
import Moo.GDOP.Problem
import Moo.Lib.OrdSet
import Moo.Lib.Partition

/-!
# GDOP.Strategies

The strategies of a mesh-refinement run: interpolation onto a refined mesh, and `L2BoundaryNorm`.

* `InterpolationRefinedInitialization.apply`: from a solution on the old mesh to a guess on the
  new one.
* `L2BoundaryNorm.apply`: phase one halves every interval, phase two halves those where a control
  is not smooth, and their neighbours.
* `L2BoundaryNorm.apply_spec`: a new grid has the points of the old one and midpoints of its
  intervals, and uses up one of the iterations.

`sqrt` and `pow` are any functions.
-/

namespace Moo
namespace GDOP

open Loop FixedVector Partition

/-! ## Interpolation -/

section Interpolation

variable {K : Type} [Field K] [LinearOrder K] {T : FLGR K}

def linearInterpolation (oldMesh newMesh : Mesh T) (values : List K) : List K :=
  interpolateLinearSingle oldMesh.getFlatT values newMesh.getFlatT

def polynomialInterpolation (oldMesh newMesh : Mesh T) (values : List K) : List K :=
  (newMesh.forNodes (fun i j s => interpolatePolynomialStep oldMesh values s (newMesh.tAt i j))
    ([raw values 0], 0, 0)).1

/-- The two subclasses of `Interpolation`. -/
def interpolation : InterpolationMethod → Mesh T → Mesh T → List K → List K
  | .linear => linearInterpolation
  | .polynomial => polynomialInterpolation

/-- One sample for `t = 0` and one for each node of the new mesh. -/
theorem interpolation_length (method : InterpolationMethod) (oldMesh newMesh : Mesh T)
    (values : List K) : (interpolation method oldMesh newMesh values).length =
      newMesh.nodeCount + 1 := by
  cases method with
  | linear => exact (interpolateLinearSingle_length ..).trans newMesh.getFlatT_length
  | polynomial =>
    refine newMesh.forNodes_inv (P := fun n (s : List K × Nat × Nat) => s.1.length = n + 1) rfl ?_
    intro i j _ _ s hs
    unfold interpolatePolynomialStep
    simp only [List.length_append, List.length_singleton, hs]

end Interpolation

structure InterpolationRefinedInitialization {K : Type} [Field K] (T : FLGR K) where
  interpolation : Mesh T → Mesh T → List K → List K
  interpolatePrimals : Bool
  interpolateCostatesConstraints : Bool
  interpolateCostatesBounds : Bool

namespace InterpolationRefinedInitialization

variable {K : Type} [Field K] {T : FLGR K} (R : InterpolationRefinedInitialization T)
variable (oldMesh : Mesh T) (newMesh : MeshPtr T)

/-- A trajectory of states and controls: the primals, or the multipliers of one side of the
bounds. -/
def refineTrajectory (old : Trajectory T) : Trajectory T where
  t := newMesh.mesh.getFlatT
  x := old.x.map (R.interpolation oldMesh newMesh.mesh)
  u := old.u.map (R.interpolation oldMesh newMesh.mesh)
  p := old.p
  inducingMesh := some newMesh

def refineCostates (old : CostateTrajectory T) : CostateTrajectory T where
  t := newMesh.mesh.getFlatT
  costatesF := old.costatesF.map (R.interpolation oldMesh newMesh.mesh)
  costatesG := old.costatesG.map (R.interpolation oldMesh newMesh.mesh)
  costatesR := old.costatesR
  inducingMesh := some newMesh

/-- `operator()`; a part that is asked for is dereferenced. -/
def apply (trajectory : PrimalDualTrajectory T) : Option (PrimalDualTrajectory T) := do
  let primals ← if R.interpolatePrimals then
      trajectory.primals.map fun old => some (R.refineTrajectory oldMesh newMesh old)
    else some none
  let costates ← if R.interpolateCostatesConstraints then
      trajectory.costates.map fun old => some (R.refineCostates oldMesh newMesh old)
    else some none
  let (lowerCostates, upperCostates) ← if R.interpolateCostatesBounds then
      trajectory.lowerCostates.bind fun lower => trajectory.upperCostates.map fun upper =>
        (some (R.refineTrajectory oldMesh newMesh lower),
          some (R.refineTrajectory oldMesh newMesh upper))
    else some (none, none)
  some { primals, costates, lowerCostates, upperCostates }

end InterpolationRefinedInitialization

section OnMesh

variable {K : Type} [Field K] {T : FLGR K}

/-- `n` series with one sample for `t = 0` and one for each node. -/
structure Sampled (M : Mesh T) (n : Nat) (series : List (List K)) : Prop where
  count : series.length = n
  samples : ∀ v ∈ series, v.length = M.nodeCount + 1

structure XuOnMesh (xSize uSize : Nat) (mesh : MeshPtr T) (traj : Trajectory T) : Prop where
  inducing : traj.inducingMesh = some mesh
  t : traj.t.length = mesh.mesh.nodeCount + 1
  x : Sampled mesh.mesh xSize traj.x
  u : Sampled mesh.mesh uSize traj.u

structure FgOnMesh (fSize gSize : Nat) (mesh : MeshPtr T) (traj : CostateTrajectory T) :
    Prop where
  inducing : traj.inducingMesh = some mesh
  t : traj.t.length = mesh.mesh.nodeCount + 1
  f : Sampled mesh.mesh fSize traj.costatesF
  g : Sampled mesh.mesh gSize traj.costatesG

/-- All four parts are there and from this mesh. -/
structure OnMesh (pc : ProblemConstants K) (mesh : MeshPtr T) (traj : PrimalDualTrajectory T) :
    Prop where
  primals : ∃ t, traj.primals = some t ∧ XuOnMesh pc.xSize pc.uSize mesh t
  costates : ∃ t, traj.costates = some t ∧ FgOnMesh pc.fSize pc.gSize mesh t
  lower : ∃ t, traj.lowerCostates = some t ∧ XuOnMesh pc.xSize pc.uSize mesh t
  upper : ∃ t, traj.upperCostates = some t ∧ XuOnMesh pc.xSize pc.uSize mesh t

variable [LinearOrder K] {method : InterpolationMethod}

theorem Sampled.refine {oldMesh newMesh : Mesh T} {n : Nat} {series : List (List K)}
    (h : Sampled oldMesh n series) :
    Sampled newMesh n (series.map (interpolation method oldMesh newMesh)) := by
  refine ⟨List.length_map .. |>.trans h.count, fun v hv => ?_⟩
  obtain ⟨w, -, rfl⟩ := List.mem_map.mp hv
  exact interpolation_length method oldMesh newMesh w

/-- The guess on the new mesh has all parts of the solution on the old one. -/
theorem apply_onMesh (method : InterpolationMethod) {pc : ProblemConstants K} {oldMesh : MeshPtr T}
    (newMesh : MeshPtr T) {traj : PrimalDualTrajectory T} (h : OnMesh pc oldMesh traj) :
    ∃ guess, InterpolationRefinedInitialization.apply ⟨interpolation method, true, true, true⟩
      oldMesh.mesh newMesh traj = some guess ∧ OnMesh pc newMesh guess := by
  obtain ⟨⟨primals, hp, op⟩, ⟨costates, hc, oc⟩, ⟨lower, hl, ol⟩, ⟨upper, hu, ou⟩⟩ := h
  have refined {old : Trajectory T} (o : XuOnMesh pc.xSize pc.uSize oldMesh old) :
      XuOnMesh pc.xSize pc.uSize newMesh (InterpolationRefinedInitialization.refineTrajectory
        ⟨interpolation method, true, true, true⟩ oldMesh.mesh newMesh old) :=
    ⟨rfl, newMesh.mesh.getFlatT_length, o.x.refine, o.u.refine⟩
  unfold InterpolationRefinedInitialization.apply
  simp only [if_true, hp, hc, hl, hu, Option.map_some, Option.bind_some, Option.bind_eq_bind]
  exact ⟨_, rfl, ⟨_, rfl, refined op⟩,
    ⟨_, rfl, rfl, newMesh.mesh.getFlatT_length, oc.f.refine, oc.g.refine⟩,
    ⟨_, rfl, refined ol⟩, ⟨_, rfl, refined ou⟩⟩

end OnMesh

/-! ## L2BoundaryNorm -/

/-- The highest scheme of the tables. -/
def maxScheme : Nat := 100

structure L2BoundaryNorm (K : Type) where
  phaseOneIteration : Nat
  phaseTwoIteration : Nat
  maxPhaseOneIterations : Nat
  maxPhaseTwoIterations : Nat
  phaseTwoLevel : K
  meshSizeZero : K
  ctol1 : List K
  ctol2 : List K

/-- The variables of phase two: the buffers for `p'` and `p''` have `maxScheme + 1` entries and
keep their content, and `lastEnd` is set once an interval has been done. -/
structure Detection (K : Type) [LinearOrder K] where
  terminated : Bool
  newGrid : OrdSet K (· < ·)
  p1 : Nat → K
  p2 : Nat → K
  lastEnd : Option (K × K)

section Detection

variable {K : Type} [Field K] [LinearOrder K] {T : FLGR K}

def Detection.start : Detection K where
  terminated := true
  newGrid := .empty
  p1 := fun _ => 0
  p2 := fun _ => 0
  lastEnd := none

/-- `Linalg::square`, on the entries from `start` on. -/
def square (size start : Nat) (x : Nat → K) : Nat → K :=
  forRange size (fun i x => Function.update x (start + i) (x (start + i) * x (start + i))) x

def plusOneError (a b : K) : K := |a - b| / (1 + min |a| |b|)

/-- The midpoints of interval `i` and of its neighbours. -/
def insertMidpoints (M : Mesh T) (i : Nat) (newGrid : OrdSet K (· < ·)) : OrdSet K (· < ·) :=
  let newGrid := if 0 < i then newGrid.insert (mid M.grid (i - 1)) else newGrid
  let newGrid := newGrid.insert (mid M.grid i)
  if i + 2 < M.grid.length then newGrid.insert (mid M.grid (i + 1)) else newGrid

/-- The points that interval `i` puts into the new grid. -/
def insertPoints (M : Mesh T) (i : Nat) (onInterval boundary : Bool)
    (newGrid : OrdSet K (· < ·)) : OrdSet K (· < ·) :=
  let newGrid := if onInterval then insertMidpoints M i newGrid else newGrid
  let newGrid :=
    if boundary then (newGrid.insert (mid M.grid i)).insert (mid M.grid (i - 1)) else newGrid
  newGrid.insert (M.gridAt i)

variable (sqrt : K → K) (pow : K → K → K)

/-- The ends are the last entries of the buffers, not of the interval. -/
def detectInterval (M : Mesh T) (uVec : List K) (tol1 tol2 ctol1 ctol2 : K) (i : Nat)
    (s : Detection K) : Detection K :=
  let scheme := M.nodesAt i
  let startIndex := M.accNodesAt i 0
  let p1 := T.diffMatrixMultiply scheme (fun k => raw uVec (startIndex + k)) s.p1
  let p2 := T.diffMatrixMultiply scheme p1 s.p2
  let thisEnd := (p1 maxScheme, p2 maxScheme)
  let p1 := square scheme 1 p1
  let p2 := square scheme 1 p2
  let normP1 := sqrt (T.integrate scheme fun k => p1 (1 + k))
  let normP2 := sqrt (T.integrate scheme fun k => p2 (1 + k))
  let onInterval := decide (normP1 > tol1) || decide (normP2 > tol2)
  let boundary := s.lastEnd.elim false fun lastEnd =>
    decide (0 < i) && (decide (plusOneError (p1 0) lastEnd.1 > ctol1) ||
      decide (plusOneError (p2 0) lastEnd.2 > ctol2))
  { terminated := s.terminated && !onInterval && !boundary
    newGrid := insertPoints M i onInterval boundary s.newGrid
    p1
    p2
    lastEnd := some thisEnd }

end Detection

namespace L2BoundaryNorm

variable {K : Type} [Field K] [LinearOrder K] {T : FLGR K} (N : L2BoundaryNorm K) (M : Mesh T)

omit [LinearOrder K] in
def reset (uSize : Nat) : L2BoundaryNorm K :=
  { N with
    phaseOneIteration := 0
    phaseTwoIteration := 0
    meshSizeZero := (M.intervals : K)
    ctol1 := fill uSize fun _ => 1 / 10
    ctol2 := fill uSize fun _ => 1 / 10 }

/-- Phase one. -/
def bisect : List K :=
  let size := M.grid.length
  let newGrid := forRange (size - 1) (fun i newGrid =>
    let newGrid := Function.update newGrid (2 * i) (M.gridAt i)
    Function.update newGrid (2 * i + 1) (mid M.grid i)) fun _ => 0
  fill (2 * size - 1) (Function.update newGrid (2 * size - 2) M.tf)

variable (sqrt : K → K) (pow : K → K → K)

/-- Interval `i` of control `uIdx`, with the tolerances of the control. -/
def detectIntervalOf (u : List (List K)) (uIdx i : Nat) (s : Detection K) : Detection K :=
  let uVec := u.getD uIdx []
  let uRange := uVec.max?.getD 0 - uVec.min?.getD 0
  let tol1 := uRange * pow 10 (-N.phaseTwoLevel) / N.meshSizeZero
  let tol2 := tol1 / 2
  detectInterval sqrt M uVec tol1 tol2 (raw N.ctol1 uIdx) (raw N.ctol2 uIdx) i s

/-- The intervals of control `uIdx`. -/
def detectControl (u : List (List K)) (uIdx : Nat) (s : Detection K) : Detection K :=
  forRange (M.grid.length - 1) (N.detectIntervalOf M sqrt pow u uIdx) s

/-- Phase two. -/
def detect (u : List (List K)) : Detection K :=
  let s := forRange u.length (N.detectControl M sqrt pow u) .start
  { s with newGrid := s.newGrid.insert (M.grid.getLastD 0) }

omit [Field K] [LinearOrder K] in
/-- The same degree on all intervals. A grid of one point has no interval. -/
def constantDegree (p : Nat) (newGrid : List K) : Option (MeshUpdate K) :=
  if h : 2 ≤ newGrid.length ∧ 0 < p then
    some
      { newGrid
        newNodesPerInterval := List.replicate (newGrid.length - 1) p
        nonempty := by
          rw [ne_eq, List.replicate_eq_nil_iff]
          omega
        grid_length := by
          rw [List.length_replicate]
          omega
        nodes_pos := by
          intro q hq
          rw [List.eq_of_mem_replicate hq]
          exact h.2 }
  else none

/-- `operator()`: the strategy with its counters, and the update or a null pointer. -/
def apply (trajectory : PrimalDualTrajectory T) :
    Option (L2BoundaryNorm K × Option (MeshUpdate K)) :=
  let p := M.nodesAt 0
  if N.phaseOneIteration < N.maxPhaseOneIterations then
    (constantDegree p (bisect M)).map fun update =>
      ({ N with phaseOneIteration := N.phaseOneIteration + 1 }, some update)
  else if N.phaseTwoIteration < N.maxPhaseTwoIterations then
    trajectory.primals.bind fun primals =>
      let s := N.detect M sqrt pow primals.u
      let N := { N with phaseTwoIteration := N.phaseTwoIteration + 1 }
      if s.terminated then some (N, none)
      else (constantDegree p s.newGrid.elems).map fun update => (N, some update)
  else some (N, none)

end L2BoundaryNorm

/-! ## The grid of phase two -/

section Points

variable {K : Type} [Field K] [LinearOrder K] {T : FLGR K} {M : Mesh T} {i : Nat}
variable {newGrid : OrdSet K (· < ·)}

omit [LinearOrder K] in
theorem gridAt_mem (hi : i < M.grid.length) : M.gridAt i ∈ M.grid := by
  rw [Mesh.gridAt, List.getD_eq_getElem _ _ hi]
  exact List.getElem_mem _

omit [LinearOrder K] in
theorem mid_added {k : Nat} (hk : k + 1 < M.grid.length) : Added M.grid (mid M.grid k) :=
  .inr ⟨k, hk, rfl⟩

theorem insertMidpoints_keeps {y : K} (hy : y ∈ newGrid.elems) :
    y ∈ (insertMidpoints M i newGrid).elems := by
  unfold insertMidpoints
  by_cases h0 : 0 < i <;> by_cases h1 : i + 2 < M.grid.length <;> simp [h0, h1, hy]

theorem insertMidpoints_adds (hi : i + 1 < M.grid.length)
    (hs : ∀ y ∈ newGrid.elems, Added M.grid y) :
    ∀ y ∈ (insertMidpoints M i newGrid).elems, Added M.grid y := by
  have left : ∀ y ∈ (if 0 < i then newGrid.insert (mid M.grid (i - 1)) else newGrid).elems,
      Added M.grid y := by
    split
    · exact OrdSet.forall_insert hs (mid_added (by omega))
    · exact hs
  unfold insertMidpoints
  dsimp only
  split
  · rename_i h
    exact OrdSet.forall_insert (OrdSet.forall_insert left (mid_added hi)) (mid_added (by omega))
  · exact OrdSet.forall_insert left (mid_added hi)

variable {onInterval boundary : Bool}

theorem insertPoints_keeps {y : K} (hy : y ∈ newGrid.elems ∨ y = M.gridAt i) :
    y ∈ (insertPoints M i onInterval boundary newGrid).elems := by
  unfold insertPoints
  rw [OrdSet.mem_insert]
  refine hy.symm.imp_right fun hy => ?_
  cases onInterval <;> cases boundary <;> simp [hy, insertMidpoints_keeps]

/-- Only the point of the interval and midpoints are new. -/
theorem insertPoints_adds (hi : i + 1 < M.grid.length) (hb : boundary = true → 0 < i)
    (hs : ∀ y ∈ newGrid.elems, Added M.grid y) :
    ∀ y ∈ (insertPoints M i onInterval boundary newGrid).elems, Added M.grid y := by
  have interval : ∀ y ∈ (if onInterval then insertMidpoints M i newGrid else newGrid).elems,
      Added M.grid y := by
    split
    · exact insertMidpoints_adds hi hs
    · exact hs
  refine OrdSet.forall_insert ?_ (.inl (gridAt_mem (by omega)))
  split
  · rename_i h
    have := hb h
    exact OrdSet.forall_insert (OrdSet.forall_insert interval (mid_added hi))
      (mid_added (by omega))
  · exact interval

end Points

section Phases

variable {K : Type} [Field K] [LinearOrder K] {T : FLGR K} (M : Mesh T)

/-- What a control leaves: the points of the first `n` intervals are in the grid. -/
structure Covers (n : Nat) (s s' : Detection K) : Prop where
  adds : (∀ y ∈ s.newGrid.elems, Added M.grid y) → ∀ y ∈ s'.newGrid.elems, Added M.grid y
  keeps : ∀ y ∈ s.newGrid.elems, y ∈ s'.newGrid.elems
  points : ∀ k, k < n → M.gridAt k ∈ s'.newGrid.elems

variable {M}

theorem covers_step {i : Nat} (hi : i + 1 < M.grid.length) {sqrt : K → K} {uVec : List K}
    {tol1 tol2 ctol1 ctol2 : K} {s s' : Detection K} (h : Covers M i s s') :
    Covers M (i + 1) s (detectInterval sqrt M uVec tol1 tol2 ctol1 ctol2 i s') := by
  refine ⟨fun hs => insertPoints_adds hi ?_ (h.adds hs), fun y hy => ?_, fun k hk => ?_⟩
  · -- no boundary before the first interval
    cases s'.lastEnd with
    | none => intro h; cases h
    | some lastEnd =>
      intro h
      exact of_decide_eq_true (Bool.and_eq_true_iff.mp h).1
  · exact insertPoints_keeps (.inl (h.keeps y hy))
  · rcases Nat.lt_succ_iff_lt_or_eq.mp hk with hk | rfl
    · exact insertPoints_keeps (.inl (h.points k hk))
    · exact insertPoints_keeps (.inr rfl)

namespace L2BoundaryNorm

variable (N : L2BoundaryNorm K) (sqrt : K → K) (pow : K → K → K)

theorem covers_control (u : List (List K)) (uIdx : Nat) (s : Detection K) :
    Covers M (M.grid.length - 1) s (N.detectControl M sqrt pow u uIdx s) :=
  forRange_inv (P := fun i s' => Covers M i s s') ⟨id, fun _ => id, fun _ hk => by omega⟩
    fun _ hi _ h => covers_step (by omega) h

/-- A control that makes phase two refine the grid has put all points into it. -/
theorem detect_covers (u : List (List K)) (n : Nat) :
    (∀ y ∈ (forRange n (N.detectControl M sqrt pow u) .start).newGrid.elems, Added M.grid y) ∧
      ((forRange n (N.detectControl M sqrt pow u) .start).terminated = false →
        ∀ k, k < M.grid.length - 1 →
          M.gridAt k ∈ (forRange n (N.detectControl M sqrt pow u) .start).newGrid.elems) := by
  induction n with
  | zero => exact ⟨fun _ hy => (by cases hy), fun h => (by cases h)⟩
  | succ n ih =>
    have h := N.covers_control sqrt pow u n (forRange n (N.detectControl M sqrt pow u) .start)
      (M := M)
    exact ⟨h.adds ih.1, fun _ => h.points⟩

omit [LinearOrder K] in
theorem last_eq : M.grid.getLastD 0 = M.gridAt (M.grid.length - 1) := by
  rw [List.getLastD_eq_getLast?, List.getLast?_eq_getElem?, Mesh.gridAt,
    List.getD_eq_getElem?_getD]

/-- Phase two. -/
theorem detect_halves {u : List (List K)} (h : (N.detect M sqrt pow u).terminated = false) :
    Halves M.grid (N.detect M sqrt pow u).newGrid.elems := by
  have hl := M.grid_length
  obtain ⟨adds, points⟩ := N.detect_covers sqrt pow u u.length (M := M)
  refine ⟨(N.detect M sqrt pow u).newGrid.sorted, fun y hy => ?_, ?_⟩
  · obtain ⟨k, hk, rfl⟩ := List.getElem_of_mem hy
    have e : M.grid[k] = M.gridAt k := (List.getD_eq_getElem _ _ hk).symm
    rw [e]
    refine OrdSet.mem_insert.mpr ?_
    by_cases hlast : k < M.grid.length - 1
    · exact .inr (points h k hlast)
    · rw [last_eq, show k = M.grid.length - 1 by omega]
      exact .inl rfl
  · refine OrdSet.forall_insert adds (.inl ?_)
    rw [last_eq]
    exact gridAt_mem (by omega)

omit [LinearOrder K] in
theorem bisect_eq : bisect M = (List.range (2 * M.grid.length - 1)).map fun k =>
    if k % 2 = 0 then M.gridAt (k / 2) else mid M.grid (k / 2) := by
  have hl := M.grid_length
  have key := forRange_inv (n := M.grid.length - 1)
    (P := fun n (g : Nat → K) => ∀ k, k < 2 * n →
      g k = if k % 2 = 0 then M.gridAt (k / 2) else mid M.grid (k / 2))
    (f := fun i newGrid => Function.update (Function.update newGrid (2 * i) (M.gridAt i))
      (2 * i + 1) (mid M.grid i)) (s := fun _ => 0) (fun k hk => by omega) ?_
  · refine fill_congr fun k hk => ?_
    by_cases hlast : k = 2 * M.grid.length - 2
    · subst hlast
      rw [Function.update_self, if_pos (by omega), ← M.tf_eq, Mesh.gridAt]
      congr 1
      omega
    · rw [Function.update_of_ne hlast]
      exact key k (by omega)
  · intro i _ g hg k hk
    by_cases h1 : k = 2 * i + 1
    · subst h1
      rw [Function.update_self, if_neg (by omega), show (2 * i + 1) / 2 = i by omega]
    · rw [Function.update_of_ne h1]
      by_cases h0 : k = 2 * i
      · subst h0
        rw [Function.update_self, if_pos (by omega), show 2 * i / 2 = i by omega]
      · rw [Function.update_of_ne h0]
        exact hg k (by omega)

variable [IsStrictOrderedRing K]

/-- Phase one. -/
theorem bisect_halves (hM : M.grid.Pairwise (· < ·)) : Halves M.grid (bisect M) := by
  have hl := M.grid_length
  rw [bisect_eq]
  refine ⟨sorted_of_succ fun k hk => ?_, fun y hy => ?_, fun y hy => ?_⟩
  · obtain ⟨h1, h2⟩ := mid_mem hM (show k / 2 + 1 < M.grid.length by omega)
    by_cases hk2 : k % 2 = 0
    · rw [if_pos hk2, if_neg (by omega), show (k + 1) / 2 = k / 2 by omega]
      exact h1
    · rw [if_neg hk2, if_pos (by omega), show (k + 1) / 2 = k / 2 + 1 by omega]
      exact h2
  · obtain ⟨k, hk, rfl⟩ := List.getElem_of_mem hy
    refine List.mem_map.mpr ⟨2 * k, List.mem_range.mpr (by omega), ?_⟩
    rw [if_pos (by omega), show 2 * k / 2 = k by omega]
    exact List.getD_eq_getElem _ _ hk
  · obtain ⟨k, hk, rfl⟩ := List.mem_map.mp hy
    rw [List.mem_range] at hk
    split
    · exact .inl (gridAt_mem (by omega))
    · exact mid_added (by omega)

/-- The iterations left, of both phases. -/
def remaining : Nat :=
  (N.maxPhaseOneIterations - N.phaseOneIteration) +
    (N.maxPhaseTwoIterations - N.phaseTwoIteration)

omit [Field K] [LinearOrder K] [IsStrictOrderedRing K] in
theorem constantDegree_eq {p : Nat} {newGrid : List K} (hp : 0 < p) (hg : 2 ≤ newGrid.length) :
    ∃ update, constantDegree p newGrid = some update ∧ update.newGrid = newGrid ∧
      ∀ q ∈ update.newNodesPerInterval, q = p := by
  unfold constantDegree
  rw [dif_pos ⟨hg, hp⟩]
  exact ⟨_, rfl, rfl, fun q hq => List.eq_of_mem_replicate hq⟩

/-- What an update is: a refined grid with the degree of the first interval everywhere. -/
structure Refines (M : Mesh T) (update : MeshUpdate K) : Prop where
  halves : Halves M.grid update.newGrid
  degree : ∀ q ∈ update.newNodesPerInterval, q = M.nodesAt 0

theorem apply_spec (hM : M.grid.Pairwise (· < ·)) {trajectory : PrimalDualTrajectory T}
    {primals : Trajectory T} (ht : trajectory.primals = some primals) :
    ∃ N' next, N.apply M sqrt pow trajectory = some (N', next) ∧
      ∀ update, next = some update → N'.remaining + 1 = N.remaining ∧ Refines M update := by
  have hp := M.nodesAt_pos M.intervals_pos
  have two {l : List K} (h : Halves M.grid l) : 2 ≤ l.length := by
    have := h.length_le hM
    have := M.grid_length
    have := M.intervals_pos
    omega
  unfold apply
  dsimp only
  split
  · rename_i h1
    have hh := bisect_halves hM
    obtain ⟨update, hu, hg, hd⟩ := constantDegree_eq hp (two hh)
    rw [hu]
    refine ⟨_, _, rfl, fun v hv => ?_⟩
    cases hv
    refine ⟨?_, hg ▸ hh, hd⟩
    simp only [remaining]
    omega
  · split
    · rename_i h1 h2
      rw [ht, Option.bind_some]
      cases hs : (N.detect M sqrt pow primals.u).terminated with
      | true => exact ⟨_, none, if_pos rfl, fun v hv => by cases hv⟩
      | false =>
        have hh := N.detect_halves sqrt pow hs
        obtain ⟨update, hu, hg, hd⟩ := constantDegree_eq hp (two hh)
        refine ⟨{ N with phaseTwoIteration := N.phaseTwoIteration + 1 }, some update, ?_,
          fun v hv => ?_⟩
        · rw [if_neg Bool.false_ne_true, hu]
          rfl
        · cases hv
          refine ⟨?_, hg ▸ hh, hd⟩
          simp only [remaining]
          omega
    · exact ⟨N, none, rfl, fun v hv => by cases hv⟩

end L2BoundaryNorm

end Phases

end GDOP
end Moo
