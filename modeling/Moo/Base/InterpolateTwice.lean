import Moo.Base.MeshRefinement

/-!
# Base.InterpolateTwice

A trajectory interpolated onto a refined mesh, and from there onto a third mesh.

* `Trajectory.interpolateTwice`: the trajectory in the middle is a new one, with the method
  `LINEAR` of its default. `CostateTrajectory.interpolateTwice`: there the method is not
  initialised.
* `interpolate_twice`: when that gives the same data as one interpolation, and what happens
  without an inducing mesh.
-/

namespace Moo

open FixedVector Mesh PiecewiseLinear

section Twice

variable {K : Type} [Field K] [LinearOrder K] {T : FLGR K}

namespace Trajectory

def interpolateTwice (traj : Trajectory T) (mesh1 mesh2 : MeshPtr T) : Option (Trajectory T) :=
  (traj.interpolateOntoMesh mesh1).bind fun traj => traj.interpolateOntoMesh mesh2

/-- The same times, series and statics. -/
structure SameData (a b : Trajectory T) : Prop where
  t : a.t = b.t
  x : a.x = b.x
  u : a.u = b.u
  p : a.p = b.p

end Trajectory

namespace CostateTrajectory

/-- `left` is what the method of the new object happens to hold; `none` is no method at all, and
the second interpolation aborts. -/
def interpolateTwice (traj : CostateTrajectory T) (left : Option InterpolationMethod)
    (mesh1 mesh2 : MeshPtr T) : Option (CostateTrajectory T) :=
  left.map fun method =>
    { traj.interpolateOntoMesh mesh1 with interpolation := method }.interpolateOntoMesh mesh2

structure SameData (a b : CostateTrajectory T) : Prop where
  t : a.t = b.t
  costatesF : a.costatesF = b.costatesF
  costatesG : a.costatesG = b.costatesG
  costatesR : a.costatesR = b.costatesR

end CostateTrajectory

/-- At the node times of `M2`, the piecewise polynomial of `M0` is on its chords between
neighbouring node times of `M1`. -/
def OnChords (M0 M1 M2 : Mesh T) (values : List K) : Prop :=
  ∀ t ∈ M2.getFlatT, piecewiseLinear M1.getFlatT (M1.getFlatT.map (M0.piecewise values)) t =
    M0.piecewise values t

structure TwoSteps (M0 M1 M2 : Mesh T) : Prop where
  ordered0 : M0.Ordered
  ordered1 : M1.Ordered
  ordered2 : M2.Ordered
  nodes : ∀ p ∈ M0.nodes ++ M1.nodes ++ M2.nodes, T.Nodes0 p
  tables : ∀ p ∈ M0.nodes ++ M1.nodes, T.Tables p true
  refines : M0.Refines M1
  clear1 : ∀ t ∈ M1.getFlatT, M0.ClearAt t
  clear2 : ∀ t ∈ M2.getFlatT, M0.ClearAt t ∧ M1.ClearAt t

theorem interpolateLinearSingle_map {oldT values : List K} (hl : oldT.length = values.length)
    (newT : List K) :
    interpolateLinearSingle oldT values newT = newT.map (piecewiseLinear oldT values) := by
  refine List.map_congr_left fun t _ => ?_
  rw [piecewiseLinear_eq hl]
  rfl

variable [IsStrictOrderedRing K] {M0 M1 M2 : Mesh T}

/-! ## Series -/

section Series

theorem polynomial_series (h0 : M0.Ordered) (h1 : M1.Ordered) (hT1 : ∀ p ∈ M1.nodes, T.Nodes0 p)
    {series : List (List K)} (hs : ∀ v ∈ series, v.length = M0.nodeCount + 1) :
    interpolatePolynomialOntoGridMultiple M0 series M1.getFlatT =
      series.map fun v => M1.getFlatT.map (M0.piecewise v) := by
  refine List.map_congr_left fun v hv => ?_
  exact grid_eq h0 (hs v hv) ((getFlatT_increasing h1 (nodes_of_nodes0 hT1)).imp le_of_lt)

omit [IsStrictOrderedRing K] in
/-- A linear second step. -/
theorem linear_series (series : List (List K)) :
    interpolateLinearMultiple M1.getFlatT (series.map fun v => M1.getFlatT.map (M0.piecewise v))
        M2.getFlatT = (series.map fun v => M2.getFlatT.map (M0.piecewise v)) ↔
      ∀ v ∈ series, OnChords M0 M1 M2 v := by
  rw [interpolateLinearMultiple, List.map_map, List.map_inj_left]
  refine forall₂_congr fun v _ => ?_
  rw [Function.comp_apply, interpolateLinearSingle_map (by simp), List.map_inj_left]
  rfl

/-- A polynomial second step. -/
theorem polynomial_series_twice (h : TwoSteps M0 M1 M2) (series : List (List K)) :
    interpolatePolynomialOntoGridMultiple M1
        (series.map fun v => M1.getFlatT.map (M0.piecewise v)) M2.getFlatT =
      series.map fun v => M2.getFlatT.map (M0.piecewise v) := by
  have hT0 : ∀ p ∈ M0.nodes, T.Nodes0 p := fun p hp => h.nodes p (by simp [hp])
  have hT1 : ∀ p ∈ M1.nodes, T.Nodes0 p := fun p hp => h.nodes p (by simp [hp])
  have hT2 : ∀ p ∈ M2.nodes, T.Nodes0 p := fun p hp => h.nodes p (by simp [hp])
  rw [polynomial_series h.ordered1 h.ordered2 hT2, List.map_map]
  · refine List.map_congr_left fun v _ => List.map_congr_left fun t ht => ?_
    exact piecewise_refine h.ordered0 h.ordered1 h.refines hT0 hT1
      (fun p hp => h.tables p (by simp [hp])) (fun p hp => h.tables p (by simp [hp])) v h.clear1
      (getFlatT_bounds h.ordered2 (nodes_of_nodes0 hT2) ht).1 (h.clear2 t ht).1 (h.clear2 t ht).2
  · intro v hv
    obtain ⟨w, _, rfl⟩ := List.mem_map.mp hv
    rw [List.length_map, M1.getFlatT_length]

end Series

/-! ## Two steps and one -/

section Steps

variable {mesh0 mesh1 mesh2 : MeshPtr T} (h : TwoSteps mesh0.mesh mesh1.mesh mesh2.mesh)

include h

theorem Trajectory.interpolateTwice_iff {traj : Trajectory T}
    (hm : traj.interpolation = .polynomial) (hi : traj.inducingMesh = some mesh0)
    (hs : ∀ v ∈ traj.x ++ traj.u, v.length = mesh0.mesh.nodeCount + 1) :
    (∃ a b, traj.interpolateTwice mesh1 mesh2 = some a ∧ traj.interpolateOntoMesh mesh2 = some b ∧
        a.SameData b) ↔
      ∀ v ∈ traj.x ++ traj.u, OnChords mesh0.mesh mesh1.mesh mesh2.mesh v := by
  have hT1 : ∀ p ∈ mesh1.mesh.nodes, T.Nodes0 p := fun p hp => h.nodes p (by simp [hp])
  have hT2 : ∀ p ∈ mesh2.mesh.nodes, T.Nodes0 p := fun p hp => h.nodes p (by simp [hp])
  have hx : ∀ v ∈ traj.x, v.length = mesh0.mesh.nodeCount + 1 :=
    fun v hv => hs v (List.mem_append_left _ hv)
  have hu : ∀ v ∈ traj.u, v.length = mesh0.mesh.nodeCount + 1 :=
    fun v hv => hs v (List.mem_append_right _ hv)
  simp only [Trajectory.interpolateTwice, Trajectory.interpolateOntoMesh, hm,
    Trajectory.interpolateOntoMeshPolynomial, hi, Option.map_some, Option.bind_some,
    Trajectory.interpolateOntoMeshLinear, polynomial_series h.ordered0 h.ordered1 hT1 hx,
    polynomial_series h.ordered0 h.ordered1 hT1 hu,
    polynomial_series h.ordered0 h.ordered2 hT2 hx,
    polynomial_series h.ordered0 h.ordered2 hT2 hu, Option.some.injEq]
  rw [List.forall_mem_append, ← linear_series, ← linear_series]
  constructor
  · rintro ⟨a, b, rfl, rfl, hd⟩
    exact ⟨hd.x, hd.u⟩
  · rintro ⟨h1, h2⟩
    exact ⟨_, _, rfl, rfl, ⟨rfl, h1, h2, rfl⟩⟩

theorem CostateTrajectory.interpolateTwice_iff {traj : CostateTrajectory T}
    (hm : traj.interpolation = .polynomial) (hi : traj.inducingMesh = some mesh0)
    (hs : ∀ v ∈ traj.costatesF ++ traj.costatesG, v.length = mesh0.mesh.nodeCount + 1)
    (left : Option InterpolationMethod) :
    (∃ a, traj.interpolateTwice left mesh1 mesh2 = some a ∧
        a.SameData (traj.interpolateOntoMesh mesh2)) ↔
      left = some .polynomial ∨ left = some .linear ∧
        ∀ v ∈ traj.costatesF ++ traj.costatesG,
          OnChords mesh0.mesh mesh1.mesh mesh2.mesh v := by
  have hT1 : ∀ p ∈ mesh1.mesh.nodes, T.Nodes0 p := fun p hp => h.nodes p (by simp [hp])
  have hT2 : ∀ p ∈ mesh2.mesh.nodes, T.Nodes0 p := fun p hp => h.nodes p (by simp [hp])
  have hf : ∀ v ∈ traj.costatesF, v.length = mesh0.mesh.nodeCount + 1 :=
    fun v hv => hs v (List.mem_append_left _ hv)
  have hg : ∀ v ∈ traj.costatesG, v.length = mesh0.mesh.nodeCount + 1 :=
    fun v hv => hs v (List.mem_append_right _ hv)
  simp only [CostateTrajectory.interpolateTwice, CostateTrajectory.interpolateOntoMesh, hm, hi,
    CostateTrajectory.interpolateOntoMeshPolynomial,
    polynomial_series h.ordered0 h.ordered1 hT1 hf,
    polynomial_series h.ordered0 h.ordered1 hT1 hg,
    polynomial_series h.ordered0 h.ordered2 hT2 hf,
    polynomial_series h.ordered0 h.ordered2 hT2 hg]
  rw [List.forall_mem_append, ← linear_series, ← linear_series]
  rcases left with _ | method
  · simp
  · cases method with
    | polynomial =>
      simp only [Option.map_some, polynomial_series_twice h, true_or, iff_true]
      exact ⟨_, rfl, ⟨rfl, rfl, rfl, rfl⟩⟩
    | linear =>
      simp only [Option.map_some, CostateTrajectory.interpolateOntoMeshLinear, Option.some.injEq]
      constructor
      · rintro ⟨a, rfl, hd⟩
        exact .inr ⟨trivial, hd.costatesF, hd.costatesG⟩
      · rintro (hne | ⟨_, h1, h2⟩)
        · cases hne
        · exact ⟨_, rfl, ⟨rfl, h1, h2, rfl⟩⟩

end Steps

/-- With an inducing mesh, the two steps give the data of one exactly if the method survives or the
polynomials are on their chords; without one, only costates fall back to linear interpolation. -/
theorem interpolate_twice :
    (∀ mesh0 mesh1 mesh2 : MeshPtr T, TwoSteps mesh0.mesh mesh1.mesh mesh2.mesh →
      (∀ traj : Trajectory T, traj.interpolation = .polynomial →
        traj.inducingMesh = some mesh0 →
        (∀ v ∈ traj.x ++ traj.u, v.length = mesh0.mesh.nodeCount + 1) →
        ((∃ a b, traj.interpolateTwice mesh1 mesh2 = some a ∧
            traj.interpolateOntoMesh mesh2 = some b ∧ a.SameData b) ↔
          ∀ v ∈ traj.x ++ traj.u, OnChords mesh0.mesh mesh1.mesh mesh2.mesh v)) ∧
      ∀ (traj : CostateTrajectory T) (left : Option InterpolationMethod),
        traj.interpolation = .polynomial → traj.inducingMesh = some mesh0 →
        (∀ v ∈ traj.costatesF ++ traj.costatesG, v.length = mesh0.mesh.nodeCount + 1) →
        ((∃ a, traj.interpolateTwice left mesh1 mesh2 = some a ∧
            a.SameData (traj.interpolateOntoMesh mesh2)) ↔
          left = some .polynomial ∨ left = some .linear ∧
            ∀ v ∈ traj.costatesF ++ traj.costatesG,
              OnChords mesh0.mesh mesh1.mesh mesh2.mesh v)) ∧
    ∀ mesh : MeshPtr T,
      (∀ traj : Trajectory T, traj.interpolation = .polynomial → traj.inducingMesh = none →
        traj.interpolateOntoMesh mesh ≠ some (traj.interpolateOntoMeshLinear mesh)) ∧
      ∀ traj : CostateTrajectory T, traj.interpolation = .polynomial → traj.inducingMesh = none →
        traj.interpolateOntoMesh mesh = traj.interpolateOntoMeshLinear mesh := by
  refine ⟨fun mesh0 mesh1 mesh2 h => ⟨?_, ?_⟩, fun mesh => ⟨?_, ?_⟩⟩
  · intro traj hm hi hs
    exact traj.interpolateTwice_iff h hm hi hs
  · intro traj left hm hi hs
    exact traj.interpolateTwice_iff h hm hi hs left
  · intro traj hm hi
    simp [Trajectory.interpolateOntoMesh, Trajectory.interpolateOntoMeshPolynomial, hm, hi]
  · intro traj hm hi
    simp [CostateTrajectory.interpolateOntoMesh, hm, hi]

end Twice

/-! ## A square -/

/-- One interval with two nodes. -/
def squareMesh : MeshPtr radauTwo where
  addr := 0
  mesh := createFromMeshUpdate radauTwo
    { newGrid := [0, 3], newNodesPerInterval := [2], nonempty := by simp, grid_length := rfl,
      nodes_pos := by decide }

def splitMesh : MeshPtr radauTwo where
  addr := 1
  mesh := createFromMeshUpdate radauTwo
    { newGrid := [0, 2, 3], newNodesPerInterval := [1, 1], nonempty := by simp, grid_length := rfl,
      nodes_pos := by decide }

/-- `t²`, sampled at `0`, `1` and `3`. -/
def square : Trajectory radauTwo where
  t := squareMesh.mesh.getFlatT
  x := [[0, 1, 9]]
  interpolation := .polynomial
  inducingMesh := some squareMesh

theorem square_twoSteps : TwoSteps squareMesh.mesh squareMesh.mesh splitMesh.mesh where
  ordered0 := ordered_createFromMeshUpdate radauTwo rfl (by decide +kernel)
  ordered1 := ordered_createFromMeshUpdate radauTwo rfl (by decide +kernel)
  ordered2 := ordered_createFromMeshUpdate radauTwo rfl (by decide +kernel)
  nodes p hp := by
    refine radauTwo_nodes0 ?_
    simp [squareMesh, splitMesh, createFromMeshUpdate] at hp
    omega
  tables p hp := by
    refine FLGR.radauTwo_tables ?_ true
    simp [squareMesh, createFromMeshUpdate] at hp
    omega
  refines := by
    refine ⟨rfl, fun i hi => ⟨i, hi, rfl⟩, fun i k hi hk _ _ => ?_⟩
    obtain rfl : i = 0 := Nat.lt_one_iff.mp hi
    obtain rfl : k = 0 := Nat.lt_one_iff.mp hk
    exact le_rfl
  clear1 := by decide +kernel
  clear2 := by decide +kernel

/-- Two steps leave `5` at `2`, the value on the chord, one step `4`. -/
theorem two_steps_square :
    TwoSteps squareMesh.mesh squareMesh.mesh splitMesh.mesh ∧
      ¬ ∃ a b, square.interpolateTwice squareMesh splitMesh = some a ∧
        square.interpolateOntoMesh splitMesh = some b ∧ a.SameData b := by
  refine ⟨square_twoSteps, ?_⟩
  rintro ⟨a, b, ha, hb, hd⟩
  have h1 : (square.interpolateTwice squareMesh splitMesh).map Trajectory.x =
      some [[0, 5, 9]] := by decide +kernel
  have h2 : (square.interpolateOntoMesh splitMesh).map Trajectory.x = some [[0, 4, 9]] := by
    decide +kernel
  rw [ha] at h1
  rw [hb] at h2
  have hx := hd.x
  rw [Option.some.inj h1, Option.some.inj h2] at hx
  revert hx
  decide +kernel

theorem interpolate_twice_square :
    (∃ a b, square.interpolateTwice squareMesh splitMesh = some a ∧
        square.interpolateOntoMesh splitMesh = some b ∧ a.SameData b) ↔
      ∀ v ∈ square.x ++ square.u,
        OnChords squareMesh.mesh squareMesh.mesh splitMesh.mesh v :=
  (interpolate_twice.1 squareMesh squareMesh splitMesh square_twoSteps).1 square rfl rfl
    (by decide)

end Moo
