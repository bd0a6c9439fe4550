import Moo.Base.MeshRefinement
import Moo.GDOP.Strategies

/-!
# GDOP.PolynomialInterpolation

The three polynomial evaluators agree, and refinement keeps what they represent.

* `polynomialInterpolationRead`: `PolynomialInterpolation`, with no result where it reads a sample
  that is not of the interval it works on.
* `polynomialInterpolation_eq`: its samples are those of the piecewise polynomial.
* `polynomial_evaluators`, `polynomial_refinement`.
-/

namespace Moo
namespace GDOP

open Loop FixedVector Mesh

section Read

variable {K : Type} [Field K] [LinearOrder K] {T : FLGR K}

def polynomialInterpolationRead (oldMesh newMesh : Mesh T) (values : List K) : Option (List K) :=
  (values[0]?).bind fun first =>
    (Checked.forRange newMesh.intervals (fun i s =>
      Checked.forRange (newMesh.nodesAt i) (fun j s =>
        interpolatePolynomialStepRead oldMesh values s (newMesh.tAt i j)) s) ([first], 0, 0)).map
      Prod.fst

/-- Both loops take the times of the nodes one after the other. -/
theorem polynomialInterpolationRead_fold (oldMesh newMesh : Mesh T) (values : List K)
    (s : List K × Nat × Nat) :
    Checked.forRange newMesh.intervals (fun i s =>
      Checked.forRange (newMesh.nodesAt i) (fun j s =>
        interpolatePolynomialStepRead oldMesh values s (newMesh.tAt i j)) s) s =
      (newMesh.nodeOps fun i j => [newMesh.tAt i j]).foldlM
        (interpolatePolynomialStepRead oldMesh values) s := by
  refine Checked.forRange_foldlM (g := fun i => (List.range (newMesh.nodesAt i)).flatMap fun j =>
    [newMesh.tAt i j]) (fun i _ t => ?_) s
  refine Checked.forRange_foldlM (g := fun j => [newMesh.tAt i j]) (fun j _ t => ?_) t
  rw [List.foldlM_cons]
  cases interpolatePolynomialStepRead oldMesh values t (newMesh.tAt i j) with
  | none => rfl
  | some r => rfl

variable [IsStrictOrderedRing K] {M N : Mesh T} (hM : M.Ordered) (hN : N.Ordered)
variable (hTM : ∀ p ∈ M.nodes, T.Nodes0 p) (hTN : ∀ p ∈ N.nodes, T.Nodes0 p)

include hM hN hTM hTN

theorem polynomialInterpolationRead_eq {values : List K}
    (hv : values.length = M.nodeCount + 1) : polynomialInterpolationRead M N values =
      some (N.getFlatT.map (M.piecewise values)) := by
  have hinc := getFlatT_increasing hN (nodes_of_nodes0 hTN)
  rw [getFlatT_nodeOps] at hinc
  have hI := M.intervals_pos
  have hfirst : raw values 0 = M.piecewise values 0 := by
    have hc : M.Contains 0 0 :=
      ⟨hI, hM.start.le, .inl (hM.start.symm.le.trans (hM.increasing 0 hI).le)⟩
    have hs := onInterval_start hTM values hI
    rw [hM.start] at hs
    rw [piecewise_eq hM hTM values hc, hs]
    rfl
  obtain ⟨r, hr⟩ := fold_interpolatePolynomialStepRead hM hv
    (N.nodeOps fun i j => [N.tAt i j]) [raw values 0] hI
  rw [M.nodesBefore_zero, onGrid_eq_map.mpr (tracked_of_sorted values
    ((List.pairwise_cons.mp hinc).2.imp le_of_lt))] at hr
  have hv0 : values[0]? = some (raw values 0) := ControlTrajectory.getElem?_eq_raw (by omega)
  rw [polynomialInterpolationRead, hv0, Option.bind_some, polynomialInterpolationRead_fold, hr,
    getFlatT_nodeOps, List.map_cons, ← hfirst]
  rfl

omit [IsStrictOrderedRing K] hM hN hTM hTN in
/-- An interpolation with a result is the interpolation. -/
theorem of_polynomialInterpolationRead {values r : List K}
    (h : polynomialInterpolationRead M N values = some r) :
    polynomialInterpolation M N values = r := by
  obtain ⟨first, hf, h⟩ := Option.bind_eq_some_iff.mp h
  obtain ⟨s, hs, rfl⟩ := Option.map_eq_some_iff.mp h
  obtain rfl : raw values 0 = first := getD_of_getElem? hf
  rw [polynomialInterpolationRead_fold] at hs
  have hfold := N.forNodes_foldl (f := fun i j s =>
    interpolatePolynomialStep M values s (N.tAt i j)) (r := interpolatePolynomialStep M values)
    (g := fun i j => [N.tAt i j]) (fun _ _ _ _ _ => rfl) ([raw values 0], 0, 0)
  rw [polynomialInterpolation, hfold, of_foldlM hs]

theorem polynomialInterpolation_eq {values : List K} (hv : values.length = M.nodeCount + 1) :
    polynomialInterpolation M N values = N.getFlatT.map (M.piecewise values) :=
  of_polynomialInterpolationRead (polynomialInterpolationRead_eq hM hN hTM hTN hv)

end Read

section Evaluators

variable {K : Type} [Field K] [LinearOrder K] [IsStrictOrderedRing K] {T : FLGR K}

/-- Evaluation on a sorted grid, evaluation from any cached interval, and interpolation onto
another mesh take their values from the same polynomials, and read the samples of the interval
only. -/
theorem polynomial_evaluators (M : Mesh T) (hM : M.Ordered) (hT : ∀ p ∈ M.nodes, T.Nodes0 p)
    (traj : ControlTrajectory T) (hi : traj.Induced M)
    (hc : traj.lastMeshInterval < M.intervals) :
    (∀ queries : List K, queries ≠ [] → queries.Pairwise (· ≤ ·) →
      (∀ q ∈ queries, 0 ≤ q ∧ q ≤ M.tf) →
      (∀ u ∈ traj.u, interpolatePolynomialOntoGridSingleRead M u queries =
        some (interpolatePolynomialOntoGridSingle M u queries)) ∧
      ∀ k, k < queries.length → ∃ m, m < M.intervals ∧
        traj.interpolateAtPolynomial (raw queries k) =
          some (traj.u.map fun u => raw (interpolatePolynomialOntoGridSingle M u queries) k,
            { traj with lastMeshInterval := m })) ∧
    ∀ N : Mesh T, N.Ordered → (∀ p ∈ N.nodes, T.Nodes0 p) → N.tf = M.tf →
      (∀ u ∈ traj.u, polynomialInterpolationRead M N u = some (polynomialInterpolation M N u) ∧
        polynomialInterpolation M N u = interpolatePolynomialOntoGridSingle M u N.getFlatT) ∧
      ∀ k, k < N.getFlatT.length → ∃ m, m < M.intervals ∧
        traj.interpolateAtPolynomial (raw N.getFlatT k) =
          some (traj.u.map fun u => raw (polynomialInterpolation M N u) k,
            { traj with lastMeshInterval := m }) := by
  have hgrid : ∀ queries : List K, queries.Pairwise (· ≤ ·) →
      (∀ q ∈ queries, 0 ≤ q ∧ q ≤ M.tf) → ∀ k, k < queries.length → ∃ m, m < M.intervals ∧
        traj.interpolateAtPolynomial (raw queries k) =
          some (traj.u.map fun u => raw (queries.map (M.piecewise u)) k,
            { traj with lastMeshInterval := m }) := by
    intro queries _ hb k hk
    have hmem : raw queries k ∈ queries := by
      rw [raw, List.getD_eq_getElem _ _ hk]
      exact List.getElem_mem hk
    obtain ⟨m, hm, he⟩ := ControlTrajectory.interpolateAtPolynomial_eq hM hT hi hc
      (hb _ hmem).1 (hb _ hmem).2
    refine ⟨m, hm, he.trans ?_⟩
    simp only [raw_map _ _ hk]
  constructor
  · intro queries hne hq hb
    refine ⟨fun u hu => ?_, fun k hk => ?_⟩
    · rw [gridRead_eq hM (hi.length u hu) hq hne, grid_eq hM (hi.length u hu) hq]
    · obtain ⟨m, hm, he⟩ := hgrid queries hq hb k hk
      refine ⟨m, hm, he.trans ?_⟩
      congr 2
      refine List.map_congr_left fun u hu => ?_
      rw [grid_eq hM (hi.length u hu) hq]
  · intro N hN hTN htf
    have hq := (getFlatT_increasing hN (nodes_of_nodes0 hTN)).imp le_of_lt
    have hb : ∀ t ∈ N.getFlatT, 0 ≤ t := fun t ht =>
      (getFlatT_bounds hN (nodes_of_nodes0 hTN) ht).1
    refine ⟨fun u hu => ⟨?_, ?_⟩, fun k hk => ?_⟩
    · rw [polynomialInterpolationRead_eq hM hN hT hTN (hi.length u hu),
        polynomialInterpolation_eq hM hN hT hTN (hi.length u hu)]
    · rw [polynomialInterpolation_eq hM hN hT hTN (hi.length u hu),
        grid_eq hM (hi.length u hu) hq]
    · obtain ⟨m, hm, he⟩ := hgrid _ hq
        (fun t ht => htf ▸ getFlatT_bounds hN (nodes_of_nodes0 hTN) ht) k hk
      refine ⟨m, hm, he.trans ?_⟩
      congr 2
      refine List.map_congr_left fun u hu => ?_
      rw [polynomialInterpolation_eq hM hN hT hTN (hi.length u hu)]

/-- One interval, and its refinement. -/
def coarse : Mesh radauTwo := createFromMeshUpdate radauTwo
  { newGrid := [0, 3], newNodesPerInterval := [1], nonempty := by simp,
    grid_length := by decide, nodes_pos := by decide }

def fine : Mesh radauTwo := createFromMeshUpdate radauTwo unevenUpdate

theorem coarse_ordered : coarse.Ordered :=
  ordered_createFromMeshUpdate radauTwo rfl (by decide +kernel)

theorem fine_ordered : fine.Ordered :=
  ordered_createFromMeshUpdate radauTwo rfl (by decide +kernel)

theorem coarse_nodes {p : Nat} (hp : p ∈ coarse.nodes) : p = 1 ∨ p = 2 :=
  .inl (by simpa [coarse, createFromMeshUpdate] using hp)

theorem fine_nodes {p : Nat} (hp : p ∈ fine.nodes) : p = 1 ∨ p = 2 := by
  simpa [fine, createFromMeshUpdate, unevenUpdate] using hp

def fineControls : ControlTrajectory radauTwo where
  t := fine.getFlatT
  u := [[0, 1, 4, 9], [1, 2, 0, 1]]
  interpolation := .polynomial
  inducingMesh := some ⟨0, fine⟩
  lastMeshInterval := 1

theorem polynomial_evaluators_fine :
    (interpolatePolynomialOntoGridSingleRead fine [0, 1, 4, 9] [0, 1, 2, 3] =
        some (interpolatePolynomialOntoGridSingle fine [0, 1, 4, 9] [0, 1, 2, 3])) ∧
      polynomialInterpolation fine coarse [0, 1, 4, 9] =
        interpolatePolynomialOntoGridSingle fine [0, 1, 4, 9] coarse.getFlatT := by
  have h := polynomial_evaluators fine fine_ordered (fun p hp => radauTwo_nodes0 (fine_nodes hp))
    fineControls ⟨rfl, rfl, by decide +kernel⟩ (by decide)
  exact ⟨(h.1 [0, 1, 2, 3] (by simp) (by decide +kernel) (by decide +kernel)).1 _
      List.mem_cons_self,
    ((h.2 coarse coarse_ordered (fun p hp => radauTwo_nodes0 (coarse_nodes hp)) rfl).1 _
      List.mem_cons_self).2⟩

/-- A refined mesh represents the same piecewise polynomial: both have the same values at all
queries. -/
theorem polynomial_refinement (M N : Mesh T) (hM : M.Ordered) (hN : N.Ordered)
    (hTM : ∀ p ∈ M.nodes, T.Nodes0 p) (hTN : ∀ p ∈ N.nodes, T.Nodes0 p)
    (hWM : ∀ p ∈ M.nodes, T.Tables p true) (hWN : ∀ p ∈ N.nodes, T.Tables p true)
    (hr : M.Refines N) (hc : ∀ t ∈ N.getFlatT, M.ClearAt t) (values : List K)
    (hv : values.length = M.nodeCount + 1) (queries : List K) (hne : queries ≠ [])
    (hq : queries.Pairwise (· ≤ ·)) (hb : ∀ q ∈ queries, 0 ≤ q ∧ q ≤ M.tf)
    (hclear : ∀ q ∈ queries, M.ClearAt q ∧ N.ClearAt q) :
    interpolatePolynomialOntoGridSingleRead N (polynomialInterpolation M N values) queries =
        some (interpolatePolynomialOntoGridSingle M values queries) ∧
      interpolatePolynomialOntoGridSingleRead M values queries =
        some (interpolatePolynomialOntoGridSingle M values queries) := by
  have hlen : (N.getFlatT.map (M.piecewise values)).length = N.nodeCount + 1 := by
    rw [List.length_map, N.getFlatT_length]
  rw [polynomialInterpolation_eq hM hN hTM hTN hv, grid_eq hM hv hq, gridRead_eq hN hlen hq hne,
    gridRead_eq hM hv hq hne]
  refine ⟨congrArg some (List.map_congr_left fun q h => ?_), rfl⟩
  exact piecewise_refine hM hN hr hTM hTN hWM hWN values hc (hb q h).1 (hclear q h).1
    (hclear q h).2

theorem coarse_refines : coarse.Refines fine where
  tf := rfl
  grid := by
    intro i hi
    have hi : i ≤ 1 := hi
    obtain rfl | rfl : i = 0 ∨ i = 1 := by omega
    · exact ⟨0, Nat.zero_le _, rfl⟩
    · exact ⟨2, le_rfl, rfl⟩
  nodes := by
    intro i k hi hk _ _
    obtain rfl : i = 0 := Nat.lt_one_iff.mp hi
    exact fine.nodesAt_pos hk

theorem polynomial_refinement_coarse :
    interpolatePolynomialOntoGridSingleRead fine (polynomialInterpolation coarse fine [2, 5])
        [0, 1 / 2, 1, 2, 3] =
      some (interpolatePolynomialOntoGridSingle coarse [2, 5] [0, 1 / 2, 1, 2, 3]) ∧
    interpolatePolynomialOntoGridSingleRead coarse [2, 5] [0, 1 / 2, 1, 2, 3] =
      some (interpolatePolynomialOntoGridSingle coarse [2, 5] [0, 1 / 2, 1, 2, 3]) :=
  polynomial_refinement coarse fine coarse_ordered fine_ordered
    (fun _ hp => radauTwo_nodes0 (coarse_nodes hp)) (fun _ hp => radauTwo_nodes0 (fine_nodes hp))
    (fun _ hp => FLGR.radauTwo_tables (coarse_nodes hp) true)
    (fun _ hp => FLGR.radauTwo_tables (fine_nodes hp) true) coarse_refines (by decide +kernel)
    [2, 5] rfl [0, 1 / 2, 1, 2, 3] (by simp) (by decide +kernel) (by decide +kernel)
    (by decide +kernel)

end Evaluators

end GDOP
end Moo
