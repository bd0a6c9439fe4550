import Mathlib.Algebra.Order.BigOperators.Ring.Finset
import Moo.Base.Interpolate
import Moo.Base.Mesh

/-!
# Base.MeshTimes

The times of a mesh.

* `FLGR.Nodes`: the nodes of a scheme increase from above `0` to `1`.
* `Mesh.Ordered`: the grid increases from `0`. Then nodes lie within their intervals, the last one
  at the end (`tAt_mem`, `tAt_last`), and the flat time grid increases (`getFlatT_increasing`).
* `mesh_construction`: what the two factories build; an updated mesh has the grid and the node
  counts of the update (`Mesh.Follows`) and is what the readers rely on (`Mesh.Sound`).
-/

namespace Moo

open Loop

variable {K : Type} [Field K] [LinearOrder K]

/-- `0 < c_1 < … < c_p = 1`. -/
structure FLGR.Nodes (T : FLGR K) (p : Nat) : Prop where
  pos : 0 < T.getC p 0
  increasing : ∀ j k, j < k → k < p → T.getC p j < T.getC p k
  last : T.getC p (p - 1) = 1

theorem FLGR.Nodes.mem [IsStrictOrderedRing K] {T : FLGR K} {p : Nat} (h : T.Nodes p) {j : Nat}
    (hj : j < p) : 0 < T.getC p j ∧ T.getC p j ≤ 1 := by
  constructor
  · rcases Nat.eq_zero_or_pos j with rfl | h0
    · exact h.pos
    · exact h.pos.trans (h.increasing 0 j h0 hj)
  · rw [← h.last]
    rcases Nat.lt_or_eq_of_le (Nat.le_sub_one_of_lt hj) with hlt | rfl
    · exact (h.increasing j (p - 1) hlt (by omega)).le
    · exact le_rfl

namespace Mesh

variable {T : FLGR K} (M : Mesh T)

structure Ordered : Prop where
  start : M.gridAt 0 = 0
  increasing : ∀ i, i < M.intervals → M.gridAt i < M.gridAt (i + 1)

variable {M}

theorem gridAt_le (h : M.Ordered) {i i' : Nat} (hi : i ≤ i') (hi' : i' ≤ M.intervals) :
    M.gridAt i ≤ M.gridAt i' := by
  induction i', hi using Nat.le_induction with
  | base => exact le_rfl
  | succ n hn ih => exact (ih (by omega)).trans (h.increasing n (by omega)).le

theorem gridAt_lt (h : M.Ordered) {i i' : Nat} (hi : i < i') (hi' : i' ≤ M.intervals) :
    M.gridAt i < M.gridAt i' :=
  (h.increasing i (by omega)).trans_le (gridAt_le h hi hi')

omit [LinearOrder K] in
theorem tAt_eq {i j : Nat} (hi : i < M.intervals) (hj : j < M.nodesAt i) :
    M.tAt i j = M.gridAt i + M.deltaTAt i * T.getC (M.nodesAt i) j := M.t_eq i j hi hj

omit [LinearOrder K] in
theorem deltaTAt_eq {i : Nat} (hi : i < M.intervals) :
    M.deltaTAt i = M.gridAt (i + 1) - M.gridAt i := M.deltaT_eq i hi

omit [LinearOrder K] in
theorem sum_deltaTAt (h : M.gridAt 0 = 0) :
    ∑ i ∈ Finset.range M.intervals, M.deltaTAt i = M.tf := by
  rw [Finset.sum_congr rfl fun i hi => deltaTAt_eq (Finset.mem_range.mp hi),
    Finset.sum_range_sub, h, sub_zero]
  exact M.tf_eq

omit [LinearOrder K] in
theorem tAt_last {i : Nat} (hT : T.getC (M.nodesAt i) (M.nodesAt i - 1) = 1)
    (hi : i < M.intervals) : M.tAt i (M.nodesAt i - 1) = M.gridAt (i + 1) := by
  have hp := M.nodesAt_pos hi
  rw [tAt_eq hi (by omega), hT, deltaTAt_eq hi]
  ring

section Order

variable [IsStrictOrderedRing K] (h : M.Ordered) (hT : ∀ p ∈ M.nodes, T.Nodes p)

include h hT

theorem tAt_mem {i j : Nat} (hi : i < M.intervals) (hj : j < M.nodesAt i) :
    M.gridAt i < M.tAt i j ∧ M.tAt i j ≤ M.gridAt (i + 1) := by
  obtain ⟨h0, h1⟩ := (hT _ (M.nodesAt_mem hi)).mem hj
  have hd : 0 < M.deltaTAt i := by
    rw [deltaTAt_eq hi]
    exact sub_pos.mpr (h.increasing i hi)
  rw [tAt_eq hi hj]
  constructor
  · exact lt_add_of_pos_right _ (mul_pos hd h0)
  · calc M.gridAt i + M.deltaTAt i * T.getC (M.nodesAt i) j
        ≤ M.gridAt i + M.deltaTAt i * 1 := by gcongr
      _ = M.gridAt (i + 1) := by rw [mul_one, deltaTAt_eq hi, add_sub_cancel]

/-- Nodes in the order of their running numbers. -/
theorem tAt_lt {i j i' j' : Nat} (hi : i < M.intervals) (hj : j < M.nodesAt i)
    (hi' : i' < M.intervals) (hj' : j' < M.nodesAt i')
    (hlt : M.accNodesAt i j < M.accNodesAt i' j') : M.tAt i j < M.tAt i' j' := by
  rw [M.accNodesAt_eq hi hj, M.accNodesAt_eq hi' hj'] at hlt
  rcases Nat.lt_trichotomy i i' with hii | rfl | hii
  · calc M.tAt i j ≤ M.gridAt (i + 1) := (tAt_mem h hT hi hj).2
      _ ≤ M.gridAt i' := gridAt_le h hii (by omega)
      _ < M.tAt i' j' := (tAt_mem h hT hi' hj').1
  · have hd : 0 < M.deltaTAt i := by
      rw [deltaTAt_eq hi]
      exact sub_pos.mpr (h.increasing i hi)
    rw [tAt_eq hi hj, tAt_eq hi hj']
    have := (hT _ (M.nodesAt_mem hi)).increasing j j' (by omega) hj'
    gcongr
  · have := M.nodesBefore_add_lt hii hj'
    omega

theorem tAt_pos {i j : Nat} (hi : i < M.intervals) (hj : j < M.nodesAt i) : 0 < M.tAt i j := by
  rw [← h.start]
  exact (gridAt_le h (Nat.zero_le i) hi.le).trans_lt (tAt_mem h hT hi hj).1

omit h hT [LinearOrder K] [IsStrictOrderedRing K] in
theorem getFlatT_nodeOps : M.getFlatT = 0 :: M.nodeOps fun i j => [M.tAt i j] := by
  rw [getFlatT, nodeOps]
  congr 2
  funext i
  rw [List.map_eq_flatMap]

theorem getFlatT_increasing : M.getFlatT.Pairwise (· < ·) := by
  rw [getFlatT_nodeOps, List.pairwise_cons]
  constructor
  · intro t ht
    obtain ⟨i, j, hi, hj, ht⟩ := M.mem_nodeOps.mp ht
    rw [List.mem_singleton.mp ht]
    exact tAt_pos h hT hi hj
  · refine M.nodeOps_pairwise (fun _ _ _ _ => List.pairwise_singleton ..) ?_
    intro i j i' j' hi hj hi' hj' hlt e he e' he'
    rw [List.mem_singleton.mp he, List.mem_singleton.mp he']
    exact tAt_lt h hT hi hj hi' hj' hlt

theorem getFlatT_bounds {t : K} (ht : t ∈ M.getFlatT) : 0 ≤ t ∧ t ≤ M.tf := by
  have hlast : M.gridAt M.intervals = M.tf := M.tf_eq
  rw [getFlatT_nodeOps] at ht
  rcases List.mem_cons.mp ht with rfl | ht
  · refine ⟨le_rfl, ?_⟩
    rw [← hlast, ← h.start]
    exact gridAt_le h (Nat.zero_le _) le_rfl
  · obtain ⟨i, j, hi, hj, ht⟩ := M.mem_nodeOps.mp ht
    rw [List.mem_singleton.mp ht, ← hlast]
    exact ⟨(tAt_pos h hT hi hj).le, (tAt_mem h hT hi hj).2.trans (gridAt_le h hi le_rfl)⟩

end Order

/-! ## What the factories build -/

section Factories

theorem flatten_accNodes (nodes : List Nat) (n : Nat) :
    ((List.range n).map fun i => (List.range (nodes.getD i 0)).map fun j =>
      ∑ k ∈ Finset.range i, nodes.getD k 0 + j).flatten =
      List.range (∑ k ∈ Finset.range n, nodes.getD k 0) := by
  induction n with
  | zero => rfl
  | succ n ih =>
    rw [List.range_succ, List.map_append, List.flatten_append, ih, Finset.sum_range_succ,
      List.range_add]
    simp

omit [LinearOrder K] in
theorem createFromMeshUpdate_accNodes (T : FLGR K) (u : MeshUpdate K) :
    (createFromMeshUpdate T u).accNodes.map List.length = (createFromMeshUpdate T u).nodes ∧
      (createFromMeshUpdate T u).accNodes.flatten =
        List.range (createFromMeshUpdate T u).nodeCount := by
  simp only [createFromMeshUpdate, appendRow_rows]
  constructor
  · rw [List.map_map]
    refine Eq.trans ?_ (map_getD_range u.newNodesPerInterval 0)
    refine List.map_congr_left fun i _ => ?_
    simp
  · rw [flatten_accNodes, sum_range_getD]

theorem ordered_createFromMeshUpdate (T : FLGR K) {u : MeshUpdate K}
    (h0 : u.newGrid.getD 0 0 = 0) (hg : u.newGrid.Pairwise (· < ·)) :
    (createFromMeshUpdate T u).Ordered where
  start := h0
  increasing := by
    intro i hi
    have hl : i + 1 < u.newGrid.length := by
      rw [u.grid_length]
      exact Nat.succ_lt_succ hi
    unfold gridAt
    change u.newGrid.getD i 0 < u.newGrid.getD (i + 1) 0
    rw [List.getD_eq_getElem _ _ (by omega), List.getD_eq_getElem _ _ hl]
    exact List.pairwise_iff_getElem.mp hg i (i + 1) (by omega) hl (by omega)

/-- The mesh is the one the update asks for. -/
structure Follows (M : Mesh T) (u : MeshUpdate K) : Prop where
  grid_eq : M.grid = u.newGrid
  nodes_eq : M.nodes = u.newNodesPerInterval
  intervals_eq : M.intervals = u.newNodesPerInterval.length
  nodeCount_eq : M.nodeCount = u.newNodesPerInterval.sum
  tf_eq : M.tf = u.newGrid.getLastD 0

omit [LinearOrder K] in
theorem createFromMeshUpdate_follows (T : FLGR K) (u : MeshUpdate K) :
    (createFromMeshUpdate T u).Follows u :=
  ⟨rfl, rfl, rfl, rfl, rfl⟩

/-- What the readers of a mesh rely on. -/
structure Sound (M : Mesh T) : Prop where
  accNodes_shape : M.accNodes.map List.length = M.nodes
  accNodes_flat : M.accNodes.flatten = List.range M.nodeCount
  accNodes_lt : ∀ i j i' j', i < M.intervals → j < M.nodesAt i → i' < M.intervals →
    j' < M.nodesAt i' → (M.accNodesAt i j < M.accNodesAt i' j' ↔ i < i' ∨ i = i' ∧ j < j')
  t_mem : ∀ i j, i < M.intervals → j < M.nodesAt i →
    M.gridAt i < M.tAt i j ∧ M.tAt i j ≤ M.gridAt (i + 1)
  t_last : ∀ i, i < M.intervals → M.tAt i (M.nodesAt i - 1) = M.gridAt (i + 1)
  deltaT_sum : M.deltaT.sum = M.tf
  flat_increasing : M.getFlatT.Pairwise (· < ·)
  flat_head : M.getFlatT.getD 0 0 = 0
  flat_last : M.getFlatT.getD M.nodeCount 0 = M.tf
  flat_length : M.getFlatT.length = M.nodeCount + 1

omit [LinearOrder K] in
theorem accNodesAt_lt_iff {i j i' j' : Nat} (hi : i < M.intervals) (hj : j < M.nodesAt i)
    (hi' : i' < M.intervals) (hj' : j' < M.nodesAt i') :
    M.accNodesAt i j < M.accNodesAt i' j' ↔ i < i' ∨ i = i' ∧ j < j' := by
  rw [M.accNodesAt_eq hi hj, M.accNodesAt_eq hi' hj']
  rcases Nat.lt_trichotomy i i' with hlt | rfl | hlt
  · have := M.nodesBefore_add_lt hlt hj
    omega
  · omega
  · have := M.nodesBefore_add_lt hlt hj'
    omega

omit [LinearOrder K] in
theorem createFromMeshUpdate_deltaT_sum (T : FLGR K) {u : MeshUpdate K}
    (h0 : u.newGrid.getD 0 0 = 0) :
    (createFromMeshUpdate T u).deltaT.sum = (createFromMeshUpdate T u).tf := by
  rw [← sum_deltaTAt (M := createFromMeshUpdate T u) h0, ← sum_range_getD]
  have hl : (createFromMeshUpdate T u).deltaT.length = (createFromMeshUpdate T u).intervals := by
    simp [createFromMeshUpdate]
  rw [hl]
  rfl

theorem createFromMeshUpdate_sound [IsStrictOrderedRing K] (T : FLGR K) {u : MeshUpdate K}
    (h0 : u.newGrid.getD 0 0 = 0) (hg : u.newGrid.Pairwise (· < ·))
    (hT : ∀ p ∈ u.newNodesPerInterval, T.Nodes p) : (createFromMeshUpdate T u).Sound where
  accNodes_shape := (createFromMeshUpdate_accNodes T u).1
  accNodes_flat := (createFromMeshUpdate_accNodes T u).2
  accNodes_lt _ _ _ _ hi hj hi' hj' := accNodesAt_lt_iff hi hj hi' hj'
  t_mem _ _ hi hj := tAt_mem (ordered_createFromMeshUpdate T h0 hg) hT hi hj
  t_last _ hi := tAt_last (hT _ (nodesAt_mem _ hi)).last hi
  deltaT_sum := createFromMeshUpdate_deltaT_sum T h0
  flat_increasing := getFlatT_increasing (ordered_createFromMeshUpdate T h0 hg) hT
  flat_head := rfl
  flat_last := getFlatT_last _ fun p hp => (hT p hp).last
  flat_length := getFlatT_length _

variable [CharZero K]

/-- The grid of an equidistant mesh, with its node count on every interval. -/
def equidistantUpdate (T : FLGR K) (tf : K) (intervals stages : Nat) (hI : 0 < intervals)
    (hs : 0 < stages) : MeshUpdate K where
  newGrid := (createEquidistantFixedStages T tf intervals stages hI hs).grid
  newNodesPerInterval := List.replicate intervals stages
  nonempty := by simp; omega
  grid_length := by
    rw [(createEquidistantFixedStages T tf intervals stages hI hs).grid_length,
      List.length_replicate]
    rfl
  nodes_pos := (createEquidistantFixedStages T tf intervals stages hI hs).nodes_pos

omit [LinearOrder K] in
theorem createEquidistantFixedStages_eq (T : FLGR K) (tf : K) (intervals stages : Nat)
    (hI : 0 < intervals) (hs : 0 < stages) :
    createEquidistantFixedStages T tf intervals stages hI hs =
      createFromMeshUpdate T (equidistantUpdate T tf intervals stages hI hs) := by
  have hn : ∀ i, i < intervals → (List.replicate intervals stages).getD i 0 = stages := by
    intro i hi
    exact List.getD_replicate _ hi
  have hd : ∀ i, i < intervals →
      (equidistantUpdate T tf intervals stages hI hs).newGrid.getD (i + 1) 0 -
        (equidistantUpdate T tf intervals stages hI hs).newGrid.getD i 0 = tf / intervals := by
    intro i hi
    have h := deltaTAt_eq (M := createEquidistantFixedStages T tf intervals stages hI hs) hi
    rw [deltaTAt, createEquidistantFixedStages, List.getD_replicate _ hi] at h
    exact h.symm
  have hsum : ∀ i, i ≤ intervals →
      ∑ k ∈ Finset.range i, (List.replicate intervals stages).getD k 0 = stages * i := by
    intro i hi
    rw [Finset.sum_congr rfl fun k hk => hn k (Nat.lt_of_lt_of_le (Finset.mem_range.mp hk) hi),
      Finset.sum_const, Finset.card_range, nsmul_eq_mul, Nat.mul_comm, Nat.cast_id]
  have hl : (List.replicate intervals stages).length = intervals := List.length_replicate
  have hu : (equidistantUpdate T tf intervals stages hI hs).newNodesPerInterval =
      List.replicate intervals stages := rfl
  unfold createFromMeshUpdate
  simp only [appendRow_rows, hu, hl]
  rw [createEquidistantFixedStages, Mesh.mk.injEq]
  refine ⟨rfl, ?_, ?_, rfl, ?_, ?_, rfl, ?_⟩
  · rw [List.sum_replicate_nat, Nat.mul_comm]
  · simp [equidistantUpdate, createEquidistantFixedStages]
  · refine List.ext_getElem (by simp) fun i h1 h2 => ?_
    simp only [List.getElem_replicate, List.getElem_map, List.getElem_range]
    exact (hd i (by simpa using h1)).symm
  · refine List.map_congr_left fun i hi => ?_
    have hi := List.mem_range.mp hi
    rw [hn i hi, getD_map_range _ _ _ hi, hd i hi]
    rfl
  · refine List.map_congr_left fun i hi => ?_
    have hi := List.mem_range.mp hi
    rw [hn i hi, hsum i hi.le]

end Factories

end Mesh

open Mesh in
/-- An updated mesh follows the update and is sound, and the equidistant mesh is the update by
its own grid. -/
theorem mesh_construction [IsStrictOrderedRing K] (T : FLGR K) :
    (∀ u : MeshUpdate K, u.newGrid.getD 0 0 = 0 → u.newGrid.Pairwise (· < ·) →
      (∀ p ∈ u.newNodesPerInterval, T.Nodes p) →
        (createFromMeshUpdate T u).Follows u ∧ (createFromMeshUpdate T u).Sound) ∧
    ∀ (tf : K) (intervals stages : Nat) (hI : 0 < intervals) (hs : 0 < stages),
      createEquidistantFixedStages T tf intervals stages hI hs =
        createFromMeshUpdate T (equidistantUpdate T tf intervals stages hI hs) :=
  ⟨fun u h0 hg hT => ⟨createFromMeshUpdate_follows T u, createFromMeshUpdate_sound T h0 hg hT⟩,
    createEquidistantFixedStages_eq T⟩

theorem radauTwo_nodes {p : Nat} (hp : p = 1 ∨ p = 2) : radauTwo.Nodes p := by
  rcases hp with rfl | rfl
  · refine ⟨by decide +kernel, ?_, by decide +kernel⟩
    intro j k hjk hk
    omega
  · refine ⟨by decide +kernel, ?_, by decide +kernel⟩
    intro j k hjk hk
    obtain ⟨rfl, rfl⟩ : j = 0 ∧ k = 1 := by omega
    decide +kernel

def unevenUpdate : MeshUpdate ℚ where
  newGrid := [0, 1, 3]
  newNodesPerInterval := [1, 2]
  nonempty := by simp
  grid_length := rfl
  nodes_pos := by decide

theorem mesh_construction_uneven :
    ((Mesh.createFromMeshUpdate radauTwo unevenUpdate).Follows unevenUpdate ∧
      (Mesh.createFromMeshUpdate radauTwo unevenUpdate).Sound) ∧
      Mesh.createEquidistantFixedStages radauTwo 3 3 2 (by decide) (by decide) =
        Mesh.createFromMeshUpdate radauTwo
          (Mesh.equidistantUpdate radauTwo 3 3 2 (by decide) (by decide)) := by
  have h := mesh_construction radauTwo
  refine ⟨h.1 unevenUpdate rfl (by decide +kernel) ?_, h.2 3 3 2 _ _⟩
  intro p hp
  exact radauTwo_nodes (by simpa [unevenUpdate] using hp)

end Moo
