import Mathlib.Algebra.Order.BigOperators.Group.Finset
import Mathlib.Algebra.Order.Field.Basic
import Mathlib.Tactic.Ring
import Mathlib.Tactic.FieldSimp
import Moo.Base.FLGR
import Moo.Lib.Segment

/-!
# Base.Mesh

The time mesh: intervals, the collocation nodes on each, and the running number of every node.

`Mesh` objects come from two factories only (the constructor is private), so what both establish
is carried in the structure: every interval has a node, `accNodes` numbers the nodes in order,
`nodeCount` is their number, the grid has one point more than there are intervals, and node
times are placed by the nodes of the interval's scheme.
-/

namespace Moo

open Loop

/-- A new grid and the node count of each of its intervals. -/
structure MeshUpdate (K : Type) where
  newGrid : List K
  newNodesPerInterval : List Nat
  nonempty : newNodesPerInterval ≠ []
  grid_length : newGrid.length = newNodesPerInterval.length + 1
  nodes_pos : ∀ p ∈ newNodesPerInterval, 0 < p

structure Mesh {K : Type} [Field K] (T : FLGR K) where
  intervals : Nat
  nodeCount : Nat
  tf : K
  grid : List K
  deltaT : List K
  t : List (List K)
  nodes : List Nat
  accNodes : List (List Nat)
  intervals_pos : 0 < intervals
  nodes_length : nodes.length = intervals
  grid_length : grid.length = intervals + 1
  nodes_pos : ∀ p ∈ nodes, 0 < p
  nodeCount_eq : nodeCount = ∑ i ∈ Finset.range intervals, nodes.getD i 0
  accNodes_eq : ∀ i j, i < intervals → j < nodes.getD i 0 →
    (accNodes.getD i []).getD j 0 = ∑ k ∈ Finset.range i, nodes.getD k 0 + j
  tf_eq : grid.getD intervals 0 = tf
  deltaT_eq : ∀ i, i < intervals → deltaT.getD i 0 = grid.getD (i + 1) 0 - grid.getD i 0
  t_eq : ∀ i j, i < intervals → j < nodes.getD i 0 →
    (t.getD i []).getD j 0 = grid.getD i 0 + deltaT.getD i 0 * T.getC (nodes.getD i 0) j

namespace Mesh

variable {K : Type} [Field K] {T : FLGR K} (M : Mesh T)

def gridAt (i : Nat) : K := M.grid.getD i 0
def deltaTAt (i : Nat) : K := M.deltaT.getD i 0
def tAt (i j : Nat) : K := (M.t.getD i []).getD j 0
def nodesAt (i : Nat) : Nat := M.nodes.getD i 0
def accNodesAt (i j : Nat) : Nat := (M.accNodes.getD i []).getD j 0

/-- The number of nodes on the intervals before `i`. -/
def nodesBefore (i : Nat) : Nat := ∑ k ∈ Finset.range i, M.nodesAt k

/-- The last node `(n, m)` of the mesh: `B` and `F` blocks stop before it. -/
def isLast (i j : Nat) : Bool := i == M.intervals - 1 && j == M.nodesAt (M.intervals - 1) - 1

theorem nodesAt_mem {i : Nat} (hi : i < M.intervals) : M.nodesAt i ∈ M.nodes := by
  have h : i < M.nodes.length := by rw [M.nodes_length]; exact hi
  rw [nodesAt, List.getD_eq_getElem _ _ h]
  exact List.getElem_mem h

theorem nodesAt_pos {i : Nat} (hi : i < M.intervals) : 0 < M.nodesAt i :=
  M.nodes_pos _ (M.nodesAt_mem hi)

theorem nodeCount_nodesBefore : M.nodeCount = M.nodesBefore M.intervals := M.nodeCount_eq

@[simp] theorem nodesBefore_zero : M.nodesBefore 0 = 0 := rfl

theorem nodesBefore_succ (i : Nat) : M.nodesBefore (i + 1) = M.nodesBefore i + M.nodesAt i :=
  Finset.sum_range_succ ..

theorem accNodesAt_eq {i j : Nat} (hi : i < M.intervals) (hj : j < M.nodesAt i) :
    M.accNodesAt i j = M.nodesBefore i + j := M.accNodes_eq i j hi hj

theorem nodesBefore_mono {i i' : Nat} (h : i ≤ i') : M.nodesBefore i ≤ M.nodesBefore i' :=
  Finset.sum_le_sum_of_subset (Finset.range_mono h)

theorem accNodesAt_lt {i j : Nat} (hi : i < M.intervals) (hj : j < M.nodesAt i) :
    M.accNodesAt i j < M.nodeCount := by
  have h1 := M.nodesBefore_mono (show i + 1 ≤ M.intervals from hi)
  rw [M.nodesBefore_succ] at h1
  rw [M.accNodesAt_eq hi hj, M.nodeCount_nodesBefore]
  omega

/-- Nodes of an earlier interval come before those of a later one. -/
theorem nodesBefore_add_lt {i i' j : Nat} (hi : i < i') (hj : j < M.nodesAt i) :
    M.nodesBefore i + j < M.nodesBefore i' := by
  have h := M.nodesBefore_mono (show i + 1 ≤ i' from hi)
  rw [M.nodesBefore_succ] at h
  omega

theorem accNodesAt_inj {i j i' j' : Nat} (hi : i < M.intervals) (hj : j < M.nodesAt i)
    (hi' : i' < M.intervals) (hj' : j' < M.nodesAt i')
    (h : M.accNodesAt i j = M.accNodesAt i' j') : i = i' ∧ j = j' := by
  rw [M.accNodesAt_eq hi hj, M.accNodesAt_eq hi' hj'] at h
  rcases Nat.lt_trichotomy i i' with hlt | rfl | hlt
  · have := M.nodesBefore_add_lt hlt hj
    omega
  · exact ⟨rfl, by omega⟩
  · have := M.nodesBefore_add_lt hlt hj'
    omega

/-- Every running number is the number of a node. -/
theorem exists_accNodesAt {k : Nat} (hk : k < M.nodeCount) :
    ∃ i j, i < M.intervals ∧ j < M.nodesAt i ∧ M.accNodesAt i j = k := by
  have key : ∀ n, n ≤ M.intervals → k < M.nodesBefore n →
      ∃ i j, i < n ∧ j < M.nodesAt i ∧ M.accNodesAt i j = k := by
    intro n
    induction n with
    | zero => intro _ h; simp at h
    | succ n ih =>
      intro hn h
      by_cases hlt : k < M.nodesBefore n
      · obtain ⟨i, j, hi, hj, e⟩ := ih (by omega) hlt
        exact ⟨i, j, by omega, hj, e⟩
      · rw [M.nodesBefore_succ] at h
        refine ⟨n, k - M.nodesBefore n, by omega, by omega, ?_⟩
        rw [M.accNodesAt_eq (by omega) (by omega)]
        omega
  exact key M.intervals le_rfl (by rw [← M.nodeCount_nodesBefore]; exact hk)

/-- Blocks of one size, a block for each node: every index of them belongs to a node. -/
theorem exists_block {size k : Nat} (hk : k < size * M.nodeCount) :
    ∃ i j y, i < M.intervals ∧ j < M.nodesAt i ∧ y < size ∧ k = size * M.accNodesAt i j + y := by
  obtain ⟨a, y, ha, hy, rfl⟩ := Segment.exists_mul_add hk
  obtain ⟨i, j, hi, hj, rfl⟩ := M.exists_accNodesAt ha
  exact ⟨i, j, y, hi, hj, hy, rfl⟩

theorem isLast_iff {i j : Nat} (hi : i < M.intervals) (hj : j < M.nodesAt i) :
    M.isLast i j = true ↔ M.accNodesAt i j = M.nodeCount - 1 := by
  have hI := M.intervals_pos
  have hp := M.nodesAt_pos (show M.intervals - 1 < M.intervals by omega)
  have hn : M.nodeCount = M.nodesBefore (M.intervals - 1) + M.nodesAt (M.intervals - 1) := by
    rw [← M.nodesBefore_succ, M.nodeCount_nodesBefore, Nat.sub_add_cancel hI]
  have hl := M.accNodesAt_eq (show M.intervals - 1 < M.intervals by omega)
    (show M.nodesAt (M.intervals - 1) - 1 < M.nodesAt (M.intervals - 1) by omega)
  simp only [isLast, Bool.and_eq_true, beq_iff_eq]
  constructor
  · rintro ⟨rfl, rfl⟩
    rw [hl, hn]
    omega
  · intro h
    exact M.accNodesAt_inj hi hj (by omega) (by omega) (by rw [h, hl, hn]; omega)

theorem nodeCount_pos : 0 < M.nodeCount := by
  have h := M.accNodesAt_lt M.intervals_pos (M.nodesAt_pos M.intervals_pos)
  omega

/-! ## Loops over the nodes -/

section ForNodes

universe u

variable {σ : Type u}

/-- `for (i < intervals) for (j < nodes[i])`. -/
def forNodes (body : Nat → Nat → σ → σ) (s : σ) : σ :=
  forRange M.intervals (fun i s => forRange (M.nodesAt i) (fun j s => body i j s) s) s

/-- Loop invariant rule, the invariant indexed by the running number of the node. -/
theorem forNodes_inv {P : Nat → σ → Prop} {f : Nat → Nat → σ → σ} {s : σ} (h0 : P 0 s)
    (hs : ∀ i j, i < M.intervals → j < M.nodesAt i → ∀ t, P (M.accNodesAt i j) t →
      P (M.accNodesAt i j + 1) (f i j t)) : P M.nodeCount (M.forNodes f s) := by
  rw [M.nodeCount_nodesBefore]
  refine forRange_inv (P := fun i t => P (M.nodesBefore i) t) h0 fun i hi t ht => ?_
  have row := forRange_inv (P := fun j t => P (M.nodesBefore i + j) t) (n := M.nodesAt i)
    (f := f i) (s := t) ht fun j hj t' ht' => by
      have := hs i j hi hj t'
      rw [M.accNodesAt_eq hi hj] at this
      exact this ht'
  rw [M.nodesBefore_succ]
  exact row

/-- The operations of a loop over the nodes. -/
def nodeOps {β : Type*} (g : Nat → Nat → List β) : List β :=
  (List.range M.intervals).flatMap fun i => (List.range (M.nodesAt i)).flatMap fun j => g i j

theorem forNodes_foldl {β : Type*} {f : Nat → Nat → σ → σ} {r : σ → β → σ}
    {g : Nat → Nat → List β}
    (h : ∀ i j, i < M.intervals → j < M.nodesAt i → ∀ t, f i j t = (g i j).foldl r t)
    (s : σ) : M.forNodes f s = (M.nodeOps g).foldl r s :=
  forRange_foldl (fun i hi t => forRange_foldl (fun j hj t => h i j hi hj t) t) s

theorem forNodes_sum {N : Type*} [AddCommMonoid N] (v : Nat → Nat → N) :
    M.forNodes (fun i j s => s + v i j) 0 =
      ∑ i ∈ Finset.range M.intervals, ∑ j ∈ Finset.range (M.nodesAt i), v i j := by
  rw [forNodes, forRange_congr fun i _ t => forRange_add (M.nodesAt i) (v i) t, forRange_sum]

/-- Of the operations of all nodes those of one node matter, when the others add up to nothing. -/
theorem sum_nodeOps {β N : Type*} [AddCommMonoid N] (g : Nat → Nat → List β) (F : β → N)
    {i j : Nat} (hi : i < M.intervals) (hj : j < M.nodesAt i)
    (h : ∀ i' j', i' < M.intervals → j' < M.nodesAt i' → (i' ≠ i ∨ j' ≠ j) →
      ((g i' j').map F).sum = 0) :
    ((M.nodeOps g).map F).sum = ((g i j).map F).sum := by
  rw [nodeOps, sum_map_flatMap, sum_map_range, Finset.sum_eq_single i]
  · rw [sum_map_flatMap, sum_map_range, Finset.sum_eq_single j]
    · intro j' hj' hne
      exact h i j' hi (Finset.mem_range.mp hj') (.inr hne)
    · intro hn
      exact absurd (Finset.mem_range.mpr hj) hn
  · intro i' hi' hne
    rw [sum_map_flatMap, sum_map_range]
    refine Finset.sum_eq_zero fun j' hj' => ?_
    exact h i' j' (Finset.mem_range.mp hi') (Finset.mem_range.mp hj') (.inl hne)
  · intro hn
    exact absurd (Finset.mem_range.mpr hi) hn

theorem mem_nodeOps {β : Type*} {g : Nat → Nat → List β} {e : β} :
    e ∈ M.nodeOps g ↔ ∃ i j, i < M.intervals ∧ j < M.nodesAt i ∧ e ∈ g i j := by
  simp only [nodeOps, List.mem_flatMap, List.mem_range]
  constructor
  · rintro ⟨i, hi, j, hj, he⟩
    exact ⟨i, j, hi, hj, he⟩
  · rintro ⟨i, j, hi, hj, he⟩
    exact ⟨i, hi, j, hj, he⟩

theorem nodeOps_pairwise {β : Type*} {R : β → β → Prop} {g : Nat → Nat → List β}
    (hg : ∀ i j, i < M.intervals → j < M.nodesAt i → (g i j).Pairwise R)
    (hR : ∀ i j i' j', i < M.intervals → j < M.nodesAt i → i' < M.intervals → j' < M.nodesAt i' →
      M.accNodesAt i j < M.accNodesAt i' j' → ∀ e ∈ g i j, ∀ e' ∈ g i' j', R e e') :
    (M.nodeOps g).Pairwise R := by
  rw [nodeOps, List.pairwise_flatMap]
  constructor
  · intro i hi
    rw [List.mem_range] at hi
    rw [List.pairwise_flatMap]
    refine ⟨fun j hj => hg i j hi (List.mem_range.mp hj), ?_⟩
    refine List.pairwise_lt_range.imp_of_mem ?_
    intro j j' hj hj' hlt e he e' he'
    rw [List.mem_range] at hj hj'
    refine hR i j i j' hi hj hi hj' ?_ e he e' he'
    rw [M.accNodesAt_eq hi hj, M.accNodesAt_eq hi hj']
    omega
  · refine List.pairwise_lt_range.imp_of_mem ?_
    intro i i' hi hi' hlt e he e' he'
    obtain ⟨j, hj, he⟩ := List.mem_flatMap.mp he
    obtain ⟨j', hj', he'⟩ := List.mem_flatMap.mp he'
    rw [List.mem_range] at hi hi' hj hj'
    refine hR i j i' j' hi hj hi' hj' ?_ e he e' he'
    have := M.nodesBefore_add_lt hlt hj
    rw [M.accNodesAt_eq hi hj, M.accNodesAt_eq hi' hj']
    omega

/-- A loop over the nodes with a counter of its own: the counter is the running number. -/
theorem forNodes_counter (f : Nat → Nat → Nat → σ → σ) (s : σ) (c : Nat) :
    M.forNodes (fun i j (t : σ × Nat) => (f i j t.2 t.1, t.2 + 1)) (s, c) =
      (M.forNodes (fun i j => f i j (M.accNodesAt i j + c)) s, M.nodeCount + c) := by
  have inner : ∀ i, i < M.intervals → ∀ n, n ≤ M.nodesAt i → ∀ s,
      forRange n (fun j (t : σ × Nat) => (f i j t.2 t.1, t.2 + 1)) (s, M.nodesBefore i + c) =
        (forRange n (fun j => f i j (M.accNodesAt i j + c)) s, M.nodesBefore i + n + c) := by
    intro i hi n
    induction n with
    | zero => intro _ s; rfl
    | succ n ih =>
      intro hn s
      rw [forRange_succ, ih (by omega), forRange_succ, M.accNodesAt_eq hi (by omega)]
      simp only [Prod.mk.injEq, true_and]
      omega
  have outer : ∀ n, n ≤ M.intervals →
      forRange n (fun i => forRange (M.nodesAt i) fun j (t : σ × Nat) =>
        (f i j t.2 t.1, t.2 + 1)) (s, c) =
      (forRange n (fun i => forRange (M.nodesAt i) fun j => f i j (M.accNodesAt i j + c)) s,
        M.nodesBefore n + c) := by
    intro n
    induction n with
    | zero => intro _; simp
    | succ n ih =>
      intro hn
      rw [forRange_succ, ih (by omega), inner n (by omega) _ le_rfl, forRange_succ,
        M.nodesBefore_succ]
  rw [M.nodeCount_nodesBefore]
  exact outer _ le_rfl

end ForNodes

/-! ## Series over the nodes -/

section Series

/-- A series: a first value, then one value for every node, appended node by node. -/
def nodeSeries (first : K) (v : Nat → Nat → K) : List K :=
  M.forNodes (fun i j s => s ++ [v i j]) [first]

variable (first : K) (v : Nat → Nat → K)

theorem nodeSeries_spec : (M.nodeSeries first v).length = M.nodeCount + 1 ∧
    (M.nodeSeries first v).getD 0 0 = first ∧
    ∀ i j, i < M.intervals → j < M.nodesAt i → M.accNodesAt i j < M.nodeCount →
      (M.nodeSeries first v).getD (M.accNodesAt i j + 1) 0 = v i j := by
  refine M.forNodes_inv (P := fun n (s : List K) => s.length = n + 1 ∧ s.getD 0 0 = first ∧
    ∀ i j, i < M.intervals → j < M.nodesAt i → M.accNodesAt i j < n →
      s.getD (M.accNodesAt i j + 1) 0 = v i j) ⟨rfl, rfl, fun i j _ _ h => by omega⟩ ?_
  rintro i j hi hj s ⟨hl, h0, hs⟩
  refine ⟨by simp [hl], ?_, fun i' j' hi' hj' h => ?_⟩
  · rw [List.getD_append _ _ _ _ (by omega), h0]
  · rcases Nat.lt_succ_iff_lt_or_eq.mp h with hlt | heq
    · rw [List.getD_append _ _ _ _ (by omega)]
      exact hs i' j' hi' hj' hlt
    · obtain ⟨rfl, rfl⟩ := M.accNodesAt_inj hi' hj' hi hj heq
      rw [List.getD_append_right _ _ _ _ (by omega), hl, Nat.sub_self]
      rfl

theorem nodeSeries_length : (M.nodeSeries first v).length = M.nodeCount + 1 :=
  (M.nodeSeries_spec first v).1

theorem nodeSeries_zero : (M.nodeSeries first v).getD 0 0 = first := (M.nodeSeries_spec first v).2.1

theorem nodeSeries_node {i j : Nat} (hi : i < M.intervals) (hj : j < M.nodesAt i) :
    (M.nodeSeries first v).getD (M.accNodesAt i j + 1) 0 = v i j :=
  (M.nodeSeries_spec first v).2.2 i j hi hj (M.accNodesAt_lt hi hj)

end Series

/-! ## The two factories -/

/-- What the loop of `createFromMeshUpdate` fills interval by interval. -/
structure Rows (K : Type) where
  globalIndex : Nat
  t : List (List K)
  accNodes : List (List Nat)

def appendRow (T : FLGR K) (grid deltaT : List K) (nodes : List Nat) (i : Nat) (s : Rows K) :
    Rows K :=
  let p := nodes.getD i 0
  let h := deltaT.getD i 0
  { globalIndex := s.globalIndex + p
    t := s.t ++ [(List.range p).map fun j => grid.getD i 0 + h * T.getC p j]
    accNodes := s.accNodes ++ [(List.range p).map fun j => s.globalIndex + j] }

theorem appendRow_rows (T : FLGR K) (grid deltaT : List K) (nodes : List Nat) (n : Nat) :
    forRange n (appendRow T grid deltaT nodes) ⟨0, [], []⟩ =
      { globalIndex := ∑ k ∈ Finset.range n, nodes.getD k 0
        t := (List.range n).map fun i => (List.range (nodes.getD i 0)).map fun j =>
          grid.getD i 0 + deltaT.getD i 0 * T.getC (nodes.getD i 0) j
        accNodes := (List.range n).map fun i => (List.range (nodes.getD i 0)).map fun j =>
          ∑ k ∈ Finset.range i, nodes.getD k 0 + j } := by
  induction n with
  | zero => rfl
  | succ n ih =>
    rw [forRange_succ, ih]
    simp [appendRow, List.range_succ, Finset.sum_range_succ]

def createFromMeshUpdate (T : FLGR K) (meshUpdate : MeshUpdate K) : Mesh T :=
  let grid := meshUpdate.newGrid
  let nodes := meshUpdate.newNodesPerInterval
  let intervals := nodes.length
  let deltaT := (List.range intervals).map fun i => grid.getD (i + 1) 0 - grid.getD i 0
  let rows := forRange intervals (appendRow T grid deltaT nodes) ⟨0, [], []⟩
  { intervals := intervals
    nodeCount := nodes.sum
    tf := grid.getLastD 0
    grid := grid
    deltaT := deltaT
    t := rows.t
    nodes := nodes
    accNodes := rows.accNodes
    intervals_pos := List.length_pos_of_ne_nil meshUpdate.nonempty
    nodes_length := rfl
    grid_length := meshUpdate.grid_length
    nodes_pos := meshUpdate.nodes_pos
    nodeCount_eq := (sum_range_getD nodes).symm
    accNodes_eq := by
      intro i j hi hj
      simp only [rows, appendRow_rows]
      rw [getD_map_range _ _ _ hi, getD_map_range _ _ _ hj]
    tf_eq := by
      have h := meshUpdate.grid_length
      rw [List.getLastD_eq_getLast?, List.getLast?_eq_getElem?, List.getD_eq_getElem?_getD, h]
      rfl
    deltaT_eq := fun i hi => getD_map_range _ _ _ hi
    t_eq := by
      intro i j hi hj
      simp only [rows, appendRow_rows]
      rw [getD_map_range _ _ _ hi, getD_map_range _ _ _ hj] }

def createEquidistantFixedStages [CharZero K] (T : FLGR K) (tf : K) (intervals stages : Nat)
    (hI : 0 < intervals) (hs : 0 < stages) : Mesh T :=
  let h := tf / intervals
  let grid := ((List.range intervals).map fun i : Nat => (i : K) * h) ++ [tf]
  { intervals := intervals
    nodeCount := stages * intervals
    tf := tf
    grid := grid
    deltaT := List.replicate intervals h
    t := (List.range intervals).map fun i => (List.range stages).map fun j =>
      grid.getD i 0 + h * T.getC stages j
    nodes := List.replicate intervals stages
    accNodes := (List.range intervals).map fun i => (List.range stages).map fun j =>
      stages * i + j
    intervals_pos := hI
    nodes_length := List.length_replicate
    grid_length := by simp [grid]
    nodes_pos := fun p hp => by rw [List.eq_of_mem_replicate hp]; exact hs
    nodeCount_eq := by
      rw [Finset.sum_congr rfl fun i hi => List.getD_replicate _ (Finset.mem_range.mp hi)]
      simp [Nat.mul_comm]
    accNodes_eq := by
      intro i j hi hj
      rw [List.getD_replicate _ hi] at hj
      rw [getD_map_range _ _ _ hi, getD_map_range _ _ _ hj,
        Finset.sum_congr rfl fun k hk =>
          List.getD_replicate _ (Nat.lt_trans (Finset.mem_range.mp hk) hi)]
      simp [Nat.mul_comm]
    tf_eq := by simp [grid]
    deltaT_eq := by
      intro i hi
      have h0 : (intervals : K) ≠ 0 := Nat.cast_ne_zero.mpr (by omega)
      have hg : grid.getD i 0 = (i : K) * h := by
        simp [grid, List.getD_eq_getElem?_getD, List.getElem?_append, hi]
      have hg' : grid.getD (i + 1) 0 = ((i + 1 : Nat) : K) * h := by
        by_cases hlt : i + 1 < intervals
        · simp [grid, List.getD_eq_getElem?_getD, List.getElem?_append, hlt]
        · obtain rfl : intervals = i + 1 := by omega
          simp only [grid, List.getD_eq_getElem?_getD, List.getElem?_append, List.length_map,
            List.length_range, lt_irrefl, if_false, Nat.sub_self, List.getElem?_cons_zero,
            Option.getD_some, h]
          field_simp
      rw [List.getD_replicate _ hi, hg, hg', Nat.cast_succ]
      ring
    t_eq := by
      intro i j hi hj
      rw [List.getD_replicate _ hi] at hj
      rw [getD_map_range _ _ _ hi, getD_map_range _ _ _ hj, List.getD_replicate _ hi,
        List.getD_replicate _ hi] }

/-- The time grid of the mesh as one list: `0` and every node time. -/
def getFlatT : List K :=
  0 :: (List.range M.intervals).flatMap fun i => (List.range (M.nodesAt i)).map fun j => M.tAt i j

theorem getFlatT_length : M.getFlatT.length = M.nodeCount + 1 := by
  rw [getFlatT, List.length_cons, length_flatMap_range, nodeCount_nodesBefore]
  simp [nodesBefore]

/-- The time grid is the series of the node times. -/
theorem getFlatT_eq : M.getFlatT = M.nodeSeries 0 M.tAt := by
  have hf := M.forNodes_foldl (f := fun i j s => s ++ [M.tAt i j]) (r := fun s t => s ++ [t])
    (g := fun i j => [M.tAt i j]) (fun _ _ _ _ _ => rfl) [0]
  have happ : ∀ (l : List K) (s : List K), l.foldl (fun s t => s ++ [t]) s = s ++ l := by
    intro l
    induction l with
    | nil => intro s; simp
    | cons a l ih => intro s; simp [ih]
  rw [nodeSeries, hf, happ, getFlatT, nodeOps]
  simp only [List.singleton_append]
  congr 1
  refine congrArg (fun g => List.flatMap g _) (funext fun i => ?_)
  rw [← List.map_eq_flatMap]

theorem getFlatT_node {i j : Nat} (hi : i < M.intervals) (hj : j < M.nodesAt i) :
    M.getFlatT.getD (M.accNodesAt i j + 1) 0 = M.tAt i j := by
  rw [getFlatT_eq]
  exact M.nodeSeries_node _ _ hi hj

/-- The last node is at the end of the last interval when the last node of every scheme is. -/
theorem getFlatT_last (hT : ∀ scheme ∈ M.nodes, T.getC scheme (scheme - 1) = 1) :
    M.getFlatT.getD M.nodeCount 0 = M.tf := by
  have hI := M.intervals_pos
  have hi : M.intervals - 1 < M.intervals := by omega
  have hp := M.nodesAt_pos hi
  have hj : M.nodesAt (M.intervals - 1) - 1 < M.nodesAt (M.intervals - 1) := by omega
  have hacc : M.accNodesAt (M.intervals - 1) (M.nodesAt (M.intervals - 1) - 1) + 1 =
      M.nodeCount := by
    have h := (M.isLast_iff hi hj).mp (by simp [isLast])
    have := M.nodeCount_pos
    omega
  rw [← hacc, M.getFlatT_node hi hj, tAt, M.t_eq _ _ hi hj]
  rw [show M.nodes.getD (M.intervals - 1) 0 = M.nodesAt (M.intervals - 1) from rfl,
    hT _ (M.nodesAt_mem hi), M.deltaT_eq _ hi, Nat.sub_add_cancel hI, M.tf_eq]
  ring

end Mesh

end Moo
