import Moo.Base.Interpolate
import Moo.GDOP.Hessian
import Moo.GDOP.JacobianSlots

/-!
# GDOP.IndexRange

Index arithmetic in 32 bits. An index, an offset and the length of a buffer are of type `int`.

* `Formed`: the values that `get_sizes`, `get_nnz`, `resize` and the accessors form on the way, one
  constructor for each expression of the source.
* `DimensionsFit`: the four dimensions of the NLP fit. `WindowsFit`: so do the lengths of the three
  buffers of the sweep, the nonzeros of a Jacobian row block before the collisions are subtracted,
  and the numbers of intervals and nodes with one more.
* `hesLength_le`: the Hessian windows need no condition of their own when no entry is given twice.
* `index_range_iff`: with dimensions that fit, nothing wraps if and only if the windows fit. The
  window of a node counts the Lagrange term and its gradient, which no dimension of the NLP does.
-/

namespace Moo
namespace GDOP

open Loop

/-- One more than the largest `int`. -/
def intBound : Nat := 2 ^ 31

section Formed

variable {K : Type} [Field K] {T : FLGR K} (P : Problem K) (M : Mesh T)

/-- The nonzeros of the functions before `f`, as the loop of the source adds them up. -/
def nnzFBefore (f : Nat) : Nat := forRange f (fun f n => n + (P.full.fAt f).jac.nnz) 0
def nnzGBefore (g : Nat) : Nat := forRange g (fun g n => n + (P.full.gAt g).jac.nnz) 0
def nnzRBefore (r : Nat) : Nat := forRange r (fun r n => n + (P.boundary.rAt r).jac.nnz) 0
def collisionsBefore (f : Nat) : Nat :=
  forRange f (fun f n => n + (P.full.fAt f).jac.dx.countP (·.col == f)) 0

/-- The nonzeros of one block of rows, before the collisions are subtracted. -/
def rowBlock (i : Nat) : Nat := (M.nodesAt i + 1) * P.pc.xSize + nnzF P + nnzG P

/-- The functions of a window, in the order of `compute_jac_nnz`. -/
def windowFunctions : List FunctionLFG := P.full.L.toList ++ P.full.f ++ P.full.g

def jacEntries (jac : JacobianLFG) : List JacobianSparsity := jac.dx ++ jac.du ++ jac.dp

def hesEntries (hes : HessianLFG) : List HessianSparsity :=
  hes.dxDx ++ hes.duDx ++ hes.duDu ++ hes.dpDx ++ hes.dpDu

inductive Formed : Nat → Prop where
  -- the mesh
  | nodeCount : Formed M.nodeCount
  | accNodes {i j} (hi : i < M.intervals) (hj : j < M.nodesAt i) : Formed (M.accNodesAt i j)
  -- `get_sizes`
  | offXu : Formed P.pc.xuSize
  | runningXu {k} (hk : k ≤ M.nodeCount) : Formed (P.pc.xSize + P.pc.xuSize * k)
  | offAccXu {i j} (hi : i < M.intervals) (hj : j < M.nodesAt i) :
    Formed ((getSizes P M).offAccXu i j)
  | offXuTotal : Formed (getSizes P M).offXuTotal
  | numberVars : Formed (getSizes P M).numberVars
  | offAccFg {i j} (hi : i < M.intervals) (hj : j < M.nodesAt i) :
    Formed ((getSizes P M).offAccFg i j)
  | offFgTotal : Formed (getSizes P M).offFgTotal
  | numberConstraints : Formed (getSizes P M).numberConstraints
  -- `init_jacobian_nonzeros`
  | nnzF {f} (hf : f ≤ P.pc.fSize) : Formed (nnzFBefore P f)
  | nnzG {g} (hg : g ≤ P.pc.gSize) : Formed (nnzGBefore P g)
  | nnzR {r} (hr : r ≤ P.pc.rSize) : Formed (nnzRBefore P r)
  | diagonalCollisions {f} (hf : f ≤ P.pc.fSize) : Formed (collisionsBefore P f)
  | intervalsSucc : Formed (M.intervals + 1)
  | nodesSucc {i} (hi : i < M.intervals) : Formed (M.nodesAt i + 1)
  | collocation {i} (hi : i < M.intervals) : Formed ((M.nodesAt i + 1) * P.pc.xSize)
  | collocationF {i} (hi : i < M.intervals) : Formed ((M.nodesAt i + 1) * P.pc.xSize + nnzF P)
  | rowBlock {i} (hi : i < M.intervals) : Formed (rowBlock P M i)
  | interval {i} (hi : i < M.intervals) :
    Formed (M.nodesAt i * (rowBlock P M i - diagonalCollisions P))
  | offAccJacFg {i} (hi : i ≤ M.intervals) : Formed ((initJacobianNonzeros P M P.pc.xSize).1 i)
  | nnzJac : Formed (initJacobianNonzeros P M P.pc.xSize).2
  -- `init_hessian_nonzeros`
  | repeated : Formed ((hesFlat P P.pc.xSize .B).length + (hesFlat P P.pc.xSize .F).length)
  | repeatedAll : Formed (((hesFlat P P.pc.xSize .B).length + (hesFlat P P.pc.xSize .F).length) *
      (M.nodeCount - 1))
  | blocks (k) : Formed
      (((hesFlat P P.pc.xSize .B).length + (hesFlat P P.pc.xSize .F).length) * (M.nodeCount - 1) +
        (([.A, .C, .D, .E, .G, .H].take k).map fun X => (hesFlat P P.pc.xSize X).length).sum)
  | nnzHes : Formed (initHessianNonzeros P M P.pc.xSize)
  -- `FullSweepBuffers`
  | evalSize : Formed P.full.size
  | jacSize : Formed P.full.computeJacNnz
  | hesSize : Formed P.full.hes.nnz
  | evalLength : Formed (M.nodeCount * P.full.size)
  | jacLength : Formed (M.nodeCount * P.full.computeJacNnz)
  | hesLength : Formed (M.nodeCount * P.full.hes.nnz)
  -- `get_xu_ij`, `get_lambda_ij`, `get_eval_buffer`, `get_jac_buffer`, `get_hes_buffer`
  | xuIj {i j} (hi : i < M.intervals) (hj : j < M.nodesAt i) :
    Formed (P.pc.xuSize * M.accNodesAt i j)
  | lambdaIj {i j} (hi : i < M.intervals) (hj : j < M.nodesAt i) :
    Formed (P.pc.fgSize * M.accNodesAt i j)
  | evalBuffer {i j} (hi : i < M.intervals) (hj : j < M.nodesAt i) :
    Formed (P.full.size * M.accNodesAt i j)
  | jacBuffer {i j} (hi : i < M.intervals) (hj : j < M.nodesAt i) :
    Formed (P.full.computeJacNnz * M.accNodesAt i j)
  | hesBuffer {i j} (hi : i < M.intervals) (hj : j < M.nodesAt i) :
    Formed (P.full.hes.nnz * M.accNodesAt i j)
  -- `lfg_eval_L`, `lfg_eval_f`, `lfg_eval_g`, `lfg_jac`, `lfg_hes`
  | lfgEval {i j fn} (hi : i < M.intervals) (hj : j < M.nodesAt i) (hfn : fn ∈ windowFunctions P) :
    Formed (fn.bufIndex + P.full.size * M.accNodesAt i j)
  | lfgJac {i j fn e} (hi : i < M.intervals) (hj : j < M.nodesAt i)
    (hfn : fn ∈ windowFunctions P) (he : e ∈ jacEntries fn.jac) :
    Formed (e.bufIndex + P.full.computeJacNnz * M.accNodesAt i j)
  | lfgHes {i j e} (hi : i < M.intervals) (hj : j < M.nodesAt i) (he : e ∈ hesEntries P.full.hes) :
    Formed (e.bufIndex + P.full.hes.nnz * M.accNodesAt i j)

/-- Nothing that is formed wraps. -/
def NoWrap : Prop := ∀ v, Formed P M v → v < intBound

structure DimensionsFit : Prop where
  numberVars : (getSizes P M).numberVars < intBound
  numberConstraints : (getSizes P M).numberConstraints < intBound
  nnzJac : (initJacobianNonzeros P M P.pc.xSize).2 < intBound
  nnzHes : initHessianNonzeros P M P.pc.xSize < intBound

/-- A position in a buffer lies in the window of a node. -/
structure WindowIndices : Prop where
  eval : ∀ fn ∈ windowFunctions P, fn.bufIndex < P.full.size
  jac : ∀ fn ∈ windowFunctions P, ∀ e ∈ jacEntries fn.jac, e.bufIndex < P.full.computeJacNnz
  hes : ∀ e ∈ hesEntries P.full.hes, e.bufIndex < P.full.hes.nnz

structure WindowsFit : Prop where
  nodeCount : M.nodeCount < intBound
  intervals : M.intervals + 1 < intBound
  nodes : ∀ i, i < M.intervals → M.nodesAt i + 1 < intBound
  eval : M.nodeCount * P.full.size < intBound
  jac : M.nodeCount * P.full.computeJacNnz < intBound
  hes : M.nodeCount * P.full.hes.nnz < intBound
  rowBlock : ∀ i, i < M.intervals → rowBlock P M i < intBound

end Formed

section Range

variable {K : Type} [Field K] {T : FLGR K} {P : Problem K} {M : Mesh T}

/-- A position in the window of one of `n` nodes. -/
theorem window_lt {size buf acc n : Nat} (hb : buf < size) (ha : acc < n) :
    buf + size * acc < n * size := by
  have h := Nat.mul_le_mul_left size (show acc + 1 ≤ n from ha)
  rw [Nat.mul_succ, Nat.mul_comm size n] at h
  omega

theorem window_start_le (size : Nat) {acc n : Nat} (ha : acc < n) : size * acc ≤ n * size := by
  rw [Nat.mul_comm n]
  exact Nat.mul_le_mul_left size ha.le

theorem size_le_length (M : Mesh T) (size : Nat) : size ≤ M.nodeCount * size :=
  Nat.le_mul_of_pos_left size M.nodeCount_pos

/-- A sum that a loop adds up is at most the whole sum. -/
theorem forRange_sum_mono (v : Nat → Nat) {k n : Nat} (hk : k ≤ n) :
    forRange k (fun i s => s + v i) 0 ≤ forRange n (fun i s => s + v i) 0 := by
  rw [forRange_sum, forRange_sum]
  exact Finset.sum_le_sum_of_subset (Finset.range_mono hk)

omit [Field K] in
theorem collisionsBefore_le (f : Nat) : collisionsBefore P f ≤ nnzFBefore P f := by
  rw [collisionsBefore, nnzFBefore, forRange_sum, forRange_sum]
  refine Finset.sum_le_sum fun f _ => ?_
  have := List.countP_le_length (p := fun e : JacobianSparsity => e.col == f)
    (l := (P.full.fAt f).jac.dx)
  unfold JacobianLFG.nnz
  omega

theorem offAccJacFg_mono {i k : Nat} (hik : i ≤ k) (hk : k ≤ M.intervals) :
    (initJacobianNonzeros P M P.pc.xSize).1 i ≤ (initJacobianNonzeros P M P.pc.xSize).1 k := by
  simp only [initJacobianNonzeros, offAccJacFg]
  rw [forRange_partialSums _ _ (hik.trans hk), forRange_partialSums _ _ hk]
  exact Finset.sum_le_sum_of_subset (Finset.range_mono hik)

theorem interval_le {i : Nat} (hi : i < M.intervals) :
    M.nodesAt i * (rowBlock P M i - diagonalCollisions P) ≤
      (initJacobianNonzeros P M P.pc.xSize).1 (i + 1) := by
  simp only [initJacobianNonzeros, offAccJacFg]
  rw [forRange_partialSums _ _ hi]
  exact Finset.single_le_sum (f := fun i => M.nodesAt i * ((M.nodesAt i + 1) * P.pc.xSize +
    nnzF P + nnzG P - diagonalCollisions P)) (fun _ _ => Nat.zero_le _)
    (Finset.self_mem_range_succ i)

omit [Field K] in
/-- A set has no more elements than a list that has all of them. -/
theorem hesFlat_length_le_of {X : HesBlock} {l : List (Nat × Nat)}
    (h : ∀ e, e ∈ hesFlat P P.pc.xSize X → e ∈ l) : (hesFlat P P.pc.xSize X).length ≤ l.length :=
  (List.subperm_of_subset (OrdSet.nodup _) h).length_le

omit [Field K] in
/-- No more elements than were inserted. -/
theorem hesFlat_length_le :
    (hesFlat P P.pc.xSize .B).length + (hesFlat P P.pc.xSize .F).length ≤ P.full.hes.nnz := by
  have hB := hesFlat_length_le_of (P := P) (X := .B)
    (l := P.full.hes.dxDx.map (fun coo => (coo.row + 0, coo.col + 0)) ++
      P.full.hes.duDx.map (fun coo => (coo.row + P.pc.xSize, coo.col + 0)) ++
      P.full.hes.duDu.map (fun coo => (coo.row + P.pc.xSize, coo.col + P.pc.xSize))) fun e he => by
    simpa [hesFlat, hesSet, OrderedIndexSet.mem_insertSparsity, or_assoc] using he
  have hF := hesFlat_length_le_of (P := P) (X := .F)
    (l := P.full.hes.dpDx.map (fun coo => (coo.row + 0, coo.col + 0)) ++
      P.full.hes.dpDu.map (fun coo => (coo.row + 0, coo.col + P.pc.xSize))) fun e he => by
    simpa [hesFlat, hesSet, OrderedIndexSet.mem_insertSparsity] using he
  simp only [List.length_append, List.length_map] at hB hF
  unfold HessianLFG.nnz
  omega

omit [Field K] in
/-- The rows of the last node have the entries of the other nodes, and those of the boundary. -/
theorem hesFlat_length_mono :
    (hesFlat P P.pc.xSize .B).length + (hesFlat P P.pc.xSize .F).length ≤
      (hesFlat P P.pc.xSize .D).length + (hesFlat P P.pc.xSize .G).length := by
  refine Nat.add_le_add (hesFlat_length_le_of fun e he => ?_) (hesFlat_length_le_of fun e he => ?_)
  · simp only [hesFlat, hesSet, OrderedIndexSet.mem_insertSparsity,
      OrderedIndexSet.not_mem_empty, false_or] at he ⊢
    rcases he with (he | he) | he
    · exact .inl (.inl (.inr he))
    · exact .inl (.inr he)
    · exact .inr he
  · simp only [hesFlat, hesSet, OrderedIndexSet.mem_insertSparsity,
      OrderedIndexSet.not_mem_empty, false_or] at he ⊢
    rcases he with he | he
    · exact .inl (.inr he)
    · exact .inr he

/-- The sum of `init_hessian_nonzeros`, from left to right. -/
theorem blocks_le (k : Nat) :
    ((hesFlat P P.pc.xSize .B).length + (hesFlat P P.pc.xSize .F).length) * (M.nodeCount - 1) +
        (([.A, .C, .D, .E, .G, .H].take k).map fun X => (hesFlat P P.pc.xSize X).length).sum ≤
      initHessianNonzeros P M P.pc.xSize := by
  have h := ((List.take_sublist k [HesBlock.A, .C, .D, .E, .G, .H]).map
    fun X => (hesFlat P P.pc.xSize X).length).sum_le_sum fun _ _ => Nat.zero_le _
  simp only [List.map_cons, List.map_nil, List.sum_cons, List.sum_nil] at h
  unfold initHessianNonzeros
  omega

/-- Without an entry twice, the nonzeros of the Hessian bound the windows. -/
theorem hesLength_le (h : (hesFlat P P.pc.xSize .B).length + (hesFlat P P.pc.xSize .F).length =
    P.full.hes.nnz) :
    M.nodeCount * P.full.hes.nnz ≤ initHessianNonzeros P M P.pc.xSize := by
  obtain ⟨n, hn⟩ : ∃ n, M.nodeCount = n + 1 := ⟨M.nodeCount - 1, by have := M.nodeCount_pos; omega⟩
  have hmono := hesFlat_length_mono (P := P)
  rw [initHessianNonzeros, ← h, hn, Nat.add_sub_cancel, Nat.add_mul, Nat.mul_comm n]
  omega

/-- With dimensions and windows that fit, every value does. -/
theorem noWrap_of_windowsFit (hd : DimensionsFit P M) (hb : WindowIndices P)
    (hw : WindowsFit P M) : NoWrap P M := by
  have hvars := hd.numberVars
  have hcons := hd.numberConstraints
  have hnodes := M.nodeCount_pos
  have hblock := hw.rowBlock 0 M.intervals_pos
  have hjac : (initJacobianNonzeros P M P.pc.xSize).1 M.intervals + nnzR P < intBound := hd.nnzJac
  rw [getSizes_numberVars] at hvars
  rw [getSizes_numberConstraints] at hcons
  unfold rowBlock at hblock
  have hstart (size : Nat) {i j : Nat} (hi : i < M.intervals) (hj : j < M.nodesAt i) :=
    window_start_le size (M.accNodesAt_lt hi hj)
  intro v hv
  cases hv with
  | nodeCount => exact hw.nodeCount
  | accNodes hi hj => exact (M.accNodesAt_lt hi hj).trans hw.nodeCount
  | offXu =>
    have := size_le_length M P.pc.xuSize
    rw [Nat.mul_comm] at this
    omega
  | runningXu hk =>
    have := Nat.mul_le_mul_left P.pc.xuSize hk
    omega
  | offAccXu hi hj =>
    have := hstart P.pc.xuSize hi hj
    rw [Nat.mul_comm M.nodeCount] at this
    rw [getSizes_offAccXu P M hi hj]
    omega
  | offXuTotal =>
    rw [getSizes_offXuTotal]
    omega
  | numberVars => exact hd.numberVars
  | offAccFg hi hj =>
    have := hstart P.pc.fgSize hi hj
    rw [getSizes_offAccFg P M hi hj, Nat.mul_comm]
    omega
  | offFgTotal =>
    rw [getSizes_offFgTotal]
    omega
  | numberConstraints => exact hd.numberConstraints
  | nnzF hf =>
    have : nnzFBefore P _ ≤ nnzF P := forRange_sum_mono _ hf
    omega
  | nnzG hg =>
    have : nnzGBefore P _ ≤ nnzG P := forRange_sum_mono _ hg
    omega
  | nnzR hr =>
    have : nnzRBefore P _ ≤ nnzR P := forRange_sum_mono _ hr
    omega
  | diagonalCollisions hf =>
    have h1 := collisionsBefore_le (P := P) ‹_›
    have h2 : nnzFBefore P _ ≤ nnzF P := forRange_sum_mono _ hf
    omega
  | intervalsSucc => exact hw.intervals
  | nodesSucc hi => exact hw.nodes _ hi
  | collocation hi =>
    have := hw.rowBlock _ hi
    unfold rowBlock at this
    omega
  | collocationF hi =>
    have := hw.rowBlock _ hi
    unfold rowBlock at this
    omega
  | rowBlock hi => exact hw.rowBlock _ hi
  | interval hi =>
    have h1 := interval_le (P := P) hi
    have h2 := offAccJacFg_mono (P := P) (show _ + 1 ≤ M.intervals from hi) le_rfl
    omega
  | offAccJacFg hi =>
    have := offAccJacFg_mono (P := P) hi le_rfl
    omega
  | nnzJac => exact hd.nnzJac
  | repeated =>
    have h1 := hesFlat_length_le (P := P)
    have h2 := size_le_length M P.full.hes.nnz
    have := hw.hes
    omega
  | repeatedAll =>
    have := hd.nnzHes
    unfold initHessianNonzeros at this
    omega
  | blocks k => exact (blocks_le k).trans_lt hd.nnzHes
  | nnzHes => exact hd.nnzHes
  | evalSize => exact (size_le_length M _).trans_lt hw.eval
  | jacSize => exact (size_le_length M _).trans_lt hw.jac
  | hesSize => exact (size_le_length M _).trans_lt hw.hes
  | evalLength => exact hw.eval
  | jacLength => exact hw.jac
  | hesLength => exact hw.hes
  | xuIj hi hj =>
    have := hstart P.pc.xuSize hi hj
    rw [Nat.mul_comm M.nodeCount] at this
    omega
  | lambdaIj hi hj =>
    have := hstart P.pc.fgSize hi hj
    omega
  | evalBuffer hi hj => exact (hstart _ hi hj).trans_lt hw.eval
  | jacBuffer hi hj => exact (hstart _ hi hj).trans_lt hw.jac
  | hesBuffer hi hj => exact (hstart _ hi hj).trans_lt hw.hes
  | lfgEval hi hj hfn => exact (window_lt (hb.eval _ hfn) (M.accNodesAt_lt hi hj)).trans hw.eval
  | lfgJac hi hj hfn he =>
    exact (window_lt (hb.jac _ hfn _ he) (M.accNodesAt_lt hi hj)).trans hw.jac
  | lfgHes hi hj he => exact (window_lt (hb.hes _ he) (M.accNodesAt_lt hi hj)).trans hw.hes

/-- Nothing wraps if and only if the windows of all nodes fit. -/
theorem index_range_iff (hd : DimensionsFit P M) (hb : WindowIndices P) :
    NoWrap P M ↔ WindowsFit P M := by
  refine ⟨fun h => ?_, noWrap_of_windowsFit hd hb⟩
  exact ⟨h _ .nodeCount, h _ .intervalsSucc, fun i hi => h _ (.nodesSucc hi), h _ .evalLength,
    h _ .jacLength, h _ .hesLength, fun i hi => h _ (.rowBlock hi)⟩

end Range

/-! ## Windows that do not fit -/

/-- One state and two controls; the Lagrange term and the dynamics depend on all three. -/
def dense : Problem ℚ where
  pc := { hasMayer := false, hasLagrange := true, xBounds := [⟨0, 1⟩], uBounds := [⟨0, 1⟩, ⟨0, 1⟩]
          pBounds := [], x0Fixed := [none], xfFixed := [none], rBounds := [], gBounds := [] }
  full := { L := some { bufIndex := 0, jac := { dx := [⟨0, 0⟩], du := [⟨0, 1⟩, ⟨1, 2⟩] } }
            f := [{ bufIndex := 1, jac := { dx := [⟨0, 3⟩], du := [⟨0, 4⟩, ⟨1, 5⟩] } }]
            g := [] }
  boundary := { r := [] }
  f_length := rfl
  g_length := rfl
  r_length := rfl

/-- `n` intervals with one node. -/
def singleNodes (n : Nat) (hn : 0 < n) : Mesh radauTwo :=
  Mesh.createEquidistantFixedStages radauTwo 1 n 1 hn Nat.one_pos

theorem singleNodes_nodeCount (n : Nat) (hn : 0 < n) : (singleNodes n hn).nodeCount = n :=
  Nat.one_mul n

theorem singleNodes_nodesAt {n : Nat} (hn : 0 < n) {i : Nat} (hi : i < n) :
    (singleNodes n hn).nodesAt i = 1 := List.getD_replicate _ hi

theorem dense_nnzJac (n : Nat) (hn : 0 < n) :
    (initJacobianNonzeros dense (singleNodes n hn) dense.pc.xSize).2 = 4 * n := by
  have hsum : (initJacobianNonzeros dense (singleNodes n hn) dense.pc.xSize).1 n =
      ∑ i ∈ Finset.range n, (singleNodes n hn).nodesAt i * (((singleNodes n hn).nodesAt i + 1) *
        dense.pc.xSize + nnzF dense + nnzG dense - diagonalCollisions dense) :=
    forRange_partialSums _ _ le_rfl
  have hone : ∀ i ∈ Finset.range n, (singleNodes n hn).nodesAt i *
      (((singleNodes n hn).nodesAt i + 1) * dense.pc.xSize + nnzF dense + nnzG dense -
        diagonalCollisions dense) = 4 := by
    intro i hi
    rw [singleNodes_nodesAt hn (Finset.mem_range.mp hi)]
    rfl
  rw [Finset.sum_congr rfl hone, Finset.sum_const, Finset.card_range, smul_eq_mul,
    Nat.mul_comm] at hsum
  exact hsum

theorem dense_windowIndices : WindowIndices dense := by
  constructor
  · decide
  · decide
  · decide

theorem dense_dimensionsFit {n : Nat} (hn : 0 < n) (h : 4 * n < intBound) :
    DimensionsFit dense (singleNodes n hn) := by
  have hx : dense.pc.xSize + dense.pc.xuSize * n + dense.pc.pSize = 1 + 3 * n := rfl
  have hg : dense.pc.rSize + n * dense.pc.fgSize = n := by
    show 0 + n * 1 = n
    omega
  have hh : initHessianNonzeros dense (singleNodes n hn) dense.pc.xSize = 0 := by
    show (0 + 0) * ((singleNodes n hn).nodeCount - 1) + 0 + 0 + 0 + 0 + 0 + 0 = 0
    omega
  refine ⟨?_, ?_, ?_, ?_⟩
  · rw [getSizes_numberVars, singleNodes_nodeCount, hx]
    omega
  · rw [getSizes_numberConstraints, singleNodes_nodeCount, hg]
    omega
  · rw [dense_nnzJac]
    exact h
  · rw [hh]
    decide

/-- 400 million nodes: `1.6 * 10 ^ 9` nonzeros in the Jacobian, and a buffer of `2.4 * 10 ^ 9`. -/
theorem jacobian_buffer_wraps : ¬ ∀ (P : Problem ℚ) (M : Mesh radauTwo),
    DimensionsFit P M → WindowIndices P → NoWrap P M := by
  intro h
  have hfit := dense_dimensionsFit (n := 400000000) (by decide) (by decide)
  have hw := h dense _ hfit dense_windowIndices _ .jacLength
  rw [singleNodes_nodeCount] at hw
  exact absurd hw (by decide)

theorem index_range_iff_dense : NoWrap dense (singleNodes 3 (by decide)) ↔
    WindowsFit dense (singleNodes 3 (by decide)) :=
  index_range_iff (dense_dimensionsFit (by decide) (by decide)) dense_windowIndices

end GDOP
end Moo
