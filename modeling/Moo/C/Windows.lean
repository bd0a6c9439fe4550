import Moo.C.LayoutBoundary
import Moo.GDOP.HessianCorrect
import Moo.Lib.Segment

/-!
# C.Windows

The buffers of the full sweep, and the positions that the callbacks write and the accessors read.

* `FullSweepBuffers`: the sizes of one window and the extents of the buffers, `resize`d with every
  new mesh.
* `WindowsOk`: every position of a node is in the buffer and in the window of the node.
* `windows_iff`: this holds on every mesh exactly when no Hessian entry is of two parameters; those
  are counted by no window, and their own buffer is never allocated.
-/

namespace Moo
namespace C

open Loop GDOP Buckets Segment

structure FullSweepBuffers where
  evalSize : Nat
  jacSize : Nat
  hesSize : Nat
  eval : Nat := 0
  jac : Nat := 0
  hes : Nat := 0
  ppHes : Nat := 0

namespace FullSweepBuffers

variable {K : Type} [Field K] {T : FLGR K}

def resize (b : FullSweepBuffers) (M : Mesh T) : FullSweepBuffers :=
  { b with
    eval := M.nodeCount * b.evalSize
    jac := M.nodeCount * b.jacSize
    hes := M.nodeCount * b.hesSize }

def new (layout : FullSweepLayout) (M : Mesh T) : FullSweepBuffers :=
  resize
    { evalSize := layout.size, jacSize := layout.computeJacNnz, hesSize := layout.hes.nnz } M

/-- The mesh of the constructor, then those of `update_mesh`. -/
def after (layout : FullSweepLayout) (M : Mesh T) (meshes : List (Mesh T)) : FullSweepBuffers :=
  meshes.foldl resize (new layout M)

theorem after_eq (layout : FullSweepLayout) (M : Mesh T) (meshes : List (Mesh T)) :
    after layout M meshes = new layout (meshes.getLastD M) := by
  unfold after
  induction meshes generalizing M with
  | nil => rfl
  | cons M' meshes ih =>
    rw [List.foldl_cons, List.getLastD_cons]
    exact ih M'

end FullSweepBuffers

section Windows

variable {K : Type} [Field K] {T : FLGR K}

/-- Position `pos` of a buffer of `extent` entries is in the window of node `(i, j)`. -/
def InWindow (M : Mesh T) (size extent i j pos : Nat) : Prop :=
  pos < extent ∧ size * M.accNodesAt i j ≤ pos ∧ pos < size * M.accNodesAt i j + size

/-- The windows of two nodes have no position in common. -/
theorem InWindow.node_unique {M : Mesh T} {size extent i j i' j' pos : Nat}
    (hi : i < M.intervals) (hj : j < M.nodesAt i) (hi' : i' < M.intervals) (hj' : j' < M.nodesAt i')
    (h : InWindow M size extent i j pos) (h' : InWindow M size extent i' j' pos) :
    i = i' ∧ j = j' := by
  obtain ⟨-, h1, h2⟩ := h
  obtain ⟨-, h3, h4⟩ := h'
  have e : size * M.accNodesAt i j + (pos - size * M.accNodesAt i j) =
      size * M.accNodesAt i' j' + (pos - size * M.accNodesAt i' j') := by omega
  exact M.accNodesAt_inj hi hj hi' hj' (block_inj (by omega) (by omega) e).1

/-- Where the callbacks write for a node: at the buffer indices of its functions and nonzeros,
from the pointers `get_eval_buffer`, `get_jac_buffer`, `get_hes_buffer` on; and where the accessors
read. -/
structure WindowsOk (c : CProblem K) (layout : FullSweepLayout) (b : FullSweepBuffers)
    (M : Mesh T) : Prop where
  evalWrite : ∀ i j, i < M.intervals → j < M.nodesAt i → ∀ row, row < lfgSize c →
    InWindow M b.evalSize b.eval i j (b.evalSize * M.accNodesAt i j + c.lfgEval row)
  jacWrite : ∀ i j, i < M.intervals → j < M.nodesAt i → ∀ t ∈ c.lfgJac.triplets,
    InWindow M b.jacSize b.jac i j (b.jacSize * M.accNodesAt i j + t.bufIndex)
  hesWrite : ∀ i j, i < M.intervals → j < M.nodesAt i → ∀ t ∈ c.lfgLtHes.triplets,
    InWindow M b.hesSize b.hes i j (b.hesSize * M.accNodesAt i j + t.bufIndex)
  evalRead : ∀ i j, i < M.intervals → j < M.nodesAt i → ∀ q ∈ lfgFns c,
    InWindow M b.evalSize b.eval i j ((lfgFn layout q).bufIndex + b.evalSize * M.accNodesAt i j)
  jacRead : ∀ i j, i < M.intervals → j < M.nodesAt i → ∀ q, ∀ e ∈ lfgJacList layout q,
    InWindow M b.jacSize b.jac i j (e.bufIndex + b.jacSize * M.accNodesAt i j)
  hesRead : ∀ i j, i < M.intervals → j < M.nodesAt i → ∀ q, q ≠ (.dp, .dp) →
    ∀ e ∈ lfgHesList layout q,
    InWindow M b.hesSize b.hes i j (e.bufIndex + b.hesSize * M.accNodesAt i j)
  ppRead : ∀ e ∈ layout.ppHes.dpDp, e.bufIndex < b.ppHes
  apart : ∀ i j i' j' size extent pos, i < M.intervals → j < M.nodesAt i → i' < M.intervals →
    j' < M.nodesAt i' → InWindow M size extent i j pos → InWindow M size extent i' j' pos →
    i = i' ∧ j = j'

theorem inWindow_of_lt {M : Mesh T} {size i j k : Nat} (hi : i < M.intervals)
    (hj : j < M.nodesAt i) (hk : k < size) :
    InWindow M size (M.nodeCount * size) i j (size * M.accNodesAt i j + k) := by
  have h := block_lt (M.accNodesAt_lt hi hj) hk
  rw [Nat.mul_comm size M.nodeCount] at h
  exact ⟨h, by omega, by omega⟩

end Windows

/-! ## Sizes of the windows -/

section Sizes

variable {K : Type} {c : CProblem K} {layout : FullSweepLayout}

theorem size_eq (h : FullSized c layout) : layout.size = lfgSize c := by
  unfold FullSweepLayout.size lfgSize lSize
  rw [h.L, h.f, h.g]

theorem jac_length (jac : JacobianLFG) (back : Part → JacobianSparsity → Triplet) :
    ([Part.dx, .du, .dp].flatMap fun p => (jacPart jac p).map (back p)).length = jac.nnz := by
  simp [jacPart, JacobianLFG.nnz]
  omega

theorem computeJacNnz_eq (h : FullSized c layout) :
    layout.computeJacNnz = ((lfgFns c).map fun q => (lfgFn layout q).jac.nnz).sum := by
  unfold FullSweepLayout.computeJacNnz lfgFns
  rw [List.map_append, List.map_append, List.sum_append, List.sum_append]
  congr 1
  · congr 1
    · have hL := h.L
      cases hc : c.hasLagrange with
      | true =>
        rw [hc] at hL
        obtain ⟨L, hL⟩ := Option.isSome_iff_exists.mp hL
        simp [lfgFn, hL]
      | false =>
        rw [hc] at hL
        rw [show layout.L = none by simpa using hL]
        rfl
    · rw [List.map_map, ← h.f, ← map_getD_range layout.f {}, List.map_map]
      simp only [map_getD_range]
      rfl
  · rw [List.map_map, ← h.g, ← map_getD_range layout.g {}, List.map_map]
    simp only [map_getD_range]
    rfl

theorem computeJacNnz_nnz (h : FullClassified c layout) :
    layout.computeJacNnz = c.lfgJac.nnz := by
  rw [computeJacNnz_eq h.sized, ← CooT.length_triplets, ← h.jac.perm.length_eq]
  unfold lfgJacPlaces List.product
  rw [List.flatMap_assoc, List.length_flatMap]
  refine congrArg List.sum (List.map_congr_left fun q _ => ?_)
  rw [List.flatMap_map]
  exact (jac_length _ fun p e => lfgJacBack c (q, p) e).symm

/-- The Hessian windows count the entries of the path functions, but those of two parameters. -/
theorem hes_nnz_add (h : FullClassified c layout) :
    layout.hes.nnz + layout.ppHes.nnz = c.lfgLtHes.nnz := by
  rw [← CooT.length_triplets, ← h.hes.perm.length_eq]
  simp only [lfgHesPlaces, List.flatMap_cons, List.flatMap_nil, List.length_append,
    List.length_map, List.length_nil, lfgHesList, HessianLFG.nnz, ParameterHessian.nnz]
  omega

/-- The entries of two parameters are those whose column is one. -/
theorem dpDp_eq_nil_iff (h : FullClassified c layout) :
    layout.ppHes.dpDp = [] ↔ ∀ t ∈ c.lfgLtHes.triplets, t.col < c.xuSize := by
  have hxu := c.xu_size
  constructor
  · intro hn t ht
    obtain ⟨q, hq, e, he, rfl⟩ := h.hes.mem_iff.mp ht
    obtain ⟨-, -, hc, -⟩ := h.hesInside q e he
    simp only [lfgHesPlaces, List.mem_cons, List.not_mem_nil, or_false] at hq
    rcases hq with rfl | rfl | rfl | rfl | rfl | rfl
    case inr.inr.inr.inr.inr =>
      rw [lfgHesList, hn] at he
      cases he
    all_goals
      simp only [Part.size] at hc
      simp only [lfgHesBack, Part.off]
      omega
  · intro hc
    refine List.eq_nil_iff_forall_not_mem.mpr fun e he => ?_
    have hlt := hc _ (h.hes.back_mem (q := (.dp, .dp)) he)
    simp only [lfgHesBack, Part.off] at hlt
    omega

end Sizes

/-! ## The windows of the interface -/

section Interface

variable {K : Type} [Field K] {T : FLGR K} {c : CProblem K}

/-- The buffer indices of a pattern are the numbers of its nonzeros. -/
def CooT.Numbered (coo : CooT) : Prop :=
  (coo.triplets.map Triplet.bufIndex).Perm (List.range coo.nnz)

theorem CooT.Numbered.lt {coo : CooT} (h : coo.Numbered) {t : Triplet} (ht : t ∈ coo.triplets) :
    t.bufIndex < coo.nnz :=
  List.mem_range.mp (h.mem_iff.mp (List.mem_map.mpr ⟨t, ht, rfl⟩))

/-- So are those of the values. -/
def EvalNumbered (c : CProblem K) : Prop :=
  ((List.range (lfgSize c)).map c.lfgEval).Perm (List.range (lfgSize c))

instance (coo : CooT) : Decidable coo.Numbered := List.decidablePerm _ _
instance : Decidable (EvalNumbered c) := List.decidablePerm _ _

omit [Field K] in
theorem EvalNumbered.lt (h : EvalNumbered c) {row : Nat} (hr : row < lfgSize c) :
    c.lfgEval row < lfgSize c :=
  List.mem_range.mp (h.mem_iff.mp (List.mem_map.mpr ⟨row, List.mem_range.mpr hr, rfl⟩))

theorem windows_ok (hj : LfgJacInRange c) (hh : LfgHesInRange c) (hE : EvalNumbered c)
    (hJ : c.lfgJac.Numbered) (hH : c.lfgLtHes.Numbered)
    (hp : ∀ t ∈ c.lfgLtHes.triplets, t.col < c.xuSize) (M : Mesh T) :
    WindowsOk c (createFullsweepLayout c) (.new (createFullsweepLayout c) M) M := by
  have hc := createFullsweepLayout_classified hj hh
  have hl := createFullsweepLayout_lists (fun t ht => (hj t ht).1) fun t ht => (hh t ht).2
  have hs := size_eq hc.sized
  have hn := computeJacNnz_nnz hc
  have hpp := (dpDp_eq_nil_iff hc).mpr hp
  have hz : (createFullsweepLayout c).hes.nnz = c.lfgLtHes.nnz := by
    have h := hes_nnz_add hc
    rwa [ParameterHessian.nnz, hpp, List.length_nil, Nat.add_zero] at h
  refine ⟨?_, ?_, ?_, ?_, ?_, ?_, ?_, ?_⟩
  · intro i j hi hj row hr
    exact inWindow_of_lt hi hj ((hE.lt hr).trans_eq hs.symm)
  · intro i j hi hj t ht
    exact inWindow_of_lt hi hj ((hJ.lt ht).trans_eq hn.symm)
  · intro i j hi hj t ht
    exact inWindow_of_lt hi hj ((hH.lt ht).trans_eq hz.symm)
  · intro i j hi hj q hq
    rw [Nat.add_comm, hl.bufIndex q hq]
    exact inWindow_of_lt hi hj ((hE.lt (LfgFn.row_lt c hq)).trans_eq hs.symm)
  · intro i j hi hj q e he
    rw [Nat.add_comm]
    exact inWindow_of_lt hi hj ((hJ.lt (hc.jac.back_mem he)).trans_eq hn.symm)
  · intro i j hi hj q _ e he
    rw [Nat.add_comm]
    exact inWindow_of_lt hi hj ((hH.lt (hc.hes.back_mem he)).trans_eq hz.symm)
  · rw [hpp]
    intro e he
    cases he
  · intro i j i' j' size extent pos hi hj hi' hj'
    exact InWindow.node_unique hi hj hi' hj'

/-- On every mesh, after any meshes before it: the positions of the callbacks are in their windows
exactly when the pattern has no entry of two parameters. -/
theorem windows_iff (hj : LfgJacInRange c) (hh : LfgHesInRange c) (hE : EvalNumbered c)
    (hJ : c.lfgJac.Numbered) (hH : c.lfgLtHes.Numbered) :
    (∀ (M : Mesh T) (meshes : List (Mesh T)), WindowsOk c (createFullsweepLayout c)
      (.after (createFullsweepLayout c) M meshes) (meshes.getLastD M)) ↔
    ∀ t ∈ c.lfgLtHes.triplets, t.col < c.xuSize := by
  constructor
  · intro h
    have hM := h (.createFromMeshUpdate T ⟨[0, 1], [1], by simp, rfl, by simp⟩) []
    rw [← dpDp_eq_nil_iff (createFullsweepLayout_classified hj hh)]
    exact List.eq_nil_iff_forall_not_mem.mpr fun e he => Nat.not_lt_zero _ (hM.ppRead e he)
  · intro hp M meshes
    rw [FullSweepBuffers.after_eq]
    exact windows_ok hj hh hE hJ hH hp _

end Interface

/-! One parameter, and a Lagrange term with `d² / dp²`. -/

section Parameter

def parameter : CProblem ℚ where
  xSize := 0
  uSize := 0
  xuSize := 0
  pSize := 1
  rSize := 0
  gSize := 0
  hasMayer := false
  hasLagrange := true
  xBounds := fun _ => ⟨0, 1⟩
  uBounds := fun _ => ⟨0, 1⟩
  pBounds := fun _ => ⟨0, 1⟩
  rBounds := fun _ => ⟨0, 1⟩
  gBounds := fun _ => ⟨0, 1⟩
  x0Fixed := fun _ => ⟨0, false⟩
  xfFixed := fun _ => ⟨0, false⟩
  lfgEval := id
  lfgJac := .ofTriplets [⟨0, 0, 0⟩]
  lfgLtHes := .ofTriplets [⟨0, 0, 0⟩]
  mrEval := id
  mrJac := .ofTriplets []
  mrLtHes := .ofTriplets []
  xu_size := rfl

theorem windows_overrun : ¬ ∀ c : CProblem ℚ, LfgJacInRange c → LfgHesInRange c →
    EvalNumbered c → c.lfgJac.Numbered → c.lfgLtHes.Numbered →
    ∀ (M : Mesh zeroTables) (meshes : List (Mesh zeroTables)),
      WindowsOk c (createFullsweepLayout c)
        (.after (createFullsweepLayout c) M meshes) (meshes.getLastD M) := by
  intro h
  have hM := h parameter (by decide) (by decide) (by decide) (by decide) (by decide) oneNode []
  exact absurd (hM.ppRead ⟨0, 0, 0⟩ (by decide)) (Nat.not_lt_zero _)

/-- `coupled`, linear in its parameter. -/
def linearParameter : CProblem ℚ :=
  { coupled with
    lfgLtHes := .ofTriplets [⟨0, 0, 0⟩, ⟨1, 0, 1⟩, ⟨1, 1, 2⟩, ⟨2, 0, 3⟩, ⟨2, 1, 4⟩] }

theorem windows_iff_linearParameter :
    (∀ (M : Mesh zeroTables) (meshes : List (Mesh zeroTables)),
      WindowsOk linearParameter (createFullsweepLayout linearParameter)
        (.after (createFullsweepLayout linearParameter) M meshes) (meshes.getLastD M)) ↔
      ∀ t ∈ linearParameter.lfgLtHes.triplets, t.col < 2 :=
  windows_iff (c := linearParameter) (by decide) (by decide) (by decide) (by decide) (by decide)

end Parameter

end C
end Moo
