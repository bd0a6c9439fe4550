import Moo.Base.Mesh
import Moo.Base.NlpStructs

/-!
# GDOP.Problem

The continuous problem: sizes and bounds, the layouts of the two sweeps, the buffers that the
callbacks fill, and the accessors that read them.

The full sweep `lfg` (Lagrange term, dynamics, path constraints) has one window of every buffer
for each collocation node, addressed by the running node number; the boundary sweep `mr` has one
buffer in all.
-/

namespace Moo
namespace GDOP

structure ProblemConstants (K : Type) where
  hasMayer : Bool
  hasLagrange : Bool
  xBounds : List (Bounds K)
  uBounds : List (Bounds K)
  pBounds : List (Bounds K)
  x0Fixed : List (Option K)
  xfFixed : List (Option K)
  rBounds : List (Bounds K)
  gBounds : List (Bounds K)

namespace ProblemConstants

variable {K : Type} (pc : ProblemConstants K)

def xSize : Nat := pc.xBounds.length
def uSize : Nat := pc.uBounds.length
def pSize : Nat := pc.pBounds.length
def xuSize : Nat := pc.xSize + pc.uSize
def fSize : Nat := pc.xSize
def gSize : Nat := pc.gBounds.length
def rSize : Nat := pc.rBounds.length
def fgSize : Nat := pc.fSize + pc.gSize

end ProblemConstants

structure FullSweepLayout where
  L : Option FunctionLFG := none
  f : List FunctionLFG
  g : List FunctionLFG
  hes : HessianLFG := {}
  ppHes : ParameterHessian := {}

namespace FullSweepLayout

variable (layout : FullSweepLayout)

def fAt (fIndex : Nat) : FunctionLFG := layout.f.getD fIndex {}
def gAt (gIndex : Nat) : FunctionLFG := layout.g.getD gIndex {}

def size : Nat := (if layout.L.isSome then 1 else 0) + layout.f.length + layout.g.length

def computeJacNnz : Nat :=
  (match layout.L with
    | some L => L.jac.nnz
    | none => 0) +
  (layout.f.map fun fn => fn.jac.nnz).sum + (layout.g.map fun fn => fn.jac.nnz).sum

end FullSweepLayout

structure BoundarySweepLayout where
  M : Option FunctionMR := none
  r : List FunctionMR
  hes : HessianMR := {}

def BoundarySweepLayout.rAt (layout : BoundarySweepLayout) (rIndex : Nat) : FunctionMR :=
  layout.r.getD rIndex {}

/-- The problem data that no solve changes: constants and layouts, with one layout entry for
each dynamic, path and boundary function. -/
structure Problem (K : Type) where
  pc : ProblemConstants K
  full : FullSweepLayout
  boundary : BoundarySweepLayout
  f_length : full.f.length = pc.fSize
  g_length : full.g.length = pc.gSize
  r_length : boundary.r.length = pc.rSize

/-! ## Well-formed layouts -/

/-- Columns below `n`, none twice. -/
structure ColumnsOk (n : Nat) (l : List JacobianSparsity) : Prop where
  range : ∀ e ∈ l, e.col < n
  nodup : (l.map (·.col)).Nodup

structure JacobianLFGOk {K : Type} (pc : ProblemConstants K) (jac : JacobianLFG) : Prop where
  dx : ColumnsOk pc.xSize jac.dx
  du : ColumnsOk pc.uSize jac.du
  dp : ColumnsOk pc.pSize jac.dp

structure JacobianMROk {K : Type} (pc : ProblemConstants K) (jac : JacobianMR) : Prop where
  dx0 : ColumnsOk pc.xSize jac.dx0
  dxf : ColumnsOk pc.xSize jac.dxf
  duf : ColumnsOk pc.uSize jac.duf
  dp : ColumnsOk pc.pSize jac.dp

/-- What the Jacobian assembly needs of the layout. Only the dynamics need sorted state columns:
they are merged with the columns of the differentiation matrix. -/
structure JacobianLayoutOk {K : Type} (P : Problem K) : Prop where
  f : ∀ fn ∈ P.full.f, JacobianLFGOk P.pc fn.jac
  g : ∀ fn ∈ P.full.g, JacobianLFGOk P.pc fn.jac
  r : ∀ fn ∈ P.boundary.r, JacobianMROk P.pc fn.jac
  f_sorted : ∀ fn ∈ P.full.f, fn.jac.dx.Pairwise fun e e' => e.col ≤ e'.col

namespace JacobianLayoutOk

variable {K : Type} {P : Problem K} (h : JacobianLayoutOk P)

include h

theorem fAt {f : Nat} (hf : f < P.pc.fSize) : JacobianLFGOk P.pc (P.full.fAt f).jac := by
  rw [FullSweepLayout.fAt, List.getD_eq_getElem _ _ (by rw [P.f_length]; exact hf)]
  exact h.f _ (List.getElem_mem _)

theorem gAt {g : Nat} (hg : g < P.pc.gSize) : JacobianLFGOk P.pc (P.full.gAt g).jac := by
  rw [FullSweepLayout.gAt, List.getD_eq_getElem _ _ (by rw [P.g_length]; exact hg)]
  exact h.g _ (List.getElem_mem _)

theorem rAt {r : Nat} (hr : r < P.pc.rSize) : JacobianMROk P.pc (P.boundary.rAt r).jac := by
  rw [BoundarySweepLayout.rAt, List.getD_eq_getElem _ _ (by rw [P.r_length]; exact hr)]
  exact h.r _ (List.getElem_mem _)

theorem fAt_sorted {f : Nat} (hf : f < P.pc.fSize) :
    (P.full.fAt f).jac.dx.Pairwise fun e e' => e.col < e'.col := by
  have hd : (P.full.fAt f).jac.dx.Pairwise fun e e' => e.col ≠ e'.col :=
    List.pairwise_map.mp (h.fAt hf).dx.nodup
  have hs : (P.full.fAt f).jac.dx.Pairwise fun e e' => e.col ≤ e'.col := by
    rw [FullSweepLayout.fAt, List.getD_eq_getElem _ _ (by rw [P.f_length]; exact hf)]
    exact h.f_sorted _ (List.getElem_mem _)
  exact (hs.and hd).imp fun ⟨h1, h2⟩ => Nat.lt_of_le_of_ne h1 h2

end JacobianLayoutOk

/-- What the merged walks over the state columns need. -/
structure WalksOk {K : Type} (P : Problem K) : Prop where
  sorted : ∀ f, f < P.pc.fSize → (P.full.fAt f).jac.dx.Pairwise fun e e' => e.col < e'.col
  range : ∀ f, f < P.pc.fSize → ∀ e ∈ (P.full.fAt f).jac.dx, e.col < P.pc.xSize

theorem JacobianLayoutOk.walks {K : Type} {P : Problem K} (h : JacobianLayoutOk P) : WalksOk P :=
  ⟨fun _ hf => h.fAt_sorted hf, fun _ hf => (h.fAt hf).dx.range⟩

/-- Content of the callback buffers. `eval`, `jac`, `hes` hold one window for each node. -/
structure Buffers (K : Type) where
  eval : Nat → K
  jac : Nat → K
  hes : Nat → K
  ppHes : Nat → K
  mrEval : Nat → K
  mrJac : Nat → K
  mrHes : Nat → K

section Accessors

variable {K : Type} [Field K] {T : FLGR K} (P : Problem K) (M : Mesh T) (B : Buffers K)

def lfgEvalL (i j : Nat) : K :=
  B.eval ((P.full.L.getD {}).bufIndex + P.full.size * M.accNodesAt i j)

def lfgEvalF (fIndex i j : Nat) : K :=
  B.eval ((P.full.fAt fIndex).bufIndex + P.full.size * M.accNodesAt i j)

def lfgEvalG (gIndex i j : Nat) : K :=
  B.eval ((P.full.gAt gIndex).bufIndex + P.full.size * M.accNodesAt i j)

def lfgJac (jacBufBaseIndex i j : Nat) : K :=
  B.jac (jacBufBaseIndex + P.full.computeJacNnz * M.accNodesAt i j)

def lfgHes (hesBufBaseIndex i j : Nat) : K :=
  B.hes (hesBufBaseIndex + P.full.hes.nnz * M.accNodesAt i j)

def lfgPpHes (hesBufBaseIndex : Nat) : K := B.ppHes hesBufBaseIndex

def mrEvalM : K := B.mrEval (P.boundary.M.getD {}).bufIndex
def mrEvalR (rIndex : Nat) : K := B.mrEval (P.boundary.rAt rIndex).bufIndex
def mrJac (jacBufBaseIndex : Nat) : K := B.mrJac jacBufBaseIndex
def mrHes (hesBufBaseIndex : Nat) : K := B.mrHes hesBufBaseIndex

end Accessors

/-! ## Offsets and sizes of the discretised problem -/

/-- The offsets `get_sizes` computes for the current mesh. -/
structure Offsets where
  offX : Nat
  offU : Nat
  offP : Nat
  offXu : Nat
  offLastXu : Nat
  offXuTotal : Nat
  offFgTotal : Nat
  offAccXu : Nat → Nat → Nat
  offAccFg : Nat → Nat → Nat
  numberVars : Nat
  numberConstraints : Nat

section Offsets

open Loop

variable {K : Type} [Field K] {T : FLGR K} (P : Problem K) (M : Mesh T)

/-- `off_acc_xu[i][j]` with the running offset `off`, row by row. -/
def createAccOffsetXu (offX offXu : Nat) : Nat → Nat → Nat :=
  (forRange M.intervals (fun i (s : Nat × (Nat → Nat → Nat)) =>
    forRange (M.nodesAt i) (fun j s =>
      (s.1 + offXu, Function.update s.2 i (Function.update (s.2 i) j s.1))) s)
    (offX, fun _ _ => 0)).2

def createAccOffsetFg (offFg : Nat) : Nat → Nat → Nat :=
  forRange M.intervals (fun i s =>
    forRange (M.nodesAt i) (fun j s =>
      Function.update s i (Function.update (s i) j (M.accNodesAt i j * offFg))) s)
    (fun _ _ => 0)

def getSizes : Offsets :=
  let offX := P.pc.xSize
  let offU := P.pc.uSize
  let offP := P.pc.pSize
  let offXu := offX + offU
  let offAccXu := createAccOffsetXu M offX offXu
  let offLastXu := offAccXu (M.intervals - 1) (M.nodesAt (M.intervals - 1) - 1)
  let offXuTotal := offLastXu + offXu
  let offFgTotal := M.nodeCount * P.pc.fgSize
  { offX, offU, offP, offXu, offLastXu, offXuTotal, offFgTotal, offAccXu
    offAccFg := createAccOffsetFg M P.pc.fgSize
    numberVars := offXuTotal + P.pc.pSize
    numberConstraints := P.pc.rSize + offFgTotal }

theorem createAccOffsetXu_eq (offX offXu : Nat) {i j : Nat} (hi : i < M.intervals)
    (hj : j < M.nodesAt i) :
    createAccOffsetXu M offX offXu i j = offX + offXu * M.accNodesAt i j := by
  have key := forRange_inv
    (P := fun n (s : Nat × (Nat → Nat → Nat)) => s.1 = offX + offXu * M.nodesBefore n ∧
      ∀ i j, i < n → j < M.nodesAt i → s.2 i j = offX + offXu * (M.nodesBefore i + j))
    (n := M.intervals) (f := fun i (s : Nat × (Nat → Nat → Nat)) =>
      forRange (M.nodesAt i) (fun j s =>
        (s.1 + offXu, Function.update s.2 i (Function.update (s.2 i) j s.1))) s)
    (s := (offX, fun _ _ => 0)) ⟨by simp, fun i j h => by omega⟩ ?_
  · rw [M.accNodesAt_eq hi hj]
    exact key.2 i j hi hj
  · intro n hn s ⟨h1, h2⟩
    -- the row `n` is filled left to right, the rows before it stay
    have row := forRange_inv
      (P := fun m (s : Nat × (Nat → Nat → Nat)) =>
        s.1 = offX + offXu * (M.nodesBefore n + m) ∧
        (∀ j, j < m → s.2 n j = offX + offXu * (M.nodesBefore n + j)) ∧
        ∀ i j, i < n → j < M.nodesAt i → s.2 i j = offX + offXu * (M.nodesBefore i + j))
      (n := M.nodesAt n) (f := fun j (s : Nat × (Nat → Nat → Nat)) =>
        (s.1 + offXu, Function.update s.2 n (Function.update (s.2 n) j s.1)))
      (s := s) ⟨by simpa using h1, fun j h => by omega, h2⟩ ?_
    · obtain ⟨r1, r2, r3⟩ := row
      refine ⟨by rw [r1, M.nodesBefore_succ], fun i j hi hj => ?_⟩
      rcases Nat.lt_succ_iff_lt_or_eq.mp hi with hlt | rfl
      · exact r3 i j hlt hj
      · exact r2 j hj
    · intro m hm t ⟨t1, t2, t3⟩
      refine ⟨by simp only [t1]; ring, fun j hj => ?_, fun i j hi hj => ?_⟩
      · rcases Nat.lt_succ_iff_lt_or_eq.mp hj with hlt | rfl
        · simpa [Function.update_of_ne (Nat.ne_of_lt hlt)] using t2 j hlt
        · simpa using t1
      · simpa [Function.update_of_ne (Nat.ne_of_lt hi)] using t3 i j hi hj

theorem createAccOffsetFg_eq (offFg : Nat) {i j : Nat} (hi : i < M.intervals)
    (hj : j < M.nodesAt i) : createAccOffsetFg M offFg i j = M.accNodesAt i j * offFg := by
  rw [createAccOffsetFg, forRange_fill₂, if_pos ⟨hi, hj⟩]

/-! The offsets of `getSizes` in closed form: the variables are `x0`, one block `(x, u)` for each
node in the order of the running node number, and `p`; the constraints are one block `(f, g)` for
each node, and `r`. -/

section Sizes

@[simp] theorem getSizes_offX : (getSizes P M).offX = P.pc.xSize := rfl
@[simp] theorem getSizes_offU : (getSizes P M).offU = P.pc.uSize := rfl
@[simp] theorem getSizes_offP : (getSizes P M).offP = P.pc.pSize := rfl
@[simp] theorem getSizes_offXu : (getSizes P M).offXu = P.pc.xuSize := rfl

@[simp] theorem getSizes_offFgTotal :
    (getSizes P M).offFgTotal = M.nodeCount * P.pc.fgSize := rfl

@[simp] theorem getSizes_numberConstraints :
    (getSizes P M).numberConstraints = P.pc.rSize + M.nodeCount * P.pc.fgSize := rfl

theorem getSizes_offAccXu {i j : Nat} (hi : i < M.intervals) (hj : j < M.nodesAt i) :
    (getSizes P M).offAccXu i j = P.pc.xSize + P.pc.xuSize * M.accNodesAt i j :=
  createAccOffsetXu_eq M _ _ hi hj

theorem getSizes_offAccFg {i j : Nat} (hi : i < M.intervals) (hj : j < M.nodesAt i) :
    (getSizes P M).offAccFg i j = M.accNodesAt i j * P.pc.fgSize :=
  createAccOffsetFg_eq M _ hi hj

theorem getSizes_offLastXu :
    (getSizes P M).offLastXu = P.pc.xSize + P.pc.xuSize * (M.nodeCount - 1) := by
  have hI := M.intervals_pos
  have hi : M.intervals - 1 < M.intervals := by omega
  have hj : M.nodesAt (M.intervals - 1) - 1 < M.nodesAt (M.intervals - 1) := by
    have := M.nodesAt_pos hi
    omega
  have hlast : M.accNodesAt (M.intervals - 1) (M.nodesAt (M.intervals - 1) - 1) =
      M.nodeCount - 1 := (M.isLast_iff hi hj).mp (by simp [Mesh.isLast])
  rw [← hlast]
  exact getSizes_offAccXu P M hi hj

theorem getSizes_offXuTotal :
    (getSizes P M).offXuTotal = P.pc.xSize + P.pc.xuSize * M.nodeCount := by
  have h : (getSizes P M).offXuTotal = (getSizes P M).offLastXu + P.pc.xuSize := rfl
  obtain ⟨n, hn⟩ : ∃ n, M.nodeCount = n + 1 := ⟨M.nodeCount - 1, by have := M.nodeCount_pos; omega⟩
  rw [h, getSizes_offLastXu, hn, Nat.add_sub_cancel, Nat.mul_succ, Nat.add_assoc]

theorem getSizes_numberVars :
    (getSizes P M).numberVars = P.pc.xSize + P.pc.xuSize * M.nodeCount + P.pc.pSize := by
  rw [← getSizes_offXuTotal]
  rfl

/-- Every constraint is the dynamics or a path constraint at a node, or a boundary constraint. -/
theorem constraint_cases {r : Nat} (hr : r < (getSizes P M).numberConstraints) :
    (∃ i j f, i < M.intervals ∧ j < M.nodesAt i ∧ f < P.pc.fSize ∧
      r = (getSizes P M).offAccFg i j + f) ∨
    (∃ i j g, i < M.intervals ∧ j < M.nodesAt i ∧ g < P.pc.gSize ∧
      r = (getSizes P M).offAccFg i j + P.pc.fSize + g) ∨
    ∃ b, b < P.pc.rSize ∧ r = (getSizes P M).offFgTotal + b := by
  rw [getSizes_numberConstraints, Nat.mul_comm] at hr
  have hfg : P.pc.fgSize = P.pc.fSize + P.pc.gSize := rfl
  by_cases h : r < P.pc.fgSize * M.nodeCount
  · obtain ⟨i, j, y, hi, hj, hy, e⟩ := M.exists_block h
    have hacc : (getSizes P M).offAccFg i j = P.pc.fgSize * M.accNodesAt i j := by
      rw [getSizes_offAccFg P M hi hj, Nat.mul_comm]
    by_cases hf : y < P.pc.fSize
    · exact .inl ⟨i, j, y, hi, hj, hf, by omega⟩
    · exact .inr (.inl ⟨i, j, y - P.pc.fSize, hi, hj, by omega, by omega⟩)
  · refine .inr (.inr ⟨r - P.pc.fgSize * M.nodeCount, by omega, ?_⟩)
    rw [getSizes_offFgTotal, Nat.mul_comm]
    omega

end Sizes

end Offsets

end GDOP
end Moo
