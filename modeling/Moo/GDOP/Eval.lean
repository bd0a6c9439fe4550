import Moo.GDOP.Problem

/-!
# GDOP.Eval

Objective, gradient and constraints from the callback buffers: `eval_f_internal`,
`eval_grad_f_internal` and `eval_g_internal`.

The constraint vector is accumulated: per interval one differentiation block, then per node the
dynamics and the path constraints. `evalGInternal_f`, `evalGInternal_g` and `evalGInternal_r` give
each row in closed form.
-/

namespace Moo
namespace GDOP

open Loop Coo

variable {K : Type} [Field K] {T : FLGR K} (P : Problem K) (M : Mesh T) (off : Offsets)
variable (B : Buffers K)

/-- First index of the base point states of interval `i`: `x0`, or the last node before it. -/
def offPrev (i : Nat) : Nat :=
  if i = 0 then 0 else off.offAccXu (i - 1) (M.nodesAt (i - 1) - 1)

def evalFInternal : K :=
  let mayer := if P.pc.hasMayer then mrEvalM P B else 0
  let lagrange := if P.pc.hasLagrange then
      M.forNodes (fun i j lagrange =>
        lagrange + M.deltaTAt i * T.getB (M.nodesAt i) j * lfgEvalL P M B i j) 0
    else 0
  mayer + lagrange

/-- The Lagrange part assigns the state and control columns of a node (`=`), and adds onto the
parameter columns (`+=`). -/
def evalGradFInternal : Nat → K :=
  let L := P.full.L.getD {}
  let Mayer := P.boundary.M.getD {}
  let grad : Nat → K := fun _ => 0
  let grad := if P.pc.hasLagrange then
      M.forNodes (fun i j grad =>
        let c := M.deltaTAt i * T.getB (M.nodesAt i) j
        let grad := L.jac.dx.foldl (fun grad dLDx =>
          Function.update grad (off.offAccXu i j + dLDx.col)
            (c * lfgJac P M B dLDx.bufIndex i j)) grad
        let grad := L.jac.du.foldl (fun grad dLDu =>
          Function.update grad (off.offAccXu i j + off.offX + dLDu.col)
            (c * lfgJac P M B dLDu.bufIndex i j)) grad
        L.jac.dp.foldl (fun grad dLDp =>
          addAt grad (off.offXuTotal + dLDp.col, c * lfgJac P M B dLDp.bufIndex i j)) grad) grad
    else grad
  if P.pc.hasMayer then
    let grad := Mayer.jac.dx0.foldl (fun grad dMDx0 =>
      addAt grad (dMDx0.col, mrJac B dMDx0.bufIndex)) grad
    let grad := Mayer.jac.dxf.foldl (fun grad dMDxf =>
      addAt grad (off.offLastXu + dMDxf.col, mrJac B dMDxf.bufIndex)) grad
    let grad := Mayer.jac.duf.foldl (fun grad dMDuf =>
      addAt grad (off.offLastXu + off.offX + dMDuf.col, mrJac B dMDuf.bufIndex)) grad
    Mayer.jac.dp.foldl (fun grad dMDp =>
      addAt grad (off.offXuTotal + dMDp.col, mrJac B dMDp.bufIndex)) grad
  else grad

/-- One pass of the loop over the intervals. -/
def evalGInterval (x : Nat → K) (i : Nat) (g : Nat → K) : Nat → K :=
  let g := T.diffMatrixMultiplyBlockStrided (M.nodesAt i) off.offX off.offXu P.pc.fgSize
    (fun k => x (offPrev M off i + k)) (fun k => x (off.offAccXu i 0 + k)) (off.offAccFg i 0) g
  forRange (M.nodesAt i) (fun j g =>
    let g := forRange P.pc.fSize (fun fIndex g =>
      addAt g (off.offAccFg i j + fIndex, -(M.deltaTAt i * lfgEvalF P M B fIndex i j))) g
    forRange P.pc.gSize (fun gIndex g =>
      addAt g (off.offAccFg i j + P.pc.fSize + gIndex, lfgEvalG P M B gIndex i j)) g) g

def evalGInternal (x : Nat → K) : Nat → K :=
  let g := forRange M.intervals (evalGInterval P M off B x) (fun _ => 0)
  forRange P.pc.rSize (fun rIndex g =>
    Function.update g (off.offFgTotal + rIndex) (mrEvalR P B rIndex)) g

/-! ## The constraint vector in closed form -/

section ClosedForm

variable (x : Nat → K)

def nodeGOps (i j : Nat) : List (Nat × K) :=
  (List.range P.pc.fSize).map (fun fIndex =>
    (off.offAccFg i j + fIndex, -(M.deltaTAt i * lfgEvalF P M B fIndex i j))) ++
  (List.range P.pc.gSize).map fun gIndex =>
    (off.offAccFg i j + P.pc.fSize + gIndex, lfgEvalG P M B gIndex i j)

def intervalGOps (i : Nat) : List (Nat × K) :=
  T.blockOps (M.nodesAt i) off.offX off.offXu P.pc.fgSize (fun k => x (offPrev M off i + k))
    (fun k => x (off.offAccXu i 0 + k)) (off.offAccFg i 0) ++
  (List.range (M.nodesAt i)).flatMap (nodeGOps P M off B i)

theorem evalGInterval_eq (i : Nat) (g : Nat → K) :
    evalGInterval P M off B x i g = accum (intervalGOps P M off B x i) g := by
  rw [intervalGOps, accum_append, ← T.diffMatrixMultiplyBlockStrided_eq]
  refine forRange_foldl (fun j _ t => ?_) _
  rw [nodeGOps, List.foldl_append, ← forRange_step, ← forRange_step]

theorem nodeGOps_key {i j : Nat} {e : Nat × K} (he : e ∈ nodeGOps P M off B i j) :
    off.offAccFg i j ≤ e.1 ∧ e.1 < off.offAccFg i j + P.pc.fgSize := by
  have hfg : P.pc.fgSize = P.pc.fSize + P.pc.gSize := rfl
  rcases List.mem_append.mp he with he | he <;>
  · obtain ⟨y, hy, rfl⟩ := List.mem_map.mp he
    have := List.mem_range.mp hy
    dsimp only
    omega

theorem nodeGOps_sum {i j y : Nat} (hy : y < P.pc.fgSize) :
    ((nodeGOps P M off B i j).map fun e =>
        if e.1 = off.offAccFg i j + y then e.2 else 0).sum =
      if y < P.pc.fSize then -(M.deltaTAt i * lfgEvalF P M B y i j)
      else lfgEvalG P M B (y - P.pc.fSize) i j := by
  have hfg : P.pc.fgSize = P.pc.fSize + P.pc.gSize := rfl
  rw [nodeGOps, List.map_append, List.sum_append, sum_range_key]
  split
  · rename_i h
    rw [Segment.sum_eq_zero_of_key (w := Prod.fst) _ Prod.snd, add_zero]
    intro e he
    obtain ⟨g, _, rfl⟩ := List.mem_map.mp he
    dsimp only
    omega
  · rename_i h
    have e : off.offAccFg i j + y = off.offAccFg i j + P.pc.fSize + (y - P.pc.fSize) := by omega
    rw [e, sum_range_key, if_pos (by omega), zero_add]

variable {i j : Nat}

/-- The rows of interval `i` are those from `nodesBefore i * fgSize` on. -/
theorem offAccFg_row (hi : i < M.intervals) (hj : j < M.nodesAt i) :
    (getSizes P M).offAccFg i j = M.nodesBefore i * P.pc.fgSize + j * P.pc.fgSize := by
  rw [getSizes_offAccFg P M hi hj, M.accNodesAt_eq hi hj, Nat.add_mul]

theorem intervalGOps_key (hi : i < M.intervals) {e : Nat × K}
    (he : e ∈ intervalGOps P M (getSizes P M) B x i) :
    M.nodesBefore i * P.pc.fgSize ≤ e.1 ∧ e.1 < M.nodesBefore (i + 1) * P.pc.fgSize := by
  have hfg : P.pc.fgSize = P.pc.xSize + P.pc.gSize := rfl
  rw [M.nodesBefore_succ, Nat.add_mul]
  rcases List.mem_append.mp he with he | he
  · obtain ⟨row, xIndex, hr, hx, h⟩ := T.blockOps_key he
    have h0 := offAccFg_row P M hi (M.nodesAt_pos hi)
    have hm := mul_succ_le (c := P.pc.fgSize) hr
    rw [getSizes_offX] at hx
    omega
  · obtain ⟨j, hj, he⟩ := List.mem_flatMap.mp he
    have hj := List.mem_range.mp hj
    have hk := nodeGOps_key P M (getSizes P M) B he
    have h0 := offAccFg_row P M hi hj
    have hm := mul_succ_le (c := P.pc.fgSize) hj
    omega

/-- What all the passes leave in row `y` of node `(i, j)`. -/
theorem accum_intervals_row (hi : i < M.intervals) (hj : j < M.nodesAt i) {y : Nat}
    (hy : y < P.pc.fgSize) :
    forRange M.intervals (evalGInterval P M (getSizes P M) B x) (fun _ => 0)
        ((getSizes P M).offAccFg i j + y) =
      (if y < P.pc.fSize then
        T.getD (M.nodesAt i) (j + 1) 0 * x (offPrev M (getSizes P M) i + y) +
          ∑ k ∈ Finset.range (M.nodesAt i), T.getD (M.nodesAt i) (j + 1) (k + 1) *
            x ((getSizes P M).offAccXu i k + y) else 0) +
      if y < P.pc.fSize then -(M.deltaTAt i * lfgEvalF P M B y i j)
      else lfgEvalG P M B (y - P.pc.fSize) i j := by
  have hrow := offAccFg_row P M hi hj
  have hm := mul_succ_le (c := P.pc.fgSize) hj
  rw [forRange_foldl (r := addAt) (fun i _ t => evalGInterval_eq P M (getSizes P M) B x i t),
    ← accum, accum_apply, zero_add, Segment.sum_segment
    (b := fun i => M.nodesBefore i * P.pc.fgSize) (w := Prod.fst) Prod.snd
    (fun i _ => Nat.mul_le_mul_right _ (M.nodesBefore_mono (Nat.le_succ i)))
    (fun i hi e he => intervalGOps_key P M B x hi he) hi
    ⟨by omega, by rw [M.nodesBefore_succ, Nat.add_mul]; omega⟩]
  rw [intervalGOps, List.map_append, List.sum_append, Segment.sum_segment
    (b := fun j => M.nodesBefore i * P.pc.fgSize + j * P.pc.fgSize) (w := Prod.fst) Prod.snd
    (fun j _ => by rw [Nat.succ_mul]; omega) ?_ hj ⟨by omega, by rw [Nat.succ_mul]; omega⟩,
    nodeGOps_sum P M (getSizes P M) B hy]
  · congr 1
    have h0 := offAccFg_row P M hi (M.nodesAt_pos hi)
    have e : (getSizes P M).offAccFg i j + y =
        (getSizes P M).offAccFg i 0 + (j * P.pc.fgSize + y) := by omega
    rw [e, T.blockOps_sum _ _ _ (by simp [ProblemConstants.fgSize, ProblemConstants.fSize]) hj hy]
    have hx : ∀ k ∈ Finset.range (M.nodesAt i), (getSizes P M).offAccXu i 0 +
        (k * (getSizes P M).offXu + y) = (getSizes P M).offAccXu i k + y := by
      intro k hk
      rw [getSizes_offAccXu P M hi (Finset.mem_range.mp hk),
        getSizes_offAccXu P M hi (M.nodesAt_pos hi), M.accNodesAt_eq hi (Finset.mem_range.mp hk),
        M.accNodesAt_eq hi (M.nodesAt_pos hi), getSizes_offXu]
      ring
    rw [Finset.sum_congr rfl fun k hk => by rw [hx k hk]]
    rfl
  · intro j hj e he
    have hk := nodeGOps_key P M (getSizes P M) B he
    have h0 := offAccFg_row P M hi hj
    rw [Nat.succ_mul]
    omega

theorem evalGInternal_node (hi : i < M.intervals) (hj : j < M.nodesAt i) {y : Nat}
    (hy : y < P.pc.fgSize) : evalGInternal P M (getSizes P M) B x
        ((getSizes P M).offAccFg i j + y) =
      forRange M.intervals (evalGInterval P M (getSizes P M) B x) (fun _ => 0)
        ((getSizes P M).offAccFg i j + y) := by
  have h := mul_succ_le (c := P.pc.fgSize) (M.accNodesAt_lt hi hj)
  rw [evalGInternal, forRange_fillFrom, if_neg]
  rw [getSizes_offAccFg P M hi hj, getSizes_offFgTotal]
  omega

/-- Dynamics at node `(i, j)`: the differentiation matrix on the base point and the nodes of the
interval, minus the right-hand side. -/
theorem evalGInternal_f (hi : i < M.intervals) (hj : j < M.nodesAt i) {f : Nat}
    (hf : f < P.pc.fSize) :
    evalGInternal P M (getSizes P M) B x ((getSizes P M).offAccFg i j + f) =
      T.getD (M.nodesAt i) (j + 1) 0 * x (offPrev M (getSizes P M) i + f) +
        ∑ k ∈ Finset.range (M.nodesAt i), T.getD (M.nodesAt i) (j + 1) (k + 1) *
          x ((getSizes P M).offAccXu i k + f) -
        M.deltaTAt i * lfgEvalF P M B f i j := by
  have hy : f < P.pc.fgSize := Nat.lt_add_right _ hf
  rw [evalGInternal_node P M B x hi hj hy, accum_intervals_row P M B x hi hj hy, if_pos hf,
    if_pos hf, sub_eq_add_neg]

theorem evalGInternal_g (hi : i < M.intervals) (hj : j < M.nodesAt i) {g : Nat}
    (hg : g < P.pc.gSize) :
    evalGInternal P M (getSizes P M) B x
      ((getSizes P M).offAccFg i j + P.pc.fSize + g) = lfgEvalG P M B g i j := by
  have hy : P.pc.fSize + g < P.pc.fgSize := Nat.add_lt_add_left hg _
  rw [Nat.add_assoc, evalGInternal_node P M B x hi hj hy, accum_intervals_row P M B x hi hj hy,
    if_neg (by omega), if_neg (by omega), zero_add, Nat.add_sub_cancel_left]

theorem evalGInternal_r {r : Nat} (hr : r < P.pc.rSize) :
    evalGInternal P M (getSizes P M) B x ((getSizes P M).offFgTotal + r) = mrEvalR P B r := by
  rw [evalGInternal, forRange_fillFrom, if_pos (by omega), Nat.add_sub_cancel_left]

end ClosedForm

end GDOP
end Moo
