import Moo.GDOP.Gradient
import Moo.GDOP.HessianValues

/-!
# GDOP.Lagrangian

The Lagrangian of the program: its gradient and its Hessian.

* `transposed_sum`: the transposed Jacobian times the multipliers, node by node.
* `hesMatrix`: the matrix of the coordinates and the values of the Hessian; `hesMatrix_eq`: the
  entries of the layout, each at the pair of variables it stands for.
* `factors_eq`, `transformedLambda_f`: what the Hessian callbacks are handed.
* `hessian_hasFDerivAt`: the derivative of the gradient of the Lagrangian is the symmetric matrix of
  which the evaluation returns the lower triangle.
-/

namespace Moo
namespace GDOP

open Loop Coo Segment

/-! ## The transposed matrix -/

section Transposed

variable {K : Type} [Field K] {T : FLGR K} (P : Problem K) (M : Mesh T) (B : Buffers K)

/-- Rows weighted by a vector: every slot is met in its own row. -/
theorem sum_rows {β : Type} (l : List β) (w : β → Nat) (F : β → K) (φ : Nat → K) {n : Nat}
    (h : ∀ s ∈ l, w s < n) : ∑ r ∈ Finset.range n, φ r *
      (l.map fun s => if w s = r then F s else 0).sum = (l.map fun s => φ (w s) * F s).sum := by
  induction l with
  | nil => simp
  | cons s l ih =>
    have hs := Finset.mem_range.mpr (h s List.mem_cons_self)
    simp only [List.map_cons, List.sum_cons, mul_add, Finset.sum_add_distrib]
    rw [ih fun s hs => h s (List.mem_cons_of_mem _ hs), Finset.sum_eq_single_of_mem _ hs]
    · rw [if_pos rfl]
    · intro r _ hne
      rw [if_neg hne.symm, mul_zero]

theorem sum_row {l : List (Slot K)} {r : Nat} (hr : ∀ s ∈ l, s.row = r) (φ : Nat → K)
    (F : Slot K → K) : (l.map fun s => φ s.row * F s).sum = φ r * (l.map F).sum := by
  rw [← List.sum_map_mul_left]
  exact congrArg List.sum (List.map_congr_left fun s hs => by rw [hr s hs])

theorem transposed_sum (hP : JacobianLayoutOk P) (rows cols : Nat → Nat) (lambda : Nat → K)
    (c : Nat) : ∑ r ∈ Finset.range (getSizes P M).numberConstraints,
        lambda r * jacMatrix P M B rows cols r c =
      ∑ i ∈ Finset.range M.intervals, ∑ j ∈ Finset.range (M.nodesAt i),
        (∑ f ∈ Finset.range P.pc.fSize, lambda ((getSizes P M).offAccFg i j + f) *
            (collRow T M (getSizes P M) i j f (unit c) - M.deltaTAt i *
              lfgRow P M (getSizes P M) B (P.full.fAt f).jac i j (unit c)) +
          ∑ g ∈ Finset.range P.pc.gSize, lambda ((getSizes P M).offAccFg i j + P.pc.fSize + g) *
            lfgRow P M (getSizes P M) B (P.full.gAt g).jac i j (unit c)) +
      ∑ r ∈ Finset.range P.pc.rSize, lambda ((getSizes P M).offFgTotal + r) *
        mrRow (getSizes P M) B (P.boundary.rAt r).jac (unit c) := by
  have hrow : ∀ s ∈ jacSlots P M (getSizes P M) B, s.row < (getSizes P M).numberConstraints :=
    fun s hs => ((jacSlots_seg P M B hP).bounds _ (List.mem_map_of_mem hs)).2
  simp only [jacMatrix_eq P M B hP.walks]
  rw [sum_rows _ Slot.row _ _ hrow, jacSlots, List.map_append, List.sum_append, sum_map_flatMap,
    sum_map_range]
  congr 1
  · refine Finset.sum_congr rfl fun i hi => ?_
    rw [intervalSlots, sum_map_flatMap, sum_map_range]
    refine Finset.sum_congr rfl fun j hj => ?_
    rw [nodeSlots, List.map_append, List.sum_append, sum_map_flatMap, sum_map_range,
      sum_map_flatMap, sum_map_range]
    refine congrArg₂ (· + ·) (Finset.sum_congr rfl fun f hf => ?_)
      (Finset.sum_congr rfl fun g _ => ?_)
    · rw [sum_row (fun s hs => rowF_row P M B hs),
        rowF_sum P M B hP.walks (Finset.mem_range.mp hj) (Finset.mem_range.mp hf)]
    · rw [sum_row (fun s hs => rowG_row P M B hs), rowG_sum]
  · rw [boundarySlots, sum_map_flatMap, sum_map_range]
    refine Finset.sum_congr rfl fun r _ => ?_
    rw [sum_row (fun s hs => rowR_row P B hs), rowR_sum]

end Transposed

/-! ## The Hessian as a matrix -/

section HesMatrix

variable {K : Type} [Field K] {T : FLGR K} (P : Problem K) (M : Mesh T) (B : Buffers K)

/-- The entries of one list of the layout, at the columns they stand for. -/
def hesPart (rowBase colBase : Nat) (value : Nat → K) (l : List HessianSparsity) (r c : Nat) : K :=
  (l.map fun e => if (rowBase + e.row, colBase + e.col) = (r, c) then value e.bufIndex else 0).sum

/-- The callback Hessian of node `(i, j)`, but for the parameters among themselves. -/
def nodeHes (i j r c : Nat) : K :=
  let off := getSizes P M
  let base := off.offAccXu i j
  let value := fun k => lfgHes P M B k i j
  hesPart base base value P.full.hes.dxDx r c +
  hesPart (base + off.offX) base value P.full.hes.duDx r c +
  hesPart (base + off.offX) (base + off.offX) value P.full.hes.duDu r c +
  hesPart off.offXuTotal base value P.full.hes.dpDx r c +
  hesPart off.offXuTotal (base + off.offX) value P.full.hes.dpDu r c

/-- The parameters among themselves, in the full sweep. -/
def parameterHes (r c : Nat) : K :=
  let off := getSizes P M
  hesPart off.offXuTotal off.offXuTotal (lfgPpHes B) P.full.ppHes.dpDp r c

def boundaryHes (r c : Nat) : K :=
  let off := getSizes P M
  let hes := P.boundary.hes
  let last := off.offLastXu
  hesPart 0 0 (mrHes B) hes.dx0Dx0 r c +
  hesPart last 0 (mrHes B) hes.dxfDx0 r c +
  hesPart last last (mrHes B) hes.dxfDxf r c +
  hesPart (last + off.offX) 0 (mrHes B) hes.dufDx0 r c +
  hesPart (last + off.offX) last (mrHes B) hes.dufDxf r c +
  hesPart (last + off.offX) (last + off.offX) (mrHes B) hes.dufDuf r c +
  hesPart off.offXuTotal 0 (mrHes B) hes.dpDx0 r c +
  hesPart off.offXuTotal last (mrHes B) hes.dpDxf r c +
  hesPart off.offXuTotal (last + off.offX) (mrHes B) hes.dpDuf r c +
  hesPart off.offXuTotal off.offXuTotal (mrHes B) hes.dpDp r c

variable (past : Nat → Nat × Nat) (iRow jCol : Nat → Nat)

/-- The matrix of the coordinates and the values. -/
def hesMatrix (hes : Nat → K) : Nat → Nat → K :=
  coo (initHessianNonzeros P M P.pc.xSize)
    (fun k => ((getHesSparsity P M (getSizes P M) past iRow jCol).coord k).1)
    (fun k => ((getHesSparsity P M (getSizes P M) past iRow jCol).coord k).2) hes

/-- Row and column of an entry. -/
def Addr.index (a : Addr) : Nat × Nat := ((a.vars M).1.index P M, (a.vars M).2.index P M)

/-- Additions by the coordinates of their slots. -/
theorem coo_accum (n : Nat) (coord : Nat → Nat × Nat) (ops : List (Nat × K))
    (h : ∀ op ∈ ops, op.1 < n) (r c : Nat) :
    coo n (fun k => (coord k).1) (fun k => (coord k).2) (accum ops fun _ => 0) r c =
      (ops.map fun op => if coord op.1 = (r, c) then op.2 else 0).sum := by
  have key : ∀ k, (if (coord k).1 = r ∧ (coord k).2 = c then accum ops (fun _ => 0) k else 0) =
      (if coord k = (r, c) then 1 else 0) *
        (ops.map fun op => if op.1 = k then op.2 else 0).sum := by
    intro k
    rw [accum_apply, zero_add, ite_mul, one_mul, zero_mul]
    exact if_congr (by rw [Prod.ext_iff]) rfl rfl
  rw [coo, Finset.sum_congr rfl fun k _ => key k,
    sum_rows ops Prod.fst Prod.snd (fun k => if coord k = (r, c) then 1 else 0) h]
  refine congrArg List.sum (List.map_congr_left fun op _ => ?_)
  rw [ite_mul, one_mul, zero_mul]

variable {P M}

theorem entryOps_index {X : HesBlock} {node rowOff colOff rowBase colBase : Nat}
    {value : Nat → K} {l : List HessianSparsity} (h : ∀ e ∈ l,
      Addr.index P M ⟨X, rowOff + e.row, colOff + e.col, node⟩ =
        (rowBase + e.row, colBase + e.col)) (r c : Nat) :
    ((entryOps X node rowOff colOff value l).map fun op =>
      if Addr.index P M op.1 = (r, c) then op.2 else 0).sum =
      hesPart rowBase colBase value l r c := by
  rw [entryOps, List.map_map, hesPart]
  refine congrArg List.sum (List.map_congr_left fun e he => ?_)
  simp only [Function.comp_apply, h e he]

theorem nodeHesOps_index {i j : Nat} (hi : i < M.intervals) (hj : j < M.nodesAt i) (r c : Nat) :
    ((nodeHesOps P M B i j).map fun op =>
      if Addr.index P M op.1 = (r, c) then op.2 else 0).sum = nodeHes P M B i j r c := by
  have hbase : nodeStart (getSizes P M) (M.accNodesAt i j) = (getSizes P M).offAccXu i j := by
    rw [getSizes_offAccXu P M hi hj]
    rfl
  -- the blocks of the last node stand for the last node
  have hx : ∀ X, X = (nodeBlocks M i j).1 → ∀ row col,
      Addr.index P M ⟨X, row, col, if M.isLast i j then 0 else M.accNodesAt i j⟩ =
        ((getSizes P M).offAccXu i j + row, (getSizes P M).offAccXu i j + col) := by
    rintro X rfl row col
    unfold nodeBlocks
    cases hl : M.isLast i j with
    | true => simp [Addr.index, Addr.vars, Var.index, ← (M.isLast_iff hi hj).mp hl, hbase]
    | false => simp [Addr.index, Addr.vars, Var.index, hbase]
  have hp : ∀ X, X = (nodeBlocks M i j).2 → ∀ row col,
      Addr.index P M ⟨X, row, col, if M.isLast i j then 0 else M.accNodesAt i j⟩ =
        ((getSizes P M).offXuTotal + row, (getSizes P M).offAccXu i j + col) := by
    rintro X rfl row col
    unfold nodeBlocks
    cases hl : M.isLast i j with
    | true => simp [Addr.index, Addr.vars, Var.index, ← (M.isLast_iff hi hj).mp hl, hbase]
    | false => simp [Addr.index, Addr.vars, Var.index, hbase]
  simp only [nodeHesOps, List.map_append, List.sum_append, nodeHes, getSizes_offX]
  refine congrArg₂ (· + ·) (congrArg₂ (· + ·) (congrArg₂ (· + ·) (congrArg₂ (· + ·)
    ?_ ?_) ?_) ?_) ?_
  · exact entryOps_index (fun e _ => by rw [hx _ rfl, Nat.zero_add, Nat.zero_add]) r c
  · exact entryOps_index (fun e _ => by rw [hx _ rfl, Nat.zero_add, Nat.add_assoc]) r c
  · exact entryOps_index (fun e _ => by rw [hx _ rfl, Nat.add_assoc, Nat.add_assoc]) r c
  · exact entryOps_index (fun e _ => by rw [hp _ rfl, Nat.zero_add, Nat.zero_add]) r c
  · exact entryOps_index (fun e _ => by rw [hp _ rfl, Nat.zero_add, Nat.add_assoc]) r c

theorem boundaryHesOps_index (r c : Nat) :
    ((boundaryHesOps P B).map fun op =>
      if Addr.index P M op.1 = (r, c) then op.2 else 0).sum =
      parameterHes P M B r c + boundaryHes P M B r c := by
  have hl : nodeStart (getSizes P M) (M.nodeCount - 1) = (getSizes P M).offLastXu :=
    (getSizes_offLastXu P M).symm
  simp only [boundaryHesOps, List.map_append, List.sum_append, parameterHes, boundaryHes,
    getSizes_offX, ← add_assoc]
  refine congrArg₂ (· + ·) (congrArg₂ (· + ·) (congrArg₂ (· + ·) (congrArg₂ (· + ·)
    (congrArg₂ (· + ·) (congrArg₂ (· + ·) (congrArg₂ (· + ·) (congrArg₂ (· + ·) (congrArg₂ (· + ·)
    (congrArg₂ (· + ·) ?_ ?_) ?_) ?_) ?_) ?_) ?_) ?_) ?_) ?_) ?_ <;>
    refine entryOps_index (fun e _ => ?_) r c <;>
    simp [Addr.index, Addr.vars, Var.index, hl, Nat.add_assoc]

theorem hesOps_index (r c : Nat) :
    ((hesOps P M B).map fun op => if Addr.index P M op.1 = (r, c) then op.2 else 0).sum =
      ∑ i ∈ Finset.range M.intervals, ∑ j ∈ Finset.range (M.nodesAt i), nodeHes P M B i j r c +
        (parameterHes P M B r c + boundaryHes P M B r c) := by
  rw [hesOps, List.map_append, List.sum_append, boundaryHesOps_index, Mesh.nodeOps,
    sum_map_flatMap, sum_map_range]
  refine congrArg (· + _) (Finset.sum_congr rfl fun i hi => ?_)
  rw [sum_map_flatMap, sum_map_range]
  exact Finset.sum_congr rfl fun j hj =>
    nodeHesOps_index B (Finset.mem_range.mp hi) (Finset.mem_range.mp hj) r c

/-- Where the coordinates are right, the matrix is the sum of the callback Hessians. -/
theorem hesMatrix_eq (hP : HessianLayoutOk P) (hH : ∀ e ∈ hesFlat P P.pc.xSize .H,
      flatAt (hesFlat P P.pc.xSize .G) past ((hesFlat P P.pc.xSize .H).idxOf e) = e)
    {hes : Nat → K} (he : evalHesInternal P M (getSizes P M) B
      (getHesSparsity P M (getSizes P M) past iRow jCol) = some hes) (r c : Nat) :
    hesMatrix P M past iRow jCol hes r c =
      ∑ i ∈ Finset.range M.intervals, ∑ j ∈ Finset.range (M.nodesAt i), nodeHes P M B i j r c +
        (parameterHes P M B r c + boundaryHes P M B r c) := by
  rw [evalHesInternal_eq P M B _ (getHesSparsity_laid P M past iRow jCol hP).type] at he
  obtain rfl := (Option.some.inj he).symm
  have hvalid := hesOps_valid P M B
  rw [hesMatrix, coo_accum _ _ _ ?_, slotOps, List.map_map, ← hesOps_index]
  · refine congrArg List.sum (List.map_congr_left fun op hop => ?_)
    simp only [Function.comp_apply]
    rw [slot_coord hP past iRow jCol (hvalid op hop), hesWritten_vars past (hvalid op hop) hH]
    rfl
  · intro op hop
    obtain ⟨op', hop', rfl⟩ := List.mem_map.mp hop
    exact slot_lt hP past iRow jCol (hvalid op' hop')

end HesMatrix

/-! ## What the Hessian callbacks are handed -/

section Weights

variable {K : Type} [Field K] {T : FLGR K} (P : Problem K) (M : Mesh T)

theorem factors_eq (sigma : K) (factors : Nat → Nat → K) {i j : Nat} (hi : i < M.intervals)
    (hj : j < M.nodesAt i) (hL : P.pc.hasLagrange = true) :
    updateLagrangeObjFactors P M sigma factors i j = sigma * nodeWeight M i j := by
  rw [updateLagrangeObjFactors, if_pos hL, forRange_fill₂, if_pos ⟨hi, hj⟩, nodeWeight]
  ring

section Lambda

variable (lambda : Nat → K)

theorem transformedLambda_blocks :
    (∀ k, P.pc.fgSize * M.nodeCount ≤ k →
      updateTransformedLambda P M (getSizes P M) lambda k = lambda k) ∧
    ∀ i j y, i < M.intervals → j < M.nodesAt i → y < P.pc.fgSize →
      updateTransformedLambda P M (getSizes P M) lambda ((getSizes P M).offAccFg i j + y) =
        if y < P.pc.fSize then lambda ((getSizes P M).offAccFg i j + y) * -M.deltaTAt i
        else lambda ((getSizes P M).offAccFg i j + y) := by
  have hoff : ∀ i j, i < M.intervals → j < M.nodesAt i →
      (getSizes P M).offAccFg i j = 0 + P.pc.fgSize * M.accNodesAt i j := by
    intro i j hi hj
    rw [getSizes_offAccFg P M hi hj, Nat.zero_add, Nat.mul_comm]
  obtain ⟨h1, h2⟩ := forNodes_modify M hoff (Nat.le_add_right P.pc.fSize P.pc.gSize)
    (fun i _ z => z * -M.deltaTAt i) lambda
  exact ⟨fun k hk => h1 k (.inr (by rwa [Nat.zero_add])), h2⟩

variable {i j : Nat} (hi : i < M.intervals) (hj : j < M.nodesAt i)

include hi hj

theorem transformedLambda_f {f : Nat} (hf : f < P.pc.fSize) :
    updateTransformedLambda P M (getSizes P M) lambda ((getSizes P M).offAccFg i j + f) =
      lambda ((getSizes P M).offAccFg i j + f) * -M.deltaTAt i := by
  rw [(transformedLambda_blocks P M lambda).2 i j f hi hj (Nat.lt_add_right _ hf), if_pos hf]

theorem transformedLambda_g {g : Nat} (hg : g < P.pc.gSize) :
    updateTransformedLambda P M (getSizes P M) lambda
      ((getSizes P M).offAccFg i j + P.pc.fSize + g) =
      lambda ((getSizes P M).offAccFg i j + P.pc.fSize + g) := by
  rw [Nat.add_assoc, (transformedLambda_blocks P M lambda).2 i j _ hi hj
    (Nat.add_lt_add_left hg _), if_neg (by omega)]

omit hi hj in
theorem transformedLambda_r (r : Nat) :
    updateTransformedLambda P M (getSizes P M) lambda ((getSizes P M).offFgTotal + r) =
      lambda ((getSizes P M).offFgTotal + r) := by
  refine (transformedLambda_blocks P M lambda).1 _ ?_
  rw [getSizes_offFgTotal, Nat.mul_comm]
  exact Nat.le_add_right _ _

end Lambda

/-! ## The gradient -/

variable (B : Buffers K) (sigma : K) (lambda : Nat → K)

/-- An entry of `σ ∇f + Jᵀ λ`, with the gradient and the matrix of the evaluations. -/
def lagrangianEntry (rows cols : Nat → Nat) (c : Nat) : K :=
  sigma * evalGradFInternal P M (getSizes P M) B c +
    ∑ r ∈ Finset.range (getSizes P M).numberConstraints,
      lambda r * jacMatrix P M B rows cols r c

/-- The functions of a node, weighted as the callbacks are told. -/
def nodeRow (i j : Nat) (φ : Nat → K) : K :=
  let off := getSizes P M
  let factors := updateLagrangeObjFactors P M sigma fun _ _ => 0
  let lambda := updateTransformedLambda P M off lambda
  (if P.pc.hasLagrange then factors i j * lfgRow P M off B (lagrangeJac P) i j φ else 0) +
    ∑ f ∈ Finset.range P.pc.fSize,
      lambda (off.offAccFg i j + f) * lfgRow P M off B (P.full.fAt f).jac i j φ +
    ∑ g ∈ Finset.range P.pc.gSize,
      lambda (off.offAccFg i j + P.pc.fSize + g) * lfgRow P M off B (P.full.gAt g).jac i j φ

def boundaryRow (φ : Nat → K) : K :=
  let off := getSizes P M
  let lambda := updateTransformedLambda P M off lambda
  (if P.pc.hasMayer then sigma * mrRow off B (mayerJac P) φ else 0) +
    ∑ r ∈ Finset.range P.pc.rSize,
      lambda (off.offFgTotal + r) * mrRow off B (P.boundary.rAt r).jac φ

/-- The collocation part does not depend on the point. -/
def collocationPart (φ : Nat → K) : K :=
  ∑ i ∈ Finset.range M.intervals, ∑ j ∈ Finset.range (M.nodesAt i),
    ∑ f ∈ Finset.range P.pc.fSize, lambda ((getSizes P M).offAccFg i j + f) *
      collRow T M (getSizes P M) i j f φ

theorem lagrangianEntry_eq (hP : JacobianLayoutOk P) (hL : JacobianLFGOk P.pc (lagrangeJac P))
    (rows cols : Nat → Nat) (c : Nat) : lagrangianEntry P M B sigma lambda rows cols c =
      collocationPart P M lambda (unit c) +
        ∑ i ∈ Finset.range M.intervals, ∑ j ∈ Finset.range (M.nodesAt i),
          nodeRow P M B sigma lambda i j (unit c) +
        boundaryRow P M B sigma lambda (unit c) := by
  have node : ∀ i ∈ Finset.range M.intervals, ∀ j ∈ Finset.range (M.nodesAt i),
      nodeRow P M B sigma lambda i j (unit c) =
        sigma * (if P.pc.hasLagrange then
          nodeWeight M i j * lfgRow P M (getSizes P M) B (lagrangeJac P) i j (unit c) else 0) +
        (∑ f ∈ Finset.range P.pc.fSize, lambda ((getSizes P M).offAccFg i j + f) *
            (-M.deltaTAt i * lfgRow P M (getSizes P M) B (P.full.fAt f).jac i j (unit c)) +
          ∑ g ∈ Finset.range P.pc.gSize, lambda ((getSizes P M).offAccFg i j + P.pc.fSize + g) *
            lfgRow P M (getSizes P M) B (P.full.gAt g).jac i j (unit c)) := by
    intro i hi j hj
    have hi := Finset.mem_range.mp hi
    have hj := Finset.mem_range.mp hj
    rw [nodeRow, add_assoc]
    refine congrArg₂ (· + ·) ?_ (congrArg₂ (· + ·) (Finset.sum_congr rfl fun f hf => ?_)
      (Finset.sum_congr rfl fun g hg => ?_))
    · split
      · rename_i h
        rw [factors_eq P M sigma _ hi hj h]
        ring
      · rw [mul_zero]
    · rw [transformedLambda_f P M lambda hi hj (Finset.mem_range.mp hf)]
      ring
    · rw [transformedLambda_g P M lambda hi hj (Finset.mem_range.mp hg)]
  have lagrange : (if P.pc.hasLagrange then
        ∑ i ∈ Finset.range M.intervals, ∑ j ∈ Finset.range (M.nodesAt i),
          nodeWeight M i j * lfgRow P M (getSizes P M) B (lagrangeJac P) i j (unit c) else 0) =
      ∑ i ∈ Finset.range M.intervals, ∑ j ∈ Finset.range (M.nodesAt i),
        if P.pc.hasLagrange then
          nodeWeight M i j * lfgRow P M (getSizes P M) B (lagrangeJac P) i j (unit c) else 0 := by
    split <;> simp
  rw [Finset.sum_congr rfl fun i hi => Finset.sum_congr rfl (node i hi), lagrangianEntry,
    evalGradFInternal_eq P M B hL, gradRow, lagrange, transposed_sum P M B hP, collocationPart,
    boundaryRow]
  simp only [transformedLambda_r, mul_add, mul_sub, Finset.sum_add_distrib, Finset.sum_sub_distrib,
    Finset.mul_sum, neg_mul, mul_neg, Finset.sum_neg_distrib, mul_ite, mul_zero]
  ring

end Weights

/-! ## The Hessian -/

section Hessian

open RowForm

/-- A symmetric matrix from its lower triangle. -/
def symmetric {K : Type} (H : Nat → Nat → K) (r c : Nat) : K := if c ≤ r then H r c else H c r

theorem symmetric_of_le {K : Type} (H : Nat → Nat → K) {r c : Nat} (h : c ≤ r) :
    symmetric H c r = H r c := by
  unfold symmetric
  split
  · rename_i h'
    rw [Nat.le_antisymm h h']
  · rfl

variable {T : FLGR ℝ} (P : Problem ℝ) (M : Mesh T)

/-- The buffers `B` hold the second derivatives, at `x`, of the functions of the callbacks with the
factors and multipliers that the callbacks are handed: `Bx` are their first derivatives as functions
of the variables. Of the parameters among themselves only the sum over the nodes is kept. -/
structure HessianCallbacks (sigma : ℝ) (lambda : Nat → ℝ)
    (Bx : (Fin (getSizes P M).numberVars → ℝ) → Buffers ℝ) (B : Buffers ℝ)
    (x : Fin (getSizes P M).numberVars → ℝ) : Prop where
  full : ∃ pp : Nat → Nat → Nat → Nat → ℝ,
    (∀ r c, ∑ i ∈ Finset.range M.intervals, ∑ j ∈ Finset.range (M.nodesAt i), pp i j r c =
      parameterHes P M B r c) ∧
    ∀ i j, i < M.intervals → j < M.nodesAt i → ∀ c, c < (getSizes P M).numberVars →
      HasFDerivAt (fun x => nodeRow P M (Bx x) sigma lambda i j (unit c))
        (form _ (symmetric (fun r c => nodeHes P M B i j r c + pp i j r c) c)) x
  boundary : ∀ c, c < (getSizes P M).numberVars →
    HasFDerivAt (fun x => boundaryRow P M (Bx x) sigma lambda (unit c))
      (form _ (symmetric (boundaryHes P M B) c)) x

variable {P M}

/-- The derivative of the gradient of the Lagrangian: the matrix of which the lower triangle is
evaluated. -/
theorem hessian_hasFDerivAt (hP : JacobianLayoutOk P) (hL : JacobianLFGOk P.pc (lagrangeJac P))
    (hH : HessianLayoutOk P) {past : Nat → Nat × Nat} (hflat : ∀ e ∈ hesFlat P P.pc.xSize .H,
      flatAt (hesFlat P P.pc.xSize .G) past ((hesFlat P P.pc.xSize .H).idxOf e) = e)
    (iRow jCol rows cols : Nat → Nat) {sigma : ℝ} {lambda : Nat → ℝ}
    {Bx : (Fin (getSizes P M).numberVars → ℝ) → Buffers ℝ} {B : Buffers ℝ}
    {x : Fin (getSizes P M).numberVars → ℝ} (hB : HessianCallbacks P M sigma lambda Bx B x)
    {hes : Nat → ℝ} (he : evalHesInternal P M (getSizes P M) B
      (getHesSparsity P M (getSizes P M) past iRow jCol) = some hes)
    {c : Nat} (hc : c < (getSizes P M).numberVars) :
    HasFDerivAt (fun x => lagrangianEntry P M (Bx x) sigma lambda rows cols c)
      (form _ (symmetric (hesMatrix P M past iRow jCol hes) c)) x := by
  obtain ⟨pp, hpp, hnode⟩ := hB.full
  have entries : ∀ d, d < (getSizes P M).numberVars →
      symmetric (hesMatrix P M past iRow jCol hes) c d =
        0 + ∑ i ∈ Finset.range M.intervals, ∑ j ∈ Finset.range (M.nodesAt i),
          symmetric (fun r c => nodeHes P M B i j r c + pp i j r c) c d +
        symmetric (boundaryHes P M B) c d := by
    intro d _
    unfold symmetric
    split <;>
      rw [hesMatrix_eq B past iRow jCol hH hflat he, zero_add, ← hpp] <;>
      simp only [Finset.sum_add_distrib] <;>
      ring
  simp only [lagrangianEntry_eq P M _ sigma lambda hP hL]
  rw [form_congr entries]
  have hconst : HasFDerivAt (fun _ : Fin (getSizes P M).numberVars → ℝ =>
      collocationPart P M lambda (unit c)) (form _ fun _ => 0) x := by
    have h0 := hasFDerivAt_zero (x := x)
    exact (hasFDerivAt_const (collocationPart P M lambda (unit c)) x).congr_fderiv
      (by rw [← h0.fderiv, (hasFDerivAt_const (0 : ℝ) x).fderiv])
  refine hasFDerivAt_add (hasFDerivAt_add hconst (hasFDerivAt_sum _ fun i hi =>
    hasFDerivAt_sum _ fun j hj => ?_)) (hB.boundary c hc)
  exact hnode i j (Finset.mem_range.mp hi) (Finset.mem_range.mp hj) c hc

/-- The Lagrangian that the evaluations of objective and constraints define has the gradient of the
evaluations of gradient and Jacobian. -/
theorem lagrangian_hasFDerivAt (hP : JacobianLayoutOk P)
    (hL : JacobianLFGOk P.pc (lagrangeJac P)) (rows cols : Nat → Nat) (sigma : ℝ)
    (lambda : Nat → ℝ) {Bx : (Fin (getSizes P M).numberVars → ℝ) → Buffers ℝ}
    {x : Fin (getSizes P M).numberVars → ℝ} (hB : CallbackDerivatives P M Bx (Bx x) x)
    (hO : ObjectiveDerivatives P M Bx (Bx x) x) :
    HasFDerivAt (fun x => sigma * evalFInternal P M (Bx x) +
        ∑ r ∈ Finset.range (getSizes P M).numberConstraints,
          lambda r * evalGInternal P M (getSizes P M) (Bx x) (extend x) r)
      (form _ (lagrangianEntry P M (Bx x) sigma lambda rows cols)) x := by
  unfold lagrangianEntry
  refine hasFDerivAt_add (hasFDerivAt_mul _ (objective_hasFDerivAt P M hL _ hO))
    (hasFDerivAt_sum _ fun r hr => hasFDerivAt_mul _ ?_)
  exact evalGInternal_hasFDerivAt P M hP _ rows cols hB (Finset.mem_range.mp hr)

/-- `x' = p x` at the cost `x² + p²`. -/
noncomputable def growth : Problem ℝ where
  pc := { hasMayer := false, hasLagrange := true, xBounds := [⟨0, 1⟩], uBounds := []
          pBounds := [⟨0, 1⟩], x0Fixed := [none], xfFixed := [none], rBounds := [], gBounds := [] }
  full := { L := some { jac := { dx := [⟨0, 0⟩], dp := [⟨0, 1⟩] } }
            f := [{ bufIndex := 1, jac := { dx := [⟨0, 2⟩], dp := [⟨0, 3⟩] } }], g := []
            hes := { dxDx := [⟨0, 0, 0⟩], dpDx := [⟨0, 0, 1⟩] }
            ppHes := { dpDp := [⟨0, 0, 0⟩] } }
  boundary := { r := [] }
  f_length := by decide
  g_length := by decide
  r_length := by decide

/-- The only node has length and weight `1`, so the multiplier of the dynamics comes as `-λ`. -/
noncomputable def growthBuffers (sigma : ℝ) (lambda : Nat → ℝ)
    (x : Fin (getSizes growth integratorMesh).numberVars → ℝ) : Buffers ℝ :=
  { Buffers.zero with
    eval := fun k => if k = 0 then extend x 1 * extend x 1 + extend x 2 * extend x 2
      else extend x 2 * extend x 1
    jac := fun k => [extend x 1 + extend x 1, extend x 2 + extend x 2, extend x 2,
      extend x 1].getD k 0
    hes := fun k => if k = 0 then sigma + sigma else -lambda 0
    ppHes := fun _ => sigma + sigma }

section Growth

theorem integratorMesh_deltaT : integratorMesh.deltaTAt 0 = 1 := by
  simp [integratorMesh, Mesh.createEquidistantFixedStages, Mesh.deltaTAt]

theorem integratorMesh_weight : nodeWeight integratorMesh 0 0 = 1 := by
  rw [nodeWeight, integratorMesh_deltaT, one_mul]
  rfl

variable (sigma : ℝ) (lambda : Nat → ℝ) (x : Fin (getSizes growth integratorMesh).numberVars → ℝ)

theorem growth_lagrange_row (φ : Nat → ℝ) :
    lfgRow growth integratorMesh (getSizes growth integratorMesh) (growthBuffers sigma lambda x)
        (lagrangeJac growth) 0 0 φ =
      (extend x 1 + extend x 1) * φ 1 + (extend x 2 + extend x 2) * φ 2 := by
  have hacc : (getSizes growth integratorMesh).offAccXu 0 0 = 1 := rfl
  have htotal : (getSizes growth integratorMesh).offXuTotal = 2 := rfl
  have hnode : integratorMesh.accNodesAt 0 0 = 0 := rfl
  have hlag : lagrangeJac growth = { dx := [⟨0, 0⟩], dp := [⟨0, 1⟩] } := rfl
  simp [lfgRow, lfgJac, hlag, hacc, htotal, hnode, growthBuffers]

theorem growth_f_row (φ : Nat → ℝ) :
    lfgRow growth integratorMesh (getSizes growth integratorMesh) (growthBuffers sigma lambda x)
        (growth.full.fAt 0).jac 0 0 φ = extend x 2 * φ 1 + extend x 1 * φ 2 := by
  have hacc : (getSizes growth integratorMesh).offAccXu 0 0 = 1 := rfl
  have htotal : (getSizes growth integratorMesh).offXuTotal = 2 := rfl
  have hnode : integratorMesh.accNodesAt 0 0 = 0 := rfl
  have hfn : (growth.full.fAt 0).jac = { dx := [⟨0, 2⟩], dp := [⟨0, 3⟩] } := rfl
  simp [lfgRow, lfgJac, hfn, hacc, htotal, hnode, growthBuffers]

theorem growth_nodeRow (φ : Nat → ℝ) :
    nodeRow growth integratorMesh (growthBuffers sigma lambda x) sigma lambda 0 0 φ =
      (2 * sigma * φ 1 - lambda 0 * φ 2) * extend x 1 +
        (2 * sigma * φ 2 - lambda 0 * φ 1) * extend x 2 := by
  have hL : growth.pc.hasLagrange = true := rfl
  have hf : growth.pc.fSize = 1 := rfl
  have hg : growth.pc.gSize = 0 := rfl
  have hfg : (getSizes growth integratorMesh).offAccFg 0 0 = 0 := rfl
  rw [nodeRow, if_pos hL, factors_eq growth integratorMesh sigma _ Nat.one_pos Nat.one_pos hL,
    integratorMesh_weight, hf, hg, growth_lagrange_row, Finset.sum_range_one, growth_f_row,
    transformedLambda_f growth integratorMesh lambda Nat.one_pos Nat.one_pos Nat.one_pos,
    integratorMesh_deltaT, hfg]
  simp only [Finset.range_zero, Finset.sum_empty]
  ring

theorem growth_nodeHes (r c : Nat) :
    nodeHes growth integratorMesh (growthBuffers sigma lambda x) 0 0 r c =
      (if 1 = r ∧ 1 = c then sigma + sigma else 0) + if 2 = r ∧ 1 = c then -lambda 0 else 0 := by
  have hacc : (getSizes growth integratorMesh).offAccXu 0 0 = 1 := rfl
  have htotal : (getSizes growth integratorMesh).offXuTotal = 2 := rfl
  have hnode : integratorMesh.accNodesAt 0 0 = 0 := rfl
  have hhes : growth.full.hes = { dxDx := [⟨0, 0, 0⟩], dpDx := [⟨0, 0, 1⟩] } := rfl
  simp [nodeHes, hesPart, hhes, hacc, htotal, hnode, lfgHes, growthBuffers]

theorem growth_parameterHes (r c : Nat) :
    parameterHes growth integratorMesh (growthBuffers sigma lambda x) r c =
      if 2 = r ∧ 2 = c then sigma + sigma else 0 := by
  have htotal : (getSizes growth integratorMesh).offXuTotal = 2 := rfl
  have hhes : growth.full.ppHes = { dpDp := [⟨0, 0, 0⟩] } := rfl
  simp [parameterHes, hesPart, hhes, htotal, lfgPpHes, growthBuffers]

theorem growth_boundaryHes (r c : Nat) :
    boundaryHes growth integratorMesh (growthBuffers sigma lambda x) r c = 0 := by
  simp [boundaryHes, hesPart, growth]

theorem growth_callbacks :
    CallbackDerivatives growth integratorMesh (growthBuffers sigma lambda)
      (growthBuffers sigma lambda x) x := by
  refine ⟨fun i j f hi hj hf => ?_, fun _ _ _ _ _ hg => absurd hg (Nat.not_lt_zero _),
    fun _ hr => absurd hr (Nat.not_lt_zero _)⟩
  obtain rfl : i = 0 := Nat.lt_one_iff.mp hi
  obtain rfl : j = 0 := Nat.lt_one_iff.mp hj
  obtain rfl : f = 0 := Nat.lt_one_iff.mp hf
  have hval : ∀ y, lfgEvalF growth integratorMesh (growthBuffers sigma lambda y) 0 0 0 =
      extend y 2 * extend y 1 := fun y => rfl
  simp only [hval, growth_f_row]
  refine ((hasFDerivAt_extend x 2).mul (hasFDerivAt_extend x 1)).congr_fderiv ?_
  rw [form_smul, form_smul, form_add]
  rfl

theorem growth_objective :
    ObjectiveDerivatives growth integratorMesh (growthBuffers sigma lambda)
      (growthBuffers sigma lambda x) x := by
  refine ⟨fun _ i j hi hj => ?_, fun h => (by cases h)⟩
  obtain rfl : i = 0 := Nat.lt_one_iff.mp hi
  obtain rfl : j = 0 := Nat.lt_one_iff.mp hj
  have hval : ∀ y, lfgEvalL growth integratorMesh (growthBuffers sigma lambda y) 0 0 =
      extend y 1 * extend y 1 + extend y 2 * extend y 2 := fun y => rfl
  simp only [hval, growth_lagrange_row]
  have h1 := hasFDerivAt_extend x 1
  have h2 := hasFDerivAt_extend x 2
  refine ((h1.mul h1).add (h2.mul h2)).congr_fderiv ?_
  rw [form_smul, form_smul, form_add, form_add, form_add]
  refine form_congr fun c _ => ?_
  unfold unit
  ring

theorem growth_hessian :
    HessianCallbacks growth integratorMesh sigma lambda (growthBuffers sigma lambda)
      (growthBuffers sigma lambda x) x where
  full := by
    refine ⟨fun _ _ => parameterHes growth integratorMesh (growthBuffers sigma lambda x),
      fun r c => ?_, fun i j hi hj c hc => ?_⟩
    · have hi : integratorMesh.intervals = 1 := rfl
      have hj : integratorMesh.nodesAt 0 = 1 := rfl
      rw [hi, Finset.sum_range_one, hj, Finset.sum_range_one]
    · obtain rfl : i = 0 := Nat.lt_one_iff.mp hi
      obtain rfl : j = 0 := Nat.lt_one_iff.mp hj
      simp only [growth_nodeRow, growth_nodeHes, growth_parameterHes]
      refine (hasFDerivAt_add (hasFDerivAt_mul _ (hasFDerivAt_extend x 1))
        (hasFDerivAt_mul _ (hasFDerivAt_extend x 2))).congr_fderiv (form_congr fun d hd => ?_)
      have three : ∀ k, k < (getSizes growth integratorMesh).numberVars →
          k = 0 ∨ k = 1 ∨ k = 2 := by
        intro k hk
        have h3 : k < 3 := hk
        omega
      rcases three c hc with rfl | rfl | rfl <;> rcases three d hd with rfl | rfl | rfl <;>
        simp [symmetric, unit, two_mul]
  boundary := by
    intro c _
    have hrow : ∀ y φ, boundaryRow growth integratorMesh (growthBuffers sigma lambda y) sigma
        lambda φ = 0 := by
      intro y φ
      have hM : growth.pc.hasMayer = false := rfl
      have hr : growth.pc.rSize = 0 := rfl
      simp [boundaryRow, hM, hr]
    simp only [hrow]
    refine hasFDerivAt_zero.congr_fderiv (form_congr fun d _ => ?_)
    unfold symmetric
    rw [growth_boundaryHes, growth_boundaryHes, ite_self]

theorem growth_jacLayoutOk : JacobianLayoutOk growth where
  f := by
    intro fn hfn
    rw [List.mem_singleton.mp hfn]
    exact ⟨⟨by decide, by decide⟩, ⟨by decide, by decide⟩, ⟨by decide, by decide⟩⟩
  g := by simp [growth]
  r := by simp [growth]
  f_sorted := by
    intro fn hfn
    rw [List.mem_singleton.mp hfn]
    simp

theorem growth_layoutOk : HessianLayoutOk growth := by
  constructor <;> intro e he <;> simp [growth] at he <;> subst he <;> decide

theorem growth_lagrange : JacobianLFGOk growth.pc (lagrangeJac growth) :=
  ⟨⟨by decide, by decide⟩, ⟨by decide, by decide⟩, ⟨by decide, by decide⟩⟩

end Growth

end Hessian

end GDOP
end Moo
