import Moo.GDOP.JacobianCorrect
import Moo.GDOP.Layout

/-!
# GDOP.Gradient

`eval_grad_f_internal` is the gradient of `eval_f_internal`.

* `gradStores`: the loop nests as one sequence of assignments and additions. What is assigned has
  not been touched before (`gradStores_pairwise`), so that all of them are additions.
* `gradRow`: the gradient as a row, in the form of the rows of the Jacobian.
* `Variable.objectiveDerivative`: its entries, component by component.
-/

namespace Moo
namespace GDOP

open Loop Coo FixedVector

section Stores

variable {K : Type} [Field K] {T : FLGR K} (P : Problem K) (M : Mesh T) (off : Offsets)
variable (B : Buffers K)

/-- The Jacobian lists of the Lagrange and of the Mayer term. -/
def lagrangeJac : JacobianLFG := (P.full.L.getD {}).jac
def mayerJac : JacobianMR := (P.boundary.M.getD {}).jac

/-- The quadrature weight of a node. -/
def nodeWeight (i j : Nat) : K := M.deltaTAt i * T.getB (M.nodesAt i) j

def nodeGradStores (i j : Nat) : List (Bool × Nat × K) :=
  (lagrangeJac P).dx.map (fun e =>
    (true, off.offAccXu i j + e.col, nodeWeight M i j * lfgJac P M B e.bufIndex i j)) ++
  (lagrangeJac P).du.map (fun e =>
    (true, off.offAccXu i j + off.offX + e.col,
      nodeWeight M i j * lfgJac P M B e.bufIndex i j)) ++
  (lagrangeJac P).dp.map fun e =>
    (false, off.offXuTotal + e.col, nodeWeight M i j * lfgJac P M B e.bufIndex i j)

def mayerGradStores : List (Bool × Nat × K) :=
  (mayerJac P).dx0.map (fun e => (false, e.col, mrJac B e.bufIndex)) ++
  (mayerJac P).dxf.map (fun e => (false, off.offLastXu + e.col, mrJac B e.bufIndex)) ++
  (mayerJac P).duf.map (fun e => (false, off.offLastXu + off.offX + e.col, mrJac B e.bufIndex)) ++
  (mayerJac P).dp.map fun e => (false, off.offXuTotal + e.col, mrJac B e.bufIndex)

def gradStores : List (Bool × Nat × K) :=
  (if P.pc.hasLagrange then M.nodeOps (nodeGradStores P M off B) else []) ++
    if P.pc.hasMayer then mayerGradStores P off B else []

theorem evalGradFInternal_stores :
    evalGradFInternal P M off B = (gradStores P M off B).foldl store fun _ => 0 := by
  have node (i j : Nat) (grad : Nat → K) : (nodeGradStores P M off B i j).foldl store grad =
      (lagrangeJac P).dp.foldl (fun grad dLDp =>
          addAt grad (off.offXuTotal + dLDp.col,
            nodeWeight M i j * lfgJac P M B dLDp.bufIndex i j))
        ((lagrangeJac P).du.foldl (fun grad dLDu =>
            Function.update grad (off.offAccXu i j + off.offX + dLDu.col)
              (nodeWeight M i j * lfgJac P M B dLDu.bufIndex i j))
          ((lagrangeJac P).dx.foldl (fun grad dLDx =>
            Function.update grad (off.offAccXu i j + dLDx.col)
              (nodeWeight M i j * lfgJac P M B dLDx.bufIndex i j)) grad)) := by
    simp [nodeGradStores, List.foldl_append, List.foldl_map, store]
  unfold evalGradFInternal gradStores
  rw [List.foldl_append]
  cases P.pc.hasLagrange <;> cases P.pc.hasMayer <;>
    simp only [Bool.false_eq_true, if_false, if_true, List.foldl_nil]
  · simp [mayerGradStores, List.foldl_append, List.foldl_map, store, mayerJac]
  · rw [← M.forNodes_foldl fun i j _ _ grad => (node i j grad).symm]
    rfl
  · rw [← M.forNodes_foldl fun i j _ _ grad => (node i j grad).symm]
    simp [mayerGradStores, List.foldl_append, List.foldl_map, store, mayerJac]
    rfl

/-! ## Nothing is assigned twice -/

/-- The later operation does not assign the cell of the earlier one. -/
def Fresh (e' e : Bool × Nat × K) : Prop := e.1 = true → e'.2.1 ≠ e.2.1

omit [Field K] in
theorem fresh_of_key {e' e : Bool × Nat × K} (h : e'.2.1 ≠ e.2.1) : Fresh e' e := fun _ => h

omit [Field K] in
theorem fresh_of_add {e' e : Bool × Nat × K} (h : e.1 = false) : Fresh e' e := by
  intro ht
  rw [h] at ht
  cases ht

omit [Field K] in
theorem ColumnsOk.fresh {n : Nat} {l : List JacobianSparsity} (h : ColumnsOk n l) (base : Nat)
    (v : JacobianSparsity → K) :
    (l.map fun e => (true, base + e.col, v e)).Pairwise Fresh := by
  rw [List.pairwise_map]
  refine (List.pairwise_map.mp h.nodup).imp fun hne => fresh_of_key ?_
  exact fun he => hne (Nat.add_left_cancel he)

variable {P M B}

theorem nodeGradStores_pairwise (hL : JacobianLFGOk P.pc (lagrangeJac P)) (i j : Nat) :
    (nodeGradStores P M (getSizes P M) B i j).Pairwise Fresh := by
  refine List.pairwise_append.mpr ⟨List.pairwise_append.mpr ⟨hL.dx.fresh _ _, hL.du.fresh _ _, ?_⟩,
    ?_, ?_⟩
  · intro a ha b hb
    obtain ⟨e, he, rfl⟩ := List.mem_map.mp ha
    obtain ⟨e', -, rfl⟩ := List.mem_map.mp hb
    have := hL.dx.range e he
    refine fresh_of_key ?_
    simp only [getSizes_offX]
    omega
  · rw [List.pairwise_map]
    exact List.pairwise_of_forall fun _ _ => fresh_of_add rfl
  · intro a _ b hb
    obtain ⟨e, -, rfl⟩ := List.mem_map.mp hb
    exact fresh_of_add rfl

/-- What a node touches: its own block, and parameters. -/
theorem nodeGradStores_key (hL : JacobianLFGOk P.pc (lagrangeJac P)) {i j : Nat}
    (hi : i < M.intervals) (hj : j < M.nodesAt i) {e : Bool × Nat × K}
    (he : e ∈ nodeGradStores P M (getSizes P M) B i j) :
    (∃ y, y < P.pc.xuSize ∧ e.2.1 = P.pc.xSize + (P.pc.xuSize * M.accNodesAt i j + y)) ∨
      e.1 = false ∧ P.pc.xSize + P.pc.xuSize * M.nodeCount ≤ e.2.1 := by
  have hxu : P.pc.xuSize = P.pc.xSize + P.pc.uSize := rfl
  have hacc := getSizes_offAccXu P M hi hj
  simp only [nodeGradStores, List.mem_append, List.mem_map] at he
  rcases he with (⟨d, hd, rfl⟩ | ⟨d, hd, rfl⟩) | ⟨d, hd, rfl⟩
  · have := hL.dx.range d hd
    refine .inl ⟨d.col, by omega, ?_⟩
    dsimp only
    omega
  · have := hL.du.range d hd
    refine .inl ⟨P.pc.xSize + d.col, by omega, ?_⟩
    dsimp only
    rw [getSizes_offX]
    omega
  · refine .inr ⟨rfl, ?_⟩
    dsimp only
    rw [getSizes_offXuTotal]
    omega

/-- Two nodes assign different cells. -/
theorem nodeGradStores_fresh (hL : JacobianLFGOk P.pc (lagrangeJac P)) {i j i' j' : Nat}
    (hi : i < M.intervals) (hj : j < M.nodesAt i) (hi' : i' < M.intervals)
    (hj' : j' < M.nodesAt i') (hne : M.accNodesAt i j ≠ M.accNodesAt i' j') {e' e : Bool × Nat × K}
    (he' : e' ∈ nodeGradStores P M (getSizes P M) B i j)
    (he : e ∈ nodeGradStores P M (getSizes P M) B i' j') : Fresh e' e := by
  rcases nodeGradStores_key hL hi' hj' he with ⟨y, hy, h⟩ | ⟨hadd, -⟩
  · refine fresh_of_key ?_
    rcases nodeGradStores_key hL hi hj he' with ⟨z, hz, h'⟩ | ⟨-, h'⟩
    · intro hk
      rw [h, h'] at hk
      exact hne (Segment.block_inj hz hy (Nat.add_left_cancel hk)).1
    · have := Segment.block_lt (M.accNodesAt_lt hi' hj') hy
      omega
  · exact fresh_of_add hadd

theorem gradStores_pairwise (hL : JacobianLFGOk P.pc (lagrangeJac P)) :
    (gradStores P M (getSizes P M) B).Pairwise Fresh := by
  have add {e : Bool × Nat × K} (he : e ∈ mayerGradStores P (getSizes P M) B) : e.1 = false := by
    simp only [mayerGradStores, List.mem_append, List.mem_map] at he
    rcases he with ((⟨d, -, rfl⟩ | ⟨d, -, rfl⟩) | ⟨d, -, rfl⟩) | ⟨d, -, rfl⟩ <;> rfl
  refine List.pairwise_append.mpr ⟨?_, ?_, ?_⟩
  · split
    · exact M.nodeOps_pairwise (fun i j _ _ => nodeGradStores_pairwise hL i j)
        fun i j i' j' hi hj hi' hj' hlt e' he' e he =>
          nodeGradStores_fresh hL hi hj hi' hj' hlt.ne he' he
    · exact List.Pairwise.nil
  · split
    · exact List.pairwise_of_forall_mem_list fun _ _ _ he => fresh_of_add (add he)
    · exact List.Pairwise.nil
  · intro e' _ e he
    split at he
    · exact fresh_of_add (add he)
    · cases he

end Stores

/-! ## The gradient as a row -/

section Row

variable {K : Type} [Field K] {T : FLGR K} (P : Problem K) (M : Mesh T) (off : Offsets)
variable (B : Buffers K)

/-- Applied to functions `φ` of the column, like the rows of the Jacobian. -/
def gradRow (φ : Nat → K) : K :=
  (if P.pc.hasLagrange then
      ∑ i ∈ Finset.range M.intervals, ∑ j ∈ Finset.range (M.nodesAt i),
        nodeWeight M i j * lfgRow P M off B (lagrangeJac P) i j φ
    else 0) +
    if P.pc.hasMayer then mrRow off B (mayerJac P) φ else 0

theorem nodeGradStores_sum (i j k : Nat) :
    ((nodeGradStores P M off B i j).map fun e => if e.2.1 = k then e.2.2 else 0).sum =
      nodeWeight M i j * lfgRow P M off B (lagrangeJac P) i j (unit k) := by
  simp only [nodeGradStores, lfgRow, unit, List.map_append, List.sum_append, List.map_map,
    Function.comp_def, mul_add, ← List.sum_map_mul_left, mul_ite, mul_one, mul_zero]

theorem mayerGradStores_sum (k : Nat) :
    ((mayerGradStores P off B).map fun e => if e.2.1 = k then e.2.2 else 0).sum =
      mrRow off B (mayerJac P) (unit k) := by
  simp only [mayerGradStores, mrRow, unit, List.map_append, List.sum_append, List.map_map,
    Function.comp_def, mul_ite, mul_one, mul_zero]

theorem evalGradFInternal_eq (hL : JacobianLFGOk P.pc (lagrangeJac P)) (k : Nat) :
    evalGradFInternal P M (getSizes P M) B k = gradRow P M (getSizes P M) B (unit k) := by
  rw [evalGradFInternal_stores, foldl_store (gradStores_pairwise hL), accum_apply, zero_add,
    List.map_map, gradStores, gradRow]
  simp only [Function.comp_def, List.map_append, List.sum_append]
  congr 1
  · split
    · rw [Mesh.nodeOps, sum_map_flatMap, sum_map_range]
      refine Finset.sum_congr rfl fun i _ => ?_
      rw [sum_map_flatMap, sum_map_range]
      exact Finset.sum_congr rfl fun j _ => nodeGradStores_sum P M (getSizes P M) B i j k
    · rfl
  · split
    · exact mayerGradStores_sum P (getSizes P M) B k
    · rfl

end Row

/-! ## The entries -/

section Entries

variable {K : Type} [Field K] {T : FLGR K}

/-- The derivative by column `k`: the value its entry points to, zero without an entry. -/
def partialAt (l : List JacobianSparsity) (v : Nat → K) (k : Nat) : K :=
  (l.find? fun e => e.col == k).elim 0 fun e => v e.bufIndex

theorem sum_col {l : List JacobianSparsity} (h : (l.map (·.col)).Nodup) (v : Nat → K) (k : Nat) :
    (l.map fun e => if e.col = k then v e.bufIndex else 0).sum = partialAt l v k := by
  induction l with
  | nil => rfl
  | cons e l ih =>
    obtain ⟨he, hl⟩ := List.nodup_cons.mp h
    rw [List.map_cons, List.sum_cons, partialAt, List.find?_cons]
    by_cases hk : e.col = k
    · -- no other entry has this column
      have hzero : (l.map fun e => if e.col = k then v e.bufIndex else 0).sum = 0 := by
        refine Segment.sum_eq_zero_of_key (w := JacobianSparsity.col) l _ fun e' he' hk' => he ?_
        exact List.mem_map.mpr ⟨e', he', hk'.trans hk.symm⟩
      simp [hk, hzero]
    · simp only [hk, if_false, zero_add, beq_eq_false_iff_ne.mpr hk]
      exact ih hl

variable (P : Problem K) (M : Mesh T) (B : Buffers K)

/-- What the objective contributes to the gradient at one component. -/
def Variable.objectiveDerivative : Variable → K
  | .x0 k => if P.pc.hasMayer then partialAt (mayerJac P).dx0 (mrJac B) k else 0
  | .x i j k =>
    (if P.pc.hasLagrange then
        nodeWeight M i j * partialAt (lagrangeJac P).dx (fun b => lfgJac P M B b i j) k
      else 0) +
      if P.pc.hasMayer && M.isLast i j then partialAt (mayerJac P).dxf (mrJac B) k else 0
  | .u i j k =>
    (if P.pc.hasLagrange then
        nodeWeight M i j * partialAt (lagrangeJac P).du (fun b => lfgJac P M B b i j) k
      else 0) +
      if P.pc.hasMayer && M.isLast i j then partialAt (mayerJac P).duf (mrJac B) k else 0
  | .p k =>
    (if P.pc.hasLagrange then
        ∑ i ∈ Finset.range M.intervals, ∑ j ∈ Finset.range (M.nodesAt i),
          nodeWeight M i j * partialAt (lagrangeJac P).dp (fun b => lfgJac P M B b i j) k
      else 0) +
      if P.pc.hasMayer then partialAt (mayerJac P).dp (mrJac B) k else 0

/-- Column `v` in the row of a function of the full sweep at node `(i, j)`. -/
def Variable.nodeEntry (jac : JacobianLFG) (i j : Nat) (value : Nat → K) : Variable → K
  | .x0 _ => 0
  | .x i' j' k => if i = i' ∧ j = j' then partialAt jac.dx value k else 0
  | .u i' j' k => if i = i' ∧ j = j' then partialAt jac.du value k else 0
  | .p k => partialAt jac.dp value k

/-- Column `v` in the row of a boundary function. -/
def Variable.boundaryEntry (jac : JacobianMR) : Variable → K
  | .x0 k => partialAt jac.dx0 (mrJac B) k
  | .x i j k => if M.isLast i j then partialAt jac.dxf (mrJac B) k else 0
  | .u i j k => if M.isLast i j then partialAt jac.duf (mrJac B) k else 0
  | .p k => partialAt jac.dp (mrJac B) k

variable {P M B}

theorem unit_index {v w : Variable} (hv : v.Ok P M) (hw : w.Ok P M) :
    (unit (v.index (getSizes P M)) (w.index (getSizes P M)) : K) = if w = v then 1 else 0 := by
  unfold unit
  refine if_congr ⟨fun h => Variable.index_inj hw hv h, ?_⟩ rfl rfl
  rintro rfl
  rfl

/-- The part of a row that belongs to one list: columns `f 0, f 1, …` of one block. -/
theorem sum_block {n : Nat} {l : List JacobianSparsity} (h : ColumnsOk n l) (w : Nat → K)
    {f : Nat → Variable} (hf : ∀ k, k < n → (f k).Ok P M) {v : Variable} (hv : v.Ok P M) :
    (l.map fun e => w e.bufIndex *
      unit (v.index (getSizes P M)) ((f e.col).index (getSizes P M))).sum =
      (l.map fun e => if f e.col = v then w e.bufIndex else 0).sum := by
  refine congrArg List.sum (List.map_congr_left fun e he => ?_)
  rw [unit_index hv (hf _ (h.range e he)), mul_ite, mul_one, mul_zero]

/-! The index of each kind of component. -/

section Index

variable (off : Offsets) (i j k : Nat)

theorem Variable.index_x0 : (Variable.x0 k).index off = k := rfl
theorem Variable.index_x : (Variable.x i j k).index off = off.offAccXu i j + k := rfl
theorem Variable.index_u : (Variable.u i j k).index off = off.offAccXu i j + off.offX + k := rfl
theorem Variable.index_p : (Variable.p k).index off = off.offXuTotal + k := rfl

end Index

theorem lfgRow_index {jac : JacobianLFG} (h : JacobianLFGOk P.pc jac) {i j : Nat}
    (hi : i < M.intervals) (hj : j < M.nodesAt i) {v : Variable} (hv : v.Ok P M) :
    lfgRow P M (getSizes P M) B jac i j (unit (v.index (getSizes P M))) =
      v.nodeEntry jac i j fun b => lfgJac P M B b i j := by
  have hx := sum_block h.dx (fun b => lfgJac P M B b i j) (f := .x i j)
    (fun k hk => ⟨hi, hj, hk⟩) hv
  have hu := sum_block h.du (fun b => lfgJac P M B b i j) (f := .u i j)
    (fun k hk => ⟨hi, hj, hk⟩) hv
  have hp := sum_block h.dp (fun b => lfgJac P M B b i j) (f := .p) (fun k hk => hk) hv
  simp only [Variable.index_x, Variable.index_u, Variable.index_p] at hx hu hp
  rw [lfgRow, hx, hu, hp]
  cases v with
  | x0 k => simp [Variable.nodeEntry]
  | x i' j' k =>
    simp only [Variable.x.injEq, reduceCtorEq, if_false, List.map_const', List.sum_replicate,
      smul_zero, add_zero, ← and_assoc, Variable.nodeEntry]
    by_cases hn : i = i' ∧ j = j'
    · obtain ⟨rfl, rfl⟩ := hn
      simp only [and_self, true_and, if_true]
      exact sum_col h.dx.nodup (fun b => lfgJac P M B b i j) k
    · simp [hn]
  | u i' j' k =>
    simp only [Variable.u.injEq, reduceCtorEq, if_false, List.map_const', List.sum_replicate,
      smul_zero, add_zero, zero_add, ← and_assoc, Variable.nodeEntry]
    by_cases hn : i = i' ∧ j = j'
    · obtain ⟨rfl, rfl⟩ := hn
      simp only [and_self, true_and, if_true]
      exact sum_col h.du.nodup (fun b => lfgJac P M B b i j) k
    · simp [hn]
  | p k =>
    simp only [Variable.p.injEq, reduceCtorEq, if_false, List.map_const', List.sum_replicate,
      smul_zero, zero_add, Variable.nodeEntry]
    exact sum_col h.dp.nodup (fun b => lfgJac P M B b i j) k

theorem mrRow_index {jac : JacobianMR} (h : JacobianMROk P.pc jac) {v : Variable}
    (hv : v.Ok P M) :
    mrRow (getSizes P M) B jac (unit (v.index (getSizes P M))) = v.boundaryEntry M B jac := by
  have hI : M.intervals - 1 < M.intervals := by
    have := M.intervals_pos
    omega
  have hJ : M.nodesAt (M.intervals - 1) - 1 < M.nodesAt (M.intervals - 1) := by
    have := M.nodesAt_pos hI
    omega
  have h0 := sum_block h.dx0 (mrJac B) (f := .x0) (fun k hk => hk) hv
  have hx := sum_block h.dxf (mrJac B) (f := .x (M.intervals - 1) (M.nodesAt (M.intervals - 1) - 1))
    (fun k hk => ⟨hI, hJ, hk⟩) hv
  have hu := sum_block h.duf (mrJac B) (f := .u (M.intervals - 1) (M.nodesAt (M.intervals - 1) - 1))
    (fun k hk => ⟨hI, hJ, hk⟩) hv
  have hp := sum_block h.dp (mrJac B) (f := .p) (fun k hk => hk) hv
  have hlast (i j : Nat) : M.intervals - 1 = i ∧ M.nodesAt (M.intervals - 1) - 1 = j ↔
      M.isLast i j = true := by
    rw [Mesh.isLast, Bool.and_eq_true, beq_iff_eq, beq_iff_eq]
    exact and_congr eq_comm eq_comm
  simp only [Variable.index_x0, Variable.index_x, Variable.index_u, Variable.index_p] at h0 hx hu hp
  rw [mrRow, h0, show (getSizes P M).offLastXu = (getSizes P M).offAccXu (M.intervals - 1)
    (M.nodesAt (M.intervals - 1) - 1) from rfl, hx, hu, hp]
  cases v with
  | x0 k =>
    simp only [Variable.x0.injEq, reduceCtorEq, if_false, List.map_const', List.sum_replicate,
      smul_zero, add_zero]
    exact sum_col h.dx0.nodup _ k
  | x i j k =>
    simp only [Variable.x.injEq, reduceCtorEq, if_false, List.map_const', List.sum_replicate,
      smul_zero, add_zero, zero_add, ← and_assoc, hlast, Variable.boundaryEntry]
    cases M.isLast i j with
    | false => simp
    | true =>
      simp only [true_and, if_true]
      exact sum_col h.dxf.nodup _ k
  | u i j k =>
    simp only [Variable.u.injEq, reduceCtorEq, if_false, List.map_const', List.sum_replicate,
      smul_zero, add_zero, zero_add, ← and_assoc, hlast, Variable.boundaryEntry]
    cases M.isLast i j with
    | false => simp
    | true =>
      simp only [true_and, if_true]
      exact sum_col h.duf.nodup _ k
  | p k =>
    simp only [Variable.p.injEq, reduceCtorEq, if_false, List.map_const', List.sum_replicate,
      smul_zero, zero_add]
    exact sum_col h.dp.nodup _ k

theorem gradRow_index (hL : JacobianLFGOk P.pc (lagrangeJac P))
    (hM : JacobianMROk P.pc (mayerJac P)) {v : Variable} (hv : v.Ok P M) :
    gradRow P M (getSizes P M) B (unit (v.index (getSizes P M))) =
      v.objectiveDerivative P M B := by
  have rows : (∑ i ∈ Finset.range M.intervals, ∑ j ∈ Finset.range (M.nodesAt i),
      nodeWeight M i j * lfgRow P M (getSizes P M) B (lagrangeJac P) i j
        (unit (v.index (getSizes P M)))) =
      ∑ i ∈ Finset.range M.intervals, ∑ j ∈ Finset.range (M.nodesAt i),
        nodeWeight M i j * v.nodeEntry (lagrangeJac P) i j fun b => lfgJac P M B b i j :=
    Finset.sum_congr rfl fun i hi => Finset.sum_congr rfl fun j hj => by
      rw [lfgRow_index hL (Finset.mem_range.mp hi) (Finset.mem_range.mp hj) hv]
  -- the sum over the nodes has one term for a state or a control
  have one {i j : Nat} (hi : i < M.intervals) (hj : j < M.nodesAt i) (F : Nat → Nat → K) :
      (∑ i' ∈ Finset.range M.intervals, ∑ j' ∈ Finset.range (M.nodesAt i'),
        nodeWeight M i' j' * if i' = i ∧ j' = j then F i' j' else 0) =
        nodeWeight M i j * F i j := by
    rw [Finset.sum_eq_single_of_mem i (Finset.mem_range.mpr hi),
      Finset.sum_eq_single_of_mem j (Finset.mem_range.mpr hj)]
    · simp
    · intro j' _ hne
      simp [hne]
    · intro i' _ hne
      simp [hne]
  rw [gradRow, rows, mrRow_index hM hv]
  cases v with
  | x0 k => simp [Variable.nodeEntry, Variable.boundaryEntry, Variable.objectiveDerivative]
  | x i j k =>
    have h := one hv.1 hv.2.1 fun i j =>
      partialAt (lagrangeJac P).dx (fun b => lfgJac P M B b i j) k
    simp only [Variable.nodeEntry, Variable.boundaryEntry, Variable.objectiveDerivative, h]
    cases P.pc.hasMayer <;> simp
  | u i j k =>
    have h := one hv.1 hv.2.1 fun i j =>
      partialAt (lagrangeJac P).du (fun b => lfgJac P M B b i j) k
    simp only [Variable.nodeEntry, Variable.boundaryEntry, Variable.objectiveDerivative, h]
    cases P.pc.hasMayer <;> simp
  | p k => rfl

end Entries

/-! ## The derivative -/

section Derivative

open RowForm

variable {T : FLGR ℝ} (P : Problem ℝ) (M : Mesh T)

/-- The buffers `B` hold the derivatives, at `x`, of the values `Bx` of the Lagrange and the Mayer
term as functions of the variables. -/
structure ObjectiveDerivatives (Bx : (Fin (getSizes P M).numberVars → ℝ) → Buffers ℝ)
    (B : Buffers ℝ) (x : Fin (getSizes P M).numberVars → ℝ) : Prop where
  lagrange : P.pc.hasLagrange = true → ∀ i j, i < M.intervals → j < M.nodesAt i →
    HasFDerivAt (fun x => lfgEvalL P M (Bx x) i j)
      (form _ fun c => lfgRow P M (getSizes P M) B (lagrangeJac P) i j (unit c)) x
  mayer : P.pc.hasMayer = true → HasFDerivAt (fun x => mrEvalM P (Bx x))
    (form _ fun c => mrRow (getSizes P M) B (mayerJac P) (unit c)) x

/-- What the vector of the gradient holds, whatever it held before. -/
structure ObjectiveGradient (B : Buffers ℝ) : Prop where
  entries : ∀ currGrad : List ℝ, currGrad.length = (getSizes P M).numberVars →
    ∀ v : Variable, v.Ok P M →
      raw (fill currGrad.length (evalGradFInternal P M (getSizes P M) B))
        (v.index (getSizes P M)) = v.objectiveDerivative P M B
  components : ∀ n, n < (getSizes P M).numberVars →
    ∃ v : Variable, v.Ok P M ∧ v.index (getSizes P M) = n
  derivative : ∀ (Bx : (Fin (getSizes P M).numberVars → ℝ) → Buffers ℝ) x,
    ObjectiveDerivatives P M Bx B x →
      HasFDerivAt (fun x => evalFInternal P M (Bx x))
        (form _ (evalGradFInternal P M (getSizes P M) B)) x

theorem objective_hasFDerivAt (hL : JacobianLFGOk P.pc (lagrangeJac P)) (B : Buffers ℝ)
    {Bx : (Fin (getSizes P M).numberVars → ℝ) → Buffers ℝ}
    {x : Fin (getSizes P M).numberVars → ℝ} (hB : ObjectiveDerivatives P M Bx B x) :
    HasFDerivAt (fun x => evalFInternal P M (Bx x))
      (form _ (evalGradFInternal P M (getSizes P M) B)) x := by
  have lagrange : HasFDerivAt (fun x => if P.pc.hasLagrange then
        ∑ i ∈ Finset.range M.intervals, ∑ j ∈ Finset.range (M.nodesAt i),
          nodeWeight M i j * lfgEvalL P M (Bx x) i j else 0)
      (form _ fun c => if P.pc.hasLagrange then
        ∑ i ∈ Finset.range M.intervals, ∑ j ∈ Finset.range (M.nodesAt i),
          nodeWeight M i j * lfgRow P M (getSizes P M) B (lagrangeJac P) i j (unit c)
        else 0) x := by
    cases h : P.pc.hasLagrange with
    | false => exact hasFDerivAt_zero
    | true =>
      refine hasFDerivAt_sum _ fun i hi => hasFDerivAt_sum _ fun j hj => hasFDerivAt_mul _ ?_
      exact hB.lagrange h i j (Finset.mem_range.mp hi) (Finset.mem_range.mp hj)
  have mayer : HasFDerivAt (fun x => if P.pc.hasMayer then mrEvalM P (Bx x) else 0)
      (form _ fun c => if P.pc.hasMayer then
        mrRow (getSizes P M) B (mayerJac P) (unit c) else 0) x := by
    cases h : P.pc.hasMayer with
    | false => exact hasFDerivAt_zero
    | true => exact hB.mayer h
  have row : ∀ c, evalGradFInternal P M (getSizes P M) B c =
      (if P.pc.hasMayer then mrRow (getSizes P M) B (mayerJac P) (unit c) else 0) +
      if P.pc.hasLagrange then
        ∑ i ∈ Finset.range M.intervals, ∑ j ∈ Finset.range (M.nodesAt i),
          nodeWeight M i j * lfgRow P M (getSizes P M) B (lagrangeJac P) i j (unit c) else 0 := by
    intro c
    rw [evalGradFInternal_eq P M B hL, gradRow, add_comm]
  rw [form_congr fun c _ => row c]
  simp only [evalFInternal_eq, objective]
  exact hasFDerivAt_add mayer lagrange

theorem objective_gradient (hL : JacobianLFGOk P.pc (lagrangeJac P))
    (hM : JacobianMROk P.pc (mayerJac P)) (B : Buffers ℝ) : ObjectiveGradient P M B where
  entries := by
    intro currGrad hg v hv
    rw [raw_fill_lt _ (by rw [hg]; exact Variable.index_lt hv), evalGradFInternal_eq P M B hL]
    exact gradRow_index hL hM hv
  components := fun _ hn => Variable.exists_index hn
  derivative := fun _ _ hB => objective_hasFDerivAt P M hL B hB

/-- `L = x`, `M = x(1)` on one interval with one node. -/
noncomputable def travelled : Problem ℝ where
  pc := { hasMayer := true, hasLagrange := true, xBounds := [⟨0, 1⟩], uBounds := [], pBounds := []
          x0Fixed := [none], xfFixed := [none], rBounds := [], gBounds := [] }
  full := { L := some { jac := { dx := [⟨0, 0⟩] } }, f := [{}], g := [] }
  boundary := { M := some { jac := { dxf := [⟨0, 0⟩] } }, r := [] }
  f_length := rfl
  g_length := rfl
  r_length := rfl

/-- The last node gets both parts: `1 * 1 * 2` and `3`, over old entries 7 and 8. -/
theorem objective_gradient_travelled :
    raw (fill 2 (evalGradFInternal travelled integratorMesh (getSizes travelled integratorMesh)
      { Buffers.zero with jac := fun _ => 2, mrJac := fun _ => 3 })) 1 = 5 := by
  have h := (objective_gradient travelled integratorMesh
    ⟨⟨by simp [lagrangeJac, travelled, ProblemConstants.xSize], by simp [lagrangeJac, travelled]⟩,
      ⟨by simp [lagrangeJac, travelled], by simp [lagrangeJac, travelled]⟩,
      ⟨by simp [lagrangeJac, travelled], by simp [lagrangeJac, travelled]⟩⟩
    ⟨⟨by simp [mayerJac, travelled], by simp [mayerJac, travelled]⟩,
      ⟨by simp [mayerJac, travelled, ProblemConstants.xSize], by simp [mayerJac, travelled]⟩,
      ⟨by simp [mayerJac, travelled], by simp [mayerJac, travelled]⟩,
      ⟨by simp [mayerJac, travelled], by simp [mayerJac, travelled]⟩⟩
    { Buffers.zero with jac := fun _ => 2, mrJac := fun _ => 3 }).entries [7, 8] rfl (.x 0 0 0)
    ⟨Nat.one_pos, Nat.one_pos, Nat.one_pos⟩
  refine h.trans ?_
  have hm : travelled.pc.hasMayer = true := rfl
  have hl : travelled.pc.hasLagrange = true := rfl
  have hlast : integratorMesh.isLast 0 0 = true := rfl
  have hw : nodeWeight integratorMesh 0 0 = 1 := by
    simp [nodeWeight, integratorMesh, Mesh.createEquidistantFixedStages, Mesh.deltaTAt, FLGR.getB,
      radauOne]
  simp only [Variable.objectiveDerivative, hm, hl, hlast, hw, Bool.and_self, if_true]
  change (1 : ℝ) * 2 + 3 = 5
  norm_num

end Derivative

end GDOP
end Moo
