import Moo.GDOP.JacobianSlots
import Moo.Lib.RowForm

/-!
# GDOP.JacobianCorrect

The assembled Jacobian is the derivative of the constraints.

* `jacSlots_seg`: coordinates are in range and pairwise distinct. The columns of one row lie in
  consecutive stretches (base point, nodes before, own node, nodes behind, parameters), the rows
  are numbered as the loop nest visits them.
* `rowF_sum`, `rowG_sum`, `rowR_sum`: a row applied to any function of the column.
-/

namespace Moo
namespace GDOP

open Loop Coo Segment

section Coordinates

variable {K : Type} [Field K] {T : FLGR K} (P : Problem K) (M : Mesh T) (B : Buffers K)

/-! ## The columns of a row -/

theorem ColumnsOk.seg {n : Nat} {l : List JacobianSparsity} (h : ColumnsOk n l) (base : Nat) :
    Seg id base (base + n) (l.map fun e => base + e.col) := by
  refine ⟨fun c hc => ?_, ?_⟩
  · obtain ⟨e, he, rfl⟩ := List.mem_map.mp hc
    have := h.range e he
    dsimp only [id]
    omega
  · have hn := h.nodup.map (f := (base + ·)) fun a b hab => Nat.add_left_cancel hab
    rwa [List.map_map] at hn

theorem walk_seg (dfDx : List JacobianSparsity) (fIndex offX base : Nat) :
    Seg id base (base + offX)
      (walkList dfDx fIndex offX (fun _ => base + fIndex) (fun x _ => base + x)) := by
  refine Seg.flatMap_range (b := fun x => base + x) (fun x _ => by omega) fun x _ => ?_
  by_cases h : x = fIndex
  · rw [if_pos h]
    exact Seg.singleton (by dsimp only [id]; omega)
  · rw [if_neg h]
    cases dfDx.find? (·.col == x) with
    | none => exact Seg.nil
    | some e => exact Seg.singleton (by dsimp only [id]; omega)

variable {P M}

/-- The base point of interval `i` lies before its nodes. -/
theorem offPrev_add_le {i : Nat} (hi : i < M.intervals) :
    offPrev M (getSizes P M) i + P.pc.xSize ≤ P.pc.xSize + P.pc.xuSize * M.nodesBefore i := by
  rw [offPrev]
  split
  · omega
  · rename_i h0
    have hi' : i - 1 < M.intervals := by omega
    have hp := M.nodesAt_pos hi'
    have hj : M.nodesAt (i - 1) - 1 < M.nodesAt (i - 1) := by omega
    have hb : M.nodesBefore i = M.nodesBefore (i - 1) + M.nodesAt (i - 1) := by
      rw [← M.nodesBefore_succ, Nat.sub_add_cancel (by omega)]
    have hacc : M.nodesBefore i = M.accNodesAt (i - 1) (M.nodesAt (i - 1) - 1) + 1 := by
      rw [M.accNodesAt_eq hi' hj]
      omega
    rw [getSizes_offAccXu P M hi' hj, hacc, Nat.mul_succ]
    have hxu : P.pc.xuSize = P.pc.xSize + P.pc.uSize := rfl
    omega

variable (P M)

variable (hP : JacobianLayoutOk P)

include hP

theorem rowF_seg {i j fIndex : Nat} (hi : i < M.intervals) (hj : j < M.nodesAt i)
    (hf : fIndex < P.pc.fSize) : Seg id 0 (getSizes P M).numberVars
      ((rowF P M (getSizes P M) B i j fIndex).map Slot.col) := by
  have hfx : fIndex < P.pc.xSize := hf
  have hxu : P.pc.xuSize = P.pc.xSize + P.pc.uSize := rfl
  let start (k : Nat) : Nat := P.pc.xSize + P.pc.xuSize * (M.nodesBefore i + k)
  have hacc : ∀ k, k < M.nodesAt i → (getSizes P M).offAccXu i k = start k := fun k hk => by
    rw [getSizes_offAccXu P M hi hk, M.accNodesAt_eq hi hk]
  have hstep : ∀ k, start (k + 1) = start k + P.pc.xuSize := fun k => by
    dsimp only [start]
    rw [← Nat.add_assoc, Nat.mul_succ, ← Nat.add_assoc]
  have hmono : ∀ k k', k ≤ k' → start k ≤ start k' := fun k k' h =>
    Nat.add_le_add_left (Nat.mul_le_mul_left _ (Nat.add_le_add_left h _)) _
  have hprev : offPrev M (getSizes P M) i + P.pc.xSize ≤ start 0 := offPrev_add_le hi
  have e1 : start 0 ≤ start j := hmono 0 j (Nat.zero_le j)
  have e2 := hstep j
  have e3 := hmono (j + 1) (M.nodesAt i) hj
  have e4 : start (M.nodesAt i) ≤ (getSizes P M).offXuTotal := by
    have hlast := M.nodesBefore_mono (show i + 1 ≤ M.intervals from hi)
    rw [M.nodesBefore_succ, ← M.nodeCount_nodesBefore] at hlast
    rw [getSizes_offXuTotal]
    exact Nat.add_le_add_left (Nat.mul_le_mul_left _ hlast) _
  have hn : (getSizes P M).numberVars = (getSizes P M).offXuTotal + P.pc.pSize := rfl
  -- the six stretches of the row, from left to right
  have s1 : Seg id 0 (start 0) [offPrev M (getSizes P M) i + fIndex] :=
    Seg.singleton (by dsimp only [id]; omega)
  have s2 : Seg id (start 0) (start j)
      ((List.range j).map fun k => (getSizes P M).offAccXu i k + fIndex) :=
    Seg.map_range (b := start) fun k hk => by
      rw [hacc k (by omega)]
      have := hstep k
      dsimp only [id]
      omega
  have s3 := walk_seg (P.full.fAt fIndex).jac.dx fIndex P.pc.xSize
    ((getSizes P M).offAccXu i j)
  have s4 := (hP.fAt hf).du.seg ((getSizes P M).offAccXu i j + (getSizes P M).offX)
  have s5 : Seg id (start (j + 1)) (start (j + 1 + (M.nodesAt i - (j + 1))))
      ((List.range (M.nodesAt i - (j + 1))).map fun k =>
        (getSizes P M).offAccXu i (j + 1 + k) + fIndex) :=
    Seg.map_range (b := fun k => start (j + 1 + k)) fun k hk => by
      rw [hacc (j + 1 + k) (by omega)]
      have := hstep (j + 1 + k)
      rw [Nat.add_assoc (j + 1) k 1] at this
      dsimp only [id]
      omega
  have s6 := (hP.fAt hf).dp.seg (getSizes P M).offXuTotal
  rw [show j + 1 + (M.nodesAt i - (j + 1)) = M.nodesAt i by omega] at s5
  rw [hacc j hj] at s3 s4
  rw [getSizes_offX] at s4
  simp only [rowF, List.map_append, List.map_map, walkList_map, getSizes_offX, hacc j hj]
  refine (((((s1.append s2 (Nat.zero_le _) e1).append s3 ?_ ?_).append s4 ?_ ?_).append
    (s5.mono ?_ le_rfl) ?_ ?_).append (s6.mono e4 ?_) ?_ ?_) <;> omega

theorem rowG_seg {i j gIndex : Nat} (hi : i < M.intervals) (hj : j < M.nodesAt i)
    (hg : gIndex < P.pc.gSize) : Seg id 0 (getSizes P M).numberVars
      ((rowG P M (getSizes P M) B i j gIndex).map Slot.col) := by
  have hxu : P.pc.xuSize = P.pc.xSize + P.pc.uSize := rfl
  have hn : (getSizes P M).numberVars = (getSizes P M).offXuTotal + P.pc.pSize := rfl
  have hend : (getSizes P M).offAccXu i j + P.pc.xuSize ≤ (getSizes P M).offXuTotal := by
    rw [getSizes_offAccXu P M hi hj, getSizes_offXuTotal, Nat.add_assoc, ← Nat.mul_succ]
    exact Nat.add_le_add_left (Nat.mul_le_mul_left _ (M.accNodesAt_lt hi hj)) _
  have s1 := (hP.gAt hg).dx.seg ((getSizes P M).offAccXu i j)
  have s2 := (hP.gAt hg).du.seg ((getSizes P M).offAccXu i j + (getSizes P M).offX)
  have s3 := (hP.gAt hg).dp.seg (getSizes P M).offXuTotal
  rw [getSizes_offX] at s2
  simp only [rowG, List.map_append, List.map_map, getSizes_offX]
  exact (((s1.append s2 (by omega) (by omega)).append (s3.mono (by omega) le_rfl) (by omega)
    (by omega)).mono (Nat.zero_le _) le_rfl)

theorem rowR_seg {rIndex : Nat} (hr : rIndex < P.pc.rSize) :
    Seg id 0 (getSizes P M).numberVars ((rowR P (getSizes P M) B rIndex).map Slot.col) := by
  have hn : (getSizes P M).numberVars = (getSizes P M).offXuTotal + P.pc.pSize := rfl
  have ht : (getSizes P M).offXuTotal = (getSizes P M).offLastXu + P.pc.xuSize := rfl
  have hxu : P.pc.xuSize = P.pc.xSize + P.pc.uSize := rfl
  have hl : P.pc.xSize ≤ (getSizes P M).offLastXu := by
    rw [getSizes_offLastXu]
    omega
  have s1 := (hP.rAt hr).dx0.seg 0
  have s2 := (hP.rAt hr).dxf.seg (getSizes P M).offLastXu
  have s3 := (hP.rAt hr).duf.seg ((getSizes P M).offLastXu + (getSizes P M).offX)
  have s4 := (hP.rAt hr).dp.seg (getSizes P M).offXuTotal
  simp only [Nat.zero_add] at s1
  rw [getSizes_offX] at s3
  simp only [rowR, List.map_append, List.map_map, getSizes_offX]
  exact (((s1.append (s2.mono hl le_rfl) (by omega) (by omega)).append s3 (by omega)
    (by omega)).append (s4.mono (by omega) le_rfl) (by omega) (by omega))

/-! ## All rows -/

omit hP

def Slot.coord (s : Slot K) : Nat × Nat := (s.row, s.col)

omit [Field K] in
/-- The slots of one row, from its columns. -/
theorem row_seg {l : List (Slot K)} {r lo hi : Nat} (hr : ∀ s ∈ l, s.row = r)
    (hc : Seg id lo hi (l.map Slot.col)) : Seg Prod.fst r (r + 1) (l.map Slot.coord) := by
  refine ⟨fun c hc => ?_, ?_⟩
  · obtain ⟨s, hs, rfl⟩ := List.mem_map.mp hc
    have := hr s hs
    dsimp only [Slot.coord]
    omega
  · refine List.Nodup.of_map Prod.snd ?_
    rw [List.map_map]
    exact hc.nodup

theorem rowF_row {i j fIndex : Nat} {off : Offsets} {s : Slot K}
    (hs : s ∈ rowF P M off B i j fIndex) : s.row = off.offAccFg i j + fIndex := by
  simp only [rowF, List.mem_append, List.mem_map, List.mem_singleton] at hs
  rcases hs with ((((rfl | ⟨_, _, rfl⟩) | hs) | ⟨_, _, rfl⟩) | ⟨_, _, rfl⟩) | ⟨_, _, rfl⟩
  · rfl
  · rfl
  · rcases mem_walkList hs with ⟨o, rfl⟩ | ⟨x, e, rfl⟩ <;> rfl
  · rfl
  · rfl
  · rfl

theorem rowG_row {i j gIndex : Nat} {off : Offsets} {s : Slot K}
    (hs : s ∈ rowG P M off B i j gIndex) :
    s.row = off.offAccFg i j + P.pc.fSize + gIndex := by
  simp only [rowG, List.mem_append, List.mem_map] at hs
  rcases hs with (⟨_, _, rfl⟩ | ⟨_, _, rfl⟩) | ⟨_, _, rfl⟩ <;> rfl

omit [Field K] in
theorem rowR_row {rIndex : Nat} {off : Offsets} {s : Slot K} (hs : s ∈ rowR P off B rIndex) :
    s.row = off.offFgTotal + rIndex := by
  simp only [rowR, List.mem_append, List.mem_map] at hs
  rcases hs with ((⟨_, _, rfl⟩ | ⟨_, _, rfl⟩) | ⟨_, _, rfl⟩) | ⟨_, _, rfl⟩ <;> rfl

include hP

theorem nodeSlots_seg {i j : Nat} (hi : i < M.intervals) (hj : j < M.nodesAt i) :
    Seg Prod.fst ((getSizes P M).offAccFg i j) ((getSizes P M).offAccFg i j + P.pc.fgSize)
      ((nodeSlots P M (getSizes P M) B i j).map Slot.coord) := by
  have hfg : P.pc.fgSize = P.pc.fSize + P.pc.gSize := rfl
  have sf := Seg.flatMap_range (n := P.pc.fSize) (w := Prod.fst)
    (b := fun f => (getSizes P M).offAccFg i j + f)
    (g := fun f => (rowF P M (getSizes P M) B i j f).map Slot.coord) (fun f _ => by omega)
    fun f hf => row_seg (fun s hs => rowF_row P M B hs) (rowF_seg P M B hP hi hj hf)
  have sg := Seg.flatMap_range (n := P.pc.gSize) (w := Prod.fst)
    (b := fun g => (getSizes P M).offAccFg i j + P.pc.fSize + g)
    (g := fun g => (rowG P M (getSizes P M) B i j g).map Slot.coord) (fun g _ => by omega)
    fun g hg => row_seg (fun s hs => rowG_row P M B hs) (rowG_seg P M B hP hi hj hg)
  rw [nodeSlots, List.map_append, List.map_flatMap, List.map_flatMap]
  exact (sf.append (sg.mono le_rfl (by omega)) (by omega) (by omega))

theorem intervalSlots_seg {i : Nat} (hi : i < M.intervals) :
    Seg Prod.fst (M.nodesBefore i * P.pc.fgSize) (M.nodesBefore (i + 1) * P.pc.fgSize)
      ((intervalSlots P M (getSizes P M) B i).map Slot.coord) := by
  have s := Seg.flatMap_range (n := M.nodesAt i) (w := Prod.fst)
    (b := fun j => M.nodesBefore i * P.pc.fgSize + j * P.pc.fgSize)
    (g := fun j => (nodeSlots P M (getSizes P M) B i j).map Slot.coord)
    (fun j _ => by rw [Nat.succ_mul]; omega) fun j hj => by
      have hrow := offAccFg_row P M hi hj
      exact (nodeSlots_seg P M B hP hi hj).mono (by omega) (by rw [Nat.succ_mul]; omega)
  rw [intervalSlots, List.map_flatMap, M.nodesBefore_succ, Nat.add_mul]
  exact s.mono (by omega) le_rfl

theorem jacSlots_seg : Seg Prod.fst 0 (getSizes P M).numberConstraints
    ((jacSlots P M (getSizes P M) B).map Slot.coord) := by
  have s1 := Seg.flatMap_range (n := M.intervals) (w := Prod.fst)
    (b := fun i => M.nodesBefore i * P.pc.fgSize)
    (g := fun i => (intervalSlots P M (getSizes P M) B i).map Slot.coord)
    (fun i _ => Nat.mul_le_mul_right _ (M.nodesBefore_mono (Nat.le_succ i)))
    fun i hi => intervalSlots_seg P M B hP hi
  have s2 := Seg.flatMap_range (n := P.pc.rSize) (w := Prod.fst)
    (b := fun r => (getSizes P M).offFgTotal + r)
    (g := fun r => (rowR P (getSizes P M) B r).map Slot.coord) (fun r _ => by omega)
    fun r hr => row_seg (fun s hs => rowR_row P B hs) (rowR_seg P M B hP hr)
  rw [jacSlots, List.map_append, List.map_flatMap, boundarySlots, List.map_flatMap]
  rw [← M.nodeCount_nodesBefore, M.nodesBefore_zero, Nat.zero_mul] at s1
  have ht : (getSizes P M).numberConstraints = (getSizes P M).offFgTotal + P.pc.rSize :=
    Nat.add_comm ..
  have hf : (getSizes P M).offFgTotal = M.nodeCount * P.pc.fgSize := rfl
  exact s1.append (s2.mono (by omega) (by omega)) (Nat.zero_le _) (by omega)

theorem jacSlots_col {s : Slot K} (hs : s ∈ jacSlots P M (getSizes P M) B) :
    s.col < (getSizes P M).numberVars := by
  rcases List.mem_append.mp hs with hs | hs
  · obtain ⟨i, hi, hs⟩ := List.mem_flatMap.mp hs
    obtain ⟨j, hj, hs⟩ := List.mem_flatMap.mp hs
    have hi := List.mem_range.mp hi
    have hj := List.mem_range.mp hj
    rcases List.mem_append.mp hs with hs | hs
    · obtain ⟨f, hf, hs⟩ := List.mem_flatMap.mp hs
      exact ((rowF_seg P M B hP hi hj (List.mem_range.mp hf)).bounds _
        (List.mem_map_of_mem hs)).2
    · obtain ⟨g, hg, hs⟩ := List.mem_flatMap.mp hs
      exact ((rowG_seg P M B hP hi hj (List.mem_range.mp hg)).bounds _
        (List.mem_map_of_mem hs)).2
  · obtain ⟨r, hr, hs⟩ := List.mem_flatMap.mp hs
    exact ((rowR_seg P M B hP (List.mem_range.mp hr)).bounds _ (List.mem_map_of_mem hs)).2

end Coordinates

/-! ## The entries of a row

A row is given by its value on functions `φ` of the column: `φ` the indicator of a column reads
off an entry, `φ` a vector multiplies by it. -/

section Rows

variable {K : Type} [Field K] {T : FLGR K} (P : Problem K) (M : Mesh T) (off : Offsets)
variable (B : Buffers K)

/-- The callback derivatives of one function of the full sweep at node `(i, j)`. -/
def lfgRow (jac : JacobianLFG) (i j : Nat) (φ : Nat → K) : K :=
  (jac.dx.map fun e => lfgJac P M B e.bufIndex i j * φ (off.offAccXu i j + e.col)).sum +
  (jac.du.map fun e => lfgJac P M B e.bufIndex i j * φ (off.offAccXu i j + off.offX + e.col)).sum +
  (jac.dp.map fun e => lfgJac P M B e.bufIndex i j * φ (off.offXuTotal + e.col)).sum

/-- The callback derivatives of one boundary function. -/
def mrRow (jac : JacobianMR) (φ : Nat → K) : K :=
  (jac.dx0.map fun e => mrJac B e.bufIndex * φ e.col).sum +
  (jac.dxf.map fun e => mrJac B e.bufIndex * φ (off.offLastXu + e.col)).sum +
  (jac.duf.map fun e => mrJac B e.bufIndex * φ (off.offLastXu + off.offX + e.col)).sum +
  (jac.dp.map fun e => mrJac B e.bufIndex * φ (off.offXuTotal + e.col)).sum

/-- The collocation part: the differentiation matrix on the states of the base point and of the
nodes of the interval. -/
def collRow (T : FLGR K) (M : Mesh T) (off : Offsets) (i j f : Nat) (φ : Nat → K) : K :=
  T.getD (M.nodesAt i) (j + 1) 0 * φ (offPrev M off i + f) +
    ∑ k ∈ Finset.range (M.nodesAt i),
      T.getD (M.nodesAt i) (j + 1) (k + 1) * φ (off.offAccXu i k + f)

theorem rowG_sum (i j gIndex : Nat) (φ : Nat → K) :
    ((rowG P M off B i j gIndex).map fun s => s.value * φ s.col).sum =
      lfgRow P M off B (P.full.gAt gIndex).jac i j φ := by
  simp only [rowG, List.map_append, List.sum_append, List.map_map]
  rfl

theorem rowR_sum (rIndex : Nat) (φ : Nat → K) :
    ((rowR P off B rIndex).map fun s => s.value * φ s.col).sum =
      mrRow off B (P.boundary.rAt rIndex).jac φ := by
  simp only [rowR, List.map_append, List.sum_append, List.map_map]
  rfl

theorem sum_neg_mul {β : Type} (l : List β) (c : K) (v w : β → K) :
    (l.map fun e => -c * v e * w e).sum = -(c * (l.map fun e => v e * w e).sum) := by
  rw [← neg_mul, ← List.sum_map_mul_left]
  exact congrArg List.sum (List.map_congr_left fun e _ => mul_assoc _ _ _)

theorem rowF_sum (hP : WalksOk P) {i j fIndex : Nat} (hj : j < M.nodesAt i)
    (hf : fIndex < P.pc.fSize) (φ : Nat → K) :
    ((rowF P M (getSizes P M) B i j fIndex).map fun s => s.value * φ s.col).sum =
      collRow T M (getSizes P M) i j fIndex φ - M.deltaTAt i *
        lfgRow P M (getSizes P M) B (P.full.fAt fIndex).jac i j φ := by
  have hw (diag : Option JacobianSparsity → K) := walkList_sum (hP.sorted _ hf) (hP.range _ hf) hf
    diag
    (fun x e => (0 - M.deltaTAt i * lfgJac P M B e.bufIndex i j) *
      φ ((getSizes P M).offAccXu i j + x))
    (T.getD (M.nodesAt i) (j + 1) (j + 1) * φ ((getSizes P M).offAccXu i j + fIndex))
    (fun e => -M.deltaTAt i * lfgJac P M B e.bufIndex i j *
      φ ((getSizes P M).offAccXu i j + e.col))
  have hsplit := Finset.sum_range_add (fun k => T.getD (M.nodesAt i) (j + 1) (k + 1) *
    φ ((getSizes P M).offAccXu i k + fIndex)) (j + 1) (M.nodesAt i - (j + 1))
  rw [Nat.add_sub_cancel' hj, Finset.sum_range_succ] at hsplit
  simp only [rowF, List.map_append, List.sum_append, List.map_map, walkList_map]
  rw [collRow, hsplit, lfgRow, ← sum_map_range, ← sum_map_range]
  refine (congrArg₂ (· + ·) (congrArg₂ (· + ·) (congrArg₂ (· + ·) (congrArg₂ (· + ·) rfl
    (hw _ ?_ ?_)) (sum_neg_mul _ _ _ _)) rfl) (sum_neg_mul _ _ _ _)).trans ?_
  · intro o ho
    cases o with
    | none => simp [Slot.value]
    | some e =>
      have he := ho e (by simp)
      simp only [Slot.value, Option.getD_some, Option.toList_some, List.map_cons, List.map_nil,
        List.sum_singleton, he]
      ring
  · intro e
    ring
  · rw [sum_neg_mul]
    simp only [List.map_cons, List.map_nil, List.sum_singleton]
    simp only [Function.comp_def, Slot.value, Option.getD_some, id]
    ring

/-! Of all slots those of its own row matter to a row. -/

theorem nodeSlots_row {i j : Nat} {s : Slot K} (hs : s ∈ nodeSlots P M off B i j) :
    off.offAccFg i j ≤ s.row ∧ s.row < off.offAccFg i j + P.pc.fgSize := by
  have hfg : P.pc.fgSize = P.pc.fSize + P.pc.gSize := rfl
  rcases List.mem_append.mp hs with hs | hs
  · obtain ⟨f, hf, hs⟩ := List.mem_flatMap.mp hs
    have := List.mem_range.mp hf
    rw [rowF_row P M B hs]
    omega
  · obtain ⟨g, hg, hs⟩ := List.mem_flatMap.mp hs
    have := List.mem_range.mp hg
    rw [rowG_row P M B hs]
    omega

theorem intervalSlots_row {i : Nat} (hi : i < M.intervals) {s : Slot K}
    (hs : s ∈ intervalSlots P M (getSizes P M) B i) :
    M.nodesBefore i * P.pc.fgSize ≤ s.row ∧ s.row < M.nodesBefore (i + 1) * P.pc.fgSize := by
  obtain ⟨j, hj, hs⟩ := List.mem_flatMap.mp hs
  have hj := List.mem_range.mp hj
  have h := nodeSlots_row P M _ B hs
  have hle := mul_succ_le (c := P.pc.fgSize) hj
  rw [offAccFg_row P M hi hj] at h
  rw [M.nodesBefore_succ, Nat.add_mul]
  omega

variable (F : Slot K → K)

theorem jacSlots_sum_node {i j y : Nat} (hi : i < M.intervals) (hj : j < M.nodesAt i)
    (hy : y < P.pc.fgSize) :
    ((jacSlots P M (getSizes P M) B).map fun s =>
      if s.row = (getSizes P M).offAccFg i j + y then F s else 0).sum =
    ((nodeSlots P M (getSizes P M) B i j).map fun s =>
      if s.row = (getSizes P M).offAccFg i j + y then F s else 0).sum := by
  have hrow := offAccFg_row P M hi hj
  have hlt := mul_succ_le (c := P.pc.fgSize) hj
  have htot := mul_succ_le (c := P.pc.fgSize) (M.accNodesAt_lt hi hj)
  rw [jacSlots, List.map_append, List.sum_append, sum_segment (w := Slot.row) F
    (b := fun i => M.nodesBefore i * P.pc.fgSize)
    (fun i _ => Nat.mul_le_mul_right _ (M.nodesBefore_mono (Nat.le_succ i)))
    (fun i hi _ hs => intervalSlots_row P M B hi hs) hi
    ⟨by omega, by rw [M.nodesBefore_succ, Nat.add_mul]; omega⟩]
  rw [intervalSlots, sum_segment (w := Slot.row) F
    (b := fun j => M.nodesBefore i * P.pc.fgSize + j * P.pc.fgSize)
    (fun j _ => by rw [Nat.succ_mul]; omega)
    (fun j hj s hs => by
      have h := nodeSlots_row P M _ B hs
      rw [offAccFg_row P M hi hj] at h
      rw [Nat.succ_mul]
      omega) hj ⟨by omega, by rw [Nat.succ_mul]; omega⟩]
  rw [sum_eq_zero_of_key (w := Slot.row) (boundarySlots P (getSizes P M) B), add_zero]
  intro s hs
  obtain ⟨r, _, hs⟩ := List.mem_flatMap.mp hs
  rw [rowR_row P B hs, getSizes_offFgTotal, getSizes_offAccFg P M hi hj]
  omega

theorem jacSlots_sum_f {i j f : Nat} (hi : i < M.intervals) (hj : j < M.nodesAt i)
    (hf : f < P.pc.fSize) :
    ((jacSlots P M (getSizes P M) B).map fun s =>
      if s.row = (getSizes P M).offAccFg i j + f then F s else 0).sum =
    ((rowF P M (getSizes P M) B i j f).map F).sum := by
  rw [jacSlots_sum_node P M B F hi hj (Nat.lt_add_right _ hf), nodeSlots, List.map_append,
    List.sum_append, sum_segment (w := Slot.row) F (b := fun f => (getSizes P M).offAccFg i j + f)
    (fun f _ => by omega) (fun f _ s hs => by rw [rowF_row P M B hs]; omega) hf (by omega),
    sum_of_key (w := Slot.row) _ _ fun s hs => rowF_row P M B hs,
    sum_eq_zero_of_key (w := Slot.row), add_zero]
  intro s hs
  obtain ⟨g, _, hs⟩ := List.mem_flatMap.mp hs
  rw [rowG_row P M B hs]
  omega

theorem jacSlots_sum_g {i j g : Nat} (hi : i < M.intervals) (hj : j < M.nodesAt i)
    (hg : g < P.pc.gSize) :
    ((jacSlots P M (getSizes P M) B).map fun s =>
      if s.row = (getSizes P M).offAccFg i j + P.pc.fSize + g then F s else 0).sum =
    ((rowG P M (getSizes P M) B i j g).map F).sum := by
  have h := jacSlots_sum_node P M B F hi hj (Nat.add_lt_add_left hg P.pc.fSize)
  rw [← Nat.add_assoc] at h
  rw [h, nodeSlots, List.map_append, List.sum_append, sum_segment (w := Slot.row) F
    (b := fun g => (getSizes P M).offAccFg i j + P.pc.fSize + g)
    (fun g _ => by omega) (fun g _ s hs => by rw [rowG_row P M B hs]; omega) hg (by omega),
    sum_of_key (w := Slot.row) _ _ fun s hs => rowG_row P M B hs,
    sum_eq_zero_of_key (w := Slot.row), zero_add]
  intro s hs
  obtain ⟨f, hf, hs⟩ := List.mem_flatMap.mp hs
  have := List.mem_range.mp hf
  rw [rowF_row P M B hs]
  omega

theorem jacSlots_sum_r {r : Nat} (hr : r < P.pc.rSize) :
    ((jacSlots P M (getSizes P M) B).map fun s =>
      if s.row = (getSizes P M).offFgTotal + r then F s else 0).sum =
    ((rowR P (getSizes P M) B r).map F).sum := by
  rw [jacSlots, List.map_append, List.sum_append, boundarySlots, sum_segment (w := Slot.row) F
    (b := fun r => (getSizes P M).offFgTotal + r) (fun r _ => by omega)
    (fun r _ s hs => by rw [rowR_row P B hs]; omega) hr (by omega),
    sum_of_key (w := Slot.row) _ _ fun s hs => rowR_row P B hs,
    sum_eq_zero_of_key (w := Slot.row), zero_add]
  intro s hs
  obtain ⟨i, hi, hs⟩ := List.mem_flatMap.mp hs
  have hi := List.mem_range.mp hi
  have h := intervalSlots_row P M B hi hs
  have hle := Nat.mul_le_mul_right P.pc.fgSize
    (M.nodesBefore_mono (show i + 1 ≤ M.intervals from hi))
  rw [← M.nodeCount_nodesBefore] at hle
  rw [getSizes_offFgTotal]
  omega

end Rows

/-! ## The matrix -/

section Matrix

variable {K : Type} [Field K] {T : FLGR K} (P : Problem K) (M : Mesh T) (B : Buffers K)

/-- `get_jac_sparsity` after `init_jacobian_nonzeros`: `const_der_jac` is freshly allocated and
zero, the coordinate arrays hold anything. -/
def assembledPattern (rows cols : Nat → Nat) : Tape (JacCell K) :=
  getJacSparsity P M (getSizes P M) (initJacobianNonzeros P M (getSizes P M).offX).1
    fun k => ⟨rows k, cols k, 0⟩

def assembledValues (rows cols : Nat → Nat) : Tape K :=
  evalJacGInternal P M (getSizes P M) B (initJacobianNonzeros P M (getSizes P M).offX).1
    fun k => ((assembledPattern P M rows cols).cells k).der

/-- The matrix of the coordinates and the values. -/
def jacMatrix (rows cols : Nat → Nat) : Nat → Nat → K :=
  coo (initJacobianNonzeros P M (getSizes P M).offX).2
    (fun k => ((assembledPattern P M rows cols).cells k).row)
    (fun k => ((assembledPattern P M rows cols).cells k).col)
    (assembledValues P M B rows cols).cells

/-- The indicator of column `c`. -/
def unit (c : Nat) : Nat → K := fun k => if k = c then 1 else 0

variable (hP : WalksOk P) (rows cols : Nat → Nat)

include hP

theorem assembledPattern_at {k : Nat} (hk : k < (jacSlots P M (getSizes P M) B).length) :
    (assembledPattern P M rows cols).cells k =
      ⟨(jacSlots P M (getSizes P M) B)[k].row, (jacSlots P M (getSizes P M) B)[k].col,
        (jacSlots P M (getSizes P M) B)[k].der.getD 0⟩ := by
  have h := Tape.run_cells_at ((jacSlots P M (getSizes P M) B).map Slot.pat)
    ⟨0, fun k => ⟨rows k, cols k, 0⟩⟩ (k := k) (by rwa [List.length_map])
  rw [assembledPattern, getSizes_offX, getJacSparsity_eq P M B hP]
  simp only [Nat.zero_add] at h
  rw [h, List.getElem_map, Slot.pat]
  cases (jacSlots P M (getSizes P M) B)[k].der <;> rfl

theorem assembledValues_at {k : Nat} (hk : k < (jacSlots P M (getSizes P M) B).length) :
    (assembledValues P M B rows cols).cells k = (jacSlots P M (getSizes P M) B)[k].value := by
  have h := Tape.run_cells_at ((jacSlots P M (getSizes P M) B).map Slot.val)
    ⟨0, fun k => ((assembledPattern P M rows cols).cells k).der⟩ (k := k)
    (by rwa [List.length_map])
  rw [assembledValues, getSizes_offX, evalJacGInternal_eq P M B hP]
  simp only [Nat.zero_add] at h
  rw [h, List.getElem_map, assembledPattern_at P M B hP rows cols hk, Slot.value]

theorem jacMatrix_eq (r c : Nat) : jacMatrix P M B rows cols r c =
    ((jacSlots P M (getSizes P M) B).map fun s =>
      if s.row = r then s.value * unit c s.col else 0).sum := by
  rw [jacMatrix, getSizes_offX, nnzJac_eq P M B hP, coo_list (jacSlots P M (getSizes P M) B)
    Slot.row Slot.col Slot.value fun k hk => ⟨by rw [assembledPattern_at P M B hP rows cols hk],
      by rw [assembledPattern_at P M B hP rows cols hk], assembledValues_at P M B hP rows cols hk⟩]
  refine congrArg List.sum (List.map_congr_left fun s _ => ?_)
  by_cases hr : s.row = r <;> by_cases hc : s.col = c <;> simp [hr, hc, unit]

theorem jacMatrix_f {i j f : Nat} (hi : i < M.intervals) (hj : j < M.nodesAt i)
    (hf : f < P.pc.fSize) (c : Nat) :
    jacMatrix P M B rows cols ((getSizes P M).offAccFg i j + f) c =
      collRow T M (getSizes P M) i j f (unit c) - M.deltaTAt i *
        lfgRow P M (getSizes P M) B (P.full.fAt f).jac i j (unit c) := by
  rw [jacMatrix_eq P M B hP, jacSlots_sum_f P M B _ hi hj hf, rowF_sum P M B hP hj hf]

theorem jacMatrix_g {i j g : Nat} (hi : i < M.intervals) (hj : j < M.nodesAt i)
    (hg : g < P.pc.gSize) (c : Nat) :
    jacMatrix P M B rows cols ((getSizes P M).offAccFg i j + P.pc.fSize + g) c =
      lfgRow P M (getSizes P M) B (P.full.gAt g).jac i j (unit c) := by
  rw [jacMatrix_eq P M B hP, jacSlots_sum_g P M B _ hi hj hg, rowG_sum]

theorem jacMatrix_r {r : Nat} (hr : r < P.pc.rSize) (c : Nat) :
    jacMatrix P M B rows cols ((getSizes P M).offFgTotal + r) c =
      mrRow (getSizes P M) B (P.boundary.rAt r).jac (unit c) := by
  rw [jacMatrix_eq P M B hP, jacSlots_sum_r P M B _ hr, rowR_sum]

end Matrix

/-! ## The derivative -/

section Derivative

open RowForm

variable {T : FLGR ℝ} (P : Problem ℝ) (M : Mesh T)

/-- The buffers `B` hold the derivatives, at `x`, of the callback values `Bx` as functions of the
variables: the chain rule through the variables each callback is handed. -/
structure CallbackDerivatives (Bx : (Fin (getSizes P M).numberVars → ℝ) → Buffers ℝ)
    (B : Buffers ℝ) (x : Fin (getSizes P M).numberVars → ℝ) : Prop where
  f : ∀ i j f, i < M.intervals → j < M.nodesAt i → f < P.pc.fSize →
    HasFDerivAt (fun x => lfgEvalF P M (Bx x) f i j)
      (form _ fun c => lfgRow P M (getSizes P M) B (P.full.fAt f).jac i j (unit c)) x
  g : ∀ i j g, i < M.intervals → j < M.nodesAt i → g < P.pc.gSize →
    HasFDerivAt (fun x => lfgEvalG P M (Bx x) g i j)
      (form _ fun c => lfgRow P M (getSizes P M) B (P.full.gAt g).jac i j (unit c)) x
  r : ∀ r, r < P.pc.rSize → HasFDerivAt (fun x => mrEvalR P (Bx x) r)
      (form _ fun c => mrRow (getSizes P M) B (P.boundary.rAt r).jac (unit c)) x

theorem collRow_hasFDerivAt (i j f : Nat) (x : Fin (getSizes P M).numberVars → ℝ) :
    HasFDerivAt (fun x => collRow T M (getSizes P M) i j f (extend x))
      (form _ fun c => collRow T M (getSizes P M) i j f (unit c)) x :=
  hasFDerivAt_add (hasFDerivAt_mul _ (hasFDerivAt_extend x _))
    (hasFDerivAt_sum _ fun _ _ => hasFDerivAt_mul _ (hasFDerivAt_extend x _))

/-- The assembled matrix is the derivative of the constraints. -/
theorem evalGInternal_hasFDerivAt (hP : JacobianLayoutOk P) (B : Buffers ℝ) (rows cols : Nat → Nat)
    {Bx : (Fin (getSizes P M).numberVars → ℝ) → Buffers ℝ}
    {x : Fin (getSizes P M).numberVars → ℝ} (hB : CallbackDerivatives P M Bx B x) {r : Nat}
    (hr : r < (getSizes P M).numberConstraints) :
    HasFDerivAt (fun x => evalGInternal P M (getSizes P M) (Bx x) (extend x) r)
      (form _ (jacMatrix P M B rows cols r)) x := by
  rcases constraint_cases P M hr with ⟨i, j, f, hi, hj, hf, rfl⟩ | ⟨i, j, g, hi, hj, hg, rfl⟩ |
    ⟨b, hb, rfl⟩
  · simp only [evalGInternal_f P M _ _ hi hj hf]
    rw [form_congr fun c _ => jacMatrix_f P M B hP.walks rows cols hi hj hf c]
    exact hasFDerivAt_sub (collRow_hasFDerivAt P M i j f x)
      (hasFDerivAt_mul _ (hB.f i j f hi hj hf))
  · simp only [evalGInternal_g P M _ _ hi hj hg]
    rw [form_congr fun c _ => jacMatrix_g P M B hP.walks rows cols hi hj hg c]
    exact hB.g i j g hi hj hg
  · simp only [evalGInternal_r P M _ _ hb]
    rw [form_congr fun c _ => jacMatrix_r P M B hP.walks rows cols hb c]
    exact hB.r b hb

/-- What the assembly has to achieve. The counters of both loop nests meet the closed-form counts
at the end of every interval and of the whole; the coordinates are in range and distinct; the
entries are those of the collocation scheme and of the callbacks, and so the derivative. -/
structure JacobianAssembly (B : Buffers ℝ) (rows cols : Nat → Nat) : Prop where
  interval_pos : ∀ i, i < M.intervals → ∀ t,
    (jacSparsityInterval P M (getSizes P M) (initJacobianNonzeros P M (getSizes P M).offX).1 i
      t).pos = (initJacobianNonzeros P M (getSizes P M).offX).1 (i + 1)
  interval_pos_values : ∀ i, i < M.intervals → ∀ t,
    (evalJacInterval P M (getSizes P M) B (initJacobianNonzeros P M (getSizes P M).offX).1 i
      t).pos = (initJacobianNonzeros P M (getSizes P M).offX).1 (i + 1)
  pos : (assembledPattern P M rows cols).pos = (initJacobianNonzeros P M (getSizes P M).offX).2
  pos_values : (assembledValues P M B rows cols).pos =
    (initJacobianNonzeros P M (getSizes P M).offX).2
  in_range : ∀ k, k < (initJacobianNonzeros P M (getSizes P M).offX).2 →
    ((assembledPattern P M rows cols).cells k).row < (getSizes P M).numberConstraints ∧
    ((assembledPattern P M rows cols).cells k).col < (getSizes P M).numberVars
  distinct : ∀ k k', k < (initJacobianNonzeros P M (getSizes P M).offX).2 →
    k' < (initJacobianNonzeros P M (getSizes P M).offX).2 →
    ((assembledPattern P M rows cols).cells k).row =
      ((assembledPattern P M rows cols).cells k').row →
    ((assembledPattern P M rows cols).cells k).col =
      ((assembledPattern P M rows cols).cells k').col → k = k'
  entries_f : ∀ i j f, i < M.intervals → j < M.nodesAt i → f < P.pc.fSize → ∀ c,
    jacMatrix P M B rows cols ((getSizes P M).offAccFg i j + f) c =
      collRow T M (getSizes P M) i j f (unit c) - M.deltaTAt i *
        lfgRow P M (getSizes P M) B (P.full.fAt f).jac i j (unit c)
  entries_g : ∀ i j g, i < M.intervals → j < M.nodesAt i → g < P.pc.gSize → ∀ c,
    jacMatrix P M B rows cols ((getSizes P M).offAccFg i j + P.pc.fSize + g) c =
      lfgRow P M (getSizes P M) B (P.full.gAt g).jac i j (unit c)
  entries_r : ∀ r, r < P.pc.rSize → ∀ c,
    jacMatrix P M B rows cols ((getSizes P M).offFgTotal + r) c =
      mrRow (getSizes P M) B (P.boundary.rAt r).jac (unit c)
  derivative : ∀ (Bx : (Fin (getSizes P M).numberVars → ℝ) → Buffers ℝ) x,
    CallbackDerivatives P M Bx B x → ∀ r, r < (getSizes P M).numberConstraints →
      HasFDerivAt (fun x => evalGInternal P M (getSizes P M) (Bx x) (extend x) r)
        (form _ (jacMatrix P M B rows cols r)) x

theorem jacobian_assembly (hP : JacobianLayoutOk P) (B : Buffers ℝ) (rows cols : Nat → Nat) :
    JacobianAssembly P M B rows cols where
  interval_pos := fun i hi t => jacSparsityInterval_pos P M B hP.walks hi t
  interval_pos_values := fun i hi t => evalJacInterval_pos P M B hP.walks hi t
  pos := by
    rw [assembledPattern, getSizes_offX, getJacSparsity_eq P M B hP.walks, Tape.run_pos,
      nnzJac_eq P M B hP.walks, List.length_map, Nat.zero_add]
  pos_values := by
    rw [assembledValues, getSizes_offX, evalJacGInternal_eq P M B hP.walks, Tape.run_pos,
      nnzJac_eq P M B hP.walks, List.length_map, Nat.zero_add]
  in_range := by
    intro k hk
    rw [getSizes_offX, nnzJac_eq P M B hP.walks] at hk
    have hmem := List.getElem_mem hk
    rw [assembledPattern_at P M B hP.walks rows cols hk]
    exact ⟨((jacSlots_seg P M B hP).bounds _ (List.mem_map_of_mem hmem)).2,
      jacSlots_col P M B hP hmem⟩
  distinct := by
    intro k k' hk hk' hr hc
    rw [getSizes_offX, nnzJac_eq P M B hP.walks] at hk hk'
    rw [assembledPattern_at P M B hP.walks rows cols hk,
      assembledPattern_at P M B hP.walks rows cols hk'] at hr hc
    have hl : k < ((jacSlots P M (getSizes P M) B).map Slot.coord).length := by
      rwa [List.length_map]
    have hl' : k' < ((jacSlots P M (getSizes P M) B).map Slot.coord).length := by
      rwa [List.length_map]
    have e : ((jacSlots P M (getSizes P M) B).map Slot.coord)[k] =
        ((jacSlots P M (getSizes P M) B).map Slot.coord)[k'] := by
      rw [List.getElem_map, List.getElem_map]
      exact Prod.ext hr hc
    exact (jacSlots_seg P M B hP).nodup.getElem_inj_iff.mp e
  entries_f := fun _ _ _ hi hj hf c => jacMatrix_f P M B hP.walks rows cols hi hj hf c
  entries_g := fun _ _ _ hi hj hg c => jacMatrix_g P M B hP.walks rows cols hi hj hg c
  entries_r := fun _ hr c => jacMatrix_r P M B hP.walks rows cols hr c
  derivative := fun _ _ hB _ hr => evalGInternal_hasFDerivAt P M hP B rows cols hB hr

/-! `x' = u` on one interval with one node: the collocation constraint is `-x0 + x1 - u`. -/

section Integrator

noncomputable def radauOne : FLGR ℝ where
  c := fun _ => 1
  c0 := fun k => k
  b := fun _ => 1
  w := fun _ => 1
  w0 := fun _ => 1
  D := fun k => if k % 2 = 1 then -1 else 1

noncomputable def integratorMesh : Mesh radauOne :=
  Mesh.createEquidistantFixedStages radauOne 1 1 1 Nat.one_pos Nat.one_pos

noncomputable def integrator : Problem ℝ where
  pc := { hasMayer := false, hasLagrange := false, xBounds := [⟨0, 1⟩], uBounds := [⟨-1, 1⟩]
          pBounds := [], x0Fixed := [none], xfFixed := [none], rBounds := [], gBounds := [] }
  full := { f := [{ jac := { dx := [⟨0, 0⟩], du := [⟨0, 1⟩] } }], g := [] }
  boundary := { r := [] }
  f_length := rfl
  g_length := rfl
  r_length := by decide

theorem integrator_layoutOk : JacobianLayoutOk integrator where
  f := by
    intro fn hfn
    rw [List.mem_singleton.mp hfn]
    exact ⟨⟨by simp [integrator, ProblemConstants.xSize], by simp⟩,
      ⟨by simp [integrator, ProblemConstants.uSize], by simp⟩, ⟨by simp, by simp⟩⟩
  g := by simp [integrator]
  r := by simp [integrator]
  f_sorted := by
    intro fn hfn
    rw [List.mem_singleton.mp hfn]
    simp

/-- The callbacks of the integrator: `f = u`, `df / dx = 0`, `df / du = 1`. -/
noncomputable def integratorBuffers (x : Fin (getSizes integrator integratorMesh).numberVars → ℝ) :
    Buffers ℝ where
  eval := fun _ => extend x 2
  jac := fun k => if k = 1 then 1 else 0
  hes := fun _ => 0
  ppHes := fun _ => 0
  mrEval := fun _ => 0
  mrJac := fun _ => 0
  mrHes := fun _ => 0

theorem integrator_callbacks (x : Fin (getSizes integrator integratorMesh).numberVars → ℝ) :
    CallbackDerivatives integrator integratorMesh integratorBuffers (integratorBuffers x) x where
  f := by
    intro i j f hi hj hf
    obtain rfl : i = 0 := Nat.lt_one_iff.mp hi
    obtain rfl : j = 0 := Nat.lt_one_iff.mp hj
    obtain rfl : f = 0 := Nat.lt_one_iff.mp hf
    have hrow : (fun c => lfgRow integrator integratorMesh (getSizes integrator integratorMesh)
        (integratorBuffers x) (integrator.full.fAt 0).jac 0 0 (unit c)) =
        fun c => if 2 = c then 1 else 0 := by
      funext c
      have hacc : (getSizes integrator integratorMesh).offAccXu 0 0 = 1 := rfl
      have hnode : integratorMesh.accNodesAt 0 0 = 0 := rfl
      have hfn : (integrator.full.fAt 0).jac = { dx := [⟨0, 0⟩], du := [⟨0, 1⟩] } := rfl
      have hx : integrator.pc.xSize = 1 := rfl
      simp [lfgRow, hfn, hacc, hx, lfgJac, hnode, integratorBuffers, unit]
    rw [hrow]
    exact hasFDerivAt_extend x 2
  g := fun _ _ _ _ _ hg => absurd hg (Nat.not_lt_zero _)
  r := fun _ hr => absurd hr (Nat.not_lt_zero _)

theorem jacobian_assembly_integrator :
    HasFDerivAt (fun x => evalGInternal integrator integratorMesh
        (getSizes integrator integratorMesh) (integratorBuffers x) (extend x) 0)
      (form _ (jacMatrix integrator integratorMesh (integratorBuffers fun _ => 1) id id 0))
      (fun _ => 1) :=
  (jacobian_assembly integrator integratorMesh integrator_layoutOk (integratorBuffers fun _ => 1)
    id id).derivative integratorBuffers _ (integrator_callbacks _) 0 Nat.one_pos

end Integrator

end Derivative

end GDOP
end Moo
