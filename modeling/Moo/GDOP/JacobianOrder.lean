import Moo.GDOP.Instance
import Moo.GDOP.JacobianCorrect
import Moo.Lib.Ascent

/-!
# GDOP.JacobianOrder

The Jacobian of layouts whose state columns are in any order.

* `walkDfDx_ascent`: the merged walk follows the columns as long as they ascend, and finds nothing
  of what comes behind.
* `Problem.seen`: the problem that is left then. Both loop nests write its slots.
* `intervalsEnd_iff`: the counters meet the closed-form counts exactly if only entries of the own
  state are lost. `jacMatrix_seen`: the matrix is then that of `Problem.seen`.
* `mem_dx_of_lfgRow`: the state entries of a row are known from the row.
-/

namespace Moo

open Ascent

/-! ## Functions -/

def JacobianLFG.seen (jac : JacobianLFG) : JacobianLFG :=
  { jac with dx := ascent JacobianSparsity.col jac.dx }

def FunctionLFG.seen (fn : FunctionLFG) : FunctionLFG := { fn with jac := fn.jac.seen }

/-- The state entries of a function that no walk finds. -/
def FunctionLFG.unseen (fn : FunctionLFG) : List JacobianSparsity :=
  descent JacobianSparsity.col fn.jac.dx

theorem FunctionLFG.seen_nnz (fn : FunctionLFG) :
    fn.jac.nnz = fn.seen.jac.nnz + fn.unseen.length := by
  have h := congrArg List.length
    (ascent_append_descent (w := JacobianSparsity.col) (l := fn.jac.dx))
  rw [List.length_append] at h
  unfold JacobianLFG.nnz FunctionLFG.unseen FunctionLFG.seen JacobianLFG.seen
  dsimp only
  omega

namespace GDOP

open Loop Coo Segment

/-! ## The merged walk -/

section Walk

variable {dfDx : List JacobianSparsity}

/-- The counter stands in the ascent, and all columns before it are below `x`. -/
structure Follows (dfDx : List JacobianSparsity) (c x : Nat) : Prop where
  le : c ≤ (ascent JacobianSparsity.col dfDx).length
  below : ∀ e ∈ (ascent JacobianSparsity.col dfDx).take c, e.col < x

theorem getD_ascent {c : Nat} (h : c < (ascent JacobianSparsity.col dfDx).length) :
    dfDx.getD c ⟨0, 0⟩ = (ascent JacobianSparsity.col dfDx).getD c ⟨0, 0⟩ := by
  conv_lhs => rw [← ascent_append_descent (w := JacobianSparsity.col) (l := dfDx)]
  exact List.getD_append _ _ _ _ h

theorem Follows.hits {c x : Nat} (h : Follows dfDx c x) :
    hits dfDx c x = hits (ascent JacobianSparsity.col dfDx) c x := by
  unfold GDOP.hits
  rcases Nat.lt_or_eq_of_le h.le with hlt | heq
  · have hlt' := Nat.lt_of_lt_of_le hlt
      (List.IsPrefix.length_le (ascent_starts (w := JacobianSparsity.col) (l := dfDx)))
    simp only [hlt, hlt', getD_ascent hlt]
  · have hA : decide (c < (ascent JacobianSparsity.col dfDx).length) = false := by simp [heq]
    rw [hA, Bool.false_and]
    by_cases hc : c < dfDx.length
    · -- the entry behind the ascent has a column that the walk has passed
      have hnext : dfDx[(ascent JacobianSparsity.col dfDx).length]? =
          some (dfDx.getD c ⟨0, 0⟩) := by
        rw [← heq, List.getD_eq_getElem _ _ hc]
        exact List.getElem?_eq_getElem hc
      obtain ⟨a, ha, hle⟩ := ascent_next hnext
      have hx := h.below a (by rw [heq, List.take_length]; exact ha)
      have hne : ¬ (dfDx.getD c ⟨0, 0⟩).col = x := by omega
      rw [beq_eq_false_iff_ne.mpr hne, Bool.and_false]
    · simp [hc]

theorem Follows.step {c x : Nat} (h : Follows dfDx c x) :
    Follows dfDx (if GDOP.hits dfDx c x then c + 1 else c) (x + 1) := by
  rw [h.hits]
  split
  · rename_i hh
    unfold GDOP.hits at hh
    obtain ⟨hlt, hcol⟩ := Bool.and_eq_true_iff.mp hh
    have hlt := of_decide_eq_true hlt
    rw [List.getD_eq_getElem _ _ hlt, beq_iff_eq] at hcol
    refine ⟨hlt, fun e he => ?_⟩
    rw [← List.take_concat_get' _ _ hlt] at he
    rcases List.mem_append.mp he with he | he
    · exact Nat.lt_succ_of_lt (h.below e he)
    · rw [List.mem_singleton.mp he, hcol]
      exact Nat.lt_succ_self x
  · exact ⟨h.le, fun e he => Nat.lt_succ_of_lt (h.below e he)⟩

theorem walkDfDx_ascent {α : Type} (dfDx : List JacobianSparsity) (fIndex offX : Nat)
    (diag : Option JacobianSparsity → α → α) (elem : Nat → JacobianSparsity → α → α)
    (t : Tape α) : walkDfDx dfDx fIndex offX diag elem t =
      walkDfDx (ascent JacobianSparsity.col dfDx) fIndex offX diag elem t := by
  have inv := forRange_inv (n := offX)
    (P := fun x (s : Tape α × Nat) =>
      s = forRange x (walkStep (ascent JacobianSparsity.col dfDx) fIndex diag elem) (t, 0) ∧
        Follows dfDx s.2 x)
    (f := walkStep dfDx fIndex diag elem) (s := (t, 0)) ⟨rfl, Nat.zero_le _, by simp⟩ ?_
  · rw [walkDfDx_forRange, walkDfDx_forRange, ← inv.1]
  · rintro x - s ⟨hs, hc⟩
    have hstep := hc.step
    rw [forRange_succ, ← hs]
    have hh := hc.hits
    have hget : hits (ascent JacobianSparsity.col dfDx) s.2 x = true →
        dfDx.getD s.2 ⟨0, 0⟩ = (ascent JacobianSparsity.col dfDx).getD s.2 ⟨0, 0⟩ :=
      fun h => getD_ascent (of_decide_eq_true (Bool.and_eq_true_iff.mp h).1)
    unfold walkStep
    by_cases hx : x = fIndex <;>
      by_cases ht : hits (ascent JacobianSparsity.col dfDx) s.2 x = true
    · rw [if_pos (hh.trans ht)] at hstep
      simp only [if_pos hx, hh, if_pos ht, hget ht]
      exact ⟨trivial, hstep⟩
    · rw [if_neg (hh ▸ ht)] at hstep
      simp only [if_pos hx, hh, if_neg ht]
      exact ⟨trivial, hstep⟩
    · rw [if_pos (hh.trans ht)] at hstep
      simp only [if_neg hx, hh, if_pos ht, hget ht]
      exact ⟨trivial, hstep⟩
    · rw [if_neg (hh ▸ ht)] at hstep
      simp only [if_neg hx, hh, if_neg ht]
      exact ⟨trivial, hstep⟩

end Walk

/-! ## What is left of a problem -/

section Seen

/-- The unseen entries are put with the Lagrange term, which no constraint reads: the windows of
the Jacobian buffer keep their size. -/
def Problem.seen {K : Type} (P : Problem K) : Problem K :=
  { P with
    full := { P.full with
      L := some { (P.full.L.getD {}) with
        jac := { (P.full.L.getD {}).jac with
          dp := (P.full.L.getD {}).jac.dp ++ P.full.f.flatMap FunctionLFG.unseen } }
      f := P.full.f.map FunctionLFG.seen }
    f_length := (List.length_map _).trans P.f_length }

variable {K : Type} (P : Problem K)

theorem seen_fAt (f : Nat) : P.seen.full.fAt f = (P.full.fAt f).seen := by
  show (P.full.f.map FunctionLFG.seen).getD f (FunctionLFG.seen {}) = _
  exact List.getD_map ..

theorem seen_computeJacNnz : P.seen.full.computeJacNnz = P.full.computeJacNnz := by
  have hf : (P.full.f.map fun fn => fn.jac.nnz).sum =
      (P.full.f.map fun fn => fn.seen.jac.nnz).sum +
        (P.full.f.flatMap FunctionLFG.unseen).length := by
    rw [List.length_flatMap, ← List.sum_map_add]
    exact congrArg List.sum (List.map_congr_left fun fn _ => fn.seen_nnz)
  unfold FullSweepLayout.computeJacNnz Problem.seen
  dsimp only
  rw [hf]
  cases P.full.L <;>
    simp only [Option.getD_none, Option.getD_some, JacobianLFG.nnz, List.map_map,
      Function.comp_def, List.length_append, List.length_nil] <;>
    omega

theorem seen_walks (hr : ∀ f, f < P.pc.fSize → ∀ e ∈ (P.full.fAt f).jac.dx, e.col < P.pc.xSize) :
    WalksOk P.seen where
  sorted := by
    intro f _
    rw [seen_fAt]
    exact ascent_pairwise
  range := by
    intro f hf e he
    rw [seen_fAt] at he
    exact hr f hf e (ascent_starts.subset he)

/-! Both loop nests write what they write for the problem that is left. -/

variable [Field K] {T : FLGR K} (M : Mesh T) (off : Offsets) (B : Buffers K)

theorem seen_lfgJac : lfgJac P.seen M B = lfgJac P M B := by
  funext b i j
  unfold lfgJac
  rw [seen_computeJacNnz]

theorem seen_jacSparsityRowF (i j f : Nat) (t : Tape (JacCell K)) :
    jacSparsityRowF P.seen M off i j f t = jacSparsityRowF P M off i j f t := by
  unfold jacSparsityRowF
  dsimp only
  rw [seen_fAt, walkDfDx_ascent (P.full.fAt f).jac.dx]
  rfl

theorem seen_evalJacRowF (i j f : Nat) (t : Tape K) :
    evalJacRowF P.seen M off B i j f t = evalJacRowF P M off B i j f t := by
  unfold evalJacRowF
  dsimp only
  rw [seen_fAt, seen_lfgJac, walkDfDx_ascent (P.full.fAt f).jac.dx]
  rfl

theorem seen_jacSparsityInterval (acc : Nat → Nat) :
    jacSparsityInterval P.seen M off acc = jacSparsityInterval P M off acc := by
  funext i t
  unfold jacSparsityInterval
  have h : ∀ j, jacSparsityRowF P.seen M off i j = jacSparsityRowF P M off i j := by
    intro j
    funext f t
    exact seen_jacSparsityRowF P M off i j f t
  simp only [h]
  rfl

theorem seen_evalJacInterval (acc : Nat → Nat) :
    evalJacInterval P.seen M off B acc = evalJacInterval P M off B acc := by
  funext i t
  unfold evalJacInterval
  have hf : ∀ j, evalJacRowF P.seen M off B i j = evalJacRowF P M off B i j := by
    intro j
    funext f t
    exact seen_evalJacRowF P M off B i j f t
  have hg : ∀ j, evalJacRowG P.seen M B i j = evalJacRowG P M B i j := by
    intro j
    funext g t
    unfold evalJacRowG
    rw [seen_lfgJac]
    rfl
  simp only [hf, hg]
  rfl

theorem seen_getJacSparsity (acc : Nat → Nat) (cells : Nat → JacCell K) :
    getJacSparsity P.seen M off acc cells = getJacSparsity P M off acc cells := by
  unfold getJacSparsity
  rw [seen_jacSparsityInterval]
  rfl

theorem seen_evalJacGInternal (acc : Nat → Nat) (der : Nat → K) :
    evalJacGInternal P.seen M off B acc der = evalJacGInternal P M off B acc der := by
  unfold evalJacGInternal
  rw [seen_evalJacInterval]
  rfl

end Seen

/-! ## Counting -/

section Count

variable {K : Type} (P : Problem K)

/-- The unseen entries of row `f` but for those of its own state. -/
def lost (f : Nat) : Nat := (P.full.fAt f).unseen.countP fun e => ¬ e.col = f

theorem row_count (f : Nat) : (P.full.fAt f).jac.nnz +
      (P.seen.full.fAt f).jac.dx.countP (·.col == f) =
    (P.seen.full.fAt f).jac.nnz + (P.full.fAt f).jac.dx.countP (·.col == f) + lost P f := by
  have hn := (P.full.fAt f).seen_nnz
  have hc := congrArg (List.countP (·.col == f))
    (ascent_append_descent (w := JacobianSparsity.col) (l := (P.full.fAt f).jac.dx))
  have hu := List.length_eq_countP_add_countP (l := (P.full.fAt f).unseen)
    fun e : JacobianSparsity => e.col == f
  have hl : lost P f = (P.full.fAt f).unseen.countP fun e => ¬ (e.col == f) = true :=
    List.countP_congr fun e _ => by simp
  rw [List.countP_append] at hc
  rw [seen_fAt, hn, hl]
  unfold FunctionLFG.unseen FunctionLFG.seen JacobianLFG.seen at *
  dsimp only at *
  omega

/-- One node of an interval with `n` nodes, as it is counted. -/
def nodeNnz (n : Nat) : Nat :=
  (n + 1) * P.pc.xSize + nnzF P + nnzG P - diagonalCollisions P

theorem nodeNnz_seen (n : Nat) :
    nodeNnz P n = nodeNnz P.seen n + ∑ f ∈ Finset.range P.pc.fSize, lost P f := by
  have hsum : nnzF P + diagonalCollisions P.seen = nnzF P.seen + diagonalCollisions P +
      ∑ f ∈ Finset.range P.pc.fSize, lost P f := by
    unfold nnzF diagonalCollisions
    rw [forRange_sum, forRange_sum, forRange_sum, forRange_sum]
    have e : P.seen.pc.fSize = P.pc.fSize := rfl
    rw [e, ← Finset.sum_add_distrib, ← Finset.sum_add_distrib, ← Finset.sum_add_distrib]
    exact Finset.sum_congr rfl fun f _ => row_count P f
  have hle (Q : Problem K) : diagonalCollisions Q ≤ nnzF Q := by
    unfold nnzF diagonalCollisions
    rw [forRange_sum, forRange_sum]
    refine Finset.sum_le_sum fun f _ => List.countP_le_length.trans ?_
    unfold JacobianLFG.nnz
    omega
  have h1 := hle P
  have h2 := hle P.seen
  have hg : nnzG P.seen = nnzG P := rfl
  have hx : P.seen.pc.xSize = P.pc.xSize := rfl
  unfold nodeNnz
  rw [hg, hx]
  omega

variable [Field K] {T : FLGR K} (M : Mesh T)

theorem offAccJacFg_add {i : Nat} (hi : i < M.intervals) :
    (initJacobianNonzeros P M P.pc.xSize).1 (i + 1) =
      (initJacobianNonzeros P M P.pc.xSize).1 i + M.nodesAt i * nodeNnz P (M.nodesAt i) := by
  have h : (initJacobianNonzeros P M P.pc.xSize).1 = forRange M.intervals (fun i acc =>
    Function.update acc (i + 1) (acc i + M.nodesAt i * nodeNnz P (M.nodesAt i))) fun _ => 0 := rfl
  rw [h, forRange_partialSums M.intervals (fun i => M.nodesAt i * nodeNnz P (M.nodesAt i)) hi,
    forRange_partialSums M.intervals (fun i => M.nodesAt i * nodeNnz P (M.nodesAt i))
      (Nat.le_of_lt hi), Finset.sum_range_succ]

/-- Both loop nests end every interval where the next one is counted to start. -/
structure IntervalsEnd : Prop where
  pattern : ∀ i, i < M.intervals → ∀ t,
    (jacSparsityInterval P M (getSizes P M) (initJacobianNonzeros P M P.pc.xSize).1 i t).pos =
      (initJacobianNonzeros P M P.pc.xSize).1 (i + 1)
  values : ∀ B i, i < M.intervals → ∀ t,
    (evalJacInterval P M (getSizes P M) B (initJacobianNonzeros P M P.pc.xSize).1 i t).pos =
      (initJacobianNonzeros P M P.pc.xSize).1 (i + 1)

variable {P M}
variable (hr : ∀ f, f < P.pc.fSize → ∀ e ∈ (P.full.fAt f).jac.dx, e.col < P.pc.xSize)

include hr

theorem seen_intervalSlots_length (B : Buffers K) (i : Nat) :
    (intervalSlots P.seen M (getSizes P M) B i).length =
      M.nodesAt i * nodeNnz P.seen (M.nodesAt i) :=
  intervalSlots_length P.seen M B (seen_walks P hr) i

theorem jacSparsityInterval_ends (acc : Nat → Nat) (i : Nat) (t : Tape (JacCell K)) :
    (jacSparsityInterval P M (getSizes P M) acc i t).pos =
      acc i + M.nodesAt i * nodeNnz P.seen (M.nodesAt i) := by
  rw [← seen_jacSparsityInterval, jacSparsityInterval_eq P.seen M _ ⟨0, 0, 0, 0, 0, 0, 0⟩
    (seen_walks P hr), Tape.run_pos, List.length_map, seen_intervalSlots_length hr]

theorem evalJacInterval_ends (B : Buffers K) (acc : Nat → Nat) (i : Nat) (t : Tape K) :
    (evalJacInterval P M (getSizes P M) B acc i t).pos =
      acc i + M.nodesAt i * nodeNnz P.seen (M.nodesAt i) := by
  rw [← seen_evalJacInterval, evalJacInterval_eq P.seen M _ B (seen_walks P hr),
    Tape.run_pos, List.length_map, seen_intervalSlots_length hr]

theorem intervalsEnd_iff : IntervalsEnd P M ↔ ∀ f, f < P.pc.fSize → lost P f = 0 := by
  have hlost : (∑ f ∈ Finset.range P.pc.fSize, lost P f = 0) ↔
      ∀ f, f < P.pc.fSize → lost P f = 0 := by
    simp [Finset.sum_eq_zero_iff]
  rw [← hlost]
  constructor
  · intro h
    have hpos := M.nodesAt_pos M.intervals_pos
    have e := h.pattern 0 M.intervals_pos ⟨0, fun _ => ⟨0, 0, 0⟩⟩
    rw [jacSparsityInterval_ends hr, offAccJacFg_add P M M.intervals_pos] at e
    have e := Nat.eq_of_mul_eq_mul_left hpos (Nat.add_left_cancel e)
    have := nodeNnz_seen P (M.nodesAt 0)
    omega
  · intro h
    have hn : ∀ n, nodeNnz P.seen n = nodeNnz P n := by
      intro n
      rw [nodeNnz_seen P n, h, Nat.add_zero]
    refine ⟨fun i hi t => ?_, fun B i hi t => ?_⟩
    · rw [jacSparsityInterval_ends hr, offAccJacFg_add P M hi, hn]
    · rw [evalJacInterval_ends hr, offAccJacFg_add P M hi, hn]

omit hr in
/-- Nothing lost: the counts are those of the problem that is left. -/
theorem seen_initJacobianNonzeros (h : ∀ f, f < P.pc.fSize → lost P f = 0) :
    initJacobianNonzeros P.seen M P.pc.xSize = initJacobianNonzeros P M P.pc.xSize := by
  have hn : ∀ n, nodeNnz P.seen n = nodeNnz P n := by
    intro n
    rw [nodeNnz_seen P n, Finset.sum_eq_zero fun f hf => h f (Finset.mem_range.mp hf), Nat.add_zero]
  have hoff : offAccJacFg P.seen M P.pc.xSize = offAccJacFg P M P.pc.xSize := by
    unfold offAccJacFg
    refine congrFun (congrArg _ ?_) _
    funext i acc
    exact congrArg (fun n => Function.update acc (i + 1) (acc i + M.nodesAt i * n))
      (hn (M.nodesAt i))
  unfold initJacobianNonzeros
  rw [hoff]
  rfl

omit hr in
theorem jacMatrix_seen (h : ∀ f, f < P.pc.fSize → lost P f = 0) (B : Buffers K)
    (rows cols : Nat → Nat) : jacMatrix P.seen M B rows cols = jacMatrix P M B rows cols := by
  have hs : getSizes P.seen M = getSizes P M := rfl
  have hi := seen_initJacobianNonzeros (M := M) h
  have hp : assembledPattern P.seen M rows cols = assembledPattern P M rows cols := by
    unfold assembledPattern
    rw [hs, getSizes_offX, hi, seen_getJacSparsity]
  have hv : assembledValues P.seen M B rows cols = assembledValues P M B rows cols := by
    unfold assembledValues
    rw [hp, hs, getSizes_offX, hi, seen_evalJacGInternal]
  unfold jacMatrix
  rw [hp, hv, hs, getSizes_offX, hi]

/-! The rows of the matrix, where nothing is lost but entries of the own state. -/

variable (h : ∀ f, f < P.pc.fSize → lost P f = 0) (B : Buffers K) (rows cols : Nat → Nat)

include h

theorem jacMatrix_seen_f {i j f : Nat} (hi : i < M.intervals) (hj : j < M.nodesAt i)
    (hf : f < P.pc.fSize) (k : Nat) :
    jacMatrix P M B rows cols ((getSizes P M).offAccFg i j + f) k =
      collRow T M (getSizes P M) i j f (unit k) - M.deltaTAt i *
        lfgRow P M (getSizes P M) B (P.full.fAt f).seen.jac i j (unit k) := by
  have e := jacMatrix_f P.seen M B (seen_walks P hr) rows cols hi hj hf k
  rw [jacMatrix_seen h, seen_fAt] at e
  unfold lfgRow at e ⊢
  rw [seen_lfgJac] at e
  exact e

theorem jacMatrix_seen_g {i j g : Nat} (hi : i < M.intervals) (hj : j < M.nodesAt i)
    (hg : g < P.pc.gSize) (k : Nat) :
    jacMatrix P M B rows cols ((getSizes P M).offAccFg i j + P.pc.fSize + g) k =
      lfgRow P M (getSizes P M) B (P.full.gAt g).jac i j (unit k) := by
  have e := jacMatrix_g P.seen M B (seen_walks P hr) rows cols hi hj hg k
  rw [jacMatrix_seen h] at e
  unfold lfgRow at e ⊢
  rw [seen_lfgJac] at e
  exact e

theorem jacMatrix_seen_r {r : Nat} (hr' : r < P.pc.rSize) (k : Nat) :
    jacMatrix P M B rows cols ((getSizes P M).offFgTotal + r) k =
      mrRow (getSizes P M) B (P.boundary.rAt r).jac (unit k) := by
  have e := jacMatrix_r P.seen M B (seen_walks P hr) rows cols hr' k
  rw [jacMatrix_seen h] at e
  exact e

end Count

/-! ## Reading the entries back from a row -/

section Probe

variable {K : Type} [Field K] (P : Problem K) {T : FLGR K} (M : Mesh T)

/-- 1 where the callback puts entry `e` of node `(i, j)`, 0 elsewhere. -/
def probe (i j : Nat) (e : JacobianSparsity) : Buffers K :=
  { (Buffers.zero : Buffers K) with
    jac := fun k => if k = e.bufIndex + P.full.computeJacNnz * M.accNodesAt i j then 1 else 0 }

theorem lfgJac_probe (i j b : Nat) (e : JacobianSparsity) :
    lfgJac P M (probe P M i j e) b i j = if b = e.bufIndex then 1 else 0 := by
  unfold lfgJac probe
  dsimp only
  simp only [Nat.add_right_cancel_iff]

theorem dx_sum_probe (off : Offsets) (i j : Nat) (e : JacobianSparsity)
    (l : List JacobianSparsity) : (l.map fun e' => lfgJac P M (probe P M i j e) e'.bufIndex i j *
      unit (off.offAccXu i j + e.col) (off.offAccXu i j + e'.col)).sum = (l.count e : K) := by
  rw [List.sum_map_eq_nsmul_single e]
  · rw [lfgJac_probe, if_pos rfl]
    unfold unit
    rw [if_pos rfl, mul_one, nsmul_one]
  · intro e' hne _
    rw [lfgJac_probe]
    unfold unit
    by_cases hb : e'.bufIndex = e.bufIndex
    · have hc : e'.col ≠ e.col := fun hc => hne (by cases e'; cases e; simp_all)
      rw [if_neg (show ¬ off.offAccXu i j + e'.col = off.offAccXu i j + e.col by omega), mul_zero]
    · rw [if_neg hb, zero_mul]

/-- Two rows that agree for every content of the buffers have the same state entries. -/
theorem mem_dx_of_lfgRow {off : Offsets} {jac jac' : JacobianLFG} (hu : jac'.du.Perm jac.du)
    (hq : jac'.dp.Perm jac.dp) (hd : jac.dx.Nodup) (hd' : jac'.dx.Nodup) {i j : Nat}
    (h : ∀ B k, lfgRow P M off B jac' i j (unit k) = lfgRow P M off B jac i j (unit k))
    (e : JacobianSparsity) : e ∈ jac'.dx ↔ e ∈ jac.dx := by
  have hcount := h (probe P M i j e) (off.offAccXu i j + e.col)
  unfold lfgRow at hcount
  rw [(hu.map _).sum_eq, (hq.map _).sum_eq, dx_sum_probe, dx_sum_probe] at hcount
  have hcount := add_right_cancel (add_right_cancel hcount)
  by_cases he : e ∈ jac.dx <;> by_cases he' : e ∈ jac'.dx
  · exact iff_of_true he' he
  · rw [List.count_eq_one_of_mem hd he, List.count_eq_zero_of_not_mem he'] at hcount
    simp at hcount
  · rw [List.count_eq_zero_of_not_mem he, List.count_eq_one_of_mem hd' he'] at hcount
    simp at hcount
  · exact iff_of_false he' he

end Probe

end GDOP
end Moo
