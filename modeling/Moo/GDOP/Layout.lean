import Mathlib.Data.Set.Function
import Moo.GDOP.Cache

/-!
# GDOP.Layout

What the entries of the NLP vectors are.

* `Variable`, `Constraint`: the components of the discretised problem, with the index that the
  offsets of `get_sizes` give them.
* `variable_bijOn`, `constraint_bijOn`: every entry is one component.
* `Variable.bound`, `Constraint.bound`: the bounds that `get_bounds` writes, component by
  component.
* `evalGInternal_index`, `evalFInternal_eq`: constraints and objective, component by component.
* `internal_values`: nothing else is in the constraint vector.
-/

namespace Moo
namespace GDOP

open Loop FixedVector NLP Segment

/-- State `k` at `t = 0`, state or control `k` of node `(i, j)`, parameter `k`. -/
inductive Variable where
  | x0 (k : Nat)
  | x (i j k : Nat)
  | u (i j k : Nat)
  | p (k : Nat)
  deriving Repr, DecidableEq

/-- Equation of motion `k` and path constraint `k` of node `(i, j)`, boundary constraint `k`. -/
inductive Constraint where
  | f (i j k : Nat)
  | g (i j k : Nat)
  | r (k : Nat)
  deriving Repr, DecidableEq

section Components

variable {K : Type} [Field K] {T : FLGR K} (P : Problem K) (M : Mesh T)

def Variable.Ok : Variable → Prop
  | .x0 k => k < P.pc.xSize
  | .x i j k => i < M.intervals ∧ j < M.nodesAt i ∧ k < P.pc.xSize
  | .u i j k => i < M.intervals ∧ j < M.nodesAt i ∧ k < P.pc.uSize
  | .p k => k < P.pc.pSize

def Variable.index (off : Offsets) : Variable → Nat
  | .x0 k => k
  | .x i j k => off.offAccXu i j + k
  | .u i j k => off.offAccXu i j + off.offX + k
  | .p k => off.offXuTotal + k

def Constraint.Ok : Constraint → Prop
  | .f i j k => i < M.intervals ∧ j < M.nodesAt i ∧ k < P.pc.fSize
  | .g i j k => i < M.intervals ∧ j < M.nodesAt i ∧ k < P.pc.gSize
  | .r k => k < P.pc.rSize

def Constraint.index (off : Offsets) : Constraint → Nat
  | .f i j k => off.offAccFg i j + k
  | .g i j k => off.offAccFg i j + P.pc.fSize + k
  | .r k => off.offFgTotal + k

/-! ## Indices -/

variable {P M}

/-- Where a component lies: before, within, or behind the blocks of the nodes. -/
theorem Variable.index_cases {v : Variable} (hv : v.Ok P M) :
    match v with
    | .x0 k => v.index (getSizes P M) = k ∧ k < P.pc.xSize
    | .x i j k => v.index (getSizes P M) = P.pc.xSize + (P.pc.xuSize * M.accNodesAt i j + k) ∧
        P.pc.xuSize * M.accNodesAt i j + k < P.pc.xuSize * M.nodeCount
    | .u i j k =>
      v.index (getSizes P M) = P.pc.xSize + (P.pc.xuSize * M.accNodesAt i j + (P.pc.xSize + k)) ∧
        P.pc.xuSize * M.accNodesAt i j + (P.pc.xSize + k) < P.pc.xuSize * M.nodeCount
    | .p k => v.index (getSizes P M) = P.pc.xSize + P.pc.xuSize * M.nodeCount + k := by
  have hxu : P.pc.xuSize = P.pc.xSize + P.pc.uSize := rfl
  cases v with
  | x0 k => exact ⟨rfl, hv⟩
  | x i j k =>
    obtain ⟨hi, hj, hk⟩ := hv
    refine ⟨?_, block_lt (M.accNodesAt_lt hi hj) (by omega)⟩
    rw [Variable.index, getSizes_offAccXu P M hi hj, Nat.add_assoc]
  | u i j k =>
    obtain ⟨hi, hj, hk⟩ := hv
    refine ⟨?_, block_lt (M.accNodesAt_lt hi hj) (by omega)⟩
    rw [Variable.index, getSizes_offAccXu P M hi hj, getSizes_offX]
    omega
  | p k => rw [Variable.index, getSizes_offXuTotal]

theorem Variable.index_lt {v : Variable} (hv : v.Ok P M) :
    v.index (getSizes P M) < (getSizes P M).numberVars := by
  have h := Variable.index_cases hv
  rw [getSizes_numberVars]
  cases v with
  | p k =>
    have hk : k < P.pc.pSize := hv
    omega
  | _ => omega

theorem Variable.index_inj {v w : Variable} (hv : v.Ok P M) (hw : w.Ok P M)
    (h : v.index (getSizes P M) = w.index (getSizes P M)) : v = w := by
  have hxu : P.pc.xuSize = P.pc.xSize + P.pc.uSize := rfl
  have h1 := Variable.index_cases hv
  have h2 := Variable.index_cases hw
  -- two components of nodes have one node and one place in its block
  have node {i j y i' j' z : Nat} (hi : i < M.intervals) (hj : j < M.nodesAt i)
      (hi' : i' < M.intervals) (hj' : j' < M.nodesAt i')
      (e : P.pc.xSize + (P.pc.xuSize * M.accNodesAt i j + y) =
        P.pc.xSize + (P.pc.xuSize * M.accNodesAt i' j' + z))
      (hy : y < P.pc.xuSize) (hz : z < P.pc.xuSize) : (i = i' ∧ j = j') ∧ y = z :=
    (block_inj hy hz (Nat.add_left_cancel e)).imp_left (M.accNodesAt_inj hi hj hi' hj')
  cases v <;> cases w <;> simp only [Variable.Ok] at hv hw h1 h2
  case x0.x0 =>
    rw [h1.1, h2.1] at h
    rw [h]
  case x.x =>
    rw [h1.1, h2.1] at h
    obtain ⟨⟨rfl, rfl⟩, rfl⟩ := node hv.1 hv.2.1 hw.1 hw.2.1 h (by omega) (by omega)
    rfl
  case u.u =>
    rw [h1.1, h2.1] at h
    obtain ⟨⟨rfl, rfl⟩, e⟩ := node hv.1 hv.2.1 hw.1 hw.2.1 h (by omega) (by omega)
    rw [Nat.add_left_cancel e]
  case x.u =>
    rw [h1.1, h2.1] at h
    have := (node hv.1 hv.2.1 hw.1 hw.2.1 h (by omega) (by omega)).2
    omega
  case u.x =>
    rw [h1.1, h2.1] at h
    have := (node hv.1 hv.2.1 hw.1 hw.2.1 h (by omega) (by omega)).2
    omega
  case p.p =>
    rw [h1, h2] at h
    rw [Nat.add_left_cancel h]
  all_goals omega

theorem Variable.exists_index {n : Nat} (hn : n < (getSizes P M).numberVars) :
    ∃ v : Variable, v.Ok P M ∧ v.index (getSizes P M) = n := by
  have hxu : P.pc.xuSize = P.pc.xSize + P.pc.uSize := rfl
  rw [getSizes_numberVars] at hn
  by_cases h0 : n < P.pc.xSize
  · exact ⟨.x0 n, h0, rfl⟩
  by_cases h1 : n < P.pc.xSize + P.pc.xuSize * M.nodeCount
  · obtain ⟨i, j, y, hi, hj, hy, e⟩ := M.exists_block (show n - P.pc.xSize <
      P.pc.xuSize * M.nodeCount by omega)
    by_cases hx : y < P.pc.xSize
    · have hv : (Variable.x i j y).Ok P M := ⟨hi, hj, hx⟩
      exact ⟨_, hv, by rw [(Variable.index_cases hv).1]; omega⟩
    · have hv : (Variable.u i j (y - P.pc.xSize)).Ok P M := ⟨hi, hj, by omega⟩
      exact ⟨_, hv, by rw [(Variable.index_cases hv).1]; omega⟩
  · have hv : (Variable.p (n - (P.pc.xSize + P.pc.xuSize * M.nodeCount))).Ok P M := by
      simp only [Variable.Ok]
      omega
    exact ⟨_, hv, by rw [Variable.index_cases hv]; omega⟩

/-- The variables are numbered one to one. -/
theorem variable_bijOn : Set.BijOn (fun v : Variable => v.index (getSizes P M))
    {v | v.Ok P M} {n | n < (getSizes P M).numberVars} :=
  ⟨fun _ => Variable.index_lt, fun _ hv _ hw => Variable.index_inj hv hw,
    fun _ => Variable.exists_index⟩

theorem Constraint.index_cases {c : Constraint} (hc : c.Ok P M) :
    match c with
    | .f i j k => c.index P (getSizes P M) = P.pc.fgSize * M.accNodesAt i j + k ∧
        P.pc.fgSize * M.accNodesAt i j + k < P.pc.fgSize * M.nodeCount
    | .g i j k =>
      c.index P (getSizes P M) = P.pc.fgSize * M.accNodesAt i j + (P.pc.fSize + k) ∧
        P.pc.fgSize * M.accNodesAt i j + (P.pc.fSize + k) < P.pc.fgSize * M.nodeCount
    | .r k => c.index P (getSizes P M) = P.pc.fgSize * M.nodeCount + k := by
  have hfg : P.pc.fgSize = P.pc.fSize + P.pc.gSize := rfl
  cases c with
  | f i j k =>
    obtain ⟨hi, hj, hk⟩ := hc
    refine ⟨?_, block_lt (M.accNodesAt_lt hi hj) (by omega)⟩
    rw [Constraint.index, getSizes_offAccFg P M hi hj, Nat.mul_comm]
  | g i j k =>
    obtain ⟨hi, hj, hk⟩ := hc
    refine ⟨?_, block_lt (M.accNodesAt_lt hi hj) (by omega)⟩
    rw [Constraint.index, getSizes_offAccFg P M hi hj, Nat.mul_comm, Nat.add_assoc]
  | r k => rw [Constraint.index, getSizes_offFgTotal, Nat.mul_comm]

theorem Constraint.index_lt {c : Constraint} (hc : c.Ok P M) :
    c.index P (getSizes P M) < (getSizes P M).numberConstraints := by
  have h := Constraint.index_cases hc
  rw [getSizes_numberConstraints, Nat.mul_comm M.nodeCount]
  cases c with
  | r k =>
    have hk : k < P.pc.rSize := hc
    omega
  | _ => omega

theorem Constraint.index_inj {c d : Constraint} (hc : c.Ok P M) (hd : d.Ok P M)
    (h : c.index P (getSizes P M) = d.index P (getSizes P M)) : c = d := by
  have hfg : P.pc.fgSize = P.pc.fSize + P.pc.gSize := rfl
  have h1 := Constraint.index_cases hc
  have h2 := Constraint.index_cases hd
  have node {i j y i' j' z : Nat} (hi : i < M.intervals) (hj : j < M.nodesAt i)
      (hi' : i' < M.intervals) (hj' : j' < M.nodesAt i')
      (e : P.pc.fgSize * M.accNodesAt i j + y = P.pc.fgSize * M.accNodesAt i' j' + z)
      (hy : y < P.pc.fgSize) (hz : z < P.pc.fgSize) : (i = i' ∧ j = j') ∧ y = z :=
    (block_inj hy hz e).imp_left (M.accNodesAt_inj hi hj hi' hj')
  cases c <;> cases d <;> simp only [Constraint.Ok] at hc hd h1 h2
  case f.f =>
    rw [h1.1, h2.1] at h
    obtain ⟨⟨rfl, rfl⟩, rfl⟩ := node hc.1 hc.2.1 hd.1 hd.2.1 h (by omega) (by omega)
    rfl
  case g.g =>
    rw [h1.1, h2.1] at h
    obtain ⟨⟨rfl, rfl⟩, e⟩ := node hc.1 hc.2.1 hd.1 hd.2.1 h (by omega) (by omega)
    rw [Nat.add_left_cancel e]
  case f.g =>
    rw [h1.1, h2.1] at h
    have := (node hc.1 hc.2.1 hd.1 hd.2.1 h (by omega) (by omega)).2
    omega
  case g.f =>
    rw [h1.1, h2.1] at h
    have := (node hc.1 hc.2.1 hd.1 hd.2.1 h (by omega) (by omega)).2
    omega
  case r.r =>
    rw [h1, h2] at h
    rw [Nat.add_left_cancel h]
  all_goals omega

theorem Constraint.exists_index {n : Nat} (hn : n < (getSizes P M).numberConstraints) :
    ∃ c : Constraint, c.Ok P M ∧ c.index P (getSizes P M) = n := by
  rcases constraint_cases P M hn with ⟨i, j, f, hi, hj, hf, rfl⟩ | ⟨i, j, g, hi, hj, hg, rfl⟩ |
    ⟨r, hr, rfl⟩
  · exact ⟨.f i j f, ⟨hi, hj, hf⟩, rfl⟩
  · exact ⟨.g i j g, ⟨hi, hj, hg⟩, rfl⟩
  · exact ⟨.r r, hr, rfl⟩

/-- So are the constraints. -/
theorem constraint_bijOn : Set.BijOn (fun c : Constraint => c.index P (getSizes P M))
    {c | c.Ok P M} {n | n < (getSizes P M).numberConstraints} :=
  ⟨fun _ => Constraint.index_lt, fun _ hc _ hd => Constraint.index_inj hc hd,
    fun _ => Constraint.exists_index⟩

/-! ## Bounds -/

variable (P M)

/-- `side` is the lower or the upper end. -/
def Variable.bound (side : Bounds K → K) : Variable → K
  | .x0 k => (P.pc.x0Fixed.getD k none).getD (side (P.pc.xBounds.getD k ⟨0, 0⟩))
  | .x i j k =>
    if M.isLast i j then (P.pc.xfFixed.getD k none).getD (side (P.pc.xBounds.getD k ⟨0, 0⟩))
    else side (P.pc.xBounds.getD k ⟨0, 0⟩)
  | .u _ _ k => side (P.pc.uBounds.getD k ⟨0, 0⟩)
  | .p k => side (P.pc.pBounds.getD k ⟨0, 0⟩)

def Constraint.bound (side : Bounds K → K) : Constraint → K
  | .f _ _ _ => 0
  | .g _ _ k => side (P.pc.gBounds.getD k ⟨0, 0⟩)
  | .r k => side (P.pc.rBounds.getD k ⟨0, 0⟩)

end Components

section Blocks

variable {K : Type} [Field K] {T : FLGR K} (M : Mesh T)

/-- A loop over the nodes that writes the block of each node in two parts. -/
theorem forNodes_blocks {offAcc : Nat → Nat → Nat} {base size a b : Nat}
    (hoff : ∀ i j, i < M.intervals → j < M.nodesAt i →
      offAcc i j = base + size * M.accNodesAt i j) (hs : size = a + b)
    (v w : Nat → Nat → Nat → K) (buf : Nat → K) :
    let r := M.forNodes (fun i j t =>
      forRange b (fun k t => Function.update t (offAcc i j + a + k) (w i j k))
        (forRange a (fun k t => Function.update t (offAcc i j + k) (v i j k)) t)) buf
    (∀ q, q < base ∨ base + size * M.nodeCount ≤ q → r q = buf q) ∧
      ∀ i j, i < M.intervals → j < M.nodesAt i →
        (∀ k, k < a → r (offAcc i j + k) = v i j k) ∧
        ∀ k, k < b → r (offAcc i j + a + k) = w i j k := by
  have key := M.forNodes_inv (P := fun n (t : Nat → K) =>
      (∀ q, q < base ∨ base + size * n ≤ q → t q = buf q) ∧
      ∀ i j, i < M.intervals → j < M.nodesAt i → M.accNodesAt i j < n →
        (∀ k, k < a → t (offAcc i j + k) = v i j k) ∧
        ∀ k, k < b → t (offAcc i j + a + k) = w i j k)
    (f := fun i j t =>
      forRange b (fun k t => Function.update t (offAcc i j + a + k) (w i j k))
        (forRange a (fun k t => Function.update t (offAcc i j + k) (v i j k)) t)) (s := buf)
    ⟨fun _ _ => rfl, fun _ _ _ _ h => by omega⟩ ?_
  · exact ⟨key.1, fun i j hi hj => key.2 i j hi hj (M.accNodesAt_lt hi hj)⟩
  · rintro i j hi hj t ⟨h1, h2⟩
    have ho := hoff i j hi hj
    refine ⟨fun q hq => ?_, fun i' j' hi' hj' h => ?_⟩
    · rw [Nat.mul_succ] at hq
      rw [forRange_fillFrom, forRange_fillFrom, if_neg (by omega), if_neg (by omega)]
      exact h1 q (by omega)
    · simp only [forRange_fillFrom]
      rcases Nat.lt_succ_iff_lt_or_eq.mp h with hlt | heq
      · -- a block before stays
        have hle := Nat.mul_le_mul_left size (show M.accNodesAt i' j' + 1 ≤ _ from hlt)
        rw [Nat.mul_succ] at hle
        have ho' := hoff i' j' hi' hj'
        obtain ⟨h3, h4⟩ := h2 i' j' hi' hj' hlt
        refine ⟨fun k hk => ?_, fun k hk => ?_⟩
        · rw [if_neg (by omega), if_neg (by omega), h3 k hk]
        · rw [if_neg (by omega), if_neg (by omega), h4 k hk]
      · obtain ⟨rfl, rfl⟩ := M.accNodesAt_inj hi' hj' hi hj heq
        refine ⟨fun k hk => ?_, fun k hk => ?_⟩
        · rw [if_neg (by omega), if_pos (by omega), Nat.add_sub_cancel_left]
        · rw [if_pos (by omega), Nat.add_sub_cancel_left]

end Blocks

section GetBounds

variable {K : Type} [Field K] {T : FLGR K} {P : Problem K} {mesh : MeshPtr T}
variable (side : Bounds K → K)

theorem boundsX_index {v : Variable} (hv : v.Ok P mesh.mesh) (x : Nat → K) :
    boundsX P mesh (getSizes P mesh.mesh) side x (v.index (getSizes P mesh.mesh)) =
      v.bound P mesh.mesh side := by
  have hp := Variable.index_cases hv
  have hxu : P.pc.xuSize = P.pc.xSize + P.pc.uSize := rfl
  unfold boundsX
  simp only [forRange_fillFrom, getSizes_offX, getSizes_offU, getSizes_offP, getSizes_offXuTotal]
  obtain ⟨h1, h2⟩ := forNodes_blocks mesh.mesh (offAccXu_blocks P mesh) hxu
    (fun i j k => if mesh.mesh.isLast i j then
      (P.pc.xfFixed.getD k none).getD (side (P.pc.xBounds.getD k ⟨0, 0⟩))
      else side (P.pc.xBounds.getD k ⟨0, 0⟩))
    (fun _ _ k => side (P.pc.uBounds.getD k ⟨0, 0⟩))
    (forRange P.pc.xSize (fun k x => Function.update x k
      ((P.pc.x0Fixed.getD k none).getD (side (P.pc.xBounds.getD k ⟨0, 0⟩)))) x)
  cases v with
  | x0 k =>
    rw [if_neg (by omega), hp.1, h1 k (.inl hp.2), forRange_fill, if_pos hp.2]
    rfl
  | x i j k =>
    rw [if_neg (by omega)]
    exact (h2 i j hv.1 hv.2.1).1 k hv.2.2
  | u i j k =>
    rw [if_neg (by omega)]
    exact (h2 i j hv.1 hv.2.1).2 k hv.2.2
  | p k =>
    have hk : k < P.pc.pSize := hv
    rw [hp, if_pos (by omega), Nat.add_sub_cancel_left]
    rfl

theorem boundsG_index {c : Constraint} (hc : c.Ok P mesh.mesh) (g : Nat → K) :
    boundsG P mesh (getSizes P mesh.mesh) side g (c.index P (getSizes P mesh.mesh)) =
      c.bound P side := by
  have hp := Constraint.index_cases hc
  have hfg : P.pc.fgSize = P.pc.fSize + P.pc.gSize := rfl
  unfold boundsG
  simp only [forRange_fillFrom, getSizes_offFgTotal, Nat.mul_comm mesh.mesh.nodeCount]
  obtain ⟨-, h2⟩ := forNodes_blocks mesh.mesh (offAccFg_blocks P mesh) hfg (fun _ _ _ => 0)
    (fun _ _ k => side (P.pc.gBounds.getD k ⟨0, 0⟩)) g
  cases c with
  | f i j k =>
    rw [if_neg (by omega)]
    exact (h2 i j hc.1 hc.2.1).1 k hc.2.2
  | g i j k =>
    rw [if_neg (by omega)]
    exact (h2 i j hc.1 hc.2.1).2 k hc.2.2
  | r k =>
    have hk : k < P.pc.rSize := hc
    rw [hp, if_pos (by omega), Nat.add_sub_cancel_left]
    rfl

end GetBounds

/-! ## Constraints and objective -/

section Evaluations

variable {K : Type} [Field K] {T : FLGR K} (P : Problem K) (M : Mesh T) (B : Buffers K)

/-- State `k` where column `c` of the differentiation matrix of interval `i` takes it: at the last
node before the interval, then at its nodes. -/
def stateAt (i k : Nat) : Nat → Variable
  | 0 => if i = 0 then .x0 k else .x (i - 1) (M.nodesAt (i - 1) - 1) k
  | c + 1 => .x i c k

def Constraint.residual (x : Variable → K) : Constraint → K
  | .f i j k => ∑ c ∈ Finset.range (M.nodesAt i + 1), T.getD (M.nodesAt i) (j + 1) c *
      x (stateAt M i k c) - M.deltaTAt i * lfgEvalF P M B k i j
  | .g i j k => lfgEvalG P M B k i j
  | .r k => mrEvalR P B k

def objective : K :=
  (if P.pc.hasMayer then mrEvalM P B else 0) +
    if P.pc.hasLagrange then
      ∑ i ∈ Finset.range M.intervals, ∑ j ∈ Finset.range (M.nodesAt i),
        M.deltaTAt i * T.getB (M.nodesAt i) j * lfgEvalL P M B i j
    else 0

theorem stateAt_zero (i k : Nat) :
    (stateAt M i k 0).index (getSizes P M) = offPrev M (getSizes P M) i + k := by
  by_cases h : i = 0
  · simp [stateAt, offPrev, h, Variable.index]
  · simp [stateAt, offPrev, h, Variable.index]

theorem evalGInternal_index {c : Constraint} (hc : c.Ok P M) (x : Nat → K) :
    evalGInternal P M (getSizes P M) B x (c.index P (getSizes P M)) =
      c.residual P M B fun v => x (v.index (getSizes P M)) := by
  cases c with
  | f i j k =>
    obtain ⟨hi, hj, hk⟩ := hc
    rw [Constraint.index, evalGInternal_f P M B x hi hj hk, Constraint.residual,
      Finset.sum_range_succ', stateAt_zero, add_comm (∑ c ∈ _, _)]
    rfl
  | g i j k =>
    obtain ⟨hi, hj, hk⟩ := hc
    exact evalGInternal_g P M B x hi hj hk
  | r k => exact evalGInternal_r P M B x hc

theorem evalFInternal_eq : evalFInternal P M B = objective P M B := by
  unfold evalFInternal objective
  rw [M.forNodes_sum]

/-- Every entry of the output vector is the residual of its component, whatever it was before. -/
theorem internal_values (currX currG : List K)
    (hg : currG.length = (getSizes P M).numberConstraints) :
    (∀ c : Constraint, c.Ok P M →
      raw (fill currG.length (evalGInternal P M (getSizes P M) B (raw currX)))
        (c.index P (getSizes P M)) =
      c.residual P M B fun v => raw currX (v.index (getSizes P M))) ∧
    (∀ n, n < currG.length → ∃ c : Constraint, c.Ok P M ∧ c.index P (getSizes P M) = n) ∧
    evalFInternal P M B = objective P M B := by
  refine ⟨fun c hc => ?_, fun n hn => ?_, evalFInternal_eq P M B⟩
  · rw [raw_fill_lt _ (by rw [hg]; exact Constraint.index_lt hc)]
    exact evalGInternal_index P M B hc _
  · rw [hg] at hn
    exact Constraint.exists_index hn

/-- One step from 2 to 5 with `f = 4`, over an old entry 7. -/
theorem internal_values_terminal :
    raw (fill 1 (evalGInternal terminal oneStep.mesh (getSizes terminal oneStep.mesh)
      { Buffers.zero with eval := fun _ => 4 } (raw [2, 5]))) 0 = (-1 : ℚ) :=
  ((internal_values terminal oneStep.mesh { Buffers.zero with eval := fun _ => 4 } [2, 5] [7]
    rfl).1 (.f 0 0 0) ⟨Nat.one_pos, Nat.one_pos, Nat.one_pos⟩).trans (by decide +kernel)

end Evaluations

end GDOP
end Moo
