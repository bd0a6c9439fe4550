import Moo.Base.Trajectory
import Moo.GDOP.Problem

/-!
# GDOP.Finalize

Between NLP vectors and trajectories: bounds, the optimal solution, and the initial guess.

Every vector of the NLP is laid out in blocks, one for each node: `writeNodes` copies series into
such a layout, `transformDuals` multiplies each block by the negative quadrature weight of its
node, or divides. A vector that is turned into series and flattened again is the same vector
(`flatten_finalizePrimals`, `guessLambda_finalize`, `flatten_finalizeBoundDuals`).
-/

namespace Moo
namespace GDOP

open Loop FixedVector

section Layout

variable {K : Type} [Field K] {T : FLGR K} (M : Mesh T)

/-- One node of a layout: `a` entries from the series `xs`, behind them `b` from `us`. -/
def writeNode (start a b : Nat) (xs us : List (List K)) (index : Nat) (buf : Nat → K) : Nat → K :=
  let buf := forRange a (fun xIndex buf =>
    Function.update buf (start + xIndex) (raw (xs.getD xIndex []) index)) buf
  forRange b (fun uIndex buf =>
    Function.update buf (start + a + uIndex) (raw (us.getD uIndex []) index)) buf

/-- All nodes, with the running `index`: the entry at `t = 0` is left out. -/
def writeNodes (offAcc : Nat → Nat → Nat) (a b : Nat) (xs us : List (List K)) (buf : Nat → K) :
    Nat → K :=
  (M.forNodes (fun i j (s : (Nat → K) × Nat) =>
    (writeNode (offAcc i j) a b xs us s.2 s.1, s.2 + 1)) (buf, 1)).1

/-- NLP multipliers to costates (`toCostate`), or back: `size` entries for each node. -/
def transformDuals (offAcc : Nat → Nat → Nat) (size : Nat) (toCostate : Bool) (v : Nat → K) :
    Nat → K :=
  M.forNodes (fun i j => forRange size fun k v =>
    Function.update v (offAcc i j + k)
      (if toCostate then v (offAcc i j + k) / -T.getB (M.nodesAt i) j
       else v (offAcc i j + k) * -T.getB (M.nodesAt i) j)) v

section Rules

variable {offAcc : Nat → Nat → Nat} {base size : Nat}
variable (hoff : ∀ i j, i < M.intervals → j < M.nodesAt i →
  offAcc i j = base + size * M.accNodesAt i j)

include hoff

/-- Series that hold the entries of `v`: the layout becomes `v`. -/
theorem writeNodes_eq {a b : Nat} (hs : size = a + b) {xs us : List (List K)} (v : Nat → K)
    (hx : ∀ i j y, i < M.intervals → j < M.nodesAt i → y < a →
      raw (xs.getD y []) (M.accNodesAt i j + 1) = v (offAcc i j + y))
    (hu : ∀ i j y, i < M.intervals → j < M.nodesAt i → y < b →
      raw (us.getD y []) (M.accNodesAt i j + 1) = v (offAcc i j + a + y))
    (buf : Nat → K) (k : Nat) :
    writeNodes M offAcc a b xs us buf k =
      if base ≤ k ∧ k < base + size * M.nodeCount then v k else buf k := by
  rw [writeNodes,
    M.forNodes_counter fun i j index buf => writeNode (offAcc i j) a b xs us index buf]
  refine M.forNodes_inv (P := fun n (t : Nat → K) => ∀ k, t k =
    if base ≤ k ∧ k < base + size * n then v k else buf k) ?_ ?_ k
  · intro k
    rw [if_neg (by omega)]
  · intro i j hi hj t ht k
    have ho := hoff i j hi hj
    rw [writeNode, forRange_fillFrom, forRange_fillFrom, ht k, Nat.mul_succ]
    by_cases h1 : offAcc i j + a ≤ k ∧ k < offAcc i j + a + b
    · rw [if_pos h1, if_pos (by omega), hu i j _ hi hj (by omega)]
      congr 1
      omega
    · by_cases h2 : offAcc i j ≤ k ∧ k < offAcc i j + a
      · rw [if_neg h1, if_pos h2, if_pos (by omega), hx i j _ hi hj (by omega)]
        congr 1
        omega
      · rw [if_neg h1, if_neg h2]
        exact if_congr (by omega) rfl rfl

/-- Every index of the blocks belongs to a node. -/
theorem exists_block {k : Nat} (h1 : base ≤ k) (h2 : k < base + size * M.nodeCount) :
    ∃ i j y, i < M.intervals ∧ j < M.nodesAt i ∧ y < size ∧ k = offAcc i j + y := by
  obtain ⟨i, j, y, hi, hj, hy, e⟩ :=
    M.exists_block (show k - base < size * M.nodeCount by omega)
  refine ⟨i, j, y, hi, hj, hy, ?_⟩
  rw [hoff i j hi hj]
  omega

/-- A loop over the nodes that changes the first `a` entries of every block in place. -/
theorem forNodes_modify {a : Nat} (ha : a ≤ size) (g : Nat → Nat → K → K) (v : Nat → K) :
    let r := M.forNodes (fun i j => forRange a fun k v =>
      Function.update v (offAcc i j + k) (g i j (v (offAcc i j + k)))) v
    (∀ k, k < base ∨ base + size * M.nodeCount ≤ k → r k = v k) ∧
    ∀ i j y, i < M.intervals → j < M.nodesAt i → y < size →
      r (offAcc i j + y) = if y < a then g i j (v (offAcc i j + y)) else v (offAcc i j + y) := by
  -- the blocks of the first `n` nodes are done, the rest of the vector is as before
  have key := M.forNodes_inv (P := fun n (t : Nat → K) =>
      (∀ k, k < base ∨ base + size * n ≤ k → t k = v k) ∧
      ∀ i j y, i < M.intervals → j < M.nodesAt i → y < size → M.accNodesAt i j < n →
        t (offAcc i j + y) = if y < a then g i j (v (offAcc i j + y)) else v (offAcc i j + y))
    (f := fun i j => forRange a fun k v =>
      Function.update v (offAcc i j + k) (g i j (v (offAcc i j + k)))) (s := v)
    ⟨fun k _ => rfl, fun i j y _ _ _ h => by omega⟩ ?_
  · exact ⟨key.1, fun i j y hi hj hy => key.2 i j y hi hj hy (M.accNodesAt_lt hi hj)⟩
  · rintro i j hi hj t ⟨h1, h2⟩
    have ho := hoff i j hi hj
    have hm := forRange_modifyFrom (offAcc i j) a (g i j) t
    refine ⟨fun k hk => ?_, fun i' j' y hi' hj' hy h => ?_⟩
    · rw [Nat.mul_succ] at hk
      rw [hm, if_neg (by omega)]
      exact h1 k (by omega)
    · rw [hm]
      rcases Nat.lt_succ_iff_lt_or_eq.mp h with hlt | heq
      · have hle := mul_succ_le (c := size) hlt
        rw [Nat.mul_comm _ size, Nat.mul_comm _ size] at hle
        have ho' := hoff i' j' hi' hj'
        rw [if_neg (by omega)]
        exact h2 i' j' y hi' hj' hy hlt
      · obtain ⟨rfl, rfl⟩ := M.accNodesAt_inj hi' hj' hi hj heq
        rw [h1 _ (by omega)]
        exact if_congr (by omega) rfl rfl

theorem transformDuals_spec (c : Bool) (v : Nat → K) :
    (∀ k, k < base ∨ base + size * M.nodeCount ≤ k → transformDuals M offAcc size c v k = v k) ∧
    ∀ i j y, i < M.intervals → j < M.nodesAt i → y < size →
      transformDuals M offAcc size c v (offAcc i j + y) =
        if c then v (offAcc i j + y) / -T.getB (M.nodesAt i) j
        else v (offAcc i j + y) * -T.getB (M.nodesAt i) j := by
  obtain ⟨h1, h2⟩ := forNodes_modify M hoff (Nat.le_refl size)
    (fun i j z => if c then z / -T.getB (M.nodesAt i) j else z * -T.getB (M.nodesAt i) j) v
  refine ⟨h1, fun i j y hi hj hy => ?_⟩
  exact (h2 i j y hi hj hy).trans (if_pos hy)

/-- Every entry is transformed by itself. -/
theorem transformDuals_congr (c : Bool) {v w : Nat → K} {k : Nat} (h : v k = w k) :
    transformDuals M offAcc size c v k = transformDuals M offAcc size c w k := by
  obtain ⟨o1, n1⟩ := transformDuals_spec M hoff c v
  obtain ⟨o2, n2⟩ := transformDuals_spec M hoff c w
  by_cases hk : k < base ∨ base + size * M.nodeCount ≤ k
  · rw [o1 k hk, o2 k hk, h]
  · obtain ⟨i, j, y, hi, hj, hy, rfl⟩ := exists_block M hoff (k := k) (by omega) (by omega)
    rw [n1 i j y hi hj hy, n2 i j y hi hj hy, h]

/-- To costates and back, where no weight is zero. -/
theorem transformDuals_roundtrip
    (hb : ∀ i j, i < M.intervals → j < M.nodesAt i → T.getB (M.nodesAt i) j ≠ 0) (v : Nat → K) :
    transformDuals M offAcc size false (transformDuals M offAcc size true v) = v := by
  obtain ⟨o1, n1⟩ := transformDuals_spec M hoff true v
  obtain ⟨o2, n2⟩ := transformDuals_spec M hoff false (transformDuals M offAcc size true v)
  funext k
  by_cases hk : k < base ∨ base + size * M.nodeCount ≤ k
  · rw [o2 k hk, o1 k hk]
  obtain ⟨i, j, y, hi, hj, hy, rfl⟩ := exists_block M hoff (k := k) (by omega) (by omega)
  rw [n2 i j y hi hj hy, n1 i j y hi hj hy]
  exact div_mul_cancel₀ _ (neg_ne_zero.mpr (hb i j hi hj))

end Rules

end Layout

/-! ## The functions of the source -/

section Functions

variable {K : Type} [Field K] [LinearOrder K] {T : FLGR K} (P : Problem K) (mesh : MeshPtr T)
variable (off : Offsets)

/-- One side of the bounds of the variables: `side` is `lb` or `ub`. -/
def boundsX (side : Bounds K → K) (x : Nat → K) : Nat → K :=
  let M := mesh.mesh
  let xBound (k : Nat) : K := side (P.pc.xBounds.getD k ⟨0, 0⟩)
  let x := forRange off.offX (fun k x =>
    Function.update x k ((P.pc.x0Fixed.getD k none).getD (xBound k))) x
  let x := M.forNodes (fun i j x =>
    let x := forRange off.offX (fun k x => Function.update x (off.offAccXu i j + k)
      (if M.isLast i j then (P.pc.xfFixed.getD k none).getD (xBound k) else xBound k)) x
    forRange off.offU (fun k x => Function.update x (off.offAccXu i j + off.offX + k)
      (side (P.pc.uBounds.getD k ⟨0, 0⟩))) x) x
  forRange off.offP (fun k x => Function.update x (off.offXuTotal + k)
    (side (P.pc.pBounds.getD k ⟨0, 0⟩))) x

/-- One side of the bounds of the constraints; both sides of the dynamics are zero. -/
def boundsG (side : Bounds K → K) (g : Nat → K) : Nat → K :=
  let g := mesh.mesh.forNodes (fun i j g =>
    let g := forRange P.pc.fSize (fun k g => Function.update g (off.offAccFg i j + k) 0) g
    forRange P.pc.gSize (fun k g => Function.update g (off.offAccFg i j + P.pc.fSize + k)
      (side (P.pc.gBounds.getD k ⟨0, 0⟩))) g) g
  forRange P.pc.rSize (fun k g => Function.update g (off.offFgTotal + k)
    (side (P.pc.rBounds.getD k ⟨0, 0⟩))) g

def flattenTrajectoryToLayout (trajectory : Trajectory T) (flatBuffer : Nat → K) : Nat → K :=
  let buf := forRange off.offX (fun xIndex buf =>
    Function.update buf xIndex (raw (trajectory.x.getD xIndex []) 0)) flatBuffer
  let buf := writeNodes mesh.mesh off.offAccXu off.offX off.offU trajectory.x trajectory.u buf
  forRange off.offP (fun pIndex buf =>
    Function.update buf (off.offXuTotal + pIndex) (raw trajectory.p pIndex)) buf

def transformDualsCostates (toCostate : Bool) (lambda : Nat → K) : Nat → K :=
  transformDuals mesh.mesh off.offAccFg P.pc.fgSize toCostate lambda

def transformDualsCostatesBounds (toCostate : Bool) (zeta : Nat → K) : Nat → K :=
  transformDuals mesh.mesh off.offAccXu off.offXu toCostate zeta

/-- The part of `get_initial_guess` that writes `lambda_init`. -/
def guessLambda (costate : CostateTrajectory T) (lambdaInit : Nat → K) : Nat → K :=
  let buf := writeNodes mesh.mesh off.offAccFg P.pc.fSize P.pc.gSize costate.costatesF
    costate.costatesG lambdaInit
  let buf := forRange P.pc.rSize (fun rIndex buf =>
    Function.update buf (off.offFgTotal + rIndex) (raw costate.costatesR rIndex)) buf
  transformDualsCostates P mesh off false buf

/-- The entry at `t = 0` of a quantity that the NLP has at the nodes only: the first interval's
values from `start` on, extrapolated. -/
def valueAtZero (v : Nat → K) (start stride : Nat) : K :=
  T.interpolate (mesh.mesh.nodesAt 0) false (fun k => v (start + k)) stride (mesh.mesh.tAt 0 0)
    (mesh.mesh.gridAt 1) 0

def nodeTimes : List K := mesh.mesh.nodeSeries 0 mesh.mesh.tAt

/-- The series of a vector laid out like the variables: primals, or multipliers of bounds. -/
def xuTrajectory (v : Nat → K) (p : List K) : Trajectory T where
  t := nodeTimes mesh
  x := (List.range off.offX).map fun xIndex =>
    mesh.mesh.nodeSeries (v xIndex) fun i j => v (off.offAccXu i j + xIndex)
  u := (List.range off.offU).map fun uIndex =>
    mesh.mesh.nodeSeries (valueAtZero mesh v (2 * off.offX + uIndex) off.offXu)
      fun i j => v (off.offAccXu i j + off.offX + uIndex)
  p := p
  interpolation := .polynomial
  inducingMesh := some mesh

/-- The parameters are everything from `off_xu_total` to the end of the vector. -/
def finalizeOptimalPrimals (optX : List K) : Trajectory T :=
  xuTrajectory mesh off (raw optX) (if 0 < off.offP then optX.drop off.offXuTotal else [])

def finalizeOptimalCostates (optLambda : List K) : CostateTrajectory T :=
  let costates := transformDualsCostates P mesh off true (raw optLambda)
  let fSize := P.pc.fSize
  let inpStride := fSize + P.pc.gSize
  { t := nodeTimes mesh
    costatesF := (List.range fSize).map fun fIndex =>
      mesh.mesh.nodeSeries (valueAtZero mesh costates fIndex inpStride)
        fun i j => costates (off.offAccFg i j + fIndex)
    costatesG := (List.range P.pc.gSize).map fun gIndex =>
      mesh.mesh.nodeSeries (valueAtZero mesh costates (fSize + gIndex) inpStride)
        fun i j => costates (off.offAccFg i j + fSize + gIndex)
    costatesR := (List.range P.pc.rSize).map fun rIndex => costates (off.offFgTotal + rIndex)
    interpolation := .polynomial
    inducingMesh := some mesh }

/-- The lower or the upper side. -/
def finalizeOptimalBoundDuals (optZ : List K) : Trajectory T :=
  let zDual := transformDualsCostatesBounds mesh off true (raw optZ)
  xuTrajectory mesh off zDual ((List.range off.offP).map fun p => zDual (off.offXuTotal + p))

end Functions

/-! ## Flattening what was finalized -/

section RoundTrip

variable {K : Type} [Field K] [LinearOrder K] {T : FLGR K} (P : Problem K) (mesh : MeshPtr T)

omit [LinearOrder K] in
theorem offAccXu_blocks : ∀ i j, i < mesh.mesh.intervals → j < mesh.mesh.nodesAt i →
    (getSizes P mesh.mesh).offAccXu i j = P.pc.xSize + P.pc.xuSize * mesh.mesh.accNodesAt i j :=
  fun _ _ hi hj => getSizes_offAccXu P mesh.mesh hi hj

omit [LinearOrder K] in
theorem offAccFg_blocks : ∀ i j, i < mesh.mesh.intervals → j < mesh.mesh.nodesAt i →
    (getSizes P mesh.mesh).offAccFg i j = 0 + P.pc.fgSize * mesh.mesh.accNodesAt i j := by
  intro i j hi hj
  rw [getSizes_offAccFg P mesh.mesh hi hj, Nat.zero_add, Nat.mul_comm]

theorem flatten_xuTrajectory (v : Nat → K) (p : List K)
    (hp : ∀ k, k < P.pc.pSize → raw p k = v ((getSizes P mesh.mesh).offXuTotal + k))
    (buf : Nat → K) {k : Nat} (hk : k < (getSizes P mesh.mesh).numberVars) :
    flattenTrajectoryToLayout mesh (getSizes P mesh.mesh)
      (xuTrajectory mesh (getSizes P mesh.mesh) v p) buf k = v k := by
  have hx : ∀ y, y < P.pc.xSize →
      (xuTrajectory mesh (getSizes P mesh.mesh) v p).x.getD y [] =
        mesh.mesh.nodeSeries (v y) fun i j => v ((getSizes P mesh.mesh).offAccXu i j + y) :=
    fun y hy => getD_map_range _ _ _ hy
  have hu : ∀ y, y < P.pc.uSize →
      (xuTrajectory mesh (getSizes P mesh.mesh) v p).u.getD y [] =
        mesh.mesh.nodeSeries (valueAtZero mesh v (2 * P.pc.xSize + y) P.pc.xuSize)
          fun i j => v ((getSizes P mesh.mesh).offAccXu i j + P.pc.xSize + y) :=
    fun y hy => getD_map_range _ _ _ hy
  have hn : (getSizes P mesh.mesh).numberVars =
    P.pc.xSize + P.pc.xuSize * mesh.mesh.nodeCount + P.pc.pSize := getSizes_numberVars P mesh.mesh
  have ht := getSizes_offXuTotal P mesh.mesh
  rw [flattenTrajectoryToLayout, forRange_fillFrom, getSizes_offX, getSizes_offU,
    writeNodes_eq mesh.mesh (offAccXu_blocks P mesh) rfl v
    (fun i j y hi hj hy => by
      rw [hx y hy]
      exact mesh.mesh.nodeSeries_node _ _ hi hj)
    (fun i j y hi hj hy => by
      rw [hu y hy]
      exact mesh.mesh.nodeSeries_node _ _ hi hj), forRange_fill]
  simp only [getSizes_offP, ht]
  by_cases h1 : P.pc.xSize + P.pc.xuSize * mesh.mesh.nodeCount ≤ k
  · rw [if_pos ⟨h1, by omega⟩]
    refine (hp _ (by omega)).trans (congrArg v ?_)
    omega
  rw [if_neg fun h => h1 h.1]
  by_cases h2 : P.pc.xSize ≤ k
  · rw [if_pos ⟨h2, by omega⟩]
  · rw [if_neg fun h => h2 h.1, if_pos (by omega), hx k (by omega)]
    exact mesh.mesh.nodeSeries_zero _ _

theorem flatten_finalizePrimals (optX : List K) (buf : Nat → K) {k : Nat}
    (hk : k < (getSizes P mesh.mesh).numberVars) :
    flattenTrajectoryToLayout mesh (getSizes P mesh.mesh)
      (finalizeOptimalPrimals mesh (getSizes P mesh.mesh) optX) buf k = raw optX k := by
  refine flatten_xuTrajectory P mesh (raw optX) _ (fun k hk => ?_) buf hk
  rw [if_pos (show 0 < (getSizes P mesh.mesh).offP from Nat.lt_of_le_of_lt (Nat.zero_le _) hk)]
  simp only [raw, List.getD_eq_getElem?_getD, List.getElem?_drop]

variable (hb : ∀ i j, i < mesh.mesh.intervals → j < mesh.mesh.nodesAt i →
  T.getB (mesh.mesh.nodesAt i) j ≠ 0)

include hb

theorem guessLambda_finalize (optLambda : List K) (buf : Nat → K) {k : Nat}
    (hk : k < (getSizes P mesh.mesh).numberConstraints) :
    guessLambda P mesh (getSizes P mesh.mesh)
      (finalizeOptimalCostates P mesh (getSizes P mesh.mesh) optLambda) buf k =
        raw optLambda k := by
  have hn : (getSizes P mesh.mesh).numberConstraints =
    P.pc.rSize + mesh.mesh.nodeCount * P.pc.fgSize := rfl
  have hfg : P.pc.fgSize = P.pc.fSize + P.pc.gSize := rfl
  have hm := Nat.mul_comm P.pc.fgSize mesh.mesh.nodeCount
  let costates := transformDualsCostates P mesh (getSizes P mesh.mesh) true (raw optLambda)
  have back := congrFun (transformDuals_roundtrip mesh.mesh
    (offAccFg_blocks P mesh) hb (raw optLambda)) k
  refine Eq.trans ?_ back
  refine transformDuals_congr mesh.mesh (offAccFg_blocks P mesh) false (w := costates) ?_
  have hF : ∀ y, y < P.pc.fSize → (finalizeOptimalCostates P mesh (getSizes P mesh.mesh)
      optLambda).costatesF.getD y [] = mesh.mesh.nodeSeries
        (valueAtZero mesh costates y (P.pc.fSize + P.pc.gSize))
        fun i j => costates ((getSizes P mesh.mesh).offAccFg i j + y) :=
    fun y hy => getD_map_range _ _ _ hy
  have hG : ∀ y, y < P.pc.gSize → (finalizeOptimalCostates P mesh (getSizes P mesh.mesh)
      optLambda).costatesG.getD y [] = mesh.mesh.nodeSeries
        (valueAtZero mesh costates (P.pc.fSize + y) (P.pc.fSize + P.pc.gSize))
        fun i j => costates ((getSizes P mesh.mesh).offAccFg i j + P.pc.fSize + y) :=
    fun y hy => getD_map_range _ _ _ hy
  rw [forRange_fillFrom, writeNodes_eq mesh.mesh
    (offAccFg_blocks P mesh) hfg costates
    (fun i j y hi hj hy => by
      rw [hF y hy]
      exact mesh.mesh.nodeSeries_node _ _ hi hj)
    (fun i j y hi hj hy => by
      rw [hG y hy]
      exact mesh.mesh.nodeSeries_node _ _ hi hj)]
  rw [getSizes_offFgTotal]
  by_cases h1 : mesh.mesh.nodeCount * P.pc.fgSize ≤ k
  · rw [if_pos ⟨h1, by omega⟩]
    refine (getD_map_range _ _ _ (by omega)).trans (congrArg costates ?_)
    rw [getSizes_offFgTotal]
    omega
  · rw [if_neg fun h => h1 h.1, if_pos (by omega)]

theorem flatten_finalizeBoundDuals (optZ : List K) (buf : Nat → K) {k : Nat}
    (hk : k < (getSizes P mesh.mesh).numberVars) :
    transformDualsCostatesBounds mesh (getSizes P mesh.mesh) false
      (flattenTrajectoryToLayout mesh (getSizes P mesh.mesh)
        (finalizeOptimalBoundDuals mesh (getSizes P mesh.mesh) optZ) buf) k = raw optZ k := by
  have back := congrFun (transformDuals_roundtrip mesh.mesh
    (offAccXu_blocks P mesh) hb (raw optZ)) k
  refine Eq.trans ?_ back
  refine transformDuals_congr mesh.mesh (offAccXu_blocks P mesh) false ?_
  exact flatten_xuTrajectory P mesh _ _ (fun k hk => getD_map_range _ _ _ hk) buf hk

end RoundTrip

end GDOP
end Moo
