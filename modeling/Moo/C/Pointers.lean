import Moo.C.Problem
import Moo.GDOP.Layout

/-!
# C.Pointers

What the callbacks read through the pointers they are passed.

* `Variable.read`, `Constraint.read`: a component of the NLP vectors, by way of the pointers to the
  parts of the vector and those to the block of a node.
* `layout_agrees`: offsets, pointers and bounds are of one layout.
-/

namespace Moo
namespace C

open Loop FixedVector NLP GDOP

section Read

variable {K : Type} [Field K] {T : FLGR K} (P : GDOP.Problem K) (M : Mesh T) (off : Offsets)

/-- A variable, read through `get_x_x0`, `get_x_xu` and `get_xu_ij`, or `get_x_p`. -/
def Variable.read (x : Nat → K) : Variable → Option K
  | .x0 k => (getXX0 off x).map fun x0 => x0 k
  | .x i j k => (getXuIj P M (getXXu off x) i j).map fun xu => xu k
  | .u i j k => (getXuIj P M (getXXu off x) i j).map fun xu => xu (P.pc.xSize + k)
  | .p k => (getXP off x).map fun p => p k

/-- A multiplier, read through `get_lmbd_fg` and `get_lambda_ij`, or `get_lmbd_r`. -/
def Constraint.read (lambda : Nat → K) : Constraint → Option K
  | .f i j k => (getLambdaIj P M (getLmbdFg off lambda) i j).map fun fg => fg k
  | .g i j k => (getLambdaIj P M (getLmbdFg off lambda) i j).map fun fg => fg (P.pc.fSize + k)
  | .r k => (getLmbdR P off lambda).map fun r => r k

end Read

section Agree

variable {K : Type} [Field K] {T : FLGR K} {P : GDOP.Problem K} {M : Mesh T}

/-- State or control `k` of node `(i, j)`, where the callback gets a pointer to its block. -/
theorem getXuIj_node {i j k : Nat} (hi : i < M.intervals) (hj : j < M.nodesAt i)
    (hk : k < P.pc.xuSize) (x : Nat → K) :
    (getXuIj P M (getXXu (getSizes P M) x) i j).map (fun xu => xu k) =
      some (x ((getSizes P M).offAccXu i j + k)) := by
  rw [getXXu, getSizes_offXu, if_pos (by omega), getSizes_offX, getSizes_offAccXu P M hi hj]
  simp [getXuIj, Nat.add_assoc]

theorem getLambdaIj_node {i j k : Nat} (hi : i < M.intervals) (hj : j < M.nodesAt i)
    (hk : k < P.pc.fgSize) (lambda : Nat → K) :
    (getLambdaIj P M (getLmbdFg (getSizes P M) lambda) i j).map (fun fg => fg k) =
      some (lambda ((getSizes P M).offAccFg i j + k)) := by
  have h := Nat.mul_pos M.nodeCount_pos (Nat.zero_lt_of_lt hk)
  rw [getLmbdFg, getSizes_offFgTotal, if_pos (by omega), getSizes_offAccFg P M hi hj, Nat.mul_comm]
  rfl

theorem Variable.read_eq {v : Variable} (hv : v.Ok P M) (x : Nat → K) :
    Variable.read P M (getSizes P M) x v = some (x (v.index (getSizes P M))) := by
  have hxu : P.pc.xuSize = P.pc.xSize + P.pc.uSize := rfl
  cases v with
  | x0 k =>
    have hk : k < P.pc.xSize := hv
    rw [Variable.read, getXX0, getSizes_offX, if_pos (by omega)]
    rfl
  | x i j k =>
    obtain ⟨hi, hj, hk⟩ := hv
    exact getXuIj_node hi hj (by omega) x
  | u i j k =>
    obtain ⟨hi, hj, hk⟩ := hv
    rw [Variable.read, getXuIj_node hi hj (by omega), Variable.index, getSizes_offX, Nat.add_assoc]
  | p k =>
    have hk : k < P.pc.pSize := hv
    rw [Variable.read, getXP, getSizes_offP, if_pos (by omega)]
    rfl

theorem Constraint.read_eq {c : Constraint} (hc : c.Ok P M) (lambda : Nat → K) :
    Constraint.read P M (getSizes P M) lambda c =
      some (lambda (c.index P (getSizes P M))) := by
  have hfg : P.pc.fgSize = P.pc.fSize + P.pc.gSize := rfl
  cases c with
  | f i j k =>
    obtain ⟨hi, hj, hk⟩ := hc
    exact getLambdaIj_node hi hj (by omega) lambda
  | g i j k =>
    obtain ⟨hi, hj, hk⟩ := hc
    rw [Constraint.read, getLambdaIj_node hi hj (by omega), Constraint.index, Nat.add_assoc]
  | r k =>
    have hk : k < P.pc.rSize := hc
    rw [Constraint.read, getLmbdR, if_pos (by omega)]
    rfl

/-- `get_x_xuf` points to the block of the last node. -/
theorem getXXuf_last {i j k : Nat} (hi : i < M.intervals) (hj : j < M.nodesAt i)
    (hl : M.isLast i j = true) (hk : k < P.pc.xuSize) (x : Nat → K) :
    (getXXuf (getSizes P M) x).map (fun xuf => xuf k) =
      some (x ((getSizes P M).offAccXu i j + k)) := by
  rw [getXXuf, getSizes_offXu, if_pos (by omega), getSizes_offLastXu, getSizes_offAccXu P M hi hj,
    (M.isLast_iff hi hj).mp hl]
  rfl

variable (P) (mesh : MeshPtr T)

/-- The layout of the NLP vectors on a mesh: what the offsets number, what the pointers lead to,
and what `get_bounds` writes. -/
structure LayoutAgrees : Prop where
  numbersX : Set.BijOn (fun v : Variable => v.index (getSizes P mesh.mesh))
    {v | v.Ok P mesh.mesh} {n | n < (getSizes P mesh.mesh).numberVars}
  numbersG : Set.BijOn (fun c : Constraint => c.index P (getSizes P mesh.mesh))
    {c | c.Ok P mesh.mesh} {n | n < (getSizes P mesh.mesh).numberConstraints}
  readX : ∀ (x : Nat → K) (v : Variable), v.Ok P mesh.mesh →
    Variable.read P mesh.mesh (getSizes P mesh.mesh) x v =
      some (x (v.index (getSizes P mesh.mesh)))
  readXuf : ∀ (x : Nat → K) (i j k : Nat), i < mesh.mesh.intervals → j < mesh.mesh.nodesAt i →
    mesh.mesh.isLast i j = true → k < P.pc.xuSize →
    (getXXuf (getSizes P mesh.mesh) x).map (fun xuf => xuf k) =
      some (x ((getSizes P mesh.mesh).offAccXu i j + k))
  readLambda : ∀ (lambda : Nat → K) (c : Constraint), c.Ok P mesh.mesh →
    Constraint.read P mesh.mesh (getSizes P mesh.mesh) lambda c =
      some (lambda (c.index P (getSizes P mesh.mesh)))
  boundsX : ∀ (s : Instance T) (b : BoundVectors K), s.mesh = mesh →
    b.xLb.length = (getSizes P mesh.mesh).numberVars →
    b.xUb.length = (getSizes P mesh.mesh).numberVars →
    ∀ v : Variable, v.Ok P mesh.mesh →
      raw (((s.getSizes P).1.getBounds P b).2.xLb) (v.index (getSizes P mesh.mesh)) =
        v.bound P mesh.mesh Bounds.lb ∧
      raw (((s.getSizes P).1.getBounds P b).2.xUb) (v.index (getSizes P mesh.mesh)) =
        v.bound P mesh.mesh Bounds.ub
  boundsG : ∀ (s : Instance T) (b : BoundVectors K), s.mesh = mesh →
    b.gLb.length = (getSizes P mesh.mesh).numberConstraints →
    b.gUb.length = (getSizes P mesh.mesh).numberConstraints →
    ∀ c : Constraint, c.Ok P mesh.mesh →
      raw (((s.getSizes P).1.getBounds P b).2.gLb) (c.index P (getSizes P mesh.mesh)) =
        c.bound P Bounds.lb ∧
      raw (((s.getSizes P).1.getBounds P b).2.gUb) (c.index P (getSizes P mesh.mesh)) =
        c.bound P Bounds.ub

theorem layout_agrees : LayoutAgrees P mesh where
  numbersX := variable_bijOn
  numbersG := constraint_bijOn
  readX := fun x _ hv => Variable.read_eq hv x
  readXuf := fun x _ _ _ hi hj hl hk => getXXuf_last hi hj hl hk x
  readLambda := fun lambda _ hc => Constraint.read_eq hc lambda
  boundsX := by
    rintro s b rfl hl hu v hv
    have h := Variable.index_lt hv
    refine ⟨?_, ?_⟩
    · exact (raw_fill_lt _ (by rw [hl]; exact h)).trans (boundsX_index Bounds.lb hv _)
    · exact (raw_fill_lt _ (by rw [hu]; exact h)).trans (boundsX_index Bounds.ub hv _)
  boundsG := by
    rintro s b rfl hl hu c hc
    have h := Constraint.index_lt hc
    refine ⟨?_, ?_⟩
    · exact (raw_fill_lt _ (by rw [hl]; exact h)).trans (boundsG_index Bounds.lb hc _)
    · exact (raw_fill_lt _ (by rw [hu]; exact h)).trans (boundsG_index Bounds.ub hc _)

end Agree

end C
end Moo
