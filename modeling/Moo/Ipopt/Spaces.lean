import Moo.Ipopt.TNLPAdapter
import Moo.NLP.Kkt
import Moo.NLP.Scaled

/-!
# Ipopt.Spaces

The problem that is left when fixed variables are parameters and constraints are split.

* `Splits`, `getSpaces_splits`: what is in each of the spaces.
* `point`, `duals`: the vectors of the algorithm, resorted; `point_restrict` comes back.
* `feasible_iff`, `minimizer_of_least`: feasible and least where the NLP is.
* `stationary_iff`: stationary where the NLP is, with the multipliers that fixed variables are
  given.
-/

namespace Moo
namespace Ipopt

open Loop Coo FixedVector NLP GDOP

/-! ## The spaces -/

section Splits

variable {K : Type} [Field K] [LinearOrder K]

/-- Variables are fixed or positions, constraints equations or inequalities. -/
structure Splits (N : Functions K) (spaces : Spaces) : Prop where
  vars : ∀ i, i < N.numberVars ↔ i ∈ spaces.xPos ∨ i ∈ spaces.xFixedMap
  fixed : ∀ i ∈ spaces.xFixedMap, i ∉ spaces.xPos ∧ raw N.bounds.xLb i = raw N.bounds.xUb i
  xLPos : ∀ i, i ∈ spaces.xLPos ↔ i ∈ spaces.xPos ∧
    (raw N.bounds.xLb i = raw N.bounds.xUb i ∨ -boundInf < raw N.bounds.xLb i)
  xUPos : ∀ i, i ∈ spaces.xUPos ↔ i ∈ spaces.xPos ∧
    (raw N.bounds.xLb i = raw N.bounds.xUb i ∨ raw N.bounds.xUb i < boundInf)
  cPos : ∀ r, r ∈ spaces.cPos ↔ r < N.numberConstraints ∧ raw N.bounds.gLb r = raw N.bounds.gUb r
  dPos : ∀ r, r ∈ spaces.dPos ↔ r < N.numberConstraints ∧ raw N.bounds.gLb r ≠ raw N.bounds.gUb r
  dLPos : ∀ r, r ∈ spaces.dLPos ↔ r ∈ spaces.dPos ∧ -boundInf < raw N.bounds.gLb r
  dUPos : ∀ r, r ∈ spaces.dUPos ↔ r ∈ spaces.dPos ∧ raw N.bounds.gUb r < boundInf
  jacC : spaces.jacC = nonzeros N.nnzJac N.jac spaces.cPos spaces.xPos
  jacD : spaces.jacD = nonzeros N.nnzJac N.jac spaces.dPos spaces.xPos
  jacFixed : spaces.jacFixed = ((List.range N.nnzJac).filter fun k =>
    decide (N.jac.col k ∉ spaces.xPos)).map fun k => ⟨k, N.jac.row k, N.jac.col k⟩
  h : spaces.h = nonzeros N.nnzHes N.hes spaces.xPos spaces.xPos

theorem idx_of_mem_nonzeros {nnz : Nat} {p : Pattern} {rows cols : List Nat} {e : Nonzero}
    (he : e ∈ nonzeros nnz p rows cols) : e.idx < nnz := by
  obtain ⟨k, hk, rfl⟩ := List.mem_map.mp he
  exact List.mem_range.mp (List.mem_filter.mp hk).1

theorem getSpaces_splits {N : Functions K} {spaces : Spaces}
    (h : getSpaces N.numberVars N.numberConstraints N.nnzJac N.nnzHes N.bounds N.jac N.hes =
      some spaces) : Splits N spaces := by
  unfold getSpaces at h
  dsimp only at h
  split at h
  · cases h
  · cases h
    generalize relaxBounds _ _ _ = relax
    exact
      { vars := fun i => by
          cases relax <;> simp
          tauto
        fixed := fun i => by
          cases relax <;> simp
          tauto
        xLPos := by simp
        xUPos := by simp
        cPos := by simp
        dPos := by simp
        dLPos := by simp [and_comm, and_assoc]
        dUPos := by simp [and_comm, and_assoc]
        jacC := rfl
        jacD := rfl
        jacFixed := rfl
        h := rfl }

end Splits

/-! ## Resorting -/

section Resort

variable {K : Type} [Field K] (N : Functions K) (spaces : Spaces)

/-- Fixed variables are at their bounds. -/
def point (x : List K) : Nat → K := resortX spaces x (raw N.bounds.xLb)

def duals (yc yd : List K) : Nat → K := resortG spaces yc yd fun _ => 0

/-- What was resorted before is overwritten. -/
theorem resort_resort (pos : List Nat) (v w : List K) (full : Nat → K) :
    resort pos v (resort pos w full) = resort pos v full := by
  funext i
  unfold resort
  split <;> rfl

theorem resortG_resortG (c d c' d' : List K) (g : Nat → K) :
    resortG spaces c d (resortG spaces c' d' g) = resortG spaces c d g := by
  funext i
  unfold resortG resort
  by_cases hd : i ∈ spaces.dPos
  · rw [if_pos hd, if_pos hd]
  · by_cases hc : i ∈ spaces.cPos
    · simp only [if_neg hd, if_pos hc]
    · simp only [if_neg hd, if_neg hc]

theorem raw_fill_of_le {n : Nat} {f : Nat → K} (hf : ∀ i, n ≤ i → f i = 0) :
    raw (fill n f) = f := by
  funext i
  rw [raw_fill]
  by_cases hi : i < n
  · rw [if_pos hi]
  · rw [if_neg hi, hf i (Nat.not_lt.mp hi)]

theorem raw_map_idxOf {pos : List Nat} (f : Nat → K) {i : Nat} (hi : i ∈ pos) :
    raw (pos.map f) (pos.idxOf i) = f i := by
  have hlt := List.idxOf_lt_length_iff.mpr hi
  simp [raw, hlt]

variable {N spaces}

theorem point_of_mem {x : List K} {i : Nat} (hi : i ∈ spaces.xPos) :
    point N spaces x i = raw x (spaces.xPos.idxOf i) := if_pos hi

theorem point_of_not_mem {x : List K} {i : Nat} (hi : i ∉ spaces.xPos) :
    point N spaces x i = raw N.bounds.xLb i := if_neg hi

variable [LinearOrder K] (h : Splits N spaces)

include h

theorem Splits.lt_of_xPos {i : Nat} (hi : i ∈ spaces.xPos) : i < N.numberVars :=
  (h.vars i).mpr (.inl hi)

/-- Where nothing is resorted to, and in range, is a fixed variable. -/
theorem Splits.mem_fixed {i : Nat} (hi : i < N.numberVars) (hp : i ∉ spaces.xPos) :
    i ∈ spaces.xFixedMap := ((h.vars i).mp hi).resolve_left hp

/-- Nothing is left over beyond the variables. -/
theorem Splits.point_of_le (hn : N.bounds.xLb.length = N.numberVars) {x : List K} {i : Nat}
    (hi : N.numberVars ≤ i) : point N spaces x i = 0 := by
  rw [point_of_not_mem fun hp => absurd (h.lt_of_xPos hp) (Nat.not_lt.mpr hi)]
  exact raw_of_le (hn.trans_le hi)

theorem Splits.duals_of_le {yc yd : List K} {r : Nat} (hr : N.numberConstraints ≤ r) :
    duals spaces yc yd r = 0 := by
  have hd : r ∉ spaces.dPos := fun hd => absurd ((h.dPos r).mp hd).1 (Nat.not_lt.mpr hr)
  have hc : r ∉ spaces.cPos := fun hc => absurd ((h.cPos r).mp hc).1 (Nat.not_lt.mpr hr)
  exact (if_neg hd).trans (if_neg hc)

/-- The variables that are left, of a point with the fixed ones at their bounds. -/
theorem Splits.point_restrict (hn : N.bounds.xLb.length = N.numberVars) {y : List K}
    (hy : y.length = N.numberVars) (hf : ∀ i ∈ spaces.xFixedMap, raw y i = raw N.bounds.xLb i) :
    point N spaces (spaces.xPos.map (raw y)) = raw y := by
  funext i
  by_cases hp : i ∈ spaces.xPos
  · rw [point_of_mem hp, raw_map_idxOf _ hp]
  · rw [point_of_not_mem hp]
    by_cases hi : i < N.numberVars
    · exact (hf i (h.mem_fixed hi hp)).symm
    · rw [raw_of_le (hn.trans_le (Nat.not_lt.mp hi)), raw_of_le (hy.trans_le (Nat.not_lt.mp hi))]

end Resort

/-! ## Feasible and least points -/

section Feasible

variable {K : Type} [Field K] [LinearOrder K] (N : Functions K) (spaces : Spaces) (x : List K)

/-- `x_L ≤ x ≤ x_U`, `c(x) = 0` and `d_L ≤ d(x) ≤ d_U`, with the bounds that there are. -/
structure Feasible : Prop where
  xL : ∀ i ∈ spaces.xLPos, raw N.bounds.xLb i ≤ raw x (spaces.xPos.idxOf i)
  xU : ∀ i ∈ spaces.xUPos, raw x (spaces.xPos.idxOf i) ≤ raw N.bounds.xUb i
  c : ∀ r ∈ spaces.cPos, N.g (point N spaces x) r - raw N.bounds.gLb r = 0
  dL : ∀ r ∈ spaces.dLPos, raw N.bounds.gLb r ≤ N.g (point N spaces x) r
  dU : ∀ r ∈ spaces.dUPos, N.g (point N spaces x) r ≤ raw N.bounds.gUb r

structure Least : Prop where
  feasible : Feasible N spaces x
  least : ∀ y : List K, y.length = spaces.xPos.length → Feasible N spaces y →
    N.f (point N spaces x) ≤ N.f (point N spaces y)

/-- No entry is larger than what counts as infinite. -/
structure BelowInf (N : Functions K) (p : Nat → K) : Prop where
  x : ∀ i, i < N.numberVars → -boundInf ≤ p i ∧ p i ≤ boundInf
  g : ∀ r, r < N.numberConstraints → -boundInf ≤ N.g p r ∧ N.g p r ≤ boundInf

variable {N spaces x} (h : Splits N spaces)

include h

/-- Dropping bounds keeps a point feasible. -/
theorem Splits.feasible_of_admissible (ha : N.Admissible (point N spaces x)) :
    Feasible N spaces x where
  xL := fun i hi => by
    have hp := ((h.xLPos i).mp hi).1
    rw [← point_of_mem (N := N) hp]
    exact (ha.bounds i (h.lt_of_xPos hp)).1
  xU := fun i hi => by
    have hp := ((h.xUPos i).mp hi).1
    rw [← point_of_mem (N := N) hp]
    exact (ha.bounds i (h.lt_of_xPos hp)).2
  c := fun r hr => by
    obtain ⟨hm, he⟩ := (h.cPos r).mp hr
    obtain ⟨h1, h2⟩ := ha.constraints r hm
    exact sub_eq_zero.mpr (le_antisymm (he ▸ h2) h1)
  dL := fun r hr => (ha.constraints r ((h.dPos r).mp ((h.dLPos r).mp hr).1).1).1
  dU := fun r hr => (ha.constraints r ((h.dPos r).mp ((h.dUPos r).mp hr).1).1).2

theorem Splits.feasible_iff (hb : BelowInf N (point N spaces x)) :
    Feasible N spaces x ↔ N.Admissible (point N spaces x) := by
  refine ⟨fun hf => ⟨fun i hi => ?_, fun r hr => ?_⟩, h.feasible_of_admissible⟩
  · by_cases hp : i ∈ spaces.xPos
    · constructor
      · by_cases hl : i ∈ spaces.xLPos
        · exact (hf.xL i hl).trans_eq (point_of_mem hp).symm
        · rw [h.xLPos, not_and, not_or, not_lt] at hl
          exact (hl hp).2.trans (hb.x i hi).1
      · by_cases hu : i ∈ spaces.xUPos
        · exact (point_of_mem hp).trans_le (hf.xU i hu)
        · rw [h.xUPos, not_and, not_or, not_lt] at hu
          exact (hb.x i hi).2.trans (hu hp).2
    · -- a fixed variable is at both of its bounds
      have he := (h.fixed i (h.mem_fixed hi hp)).2
      rw [point_of_not_mem hp]
      exact ⟨le_rfl, he.le⟩
  · by_cases he : raw N.bounds.gLb r = raw N.bounds.gUb r
    · have hc := sub_eq_zero.mp (hf.c r ((h.cPos r).mpr ⟨hr, he⟩))
      exact ⟨hc.ge, hc.trans_le he.le⟩
    · have hd := (h.dPos r).mpr ⟨hr, he⟩
      constructor
      · by_cases hl : r ∈ spaces.dLPos
        · exact hf.dL r hl
        · rw [h.dLPos, not_and, not_lt] at hl
          exact (hl hd).trans (hb.g r hr).1
      · by_cases hu : r ∈ spaces.dUPos
        · exact hf.dU r hu
        · rw [h.dUPos, not_and, not_lt] at hu
          exact (hb.g r hr).2.trans (hu hd)

/-- Every point within the bounds has its fixed variables there, so none is left out. -/
theorem Splits.minimizer_of_least (hn : N.bounds.xLb.length = N.numberVars)
    (hb : BelowInf N (point N spaces x)) (hl : Least N spaces x) :
    N.Minimizer (point N spaces x) where
  admissible := (h.feasible_iff hb).mp hl.feasible
  least := by
    intro y hy ha
    have hf : ∀ i ∈ spaces.xFixedMap, raw y i = raw N.bounds.xLb i := by
      intro i hi
      obtain ⟨h1, h2⟩ := ha.bounds i ((h.vars i).mpr (.inr hi))
      exact le_antisymm (h2.trans_eq (h.fixed i hi).2.symm) h1
    have hr := h.point_restrict hn hy hf
    rw [← hr] at ha ⊢
    exact hl.least _ (List.length_map _) (h.feasible_of_admissible ha)

end Feasible

/-! ## Stationary points -/

section Stationary

variable {K : Type} [Field K] [LinearOrder K] (N : Functions K) (spaces : Spaces)
variable (x yc yd zL zU : List K)

/-- Column `k` of the nonzeros of a part, with the multipliers of its rows. -/
def column (part : List Nonzero) (y : List K) (k : Nat) : K :=
  (part.map fun e => if e.col = k then N.jacG (point N spaces x) e.idx * raw y e.row else 0).sum

/-- `∇f(x) + ∇c(x) y_c + ∇d(x) y_d - P_L z_L + P_U z_U = 0`. -/
def Stationary : Prop :=
  ∀ i ∈ spaces.xPos, N.gradF (point N spaces x) i +
    (column N spaces x spaces.jacC yc (spaces.xPos.idxOf i) +
      column N spaces x spaces.jacD yd (spaces.xPos.idxOf i)) -
    (resortBounds spaces zL zU).1 i + (resortBounds spaces zL zU).2 i = 0

/-- The gradient of the Lagrangian, without bounds. -/
def gradient (i : Nat) : K :=
  N.gradF (point N spaces x) i + ∑ k ∈ Finset.range N.nnzJac,
    if N.jac.col k = i then N.jacG (point N spaces x) k * duals spaces yc yd (N.jac.row k) else 0

/-- The multipliers of the bounds: at a fixed variable they make up for the gradient. -/
def boundDuals : (Nat → K) × (Nat → K) :=
  (fun i => if i ∈ spaces.xFixedMap then max 0 (gradient N spaces x yc yd i)
    else (resortBounds spaces zL zU).1 i,
  fun i => if i ∈ spaces.xFixedMap then max 0 (-gradient N spaces x yc yd i)
    else (resortBounds spaces zL zU).2 i)

variable {N spaces} (h : Splits N spaces)

include h

omit h [LinearOrder K] in
theorem column_nonzeros (y : List K) (rows : List Nat) {i : Nat} (hi : i ∈ spaces.xPos) :
    column N spaces x (nonzeros N.nnzJac N.jac rows spaces.xPos) y (spaces.xPos.idxOf i) =
      ∑ k ∈ Finset.range N.nnzJac, if N.jac.row k ∈ rows ∧ N.jac.col k = i then
        N.jacG (point N spaces x) k * raw y (rows.idxOf (N.jac.row k)) else 0 := by
  unfold column nonzeros
  rw [List.map_map, sum_map_filter, sum_map_range]
  refine Finset.sum_congr rfl fun k _ => ?_
  by_cases hc : N.jac.col k = i
  · by_cases hr : N.jac.row k ∈ rows
    · simp [hr, hc, hi]
    · simp [hr]
  · -- positions of different variables differ
    have hne (hm : N.jac.col k ∈ spaces.xPos) :
        spaces.xPos.idxOf (N.jac.col k) ≠ spaces.xPos.idxOf i := fun e =>
      hc ((List.idxOf_inj hm).mp e)
    by_cases hm : N.jac.col k ∈ spaces.xPos
    · simp [hc, hne hm]
    · simp [hc, hm]

theorem Splits.sum_columns {i : Nat} (hi : i ∈ spaces.xPos) :
    column N spaces x spaces.jacC yc (spaces.xPos.idxOf i) +
        column N spaces x spaces.jacD yd (spaces.xPos.idxOf i) =
      ∑ k ∈ Finset.range N.nnzJac, if N.jac.col k = i then
        N.jacG (point N spaces x) k * duals spaces yc yd (N.jac.row k) else 0 := by
  rw [h.jacC, h.jacD, column_nonzeros _ _ _ hi, column_nonzeros _ _ _ hi,
    ← Finset.sum_add_distrib]
  refine Finset.sum_congr rfl fun k _ => ?_
  by_cases hc : N.jac.col k = i
  · by_cases hr : N.jac.row k < N.numberConstraints
    · by_cases he : raw N.bounds.gLb (N.jac.row k) = raw N.bounds.gUb (N.jac.row k)
      · have h1 : N.jac.row k ∈ spaces.cPos := (h.cPos _).mpr ⟨hr, he⟩
        have h2 : N.jac.row k ∉ spaces.dPos := fun hd => ((h.dPos _).mp hd).2 he
        simp [hc, h1, h2, duals, resortG, resort]
      · have h1 : N.jac.row k ∉ spaces.cPos := fun hc => he ((h.cPos _).mp hc).2
        have h2 : N.jac.row k ∈ spaces.dPos := (h.dPos _).mpr ⟨hr, he⟩
        simp [hc, h1, h2, duals, resortG, resort]
    · have h1 : N.jac.row k ∉ spaces.cPos := fun hc => hr ((h.cPos _).mp hc).1
      have h2 : N.jac.row k ∉ spaces.dPos := fun hd => hr ((h.dPos _).mp hd).1
      simp [hc, h1, h2, duals, resortG, resort]
  · simp [hc]

/-- With its multipliers resorted, and those of fixed variables recovered, a point is stationary
for the NLP where it is for the algorithm. -/
theorem Splits.stationary_iff [IsStrictOrderedRing K] (hn : N.bounds.xLb.length = N.numberVars) :
    N.Stationary
        { x := fill N.numberVars (point N spaces x)
          lambda := fill N.numberConstraints (duals spaces yc yd)
          zLb := fill N.numberVars (boundDuals N spaces x yc yd zL zU).1
          zUb := fill N.numberVars (boundDuals N spaces x yc yd zL zU).2 } ↔
      Stationary N spaces x yc yd zL zU := by
  have hx : raw (fill N.numberVars (point N spaces x)) = point N spaces x :=
    raw_fill_of_le fun i hi => h.point_of_le hn hi
  have hy : raw (fill N.numberConstraints (duals spaces yc yd)) = duals spaces yc yd :=
    raw_fill_of_le fun r hr => h.duals_of_le hr
  unfold NLP.Functions.Stationary
  dsimp only
  rw [hx, hy]
  have entry (i : Nat) (hi : i < N.numberVars) : N.gradF (point N spaces x) i +
      (∑ k ∈ Finset.range N.nnzJac, if N.jac.col k = i then
        N.jacG (point N spaces x) k * duals spaces yc yd (N.jac.row k) else 0) -
      raw (fill N.numberVars (boundDuals N spaces x yc yd zL zU).1) i +
      raw (fill N.numberVars (boundDuals N spaces x yc yd zL zU).2) i =
    if i ∈ spaces.xPos then N.gradF (point N spaces x) i +
      (column N spaces x spaces.jacC yc (spaces.xPos.idxOf i) +
        column N spaces x spaces.jacD yd (spaces.xPos.idxOf i)) -
      (resortBounds spaces zL zU).1 i + (resortBounds spaces zL zU).2 i else 0 := by
    rw [raw_fill_lt _ hi, raw_fill_lt _ hi]
    dsimp only [boundDuals]
    by_cases hp : i ∈ spaces.xPos
    · have hf : i ∉ spaces.xFixedMap := fun hf => (h.fixed i hf).1 hp
      rw [if_neg hf, if_neg hf, if_pos hp, h.sum_columns x yc yd hp]
    · -- what is positive goes to the lower bound, what is negative to the upper one
      have hf := h.mem_fixed hi hp
      rw [if_pos hf, if_pos hf, if_neg hp, ← gradient, max_comm, max_comm 0, sub_add,
        max_zero_sub_max_neg_zero_eq_self, sub_self]
  constructor
  · intro hs i hp
    have hi := h.lt_of_xPos hp
    have := entry i hi
    rw [if_pos hp] at this
    exact this.symm.trans (hs i hi)
  · intro hs i hi
    rw [entry i hi]
    split
    · exact hs i ‹_›
    · rfl

end Stationary

end Ipopt
end Moo
