import Moo.Base.MeshRefinement
import Moo.GDOP.Strategies

/-!
# GDOP.Corner

The corner rule of phase two, at the grid point between two intervals.

* `d1`, `d2`: `D u` and `D D u` on an interval, all of their components.
* `cornerRule`: the part of `detectInterval` that compares the end of the last interval with the
  start of this one. `beforeInterval`: the variables the rule finds.
* `beforeInterval_lastEnd`: the end values are read at the end of the buffers, which is the end of
  the interval for the highest scheme only.
-/

namespace Moo

open Polynomial in
/-- `D` differentiates the polynomials that the nodes determine. -/
def FLGR.Differentiates {K : Type} [Field K] (T : FLGR K) (p : Nat) : Prop :=
  ∀ q : K[X], q.degree < (p + 1 : Nat) → ∀ k, k < p + 1 →
    ∑ col ∈ Finset.range (p + 1), T.getD p k col * q.eval (T.getC0 p col) =
      (derivative q).eval (T.getC0 p k)

namespace GDOP

open Loop FixedVector Mesh Polynomial

section Rule

variable {K : Type} [Field K] [LinearOrder K] {T : FLGR K} (M : Mesh T) (uVec : List K)

/-- The control on interval `i`. -/
def controlOn (i k : Nat) : K := raw uVec (M.accNodesAt i 0 + k)

def d1 (i k : Nat) : K := ∑ col ∈ Finset.range (M.nodesAt i + 1),
  T.getD (M.nodesAt i) k col * controlOn M uVec i col

def d2 (i k : Nat) : K := ∑ col ∈ Finset.range (M.nodesAt i + 1),
  T.getD (M.nodesAt i) k col * d1 M uVec i col

/-- `ERR_1 > CTOL_1[u_idx] || ERR_2 > CTOL_2[u_idx]`. -/
def cornerRule (ctol1 ctol2 : K) (i : Nat) (s : Detection K) : Bool :=
  let scheme := M.nodesAt i
  let startIndex := M.accNodesAt i 0
  let p1 := T.diffMatrixMultiply scheme (fun k => raw uVec (startIndex + k)) s.p1
  let p2 := T.diffMatrixMultiply scheme p1 s.p2
  let p1 := square scheme 1 p1
  let p2 := square scheme 1 p2
  s.lastEnd.elim false fun lastEnd =>
    decide (0 < i) && (decide (plusOneError (p1 0) lastEnd.1 > ctol1) ||
      decide (plusOneError (p2 0) lastEnd.2 > ctol2))

variable (sqrt : K → K) (N : L2BoundaryNorm K) (pow : K → K → K) (u : List (List K))

/-- The variables of phase two before interval `i` of control `uIdx`. -/
def beforeInterval (uIdx i : Nat) : Detection K :=
  forRange i (N.detectIntervalOf M sqrt pow u uIdx)
    (forRange uIdx (N.detectControl M sqrt pow u) .start)

/-! ## The buffers -/

omit [LinearOrder K] in
theorem square_apply (size : Nat) (x : Nat → K) (k : Nat) :
    square size 1 x k = if 1 ≤ k ∧ k < 1 + size then x k * x k else x k :=
  forRange_modifyFrom 1 size (fun y => y * y) x k

/-- What interval `i` leaves of the buffers and for the next interval. -/
structure Left (i : Nat) (s s' : Detection K) : Prop where
  behind : ∀ k, M.nodesAt i < k → s'.p1 k = s.p1 k ∧ s'.p2 k = s.p2 k
  lastEnd : s'.lastEnd = some
    (if maxScheme < M.nodesAt i + 1 then d1 M uVec i maxScheme else s.p1 maxScheme,
      if maxScheme < M.nodesAt i + 1 then d2 M uVec i maxScheme else s.p2 maxScheme)

/-- The second product reads the first one where it was written. -/
theorem diffMatrixMultiply_twice (i : Nat) (s : Detection K) (k : Nat) :
    T.diffMatrixMultiply (M.nodesAt i)
        (T.diffMatrixMultiply (M.nodesAt i) (controlOn M uVec i) s.p1) s.p2 k =
      if k < M.nodesAt i + 1 then d2 M uVec i k else s.p2 k := by
  rw [T.diffMatrixMultiply_apply]
  refine if_congr Iff.rfl (Finset.sum_congr rfl fun col hcol => ?_) rfl
  rw [T.diffMatrixMultiply_apply, if_pos (Finset.mem_range.mp hcol), d1]

theorem detectInterval_left (tol1 tol2 ctol1 ctol2 : K) (i : Nat) (s : Detection K) :
    Left M uVec i s (detectInterval sqrt M uVec tol1 tol2 ctol1 ctol2 i s) := by
  constructor
  · intro k hk
    have hp1 : (detectInterval sqrt M uVec tol1 tol2 ctol1 ctol2 i s).p1 k =
        square (M.nodesAt i) 1
          (T.diffMatrixMultiply (M.nodesAt i) (controlOn M uVec i) s.p1) k := rfl
    have hp2 : (detectInterval sqrt M uVec tol1 tol2 ctol1 ctol2 i s).p2 k =
        square (M.nodesAt i) 1 (T.diffMatrixMultiply (M.nodesAt i)
          (T.diffMatrixMultiply (M.nodesAt i) (controlOn M uVec i) s.p1) s.p2) k := rfl
    rw [hp1, hp2, square_apply, square_apply, if_neg (by omega), if_neg (by omega),
      T.diffMatrixMultiply_apply, diffMatrixMultiply_twice, if_neg (by omega), if_neg (by omega)]
    exact ⟨rfl, rfl⟩
  · have hp1 := T.diffMatrixMultiply_apply (M.nodesAt i) (controlOn M uVec i) s.p1 maxScheme
    have hp2 := diffMatrixMultiply_twice M uVec i s maxScheme
    exact congrArg some (Prod.ext hp1 hp2)

theorem beforeInterval_left (uIdx i : Nat) :
    Left M (u.getD uIdx []) i (beforeInterval M sqrt N pow u uIdx i)
      (beforeInterval M sqrt N pow u uIdx (i + 1)) :=
  detectInterval_left M _ sqrt _ _ _ _ i _

/-- Cell `k` of the buffers has not been written. -/
def Clean (k : Nat) (s : Detection K) : Prop := s.p1 k = 0 ∧ s.p2 k = 0

variable {M uVec sqrt} in
theorem clean_step {tol1 tol2 ctol1 ctol2 : K} {i k : Nat} {s : Detection K}
    (hk : M.nodesAt i < k) (hs : Clean k s) :
    Clean k (detectInterval sqrt M uVec tol1 tol2 ctol1 ctol2 i s) := by
  obtain ⟨h1, h2⟩ := (detectInterval_left M uVec sqrt tol1 tol2 ctol1 ctol2 i s).behind k hk
  exact ⟨h1.trans hs.1, h2.trans hs.2⟩

section Constant

variable {p : Nat} (hp : ∀ q ∈ M.nodes, q = p) (uIdx : Nat)

include hp

/-- With one scheme on all intervals, the buffers are never written behind it. -/
theorem beforeInterval_clean {i : Nat} (hi : i ≤ M.intervals) {k : Nat} (hk : p < k) :
    Clean k (beforeInterval M sqrt N pow u uIdx i) := by
  have hnodes : ∀ m, m < M.intervals → M.nodesAt m < k := by
    intro m hm
    rw [hp _ (M.nodesAt_mem hm)]
    exact hk
  have controls : Clean k (forRange uIdx (N.detectControl M sqrt pow u) .start) := by
    refine forRange_inv (P := fun _ => Clean k) ⟨rfl, rfl⟩ fun v _ s hs => ?_
    refine forRange_inv (P := fun _ => Clean k) hs fun m hm s hs => ?_
    rw [M.grid_length, Nat.add_sub_cancel] at hm
    exact clean_step (hnodes m hm) hs
  exact forRange_inv (P := fun _ => Clean k) controls fun m hm s hs =>
    clean_step (hnodes m (by omega)) hs

/-- The end of the last interval, where the buffers end with it, else what the buffers were
created with. -/
theorem beforeInterval_lastEnd {i : Nat} (hi : i < M.intervals) (hmax : p ≤ maxScheme) :
    (beforeInterval M sqrt N pow u uIdx (i + 1)).lastEnd = some
      (if p = maxScheme then d1 M (u.getD uIdx []) i p else 0,
        if p = maxScheme then d2 M (u.getD uIdx []) i p else 0) := by
  have hnodes : M.nodesAt i = p := hp _ (M.nodesAt_mem hi)
  rw [(beforeInterval_left M sqrt N pow u uIdx i).lastEnd]
  rcases Nat.lt_or_eq_of_le hmax with hlt | rfl
  · obtain ⟨h1, h2⟩ := beforeInterval_clean M sqrt N pow u hp uIdx hi.le hlt
    rw [hnodes, if_neg (by omega), if_neg (by omega), if_neg hlt.ne, if_neg hlt.ne, h1, h2]
  · rw [hnodes, if_pos (Nat.lt_succ_self _), if_pos (Nat.lt_succ_self _), if_pos rfl, if_pos rfl]

end Constant

end Rule

/-! ## Polynomial controls -/

section Smooth

variable {K : Type} [Field K] [LinearOrder K] {T : FLGR K} {M : Mesh T} {uVec : List K} {q : K[X]}

/-- The control on interval `i` is sampled from `q`. -/
def SampledFrom (M : Mesh T) (uVec : List K) (q : K[X]) (i : Nat) : Prop :=
  ∀ k, k < M.nodesAt i + 1 →
    controlOn M uVec i k = q.eval (raw M.getFlatT (M.accNodesAt i 0 + k))

variable (h0 : M.gridAt 0 = 0) (hT : ∀ p ∈ M.nodes, T.Nodes0 p)
variable (hD : ∀ p ∈ M.nodes, T.Differentiates p)

include h0 hT

/-- Where node `k` of an interval is. -/
theorem sampleTime_eq {i : Nat} (hi : i < M.intervals) {k : Nat} (hk : k < M.nodesAt i + 1) :
    raw M.getFlatT (M.accNodesAt i 0 + k) =
      M.gridAt i + T.getC0 (M.nodesAt i) k * (M.gridAt (i + 1) - M.gridAt i) := by
  rw [M.accNodesAt_eq hi (M.nodesAt_pos hi), Nat.add_zero, getFlatT_window hT h0 hi hk,
    nodeTime_eq hT hi]

include hD

theorem product_eval {i : Nat} (hi : i < M.intervals) (hq : q.degree < (M.nodesAt i + 1 : Nat))
    {v : Nat → K} (hv : ∀ k, k < M.nodesAt i + 1 →
      v k = q.eval (raw M.getFlatT (M.accNodesAt i 0 + k))) {k : Nat} (hk : k < M.nodesAt i + 1) :
    ∑ col ∈ Finset.range (M.nodesAt i + 1), T.getD (M.nodesAt i) k col * v col =
      (C (M.gridAt (i + 1) - M.gridAt i) * derivative q).eval
        (raw M.getFlatT (M.accNodesAt i 0 + k)) := by
  -- the polynomial on the reference interval
  let r := q.comp (C (M.gridAt (i + 1) - M.gridAt i) * X + C (M.gridAt i))
  have hr : r.degree < (M.nodesAt i + 1 : Nat) := Barycentric.degree_comp_lt hq _ _
  have htime : ∀ k, k < M.nodesAt i + 1 →
      (C (M.gridAt (i + 1) - M.gridAt i) * X + C (M.gridAt i)).eval (T.getC0 (M.nodesAt i) k) =
        raw M.getFlatT (M.accNodesAt i 0 + k) := by
    intro k hk
    rw [sampleTime_eq h0 hT hi hk]
    simp only [eval_add, eval_mul, eval_C, eval_X]
    ring
  have hsample : ∀ col ∈ Finset.range (M.nodesAt i + 1),
      T.getD (M.nodesAt i) k col * v col =
        T.getD (M.nodesAt i) k col * r.eval (T.getC0 (M.nodesAt i) col) := by
    intro col hcol
    rw [Finset.mem_range] at hcol
    rw [hv col hcol, eval_comp, htime col hcol]
  rw [Finset.sum_congr rfl hsample, hD _ (M.nodesAt_mem hi) r hr k hk, derivative_comp, eval_mul,
    eval_comp, htime k hk, eval_mul, eval_C]
  simp

theorem d1_eval {i : Nat} (hi : i < M.intervals) (hq : q.degree < (M.nodesAt i + 1 : Nat))
    (hu : SampledFrom M uVec q i) {k : Nat} (hk : k < M.nodesAt i + 1) :
    d1 M uVec i k = (C (M.gridAt (i + 1) - M.gridAt i) * derivative q).eval
      (raw M.getFlatT (M.accNodesAt i 0 + k)) :=
  product_eval h0 hT hD hi hq hu hk

theorem d2_eval {i : Nat} (hi : i < M.intervals) (hq : q.degree < (M.nodesAt i + 1 : Nat))
    (hu : SampledFrom M uVec q i) {k : Nat} (hk : k < M.nodesAt i + 1) :
    d2 M uVec i k = (C (M.gridAt (i + 1) - M.gridAt i) *
      derivative (C (M.gridAt (i + 1) - M.gridAt i) * derivative q)).eval
        (raw M.getFlatT (M.accNodesAt i 0 + k)) := by
  refine product_eval h0 hT hD hi ?_ (fun k hk => d1_eval h0 hT hD hi hq hu hk) hk
  rw [← smul_eq_C_mul]
  exact (degree_smul_le _ _).trans_lt ((degree_derivative_le).trans_lt hq)

/-- The end of an interval and the start of the next one of its length have the same derivatives,
where one polynomial goes through both. -/
theorem d1_d2_eq {p : Nat} (hp : ∀ q ∈ M.nodes, q = p) {i : Nat} (hi : i + 1 < M.intervals)
    (hlen : M.gridAt (i + 2) - M.gridAt (i + 1) = M.gridAt (i + 1) - M.gridAt i)
    (hq : q.degree < (p + 1 : Nat)) (hl : SampledFrom M uVec q i)
    (hr : SampledFrom M uVec q (i + 1)) :
    d1 M uVec (i + 1) 0 = d1 M uVec i p ∧ d2 M uVec (i + 1) 0 = d2 M uVec i p := by
  have hni : M.nodesAt i = p := hp _ (M.nodesAt_mem (by omega))
  have hni' : M.nodesAt (i + 1) = p := hp _ (M.nodesAt_mem hi)
  have htime : raw M.getFlatT (M.accNodesAt (i + 1) 0 + 0) =
      raw M.getFlatT (M.accNodesAt i 0 + p) := by
    rw [M.accNodesAt_eq hi (M.nodesAt_pos hi),
      M.accNodesAt_eq (by omega) (M.nodesAt_pos (by omega)), M.nodesBefore_succ, hni]
    rfl
  have hqi : q.degree < (M.nodesAt i + 1 : Nat) := by rw [hni]; exact hq
  have hqi' : q.degree < (M.nodesAt (i + 1) + 1 : Nat) := by rw [hni']; exact hq
  have hi0 : i < M.intervals := by omega
  have hk : p < M.nodesAt i + 1 := by omega
  rw [d1_eval h0 hT hD hi hqi' hr (Nat.succ_pos _), d2_eval h0 hT hD hi hqi' hr (Nat.succ_pos _),
    d1_eval h0 hT hD hi0 hqi hl hk, d2_eval h0 hT hD hi0 hqi hl hk, htime, hlen]
  exact ⟨rfl, rfl⟩

end Smooth

/-! ## The rule -/

section Corner

variable {K : Type} [Field K] [LinearOrder K] {T : FLGR K}

/-- No tolerance of a corner is negative. -/
structure L2BoundaryNorm.Tolerant (N : L2BoundaryNorm K) : Prop where
  ctol1 : ∀ uIdx, 0 ≤ raw N.ctol1 uIdx
  ctol2 : ∀ uIdx, 0 ≤ raw N.ctol2 uIdx

/-- The rule at the start of interval `i` compares the derivatives on both sides. -/
structure TrueCorner (M : Mesh T) (sqrt : K → K) (N : L2BoundaryNorm K) (pow : K → K → K)
    (u : List (List K)) (uIdx i : Nat) : Prop where
  last : (beforeInterval M sqrt N pow u uIdx i).lastEnd = some
    (d1 M (u.getD uIdx []) (i - 1) (M.nodesAt (i - 1)),
      d2 M (u.getD uIdx []) (i - 1) (M.nodesAt (i - 1)))
  compare : cornerRule M (u.getD uIdx []) (raw N.ctol1 uIdx) (raw N.ctol2 uIdx) i
      (beforeInterval M sqrt N pow u uIdx i) =
    (beforeInterval M sqrt N pow u uIdx i).lastEnd.elim false fun lastEnd =>
      decide (plusOneError (d1 M (u.getD uIdx []) i 0) lastEnd.1 > raw N.ctol1 uIdx) ||
        decide (plusOneError (d2 M (u.getD uIdx []) i 0) lastEnd.2 > raw N.ctol2 uIdx)
  smooth : ∀ q : K[X], q.degree < (M.nodesAt i + 1 : Nat) →
    M.gridAt (i + 1) - M.gridAt i = M.gridAt i - M.gridAt (i - 1) →
    SampledFrom M (u.getD uIdx []) q (i - 1) → SampledFrom M (u.getD uIdx []) q i →
    cornerRule M (u.getD uIdx []) (raw N.ctol1 uIdx) (raw N.ctol2 uIdx) i
      (beforeInterval M sqrt N pow u uIdx i) = false

variable [IsStrictOrderedRing K]

theorem plusOneError_self (a : K) : plusOneError a a = 0 := by
  rw [plusOneError, sub_self, abs_zero, zero_div]

namespace L2BoundaryNorm

theorem reset_tolerant (N : L2BoundaryNorm K) (M : Mesh T) (uSize : Nat) :
    (N.reset M uSize).Tolerant := by
  have h : ∀ uIdx, (0 : K) ≤ raw (fill uSize fun _ => 1 / 10) uIdx := by
    intro uIdx
    rcases Nat.lt_or_ge uIdx uSize with hlt | hge
    · rw [raw_fill_lt _ hlt]
      positivity
    · rw [raw, List.getD_eq_default _ _ (by simpa using hge)]
  exact ⟨h, h⟩

end L2BoundaryNorm

omit [IsStrictOrderedRing K] in
/-- The first entries are the derivatives at the start, the squares begin behind them. -/
theorem cornerRule_eq (M : Mesh T) (uVec : List K) (ctol1 ctol2 : K) {i : Nat} (hi : 0 < i)
    (s : Detection K) : cornerRule M uVec ctol1 ctol2 i s = s.lastEnd.elim false fun lastEnd =>
      decide (plusOneError (d1 M uVec i 0) lastEnd.1 > ctol1) ||
        decide (plusOneError (d2 M uVec i 0) lastEnd.2 > ctol2) := by
  have h1 : T.diffMatrixMultiply (M.nodesAt i) (controlOn M uVec i) s.p1 0 = d1 M uVec i 0 :=
    (T.diffMatrixMultiply_apply _ _ _ _).trans (if_pos (Nat.succ_pos _))
  have h2 := (diffMatrixMultiply_twice M uVec i s 0).trans (if_pos (Nat.succ_pos _))
  unfold cornerRule
  simp only [square_apply, hi, decide_true, Bool.true_and]
  rw [← h1, ← h2]
  rfl

variable {M : Mesh T} {p : Nat}

/-- With one scheme on all intervals, corners are found by true derivatives where the buffers end
with the interval, or where those at the end of the last interval are zero. -/
theorem corner_detection (hp : ∀ q ∈ M.nodes, q = p) (hmax : p ≤ maxScheme)
    (hstart : M.gridAt 0 = 0) (hT : T.Nodes0 p) (hD : T.Differentiates p) (sqrt : K → K)
    {N : L2BoundaryNorm K} (hN : N.Tolerant) (pow : K → K → K) (u : List (List K)) (uIdx : Nat)
    {i : Nat} (hi : 0 < i) (hi' : i < M.intervals) :
    TrueCorner M sqrt N pow u uIdx i ↔ p = maxScheme ∨
      (d1 M (u.getD uIdx []) (i - 1) p = 0 ∧ d2 M (u.getD uIdx []) (i - 1) p = 0) := by
  obtain ⟨k, rfl⟩ : ∃ k, i = k + 1 := ⟨i - 1, by omega⟩
  have hk : k < M.intervals := by omega
  have hnodes : M.nodesAt k = p := hp _ (M.nodesAt_mem hk)
  have hnodes' : M.nodesAt (k + 1) = p := hp _ (M.nodesAt_mem hi')
  have hlast := beforeInterval_lastEnd M sqrt N pow u hp uIdx hk hmax
  rw [Nat.add_sub_cancel]
  constructor
  · intro h
    refine or_iff_not_imp_left.mpr fun hne => ?_
    have he := h.last
    rw [hlast, if_neg hne, if_neg hne, Nat.add_sub_cancel, hnodes] at he
    have hpair := Option.some.inj he
    exact ⟨(congrArg Prod.fst hpair).symm, (congrArg Prod.snd hpair).symm⟩
  · intro h
    have htrue : (beforeInterval M sqrt N pow u uIdx (k + 1)).lastEnd =
        some (d1 M (u.getD uIdx []) k p, d2 M (u.getD uIdx []) k p) := by
      rw [hlast]
      rcases h with h | ⟨h1, h2⟩
      · rw [if_pos h, if_pos h]
      · rw [h1, h2, ite_self]
    refine ⟨?_, cornerRule_eq M _ _ _ hi _, fun q hq hlen hl hr => ?_⟩
    · rw [htrue, Nat.add_sub_cancel, hnodes]
    · have hT' : ∀ q ∈ M.nodes, T.Nodes0 q := fun q hq => hp q hq ▸ hT
      have hD' : ∀ q ∈ M.nodes, T.Differentiates q := fun q hq => hp q hq ▸ hD
      rw [hnodes'] at hq
      rw [Nat.add_sub_cancel] at hlen hl
      obtain ⟨h1, h2⟩ := d1_d2_eq hstart hT' hD' hp hi' hlen hq hl hr
      rw [cornerRule_eq M _ _ _ hi, htrue]
      simp only [Option.elim_some, h1, h2, plusOneError_self]
      rw [decide_eq_false (not_lt.mpr (hN.ctol1 uIdx)),
        decide_eq_false (not_lt.mpr (hN.ctol2 uIdx)), Bool.or_false]

end Corner

theorem unitSteps_pos : ∀ p ∈ [1, 1], 0 < p := by decide

/-- Two intervals of length one, with one node each. -/
def unitSteps : Mesh radauTwo := createFromMeshUpdate radauTwo
  { newGrid := [0, 1, 2], newNodesPerInterval := [1, 1], nonempty := List.cons_ne_nil _ _,
    grid_length := rfl, nodes_pos := unitSteps_pos }

def oneControl : L2BoundaryNorm ℚ :=
  L2BoundaryNorm.reset
    { phaseOneIteration := 0, phaseTwoIteration := 0, maxPhaseOneIterations := 0,
      maxPhaseTwoIterations := 1, phaseTwoLevel := 0, meshSizeZero := 0, ctol1 := [],
      ctol2 := [] } unitSteps 1

/-- The control `t` has a corner, at `t = 1`. -/
theorem corner_line :
    ¬ TrueCorner unitSteps id oneControl (fun _ _ => 1) [[0, 1, 2]] 0 1 ∧
      SampledFrom unitSteps [0, 1, 2] X 0 ∧ SampledFrom unitSteps [0, 1, 2] X 1 ∧
      cornerRule unitSteps [0, 1, 2] (1 / 10) (1 / 10) 1
        (beforeInterval unitSteps id oneControl (fun _ _ => 1) [[0, 1, 2]] 0 1) = true := by
  have hlast : (beforeInterval unitSteps id oneControl (fun _ _ => 1) [[0, 1, 2]] 0 1).lastEnd =
      some (0, 0) := by decide +kernel
  have hd : d1 unitSteps [0, 1, 2] 0 1 = 1 := by decide +kernel
  have hs : ∀ i < 2, ∀ k < unitSteps.nodesAt i + 1, controlOn unitSteps [0, 1, 2] i k =
      raw unitSteps.getFlatT (unitSteps.accNodesAt i 0 + k) := by decide +kernel
  refine ⟨fun h => ?_, fun k hk => ?_, fun k hk => ?_, by decide +kernel⟩
  · have he := h.last
    rw [hlast] at he
    have hzero : (0 : ℚ) = d1 unitSteps [0, 1, 2] 0 1 := congrArg Prod.fst (Option.some.inj he)
    rw [hd] at hzero
    exact zero_ne_one hzero
  · rw [eval_X]
    exact hs 0 (by decide) k hk
  · rw [eval_X]
    exact hs 1 (by decide) k hk

theorem radauTwo_differentiates : radauTwo.Differentiates 1 := by
  intro q hq k hk
  obtain ⟨a, b, rfl⟩ := exists_eq_X_add_C_of_natDegree_le_one (natDegree_le_of_degree_le
    (Order.le_of_lt_succ hq))
  have table : ∀ k < 2, radauTwo.getD 1 k 0 = -1 ∧ radauTwo.getD 1 k 1 = 1 := by decide +kernel
  have nodes : radauTwo.getC0 1 0 = 0 ∧ radauTwo.getC0 1 1 = 1 := by decide +kernel
  rw [Finset.sum_range_succ, Finset.sum_range_one, (table k hk).1, (table k hk).2, nodes.1,
    nodes.2]
  simp

/-- A constant control has none. -/
theorem corner_constant : TrueCorner unitSteps id oneControl (fun _ _ => 1) [[3, 3, 3]] 0 1 := by
  refine (corner_detection (p := 1) ?_ (by decide) rfl (radauTwo_nodes0 (.inl rfl))
    radauTwo_differentiates id (L2BoundaryNorm.reset_tolerant _ _ _) _ _ 0 Nat.one_pos
    (by decide)).mpr (.inr (by decide +kernel))
  intro q hq
  simpa [unitSteps, createFromMeshUpdate] using hq

end GDOP
end Moo
