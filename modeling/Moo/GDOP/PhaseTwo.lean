import Moo.GDOP.Corner
import Moo.GDOP.Transcription

/-!
# GDOP.PhaseTwo

Which intervals phase two of `L2BoundaryNorm` halves.

* `localControl`: the polynomial of a control on an interval, over `[0, 1]`.
* `normAt_iff`: the on-interval condition compares the L2 norms of the derivatives of this
  polynomial (`Rough`).
* `cornerAt_iff`: the boundary condition, as it is evaluated (`Kink`).
* `mem_detect`: the points of the new grid, over all controls and intervals.
* `phase_two`: a null pointer when no interval of any control is asked for, else the old grid with
  the midpoints asked for.
-/

namespace Moo
namespace GDOP

open Loop FixedVector Mesh Polynomial Collocation Partition

/-! ## The on-interval condition -/

section Norm

variable {K : Type} [Field K] [LinearOrder K] {T : FLGR K} (M : Mesh T) (uVec : List K)

/-- `norm_p_1 > TOL_1 || norm_p_2 > TOL_2`. -/
def normRule (sqrt : K → K) (tol1 tol2 : K) (i : Nat) (s : Detection K) : Bool :=
  let scheme := M.nodesAt i
  let startIndex := M.accNodesAt i 0
  let p1 := T.diffMatrixMultiply scheme (fun k => raw uVec (startIndex + k)) s.p1
  let p2 := T.diffMatrixMultiply scheme p1 s.p2
  let p1 := square scheme 1 p1
  let p2 := square scheme 1 p2
  decide (sqrt (T.integrate scheme fun k => p1 (1 + k)) > tol1) ||
    decide (sqrt (T.integrate scheme fun k => p2 (1 + k)) > tol2)

/-- The pass is made of the two rules. -/
theorem detectInterval_rules (sqrt : K → K) (tol1 tol2 ctol1 ctol2 : K) (i : Nat)
    (s : Detection K) :
    (detectInterval sqrt M uVec tol1 tol2 ctol1 ctol2 i s).terminated =
        (s.terminated && !normRule M uVec sqrt tol1 tol2 i s &&
          !cornerRule M uVec ctol1 ctol2 i s) ∧
      (detectInterval sqrt M uVec tol1 tol2 ctol1 ctol2 i s).newGrid =
        insertPoints M i (normRule M uVec sqrt tol1 tol2 i s)
          (cornerRule M uVec ctol1 ctol2 i s) s.newGrid :=
  ⟨rfl, rfl⟩

/-- The quadrature of the squares, whatever the buffers held. -/
theorem normRule_eq (sqrt : K → K) (tol1 tol2 : K) (i : Nat) (s : Detection K) :
    normRule M uVec sqrt tol1 tol2 i s =
      (decide (sqrt (∑ k ∈ Finset.range (M.nodesAt i),
          T.getB (M.nodesAt i) k * d1 M uVec i (k + 1) ^ 2) > tol1) ||
        decide (sqrt (∑ k ∈ Finset.range (M.nodesAt i),
          T.getB (M.nodesAt i) k * d2 M uVec i (k + 1) ^ 2) > tol2)) := by
  have squares : ∀ (x d : Nat → K), (∀ k, k < M.nodesAt i + 1 → x k = d k) →
      T.integrate (M.nodesAt i) (fun k => square (M.nodesAt i) 1 x (1 + k)) =
        ∑ k ∈ Finset.range (M.nodesAt i), T.getB (M.nodesAt i) k * d (k + 1) ^ 2 := by
    intro x d hx
    rw [FLGR.integrate, forRange_sum]
    refine Finset.sum_congr rfl fun k hk => ?_
    have hk := Finset.mem_range.mp hk
    rw [square_apply, if_pos (by omega), Nat.add_comm 1 k, hx (k + 1) (by omega)]
    ring
  have h1 := squares (T.diffMatrixMultiply (M.nodesAt i) (controlOn M uVec i) s.p1)
    (d1 M uVec i) fun k hk => (T.diffMatrixMultiply_apply _ _ _ _).trans (if_pos hk)
  have h2 := squares (T.diffMatrixMultiply (M.nodesAt i)
    (T.diffMatrixMultiply (M.nodesAt i) (controlOn M uVec i) s.p1) s.p2)
    (d2 M uVec i) fun k hk => (diffMatrixMultiply_twice M uVec i s k).trans (if_pos hk)
  rw [← h1, ← h2]
  rfl

/-- Through the samples of interval `i`, over `[0, 1]`. -/
noncomputable def localControl (i : Nat) : K[X] :=
  interpolant (M.nodesAt i + 1) (T.getC0 (M.nodesAt i)) (controlOn M uVec i)

variable {M} {i : Nat} (hT : T.Radau (M.nodesAt i))

include hT

theorem localControl_degree : (localControl M uVec i).degree < (M.nodesAt i + 1 : Nat) :=
  interpolant_degree hT.injOn _

theorem d1_localControl {k : Nat} (hk : k < M.nodesAt i + 1) :
    d1 M uVec i k = (derivative (localControl M uVec i)).eval (T.getC0 (M.nodesAt i) k) := by
  rw [← hT.differentiates _ (localControl_degree uVec hT) k hk, d1]
  refine Finset.sum_congr rfl fun col hcol => ?_
  rw [localControl, interpolant_eval hT.injOn _ (Finset.mem_range.mp hcol)]

theorem d2_localControl {k : Nat} (hk : k < M.nodesAt i + 1) :
    d2 M uVec i k =
      (derivative (derivative (localControl M uVec i))).eval (T.getC0 (M.nodesAt i) k) := by
  have hd := degree_derivative_le.trans_lt (localControl_degree uVec hT)
  rw [← hT.differentiates _ hd k hk, d2]
  refine Finset.sum_congr rfl fun col hcol => ?_
  rw [d1_localControl uVec hT (Finset.mem_range.mp hcol)]

end Norm

/-- The squares of the samples of a derivative integrate to its energy. -/
theorem sum_squares {T : FLGR ℝ} {p : Nat} (hp : 0 < p) (hT : T.Radau p) {q : ℝ[X]}
    (hq : q.degree < (p + 1 : Nat)) {d : Nat → ℝ}
    (hd : ∀ k, k < p + 1 → d k = (derivative q).eval (T.getC0 p k)) :
    ∑ k ∈ Finset.range p, T.getB p k * d (k + 1) ^ 2 =
      ∫ s in (0 : ℝ)..1, ((derivative q).eval s) ^ 2 := by
  have hq' : (derivative q).degree < (p - 1 + 1 : Nat) := by
    rw [Nat.sub_add_cancel hp]
    rcases eq_or_ne q 0 with rfl | h0
    · simp
    · exact (degree_derivative_lt h0).trans_le (Order.le_of_lt_succ hq)
  have hsq : (derivative q * derivative q).degree < (2 * p - 1 : Nat) := by
    refine (degree_mul_lt hq' hq').trans_eq ?_
    congr 1
    omega
  have hquad : Quadrature p (2 * p - 1 + 1) (T.getC p) (T.getB p) := by
    rw [Nat.sub_add_cancel (by omega)]
    exact hT.integrates
  have h := hquad.integral hsq
  rw [← pow_two] at h
  simp only [eval_pow] at h
  rw [← h]
  refine Finset.sum_congr rfl fun k hk => ?_
  have hk := Finset.mem_range.mp hk
  rw [hd (k + 1) (by omega), hT.nodes.succ k hk]

/-! ## The points of the new grid -/

section Points

variable {K : Type} [Field K] [LinearOrder K] {T : FLGR K}

/-- The midpoints that interval `i` asks for. -/
def Asks (M : Mesh T) (norm corner : Bool) (i : Nat) (y : K) : Prop :=
  (norm = true ∧ ((0 < i ∧ y = mid M.grid (i - 1)) ∨ y = mid M.grid i ∨
    (i + 2 < M.grid.length ∧ y = mid M.grid (i + 1)))) ∨
  (corner = true ∧ (y = mid M.grid i ∨ y = mid M.grid (i - 1)))

theorem mem_insertMidpoints {M : Mesh T} {i : Nat} {newGrid : OrdSet K (· < ·)} {y : K} :
    y ∈ (insertMidpoints M i newGrid).elems ↔ ((0 < i ∧ y = mid M.grid (i - 1)) ∨
      y = mid M.grid i ∨ (i + 2 < M.grid.length ∧ y = mid M.grid (i + 1))) ∨
      y ∈ newGrid.elems := by
  unfold insertMidpoints
  by_cases h0 : 0 < i <;> by_cases h1 : i + 2 < M.grid.length <;> simp [h0, h1] <;> tauto

theorem mem_insertPoints {M : Mesh T} {norm corner : Bool} {i : Nat}
    {newGrid : OrdSet K (· < ·)} {y : K} :
    y ∈ (insertPoints M i norm corner newGrid).elems ↔
      y ∈ newGrid.elems ∨ y = M.gridAt i ∨ Asks M norm corner i y := by
  unfold insertPoints Asks
  cases norm <;> cases corner <;> simp [mem_insertMidpoints] <;> tauto

variable (M : Mesh T) (sqrt : K → K) (N : L2BoundaryNorm K) (pow : K → K → K) (u : List (List K))

/-- The range of a control over the tolerance of the level. -/
def tolerance (uIdx : Nat) : K :=
  let uVec := u.getD uIdx []
  (uVec.max?.getD 0 - uVec.min?.getD 0) * pow (10 : ℕ) (-N.phaseTwoLevel) / N.meshSizeZero

/-- The two rules, where the pass evaluates them. -/
def normAt (uIdx i : Nat) : Bool :=
  let tol := tolerance N pow u uIdx
  normRule M (u.getD uIdx []) sqrt tol (tol / (2 : ℕ)) i (beforeInterval M sqrt N pow u uIdx i)

def cornerAt (uIdx i : Nat) : Bool :=
  cornerRule M (u.getD uIdx []) (raw N.ctol1 uIdx) (raw N.ctol2 uIdx) i
    (beforeInterval M sqrt N pow u uIdx i)

/-- One interval. -/
theorem beforeInterval_succ (uIdx i : Nat) :
    (beforeInterval M sqrt N pow u uIdx (i + 1)).terminated =
        ((beforeInterval M sqrt N pow u uIdx i).terminated &&
          !normAt M sqrt N pow u uIdx i && !cornerAt M sqrt N pow u uIdx i) ∧
      (beforeInterval M sqrt N pow u uIdx (i + 1)).newGrid =
        insertPoints M i (normAt M sqrt N pow u uIdx i) (cornerAt M sqrt N pow u uIdx i)
          (beforeInterval M sqrt N pow u uIdx i).newGrid :=
  detectInterval_rules ..

/-- Interval `i` of control `uIdx` asks for `y`. -/
def AsksAt (uIdx i : Nat) (y : K) : Prop :=
  Asks M (normAt M sqrt N pow u uIdx i) (cornerAt M sqrt N pow u uIdx i) i y

def Quiet (uIdx i : Nat) : Prop :=
  normAt M sqrt N pow u uIdx i = false ∧ cornerAt M sqrt N pow u uIdx i = false

/-- The first `n` intervals of a control. -/
theorem beforeInterval_spec (uIdx n : Nat) :
    ((beforeInterval M sqrt N pow u uIdx n).terminated = true ↔
      (beforeInterval M sqrt N pow u uIdx 0).terminated = true ∧
        ∀ i, i < n → Quiet M sqrt N pow u uIdx i) ∧
    ∀ y, y ∈ (beforeInterval M sqrt N pow u uIdx n).newGrid.elems ↔
      y ∈ (beforeInterval M sqrt N pow u uIdx 0).newGrid.elems ∨
        ∃ i, i < n ∧ (y = M.gridAt i ∨ AsksAt M sqrt N pow u uIdx i y) := by
  induction n with
  | zero => simp
  | succ n ih =>
    obtain ⟨h1, h2⟩ := beforeInterval_succ M sqrt N pow u uIdx n
    generalize beforeInterval M sqrt N pow u uIdx (n + 1) = s' at h1 h2 ⊢
    generalize beforeInterval M sqrt N pow u uIdx n = s at ih h1 h2
    constructor
    · rw [h1, Bool.and_eq_true, Bool.and_eq_true, ih.1, Nat.forall_lt_succ_right, Quiet,
        Bool.not_eq_true', Bool.not_eq_true', and_assoc, and_assoc]
    · intro y
      rw [h2, mem_insertPoints, ih.2, Nat.exists_lt_succ_right, AsksAt, or_assoc]

/-- The first `n` controls. -/
theorem controls_spec (n : Nat) :
    ((beforeInterval M sqrt N pow u n 0).terminated = true ↔
      ∀ v, v < n → ∀ i, i < M.grid.length - 1 → Quiet M sqrt N pow u v i) ∧
    ∀ y, y ∈ (beforeInterval M sqrt N pow u n 0).newGrid.elems ↔
      ∃ v, v < n ∧ ∃ i, i < M.grid.length - 1 ∧
        (y = M.gridAt i ∨ AsksAt M sqrt N pow u v i y) := by
  induction n with
  | zero => simp [beforeInterval, Detection.start, forRange_zero]
  | succ n ih =>
    obtain ⟨h1, h2⟩ := beforeInterval_spec M sqrt N pow u n (M.grid.length - 1)
    have hlast : beforeInterval M sqrt N pow u (n + 1) 0 =
        beforeInterval M sqrt N pow u n (M.grid.length - 1) := rfl
    constructor
    · rw [hlast, h1, ih.1, Nat.forall_lt_succ_right]
    · intro y
      rw [hlast, h2, ih.2, Nat.exists_lt_succ_right]

end Points

/-! ## The rules, in terms of the polynomials -/

section Rules

variable {T : FLGR ℝ} (M : Mesh T) (N : L2BoundaryNorm ℝ) (pow : ℝ → ℝ → ℝ) (u : List (List ℝ))

/-- The norm on `[0, 1]`. -/
noncomputable def l2Norm (q : ℝ[X]) : ℝ := √(∫ s in (0 : ℝ)..1, q.eval s ^ 2)

/-- A derivative on the interval is large. -/
def Rough (uIdx i : Nat) : Prop :=
  let q := localControl M (u.getD uIdx []) i
  let tol := tolerance N pow u uIdx
  tol < l2Norm (derivative q) ∨ tol / (2 : ℕ) < l2Norm (derivative (derivative q))

/-- A derivative at the start of the interval is far from what the buffers end with: the end of the
interval before for the highest scheme, else zero. -/
def Kink (uIdx i : Nat) : Prop :=
  let q := localControl M (u.getD uIdx []) i
  let last := localControl M (u.getD uIdx []) (i - 1)
  let back (r : ℝ[X]) : ℝ := if M.nodesAt i = maxScheme then r.eval 1 else 0
  0 < i ∧
    (raw N.ctol1 uIdx < plusOneError ((derivative q).eval 0) (back (derivative last)) ∨
      raw N.ctol2 uIdx < plusOneError ((derivative (derivative q)).eval 0)
        (back (derivative (derivative last))))

variable {M} {i : Nat} (hi : i < M.intervals)

include hi

theorem normAt_iff (hT : T.Radau (M.nodesAt i)) (uIdx : Nat) :
    normAt M Real.sqrt N pow u uIdx i = true ↔ Rough M N pow u uIdx i := by
  have hp := M.nodesAt_pos hi
  have hd := localControl_degree (u.getD uIdx []) hT
  rw [normAt, normRule_eq, sum_squares hp hT hd fun k hk => d1_localControl _ hT hk,
    sum_squares hp hT (degree_derivative_le.trans_lt hd) fun k hk => d2_localControl _ hT hk,
    Bool.or_eq_true, decide_eq_true_iff, decide_eq_true_iff]
  rfl

theorem cornerAt_iff {p : Nat} (hp : ∀ q ∈ M.nodes, q = p) (hmax : p ≤ maxScheme)
    (hT : T.Radau p) (uIdx : Nat) :
    cornerAt M Real.sqrt N pow u uIdx i = true ↔ Kink M N u uIdx i := by
  have hnode : ∀ i, i < M.intervals → M.nodesAt i = p := fun i hi => hp _ (M.nodesAt_mem hi)
  rcases Nat.eq_zero_or_pos i with rfl | h0
  · have hfalse : cornerAt M Real.sqrt N pow u uIdx 0 = false := by
      unfold cornerAt cornerRule
      cases (beforeInterval M Real.sqrt N pow u uIdx 0).lastEnd <;> rfl
    simp [hfalse, Kink]
  · obtain ⟨k, rfl⟩ : ∃ k, i = k + 1 := ⟨i - 1, by omega⟩
    have hk : k < M.intervals := by omega
    have hTi : T.Radau (M.nodesAt (k + 1)) := hnode _ hi ▸ hT
    have hTk : T.Radau (M.nodesAt k) := hnode _ hk ▸ hT
    have start1 := d1_localControl (u.getD uIdx []) hTi (Nat.succ_pos _)
    have start2 := d2_localControl (u.getD uIdx []) hTi (Nat.succ_pos _)
    have end1 := d1_localControl (u.getD uIdx []) hTk (Nat.lt_succ_self _)
    have end2 := d2_localControl (u.getD uIdx []) hTk (Nat.lt_succ_self _)
    rw [hTi.nodes.zero] at start1 start2
    rw [hTk.nodes.last, hnode k hk] at end1 end2
    rw [cornerAt, cornerRule_eq _ _ _ _ h0,
      beforeInterval_lastEnd M Real.sqrt N pow u hp uIdx hk hmax, Option.elim_some, start1, start2,
      end1, end2, Bool.or_eq_true, decide_eq_true_iff, decide_eq_true_iff, Kink, hnode _ hi,
      Nat.add_sub_cancel]
    simp [h0]

end Rules

/-! ## Phase two -/

section PhaseTwo

variable {T : FLGR ℝ} {M : Mesh T} {N : L2BoundaryNorm ℝ} {pow : ℝ → ℝ → ℝ} {u : List (List ℝ)}

/-- Interval `k` is halved: it or a neighbour is rough for some control, or it has a kink at one of
its ends. -/
def Halved (M : Mesh T) (N : L2BoundaryNorm ℝ) (pow : ℝ → ℝ → ℝ) (u : List (List ℝ)) (k : Nat) :
    Prop :=
  k < M.intervals ∧ ∃ uIdx i, uIdx < u.length ∧ i < M.intervals ∧
    ((Rough M N pow u uIdx i ∧ (k + 1 = i ∨ k = i ∨ k = i + 1)) ∨
      (Kink M N u uIdx i ∧ (k = i ∨ k + 1 = i)))

section Spec

variable {p : Nat} (hp : ∀ q ∈ M.nodes, q = p) (hmax : p ≤ maxScheme) (hT : T.Radau p)

include hp hmax hT

theorem asksAt_iff {uIdx i : Nat} (hi : i < M.intervals) {y : ℝ} :
    AsksAt M Real.sqrt N pow u uIdx i y ↔ ∃ k, k < M.intervals ∧ y = mid M.grid k ∧
      ((Rough M N pow u uIdx i ∧ (k + 1 = i ∨ k = i ∨ k = i + 1)) ∨
        (Kink M N u uIdx i ∧ (k = i ∨ k + 1 = i))) := by
  have hl := M.grid_length
  have hTi : T.Radau (M.nodesAt i) := hp _ (M.nodesAt_mem hi) ▸ hT
  rw [AsksAt, Asks, normAt_iff N pow u hi hTi, cornerAt_iff N pow u hi hp hmax hT]
  constructor
  · rintro (⟨hr, ⟨h0, rfl⟩ | rfl | ⟨h1, rfl⟩⟩ | ⟨hk, rfl | rfl⟩)
    · exact ⟨i - 1, by omega, rfl, .inl ⟨hr, .inl (by omega)⟩⟩
    · exact ⟨i, hi, rfl, .inl ⟨hr, .inr (.inl rfl)⟩⟩
    · exact ⟨i + 1, by omega, rfl, .inl ⟨hr, .inr (.inr rfl)⟩⟩
    · exact ⟨i, hi, rfl, .inr ⟨hk, .inl rfl⟩⟩
    · have h0 := hk.1
      exact ⟨i - 1, by omega, rfl, .inr ⟨hk, .inr (by omega)⟩⟩
  · rintro ⟨k, hk, rfl, ⟨hr, rfl | rfl | rfl⟩ | ⟨hr, rfl | rfl⟩⟩
    · exact .inl ⟨hr, .inl ⟨Nat.succ_pos k, rfl⟩⟩
    · exact .inl ⟨hr, .inr (.inl rfl)⟩
    · exact .inl ⟨hr, .inr (.inr ⟨by omega, rfl⟩)⟩
    · exact .inr ⟨hr, .inl rfl⟩
    · exact .inr ⟨hr, .inr rfl⟩

theorem quiet_iff {uIdx i : Nat} (hi : i < M.intervals) :
    Quiet M Real.sqrt N pow u uIdx i ↔ ¬ Rough M N pow u uIdx i ∧ ¬ Kink M N u uIdx i := by
  have hTi : T.Radau (M.nodesAt i) := hp _ (M.nodesAt_mem hi) ▸ hT
  rw [← normAt_iff N pow u hi hTi, ← cornerAt_iff N pow u hi hp hmax hT, Bool.not_eq_true,
    Bool.not_eq_true, Quiet]

theorem detect_terminated : (N.detect M Real.sqrt pow u).terminated = true ↔
    ∀ k, ¬ Halved M N pow u k := by
  have hl := M.grid_length
  refine (controls_spec M Real.sqrt N pow u u.length).1.trans
    ⟨fun h k hk => ?_, fun h v hv i hi => ?_⟩
  · obtain ⟨-, v, i, hv, hi, hki⟩ := hk
    obtain ⟨h1, h2⟩ := (quiet_iff hp hmax hT hi).mp (h v hv i (by omega))
    rcases hki with ⟨hr, -⟩ | ⟨hr, -⟩
    · exact h1 hr
    · exact h2 hr
  · have hi : i < M.intervals := by omega
    refine (quiet_iff hp hmax hT hi).mpr ⟨fun hr => h i ⟨hi, v, i, hv, hi, ?_⟩,
      fun hr => h i ⟨hi, v, i, hv, hi, ?_⟩⟩
    · exact .inl ⟨hr, .inr (.inl rfl)⟩
    · exact .inr ⟨hr, .inl rfl⟩

/-- With one interval to halve there is a control, and every control puts the old points into the
grid. -/
theorem mem_detect {k : Nat} (hk : Halved M N pow u k) (y : ℝ) :
    y ∈ (N.detect M Real.sqrt pow u).newGrid.elems ↔
      y ∈ M.grid ∨ ∃ k, Halved M N pow u k ∧ y = mid M.grid k := by
  have hl := M.grid_length
  obtain ⟨-, v, -, hv, -⟩ := hk
  have hgrid : y ∈ M.grid ↔ y = M.grid.getLastD 0 ∨ ∃ i, i < M.intervals ∧ y = M.gridAt i := by
    constructor
    · intro hy
      obtain ⟨i, hi, rfl⟩ := List.getElem_of_mem hy
      have e : M.grid[i] = M.gridAt i := (List.getD_eq_getElem _ _ hi).symm
      rcases Nat.lt_succ_iff_lt_or_eq.mp (hl ▸ hi) with hlt | rfl
      · exact .inr ⟨i, hlt, e⟩
      · refine .inl (e.trans ?_)
        rw [L2BoundaryNorm.last_eq, hl, Nat.add_sub_cancel]
    · rintro (rfl | ⟨i, hi, rfl⟩)
      · rw [L2BoundaryNorm.last_eq]
        exact gridAt_mem (by omega)
      · exact gridAt_mem (by omega)
  have hpoints := (controls_spec M Real.sqrt N pow u u.length).2 y
  refine OrdSet.mem_insert.trans ?_
  rw [hgrid, or_assoc]
  refine or_congr_right (hpoints.trans ⟨?_, ?_⟩)
  · rintro ⟨v, hv, i, hi, rfl | ha⟩
    · exact .inl ⟨i, by omega, rfl⟩
    · have hi : i < M.intervals := by omega
      obtain ⟨k, hk, rfl, hr⟩ := (asksAt_iff hp hmax hT hi).mp ha
      exact .inr ⟨k, ⟨hk, v, i, hv, hi, hr⟩, rfl⟩
  · rintro (⟨i, hi, rfl⟩ | ⟨k, ⟨hk, v, i, hv, hi, hr⟩, rfl⟩)
    · exact ⟨v, hv, i, by omega, .inl rfl⟩
    · exact ⟨v, hv, i, by omega, .inr ((asksAt_iff hp hmax hT hi).mpr ⟨k, hk, rfl, hr⟩)⟩

/-- Phase two asks for nothing when no interval is to be halved, else for the old grid with the
midpoints of the intervals to be halved, in order. -/
theorem phase_two (hM : M.grid.Pairwise (· < ·))
    (h1 : N.maxPhaseOneIterations ≤ N.phaseOneIteration)
    (h2 : N.phaseTwoIteration < N.maxPhaseTwoIterations) {trajectory : PrimalDualTrajectory T}
    {primals : Trajectory T} (ht : trajectory.primals = some primals) :
    ∃ next, N.apply M Real.sqrt pow trajectory =
        some ({ N with phaseTwoIteration := N.phaseTwoIteration + 1 }, next) ∧
      (next = none ↔ ∀ k, ¬ Halved M N pow primals.u k) ∧
      ∀ update, next = some update →
        (∀ y, y ∈ update.newGrid ↔
          y ∈ M.grid ∨ ∃ k, Halved M N pow primals.u k ∧ y = mid M.grid k) ∧
        update.newGrid.Pairwise (· < ·) ∧ ∀ q ∈ update.newNodesPerInterval, q = p := by
  have hdeg : M.nodesAt 0 = p := hp _ (M.nodesAt_mem M.intervals_pos)
  have hpos := M.nodesAt_pos M.intervals_pos
  have hterm : (N.detect M Real.sqrt pow primals.u).terminated = true ↔
      ∀ k, ¬ Halved M N pow primals.u k := detect_terminated hp hmax hT
  unfold L2BoundaryNorm.apply
  dsimp only
  rw [if_neg (by omega), if_pos h2, ht, Option.bind_some]
  cases hs : (N.detect M Real.sqrt pow primals.u).terminated with
  | true => exact ⟨none, if_pos rfl, iff_of_true rfl (hterm.mp hs), fun _ h => (by cases h)⟩
  | false =>
    have hex : ¬ ∀ k, ¬ Halved M N pow primals.u k := fun h => by
      rw [hterm.mpr h] at hs
      cases hs
    obtain ⟨k, hk⟩ := not_forall_not.mp hex
    have hh := N.detect_halves Real.sqrt pow hs
    have htwo : 2 ≤ (N.detect M Real.sqrt pow primals.u).newGrid.elems.length := by
      have := hh.length_le hM
      have := M.grid_length
      have := M.intervals_pos
      omega
    obtain ⟨update, hu, hg, hd⟩ := L2BoundaryNorm.constantDegree_eq hpos htwo
    refine ⟨some update, ?_, iff_of_false (fun h => by cases h) hex, fun v hv => ?_⟩
    · rw [if_neg Bool.false_ne_true, hu]
      rfl
    · cases hv
      rw [hg]
      exact ⟨mem_detect hp hmax hT hk, (N.detect M Real.sqrt pow primals.u).newGrid.sorted,
        fun q hq => (hd q hq).trans hdeg⟩

end Spec

end PhaseTwo

/-! A control that is linear between the points of a grid, at the first level. -/

section Line

/-- The entries of the first scheme. -/
noncomputable def implicitEuler : FLGR ℝ where
  c := fun k => [1].getD k 0
  c0 := fun k => [0, 0, 1].getD k 0
  b := fun k => [1].getD k 0
  w := fun k => [1].getD k 0
  w0 := fun k => [0, -1, 1].getD k 0
  D := fun k => [0, -1, 1, -1, 1].getD k 0

theorem implicitEuler_c0 : implicitEuler.getC0 1 0 = 0 ∧ implicitEuler.getC0 1 1 = 1 := ⟨rfl, rfl⟩

theorem implicitEuler_radau : implicitEuler.Radau 1 where
  nodes :=
    { zero := rfl
      succ := by
        intro j hj
        obtain rfl : j = 0 := Nat.lt_one_iff.mp hj
        rfl
      last := rfl
      increasing := by
        intro j k hjk hk
        obtain rfl : k = 1 := by omega
        obtain rfl : j = 0 := by omega
        rw [implicitEuler_c0.1, implicitEuler_c0.2]
        exact one_pos
      separated := by
        intro i j hij hj
        have hj : j < 2 := hj
        obtain rfl : j = 1 := by omega
        obtain rfl : i = 0 := by omega
        have h0 : implicitEuler.nodesOf 1 true 0 = 0 := rfl
        have h1 : implicitEuler.nodesOf 1 true 1 = 1 := rfl
        rw [h0, h1]
        norm_num [FLGR.nodeTol] }
  differentiates := by
    refine Differentiation.of_powers fun m hm k hk => ?_
    have hD : ∀ k, k < 2 → implicitEuler.getD 1 k 0 = -1 ∧ implicitEuler.getD 1 k 1 = 1 := by
      intro k hk
      interval_cases k <;> exact ⟨rfl, rfl⟩
    rw [Finset.sum_range_succ, Finset.sum_range_one, (hD k hk).1, (hD k hk).2,
      implicitEuler_c0.1, implicitEuler_c0.2]
    interval_cases m <;> simp
  integrates := by
    refine Quadrature.of_powers fun m hm => ?_
    have hb : implicitEuler.getB 1 0 = 1 := rfl
    have hc : implicitEuler.getC 1 0 = 1 := rfl
    rw [Finset.sum_range_one, hb, hc]
    have hm : m < 2 := hm
    interval_cases m <;> simp

theorem onePoint_pos : ∀ p ∈ [1, 1, 1, 1, 1], 0 < p := by decide

/-- Five intervals of one node. -/
noncomputable def fiveSteps : Mesh implicitEuler := createFromMeshUpdate implicitEuler
  { newGrid := [0.0, 1.0, 2.0, 3.0, 4.0, 5.0], newNodesPerInterval := [1, 1, 1, 1, 1]
    nonempty := List.cons_ne_nil _ _, grid_length := rfl, nodes_pos := onePoint_pos }

noncomputable def levelOne : L2BoundaryNorm ℝ where
  phaseOneIteration := 0
  phaseTwoIteration := 0
  maxPhaseOneIterations := 0
  maxPhaseTwoIterations := 1
  phaseTwoLevel := 1
  meshSizeZero := 1
  ctol1 := [0.1]
  ctol2 := [0.1]

/-- Slow on the third interval, fast on the fourth. -/
noncomputable def lineControl : List ℝ := [0.0, 0.0, 0.0, 1.0, 11.0, 11.0]

noncomputable def lineSlopes : List ℝ := [0.0, 0.0, 1.0, 10.0, 0.0]

section Slopes

variable {i : Nat} (hi : i < 5)

include hi

theorem fiveSteps_node : fiveSteps.nodesAt i = 1 := by interval_cases i <;> rfl

theorem localControl_line : localControl fiveSteps lineControl i =
    C (raw lineControl i) + C (raw lineSlopes i) * X := by
  have hdeg : (C (raw lineControl i) + C (raw lineSlopes i) * X : ℝ[X]).degree <
      ((1 + 1 : Nat) : WithBot Nat) := by
    rw [add_comm]
    exact (degree_linear_le).trans_lt (by exact_mod_cast Nat.one_lt_two)
  rw [localControl, fiveSteps_node hi, interpolant_unique implicitEuler_radau.injOn hdeg]
  refine Lagrange.interpolate_eq_of_values_eq_on _ _ fun j hj => ?_
  have hj : j < 2 := Finset.mem_range.mp hj
  have hacc : fiveSteps.accNodesAt i 0 = i := by interval_cases i <;> rfl
  rw [controlOn, hacc, eval_add, eval_mul, eval_C, eval_C, eval_X]
  interval_cases j
  · rw [implicitEuler_c0.1, mul_zero, add_zero, add_zero]
  · rw [implicitEuler_c0.2, mul_one]
    interval_cases i <;> norm_num [lineControl, lineSlopes, raw]

theorem derivative_line :
    derivative (localControl fiveSteps lineControl i) = C (raw lineSlopes i) := by
  rw [localControl_line hi]
  simp

theorem rough_line :
    Rough fiveSteps levelOne (fun a b => a ^ b) [lineControl] 0 i ↔
      11 / 10 < |raw lineSlopes i| := by
  have hctl : ([lineControl] : List (List ℝ)).getD 0 [] = lineControl := rfl
  have htol : tolerance levelOne (fun a b : ℝ => a ^ b) [lineControl] 0 = 11 / 10 := by
    rw [tolerance, hctl]
    norm_num [levelOne, lineControl, List.max?, List.min?, Real.rpow_neg_one]
  unfold Rough
  dsimp only
  rw [hctl, htol, derivative_line hi]
  norm_num [l2Norm, Real.sqrt_sq_eq_abs]

theorem kink_line :
    Kink fiveSteps levelOne [lineControl] 0 i ↔ 0 < i ∧ 1 / 10 < |raw lineSlopes i| := by
  have hctl : ([lineControl] : List (List ℝ)).getD 0 [] = lineControl := rfl
  have hone : ¬ 1 = maxScheme := by decide
  unfold Kink
  dsimp only
  rw [hctl, derivative_line hi, fiveSteps_node hi]
  norm_num [hone, plusOneError, levelOne, raw]

end Slopes

/-- All but the first interval: the second for the kink behind it, the last for its neighbour. -/
theorem halved_line {k : Nat} : Halved fiveSteps levelOne (fun a b => a ^ b) [lineControl] k ↔
    0 < k ∧ k < 5 := by
  have hint : fiveSteps.intervals = 5 := rfl
  unfold Halved
  rw [hint]
  constructor
  · rintro ⟨hk, uIdx, i, hu, hi, h⟩
    obtain rfl : uIdx = 0 := Nat.lt_one_iff.mp hu
    refine ⟨?_, hk⟩
    rw [rough_line hi, kink_line hi] at h
    by_contra h0
    obtain rfl : k = 0 := by omega
    interval_cases i <;> norm_num [lineSlopes, raw] at h
  · rintro ⟨h0, hk⟩
    refine ⟨hk, 0, ?_⟩
    have kink : Kink fiveSteps levelOne [lineControl] 0 2 :=
      (kink_line (by decide)).mpr ⟨by decide, by norm_num [lineSlopes, raw]⟩
    have rough : Rough fiveSteps levelOne (fun a b => a ^ b) [lineControl] 0 3 :=
      (rough_line (by decide)).mpr (by norm_num [lineSlopes, raw])
    rcases Nat.lt_or_ge k 3 with hlt | hge
    · exact ⟨2, Nat.one_pos, by decide, .inr ⟨kink, by omega⟩⟩
    · exact ⟨3, Nat.one_pos, by decide, .inl ⟨rough, by omega⟩⟩

theorem phase_two_line : ∃ N update,
    levelOne.apply fiveSteps Real.sqrt (fun a b => a ^ b)
      { primals := some { t := [0, 1, 2, 3, 4, 5], u := [lineControl] } } = some (N, some update) ∧
    1 / 2 ∉ update.newGrid ∧ 3 / 2 ∈ update.newGrid ∧ 9 / 2 ∈ update.newGrid := by
  have hp : ∀ q ∈ fiveSteps.nodes, q = 1 := by
    intro q hq
    simpa [fiveSteps, createFromMeshUpdate] using hq
  have hgrid : fiveSteps.grid = [0, 1, 2, 3, 4, 5] := by
    norm_num [fiveSteps, createFromMeshUpdate]
  have hM : fiveSteps.grid.Pairwise (· < ·) := by norm_num [hgrid]
  obtain ⟨next, hnext, hnone, hsome⟩ := @phase_two _ fiveSteps levelOne (fun a b => a ^ b) 1 hp
    (by decide) implicitEuler_radau hM le_rfl Nat.one_pos
    { primals := some { t := [0, 1, 2, 3, 4, 5], u := [lineControl] } } _ rfl
  cases next with
  | none => exact absurd (halved_line.mpr ⟨Nat.one_pos, by decide⟩) (hnone.mp rfl 1)
  | some update =>
    have hmem := (hsome update rfl).1
    refine ⟨_, update, hnext, fun h => ?_, ?_, ?_⟩
    · rcases (hmem _).mp h with hold | ⟨k, hk, hmid⟩
      · norm_num [hgrid] at hold
      · obtain ⟨h0, h5⟩ := halved_line.mp hk
        interval_cases k <;> norm_num [hgrid, Partition.mid] at hmid
    · refine (hmem _).mpr (.inr ⟨1, halved_line.mpr ⟨by decide, by decide⟩, ?_⟩)
      norm_num [hgrid, Partition.mid]
    · refine (hmem _).mpr (.inr ⟨4, halved_line.mpr ⟨by decide, by decide⟩, ?_⟩)
      norm_num [hgrid, Partition.mid]

end Line

end GDOP
end Moo
