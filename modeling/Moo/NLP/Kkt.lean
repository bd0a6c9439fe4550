import Mathlib.Algebra.BigOperators.Ring.Finset
import Mathlib.Algebra.Order.Field.Basic
import Mathlib.Tactic.Linarith
import Moo.NLP.Solve

/-!
# NLP.Kkt

Stationarity across unscaling.

The multipliers of the unscaled problem are `f_nom / g_nom * lambda` and `f_nom / x_nom * z`.
`solver_finalize_solution` hands over `lambda / g_nom` and `x_nom * z`.

* `stationary_iff`: what is handed over is stationary exactly when the residual that the wrong
  factors leave vanishes in every component.
* `kkt_unscaled_iff`: for which nominals that is so whatever the problem and the point.
-/

namespace Moo
namespace NLP

open FixedVector

variable {K : Type} [Field K]

/-- Stationarity of the scaled problem, from what the solver is given. -/
def ScaledStationary {σ : Type} (V : Virtuals σ K) (s : NLP σ K) (x lambda zL zU : Nat → K) :
    Prop :=
  ∃ s₁ grad s₂ jac, s.solverEvalGradF V true x = some (s₁, grad) ∧
    s.solverEvalJac V true x = some (s₂, jac) ∧
    ∀ i, i < s.numberVars → raw grad i + ∑ nz ∈ Finset.range s.nnzJac,
      (if s.jac.col nz = i then raw jac nz * lambda (s.jac.row nz) else 0) - zL i + zU i = 0

/-- Stationarity of the NLP at an iterate. -/
def Functions.Stationary (N : Functions K) (it : Iterate K) : Prop :=
  ∀ i, i < N.numberVars → N.gradF (raw it.x) i + ∑ nz ∈ Finset.range N.nnzJac,
    (if N.jac.col nz = i then N.jacG (raw it.x) nz * raw it.lambda (N.jac.row nz) else 0) -
      raw it.zLb i + raw it.zUb i = 0

/-- A state `s` of a solve of `N`, with nominals of matching length. -/
structure InSolve {σ : Type} (V : Virtuals σ K) (N : Functions K) (nom : Nominals K)
    (s : NLP σ K) : Prop where
  x_length : nom.x.length = N.numberVars
  g_length : nom.g.length = N.numberConstraints
  solving : ∃ (I : σ → Prop) (s₀ : NLP σ K), Implements V I N nom ∧ I s₀.inst ∧ Solving V s₀ s

/-- `Jᵀ (lambda / g_nom)` at the unscaled point. -/
def dualTerm (N : Functions K) (nom : Nominals K) (x lambda : Nat → K) (i : Nat) : K :=
  ∑ nz ∈ Finset.range N.nnzJac, if N.jac.col nz = i then
    N.jacG (raw (nom.unscale N.numberVars x)) nz *
      (lambda (N.jac.row nz) / raw nom.g (N.jac.row nz))
    else 0

/-- What stationarity of the scaled problem leaves of the unscaled one. -/
def residual (N : Functions K) (nom : Nominals K) (x lambda : Nat → K) (i : Nat) : K :=
  N.gradF (raw (nom.unscale N.numberVars x)) i * (1 - raw nom.x i ^ 2 / nom.f) +
    dualTerm N nom x lambda i * (1 - raw nom.x i ^ 2)

section Pointwise

variable {σ : Type} {V : Virtuals σ K} {N : Functions K} {nom : Nominals K} {s s' : NLP σ K}
variable {x lambda zL zU : Nat → K}

theorem InSolve.ready (h : InSolve V N nom s) :
    ∃ I, Implements V I N nom ∧ Ready I N nom s := by
  obtain ⟨I, s₀, hV, h₀, hs⟩ := h.solving
  exact ⟨I, hV, hs.ready hV h₀⟩

/-- The scaled condition in terms of the NLP. -/
theorem scaledStationary_iff (h : InSolve V N nom s) : ScaledStationary V s x lambda zL zU ↔
    ∀ i, i < N.numberVars → raw nom.x i / nom.f * N.gradF (raw (nom.unscale N.numberVars x)) i +
      raw nom.x i * dualTerm N nom x lambda i - zL i + zU i = 0 := by
  obtain ⟨I, hV, hr⟩ := h.ready
  obtain ⟨s₁, e₁⟩ := hr.evalGradF_value hV x
  obtain ⟨s₂, e₂⟩ := hr.evalJac_value hV x
  have sums : ∀ i, ∑ nz ∈ Finset.range N.nnzJac, (if N.jac.col nz = i then
      raw (fill N.nnzJac fun nz => raw nom.x (N.jac.col nz) / raw nom.g (N.jac.row nz) *
        N.jacG (raw (nom.unscale N.numberVars x)) nz) nz * lambda (N.jac.row nz) else 0) =
      raw nom.x i * dualTerm N nom x lambda i := by
    intro i
    rw [dualTerm, Finset.mul_sum]
    refine Finset.sum_congr rfl fun nz hnz => ?_
    rw [raw_fill_lt _ (Finset.mem_range.mp hnz)]
    by_cases hc : N.jac.col nz = i
    · rw [if_pos hc, if_pos hc, hc]
      ring
    · rw [if_neg hc, if_neg hc, mul_zero]
  constructor
  · rintro ⟨t₁, grad, t₂, jac, q₁, q₂, q⟩ i hi
    rw [e₁, Option.some_inj, Prod.mk.injEq] at q₁
    rw [e₂, Option.some_inj, Prod.mk.injEq] at q₂
    rw [hr.numberVars, hr.nnzJac, hr.jac, ← q₁.2, ← q₂.2] at q
    have := q i hi
    rwa [sums, raw_fill_lt _ hi] at this
  · intro q
    refine ⟨s₁, _, s₂, _, e₁, e₂, fun i hi => ?_⟩
    rw [hr.numberVars] at hi
    rw [hr.nnzJac, hr.jac, sums, raw_fill_lt _ hi]
    exact q i hi

theorem stationary_iff (h : InSolve V N nom s) (hsc : ScaledStationary V s x lambda zL zU)
    {obj : K} (hs' : s.solverFinalizeSolution V obj x lambda zL zU = some s') :
    N.Stationary s'.curr ↔ ∀ i, i < N.numberVars → residual N nom x lambda i = 0 := by
  obtain ⟨I, hV, hr⟩ := h.ready
  obtain ⟨sc, hs, hb⟩ := hr.scaling
  rw [NLP.solverFinalizeSolution_eq V hs, Option.some_inj] at hs'
  subst hs'
  rw [scaledStationary_iff h] at hsc
  refine forall₂_congr fun i hi => ?_
  rw [hr.finalIterate x hs obj lambda zL zU]
  have hdual : ∑ nz ∈ Finset.range N.nnzJac, (if N.jac.col nz = i then
      N.jacG (raw (nom.unscale N.numberVars x)) nz * raw (fill N.numberConstraints fun r =>
        lambda r / raw nom.g r) (N.jac.row nz) else 0) = dualTerm N nom x lambda i := by
    refine Finset.sum_congr rfl fun nz _ => ?_
    rw [raw_fill]
    by_cases hm : N.jac.row nz < N.numberConstraints
    · rw [if_pos hm]
    · -- a row that does not exist has no nominal either
      rw [if_neg hm, raw_of_le (v := nom.g) (by rw [h.g_length]; omega), div_zero]
  have hz : ∀ z : Nat → K, raw (nom.unscale N.numberVars z) i = raw nom.x i * z i :=
    fun z => raw_fill_lt _ hi
  dsimp only
  rw [hdual, hz, hz]
  have hsi := hsc i hi
  have e : N.gradF (raw (nom.unscale N.numberVars x)) i + dualTerm N nom x lambda i -
      raw nom.x i * zL i + raw nom.x i * zU i = residual N nom x lambda i + raw nom.x i *
        (raw nom.x i / nom.f * N.gradF (raw (nom.unscale N.numberVars x)) i +
          raw nom.x i * dualTerm N nom x lambda i - zL i + zU i) := by
    rw [residual]
    ring
  rw [e, hsi, mul_zero, add_zero]

end Pointwise

/-! ## The nominals for which stationarity always survives -/

/-- The claim for one choice of nominals: every NLP, every state of a solve, all vectors. -/
def KktSurvives (nom : Nominals K) : Prop :=
  ∀ (σ : Type) (V : Virtuals σ K) (N : Functions K) (s s' : NLP σ K) (obj : K)
    (x lambda zL zU : Nat → K), InSolve V N nom s → ScaledStationary V s x lambda zL zU →
    s.solverFinalizeSolution V obj x lambda zL zU = some s' → N.Stationary s'.curr

/-- A linear NLP: objective `aᵀ x`, and the constraint entries `c` at the places of `jac`. -/
def linear (n m : Nat) (a : Nat → K) (jac : Pattern) (c : K) : Functions K where
  numberVars := n
  numberConstraints := m
  nnzJac := jac.iRow.length
  nnzHes := 0
  bounds := {}
  jac := jac
  hes := {}
  f := fun x => ∑ i ∈ Finset.range n, a i * x i
  gradF := fun _ => a
  g := fun x r => ∑ nz ∈ Finset.range jac.iRow.length,
    if jac.row nz = r then c * x (jac.col nz) else 0
  jacG := fun _ _ => c
  hesL := fun _ _ _ _ => 0

/-- The state in which the solve of a stateless instance is opened. -/
def Functions.opened (N : Functions K) (nom : Nominals K) : NLP Unit K :=
  ((((NLP.new ()).solverGetInfo (N.virtuals nom)).solverGetJacSparsity
    (N.virtuals nom)).1.solverGetHesSparsity (N.virtuals nom)).1

theorem Functions.opened_inSolve {N : Functions K} {nom : Nominals K}
    (hx : nom.x.length = N.numberVars) (hg : nom.g.length = N.numberConstraints) :
    InSolve (N.virtuals nom) N nom (N.opened nom) :=
  ⟨hx, hg, fun _ => True, _, N.implements nom, trivial, .opened⟩

/-- With bound multipliers chosen to make the scaled problem stationary, the residual has to
vanish. -/
theorem KktSurvives.residual_eq_zero {nom : Nominals K} (h : KktSurvives nom) {N : Functions K}
    (hx : nom.x.length = N.numberVars) (hg : nom.g.length = N.numberConstraints)
    (lambda : Nat → K) {i : Nat} (hi : i < N.numberVars) :
    residual N nom (fun _ => 0) lambda i = 0 := by
  have hs := Functions.opened_inSolve hx hg
  have hsc : ScaledStationary (N.virtuals nom) (N.opened nom) (fun _ => 0) lambda
      (fun i => raw nom.x i / nom.f * N.gradF (raw (nom.unscale N.numberVars fun _ => 0)) i +
        raw nom.x i * dualTerm N nom (fun _ => 0) lambda i) fun _ => 0 := by
    rw [scaledStationary_iff hs]
    intro i _
    ring
  obtain ⟨I, hV, hr⟩ := hs.ready
  obtain ⟨sc, e, _⟩ := hr.scaling
  have hf := NLP.solverFinalizeSolution_eq (N.virtuals nom) e 0 (fun _ => 0) lambda
    (fun i => raw nom.x i / nom.f * N.gradF (raw (nom.unscale N.numberVars fun _ => 0)) i +
      raw nom.x i * dualTerm N nom (fun _ => 0) lambda i) fun _ => 0
  exact (stationary_iff hs hsc hf).mp (h _ _ _ _ _ _ _ _ _ _ hs hsc hf) i hi

variable [LinearOrder K] [IsStrictOrderedRing K]

/-- Stationarity survives for every problem exactly when the wrong factors are the right ones:
`x_nom² = f_nom`, and `x_nom = 1` as soon as there are constraints. -/
theorem kktSurvives_iff {nom : Nominals K} (hx : ∀ v ∈ nom.x, 0 < v) (hg : ∀ v ∈ nom.g, 0 < v)
    (hf : 0 < nom.f) : KktSurvives nom ↔
      (∀ v ∈ nom.x, v ^ 2 = nom.f) ∧ (nom.g = [] ∨ ∀ v ∈ nom.x, v = 1) := by
  have hf' := hf.ne'
  constructor
  · intro h
    constructor
    · rw [forall_mem_iff]
      intro i hi
      have := h.residual_eq_zero (N := linear nom.x.length nom.g.length (fun _ => 1) {} 0) rfl rfl
        (fun _ => 0) hi
      simp only [residual, dualTerm, linear, List.length_nil, Finset.range_zero, Finset.sum_empty,
        zero_mul, add_zero, one_mul, sub_eq_zero] at this
      rw [eq_div_iff hf', one_mul] at this
      exact this.symm
    · by_cases hm : nom.g = []
      · exact .inl hm
      · refine .inr (forall_mem_iff.mpr fun i hi => ?_)
        have hm0 := List.length_pos_of_ne_nil hm
        have hg0 := forall_mem_iff.mp hg 0 hm0
        have hx0 := forall_mem_iff.mp hx i hi
        have := h.residual_eq_zero (N := linear nom.x.length nom.g.length (fun _ => 0)
          { iRow := [0], jCol := [i] } 1) rfl rfl (raw nom.g) hi
        simp only [residual, dualTerm, linear, List.length_singleton, Finset.sum_range_one,
          Pattern.row, Pattern.col, List.getD_cons_zero, if_true, div_self hg0.ne', zero_mul,
          zero_add, one_mul, sub_eq_zero] at this
        exact (pow_eq_one_iff_of_nonneg hx0.le two_ne_zero).mp this.symm
  · rintro ⟨h1, h2⟩ σ V N s s' obj x lambda zL zU hs hsc hs'
    rw [stationary_iff hs hsc hs']
    intro i hi
    rw [← hs.x_length] at hi
    have e1 := forall_mem_iff.mp h1 i hi
    rw [residual, e1, div_self hf', sub_self, mul_zero, zero_add]
    rcases h2 with hm | h2
    · -- without constraints every entry of the Jacobian has a row without a nominal
      have : dualTerm N nom x lambda i = 0 := by
        refine Finset.sum_eq_zero fun nz _ => ?_
        rw [raw_of_le (v := nom.g) (by rw [hm]; exact Nat.zero_le _), div_zero, mul_zero, ite_self]
      rw [this, zero_mul]
    · have e2 := forall_mem_iff.mp h2 i hi
      rw [← e1, e2, one_pow, sub_self, mul_zero]

theorem kkt_unscaled_iff {nom : Nominals K} (hx : ∀ v ∈ nom.x, 0 < v) (hg : ∀ v ∈ nom.g, 0 < v)
    (hf : 0 < nom.f) :
    (∀ (σ : Type) (V : Virtuals σ K) (N : Functions K) (s s' : NLP σ K) (obj : K)
      (x lambda zL zU : Nat → K), InSolve V N nom s → ScaledStationary V s x lambda zL zU →
      s.solverFinalizeSolution V obj x lambda zL zU = some s' →
      (N.Stationary s'.curr ↔ ∀ i, i < N.numberVars → residual N nom x lambda i = 0)) ∧
    (KktSurvives nom ↔
      (∀ v ∈ nom.x, v ^ 2 = nom.f) ∧ (nom.g = [] ∨ ∀ v ∈ nom.x, v = 1)) :=
  ⟨fun _ _ _ _ _ _ _ _ _ _ hs hsc hs' => stationary_iff hs hsc hs', kktSurvives_iff hx hg hf⟩

/-! `minimise x` with the nominal `2`: `z = 2` is stationary for the solver, and `2 * 2` is handed
over where the unscaled problem has `1`. -/

def descent : Functions ℚ := linear 1 0 (fun _ => 1) {} 0

theorem kkt_lost : ∃ s',
    (descent.opened ⟨[2], [], 1⟩).solverFinalizeSolution (descent.virtuals ⟨[2], [], 1⟩) 0
      (fun _ => 0) (fun _ => 0) (fun _ => 2) (fun _ => 0) = some s' ∧
    ScaledStationary (descent.virtuals ⟨[2], [], 1⟩) (descent.opened ⟨[2], [], 1⟩)
      (fun _ => 0) (fun _ => 0) (fun _ => 2) (fun _ => 0) ∧
    s'.curr.zLb = [4] ∧ ¬ descent.Stationary s'.curr := by
  refine ⟨_, rfl, ?_, by decide +kernel, ?_⟩
  · rw [scaledStationary_iff (Functions.opened_inSolve rfl rfl)]
    intro i hi
    obtain rfl : i = 0 := Nat.lt_one_iff.mp hi
    simp only [dualTerm, descent, linear, List.length_nil, Finset.range_zero, Finset.sum_empty,
      raw, List.getD_cons_zero]
    norm_num
  · intro h
    have h0 := h 0 Nat.one_pos
    revert h0
    decide +kernel

theorem kkt_unscaled_iff_two : KktSurvives (K := ℚ) ⟨[2, 2], [], 4⟩ :=
  (kkt_unscaled_iff (by simp) (by simp) (by norm_num)).2.mpr
    ⟨by simp; norm_num, .inl rfl⟩

end NLP
end Moo
