import Moo.GDOP.Cache

/-!
# GDOP.HessianCache

The cached Hessian: it depends on `x`, `lambda` and the objective factor, and has flags for the
first two only.

* `HesAt`: the Hessian buffers are those of three given inputs. `evalHes_spec`: an evaluation
  whose flags are right leaves them so and reads them.
* `HesInv`: with the flag set, the buffers belong to the inputs of the Hessian evaluation before.
* `hessian_fresh`: where no cached Hessian meets another objective factor, all values are fresh.
* `hessian_stale`: where one does, the old factor is returned.
-/

namespace Moo
namespace GDOP

open Loop FixedVector NLP

variable {K : Type} [Field K] {T : FLGR K} (cb : Callbacks T) (P : Problem K)

/-! ## One evaluation of the instance -/

def HesAt (s : Instance T) (x lambda : Nat → K) (sigma : K) : Prop :=
  s.buffers.hes = (freshHesBuffers cb P s.mesh.mesh x lambda sigma).hes ∧
    s.buffers.ppHes = (freshHesBuffers cb P s.mesh.mesh x lambda sigma).ppHes ∧
    s.buffers.mrHes = (freshHesBuffers cb P s.mesh.mesh x lambda sigma).mrHes

/-- Updating the table is as good as updating a table of zeros. -/
def FactorTable (M : Mesh T) (factors : Nat → Nat → K) : Prop :=
  ∀ sigma, updateLagrangeObjFactors P M sigma factors =
    updateLagrangeObjFactors P M sigma fun _ _ => 0

/-- The part of an instance that only a Hessian evaluation writes. -/
def Instance.second (s : Instance T) : Instance T :=
  { s with
    evaluationState := { hes := s.evaluationState.hes }
    initialGuess := none
    optimalSolution := none
    buffers :=
      { Buffers.zero with
        hes := s.buffers.hes
        ppHes := s.buffers.ppHes
        mrHes := s.buffers.mrHes } }

theorem Instance.of_second {s s' : Instance T} (h : s'.second = s.second) :
    s'.lagrangeObjFactors = s.lagrangeObjFactors ∧ s'.transformedLambda = s.transformedLambda ∧
      s'.evaluationState.hes = s.evaluationState.hes :=
  ⟨(congrArg Instance.lagrangeObjFactors h :), (congrArg Instance.transformedLambda h :),
    (congrArg (fun i : Instance T => i.evaluationState.hes) h :)⟩

section Tables

variable {P} {M : Mesh T}

/-- A second update overwrites the first. -/
theorem updateLagrangeObjFactors_update (sigma sigma' : K) (factors : Nat → Nat → K) :
    updateLagrangeObjFactors P M sigma (updateLagrangeObjFactors P M sigma' factors) =
      updateLagrangeObjFactors P M sigma factors := by
  unfold updateLagrangeObjFactors
  cases P.pc.hasLagrange with
  | false => rfl
  | true =>
    funext i j
    rw [if_pos rfl, if_pos rfl, if_pos rfl, forRange_fill₂, forRange_fill₂, forRange_fill₂]
    split <;> rfl

theorem FactorTable.update {factors : Nat → Nat → K} (h : FactorTable P M factors) (sigma : K) :
    FactorTable P M (updateLagrangeObjFactors P M sigma factors) := by
  intro sigma'
  rw [updateLagrangeObjFactors_update, h]

/-- The table as `get_hes_sparsity` leaves it. -/
theorem FactorTable.reset {factors : Nat → Nat → K}
    (h : P.pc.hasLagrange = false → factors = fun _ _ => 0) :
    FactorTable P M (if P.pc.hasLagrange then fun _ _ => 0 else factors) := by
  intro sigma
  cases hl : P.pc.hasLagrange with
  | false => rw [h hl]; rfl
  | true => rfl

end Tables

section Spec

variable {cb P} {s : Instance T} {x : List K}

theorem evalF_second (newX : Bool) :
    (s.evalF cb P newX x).1.second = (s.checkNewX newX).second := by
  simp only [Instance.evalF]
  split <;> rfl

theorem evalG_second (newX : Bool) (v : List K) :
    (s.evalG cb P newX x v).1.second = (s.checkNewX newX).second := by
  simp only [Instance.evalG]
  split <;> rfl

theorem evalGradF_second (newX : Bool) (v : List K) :
    (s.evalGradF cb P newX x v).1.second = (s.checkNewX newX).second := by
  simp only [Instance.evalGradF]
  split <;> rfl

theorem evalJacG_second (newX : Bool) (v : List K) :
    (s.evalJacG cb P newX x v).1.second = (s.checkNewX newX).second := by
  simp only [Instance.evalJacG]
  split <;> rfl

theorem ensureJacobian_second (cb : Callbacks T) (s : Instance T) (x : List K) (b : Bool) :
    (if b then s else s.callbackJacobian cb (raw x)).second = s.second := by
  cases b <;> rfl

theorem HesAt.of_second {s' : Instance T} {y mu : Nat → K} {sigma : K}
    (h : HesAt cb P s y mu sigma) (hs : s'.second = s.second) : HesAt cb P s' y mu sigma := by
  have hm : s'.mesh = s.mesh := (congrArg Instance.mesh hs :)
  have hb := congrArg Instance.buffers hs
  have h1 : s'.buffers.hes = s.buffers.hes := (congrArg Buffers.hes hb :)
  have h2 : s'.buffers.ppHes = s.buffers.ppHes := (congrArg Buffers.ppHes hb :)
  have h3 : s'.buffers.mrHes = s.buffers.mrHes := (congrArg Buffers.mrHes hb :)
  simp only [HesAt, hm, h1, h2, h3]
  exact h

/-- The Hessian callbacks, with the Jacobian buffers at `x`. -/
theorem JacAt.callbackHessian {lambda : List K} {sigma : K} (hj : JacAt cb P s (raw x))
    (hoff : s.off = getSizes P s.mesh.mesh) (ht : FactorTable P s.mesh.mesh s.lagrangeObjFactors)
    (hl : s.transformedLambda.length = (getSizes P s.mesh.mesh).numberConstraints) :
    HesAt cb P (s.callbackHessian cb P (raw x) lambda sigma) (raw x) (raw lambda) sigma := by
  obtain ⟨h1, h2⟩ := hj
  simp only [HesAt, Instance.callbackHessian, freshHesBuffers, hoff, h1, h2, ht sigma, hl]
  exact ⟨trivial, trivial, trivial⟩

/-- The callbacks are run unless the flag `b` promises their results. -/
theorem Valid.ensureHessian (h : Valid cb P s (raw x)) (hoff : s.off = getSizes P s.mesh.mesh)
    (ht : FactorTable P s.mesh.mesh s.lagrangeObjFactors)
    (hl : s.transformedLambda.length = (getSizes P s.mesh.mesh).numberConstraints)
    {lambda : List K} {sigma : K} {b : Bool}
    (hb : b = true → HesAt cb P s (raw x) (raw lambda) sigma) :
    let t := if b then s
      else (if s.evaluationState.jacG then s else s.callbackJacobian cb (raw x)).callbackHessian
        cb P (raw x) lambda sigma
    t.core = s.core ∧ HesAt cb P t (raw x) (raw lambda) sigma ∧
      FactorTable P t.mesh.mesh t.lagrangeObjFactors ∧
      t.transformedLambda.length = (getSizes P t.mesh.mesh).numberConstraints := by
  cases b with
  | true => exact ⟨rfl, hb rfl, ht, hl⟩
  | false =>
    obtain ⟨-, hj, hc⟩ := h.ensureJacobian hoff h.jacG
    have hs := ensureJacobian_second cb s x s.evaluationState.jacG
    revert hj hc hs
    generalize (if s.evaluationState.jacG then s else s.callbackJacobian cb (raw x)) = t
    intro hj hc hs
    have hm : t.mesh = s.mesh := (congrArg Instance.mesh hs :)
    have ho : t.off = s.off := (congrArg Instance.off hs :)
    have hf : t.lagrangeObjFactors = s.lagrangeObjFactors :=
      (congrArg Instance.lagrangeObjFactors hs :)
    have hd : t.transformedLambda = s.transformedLambda :=
      (congrArg Instance.transformedLambda hs :)
    rw [← hm, ← hf] at ht
    rw [← hm, ← hd] at hl
    rw [← hm, ← ho] at hoff
    exact ⟨hc, hj.callbackHessian hoff ht hl, ht.update _, (fill_length ..).trans hl⟩

/-- A Hessian evaluation whose flags are right reads the Hessian that is asked for. -/
theorem evalHes_spec (newX newLambda : Bool) (lambda v : List K) (sigma : K)
    (hoff : s.off = getSizes P s.mesh.mesh) (h : newX = true ∨ Valid cb P s (raw x))
    (ht : FactorTable P s.mesh.mesh s.lagrangeObjFactors)
    (hl : s.transformedLambda.length = (getSizes P s.mesh.mesh).numberConstraints)
    (hc : newX = false → newLambda = false → s.evaluationState.hes = true →
      HesAt cb P s (raw x) (raw lambda) sigma) :
    ∃ t, s.evalHes cb P newX x newLambda lambda sigma v =
        (t.evalHesInternal P).map (fun hes => (t, fill v.length hes)) ∧
      t.core = s.core ∧ HesAt cb P t (raw x) (raw lambda) sigma ∧
      FactorTable P t.mesh.mesh t.lagrangeObjFactors ∧
      t.transformedLambda.length = (getSizes P t.mesh.mesh).numberConstraints := by
  have hv := Valid.checkNewX h
  have hv : Valid cb P ((s.checkNewX newX).checkNewLambda newLambda) (raw x) := by
    cases newLambda <;> exact ⟨hv.evalF, hv.evalG, hv.gradF, hv.jacG⟩
  refine ⟨_, rfl, hv.ensureHessian hoff ht hl ?_⟩
  -- the flag is still set only if neither `x` nor `lambda` is new
  intro hset
  cases newX with
  | true => cases newLambda <;> cases hset
  | false =>
    cases newLambda with
    | true => cases hset
    | false => exact hc rfl rfl hset

end Spec

/-! ## The invariant of a run -/

section Run

variable {P} in
theorem evalHesInternal_congr {M : Mesh T} {off : Offsets} {B B' : Buffers K} {h h' : HesState}
    (h1 : B.hes = B'.hes) (h2 : B.ppHes = B'.ppHes) (h3 : B.mrHes = B'.mrHes)
    (hb : h.block = h'.block) : evalHesInternal P M off B h = evalHesInternal P M off B' h' := by
  have e : updateHessianLfg P M off B = updateHessianLfg P M off B' := by
    funext i j xuXu pXu hes
    simp only [updateHessianLfg, lfgHes, h1]
  have e2 : lfgPpHes B = lfgPpHes B' := funext fun k => congrFun h2 k
  have e3 : mrHes B = mrHes B' := funext fun k => congrFun h3 k
  simp only [evalHesInternal, e, updateParameterHessianLfg, updateHessianMr, e2, e3, hb]

/-- What the Hessian needs beyond `Inv`. -/
structure HesInv (l : Ledger T) (s : State T) : Prop where
  zero : P.pc.hasLagrange = false → s.inst.lagrangeObjFactors = fun _ _ => 0
  factors : l.info = true → l.hes = 1 → FactorTable P l.mesh.mesh s.inst.lagrangeObjFactors
  lambda_length : l.info = true → l.hes = 1 →
    s.inst.transformedLambda.length = (getSizes P l.mesh.mesh).numberConstraints
  lambda : ∀ mu, l.lastLambda = some mu →
    s.curr.lambda = l.user.scaleG mu (getSizes P l.mesh.mesh).numberConstraints
  cached : ∀ y, l.lastX = some y → l.hes = 1 → s.inst.evaluationState.hes = true →
    ∃ mu sigma, l.lastLambda = some mu ∧ l.lastSigma = some sigma ∧
      HesAt cb P s.inst (raw s.curr.x) (raw s.curr.lambda) (l.user.scaleF sigma)

variable {cb P} {past : Nat → Nat × Nat} {l : Ledger T} {s s' : State T}

theorem HesInv.start (mesh : MeshPtr T) : HesInv cb P { mesh } (State.start mesh) where
  zero := fun _ => rfl
  factors := by
    intro h
    cases h
  lambda_length := by
    intro h
    cases h
  lambda := by
    intro mu h
    cases h
  cached := by
    intro y h
    cases h

variable (h : HesInv cb P l s)

include h

/-- Calls after which nothing is promised of the evaluations before. -/
theorem HesInv.forget (hf : s'.inst.lagrangeObjFactors = s.inst.lagrangeObjFactors)
    (hl : s'.inst.transformedLambda = s.inst.transformedLambda) : HesInv cb P l.forget s' where
  zero := fun hz => hf.trans (h.zero hz)
  factors := by
    rw [hf]
    exact h.factors
  lambda_length := by
    rw [hl]
    exact h.lambda_length
  lambda := by
    intro mu hm
    cases hm
  cached := by
    intro y hy
    cases hy

/-- Calls that leave the Hessian and the iterate alone. -/
theorem HesInv.keep (hs : s'.inst.second = s.inst.second) (hx : s'.curr.x = s.curr.x)
    (hl : s'.curr.lambda = s.curr.lambda) : HesInv cb P l s' := by
  obtain ⟨e1, e2, e3⟩ := Instance.of_second hs
  exact
    { zero := fun hz => e1.trans (h.zero hz)
      factors := e1 ▸ h.factors
      lambda_length := e2 ▸ h.lambda_length
      lambda := fun mu hm => hl.trans (h.lambda mu hm)
      cached := fun y hy h1 hset => by
        obtain ⟨mu, sigma, hm, hsg, ha⟩ := h.cached y hy h1 (e3 ▸ hset)
        refine ⟨mu, sigma, hm, hsg, ?_⟩
        rw [hx, hl]
        exact ha.of_second hs }

/-- An evaluation of first order at a point that is not new keeps the Hessian, at a new point it
clears the flag. -/
theorem HesInv.firstOrder {newX : Bool} {x : Nat → K} (hx : l.XFlag P newX x)
    (hs : s'.inst.second = (s.inst.checkNewX newX).second)
    (hn : newX = false → s'.curr.x = s.curr.x) (hl : s'.curr.lambda = s.curr.lambda) :
    HesInv cb P (l.noteX newX x) s' := by
  cases newX with
  | false =>
    have k := h.keep hs (hn rfl) hl
    obtain ⟨y, hy, -⟩ := hx.2.resolve_left (by decide)
    exact ⟨k.zero, k.factors, k.lambda_length, k.lambda, fun _ _ => k.cached y hy⟩
  | true =>
    obtain ⟨e1, e2, e3⟩ := Instance.of_second hs
    exact
      { zero := fun hz => e1.trans (h.zero hz)
        factors := e1 ▸ h.factors
        lambda_length := e2 ▸ h.lambda_length
        lambda := fun mu hm => hl.trans (h.lambda mu hm)
        cached := fun _ _ _ hset => (by rw [e3] at hset; cases hset) }

/-! ## Every call keeps the invariant -/

section Calls

variable [LinearOrder K] (hi : Inv cb P past l s)

include hi

section Hessian

variable {newX newLambda : Bool} {x lambda : Nat → K} {sigma : K} (hx : l.XFlag P newX x)
variable (hl : l.LambdaFlagged P (.evalHes newX x newLambda lambda sigma))

include hx hl

omit [LinearOrder K] in
/-- The multipliers of a Hessian evaluation. -/
theorem HesInv.multipliers {sc : Scaling K}
    (hc : Created (freshShape P l.mesh.mesh past) l.user sc) :
    (if newLambda then sc.scaleG lambda s.numberConstraints else s.curr.lambda) =
      l.user.scaleG lambda (getSizes P l.mesh.mesh).numberConstraints := by
  cases newLambda with
  | true => exact (hc.scaleG _ _).trans (by rw [(hi.sized hx.1.1).numberConstraints])
  | false =>
    obtain ⟨mu, hmu, hlm⟩ := hl.2.resolve_left (by decide)
    exact (h.lambda mu hmu).trans (l.user.scaleG_congr hlm).symm

theorem HesInv.evalHes
    (hs : l.SameSigma (.evalHes newX x newLambda lambda sigma)) :
    (step cb P past s (.evalHes newX x newLambda lambda sigma)).map Prod.snd =
        fresh cb P l.mesh.mesh past l.user (.evalHes newX x newLambda lambda sigma) ∧
      ∀ r, step cb P past s (.evalHes newX x newLambda lambda sigma) = some r →
        HesInv cb P (l.note P (.evalHes newX x newLambda lambda sigma)) r.1 := by
  have hz := hi.sized hx.1.1
  have hm := hi.mesh
  have hq : l.hes ≤ 1 := Nat.le_of_eq hl.1
  obtain ⟨sc, hsc, hc, hh⟩ := hz.scaling
  obtain ⟨hp, hv⟩ := hi.point hx hc
  have hmu := h.multipliers hi hx hl hc
  have hf := h.factors hx.1.1 hl.1
  have hd := h.lambda_length hx.1.1 hl.1
  rw [← hm] at hf hd
  have hcache : newX = false → newLambda = false → s.inst.evaluationState.hes = true →
      HesAt cb P s.inst (raw (l.user.unscaleX x (getSizes P l.mesh.mesh).numberVars))
        (raw (l.user.scaleG lambda (getSizes P l.mesh.mesh).numberConstraints))
        (l.user.scaleF sigma) := by
    rintro rfl rfl hset
    obtain ⟨y, hy, hxy⟩ := hx.2.resolve_left (by decide)
    obtain ⟨mu, rho, hmu', hrho, ha⟩ := h.cached y hy hl.1 hset
    rw [hs rfl rfl rho hrho, l.user.unscaleX_congr hxy, ← (hi.cached y hy).1, ← hmu]
    exact ha
  obtain ⟨t, et, tc, ta, tf, td⟩ := evalHes_spec newX newLambda _ s.currHes _ (hi.inst_off hx.1.1)
    hv hf hd hcache
  have tm : t.mesh = l.mesh := (congrArg Instance.mesh tc :).trans hm
  have te : t.evalHesInternal P = GDOP.evalHesInternal P l.mesh.mesh (getSizes P l.mesh.mesh)
      (freshHesBuffers cb P l.mesh.mesh
        (raw (l.user.unscaleX x (getSizes P l.mesh.mesh).numberVars))
        (raw (l.user.scaleG lambda (getSizes P l.mesh.mesh).numberConstraints))
        (l.user.scaleF sigma)) (freshHes P l.mesh.mesh past) := by
    have t1 : t.off = s.inst.off := (congrArg Instance.off tc :)
    have tb : t.hesBlock = (freshHes P l.mesh.mesh past).block := by
      have h1 : t.hesBlock = s.inst.hesBlock := (congrArg Instance.hesBlock tc :)
      rw [h1, hz.hesBlock hq, hl.1]
      rfl
    rw [HesAt, tm] at ta
    rw [Instance.evalHesInternal, tm, t1, hz.off]
    exact evalHesInternal_congr ta.1 ta.2.1 ta.2.2 tb
  have e := NLP.solverEvalHes_eq (virtuals cb P past) hsc newX x newLambda lambda sigma
  rw [hp, NLP.updateUnscaleCurrLambda_eq] at e
  dsimp only [NLP.unscaleCurrSigmaF] at e
  rw [hmu, hc.scaleF] at e
  replace e := e.trans (congrArg _ et)
  rw [te] at e
  rw [step, e, fresh]
  generalize GDOP.evalHesInternal P l.mesh.mesh _ _ _ = hes
  cases hes with
  | none => exact ⟨rfl, fun _ hr => (by cases hr)⟩
  | some hes =>
    refine ⟨congrArg some ?_, fun r hr => ?_⟩
    · dsimp only
      have hp : s.hes = (freshShape P l.mesh.mesh past).hes := by
        rw [hz.hes hq, hl.1]
        rfl
      rw [hz.nnzHes, hp, hz.currHes]
      refine (hc.scaleHes_built (hh hq) _).2.trans ?_
      exact l.user.scaleHes_congr (fun k hk => raw_fill_lt _ hk) _ _
    · cases hr
      rw [tm] at tf td
      refine ⟨fun hzero => ?_, fun _ _ => tf, fun _ _ => td, fun mu hmu => ?_,
        fun _ _ _ _ => ⟨lambda, sigma, rfl, rfl, ta⟩⟩
      · have h0 := tf 0
        simp only [updateLagrangeObjFactors, hzero] at h0
        exact h0
      · cases hmu
        rfl

end Hessian

/-- Every call of a solver that sets `new_x` and `new_lambda` as it should, and does not ask for
another objective factor only, keeps the invariant. -/
theorem HesInv.step {c : Call T} (hx : l.XFlagged P c) (hl : l.LambdaFlagged P c)
    (hs : l.SameSigma c) {r : State T × List K} (hr : step cb P past s c = some r) :
    HesInv cb P (l.note P c) r.1 := by
  cases c with
  | update mesh =>
    cases hr
    exact ⟨h.zero, fun hi => (by cases hi), fun hi => (by cases hi), fun _ hm => (by cases hm),
      fun _ hy => (by cases hy)⟩
  | setInitialGuess guess =>
    cases hr
    exact h.keep rfl rfl rfl
  | setScalingFactory factory =>
    cases hr
    exact ⟨h.zero, h.factors, h.lambda_length, h.lambda, h.cached⟩
  | getInfo =>
    cases hr
    exact ⟨h.zero, fun _ hq => (by cases hq), fun _ hq => (by cases hq), fun _ hm => (by cases hm),
      fun _ hy => (by cases hy)⟩
  | getBounds =>
    obtain ⟨q, hq, rfl⟩ := Option.map_eq_some_iff.mp hr
    obtain ⟨sc, hsc, hq⟩ := Option.bind_eq_some_iff.mp hq
    cases hq
    exact h.keep rfl rfl rfl
  | getJacSparsity =>
    cases hr
    exact ⟨h.zero, h.factors, h.lambda_length, h.lambda, h.cached⟩
  | getHesSparsity =>
    cases hr
    refine ⟨fun hz => ?_, fun hn hq => ?_, fun hn hq => ?_, h.lambda, fun y hy hq => ?_⟩
    · exact (if_neg (by rw [hz]; decide)).trans (h.zero hz)
    · exact FactorTable.reset h.zero
    · exact (fill_length ..).trans (hi.sized hn).numberConstraints
    · -- a pattern queried for the first time has no evaluation before it
      have := (hi.ready y hy).2.2
      exact absurd hq (by show l.hes + 1 ≠ 1; omega)
  | getInitialGuess bx bl bz solver =>
    obtain ⟨i, guess, hi, e, rfl⟩ := step_getInitialGuess hr
    refine h.forget ?_ ?_ <;> simp only [e]
  | evalF newX x =>
    obtain ⟨sc, hsc, -⟩ := (hi.sized hx.1.1).scaling
    rw [GDOP.step, NLP.solverEvalF_eq _ hsc] at hr
    cases hr
    cases newX <;>
      exact h.firstOrder hx (evalF_second (P := P) _)
        (fun hn => (by cases hn <;> rfl)) rfl
  | evalGradF newX x =>
    obtain ⟨sc, hsc, -⟩ := (hi.sized hx.1.1).scaling
    rw [GDOP.step, NLP.solverEvalGradF_eq _ hsc] at hr
    cases hr
    cases newX <;>
      exact h.firstOrder hx (evalGradF_second (P := P) _ s.currGrad)
        (fun hn => (by cases hn <;> rfl)) rfl
  | evalG newX x =>
    obtain ⟨sc, hsc, -⟩ := (hi.sized hx.1.1).scaling
    rw [GDOP.step, NLP.solverEvalG_eq _ hsc] at hr
    cases hr
    cases newX <;>
      exact h.firstOrder hx (evalG_second (P := P) _ s.currG)
        (fun hn => (by cases hn <;> rfl)) rfl
  | evalJac newX x =>
    obtain ⟨sc, hsc, -⟩ := (hi.sized hx.1.1).scaling
    rw [GDOP.step, NLP.solverEvalJac_eq _ hsc] at hr
    cases hr
    cases newX <;>
      exact h.firstOrder hx (evalJacG_second (P := P) _ s.currJac)
        (fun hn => (by cases hn <;> rfl)) rfl
  | evalHes newX x newLambda lambda sigma => exact (h.evalHes hi hx hl hs).2 r hr
  | finalize obj x lambda zL zU =>
    obtain ⟨q, hq, rfl⟩ := Option.map_eq_some_iff.mp hr
    obtain ⟨sc, hsc, hq⟩ := Option.bind_eq_some_iff.mp hq
    cases hq
    exact h.forget rfl rfl

theorem HesInv.run {cs : List (Call T)} (hx : Ledger.Along P (Ledger.XFlagged P) l cs)
    (hl : Ledger.Along P (Ledger.LambdaFlagged P) l cs)
    (hs : Ledger.Along P Ledger.SameSigma l cs) (hr : run cb P past s cs = some s') :
    HesInv cb P (l.notes P cs) s' :=
  (run_notes (I := fun l s => HesInv cb P l s ∧ Inv cb P past l s)
    (fun h hc hr => ⟨h.1.step h.2 hc.1 hc.2.1 hc.2.2 hr, h.2.step hc.1 hr⟩) ⟨h, hi⟩
    (Ledger.along_and P hx (Ledger.along_and P hl hs)) hr).1

end Calls

end Run

/-- In every run that sets `new_x` and `new_lambda` as it should, and in which a Hessian evaluation
without news has the objective factor of the one before, every Hessian is fresh. -/
theorem hessian_fresh [LinearOrder K] (cb : Callbacks T) (P : Problem K) (past : Nat → Nat × Nat)
    (mesh : MeshPtr T) (cs : List (Call T)) (newX newLambda : Bool) (x lambda : Nat → K) (sigma : K)
    (hx : Ledger.Along P (Ledger.XFlagged P) { mesh }
      (cs ++ [.evalHes newX x newLambda lambda sigma]))
    (hl : Ledger.Along P (Ledger.LambdaFlagged P) { mesh }
      (cs ++ [.evalHes newX x newLambda lambda sigma]))
    (hs : Ledger.Along P Ledger.SameSigma { mesh }
      (cs ++ [.evalHes newX x newLambda lambda sigma]))
    {s : State T} (hr : run cb P past (State.start mesh) cs = some s) :
    (step cb P past s (.evalHes newX x newLambda lambda sigma)).map Prod.snd =
      fresh cb P (Ledger.notes P { mesh } cs).mesh.mesh past (Ledger.notes P { mesh } cs).user
        (.evalHes newX x newLambda lambda sigma) := by
  rw [Ledger.along_append] at hx hl hs
  have hi := (Inv.start mesh).run hx.1 hr
  have hh := (HesInv.start mesh).run (Inv.start mesh) hx.1 hl.1 hs.1 hr
  exact (hh.evalHes hi hx.2.1 hl.2.1 hs.2.1).1

/-! The state `x` of `minimise x(1) ^ 2 / 2` again. -/

section Terminal

/-- A solve up to its first Hessian evaluation. -/
def opened : List (Call eulerTables) :=
  [.setInitialGuess (some
      { primals := some { t := [0, 1], x := [[0, 1]], inducingMesh := some oneStep } }),
    .getInfo, .getJacSparsity, .getHesSparsity,
    .getInitialGuess true true true
      { x := [0, 0], lambda := [0], zLb := [0, 0], zUb := [0, 0] },
    .evalHes true (fun k => k) true (fun _ => 0) 1]

theorem opened_xFlagged (sigma : ℚ) :
    Ledger.Along terminal (Ledger.XFlagged terminal) { mesh := oneStep }
      (opened ++ [.evalHes false (fun k => k) false (fun _ => 0) sigma]) :=
  ⟨trivial, trivial, trivial, trivial, trivial, ⟨⟨rfl, rfl, Nat.one_pos⟩, .inl rfl⟩,
    ⟨⟨rfl, rfl, Nat.one_pos⟩, .inr ⟨_, rfl, fun _ _ => rfl⟩⟩, trivial⟩

theorem opened_lambdaFlagged (sigma : ℚ) :
    Ledger.Along terminal (Ledger.LambdaFlagged terminal) { mesh := oneStep }
      (opened ++ [.evalHes false (fun k => k) false (fun _ => 0) sigma]) :=
  ⟨trivial, trivial, trivial, trivial, trivial, ⟨rfl, .inl rfl⟩,
    ⟨rfl, .inr ⟨_, rfl, fun _ _ => rfl⟩⟩, trivial⟩

theorem hessian_fresh_terminal : ∃ s,
    run terminalCallbacks terminal (fun _ => (0, 0)) (State.start oneStep) opened = some s ∧
    (step terminalCallbacks terminal (fun _ => (0, 0)) s
      (.evalHes false (fun k => k) false (fun _ => 0) 1)).map Prod.snd = some [1] :=
  ⟨_, rfl, (hessian_fresh terminalCallbacks terminal (fun _ => (0, 0)) oneStep opened false false
    (fun k => k) (fun _ => 0) 1 (opened_xFlagged 1) (opened_lambdaFlagged 1) (by
      refine ⟨trivial, trivial, trivial, trivial, trivial, fun h => (by cases h), ?_, trivial⟩
      intro _ _ mu hmu
      cases hmu
      rfl) rfl).trans (by decide +kernel)⟩

/-- The same `x`, the same `lambda`, another objective factor: the Hessian of the old one. -/
theorem hessian_stale : ∃ s,
    run terminalCallbacks terminal (fun _ => (0, 0)) (State.start oneStep) opened = some s ∧
    Ledger.Along terminal (Ledger.XFlagged terminal) { mesh := oneStep }
      (opened ++ [.evalHes false (fun k => k) false (fun _ => 0) 3]) ∧
    Ledger.Along terminal (Ledger.LambdaFlagged terminal) { mesh := oneStep }
      (opened ++ [.evalHes false (fun k => k) false (fun _ => 0) 3]) ∧
    (step terminalCallbacks terminal (fun _ => (0, 0)) s
      (.evalHes false (fun k => k) false (fun _ => 0) 3)).map Prod.snd = some [1] ∧
    fresh terminalCallbacks terminal (Ledger.notes terminal { mesh := oneStep } opened).mesh.mesh
      (fun _ => (0, 0)) (Ledger.notes terminal { mesh := oneStep } opened).user
      (.evalHes false (fun k => k) false (fun _ => 0) 3) = some [3] := by
  refine ⟨_, rfl, opened_xFlagged 3, opened_lambdaFlagged 3, ?_, ?_⟩
  · decide +kernel
  · decide +kernel

end Terminal

end GDOP
end Moo
