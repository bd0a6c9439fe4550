import Moo.GDOP.HessianCache
import Moo.GDOP.Lagrangian
import Moo.NLP.Scaled

/-!
# GDOP.SolverView

One NLP behind everything a solver is told.

* `nlp`: the discretised problem of a mesh as functions: callbacks on zero buffers, no flags.
* `Callbacks.Smooth`, `exact_nlp`: callbacks that return derivatives of what they evaluate make an
  NLP with exact derivatives, where the coordinates of the Hessian are right.
* `Told`: an answer is the one of an NLP.
* `solver_view`: after every run that sets its flags as it should, everything the solver is told
  is told of the NLP of the current mesh, seen through the scaling of the current solve.
-/

namespace Moo
namespace GDOP

open Loop FixedVector NLP Coo RowForm

/-! ## The discretised problem -/

section Nlp

variable {K : Type} [Field K] {T : FLGR K} (cb : Callbacks T) (P : Problem K)
variable (mesh : MeshPtr T) (past : Nat → Nat × Nat)

/-- With the layouts of a problem in range, the Hessian is always there (`evalHesInternal_eq`). -/
def nlp : Functions K :=
  let M := mesh.mesh
  let off := getSizes P M
  { freshShape P M past with
    bounds :=
      { xLb := fill off.numberVars (boundsX P mesh off Bounds.lb fun _ => 0)
        xUb := fill off.numberVars (boundsX P mesh off Bounds.ub fun _ => 0)
        gLb := fill off.numberConstraints (boundsG P mesh off Bounds.lb fun _ => 0)
        gUb := fill off.numberConstraints (boundsG P mesh off Bounds.ub fun _ => 0) }
    f := fun x => evalFInternal P M (freshBuffers cb P M x)
    gradF := fun x => evalGradFInternal P M off (freshBuffers cb P M x)
    g := fun x => evalGInternal P M off (freshBuffers cb P M x) x
    jacG := freshJac cb P M
    hesL := fun x lambda sigmaF =>
      (evalHesInternal P M off (freshHesBuffers cb P M x lambda sigmaF)
        (freshHes P M past)).getD fun _ => 0 }

end Nlp

/-! ## Patterns and values -/

section Patterns

variable {K : Type} [Field K] {T : FLGR K} {cb : Callbacks T} {P : Problem K} {mesh : MeshPtr T}
variable (past : Nat → Nat × Nat)

/-- The layouts of a problem are in range. -/
structure LayoutsOk (P : Problem K) : Prop where
  jacobian : JacobianLayoutOk P
  gradient : JacobianLFGOk P.pc (lagrangeJac P)
  hessian : HessianLayoutOk P

variable (hP : LayoutsOk P)

include hP

/-- Pattern and values of the Jacobian are those of the assembled matrix. -/
theorem coo_nlp_jac (x : Nat → K) (r c : Nat) :
    coo (nlp cb P mesh past).nnzJac (nlp cb P mesh past).jac.row (nlp cb P mesh past).jac.col
        ((nlp cb P mesh past).jacG x) r c =
      jacMatrix P mesh.mesh (freshBuffers cb P mesh.mesh x) (fun _ => 0) (fun _ => 0) r c := by
  have hn : freshNnzJac P mesh.mesh =
      (jacSlots P mesh.mesh (getSizes P mesh.mesh) (freshBuffers cb P mesh.mesh x)).length :=
    nnzJac_eq P mesh.mesh _ hP.jacobian.walks
  refine Finset.sum_congr rfl fun k hk => ?_
  have hk : k < freshNnzJac P mesh.mesh := Finset.mem_range.mp hk
  have hrow : (nlp cb P mesh past).jac.row k = (freshCells P mesh.mesh k).row :=
    (getD_fill ..).trans (if_pos hk)
  have hcol : (nlp cb P mesh past).jac.col k = (freshCells P mesh.mesh k).col :=
    (getD_fill ..).trans (if_pos hk)
  have hval : (nlp cb P mesh past).jacG x k =
      (assembledValues P mesh.mesh (freshBuffers cb P mesh.mesh x) (fun _ => 0)
        fun _ => 0).cells k := by
    have h (c₀ : Nat → K) := Tape.run_cells_at
      ((jacSlots P mesh.mesh (getSizes P mesh.mesh) (freshBuffers cb P mesh.mesh x)).map Slot.val)
      ⟨0, c₀⟩ (k := k) (by rwa [List.length_map, ← hn])
    simp only [Nat.zero_add] at h
    rw [assembledValues, getSizes_offX, evalJacGInternal_eq P _ _ hP.jacobian.walks, h]
    refine (congrArg (fun t => Tape.cells t k)
      (evalJacGInternal_eq P _ _ hP.jacobian.walks _)).trans ((h _).trans ?_)
    rw [raw_fill_lt _ hk]
    rfl
  rw [hrow, hcol, hval]
  rfl

omit hP in
/-- Pattern and values of the Hessian are those of its matrix. -/
theorem coo_nlp_hes {x lambda : Nat → K} {sigma : K} {hes : Nat → K}
    (he : evalHesInternal P mesh.mesh (getSizes P mesh.mesh)
      (freshHesBuffers cb P mesh.mesh x lambda sigma) (freshHes P mesh.mesh past) = some hes)
    (r c : Nat) :
    coo (nlp cb P mesh past).nnzHes (nlp cb P mesh past).hes.row (nlp cb P mesh past).hes.col
        ((nlp cb P mesh past).hesL x lambda sigma) r c =
      hesMatrix P mesh.mesh past (fun _ => 0) (fun _ => 0) hes r c := by
  refine Finset.sum_congr rfl fun k hk => ?_
  have hk : k < initHessianNonzeros P mesh.mesh P.pc.xSize := Finset.mem_range.mp hk
  have hrow : (nlp cb P mesh past).hes.row k = (freshHes P mesh.mesh past).iRow k :=
    (getD_fill ..).trans (if_pos hk)
  have hcol : (nlp cb P mesh past).hes.col k = (freshHes P mesh.mesh past).jCol k :=
    (getD_fill ..).trans (if_pos hk)
  have hval : (nlp cb P mesh past).hesL x lambda sigma = hes := congrArg (Option.getD · _) he
  rw [hrow, hcol, hval]
  rfl

end Patterns

/-! ## Exact derivatives -/

section Smooth

variable {T : FLGR ℝ} {cb : Callbacks T} {P : Problem ℝ} {mesh : MeshPtr T}
variable (past : Nat → Nat × Nat)

/-- The callbacks return the derivatives of what they evaluate; those of the Hessian with the
weights they are handed. -/
structure Callbacks.Smooth (cb : Callbacks T) (P : Problem ℝ) (M : Mesh T) : Prop where
  constraints : ∀ x : Fin (getSizes P M).numberVars → ℝ,
    CallbackDerivatives P M (fun x => freshBuffers cb P M (extend x))
      (freshBuffers cb P M (extend x)) x
  objective : ∀ x : Fin (getSizes P M).numberVars → ℝ,
    ObjectiveDerivatives P M (fun x => freshBuffers cb P M (extend x))
      (freshBuffers cb P M (extend x)) x
  lagrangian : ∀ (sigma : ℝ) (lambda : Nat → ℝ) (x : Fin (getSizes P M).numberVars → ℝ),
    HessianCallbacks P M sigma lambda (fun x => freshBuffers cb P M (extend x))
      (freshHesBuffers cb P M (extend x) lambda sigma) x

variable (hP : LayoutsOk P)

include hP

/-- Where the coordinates of the Hessian are right (`flatAt_iff_prefix`). -/
theorem exact_nlp (hp : hesFlat P P.pc.xSize .H <+: hesFlat P P.pc.xSize .G)
    (hcb : cb.Smooth P mesh.mesh) : Exact (nlp cb P mesh past) where
  gradF := fun x => objective_hasFDerivAt P mesh.mesh hP.gradient _ (hcb.objective x)
  jacG := by
    intro x r hr
    rw [form_congr fun c _ => coo_nlp_jac past hP (extend x) r c]
    exact evalGInternal_hasFDerivAt P mesh.mesh hP.jacobian _ _ _ (hcb.constraints x) hr
  hesL := by
    intro x lambda sigma
    have hflat := flatAt_iff_prefix (hesFlat_nodup P (getSizes P mesh.mesh) .H) |>.mpr
      hp past
    have he := evalHesInternal_eq P mesh.mesh (freshHesBuffers cb P mesh.mesh (extend x) lambda
      sigma) _ (getHesSparsity_laid P mesh.mesh past (fun _ => 0) (fun _ => 0) hP.hessian).type
    obtain ⟨F'', h1, h2⟩ := hasFDerivAt_form fun c hc => hessian_hasFDerivAt hP.jacobian
      hP.gradient hP.hessian hflat (fun _ => 0) (fun _ => 0) (fun _ => 0) (fun _ => 0)
      (hcb.lagrangian sigma lambda x) he hc
    have grad := funext fun y => (lagrangian_hasFDerivAt hP.jacobian hP.gradient (fun _ => 0)
      (fun _ => 0) sigma lambda (hcb.constraints y) (hcb.objective y)).fderiv
    refine ⟨F'', grad ▸ h1, fun i j hij => ?_⟩
    exact (coo_nlp_hes past he i j).trans ((symmetric_of_le _ hij).symm.trans (h2 i j).symm)

end Smooth

/-! ## What a solver is told -/

section Told

variable {K : Type} [Field K] {T : FLGR K} (N : Functions K)

/-- The five evaluations. -/
def Call.Evaluation : Call T → Prop
  | .evalHes _ _ _ _ _ => True
  | c => c.FirstOrder

/-- The answer of an evaluation is that of `N`. -/
def Told : Call T → List K → Prop
  | .evalF _ x, v => v = [N.f x]
  | .evalGradF _ x, v => v = fill N.numberVars (N.gradF x)
  | .evalG _ x, v => v = fill N.numberConstraints (N.g x)
  | .evalJac _ x, v => v = fill N.nnzJac (N.jacG x)
  | .evalHes _ x _ lambda sigma, v => v = fill N.nnzHes (N.hesL x lambda sigma)
  | _, _ => True

variable {cb : Callbacks T} {P : Problem K} {mesh : MeshPtr T} {past : Nat → Nat × Nat}

/-- A fresh evaluation answers like the scaled NLP. -/
theorem told_fresh (hP : HessianLayoutOk P) (u : UserScaling K) {c : Call T} (hc : c.Evaluation) :
    ∃ v, fresh cb P mesh.mesh past u c = some v ∧ Told ((nlp cb P mesh past).scaled u) c v := by
  have filled {n : Nat} {v : List K} {F : Nat → K} (h : v = fill n F) : v = fill n (raw v) := by
    rw [h]
    exact fill_congr fun i hi => (raw_fill_lt _ hi).symm
  cases c with
  | evalF newX x => exact ⟨_, rfl, rfl⟩
  | evalGradF newX x => exact ⟨_, rfl, filled (u.scaleGradF_eq _ _)⟩
  | evalG newX x => exact ⟨_, rfl, filled (u.scaleG_eq _ _)⟩
  | evalJac newX x => exact ⟨_, rfl, filled (u.scaleJac_eq _ _ _ _)⟩
  | evalHes newX x newLambda lambda sigma =>
    have he := evalHesInternal_eq P mesh.mesh (freshHesBuffers cb P mesh.mesh
      (raw (u.unscaleX x (getSizes P mesh.mesh).numberVars))
      (raw (u.scaleG lambda (getSizes P mesh.mesh).numberConstraints)) (u.scaleF sigma)) _
      (getHesSparsity_laid P mesh.mesh past (fun _ => 0) (fun _ => 0) hP).type
    refine ⟨_, congrArg (Option.map _) he, (filled (u.scaleHes_eq _ _ _ _)).trans ?_⟩
    have hval := congrArg (Option.getD · fun _ => 0) he
    refine congrArg (fun h => fill _ (raw (u.scaleHes h _ _ _))) ?_
    exact hval.symm
  | _ => exact hc.elim

end Told

/-! ## The bounds -/

section Bounds

variable {K : Type} [Field K] [LinearOrder K] {T : FLGR K} {cb : Callbacks T} {P : Problem K}
variable {past : Nat → Nat × Nat} {l : Ledger T} {s : State T}

/-- The vectors of the bounds have the sizes of a mesh. -/
structure Bounded (P : Problem K) (M : Mesh T) (b : BoundVectors K) : Prop where
  xLb : b.xLb.length = (getSizes P M).numberVars
  xUb : b.xUb.length = (getSizes P M).numberVars
  gLb : b.gLb.length = (getSizes P M).numberConstraints
  gUb : b.gUb.length = (getSizes P M).numberConstraints

theorem Bounded.step (h : l.info = true → Bounded P l.mesh.mesh s.bounds)
    (hm : s.inst.mesh = l.mesh) {c : Call T} {r : State T × List K}
    (hr : GDOP.step cb P past s c = some r) :
    (l.note P c).info = true → Bounded P (l.note P c).mesh.mesh r.1.bounds := by
  cases c with
  | update mesh =>
    intro hi
    cases hi
  | getInfo =>
    cases hr
    intro _
    exact hm ▸ ⟨fill_length .., fill_length .., fill_length .., fill_length ..⟩
  | getBounds =>
    obtain ⟨q, hq, rfl⟩ := Option.map_eq_some_iff.mp hr
    obtain ⟨sc, -, hq⟩ := Option.bind_eq_some_iff.mp hq
    cases hq
    intro hi
    obtain ⟨h1, h2, h3, h4⟩ := h hi
    exact ⟨(edit_length ..).trans h1, (edit_length ..).trans h2, (edit_length ..).trans h3,
      (edit_length ..).trans h4⟩
  | setInitialGuess guess =>
    cases hr
    exact h
  | setScalingFactory factory =>
    cases hr
    exact h
  | getJacSparsity =>
    cases hr
    exact h
  | getHesSparsity =>
    cases hr
    exact h
  | getInitialGuess bx bl bz solver =>
    obtain ⟨i, guess, -, -, rfl⟩ := step_getInitialGuess hr
    exact h
  | evalF newX x =>
    obtain ⟨q, hq, rfl⟩ := Option.map_eq_some_iff.mp hr
    obtain ⟨sc, -, hq⟩ := Option.bind_eq_some_iff.mp hq
    cases hq
    cases newX <;> exact h
  | evalGradF newX x =>
    obtain ⟨sc, -, hq⟩ := Option.bind_eq_some_iff.mp hr
    cases hq
    cases newX <;> exact h
  | evalG newX x =>
    obtain ⟨sc, -, hq⟩ := Option.bind_eq_some_iff.mp hr
    cases hq
    cases newX <;> exact h
  | evalJac newX x =>
    obtain ⟨sc, -, hq⟩ := Option.bind_eq_some_iff.mp hr
    cases hq
    cases newX <;> exact h
  | evalHes newX x newLambda lambda sigma =>
    obtain ⟨sc, -, hq⟩ := Option.bind_eq_some_iff.mp hr
    obtain ⟨q, -, hq⟩ := Option.bind_eq_some_iff.mp hq
    cases hq
    cases newX <;> cases newLambda <;> exact h
  | finalize obj x lambda zL zU =>
    obtain ⟨q, hq, rfl⟩ := Option.map_eq_some_iff.mp hr
    obtain ⟨sc, -, hq⟩ := Option.bind_eq_some_iff.mp hq
    cases hq
    exact h

omit [LinearOrder K] in
/-- Bounds that are written over anything of the right size are those of the NLP. -/
theorem edit_boundsX {v : List K} {mesh : MeshPtr T} (side : Bounds K → K)
    (hv : v.length = (getSizes P mesh.mesh).numberVars) :
    edit v (boundsX P mesh (getSizes P mesh.mesh) side) =
      fill (getSizes P mesh.mesh).numberVars
        (boundsX P mesh (getSizes P mesh.mesh) side fun _ => 0) := by
  rw [edit, hv]
  refine fill_congr fun i hi => ?_
  obtain ⟨v, hv, rfl⟩ := Variable.exists_index hi
  exact (boundsX_index side hv _).trans (boundsX_index side hv _).symm

omit [LinearOrder K] in
theorem edit_boundsG {v : List K} {mesh : MeshPtr T} (side : Bounds K → K)
    (hv : v.length = (getSizes P mesh.mesh).numberConstraints) :
    edit v (boundsG P mesh (getSizes P mesh.mesh) side) =
      fill (getSizes P mesh.mesh).numberConstraints
        (boundsG P mesh (getSizes P mesh.mesh) side fun _ => 0) := by
  rw [edit, hv]
  refine fill_congr fun i hi => ?_
  obtain ⟨c, hc, rfl⟩ := Constraint.exists_index hi
  exact (boundsG_index side hc _).trans (boundsG_index side hc _).symm

omit [LinearOrder K] in
/-- A scaling scales bounds as it did when it was created. -/
theorem created_bounds {N : Shape} {u : UserScaling K} {sc : Scaling K} (hc : Created N u sc)
    (v : List K) : sc.inplaceScaleX v = u.create.inplaceScaleX v ∧
      sc.inplaceScaleG v = u.create.inplaceScaleG v := by
  obtain ⟨rfl, rfl⟩ | ⟨nom, sc, rfl, rfl, hb⟩ := hc.cases
  · exact ⟨rfl, rfl⟩
  · constructor
    · rw [Scaling.inplaceScaleX, NominalScaling.inplaceScaleX, hb.x]
      rfl
    · rw [Scaling.inplaceScaleG, NominalScaling.inplaceScaleG, hb.g]
      rfl

end Bounds

/-! ## The view of a solver -/

section View

variable {K : Type} [Field K] [LinearOrder K] {T : FLGR K} (cb : Callbacks T) (P : Problem K)
variable (past : Nat → Nat × Nat) (l : Ledger T) (s : State T)

/-- In state `s`, after the calls of `l`, the solver is told of `N`, whatever it asks for. -/
structure SolverView (N : Functions K) : Prop where
  numberVars : s.numberVars = N.numberVars
  numberConstraints : s.numberConstraints = N.numberConstraints
  nnzJac : s.nnzJac = N.nnzJac
  nnzHes : s.nnzHes = N.nnzHes
  jac : s.jac = N.jac
  hes : l.hes = 1 → s.hes = N.hes
  bounds : ∃ s', s.solverGetBounds (virtuals cb P past) = some (s', N.bounds)
  answers : ∀ c : Call T, c.Evaluation → l.XFlagged P c → l.LambdaFlagged P c → l.SameSigma c →
    ∃ s' v, step cb P past s c = some (s', v) ∧ Told N c v

/-- What a run that sets its flags as it should keeps. -/
structure Kept : Prop where
  inv : Inv cb P past l s
  hesInv : HesInv cb P l s
  bounded : l.info = true → Bounded P l.mesh.mesh s.bounds

variable {cb P past l s}

omit [LinearOrder K] in
theorem Kept.start (mesh : MeshPtr T) : Kept cb P past { mesh } (State.start mesh) :=
  ⟨Inv.start mesh, HesInv.start mesh, fun h => (by cases h)⟩

theorem Kept.step (h : Kept cb P past l s) {c : Call T} (hx : l.XFlagged P c)
    (hl : l.LambdaFlagged P c) (hs : l.SameSigma c) {r : State T × List K}
    (hr : GDOP.step cb P past s c = some r) : Kept cb P past (l.note P c) r.1 :=
  ⟨h.inv.step hx hr, h.hesInv.step h.inv hx hl hs hr, Bounded.step h.bounded h.inv.mesh hr⟩

theorem Kept.run (h : Kept cb P past l s) {cs : List (Call T)}
    (hx : Ledger.Along P (Ledger.XFlagged P) l cs)
    (hl : Ledger.Along P (Ledger.LambdaFlagged P) l cs)
    (hs : Ledger.Along P Ledger.SameSigma l cs) {s' : State T}
    (hr : GDOP.run cb P past s cs = some s') : Kept cb P past (l.notes P cs) s' :=
  run_notes (fun h hc hr => h.step hc.1 hc.2.1 hc.2.2 hr) h
    (Ledger.along_and P hx (Ledger.along_and P hl hs)) hr

/-- The bounds are those of the NLP, whatever the vectors held before. -/
theorem Inv.solverGetBounds (hi : Inv cb P past l s) (hn : l.info = true)
    (hb : Bounded P l.mesh.mesh s.bounds) :
    ∃ s', s.solverGetBounds (virtuals cb P past) =
      some (s', ((nlp cb P l.mesh past).scaled l.user).bounds) := by
  have hz := hi.sized hn
  obtain ⟨sc, hsc, hc, -⟩ := hz.scaling
  refine ⟨_, (NLP.solverGetBounds_eq _ hsc).trans (congrArg (fun b => some (_, b)) ?_)⟩
  dsimp only [virtuals, Instance.getBounds]
  rw [hz.off, hi.mesh, edit_boundsX _ hb.xLb, edit_boundsX _ hb.xUb, edit_boundsG _ hb.gLb,
    edit_boundsG _ hb.gUb, (created_bounds hc _).1, (created_bounds hc _).1,
    (created_bounds hc _).2, (created_bounds hc _).2]
  rfl

theorem HesInv.told (hP : HessianLayoutOk P) (hh : HesInv cb P l s) (hi : Inv cb P past l s)
    {c : Call T} (hc : c.Evaluation) (hx : l.XFlagged P c) (hl : l.LambdaFlagged P c)
    (hs : l.SameSigma c) : ∃ s' v, GDOP.step cb P past s c = some (s', v) ∧
      Told ((nlp cb P l.mesh past).scaled l.user) c v := by
  obtain ⟨v, hv, ht⟩ := @told_fresh _ _ T cb P l.mesh past hP l.user c hc
  have hstep : (GDOP.step cb P past s c).map Prod.snd = some v := by
    rw [← hv]
    cases c with
    | evalHes newX x newLambda lambda sigma => exact (hh.evalHes hi hx hl hs).1
    | _ => exact hi.fresh hc hx
  obtain ⟨r, hr, rfl⟩ := Option.map_eq_some_iff.mp hstep
  exact ⟨r.1, r.2, hr, ht⟩

theorem solverView (hP : HessianLayoutOk P) (h : Kept cb P past l s) (hr : l.Ready) :
    SolverView cb P past l s ((nlp cb P l.mesh past).scaled l.user) := by
  have hz := h.inv.sized hr.1
  exact
    { numberVars := hz.numberVars
      numberConstraints := hz.numberConstraints
      nnzJac := hz.nnzJac
      nnzHes := hz.nnzHes
      jac := by
        rw [hz.jac, hr.2.1]
        rfl
      hes := by
        intro h1
        rw [hz.hes (Nat.le_of_eq h1), h1]
        rfl
      bounds := h.inv.solverGetBounds hr.1 (h.bounded hr.1)
      answers := fun _ hc hx hl hs => h.hesInv.told hP h.inv hc hx hl hs }

end View

section Growth

noncomputable def growthCallbacks : Callbacks radauOne where
  fullEval := fun _ xu p k =>
    let x := xu.elim 0 fun v => v 0
    let p := p.elim 0 fun v => v 0
    if k = 0 then x * x + p * p else p * x
  fullJac := fun _ xu p k =>
    let x := xu.elim 0 fun v => v 0
    let p := p.elim 0 fun v => v 0
    [x + x, p + p, p, x].getD k 0
  fullHes := fun _ _ _ factors lambda _ k =>
    if k = 0 then factors 0 0 + factors 0 0 else lambda.elim 0 fun v => v 0
  fullPpHes := fun _ _ _ factors _ _ _ => factors 0 0 + factors 0 0
  boundaryEval := fun _ _ _ _ _ => 0
  boundaryJac := fun _ _ _ _ _ => 0
  boundaryHes := fun _ _ _ _ _ _ _ _ => 0

theorem growth_freshHesBuffers (sigma : ℝ) (lambda : Nat → ℝ)
    (x : Fin (getSizes growth integratorMesh).numberVars → ℝ) :
    freshHesBuffers growthCallbacks growth integratorMesh (extend x) lambda sigma =
      growthBuffers sigma lambda x := by
  have hfactor : updateLagrangeObjFactors growth integratorMesh sigma (fun _ _ => 0) 0 0 =
      sigma := by
    rw [factors_eq growth integratorMesh sigma _ Nat.one_pos Nat.one_pos rfl,
      integratorMesh_weight, mul_one]
  have hlambda : raw (fill (getSizes growth integratorMesh).numberConstraints
      (updateTransformedLambda growth integratorMesh (getSizes growth integratorMesh) lambda)) 0 =
      -lambda 0 := by
    have hfg : (getSizes growth integratorMesh).offAccFg 0 0 + 0 = 0 := rfl
    have h := transformedLambda_f growth integratorMesh lambda Nat.one_pos Nat.one_pos Nat.one_pos
    rw [hfg, integratorMesh_deltaT, mul_neg, mul_one] at h
    exact (raw_fill_lt _ Nat.one_pos).trans h
  unfold freshHesBuffers growthCallbacks growthBuffers
  simp only [hfactor]
  refine congrArg (fun hes => { growthBuffers sigma lambda x with hes := hes }) (funext fun k => ?_)
  exact congrArg (fun v => if k = 0 then sigma + sigma else v) hlambda

theorem growthCallbacks_smooth : growthCallbacks.Smooth growth integratorMesh where
  constraints := by
    intro x
    have h := growth_callbacks 0 (fun _ => 0) x
    exact ⟨h.f, h.g, h.r⟩
  objective := by
    intro x
    have h := growth_objective 0 (fun _ => 0) x
    exact ⟨h.lagrange, h.mayer⟩
  lagrangian := by
    intro sigma lambda x
    have h := growth_hessian sigma lambda x
    rw [growth_freshHesBuffers]
    exact ⟨h.full, h.boundary⟩

theorem growth_layoutsOk : LayoutsOk growth :=
  ⟨growth_jacLayoutOk, growth_lagrange, growth_layoutOk⟩

theorem growth_value (x : Nat → ℝ) : evalFInternal growth integratorMesh
    (freshBuffers growthCallbacks growth integratorMesh x) = x 1 * x 1 + x 2 * x 2 := by
  have hL : growth.pc.hasLagrange = true := rfl
  have hM : growth.pc.hasMayer = false := rfl
  have hl : lfgEvalL growth integratorMesh
      (freshBuffers growthCallbacks growth integratorMesh x) 0 0 = x 1 * x 1 + x 2 * x 2 := rfl
  have hi : integratorMesh.intervals = 1 := rfl
  have hj : integratorMesh.nodesAt 0 = 1 := rfl
  have hw : integratorMesh.deltaTAt 0 * radauOne.getB 1 0 = 1 := integratorMesh_weight
  simp [evalFInternal_eq, objective, hL, hM, hl, hi, hj, hw]

/-- Sizes and patterns, the objective, and the Hessian with new multipliers. -/
noncomputable def growthCalls : List (Call radauOne) :=
  [.getInfo, .getJacSparsity, .getHesSparsity, .evalF true fun i => i,
    .evalHes false (fun i => i) true (fun _ => -1) 1]

end Growth

end GDOP
end Moo
