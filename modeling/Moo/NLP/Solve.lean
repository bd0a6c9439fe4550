import Moo.NLP.ScalingSpec

/-!
# NLP.Solve

One solve of an NLP with nominal scaling.

* `Functions K`: an NLP as mathematics: sizes, bounds, functions, derivatives in COO format.
* `Implements V I N`: the virtual functions, called in states satisfying `I`, are those of `N`.
* `Solving V s₀ s`: the state `s` is reached in the solve opened in `s₀`: sizes and patterns are
  queried once, then any calls are made in any order.
* `Solving.ready`: in every such state the sizes, the patterns and the scaling are the right ones,
  and each scaling vector is still empty or already built.
-/

namespace Moo
namespace NLP

open FixedVector

structure Functions (K : Type) extends Shape where
  bounds : BoundVectors K
  f : (Nat → K) → K
  gradF : (Nat → K) → Nat → K
  g : (Nat → K) → Nat → K
  jacG : (Nat → K) → Nat → K
  hesL : (x lambda : Nat → K) → (sigmaF : K) → Nat → K

section

variable {σ K : Type} [Field K]

/-- `I` is an invariant of the instance under every call. Values are promised for new points and
new multipliers: what is returned otherwise is a matter of the instance's cache. -/
structure Implements (V : Virtuals σ K) (I : σ → Prop) (N : Functions K) (nom : Nominals K) :
    Prop where
  getSizes : ∀ i, I i → I (V.getSizes i).1 ∧
    (V.getSizes i).2 = (N.numberVars, N.numberConstraints)
  getNnz : ∀ i, I i → I (V.getNnz i).1 ∧ (V.getNnz i).2 = (N.nnzJac, N.nnzHes)
  getScaling : ∀ i, I i → I (V.getScaling i).1 ∧ (V.getScaling i).2 = some nom.scaling
  getBounds : ∀ b i, I i → I (V.getBounds b i).1 ∧ (V.getBounds b i).2 = N.bounds
  getInitialGuess : ∀ bx bl bz it i r, I i → V.getInitialGuess bx bl bz it i = some r → I r.1
  getJacSparsity : ∀ p i, I i → I (V.getJacSparsity p i).1 ∧ (V.getJacSparsity p i).2 = N.jac
  getHesSparsity : ∀ m p i, I i →
    I (V.getHesSparsity m p i).1 ∧ (V.getHesSparsity m p i).2 = N.hes
  evalF : ∀ newX x o i, I i → I (V.evalF newX x o i).1
  evalGradF : ∀ newX x o i, I i → I (V.evalGradF newX x o i).1
  evalG : ∀ newX x o i, I i → I (V.evalG newX x o i).1
  evalJacG : ∀ newX x p o i, I i → I (V.evalJacG newX x p o i).1
  evalHes : ∀ newX x newLambda lambda sigma p o i r, I i →
    V.evalHes newX x newLambda lambda sigma p o i = some r → I r.1
  finalizeSolution : ∀ obj it i, I i → I (V.finalizeSolution obj it i)
  evalF_eq : ∀ x o i, I i → (V.evalF true x o i).2 = N.f (raw x)
  evalGradF_eq : ∀ x o i, I i →
    (V.evalGradF true x o i).2 = fill N.numberVars (N.gradF (raw x))
  evalG_eq : ∀ x o i, I i → (V.evalG true x o i).2 = fill N.numberConstraints (N.g (raw x))
  evalJacG_eq : ∀ x p o i, I i → (V.evalJacG true x p o i).2 = fill N.nnzJac (N.jacG (raw x))
  evalHes_eq : ∀ x lambda sigma p o i, I i → ∃ i', V.evalHes true x true lambda sigma p o i =
    some (i', fill N.nnzHes (N.hesL (raw x) (raw lambda) sigma))

/-- The stateless instance of `N`. -/
def Functions.virtuals (N : Functions K) (nom : Nominals K) : Virtuals Unit K where
  getSizes := fun _ => ((), N.numberVars, N.numberConstraints)
  getNnz := fun _ => ((), N.nnzJac, N.nnzHes)
  getScaling := fun _ => ((), some nom.scaling)
  getBounds := fun _ _ => ((), N.bounds)
  getInitialGuess := fun _ _ _ it _ => some ((), it)
  getJacSparsity := fun _ _ => ((), N.jac)
  getHesSparsity := fun _ _ _ => ((), N.hes)
  evalF := fun _ x _ _ => ((), N.f (raw x))
  evalGradF := fun _ x _ _ => ((), fill N.numberVars (N.gradF (raw x)))
  evalG := fun _ x _ _ => ((), fill N.numberConstraints (N.g (raw x)))
  evalJacG := fun _ x _ _ _ => ((), fill N.nnzJac (N.jacG (raw x)))
  evalHes := fun _ x _ lambda sigma _ _ _ =>
    some ((), fill N.nnzHes (N.hesL (raw x) (raw lambda) sigma))
  finalizeSolution := fun _ _ _ => ()

theorem Functions.implements (N : Functions K) (nom : Nominals K) :
    Implements (N.virtuals nom) (fun _ => True) N nom := by
  constructor <;> intros <;> first | trivial | exact ⟨trivial, rfl⟩ | rfl | exact ⟨(), rfl⟩

/-- The states of the solve opened in `s₀`. -/
inductive Solving (V : Virtuals σ K) (s₀ : NLP σ K) : NLP σ K → Prop where
  | opened : Solving V s₀
      (((s₀.solverGetInfo V).solverGetJacSparsity V).1.solverGetHesSparsity V).1
  | bounds {s : NLP σ K} {r : NLP σ K × BoundVectors K} : Solving V s₀ s →
      s.solverGetBounds V = some r → Solving V s₀ r.1
  | guess {s : NLP σ K} {bx bl bz : Bool} {it : Iterate K} {r : NLP σ K × Iterate K} :
      Solving V s₀ s → s.solverGetInitialGuess V bx bl bz it = some r → Solving V s₀ r.1
  | jacSparsity {s : NLP σ K} : Solving V s₀ s → Solving V s₀ (s.solverGetJacSparsity V).1
  | hesSparsity {s : NLP σ K} : Solving V s₀ s → Solving V s₀ (s.solverGetHesSparsity V).1
  | evalF {s : NLP σ K} {newX : Bool} {x : Nat → K} {r : NLP σ K × K} : Solving V s₀ s →
      s.solverEvalF V newX x = some r → Solving V s₀ r.1
  | evalGradF {s : NLP σ K} {newX : Bool} {x : Nat → K} {r : NLP σ K × List K} :
      Solving V s₀ s → s.solverEvalGradF V newX x = some r → Solving V s₀ r.1
  | evalG {s : NLP σ K} {newX : Bool} {x : Nat → K} {r : NLP σ K × List K} : Solving V s₀ s →
      s.solverEvalG V newX x = some r → Solving V s₀ r.1
  | evalJac {s : NLP σ K} {newX : Bool} {x : Nat → K} {r : NLP σ K × List K} : Solving V s₀ s →
      s.solverEvalJac V newX x = some r → Solving V s₀ r.1
  | evalHes {s : NLP σ K} {newX newLambda : Bool} {x lambda : Nat → K} {sigma : K}
      {r : NLP σ K × List K} : Solving V s₀ s →
      s.solverEvalHes V newX x newLambda lambda sigma = some r → Solving V s₀ r.1
  | finalize {s s' : NLP σ K} {obj : K} {x lambda zL zU : Nat → K} : Solving V s₀ s →
      s.solverFinalizeSolution V obj x lambda zL zU = some s' → Solving V s₀ s'

variable {N : Functions K} {nom : Nominals K} {sc : NominalScaling K}

/-! ## The states of a solve -/

/-- What every state of the solve has in common. -/
structure Ready (I : σ → Prop) (N : Functions K) (nom : Nominals K) (s : NLP σ K) : Prop where
  inst : I s.inst
  numberVars : s.numberVars = N.numberVars
  numberConstraints : s.numberConstraints = N.numberConstraints
  nnzJac : s.nnzJac = N.nnzJac
  nnzHes : s.nnzHes = N.nnzHes
  jac : s.jac = N.jac
  hes : s.hes = N.hes
  scaling : ∃ sc, s.scaling = some (.nominal sc) ∧ Built N.toShape nom sc ∧ HesBuilt N.toShape sc

variable {V : Virtuals σ K} {I : σ → Prop} {s s₀ : NLP σ K} (hV : Implements V I N nom)

include hV

theorem ready_opened (h₀ : I s₀.inst) : Ready I N nom
    (((s₀.solverGetInfo V).solverGetJacSparsity V).1.solverGetHesSparsity V).1 := by
  obtain ⟨i1, e1⟩ := hV.getSizes _ h₀
  obtain ⟨i2, e2⟩ := hV.getNnz _ i1
  obtain ⟨i3, e3⟩ := hV.getScaling _ i2
  have ⟨i4, e4⟩ := hV.getJacSparsity (s₀.solverGetInfo V).jac _ i3
  obtain ⟨i5, e5⟩ := hV.getHesSparsity (s₀.solverGetInfo V).numberConstraints
    (s₀.solverGetInfo V).hes _ i4
  rw [Prod.ext_iff] at e1 e2
  refine ⟨i5, e1.1, e1.2, e2.1, e2.2, e4, e5, _, ?_, Built.new _ nom, HesBuilt.new _ nom⟩
  exact congrArg (fun u => some (u.getD Scaling.noScaling)) e3

omit hV in
theorem Ready.update (h : Ready I N nom s) (scaling : Scaling K) (newX : Bool) (x : Nat → K) :
    Ready I N nom (s.updateUnscaleCurrX scaling newX x) := by
  cases newX with
  | true =>
    exact ⟨h.inst, h.numberVars, h.numberConstraints, h.nnzJac, h.nnzHes, h.jac, h.hes, h.scaling⟩
  | false => exact h

omit hV in
theorem Ready.updateLambda (h : Ready I N nom s) (scaling : Scaling K) (newLambda : Bool)
    (lambda : Nat → K) : Ready I N nom (s.updateUnscaleCurrLambda scaling newLambda lambda) := by
  cases newLambda with
  | true =>
    exact ⟨h.inst, h.numberVars, h.numberConstraints, h.nnzJac, h.nnzHes, h.jac, h.hes, h.scaling⟩
  | false => exact h

section Calls

variable (h : Ready I N nom s)

include h

theorem Ready.evalF {newX : Bool} {x : Nat → K} {r : NLP σ K × K}
    (hr : s.solverEvalF V newX x = some r) : Ready I N nom r.1 := by
  obtain ⟨sc, hs, hb, hh⟩ := h.scaling
  have hu := h.update (.nominal sc) newX x
  rw [NLP.solverEvalF_eq V hs, Option.some_inj] at hr
  subst hr
  exact ⟨hV.evalF _ _ _ _ hu.inst, hu.numberVars, hu.numberConstraints, hu.nnzJac, hu.nnzHes,
    hu.jac, hu.hes, hu.scaling⟩

theorem Ready.evalG {newX : Bool} {x : Nat → K} {r : NLP σ K × List K}
    (hr : s.solverEvalG V newX x = some r) : Ready I N nom r.1 := by
  obtain ⟨sc, hs, hb, hh⟩ := h.scaling
  have hu := h.update (.nominal sc) newX x
  rw [NLP.solverEvalG_eq V hs, Option.some_inj] at hr
  subst hr
  exact ⟨hV.evalG _ _ _ _ hu.inst, hu.numberVars, hu.numberConstraints, hu.nnzJac, hu.nnzHes,
    hu.jac, hu.hes, hu.scaling⟩

theorem Ready.evalGradF {newX : Bool} {x : Nat → K} {r : NLP σ K × List K}
    (hr : s.solverEvalGradF V newX x = some r) : Ready I N nom r.1 := by
  obtain ⟨sc, hs, hb, hh⟩ := h.scaling
  have hu := h.update (.nominal sc) newX x
  rw [NLP.solverEvalGradF_eq V hs, Option.some_inj] at hr
  subst hr
  refine ⟨hV.evalGradF _ _ _ _ hu.inst, hu.numberVars, hu.numberConstraints, hu.nnzJac,
    hu.nnzHes, hu.jac, hu.hes, _, rfl, ?_⟩
  rw [hu.numberVars]
  exact ⟨(hb.scaleGradF fun _ => 0).1, hh.scaleGradF (fun _ => 0) N.numberVars⟩

theorem Ready.evalJac {newX : Bool} {x : Nat → K} {r : NLP σ K × List K}
    (hr : s.solverEvalJac V newX x = some r) : Ready I N nom r.1 := by
  obtain ⟨sc, hs, hb, hh⟩ := h.scaling
  have hu := h.update (.nominal sc) newX x
  rw [NLP.solverEvalJac_eq V hs, Option.some_inj] at hr
  subst hr
  refine ⟨hV.evalJacG _ _ _ _ _ hu.inst, hu.numberVars, hu.numberConstraints, hu.nnzJac,
    hu.nnzHes, hu.jac, hu.hes, _, rfl, ?_⟩
  rw [hu.nnzJac, hu.jac]
  exact ⟨(hb.scaleJac fun _ => 0).1, hh.scaleJac (fun _ => 0) N.jac.row N.jac.col N.nnzJac⟩

theorem Ready.evalHes {newX newLambda : Bool} {x lambda : Nat → K} {sigma : K}
    {r : NLP σ K × List K} (hr : s.solverEvalHes V newX x newLambda lambda sigma = some r) :
    Ready I N nom r.1 := by
  obtain ⟨sc, hs, hb, hh⟩ := h.scaling
  have hu := (h.update (.nominal sc) newX x).updateLambda (.nominal sc) newLambda lambda
  rw [NLP.solverEvalHes_eq V hs] at hr
  obtain ⟨q, hq, rfl⟩ := Option.map_eq_some_iff.mp hr
  refine ⟨hV.evalHes _ _ _ _ _ _ _ _ _ hu.inst hq, hu.numberVars, hu.numberConstraints, hu.nnzJac,
    hu.nnzHes, hu.jac, hu.hes, _, rfl, ?_⟩
  rw [NLP.unscaleCurrSigmaF, hu.nnzHes, hu.hes]
  exact ⟨hb.scaleHes (fun _ => 0) _ _ _, (hb.scaleHes_built hh fun _ => 0).1⟩

theorem Ready.bounds {r : NLP σ K × BoundVectors K} (hr : s.solverGetBounds V = some r) :
    Ready I N nom r.1 := by
  obtain ⟨sc, hs, hb, hh⟩ := h.scaling
  rw [NLP.solverGetBounds_eq V hs, Option.some_inj] at hr
  subst hr
  exact ⟨(hV.getBounds _ _ h.inst).1, h.numberVars, h.numberConstraints, h.nnzJac, h.nnzHes, h.jac,
    h.hes, h.scaling⟩

theorem Ready.guess {bx bl bz : Bool} {it : Iterate K} {r : NLP σ K × Iterate K}
    (hr : s.solverGetInitialGuess V bx bl bz it = some r) : Ready I N nom r.1 := by
  obtain ⟨sc, hs, hb, hh⟩ := h.scaling
  rw [NLP.solverGetInitialGuess_eq V hs] at hr
  obtain ⟨q, hq, rfl⟩ := Option.map_eq_some_iff.mp hr
  exact ⟨hV.getInitialGuess _ _ _ _ _ _ h.inst hq, h.numberVars, h.numberConstraints, h.nnzJac,
    h.nnzHes, h.jac, h.hes, h.scaling⟩

theorem Ready.jacSparsity : Ready I N nom (s.solverGetJacSparsity V).1 := by
  obtain ⟨hi, hp⟩ := hV.getJacSparsity s.jac _ h.inst
  exact ⟨hi, h.numberVars, h.numberConstraints, h.nnzJac, h.nnzHes, hp, h.hes, h.scaling⟩

theorem Ready.hesSparsity : Ready I N nom (s.solverGetHesSparsity V).1 := by
  obtain ⟨hi, hp⟩ := hV.getHesSparsity s.numberConstraints s.hes _ h.inst
  exact ⟨hi, h.numberVars, h.numberConstraints, h.nnzJac, h.nnzHes, h.jac, hp, h.scaling⟩

theorem Ready.finalize {obj : K} {x lambda zL zU : Nat → K} {s' : NLP σ K}
    (hr : s.solverFinalizeSolution V obj x lambda zL zU = some s') : Ready I N nom s' := by
  obtain ⟨sc, hs, hb, hh⟩ := h.scaling
  rw [NLP.solverFinalizeSolution_eq V hs, Option.some_inj] at hr
  subst hr
  exact ⟨hV.finalizeSolution _ _ _ h.inst, h.numberVars, h.numberConstraints, h.nnzJac, h.nnzHes,
    h.jac, h.hes, h.scaling⟩

end Calls

/-- Every state of a solve is ready. -/
theorem Solving.ready (h₀ : I s₀.inst) (h : Solving V s₀ s) : Ready I N nom s := by
  induction h with
  | opened => exact ready_opened hV h₀
  | bounds _ hr ih => exact ih.bounds hV hr
  | guess _ hr ih => exact ih.guess hV hr
  | jacSparsity _ ih => exact ih.jacSparsity hV
  | hesSparsity _ ih => exact ih.hesSparsity hV
  | evalF _ hr ih => exact ih.evalF hV hr
  | evalGradF _ hr ih => exact ih.evalGradF hV hr
  | evalG _ hr ih => exact ih.evalG hV hr
  | evalJac _ hr ih => exact ih.evalJac hV hr
  | evalHes _ hr ih => exact ih.evalHes hV hr
  | finalize _ hr ih => exact ih.finalize hV hr

/-! ## The values of calls with a new `x` and new multipliers -/

/-- The point the instance is evaluated at. -/
def Nominals.unscale (nom : Nominals K) (n : Nat) (x : Nat → K) : List K :=
  fill n fun i => raw nom.x i * x i

omit hV in
theorem Ready.update_x (h : Ready I N nom s) {sc : NominalScaling K} (hb : Built N.toShape nom sc)
    (x : Nat → K) : (s.updateUnscaleCurrX (.nominal sc) true x).curr.x =
      nom.unscale N.numberVars x := by
  rw [Nominals.unscale, ← h.numberVars, ← hb.unscaleX]
  rfl

section Values

variable (h : Ready I N nom s) (x : Nat → K)

include h

theorem Ready.evalF_value : ∃ s', s.solverEvalF V true x =
    some (s', N.f (raw (nom.unscale N.numberVars x)) / nom.f) := by
  obtain ⟨sc, hs, hb, hh⟩ := h.scaling
  refine ⟨_, (NLP.solverEvalF_eq V hs true x).trans (congrArg some (Prod.ext rfl ?_))⟩
  rw [hV.evalF_eq _ _ _ (h.update _ true x).inst, h.update_x hb]
  exact hb.scaleF _

theorem Ready.evalG_value : ∃ s', s.solverEvalG V true x =
    some (s', fill N.numberConstraints fun r =>
      N.g (raw (nom.unscale N.numberVars x)) r / raw nom.g r) := by
  obtain ⟨sc, hs, hb, hh⟩ := h.scaling
  have hu := h.update (.nominal sc) true x
  refine ⟨_, (NLP.solverEvalG_eq V hs true x).trans (congrArg some (Prod.ext rfl ?_))⟩
  rw [hV.evalG_eq _ _ _ hu.inst, h.update_x hb, hu.numberConstraints]
  refine (hb.scaleG _ _).trans (fill_congr fun r hr => ?_)
  rw [raw_fill_lt _ hr]

theorem Ready.evalGradF_value : ∃ s', s.solverEvalGradF V true x =
    some (s', fill N.numberVars fun i => raw nom.x i / nom.f *
      N.gradF (raw (nom.unscale N.numberVars x)) i) := by
  obtain ⟨sc, hs, hb, hh⟩ := h.scaling
  have hu := h.update (.nominal sc) true x
  refine ⟨_, (NLP.solverEvalGradF_eq V hs true x).trans (congrArg some (Prod.ext rfl ?_))⟩
  rw [hV.evalGradF_eq _ _ _ hu.inst, h.update_x hb, hu.numberVars]
  refine (hb.scaleGradF _).2.trans (fill_congr fun i hi => ?_)
  rw [raw_fill_lt _ hi]

theorem Ready.evalJac_value : ∃ s', s.solverEvalJac V true x =
    some (s', fill N.nnzJac fun nz => raw nom.x (N.jac.col nz) / raw nom.g (N.jac.row nz) *
      N.jacG (raw (nom.unscale N.numberVars x)) nz) := by
  obtain ⟨sc, hs, hb, hh⟩ := h.scaling
  have hu := h.update (.nominal sc) true x
  refine ⟨_, (NLP.solverEvalJac_eq V hs true x).trans (congrArg some (Prod.ext rfl ?_))⟩
  rw [hV.evalJacG_eq _ _ _ _ hu.inst, h.update_x hb, hu.nnzJac, hu.jac]
  refine (hb.scaleJac _).2.trans (fill_congr fun nz hi => ?_)
  rw [raw_fill_lt _ hi]

theorem Ready.evalHes_value (lambda : Nat → K) (sigma : K) :
    ∃ s', s.solverEvalHes V true x true lambda sigma =
      some (s', fill N.nnzHes fun nz => raw nom.x (N.hes.row nz) * raw nom.x (N.hes.col nz) *
        N.hesL (raw (nom.unscale N.numberVars x))
          (raw (fill N.numberConstraints fun r => lambda r / raw nom.g r))
          (sigma / nom.f) nz) := by
  obtain ⟨sc, hs, hb, hh⟩ := h.scaling
  have hu := h.update (.nominal sc) true x
  let t := ((s.updateUnscaleCurrX (.nominal sc) true x).updateUnscaleCurrLambda (.nominal sc)
    true lambda).unscaleCurrSigmaF (.nominal sc) sigma
  have hx : t.curr.x = nom.unscale N.numberVars x := h.update_x hb x
  have hl : t.curr.lambda = fill N.numberConstraints fun r => lambda r / raw nom.g r := by
    rw [← hb.scaleG, ← hu.numberConstraints]
    rfl
  have hsig : t.currSigmaF = sigma / nom.f := hb.scaleF sigma
  have hhes : t.hes = N.hes := hu.hes
  have hnnz : t.nnzHes = N.nnzHes := hu.nnzHes
  obtain ⟨i', e⟩ := hV.evalHes_eq t.curr.x t.curr.lambda t.currSigmaF t.hes t.currHes t.inst
    hu.inst
  have hq := NLP.solverEvalHes_eq V hs true x true lambda sigma
  dsimp only at hq
  rw [show V.evalHes true _ true _ _ _ _ _ = _ from e, Option.map_some] at hq
  refine ⟨_, hq.trans (congrArg some (Prod.ext rfl ?_))⟩
  rw [hhes, hnnz, hx, hl, hsig]
  refine (hb.scaleHes_built hh _).2.trans (fill_congr fun nz hi => ?_)
  rw [raw_fill_lt _ hi]

/-- The bounds as the solver receives them. -/
theorem Ready.bounds_value : ∃ s', s.solverGetBounds V = some (s',
    { xLb := nom.scaling.inplaceScaleX N.bounds.xLb
      xUb := nom.scaling.inplaceScaleX N.bounds.xUb
      gLb := nom.scaling.inplaceScaleG N.bounds.gLb
      gUb := nom.scaling.inplaceScaleG N.bounds.gUb }) := by
  obtain ⟨sc, hs, hb, hh⟩ := h.scaling
  have hx : ∀ v, (Scaling.nominal sc).inplaceScaleX v = nom.scaling.inplaceScaleX v := fun v => by
    simp only [Nominals.scaling, Scaling.inplaceScaleX, NominalScaling.inplaceScaleX,
      NominalScaling.new, hb.x]
  have hg : ∀ v, (Scaling.nominal sc).inplaceScaleG v = nom.scaling.inplaceScaleG v := fun v => by
    simp only [Nominals.scaling, Scaling.inplaceScaleG, NominalScaling.inplaceScaleG,
      NominalScaling.new, hb.g]
  refine ⟨_, (NLP.solverGetBounds_eq V hs).trans (congrArg some (Prod.ext rfl ?_))⟩
  dsimp only
  rw [(hV.getBounds _ _ h.inst).2, hx, hx, hg, hg]

omit hV in
/-- What `finalize_solution` receives. -/
theorem Ready.finalIterate {sc : NominalScaling K} (hs : s.scaling = some (.nominal sc))
    (obj : K) (lambda zL zU : Nat → K) :
    (s.finalIterate (.nominal sc) obj x lambda zL zU).curr =
      { x := nom.unscale N.numberVars x
        lambda := fill N.numberConstraints fun r => lambda r / raw nom.g r
        zLb := nom.unscale N.numberVars zL
        zUb := nom.unscale N.numberVars zU } := by
  obtain ⟨sc', hs', hb, -⟩ := h.scaling
  rw [hs, Option.some_inj, Scaling.nominal.injEq] at hs'
  subst hs'
  simp only [Nominals.unscale, ← h.numberVars, ← h.numberConstraints, ← hb.unscaleX, ← hb.scaleG]
  rfl

end Values

end

end NLP
end Moo
