import Moo.GDOP.WarmStart
import Moo.GDOP.HessianCache
import Moo.Lib.Trace

/-!
# GDOP.History

What a problem presents does not depend on what it has seen.

* `answer`: a call with what it presents to the solver.
* `Ledger.Proper`: the order of calls that a solve respects.
* `Alike`: two states that only differ where nothing reads before it writes. `Alike.step`: every
  proper call keeps them alike and presents the same.
* `history_independent`: after any history, a proper run presents what it presents on a new object.
-/

namespace Moo
namespace GDOP

open Loop FixedVector NLP

/-! ## Answers -/

inductive Answer (K : Type) where
  | sizes (numberVars numberConstraints nnzJac nnzHes : Nat)
  | bounds (bounds : BoundVectors K)
  | pattern (pattern : Pattern)
  | guess (iterate : Iterate K)
  | values (values : List K)

section Answers

variable {K : Type} [Field K] [LinearOrder K] {T : FLGR K} (cb : Callbacks T) (P : Problem K)
variable (past : Nat → Nat × Nat)

/-- `step`, with all that is returned to the caller. -/
def answer (s : State T) : Call T → Option (State T × Answer K)
  | .getInfo =>
    let t := s.solverGetInfo (virtuals cb P past)
    some (t, .sizes t.numberVars t.numberConstraints t.nnzJac t.nnzHes)
  | .getBounds => (s.solverGetBounds (virtuals cb P past)).map fun r => (r.1, .bounds r.2)
  | .getJacSparsity =>
    let r := s.solverGetJacSparsity (virtuals cb P past)
    some (r.1, .pattern r.2)
  | .getHesSparsity =>
    let r := s.solverGetHesSparsity (virtuals cb P past)
    some (r.1, .pattern r.2)
  | .getInitialGuess bx bl bz solver =>
    (s.solverGetInitialGuess (virtuals cb P past) bx bl bz solver).map fun r => (r.1, .guess r.2)
  | c => (step cb P past s c).map fun r => (r.1, .values r.2)

variable {cb P past} in
/-- The states are those of `step`. -/
theorem step_of_answer {s : State T} {c : Call T} {r : State T × Answer K}
    (hr : answer cb P past s c = some r) : ∃ q, step cb P past s c = some q ∧ q.1 = r.1 := by
  have h : (answer cb P past s c).map Prod.fst = (step cb P past s c).map Prod.fst := by
    cases c <;> simp only [answer, step, Option.map_map, Option.map_some] <;> rfl
  rw [hr, Option.map_some] at h
  exact Option.map_eq_some_iff.mp h.symm

end Answers

/-! ## Behind the arrays -/

section Past

variable {K : Type} [Field K] {T : FLGR K} {P : Problem K}

theorem rowLoop_congr {σ : Type} {flat : List (Nat × Nat)} {f g : Nat → σ → σ}
    (h : ∀ k, k < flat.length → f k = g k) (row : Nat) :
    rowLoop flat f row = rowLoop flat g row := by
  funext t
  refine whileLoop_congr (fun t hc => ?_) _ t
  rw [h t.2 (of_decide_eq_true (Bool.and_eq_true_iff.mp hc).1)]

/-- Where `G` is as long as `H`, nothing is read behind it. -/
theorem getHesSparsityFrom_past {off : Offsets}
    (h : (hesFlat P off.offX .H).length ≤ (hesFlat P off.offX .G).length) (M : Mesh T)
    (past past' : Nat → Nat × Nat) :
    getHesSparsityFrom P M off past = getHesSparsityFrom P M off past' := by
  have hflat : ∀ k, k < (hesFlat P off.offX .H).length →
      flatAt (hesFlat P off.offX .G) past k = flatAt (hesFlat P off.offX .G) past' k := by
    intro k hk
    unfold flatAt
    rw [List.getD_eq_getElem _ _ (Nat.lt_of_lt_of_le hk h),
      List.getD_eq_getElem _ _ (Nat.lt_of_lt_of_le hk h)]
  have hpass : hesPatternEFGH P M off past = hesPatternEFGH P M off past' := by
    have hH : rowLoop (hesFlat P off.offX .H) (fun k (s : HesState) =>
          s.emit .H ((hesFlat P off.offX .H).getD k (0, 0))
            (off.offXuTotal + (flatAt (hesFlat P off.offX .G) past k).1,
              off.offXuTotal + (flatAt (hesFlat P off.offX .G) past k).2)) =
        rowLoop (hesFlat P off.offX .H) (fun k (s : HesState) =>
          s.emit .H ((hesFlat P off.offX .H).getD k (0, 0))
            (off.offXuTotal + (flatAt (hesFlat P off.offX .G) past' k).1,
              off.offXuTotal + (flatAt (hesFlat P off.offX .G) past' k).2)) :=
      funext fun row => rowLoop_congr (fun k hk => (by rw [hflat k hk])) row
    funext pIndex t
    unfold hesPatternEFGH
    dsimp only
    rw [hH]
  funext block iRow jCol
  unfold getHesSparsityFrom
  rw [hpass]

end Past

/-! ## Two instances -/

section Instances

variable {K : Type} [Field K] {T : FLGR K}

/-- The instances agree but for what evaluations and `finalize` write. -/
def Akin (i i' : Instance T) : Prop :=
  ∃ evaluationState optimalSolution lagrangeObjFactors transformedLambda buffers,
    i' = { i with
      evaluationState, optimalSolution, lagrangeObjFactors, transformedLambda, buffers }

def SameEval (i i' : Instance T) : Prop :=
  i.buffers.eval = i'.buffers.eval ∧ i.buffers.mrEval = i'.buffers.mrEval

def SameJac (i i' : Instance T) : Prop :=
  i.buffers.jac = i'.buffers.jac ∧ i.buffers.mrJac = i'.buffers.mrJac

/-- The buffer of two parameters is never allocated: nothing is known of it. -/
def SameHes (i i' : Instance T) : Prop :=
  i.buffers.hes = i'.buffers.hes ∧ i.buffers.mrHes = i'.buffers.mrHes

/-- The flags agree, and where one is set so do the buffers. -/
structure Cached (i i' : Instance T) : Prop where
  flags : i'.evaluationState = i.evaluationState
  evalF : i.evaluationState.evalF = true → SameEval i i'
  evalG : i.evaluationState.evalG = true → SameEval i i'
  gradF : i.evaluationState.gradF = true → SameJac i i'
  jacG : i.evaluationState.jacG = true → SameJac i i'
  hes : i.evaluationState.hes = true → SameHes i i'

/-- The dual tables agree. -/
def SameDuals (i i' : Instance T) : Prop :=
  i'.lagrangeObjFactors = i.lagrangeObjFactors ∧ i'.transformedLambda = i.transformedLambda

/-- One evaluation leads from `i` to `j`, and the same from `i'` to `j'`. -/
structure Together (i i' j j' : Instance T) : Prop where
  akin : Akin j j'
  cached : Cached j j'
  duals : SameDuals i i' → SameDuals j j'

variable {i i' : Instance T}

theorem Cached.checkNewX {newX : Bool} (h : newX = true ∨ Cached i i') :
    Cached (i.checkNewX newX) (i'.checkNewX newX) := by
  cases newX with
  | true => exact ⟨rfl, nofun, nofun, nofun, nofun, nofun⟩
  | false =>
    have h := h.resolve_left (by decide)
    exact ⟨h.flags, h.evalF, h.evalG, h.gradF, h.jacG, h.hes⟩

theorem Cached.checkNewLambda {newLambda : Bool} (h : Cached i i') :
    Cached (i.checkNewLambda newLambda) (i'.checkNewLambda newLambda) := by
  cases newLambda with
  | true =>
    exact ⟨congrArg (fun e : NLPState => { e with hes := false }) h.flags, h.evalF, h.evalG,
      h.gradF, h.jacG, nofun⟩
  | false => exact ⟨h.flags, h.evalF, h.evalG, h.gradF, h.jacG, h.hes⟩

variable (cb : Callbacks T) {P : Problem K} (pp : Mesh T → (xu p : Option (Nat → K)) →
  (lagrangeFactors : Nat → Nat → K) → (lambda : Option (Nat → K)) → (jac : Nat → K) → Nat → K)

/-- The evaluation callbacks are run unless a flag, the same for both, promises their results. -/
theorem Cached.ensureEvaluation (h : Cached i i') (hk : Akin i i') (x : Nat → K) {b b' : Bool}
    (hb' : b' = b) (hb : b = true → SameEval i i') :
    Together i i' (if b then i else i.callbackEvaluation cb x)
        (if b' then i' else i'.callbackEvaluation { cb with fullPpHes := pp } x) ∧
      SameEval (if b then i else i.callbackEvaluation cb x)
        (if b' then i' else i'.callbackEvaluation { cb with fullPpHes := pp } x) := by
  subst hb'
  cases b' with
  | true => exact ⟨⟨hk, h, id⟩, hb rfl⟩
  | false =>
    obtain ⟨e, o, f, m, B, rfl⟩ := hk
    have he : SameEval (i.callbackEvaluation cb x) (Instance.callbackEvaluation
        { cb with fullPpHes := pp } { i with
          evaluationState := e, optimalSolution := o, lagrangeObjFactors := f
          transformedLambda := m, buffers := B } x) := ⟨rfl, rfl⟩
    have hflags := congrArg (fun e : NLPState => { e with evalF := true, evalG := true }) h.flags
    exact ⟨⟨⟨_, _, _, _, _, rfl⟩,
      ⟨hflags, fun _ => he, fun _ => he, h.gradF, h.jacG, h.hes⟩, id⟩, he⟩

theorem Cached.ensureJacobian (h : Cached i i') (hk : Akin i i') (x : Nat → K) {b b' : Bool}
    (hb' : b' = b) (hb : b = true → SameJac i i') :
    Together i i' (if b then i else i.callbackJacobian cb x)
        (if b' then i' else i'.callbackJacobian { cb with fullPpHes := pp } x) ∧
      SameJac (if b then i else i.callbackJacobian cb x)
        (if b' then i' else i'.callbackJacobian { cb with fullPpHes := pp } x) := by
  subst hb'
  cases b' with
  | true => exact ⟨⟨hk, h, id⟩, hb rfl⟩
  | false =>
    obtain ⟨e, o, f, m, B, rfl⟩ := hk
    have he : SameJac (i.callbackJacobian cb x) (Instance.callbackJacobian
        { cb with fullPpHes := pp } { i with
          evaluationState := e, optimalSolution := o, lagrangeObjFactors := f
          transformedLambda := m, buffers := B } x) := ⟨rfl, rfl⟩
    have hflags := congrArg (fun e : NLPState => { e with gradF := true, jacG := true }) h.flags
    exact ⟨⟨⟨_, _, _, _, _, rfl⟩,
      ⟨hflags, h.evalF, h.evalG, fun _ => he, fun _ => he, h.hes⟩, id⟩, he⟩

/-- The Hessian callbacks, with the same content of the Jacobian buffers. -/
theorem Cached.callbackHessian (h : Cached i i') (hk : Akin i i') (hj : SameJac i i')
    (hd : SameDuals i i') (x : Nat → K) (lambda : List K) (sigma : K) :
    Together i i' (i.callbackHessian cb P x lambda sigma)
        (i'.callbackHessian { cb with fullPpHes := pp } P x lambda sigma) ∧
      SameHes (i.callbackHessian cb P x lambda sigma)
        (i'.callbackHessian { cb with fullPpHes := pp } P x lambda sigma) := by
  obtain ⟨e, o, f, m, B, rfl⟩ := hk
  obtain ⟨hf, hm⟩ := hd
  obtain ⟨h1, h2⟩ := hj
  dsimp only at hf hm h1 h2
  subst hf hm
  have he : SameHes (i.callbackHessian cb P x lambda sigma) (Instance.callbackHessian
      { cb with fullPpHes := pp } P { i with
        evaluationState := e, optimalSolution := o, buffers := B } x lambda sigma) := by
    unfold SameHes Instance.callbackHessian
    dsimp only
    rw [h1, h2]
    exact ⟨rfl, rfl⟩
  have hflags := congrArg (fun e : NLPState => { e with hes := true }) h.flags
  exact ⟨⟨⟨_, _, _, _, _, rfl⟩, ⟨hflags, h.evalF, h.evalG, h.gradF, h.jacG, fun _ => he⟩,
    fun _ => ⟨rfl, rfl⟩⟩, he⟩

theorem Cached.ensureHessian (h : Cached i i') (hk : Akin i i') (hd : SameDuals i i')
    (x : Nat → K) (lambda : List K) (sigma : K) {b b' : Bool} (hb' : b' = b)
    (hb : b = true → SameHes i i') :
    let t := if b then i
      else (if i.evaluationState.jacG then i else i.callbackJacobian cb x).callbackHessian
        cb P x lambda sigma
    let t' := if b' then i'
      else (if i'.evaluationState.jacG then i'
        else i'.callbackJacobian { cb with fullPpHes := pp } x).callbackHessian
        { cb with fullPpHes := pp } P x lambda sigma
    Together i i' t t' ∧ SameHes t t' := by
  subst hb'
  cases b' with
  | true => exact ⟨⟨hk, h, id⟩, hb rfl⟩
  | false =>
    obtain ⟨h1, h2⟩ := h.ensureJacobian cb pp hk x (congrArg NLPState.jacG h.flags) h.jacG
    obtain ⟨h3, h4⟩ := h1.cached.callbackHessian cb (P := P) pp h1.akin h2 (h1.duals hd) x lambda
      sigma
    exact ⟨⟨h3.akin, h3.cached, fun hd => h3.duals (h1.duals hd)⟩, h4⟩

/-! ### The guess -/

/-- The guess depends on nothing that evaluations write. -/
theorem getInitialGuess_akin [LinearOrder K] (hk : Akin i i') (it : Iterate K) :
    i'.getInitialGuess P it = (i.getInitialGuess P it).map fun r =>
      ({ i' with initialGuess := r.1.initialGuess }, r.2) := by
  obtain ⟨e, o, f, m, B, rfl⟩ := hk
  unfold Instance.getInitialGuess
  simp only [Option.bind_eq_bind, Option.map_bind, Function.comp_def]
  refine congrArg (Option.bind i.initialGuess) (funext fun guess => ?_)
  refine congrArg (Option.bind (guess.primals.mapM
    (i.onMesh Trajectory.inducingMesh fun t => t.interpolateOntoMesh i.mesh)))
    (funext fun primals => ?_)
  refine congrArg (Option.bind (guess.costates.mapM
    (i.onMesh CostateTrajectory.inducingMesh fun t => some (t.interpolateOntoMesh i.mesh))))
    (funext fun costates => ?_)
  split
  · simp only [Option.map_bind, Function.comp_def, Option.map_some]
    rfl
  · rfl

/-! ### Values -/

theorem Akin.evalFInternal (hk : Akin i i') (h : SameEval i i') :
    evalFInternal P i'.mesh.mesh i'.buffers = evalFInternal P i.mesh.mesh i.buffers := by
  obtain ⟨_, _, _, _, _, rfl⟩ := hk
  exact (evalFInternal_congr h.1 h.2).symm

theorem Akin.evalGInternal (hk : Akin i i') (h : SameEval i i') (x : Nat → K) :
    evalGInternal P i'.mesh.mesh i'.off i'.buffers x =
      evalGInternal P i.mesh.mesh i.off i.buffers x := by
  obtain ⟨_, _, _, _, _, rfl⟩ := hk
  exact (evalGInternal_congr h.1 h.2 x).symm

theorem Akin.evalGradFInternal (hk : Akin i i') (h : SameJac i i') :
    evalGradFInternal P i'.mesh.mesh i'.off i'.buffers =
      evalGradFInternal P i.mesh.mesh i.off i.buffers := by
  obtain ⟨_, _, _, _, _, rfl⟩ := hk
  exact (evalGradFInternal_congr h.1 h.2).symm

theorem Akin.evalJacGInternal (hk : Akin i i') (h : SameJac i i') :
    evalJacGInternal P i'.mesh.mesh i'.off i'.buffers i'.offAccJacFg (raw i'.constDerJac) =
      evalJacGInternal P i.mesh.mesh i.off i.buffers i.offAccJacFg (raw i.constDerJac) := by
  obtain ⟨_, _, _, _, _, rfl⟩ := hk
  exact (evalJacGInternal_congr h.1 h.2 _ _).symm

/-- Without entries of two parameters their buffer is not read. -/
theorem evalHesInternal_ppHes (hP : P.full.ppHes.dpDp = []) (M : Mesh T) (off : Offsets)
    (B : Buffers K) (b : Nat → K) (s : HesState) :
    GDOP.evalHesInternal P M off { B with ppHes := b } s = GDOP.evalHesInternal P M off B s := by
  unfold GDOP.evalHesInternal updateParameterHessianLfg
  rw [hP]
  rfl

theorem Akin.evalHesInternal (hP : P.full.ppHes.dpDp = []) (hk : Akin i i') (h : SameHes i i') :
    i'.evalHesInternal P = i.evalHesInternal P := by
  obtain ⟨_, _, _, _, B, rfl⟩ := hk
  unfold Instance.evalHesInternal
  refine Eq.trans ?_ (evalHesInternal_ppHes hP _ _ i.buffers B.ppHes _)
  exact evalHesInternal_congr h.1.symm rfl h.2.symm rfl

/-! ### Evaluations -/

section Evaluations

variable (hk : Akin i i') {newX : Bool} (h : newX = true ∨ Cached i i') (x v : List K)

theorem Akin.checkNewX (hk : Akin i i') : Akin (i.checkNewX newX) (i'.checkNewX newX) := by
  obtain ⟨_, _, _, _, _, rfl⟩ := hk
  exact ⟨_, _, _, _, _, rfl⟩

theorem Akin.checkNewLambda {newLambda : Bool} (hk : Akin i i') :
    Akin (i.checkNewLambda newLambda) (i'.checkNewLambda newLambda) := by
  obtain ⟨_, _, _, _, _, rfl⟩ := hk
  exact ⟨_, _, _, _, _, rfl⟩

include hk h

theorem evalF_alike : Together i i' (i.evalF cb P newX x).1
      (i'.evalF { cb with fullPpHes := pp } P newX x).1 ∧
    (i'.evalF { cb with fullPpHes := pp } P newX x).2 = (i.evalF cb P newX x).2 := by
  have hc := Cached.checkNewX h
  obtain ⟨ht, hs⟩ := hc.ensureEvaluation cb pp hk.checkNewX (raw x)
    (congrArg NLPState.evalF hc.flags) hc.evalF
  exact ⟨⟨ht.akin, ht.cached, ht.duals⟩, ht.akin.evalFInternal hs⟩

theorem evalG_alike : Together i i' (i.evalG cb P newX x v).1
      (i'.evalG { cb with fullPpHes := pp } P newX x v).1 ∧
    (i'.evalG { cb with fullPpHes := pp } P newX x v).2 = (i.evalG cb P newX x v).2 := by
  have hc := Cached.checkNewX h
  obtain ⟨ht, hs⟩ := hc.ensureEvaluation cb pp hk.checkNewX (raw x)
    (congrArg NLPState.evalG hc.flags) hc.evalG
  exact ⟨⟨ht.akin, ht.cached, ht.duals⟩,
    congrArg (fill v.length) (ht.akin.evalGInternal hs (raw x))⟩

theorem evalGradF_alike : Together i i' (i.evalGradF cb P newX x v).1
      (i'.evalGradF { cb with fullPpHes := pp } P newX x v).1 ∧
    (i'.evalGradF { cb with fullPpHes := pp } P newX x v).2 = (i.evalGradF cb P newX x v).2 := by
  have hc := Cached.checkNewX h
  obtain ⟨ht, hs⟩ := hc.ensureJacobian cb pp hk.checkNewX (raw x)
    (congrArg NLPState.gradF hc.flags) hc.gradF
  exact ⟨⟨ht.akin, ht.cached, ht.duals⟩, congrArg (fill v.length) (ht.akin.evalGradFInternal hs)⟩

theorem evalJacG_alike : Together i i' (i.evalJacG cb P newX x v).1
      (i'.evalJacG { cb with fullPpHes := pp } P newX x v).1 ∧
    (i'.evalJacG { cb with fullPpHes := pp } P newX x v).2 = (i.evalJacG cb P newX x v).2 := by
  have hc := Cached.checkNewX h
  obtain ⟨ht, hs⟩ := hc.ensureJacobian cb pp hk.checkNewX (raw x)
    (congrArg NLPState.jacG hc.flags) hc.jacG
  exact ⟨⟨ht.akin, ht.cached, ht.duals⟩, congrArg (fun t => fill v.length (Tape.cells t))
    (ht.akin.evalJacGInternal hs)⟩

theorem evalHes_alike (hP : P.full.ppHes.dpDp = []) (hd : SameDuals i i') (newLambda : Bool)
    (lambda : List K) (sigma : K) :
    Option.Rel (fun r r' => Together i i' r.1 r'.1 ∧ r'.2 = r.2)
      (i.evalHes cb P newX x newLambda lambda sigma v)
      (i'.evalHes { cb with fullPpHes := pp } P newX x newLambda lambda sigma v) := by
  have hc : Cached ((i.checkNewX newX).checkNewLambda newLambda)
      ((i'.checkNewX newX).checkNewLambda newLambda) := (Cached.checkNewX h).checkNewLambda
  obtain ⟨ht, hs⟩ := hc.ensureHessian cb (P := P) pp hk.checkNewX.checkNewLambda hd (raw x) lambda
    sigma (congrArg NLPState.hes hc.flags) hc.hes
  unfold Instance.evalHes
  dsimp only
  rw [ht.akin.evalHesInternal hP hs]
  cases Instance.evalHesInternal P _ with
  | none => exact .none
  | some hes => exact .some ⟨⟨ht.akin, ht.cached, ht.duals⟩, rfl⟩

end Evaluations

end Instances

/-! ## Two states -/

section States

variable {K : Type} [Field K] {T : FLGR K}

/-- The states agree but for what is written before it is read. -/
def Kin (s s' : State T) : Prop :=
  ∃ i currSigmaF currObj, Akin s.inst i ∧ s' = { s with inst := i, currSigmaF, currObj }

/-- Before the sizes are asked for, nothing of a problem is promised but what it was given; the
dual tables are there from the query of the Hessian pattern on, the buffers from the first new
`x` on. -/
structure Alike (l : Ledger T) (s s' : State T) : Prop where
  mesh : s'.inst.mesh = s.inst.mesh
  factory : s'.inst.scalingFactory = s.inst.scalingFactory
  guess : s'.inst.initialGuess = s.inst.initialGuess
  kin : l.info = true → Kin s s'
  duals : l.info = true → 0 < l.hes → SameDuals s.inst s'.inst
  cached : l.info = true → ∀ y, l.lastX = some y → Cached s.inst s'.inst

/-- The sizes come first, the pattern of the Hessian before its values, and the first evaluation is
at a new `x`. -/
def Ledger.Proper (l : Ledger T) : Call T → Prop
  | .update _ => True
  | .setInitialGuess _ => True
  | .setScalingFactory _ => True
  | .getInfo => True
  | .evalF newX _ => l.info = true ∧ (newX = true ∨ ∃ y, l.lastX = some y)
  | .evalGradF newX _ => l.info = true ∧ (newX = true ∨ ∃ y, l.lastX = some y)
  | .evalG newX _ => l.info = true ∧ (newX = true ∨ ∃ y, l.lastX = some y)
  | .evalJac newX _ => l.info = true ∧ (newX = true ∨ ∃ y, l.lastX = some y)
  | .evalHes newX _ _ _ _ => l.info = true ∧ (newX = true ∨ ∃ y, l.lastX = some y) ∧ 0 < l.hes
  | _ => l.info = true

variable {l : Ledger T} {s s' : State T}

theorem Kin.alike (hk : Kin s s') (hd : 0 < l.hes → SameDuals s.inst s'.inst)
    (hc : ∀ y, l.lastX = some y → Cached s.inst s'.inst) : Alike l s s' := by
  obtain ⟨_, _, _, ⟨_, _, _, _, _, rfl⟩, rfl⟩ := hk
  exact ⟨rfl, rfl, rfl, fun _ => ⟨_, _, _, ⟨_, _, _, _, _, rfl⟩, rfl⟩, fun _ => hd, fun _ => hc⟩

variable [LinearOrder K] {cb : Callbacks T} {P : Problem K} {past past' : Nat → Nat × Nat}
variable (pp : Mesh T → (xu p : Option (Nat → K)) → (lagrangeFactors : Nat → Nat → K) →
  (lambda : Option (Nat → K)) → (jac : Nat → K) → Nat → K)

/-! ### Evaluations -/

section Evaluations

variable (h : Alike l s s') {newX : Bool} (x : Nat → K)
variable (hp : l.info = true ∧ (newX = true ∨ ∃ y, l.lastX = some y))

include h hp

omit [LinearOrder K] in
/-- Where an evaluation takes place. -/
theorem Alike.point : s'.scaling = s.scaling ∧ ∀ sc : Scaling K, ∃ i' currSigmaF currObj,
    s'.updateUnscaleCurrX sc newX x =
        { s.updateUnscaleCurrX sc newX x with inst := i', currSigmaF, currObj } ∧
      Akin (s.updateUnscaleCurrX sc newX x).inst i' ∧
      (newX = true ∨ Cached (s.updateUnscaleCurrX sc newX x).inst i') ∧
      (0 < l.hes → SameDuals (s.updateUnscaleCurrX sc newX x).inst i') := by
  have hd := h.duals hp.1
  have hc := hp.2.imp_right fun ⟨y, hy⟩ => h.cached hp.1 y hy
  obtain ⟨i', sigma, obj, hk, rfl⟩ := h.kin hp.1
  refine ⟨rfl, fun sc => ⟨i', sigma, obj, ?_⟩⟩
  cases newX with
  | true => exact ⟨rfl, hk, hc, hd⟩
  | false => exact ⟨rfl, hk, hc, hd⟩

theorem Alike.evalF : Trace.Answers (Alike (l.noteX newX x))
    (answer cb P past s (.evalF newX x))
    (answer { cb with fullPpHes := pp } P past' s' (.evalF newX x)) := by
  obtain ⟨hsc, hpoint⟩ := h.point x hp
  simp only [answer, step]
  rcases Option.eq_none_or_eq_some s.scaling with hs | ⟨sc, hs⟩
  · unfold NLP.solverEvalF
    rw [hsc, hs]
    exact .none
  · obtain ⟨i', sigma, obj, e, hk, hc, hd⟩ := hpoint sc
    rw [solverEvalF_eq _ hs, solverEvalF_eq _ (hsc.trans hs), e]
    generalize s.updateUnscaleCurrX sc newX x = t at hk hc hd
    obtain ⟨ht, hv⟩ := evalF_alike cb (P := P) pp hk hc t.curr.x
    exact .some ⟨congrArg (fun v => Answer.values [sc.scaleF v]) hv,
      Kin.alike ⟨_, _, _, ht.akin, rfl⟩ (fun hl => ht.duals (hd hl)) fun _ _ => ht.cached⟩

theorem Alike.evalGradF : Trace.Answers (Alike (l.noteX newX x))
    (answer cb P past s (.evalGradF newX x))
    (answer { cb with fullPpHes := pp } P past' s' (.evalGradF newX x)) := by
  obtain ⟨hsc, hpoint⟩ := h.point x hp
  simp only [answer, step]
  rcases Option.eq_none_or_eq_some s.scaling with hs | ⟨sc, hs⟩
  · unfold NLP.solverEvalGradF
    rw [hsc, hs]
    exact .none
  · obtain ⟨i', sigma, obj, e, hk, hc, hd⟩ := hpoint sc
    rw [solverEvalGradF_eq _ hs, solverEvalGradF_eq _ (hsc.trans hs), e]
    generalize s.updateUnscaleCurrX sc newX x = t at hk hc hd
    obtain ⟨ht, hv⟩ := evalGradF_alike cb (P := P) pp hk hc t.curr.x t.currGrad
    dsimp only [virtuals]
    rw [hv]
    exact .some ⟨rfl, Kin.alike ⟨_, _, _, ht.akin, rfl⟩ (fun hl => ht.duals (hd hl)) fun _ _ =>
      ht.cached⟩

theorem Alike.evalG : Trace.Answers (Alike (l.noteX newX x))
    (answer cb P past s (.evalG newX x))
    (answer { cb with fullPpHes := pp } P past' s' (.evalG newX x)) := by
  obtain ⟨hsc, hpoint⟩ := h.point x hp
  simp only [answer, step]
  rcases Option.eq_none_or_eq_some s.scaling with hs | ⟨sc, hs⟩
  · unfold NLP.solverEvalG
    rw [hsc, hs]
    exact .none
  · obtain ⟨i', sigma, obj, e, hk, hc, hd⟩ := hpoint sc
    rw [solverEvalG_eq _ hs, solverEvalG_eq _ (hsc.trans hs), e]
    generalize s.updateUnscaleCurrX sc newX x = t at hk hc hd
    obtain ⟨ht, hv⟩ := evalG_alike cb (P := P) pp hk hc t.curr.x t.currG
    dsimp only [virtuals]
    rw [hv]
    exact .some ⟨rfl, Kin.alike ⟨_, _, _, ht.akin, rfl⟩ (fun hl => ht.duals (hd hl)) fun _ _ =>
      ht.cached⟩

theorem Alike.evalJac : Trace.Answers (Alike (l.noteX newX x))
    (answer cb P past s (.evalJac newX x))
    (answer { cb with fullPpHes := pp } P past' s' (.evalJac newX x)) := by
  obtain ⟨hsc, hpoint⟩ := h.point x hp
  simp only [answer, step]
  rcases Option.eq_none_or_eq_some s.scaling with hs | ⟨sc, hs⟩
  · unfold NLP.solverEvalJac
    rw [hsc, hs]
    exact .none
  · obtain ⟨i', sigma, obj, e, hk, hc, hd⟩ := hpoint sc
    rw [solverEvalJac_eq _ hs, solverEvalJac_eq _ (hsc.trans hs), e]
    generalize s.updateUnscaleCurrX sc newX x = t at hk hc hd
    obtain ⟨ht, hv⟩ := evalJacG_alike cb (P := P) pp hk hc t.curr.x t.currJac
    dsimp only [virtuals]
    rw [hv]
    exact .some ⟨rfl, Kin.alike ⟨_, _, _, ht.akin, rfl⟩ (fun hl => ht.duals (hd hl)) fun _ _ =>
      ht.cached⟩

theorem Alike.evalHes (hP : P.full.ppHes.dpDp = []) (hl : 0 < l.hes) (newLambda : Bool)
    (lambda : Nat → K) (sigma : K) :
    Trace.Answers (Alike (l.note P (.evalHes newX x newLambda lambda sigma)))
      (answer cb P past s (.evalHes newX x newLambda lambda sigma))
      (answer { cb with fullPpHes := pp } P past' s'
        (.evalHes newX x newLambda lambda sigma)) := by
  obtain ⟨hsc, hpoint⟩ := h.point x hp
  simp only [answer, step]
  rcases Option.eq_none_or_eq_some s.scaling with hs | ⟨sc, hs⟩
  · unfold NLP.solverEvalHes
    rw [hsc, hs]
    exact .none
  · obtain ⟨i', sigma', obj, e, hk, hc, hd⟩ := hpoint sc
    rw [solverEvalHes_eq _ hs, solverEvalHes_eq _ (hsc.trans hs), e]
    generalize s.updateUnscaleCurrX sc newX x = t at hk hc hd
    simp only [updateUnscaleCurrLambda_eq, NLP.unscaleCurrSigmaF, virtuals]
    have hr := evalHes_alike cb (P := P) pp hk hc t.curr.x t.currHes hP (hd hl) newLambda
      (if newLambda then sc.scaleG lambda t.numberConstraints else t.curr.lambda) (sc.scaleF sigma)
    rw [Option.map_map, Option.map_map]
    refine Trace.Answers.map hr fun r r' hr => ?_
    obtain ⟨ht, hv⟩ := hr
    dsimp only [Function.comp_apply]
    rw [hv]
    exact ⟨rfl, Kin.alike ⟨_, _, _, ht.akin, rfl⟩ (fun hl => ht.duals (hd hl)) fun _ _ => ht.cached⟩

end Evaluations

/-! ### Queries -/

omit [LinearOrder K] in
theorem Kin.sizes (hk : Kin s s') : Answer.sizes (K := K) s'.numberVars s'.numberConstraints
    s'.nnzJac s'.nnzHes = .sizes s.numberVars s.numberConstraints s.nnzJac s.nnzHes := by
  obtain ⟨_, _, _, -, rfl⟩ := hk
  rfl

theorem Alike.getInfo (h : Alike l s s') : Trace.Answers (Alike (l.note P .getInfo))
    (answer cb P past s .getInfo)
    (answer { cb with fullPpHes := pp } P past' s' .getInfo) := by
  have hk : Kin (s.solverGetInfo (virtuals cb P past))
      (s'.solverGetInfo (virtuals { cb with fullPpHes := pp } P past')) := by
    refine ⟨_, s'.currSigmaF, s'.currObj, ⟨s'.inst.evaluationState, s'.inst.optimalSolution,
      s'.inst.lagrangeObjFactors, s'.inst.transformedLambda, s'.inst.buffers, rfl⟩, ?_⟩
    simp only [NLP.solverGetInfo, virtuals, Instance.getSizes, Instance.getNnz,
      Instance.getScaling, NLP.allocateBuffers, NLP.allocateSparsityBuffers]
    rw [h.mesh, h.factory, h.guess]
  exact .some ⟨hk.sizes, hk.alike (fun hl => absurd hl (Nat.lt_irrefl 0))
    fun y hy => absurd hy (Option.some_ne_none y).symm⟩

section Opened

variable (h : Alike l s s') (hi : l.info = true)

include h hi

theorem Alike.getBounds : Trace.Answers (Alike l) (answer cb P past s .getBounds)
    (answer { cb with fullPpHes := pp } P past' s' .getBounds) := by
  have hd := h.duals hi
  have hc := h.cached hi
  obtain ⟨i', sigma, obj, ⟨_, _, _, _, _, rfl⟩, rfl⟩ := h.kin hi
  simp only [answer]
  rcases Option.eq_none_or_eq_some s.scaling with hs | ⟨sc, hs⟩
  · unfold NLP.solverGetBounds
    rw [hs]
    exact .none
  · rw [solverGetBounds_eq _ hs, solverGetBounds_eq
      (s := { s with inst := _, currSigmaF := sigma, currObj := obj }) _ hs]
    exact .some ⟨rfl, Kin.alike ⟨_, _, _, ⟨_, _, _, _, _, rfl⟩, rfl⟩ hd hc⟩

theorem Alike.getJacSparsity : Trace.Answers (Alike (l.note P .getJacSparsity))
    (answer cb P past s .getJacSparsity)
    (answer { cb with fullPpHes := pp } P past' s' .getJacSparsity) := by
  have hd := h.duals hi
  have hc := h.cached hi
  obtain ⟨i', sigma, obj, ⟨_, _, _, _, _, rfl⟩, rfl⟩ := h.kin hi
  refine .some ⟨rfl, Kin.alike ⟨_, _, _, ⟨_, _, _, _, _, rfl⟩, rfl⟩ hd fun y hy => ?_⟩
  obtain ⟨h1, h2, h3, h4, h5, h6⟩ := hc y hy
  exact ⟨h1, h2, h3, h4, h5, h6⟩

/-- The tables of the duals are built anew where there is a Lagrange term, and are empty where there
is none. -/
theorem Alike.getHesSparsity
    (hH : (hesFlat P s.inst.off.offX .H).length ≤ (hesFlat P s.inst.off.offX .G).length)
    (hz : P.pc.hasLagrange = false →
      s'.inst.lagrangeObjFactors = s.inst.lagrangeObjFactors) :
    Trace.Answers (Alike (l.note P .getHesSparsity)) (answer cb P past s .getHesSparsity)
      (answer { cb with fullPpHes := pp } P past' s' .getHesSparsity) := by
  have hc := h.cached hi
  obtain ⟨i', sigma, obj, ⟨_, _, _, _, _, rfl⟩, rfl⟩ := h.kin hi
  simp only [answer, NLP.solverGetHesSparsity, virtuals, Instance.getHesSparsity]
  rw [getHesSparsityFrom_past hH s.inst.mesh.mesh past' past]
  refine .some ⟨rfl, Kin.alike ⟨_, _, _, ⟨_, _, _, _, _, rfl⟩, rfl⟩ (fun _ => ⟨?_, rfl⟩)
    fun y hy => ?_⟩
  · dsimp only
    cases hL : P.pc.hasLagrange with
    | true => rfl
    | false => exact hz hL
  · obtain ⟨h1, h2, h3, h4, h5, h6⟩ := hc y hy
    exact ⟨h1, h2, h3, h4, h5, h6⟩

theorem Alike.getInitialGuess (bx bl bz : Bool) (solver : Iterate K) :
    Trace.Answers (Alike (l.note P (.getInitialGuess bx bl bz solver)))
      (answer cb P past s (.getInitialGuess bx bl bz solver))
      (answer { cb with fullPpHes := pp } P past' s' (.getInitialGuess bx bl bz solver)) := by
  have hd := h.duals hi
  obtain ⟨i', sigma, obj, hk, rfl⟩ := h.kin hi
  simp only [answer]
  rcases Option.eq_none_or_eq_some s.scaling with hs | ⟨sc, hs⟩
  · unfold NLP.solverGetInitialGuess
    rw [hs]
    exact .none
  · rw [solverGetInitialGuess_eq _ hs, solverGetInitialGuess_eq
      (s := { s with inst := i', currSigmaF := sigma, currObj := obj }) _ hs]
    dsimp only [virtuals]
    rw [getInitialGuess_akin hk]
    obtain ⟨_, _, _, _, _, rfl⟩ := hk
    cases hr : s.inst.getInitialGuess P s.curr with
    | none => exact .none
    | some r =>
      obtain ⟨guess, e⟩ := Instance.getInitialGuess_eq hr
      obtain ⟨j, it⟩ := r
      dsimp only at e
      subst e
      exact .some ⟨rfl, Kin.alike ⟨_, _, _, ⟨_, _, _, _, _, rfl⟩, rfl⟩ hd
      fun y hy => absurd hy (Option.some_ne_none y).symm⟩

theorem Alike.finalize (obj : K) (x lambda zL zU : Nat → K) :
    Trace.Answers (Alike (l.note P (.finalize obj x lambda zL zU)))
      (answer cb P past s (.finalize obj x lambda zL zU))
      (answer { cb with fullPpHes := pp } P past' s' (.finalize obj x lambda zL zU)) := by
  have hd := h.duals hi
  obtain ⟨i', sigma, obj', ⟨_, _, _, _, _, rfl⟩, rfl⟩ := h.kin hi
  simp only [answer, GDOP.step]
  rcases Option.eq_none_or_eq_some s.scaling with hs | ⟨sc, hs⟩
  · unfold NLP.solverFinalizeSolution
    rw [hs]
    exact .none
  · rw [solverFinalizeSolution_eq _ hs, solverFinalizeSolution_eq
      (s := { s with inst := _, currSigmaF := sigma, currObj := obj' }) _ hs]
    exact .some ⟨rfl, Kin.alike ⟨_, _, _, ⟨_, _, _, _, _, rfl⟩, rfl⟩ hd
      fun y hy => absurd hy (Option.some_ne_none y).symm⟩

end Opened

/-! ### Every call -/

/-- A call that is not an evaluation keeps what is cached. -/
theorem Alike.step {c : Call T} (h : Alike l s s') (hp : l.Proper c)
    (hP : P.full.ppHes.dpDp = [])
    (hH : (hesFlat P P.pc.xSize .H).length ≤ (hesFlat P P.pc.xSize .G).length)
    (hoff : l.info = true → s.inst.off = getSizes P s.inst.mesh.mesh)
    (hz : P.pc.hasLagrange = false →
      s'.inst.lagrangeObjFactors = s.inst.lagrangeObjFactors) :
    Trace.Answers (Alike (l.note P c)) (answer cb P past s c)
      (answer { cb with fullPpHes := pp } P past' s' c) := by
  cases c with
  | update mesh =>
    exact .some ⟨rfl, rfl, h.factory, h.guess, nofun, nofun, nofun⟩
  | setInitialGuess guess =>
    refine .some ⟨rfl, h.mesh, h.factory, rfl, fun hi => ?_, h.duals, fun hi y hy => ?_⟩
    · obtain ⟨i', sigma, obj, ⟨_, _, _, _, _, rfl⟩, rfl⟩ := h.kin hi
      exact ⟨_, _, _, ⟨_, _, _, _, _, rfl⟩, rfl⟩
    · obtain ⟨h1, h2, h3, h4, h5, h6⟩ := h.cached hi y hy
      exact ⟨h1, h2, h3, h4, h5, h6⟩
  | setScalingFactory factory =>
    refine .some ⟨rfl, h.mesh, rfl, h.guess, fun hi => ?_, h.duals, fun hi y hy => ?_⟩
    · obtain ⟨i', sigma, obj, ⟨_, _, _, _, _, rfl⟩, rfl⟩ := h.kin hi
      exact ⟨_, _, _, ⟨_, _, _, _, _, rfl⟩, rfl⟩
    · obtain ⟨h1, h2, h3, h4, h5, h6⟩ := h.cached hi y hy
      exact ⟨h1, h2, h3, h4, h5, h6⟩
  | getInfo => exact h.getInfo pp
  | getBounds => exact h.getBounds pp hp
  | getJacSparsity => exact h.getJacSparsity pp hp
  | getHesSparsity =>
    have hX : s.inst.off.offX = P.pc.xSize := by rw [hoff hp, getSizes_offX]
    exact h.getHesSparsity pp hp (hX ▸ hH) hz
  | getInitialGuess bx bl bz solver => exact h.getInitialGuess pp hp bx bl bz solver
  | evalF newX x => exact h.evalF pp x hp
  | evalGradF newX x => exact h.evalGradF pp x hp
  | evalG newX x => exact h.evalG pp x hp
  | evalJac newX x => exact h.evalJac pp x hp
  | evalHes newX x newLambda lambda sigma =>
    exact h.evalHes pp x ⟨hp.1, hp.2.1⟩ hP hp.2.2 newLambda lambda sigma
  | finalize obj x lambda zL zU => exact h.finalize pp hp obj x lambda zL zU

/-! ### Without a Lagrange term -/

omit [LinearOrder K] in
theorem evalHes_factors (hz : P.pc.hasLagrange = false) {i : Instance T}
    {newX newLambda : Bool} {x lambda v : List K} {sigma : K} {r : Instance T × List K}
    (hr : i.evalHes cb P newX x newLambda lambda sigma v = some r) :
    r.1.lagrangeObjFactors = i.lagrangeObjFactors := by
  rw [Instance.evalHes] at hr
  obtain ⟨hes, -, rfl⟩ := Option.map_eq_some_iff.mp hr
  dsimp only
  split
  · rfl
  · refine (if_neg (by simp [hz])).trans ?_
    split <;> rfl

/-- The table of the Lagrange factors is never written then. -/
theorem Moves.factors (hz : P.pc.hasLagrange = false) {i i' : Instance T} {c : Call T}
    (h : Moves cb P past i c i') : i'.lagrangeObjFactors = i.lagrangeObjFactors := by
  cases h with
  | getHesSparsity n p => exact if_neg (by simp [hz])
  | getInitialGuess hr =>
    obtain ⟨guess, e⟩ := Instance.getInitialGuess_eq hr
    exact (congrArg Instance.lagrangeObjFactors e :)
  | evalF y => exact (Instance.of_second (evalF_second (P := P) _)).1
  | evalGradF y v => exact (Instance.of_second (evalGradF_second (P := P) _ v)).1
  | evalG y v => exact (Instance.of_second (evalG_second (P := P) _ v)).1
  | evalJac y v => exact (Instance.of_second (evalJacG_second (P := P) _ v)).1
  | evalHes hr => exact evalHes_factors hz hr
  | _ => rfl

theorem run_factors (hz : P.pc.hasLagrange = false) {cs : List (Call T)}
    (hr : run cb P past s cs = some s') :
    s'.inst.lagrangeObjFactors = s.inst.lagrangeObjFactors :=
  run_keeps (I := fun t => t.inst.lagrangeObjFactors = s.inst.lagrangeObjFactors)
    (Q := fun _ => True) (fun h _ hr => ((step_moves hr).factors hz).trans h) rfl
    (fun _ _ => trivial) hr

end States

/-! ## Runs -/

section Runs

variable {K : Type} [Field K] [LinearOrder K] {T : FLGR K}

/-- A new object on the mesh of `s`, with the scaling factory and the guess that `s` was given. -/
def State.renew (s : State T) : State T :=
  NLP.new
    { mesh := s.inst.mesh
      scalingFactory := s.inst.scalingFactory
      initialGuess := s.inst.initialGuess }

theorem history_independent (cb : Callbacks T) (P : Problem K) (past past' : Nat → Nat × Nat)
    (pp : Mesh T → (xu p : Option (Nat → K)) → (lagrangeFactors : Nat → Nat → K) →
      (lambda : Option (Nat → K)) → (jac : Nat → K) → Nat → K)
    (hP : P.full.ppHes.dpDp = [])
    (hH : (hesFlat P P.pc.xSize .H).length ≤ (hesFlat P P.pc.xSize .G).length)
    (mesh : MeshPtr T) (history : List (Call T)) (s : State T)
    (hr : run cb P past (State.start mesh) history = some s) (calls : List (Call T))
    (hc : Ledger.Along P Ledger.Proper
      { mesh := s.inst.mesh, factory := s.inst.scalingFactory } calls) :
    Trace.trace (answer { cb with fullPpHes := pp } P past') s.renew calls =
      Trace.trace (answer cb P past) s calls := by
  have hz : P.pc.hasLagrange = false →
      s.renew.inst.lagrangeObjFactors = s.inst.lagrangeObjFactors :=
    fun hz => (run_factors hz hr).symm
  refine Trace.trace_eq (R := fun cs s t => ∃ l : Ledger T, Ledger.Along P Ledger.Proper l cs ∧
    Synced P l s ∧ Alike l s t ∧ (P.pc.hasLagrange = false →
      t.inst.lagrangeObjFactors = s.inst.lagrangeObjFactors)) ?_
    ⟨_, hc, ⟨rfl, rfl, nofun⟩, ⟨rfl, rfl, rfl, nofun, nofun, nofun⟩, hz⟩
  rintro c cs s t ⟨l, hc, hs, ha, hz⟩
  refine (ha.step pp hc.1 hP hH (fun hi => hs.off hi) hz).imp fun r r' h h' hr => ?_
  obtain ⟨q, hq, e⟩ := step_of_answer h
  obtain ⟨q', hq', e'⟩ := step_of_answer h'
  rw [← e, ← e'] at hr ⊢
  exact ⟨_, hc.2, hs.step hq, hr, fun hL =>
    ((step_moves hq').factors hL).trans ((hz hL).trans ((step_moves hq).factors hL).symm)⟩

end Runs

/-! A first solve, then a mesh of two steps, then the next solve. -/

section Terminal

def nextSolve : List (Call eulerTables) :=
  [.getInfo, .getJacSparsity, .getHesSparsity, .getBounds,
    .evalHes true (fun k => k) true (fun _ => 1) 2, .evalG false fun k => k]

theorem history_independent_terminal : ∃ s,
    run terminalCallbacks terminal (fun _ => (0, 0)) (State.start oneStep)
      (opened ++ [.update twoSteps]) = some s ∧
    Trace.trace (answer { terminalCallbacks with fullPpHes := fun _ _ _ _ _ _ _ => 1 } terminal
        fun _ => (1, 1)) s.renew nextSolve =
      Trace.trace (answer terminalCallbacks terminal fun _ => (0, 0)) s nextSolve :=
  ⟨_, rfl, history_independent terminalCallbacks terminal _ _ _ rfl (by decide) oneStep
    (opened ++ [.update twoSteps]) _ rfl nextSolve
    ⟨trivial, rfl, rfl, rfl, ⟨rfl, .inl rfl, Nat.one_pos⟩, ⟨rfl, .inr ⟨_, rfl⟩⟩, trivial⟩⟩

/-- One parameter, and `d² M / dp²`. -/
def parametric : Problem ℚ where
  pc := { hasMayer := true, hasLagrange := false, xBounds := [⟨0, 9⟩], uBounds := []
          pBounds := [⟨0, 9⟩], x0Fixed := [none], xfFixed := [none], rBounds := [], gBounds := [] }
  full := { f := [{}], g := [] }
  boundary := { M := some { jac := { dp := [⟨0, 0⟩] } }, r := [], hes := { dpDp := [⟨0, 0, 0⟩] } }
  f_length := by decide
  g_length := by decide
  r_length := rfl

/-- The coordinates of the entry are read behind an empty array. -/
theorem pattern_remembers : ¬ ∀ (P : Problem ℚ) (cb : Callbacks eulerTables)
    (past past' : Nat → Nat × Nat) (mesh : MeshPtr eulerTables) (history : List (Call eulerTables))
    (s : State eulerTables), run cb P past (State.start mesh) history = some s →
    ∀ calls : List (Call eulerTables), Ledger.Along P Ledger.Proper
      { mesh := s.inst.mesh, factory := s.inst.scalingFactory } calls →
    Trace.trace (answer cb P past') s.renew calls = Trace.trace (answer cb P past) s calls := by
  intro h
  have e := h parametric terminalCallbacks (fun _ => (1, 0)) (fun _ => (0, 0)) oneStep
    [.getInfo, .getJacSparsity, .getHesSparsity] _ rfl [.getInfo, .getJacSparsity, .getHesSparsity]
    ⟨trivial, rfl, rfl, trivial⟩
  have hrow := congrArg (List.map fun a => match a with
    | .pattern p => p.iRow
    | _ => []) e
  exact absurd hrow (by decide +kernel)

end Terminal

end GDOP
end Moo
