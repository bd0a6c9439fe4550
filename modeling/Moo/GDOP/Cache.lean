import Moo.GDOP.Run

/-!
# GDOP.Cache

The evaluation cache: a flag that is set promises buffers filled at the current `x` on the
current mesh.

* `Valid`: the promise of the four flags of first order. `evalF_spec` to `evalJacG_spec`: an
  evaluation whose `new_x` is right keeps it and reads fresh values.
* `Sized`: sizes, patterns and scaling are those of the current mesh, from `getInfo` on.
* `Inv.step`: every call keeps both, whatever the order of the calls.
-/

namespace Moo
namespace GDOP

open Loop FixedVector NLP

variable {K : Type} [Field K] {T : FLGR K} (cb : Callbacks T) (P : Problem K)

/-! ## One evaluation of the instance -/

def EvalAt (s : Instance T) (x : Nat → K) : Prop :=
  s.buffers.eval = (freshBuffers cb P s.mesh.mesh x).eval ∧
    s.buffers.mrEval = (freshBuffers cb P s.mesh.mesh x).mrEval

def JacAt (s : Instance T) (x : Nat → K) : Prop :=
  s.buffers.jac = (freshBuffers cb P s.mesh.mesh x).jac ∧
    s.buffers.mrJac = (freshBuffers cb P s.mesh.mesh x).mrJac

structure Valid (s : Instance T) (x : Nat → K) : Prop where
  evalF : s.evaluationState.evalF = true → EvalAt cb P s x
  evalG : s.evaluationState.evalG = true → EvalAt cb P s x
  gradF : s.evaluationState.gradF = true → JacAt cb P s x
  jacG : s.evaluationState.jacG = true → JacAt cb P s x

/-- The instance without what calls other than queries and updates may change. -/
def Instance.core (s : Instance T) : Instance T :=
  { s with
    evaluationState := {}
    initialGuess := none
    optimalSolution := none
    lagrangeObjFactors := fun _ _ => 0
    transformedLambda := []
    buffers := .zero }

section Evaluate

variable {cb P} {s : Instance T} {x : Nat → K}

theorem Valid.checkNewX {newX : Bool} (h : newX = true ∨ Valid cb P s x) :
    Valid cb P (s.checkNewX newX) x := by
  cases newX with
  | true => constructor <;> intro h <;> cases h
  | false =>
    have h := h.resolve_left (by decide)
    exact ⟨h.evalF, h.evalG, h.gradF, h.jacG⟩

theorem Valid.callbackEvaluation (h : Valid cb P s x) (hoff : s.off = getSizes P s.mesh.mesh) :
    Valid cb P (s.callbackEvaluation cb x) x ∧ EvalAt cb P (s.callbackEvaluation cb x) x := by
  have he : EvalAt cb P (s.callbackEvaluation cb x) x := by
    simp only [EvalAt, Instance.callbackEvaluation, hoff]
    exact ⟨rfl, rfl⟩
  exact ⟨⟨fun _ => he, fun _ => he, h.gradF, h.jacG⟩, he⟩

theorem Valid.callbackJacobian (h : Valid cb P s x) (hoff : s.off = getSizes P s.mesh.mesh) :
    Valid cb P (s.callbackJacobian cb x) x ∧ JacAt cb P (s.callbackJacobian cb x) x := by
  have he : JacAt cb P (s.callbackJacobian cb x) x := by
    simp only [JacAt, Instance.callbackJacobian, hoff]
    exact ⟨rfl, rfl⟩
  exact ⟨⟨h.evalF, h.evalG, fun _ => he, fun _ => he⟩, he⟩

/-- The callbacks are run unless the flag `b` promises their results. -/
theorem Valid.ensureEvaluation (h : Valid cb P s x) (hoff : s.off = getSizes P s.mesh.mesh)
    {b : Bool} (hb : b = true → EvalAt cb P s x) :
    Valid cb P (if b then s else s.callbackEvaluation cb x) x ∧
      EvalAt cb P (if b then s else s.callbackEvaluation cb x) x ∧
      (if b then s else s.callbackEvaluation cb x).core = s.core := by
  cases b with
  | true => exact ⟨h, hb rfl, rfl⟩
  | false =>
    obtain ⟨h1, h2⟩ := h.callbackEvaluation hoff
    exact ⟨h1, h2, rfl⟩

theorem Valid.ensureJacobian (h : Valid cb P s x) (hoff : s.off = getSizes P s.mesh.mesh)
    {b : Bool} (hb : b = true → JacAt cb P s x) :
    Valid cb P (if b then s else s.callbackJacobian cb x) x ∧
      JacAt cb P (if b then s else s.callbackJacobian cb x) x ∧
      (if b then s else s.callbackJacobian cb x).core = s.core := by
  cases b with
  | true => exact ⟨h, hb rfl, rfl⟩
  | false =>
    obtain ⟨h1, h2⟩ := h.callbackJacobian hoff
    exact ⟨h1, h2, rfl⟩

end Evaluate

section Internal

variable {P} {M : Mesh T} {off : Offsets} {B B' : Buffers K}

theorem evalFInternal_congr (h : B.eval = B'.eval) (h' : B.mrEval = B'.mrEval) :
    evalFInternal P M B = evalFInternal P M B' := by
  simp only [evalFInternal, mrEvalM, lfgEvalL, h, h']

theorem evalGInternal_congr (h : B.eval = B'.eval) (h' : B.mrEval = B'.mrEval) (x : Nat → K) :
    evalGInternal P M off B x = evalGInternal P M off B' x := by
  have e : evalGInterval P M off B x = evalGInterval P M off B' x := by
    funext i g
    simp only [evalGInterval, lfgEvalF, lfgEvalG, h]
  simp only [evalGInternal, mrEvalR, e, h']

theorem evalGradFInternal_congr (h : B.jac = B'.jac) (h' : B.mrJac = B'.mrJac) :
    evalGradFInternal P M off B = evalGradFInternal P M off B' := by
  simp only [evalGradFInternal, lfgJac, mrJac, h, h']

theorem evalJacGInternal_congr (h : B.jac = B'.jac) (h' : B.mrJac = B'.mrJac) (acc : Nat → Nat)
    (der : Nat → K) : evalJacGInternal P M off B acc der = evalJacGInternal P M off B' acc der := by
  have eF : evalJacRowF P M off B = evalJacRowF P M off B' := by
    funext i j f t
    simp only [evalJacRowF, lfgJac, h]
  have eG : evalJacRowG P M B = evalJacRowG P M B' := by
    funext i j g t
    simp only [evalJacRowG, lfgJac, h]
  have eR : evalJacRowR P B = evalJacRowR P B' := by
    funext r t
    simp only [evalJacRowR, mrJac, h']
  have eI : evalJacInterval P M off B acc = evalJacInterval P M off B' acc := by
    funext i t
    simp only [evalJacInterval, eF, eG]
  simp only [evalJacGInternal, eI, eR]

end Internal

section Specs

variable {cb P} {s : Instance T} (newX : Bool) (x v : List K)
variable (hoff : s.off = getSizes P s.mesh.mesh) (h : newX = true ∨ Valid cb P s (raw x))

include hoff h

theorem evalF_spec : Valid cb P (s.evalF cb P newX x).1 (raw x) ∧
    (s.evalF cb P newX x).1.core = s.core ∧
    (s.evalF cb P newX x).2 = evalFInternal P s.mesh.mesh
      (freshBuffers cb P s.mesh.mesh (raw x)) := by
  have hv := Valid.checkNewX h
  obtain ⟨h1, h2, h3⟩ := hv.ensureEvaluation hoff hv.evalF
  have hm := congrArg (fun i : Instance T => i.mesh.mesh) h3
  refine ⟨h1, h3, (evalFInternal_congr h2.1 h2.2).trans ?_⟩
  exact congrArg (fun M => evalFInternal P M (freshBuffers cb P M (raw x))) hm

theorem evalG_spec : Valid cb P (s.evalG cb P newX x v).1 (raw x) ∧
    (s.evalG cb P newX x v).1.core = s.core ∧
    (s.evalG cb P newX x v).2 = fill v.length (evalGInternal P s.mesh.mesh
      (getSizes P s.mesh.mesh) (freshBuffers cb P s.mesh.mesh (raw x)) (raw x)) := by
  have hv := Valid.checkNewX h
  obtain ⟨h1, h2, h3⟩ := hv.ensureEvaluation hoff hv.evalG
  have hm := congrArg (fun i : Instance T => i.mesh.mesh) h3
  have ho := (congrArg (fun i : Instance T => i.off) h3).trans hoff
  refine ⟨h1, h3, congrArg (fill v.length) ((evalGInternal_congr h2.1 h2.2 (raw x)).trans ?_)⟩
  refine (congrArg (fun o => evalGInternal P _ o _ (raw x)) ho).trans ?_
  exact congrArg (fun M => evalGInternal P M _ (freshBuffers cb P M (raw x)) (raw x)) hm

theorem evalGradF_spec : Valid cb P (s.evalGradF cb P newX x v).1 (raw x) ∧
    (s.evalGradF cb P newX x v).1.core = s.core ∧
    (s.evalGradF cb P newX x v).2 = fill v.length (evalGradFInternal P s.mesh.mesh
      (getSizes P s.mesh.mesh) (freshBuffers cb P s.mesh.mesh (raw x))) := by
  have hv := Valid.checkNewX h
  obtain ⟨h1, h2, h3⟩ := hv.ensureJacobian hoff hv.gradF
  have hm := congrArg (fun i : Instance T => i.mesh.mesh) h3
  have ho := (congrArg (fun i : Instance T => i.off) h3).trans hoff
  refine ⟨h1, h3, congrArg (fill v.length) ((evalGradFInternal_congr h2.1 h2.2).trans ?_)⟩
  refine (congrArg (fun o => evalGradFInternal P _ o _) ho).trans ?_
  exact congrArg (fun M => evalGradFInternal P M _ (freshBuffers cb P M (raw x))) hm

theorem evalJacG_spec : Valid cb P (s.evalJacG cb P newX x v).1 (raw x) ∧
    (s.evalJacG cb P newX x v).1.core = s.core ∧
    (s.evalJacG cb P newX x v).2 = fill v.length (evalJacGInternal P s.mesh.mesh
      (getSizes P s.mesh.mesh) (freshBuffers cb P s.mesh.mesh (raw x)) s.offAccJacFg
      (raw s.constDerJac)).cells := by
  have hv := Valid.checkNewX h
  obtain ⟨h1, h2, h3⟩ := hv.ensureJacobian hoff hv.jacG
  have hm := congrArg (fun i : Instance T => i.mesh.mesh) h3
  have ho := (congrArg (fun i : Instance T => i.off) h3).trans hoff
  have ha := congrArg (fun i : Instance T => i.offAccJacFg) h3
  have hd := congrArg (fun i : Instance T => raw i.constDerJac) h3
  refine ⟨h1, h3, congrArg (fun t => fill v.length (Tape.cells t))
    ((evalJacGInternal_congr h2.1 h2.2 _ _).trans ?_)⟩
  refine (congrArg (fun o => evalJacGInternal P _ o _ _ _) ho).trans ?_
  refine (congrArg (fun a => evalJacGInternal P _ _ _ a _) ha).trans ?_
  refine (congrArg (fun d => evalJacGInternal P _ _ _ _ d) hd).trans ?_
  exact congrArg (fun M => evalJacGInternal P M _ (freshBuffers cb P M (raw x)) _ _) hm

/-- A Hessian evaluation keeps the promises of first order; it may fill the Jacobian buffers. -/
theorem evalHes_frame {newLambda : Bool} {lambda : List K} {sigma : K}
    {r : Instance T × List K}
    (hr : s.evalHes cb P newX x newLambda lambda sigma v = some r) :
    Valid cb P r.1 (raw x) ∧ r.1.core = s.core ∧ r.2.length = v.length := by
  have hv := Valid.checkNewX h
  have hv : Valid cb P ((s.checkNewX newX).checkNewLambda newLambda) (raw x) := by
    cases newLambda <;> exact ⟨hv.evalF, hv.evalG, hv.gradF, hv.jacG⟩
  have hc : ((s.checkNewX newX).checkNewLambda newLambda).core = s.core := rfl
  have ho : ((s.checkNewX newX).checkNewLambda newLambda).off =
    getSizes P ((s.checkNewX newX).checkNewLambda newLambda).mesh.mesh := hoff
  rw [Instance.evalHes] at hr
  obtain ⟨hes, -, rfl⟩ := Option.map_eq_some_iff.mp hr
  refine ⟨?_, ?_, fill_length ..⟩
  · dsimp only
    split
    · exact hv
    · obtain ⟨h1, -, -⟩ := hv.ensureJacobian ho hv.jacG
      exact ⟨h1.evalF, h1.evalG, h1.gradF, h1.jacG⟩
  · dsimp only
    split
    · exact hc
    · obtain ⟨-, -, h3⟩ := hv.ensureJacobian ho hv.jacG
      exact h3.trans hc

end Specs

/-! ## Sizes, patterns and scaling -/

section Sized

variable (past : Nat → Nat × Nat)

/-- A cell of the pattern of the Jacobian, before and after it is queried. -/
def jacCell (M : Mesh T) (queried : Bool) (k : Nat) : JacCell K :=
  if queried then freshCells P M k else ⟨0, 0, 0⟩

/-- Pattern and block tables of the Hessian, before and after the first query. -/
def hesState (M : Mesh T) (queries : Nat) : HesState :=
  if queries = 0 then { counter := 0, iRow := fun _ => 0, jCol := fun _ => 0, block := resetBlocks }
  else freshHes P M past

/-- What holds from `getInfo` on, until the mesh changes. The Hessian part is promised for one
query of its pattern: a second one continues on the tables that the first one has filled. -/
structure Sized (l : Ledger T) (s : State T) : Prop where
  off : s.inst.off = getSizes P l.mesh.mesh
  offAccJacFg : s.inst.offAccJacFg = (initJacobianNonzeros P l.mesh.mesh P.pc.xSize).1
  numberVars : s.numberVars = (getSizes P l.mesh.mesh).numberVars
  numberConstraints : s.numberConstraints = (getSizes P l.mesh.mesh).numberConstraints
  nnzJac : s.nnzJac = freshNnzJac P l.mesh.mesh
  nnzHes : s.nnzHes = initHessianNonzeros P l.mesh.mesh P.pc.xSize
  constDerJac : s.inst.constDerJac =
    fill (freshNnzJac P l.mesh.mesh) fun k => (jacCell P l.mesh.mesh l.jac k).der
  jac : s.jac =
    { iRow := fill (freshNnzJac P l.mesh.mesh) fun k => (jacCell P l.mesh.mesh l.jac k).row
      jCol := fill (freshNnzJac P l.mesh.mesh) fun k => (jacCell P l.mesh.mesh l.jac k).col }
  hesBlock : l.hes ≤ 1 → s.inst.hesBlock = (hesState P past l.mesh.mesh l.hes).block
  hes : l.hes ≤ 1 → s.hes =
    { iRow := fill (initHessianNonzeros P l.mesh.mesh P.pc.xSize)
        (hesState P past l.mesh.mesh l.hes).iRow
      jCol := fill (initHessianNonzeros P l.mesh.mesh P.pc.xSize)
        (hesState P past l.mesh.mesh l.hes).jCol }
  currGrad : s.currGrad.length = (getSizes P l.mesh.mesh).numberVars
  currG : s.currG.length = (getSizes P l.mesh.mesh).numberConstraints
  currJac : s.currJac.length = freshNnzJac P l.mesh.mesh
  currHes : s.currHes.length = initHessianNonzeros P l.mesh.mesh P.pc.xSize
  scaling : ∃ sc, s.scaling = some sc ∧ Created (freshShape P l.mesh.mesh past) l.user sc ∧
    (l.hes ≤ 1 → HesCreated (freshShape P l.mesh.mesh past) sc)

/-- The parts of a state that no evaluation changes. -/
def State.core (s : State T) : State T :=
  { s with
    inst := s.inst.core
    curr := {}
    currSigmaF := 0
    bounds := {}
    currObj := 0
    currGrad := []
    currG := []
    currJac := []
    currHes := []
    scaling := none }

variable {P past} {l : Ledger T} {s s' : State T}

/-- What was evaluated before, and the factory of the next solve, play no role. -/
theorem Sized.relabel (h : Sized P past l s) (factory : Option (ScalingFactory T))
    (lastX lastLambda : Option (Nat → K)) (lastSigma : Option K) :
    Sized P past { l with factory, lastX, lastLambda, lastSigma } s :=
  ⟨h.off, h.offAccJacFg, h.numberVars, h.numberConstraints, h.nnzJac, h.nnzHes, h.constDerJac,
    h.jac, h.hesBlock, h.hes, h.currGrad, h.currG, h.currJac, h.currHes, h.scaling⟩

theorem Sized.of_core (h : Sized P past l s) (hc : s'.core = s.core)
    (h1 : s'.currGrad.length = s.currGrad.length) (h2 : s'.currG.length = s.currG.length)
    (h3 : s'.currJac.length = s.currJac.length) (h4 : s'.currHes.length = s.currHes.length)
    (h5 : ∃ sc, s'.scaling = some sc ∧ Created (freshShape P l.mesh.mesh past) l.user sc ∧
      (l.hes ≤ 1 → HesCreated (freshShape P l.mesh.mesh past) sc)) : Sized P past l s' where
  off := (congrArg (fun s : State T => s.inst.off) hc).trans h.off
  offAccJacFg := (congrArg (fun s : State T => s.inst.offAccJacFg) hc).trans h.offAccJacFg
  numberVars := (congrArg (fun s : State T => s.numberVars) hc).trans h.numberVars
  numberConstraints :=
    (congrArg (fun s : State T => s.numberConstraints) hc).trans h.numberConstraints
  nnzJac := (congrArg (fun s : State T => s.nnzJac) hc).trans h.nnzJac
  nnzHes := (congrArg (fun s : State T => s.nnzHes) hc).trans h.nnzHes
  constDerJac := (congrArg (fun s : State T => s.inst.constDerJac) hc).trans h.constDerJac
  jac := (congrArg (fun s : State T => s.jac) hc).trans h.jac
  hesBlock := fun hl => (congrArg (fun s : State T => s.inst.hesBlock) hc).trans (h.hesBlock hl)
  hes := fun hl => (congrArg (fun s : State T => s.hes) hc).trans (h.hes hl)
  currGrad := h1.trans h.currGrad
  currG := h2.trans h.currG
  currJac := h3.trans h.currJac
  currHes := h4.trans h.currHes
  scaling := h5

end Sized

section Queries

variable {P} {past : Nat → Nat × Nat} {l : Ledger T} {s : State T} [LinearOrder K]

omit [Field K] [LinearOrder K] in
theorem getD_fill {α : Type} (n : Nat) (f : Nat → α) (d : α) (k : Nat) :
    (fill n f).getD k d = if k < n then f k else d := by
  by_cases h : k < n
  · rw [if_pos h]
    exact getD_map_range n f d h
  · rw [if_neg h]
    exact List.getD_eq_default _ _ (by rw [fill_length]; omega)

theorem Sized.getInfo (hm : s.inst.mesh = l.mesh) (hf : s.inst.scalingFactory = l.factory) :
    Sized P past (l.note P .getInfo) (s.solverGetInfo (virtuals cb P past)) := by
  have hs : ∃ sc, (s.solverGetInfo (virtuals cb P past)).scaling = some sc ∧
      Created (freshShape P l.mesh.mesh past) (l.note P .getInfo).user sc ∧
      HesCreated (freshShape P l.mesh.mesh past) sc := by
    refine ⟨_, rfl, ?_⟩
    simp only [Ledger.note, NLP.allocateBuffers, NLP.allocateSparsityBuffers, hf, hm]
    cases l.factory with
    | none => exact ⟨trivial, trivial⟩
    | some f => exact ⟨created_create _ _, hesCreated_create _ _⟩
  obtain ⟨sc, h1, h2, h3⟩ := hs
  obtain ⟨mesh, factory⟩ := l
  subst hm
  exact
    { off := rfl
      offAccJacFg := rfl
      numberVars := rfl
      numberConstraints := rfl
      nnzJac := rfl
      nnzHes := rfl
      constDerJac := rfl
      jac := rfl
      hesBlock := fun _ => rfl
      hes := fun _ => rfl
      currGrad := fill_length ..
      currG := fill_length ..
      currJac := fill_length ..
      currHes := fill_length ..
      scaling := ⟨sc, h1, h2, fun _ => h3⟩ }

omit [LinearOrder K] in
/-- Querying the pattern of the Jacobian again changes nothing. -/
theorem jacCell_query (M : Mesh T) (queried : Bool) {k : Nat} (hk : k < freshNnzJac P M) :
    (GDOP.getJacSparsity P M (getSizes P M) (initJacobianNonzeros P M P.pc.xSize).1 fun k =>
      ⟨(fill (freshNnzJac P M) fun k => (jacCell P M queried k).row).getD k 0,
        (fill (freshNnzJac P M) fun k => (jacCell P M queried k).col).getD k 0,
        raw (fill (freshNnzJac P M) fun k => (jacCell P M queried k).der) k⟩).cells k =
      freshCells P M k := by
  obtain ⟨φ, hφ, e⟩ := getJacSparsity_cells P M (getSizes P M)
    (initJacobianNonzeros P M P.pc.xSize).1
  have hf : freshCells P M k = φ k ⟨0, 0, 0⟩ := congrFun (e _) k
  refine (congrFun (e _) k).trans ?_
  rw [getD_fill, getD_fill, raw_fill_lt _ hk, if_pos hk, if_pos hk]
  cases queried with
  | false => exact hf.symm
  | true =>
    rw [show jacCell P M true k = freshCells P M k from rfl, hf]
    exact Overwrites.idem (hφ k) _

theorem Sized.getJacSparsity (h : Sized P past l s) (hm : s.inst.mesh = l.mesh) :
    Sized P past (l.note P .getJacSparsity) (s.solverGetJacSparsity (virtuals cb P past)).1 := by
  have hcell : ∀ k, k < freshNnzJac P l.mesh.mesh →
      (GDOP.getJacSparsity P s.inst.mesh.mesh s.inst.off s.inst.offAccJacFg fun k =>
        ⟨s.jac.row k, s.jac.col k, raw s.inst.constDerJac k⟩).cells k =
        freshCells P l.mesh.mesh k := by
    intro k hk
    rw [hm, h.off, h.offAccJacFg, h.constDerJac, h.jac]
    exact jacCell_query l.mesh.mesh l.jac hk
  have hd : s.inst.constDerJac.length = freshNnzJac P l.mesh.mesh := by
    rw [h.constDerJac, fill_length]
  have hr : s.jac.iRow.length = freshNnzJac P l.mesh.mesh := by rw [h.jac, fill_length]
  have hc : s.jac.jCol.length = freshNnzJac P l.mesh.mesh := by rw [h.jac, fill_length]
  exact
    { off := h.off
      offAccJacFg := h.offAccJacFg
      numberVars := h.numberVars
      numberConstraints := h.numberConstraints
      nnzJac := h.nnzJac
      nnzHes := h.nnzHes
      constDerJac := by
        refine (congrArg (fun n => fill n _) hd).trans (fill_congr fun k hk => ?_)
        exact congrArg JacCell.der (hcell k hk)
      jac := by
        refine (congrArg₂ Pattern.mk (congrArg (fun n => fill n _) hr)
          (congrArg (fun n => fill n _) hc)).trans ?_
        refine congrArg₂ Pattern.mk (fill_congr fun k hk => ?_) (fill_congr fun k hk => ?_)
        · exact congrArg JacCell.row (hcell k hk)
        · exact congrArg JacCell.col (hcell k hk)
      hesBlock := h.hesBlock
      hes := h.hes
      currGrad := h.currGrad
      currG := h.currG
      currJac := h.currJac
      currHes := h.currHes
      scaling := h.scaling }

theorem Sized.getHesSparsity (h : Sized P past l s) (hm : s.inst.mesh = l.mesh) :
    Sized P past (l.note P .getHesSparsity) (s.solverGetHesSparsity (virtuals cb P past)).1 := by
  -- the first query starts from fresh tables, and of a second one nothing is promised
  have hstate : l.hes + 1 ≤ 1 →
      getHesSparsityFrom P s.inst.mesh.mesh s.inst.off past s.inst.hesBlock s.hes.row s.hes.col =
        hesState P past l.mesh.mesh (l.hes + 1) := by
    intro hl
    have h0 : l.hes = 0 := by omega
    have hrow : s.hes.row = fun _ => 0 := by
      rw [h.hes (by omega)]
      funext k
      refine (getD_fill _ _ _ k).trans ?_
      rw [h0]
      exact ite_self 0
    have hcol : s.hes.col = fun _ => 0 := by
      rw [h.hes (by omega)]
      funext k
      refine (getD_fill _ _ _ k).trans ?_
      rw [h0]
      exact ite_self 0
    rw [hm, h.off, hrow, hcol, h.hesBlock (by omega), h0]
    rfl
  have hlen : l.hes + 1 ≤ 1 → s.hes.iRow.length = initHessianNonzeros P l.mesh.mesh P.pc.xSize ∧
      s.hes.jCol.length = initHessianNonzeros P l.mesh.mesh P.pc.xSize := by
    intro hl
    rw [h.hes (by omega)]
    exact ⟨fill_length .., fill_length ..⟩
  exact
    { off := h.off
      offAccJacFg := h.offAccJacFg
      numberVars := h.numberVars
      numberConstraints := h.numberConstraints
      nnzJac := h.nnzJac
      nnzHes := h.nnzHes
      constDerJac := h.constDerJac
      jac := h.jac
      hesBlock := fun hl => congrArg HesState.block (hstate hl)
      hes := fun hl => by
        refine (congrArg₂ Pattern.mk (congrArg (fun n => fill n _) (hlen hl).1)
          (congrArg (fun n => fill n _) (hlen hl).2)).trans ?_
        exact congrArg₂ Pattern.mk (congrArg (fun t => fill _ (HesState.iRow t)) (hstate hl))
          (congrArg (fun t => fill _ (HesState.jCol t)) (hstate hl))
      currGrad := h.currGrad
      currG := h.currG
      currJac := h.currJac
      currHes := h.currHes
      scaling := by
        obtain ⟨sc, h1, h2, h3⟩ := h.scaling
        exact ⟨sc, h1, h2, fun hl => h3 (Nat.le_of_succ_le hl)⟩ }

end Queries

/-! ## The invariant of a run -/

section Run

variable (past : Nat → Nat × Nat)

/-- The state agrees with the ledger. -/
structure Inv (l : Ledger T) (s : State T) : Prop where
  mesh : s.inst.mesh = l.mesh
  factory : s.inst.scalingFactory = l.factory
  ready : ∀ y, l.lastX = some y → l.Ready
  sized : l.info = true → Sized P past l s
  cached : ∀ y, l.lastX = some y →
    s.curr.x = l.user.unscaleX y (getSizes P l.mesh.mesh).numberVars ∧
      Valid cb P s.inst (raw s.curr.x)

variable {cb P past} {l : Ledger T} {s s' : State T}

theorem Inv.start (mesh : MeshPtr T) : Inv cb P past { mesh } (State.start mesh) where
  mesh := rfl
  factory := rfl
  ready := by
    intro y h
    cases h
  sized := by
    intro h
    cases h
  cached := by
    intro y h
    cases h

theorem core_congr {i : Instance T} (hi : i.core = s.inst.core) {curr : Iterate K}
    {sigma obj : K} {grad g jac hes : List K} {sc : Option (Scaling K)} :
    State.core { s with
      inst := i
      curr := curr
      currSigmaF := sigma
      currObj := obj
      currGrad := grad
      currG := g
      currJac := jac
      currHes := hes
      scaling := sc } = s.core := by
  simp only [State.core, hi]

section Evaluation

variable {newX : Bool} {x : Nat → K} (h : Inv cb P past l s) (hx : l.XFlag P newX x)

include h hx

/-- The point of an evaluation, and what the flags promise there. -/
theorem Inv.point {sc : Scaling K} (hc : Created (freshShape P l.mesh.mesh past) l.user sc) :
    s.updateUnscaleCurrX sc newX x =
        { s with
          curr := { s.curr with x := l.user.unscaleX x (getSizes P l.mesh.mesh).numberVars } } ∧
      (newX = true ∨
        Valid cb P s.inst (raw (l.user.unscaleX x (getSizes P l.mesh.mesh).numberVars))) := by
  have hn := (h.sized hx.1.1).numberVars
  cases newX with
  | true =>
    refine ⟨?_, .inl rfl⟩
    rw [← hn, ← hc.unscaleX]
    rfl
  | false =>
    obtain ⟨y, hy, hxy⟩ := hx.2.resolve_left (by decide)
    obtain ⟨h1, h2⟩ := h.cached y hy
    rw [l.user.unscaleX_congr hxy, ← h1]
    exact ⟨rfl, .inr h2⟩

omit hx in
theorem Inv.inst_off (hi : l.info = true) : s.inst.off = getSizes P s.inst.mesh.mesh := by
  rw [(h.sized hi).off, h.mesh]

theorem Inv.evaluated (hc : s'.core = s.core) (hf : s'.inst.core = s.inst.core)
    (h1 : s'.currGrad.length = s.currGrad.length) (h2 : s'.currG.length = s.currG.length)
    (h3 : s'.currJac.length = s.currJac.length) (h4 : s'.currHes.length = s.currHes.length)
    (h5 : ∃ sc, s'.scaling = some sc ∧ Created (freshShape P l.mesh.mesh past) l.user sc ∧
      (l.hes ≤ 1 → HesCreated (freshShape P l.mesh.mesh past) sc))
    (hv : s'.curr.x = l.user.unscaleX x (getSizes P l.mesh.mesh).numberVars ∧
      Valid cb P s'.inst (raw s'.curr.x)) : Inv cb P past (l.noteX newX x) s' where
  mesh := (congrArg Instance.mesh hf).trans h.mesh
  factory := (congrArg Instance.scalingFactory hf).trans h.factory
  ready := fun _ _ => hx.1
  sized := fun hi => ((h.sized hi).of_core hc h1 h2 h3 h4 h5).relabel _ _ _ _
  cached := fun y hy => by
    obtain rfl : x = y := Option.some_inj.mp hy
    exact hv

variable [LinearOrder K]

theorem Inv.evalF : ∃ s' v, step cb P past s (.evalF newX x) = some (s', v) ∧
    Inv cb P past (l.noteX newX x) s' ∧
    fresh cb P l.mesh.mesh past l.user (.evalF newX x) = some v := by
  obtain ⟨sc, hsc, hc, hh⟩ := (h.sized hx.1.1).scaling
  obtain ⟨hp, hv⟩ := h.point hx hc
  obtain ⟨v1, v2, v3⟩ := evalF_spec newX _ (h.inst_off hx.1.1) hv
  have e := NLP.solverEvalF_eq (virtuals cb P past) hsc newX x
  rw [hp] at e
  rw [h.mesh] at v3
  rw [step, e]
  refine ⟨_, _, rfl, ?_, ?_⟩
  · exact h.evaluated hx (core_congr v2) v2 rfl rfl rfl rfl ⟨sc, hsc, hc, hh⟩ ⟨rfl, v1⟩
  · exact congrArg (fun v => some [v])
      ((hc.scaleF _).trans (congrArg l.user.scaleF v3)).symm

theorem Inv.evalG : ∃ s' v, step cb P past s (.evalG newX x) = some (s', v) ∧
    Inv cb P past (l.noteX newX x) s' ∧
    fresh cb P l.mesh.mesh past l.user (.evalG newX x) = some v := by
  have hz := h.sized hx.1.1
  obtain ⟨sc, hsc, hc, hh⟩ := hz.scaling
  obtain ⟨hp, hv⟩ := h.point hx hc
  obtain ⟨v1, v2, v3⟩ := evalG_spec newX _ s.currG (h.inst_off hx.1.1) hv
  have e := NLP.solverEvalG_eq (virtuals cb P past) hsc newX x
  rw [hp] at e
  rw [h.mesh, hz.currG] at v3
  rw [step, e]
  refine ⟨_, _, rfl, ?_, ?_⟩
  · exact h.evaluated hx (core_congr v2) v2 rfl (fill_length ..) rfl rfl ⟨sc, hsc, hc, hh⟩
      ⟨rfl, v1⟩
  · refine congrArg some (Eq.symm ?_)
    refine (hc.scaleG _ _).trans ?_
    dsimp only
    rw [hz.numberConstraints]
    refine (congrArg (fun v => l.user.scaleG (raw v) _) v3).trans ?_
    exact l.user.scaleG_congr fun i hi => raw_fill_lt _ hi

theorem Inv.evalGradF : ∃ s' v, step cb P past s (.evalGradF newX x) = some (s', v) ∧
    Inv cb P past (l.noteX newX x) s' ∧
    fresh cb P l.mesh.mesh past l.user (.evalGradF newX x) = some v := by
  have hz := h.sized hx.1.1
  obtain ⟨sc, hsc, hc, hh⟩ := hz.scaling
  obtain ⟨hp, hv⟩ := h.point hx hc
  obtain ⟨v1, v2, v3⟩ := evalGradF_spec newX _ s.currGrad (h.inst_off hx.1.1) hv
  have e := NLP.solverEvalGradF_eq (virtuals cb P past) hsc newX x
  rw [hp] at e
  rw [h.mesh, hz.currGrad] at v3
  rw [step, e]
  refine ⟨_, _, rfl, ?_, ?_⟩
  · refine h.evaluated hx (core_congr v2) v2 (fill_length ..) rfl rfl rfl
      ⟨_, rfl, ?_, fun hl => (hh hl).scaleGradF _ _⟩ ⟨rfl, v1⟩
    dsimp only
    rw [hz.numberVars]
    exact (hc.scaleGradF _).1
  · refine congrArg some (Eq.symm ?_)
    dsimp only
    rw [hz.numberVars]
    refine (hc.scaleGradF _).2.trans ?_
    refine (congrArg (fun v => l.user.scaleGradF (raw v) _) v3).trans ?_
    exact l.user.scaleGradF_congr fun i hi => raw_fill_lt _ hi

theorem Inv.evalJac : ∃ s' v, step cb P past s (.evalJac newX x) = some (s', v) ∧
    Inv cb P past (l.noteX newX x) s' ∧
    fresh cb P l.mesh.mesh past l.user (.evalJac newX x) = some v := by
  have hz := h.sized hx.1.1
  obtain ⟨sc, hsc, hc, hh⟩ := hz.scaling
  obtain ⟨hp, hv⟩ := h.point hx hc
  obtain ⟨v1, v2, v3⟩ := evalJacG_spec newX _ s.currJac (h.inst_off hx.1.1) hv
  have hj : s.jac = (freshShape P l.mesh.mesh past).jac := by
    rw [hz.jac, hx.1.2.1]
    rfl
  have hd : s.inst.constDerJac =
      fill (freshNnzJac P l.mesh.mesh) fun k => (freshCells P l.mesh.mesh k).der := by
    rw [hz.constDerJac, hx.1.2.1]
    rfl
  have e := NLP.solverEvalJac_eq (virtuals cb P past) hsc newX x
  rw [hp] at e
  rw [h.mesh, hz.currJac, hz.offAccJacFg, hd] at v3
  rw [step, e]
  refine ⟨_, _, rfl, ?_, ?_⟩
  · refine h.evaluated hx (core_congr v2) v2 rfl rfl (fill_length ..) rfl
      ⟨_, rfl, ?_, fun hl => (hh hl).scaleJac _ _ _ _⟩ ⟨rfl, v1⟩
    dsimp only
    rw [hz.nnzJac, hj]
    exact (hc.scaleJac _).1
  · refine congrArg some (Eq.symm ?_)
    dsimp only
    rw [hz.nnzJac, hj]
    refine (hc.scaleJac _).2.trans ?_
    refine (congrArg (fun v => l.user.scaleJac (raw v) _ _ _) v3).trans ?_
    exact l.user.scaleJac_congr (fun i hi => raw_fill_lt _ hi) _ _

theorem Inv.evalHes {newLambda : Bool} {lambda : Nat → K} {sigma : K} {r : State T × List K}
    (hr : step cb P past s (.evalHes newX x newLambda lambda sigma) = some r) :
    Inv cb P past (l.note P (.evalHes newX x newLambda lambda sigma)) r.1 := by
  have hz := h.sized hx.1.1
  obtain ⟨sc, hsc, hc, hh⟩ := hz.scaling
  obtain ⟨hp, hv⟩ := h.point hx hc
  have e := NLP.solverEvalHes_eq (virtuals cb P past) hsc newX x newLambda lambda sigma
  rw [hp, NLP.updateUnscaleCurrLambda_eq] at e
  rw [step, e] at hr
  obtain ⟨q, hq, rfl⟩ := Option.map_eq_some_iff.mp hr
  obtain ⟨v1, v2, v3⟩ := evalHes_frame newX _ _ (h.inst_off hx.1.1) hv hq
  have hcreated : l.hes ≤ 1 → HesCreated (freshShape P l.mesh.mesh past)
      (sc.scaleHes (raw q.2) s.hes.row s.hes.col s.nnzHes).1 := by
    intro hl
    have hne : l.hes ≠ 0 := Nat.pos_iff_ne_zero.mp hx.1.2.2
    rw [hz.nnzHes, hz.hes hl, hesState, if_neg hne]
    exact (hc.scaleHes_built (hh hl) (raw q.2)).1
  have i : Inv cb P past (l.noteX newX x)
      { s with
        inst := q.1
        curr :=
          { s.curr with
            x := l.user.unscaleX x (getSizes P l.mesh.mesh).numberVars
            lambda := if newLambda then sc.scaleG lambda s.numberConstraints
              else s.curr.lambda }
        currSigmaF := sc.scaleF sigma
        currHes := q.2
        scaling := some (sc.scaleHes (raw q.2) s.hes.row s.hes.col s.nnzHes).1 } :=
    h.evaluated hx (core_congr v2) v2 rfl rfl rfl v3 ⟨_, rfl, hc.scaleHes _ _ _ _, hcreated⟩
      ⟨rfl, v1⟩
  exact ⟨i.mesh, i.factory, i.ready, fun hi => (i.sized hi).relabel _ _ _ _, i.cached⟩

end Evaluation

/-! ## Every call keeps the invariant -/

section Calls

variable [LinearOrder K]

section Keep

variable (h : Inv cb P past l s)

include h

omit [LinearOrder K] in
/-- A call that leaves the point and the buffers alone keeps what is promised of them. -/
theorem Inv.keep (hm : s'.inst.mesh = s.inst.mesh)
    (he : s'.inst.evaluationState = s.inst.evaluationState)
    (hb : s'.inst.buffers = s.inst.buffers) (hx : s'.curr.x = s.curr.x) (y : Nat → K)
    (hy : l.lastX = some y) :
    s'.curr.x = l.user.unscaleX y (getSizes P l.mesh.mesh).numberVars ∧
      Valid cb P s'.inst (raw s'.curr.x) := by
  obtain ⟨h1, h2⟩ := h.cached y hy
  rw [hx]
  refine ⟨h1, ?_⟩
  constructor <;> simp only [he, EvalAt, JacAt, hm, hb]
  · exact h2.evalF
  · exact h2.evalG
  · exact h2.gradF
  · exact h2.jacG

omit [LinearOrder K] in
/-- Calls after which nothing is promised of the evaluations before. -/
theorem Inv.forget (hc : s'.core = s.core) (hm : s'.inst.mesh = s.inst.mesh)
    (hf : s'.inst.scalingFactory = s.inst.scalingFactory) (h1 : s'.currGrad = s.currGrad)
    (h2 : s'.currG = s.currG) (h3 : s'.currJac = s.currJac) (h4 : s'.currHes = s.currHes)
    (h5 : s'.scaling = s.scaling) : Inv cb P past l.forget s' where
  mesh := hm.trans h.mesh
  factory := hf.trans h.factory
  ready := fun _ hy => (by cases hy)
  sized := fun hi => by
    have hz := (h.sized hi).of_core hc (congrArg _ h1) (congrArg _ h2) (congrArg _ h3)
      (congrArg _ h4) (h5 ▸ (h.sized hi).scaling)
    exact hz.relabel _ _ _ _
  cached := fun _ hy => (by cases hy)

/-- Every call of a solver that sets `new_x` as it should keeps the invariant. -/
theorem Inv.step {c : Call T} (hx : l.XFlagged P c) {r : State T × List K}
    (hr : step cb P past s c = some r) : Inv cb P past (l.note P c) r.1 := by
  cases c with
  | update mesh =>
    cases hr
    exact ⟨rfl, h.factory, fun _ hy => (by cases hy), fun hi => (by cases hi),
      fun _ hy => (by cases hy)⟩
  | setInitialGuess guess =>
    cases hr
    exact ⟨h.mesh, h.factory, h.ready,
      fun hi => (h.sized hi).of_core rfl rfl rfl rfl rfl (h.sized hi).scaling,
      h.keep rfl rfl rfl rfl⟩
  | setScalingFactory factory =>
    cases hr
    refine ⟨h.mesh, rfl, h.ready, fun hi => ?_, h.keep rfl rfl rfl rfl⟩
    have hz := (h.sized hi).relabel factory l.lastX l.lastLambda l.lastSigma
    exact ⟨hz.off, hz.offAccJacFg, hz.numberVars, hz.numberConstraints, hz.nnzJac, hz.nnzHes,
      hz.constDerJac, hz.jac, hz.hesBlock, hz.hes, hz.currGrad, hz.currG, hz.currJac, hz.currHes,
      hz.scaling⟩
  | getInfo =>
    cases hr
    exact ⟨h.mesh, h.factory, fun _ hy => (by cases hy),
      fun _ => Sized.getInfo cb h.mesh h.factory, fun _ hy => (by cases hy)⟩
  | getBounds =>
    obtain ⟨q, hq, rfl⟩ := Option.map_eq_some_iff.mp hr
    obtain ⟨sc, hsc, hq⟩ := Option.bind_eq_some_iff.mp hq
    cases hq
    exact ⟨h.mesh, h.factory, h.ready,
      fun hi => (h.sized hi).of_core rfl rfl rfl rfl rfl (h.sized hi).scaling,
      h.keep rfl rfl rfl rfl⟩
  | getJacSparsity =>
    cases hr
    refine ⟨h.mesh, h.factory, fun y hy => ?_, fun hi => (h.sized hi).getJacSparsity cb h.mesh,
      h.keep rfl rfl rfl rfl⟩
    have := h.ready y hy
    exact ⟨this.1, rfl, this.2.2⟩
  | getHesSparsity =>
    cases hr
    refine ⟨h.mesh, h.factory, fun y hy => ?_, fun hi => (h.sized hi).getHesSparsity cb h.mesh,
      h.keep rfl rfl rfl rfl⟩
    have := h.ready y hy
    exact ⟨this.1, this.2.1, Nat.succ_pos _⟩
  | getInitialGuess bx bl bz solver =>
    obtain ⟨i, guess, hi, e, rfl⟩ := step_getInitialGuess hr
    refine h.forget ?_ ?_ ?_ rfl rfl rfl rfl rfl <;> simp only [e]
    rfl
  | evalF newX x =>
    obtain ⟨s', v, e, hi, -⟩ := h.evalF hx
    rw [hr] at e
    cases e
    exact hi
  | evalGradF newX x =>
    obtain ⟨s', v, e, hi, -⟩ := h.evalGradF hx
    rw [hr] at e
    cases e
    exact hi
  | evalG newX x =>
    obtain ⟨s', v, e, hi, -⟩ := h.evalG hx
    rw [hr] at e
    cases e
    exact hi
  | evalJac newX x =>
    obtain ⟨s', v, e, hi, -⟩ := h.evalJac hx
    rw [hr] at e
    cases e
    exact hi
  | evalHes newX x newLambda lambda sigma => exact h.evalHes hx hr
  | finalize obj x lambda zL zU =>
    obtain ⟨q, hq, rfl⟩ := Option.map_eq_some_iff.mp hr
    obtain ⟨sc, hsc, hq⟩ := Option.bind_eq_some_iff.mp hq
    cases hq
    exact h.forget rfl rfl rfl rfl rfl rfl rfl rfl

end Keep

theorem Inv.run {cs : List (Call T)} (h : Inv cb P past l s)
    (hx : Ledger.Along P (Ledger.XFlagged P) l cs) (hr : run cb P past s cs = some s') :
    Inv cb P past (l.notes P cs) s' :=
  run_notes (fun h hx hr => h.step hx hr) h hx hr

/-- The evaluations of objective, gradient, constraints and Jacobian. -/
def Call.FirstOrder : Call T → Prop
  | .evalF _ _ => True
  | .evalGradF _ _ => True
  | .evalG _ _ => True
  | .evalJac _ _ => True
  | _ => False

theorem Inv.fresh (h : Inv cb P past l s) {c : Call T} (hc : c.FirstOrder)
    (hx : l.XFlagged P c) :
    (GDOP.step cb P past s c).map Prod.snd = GDOP.fresh cb P l.mesh.mesh past l.user c := by
  cases c with
  | evalF newX x =>
    obtain ⟨s', v, e, -, hv⟩ := h.evalF hx
    rw [e, hv]
    rfl
  | evalGradF newX x =>
    obtain ⟨s', v, e, -, hv⟩ := h.evalGradF hx
    rw [e, hv]
    rfl
  | evalG newX x =>
    obtain ⟨s', v, e, -, hv⟩ := h.evalG hx
    rw [e, hv]
    rfl
  | evalJac newX x =>
    obtain ⟨s', v, e, -, hv⟩ := h.evalJac hx
    rw [e, hv]
    rfl
  | _ => exact hc.elim

end Calls

end Run

/-- In every run that sets `new_x` as it should, from the constructor on, the values of first order
are fresh: those of the last `update` and of the scaling of the last `getInfo`, at the passed
`x`. -/
theorem first_order_fresh [LinearOrder K] (cb : Callbacks T) (P : Problem K)
    (past : Nat → Nat × Nat) (mesh : MeshPtr T) (cs : List (Call T)) (c : Call T)
    (hc : c.FirstOrder) (hx : Ledger.Along P (Ledger.XFlagged P) { mesh } (cs ++ [c]))
    {s : State T} (hr : run cb P past (State.start mesh) cs = some s) :
    (step cb P past s c).map Prod.snd =
      fresh cb P (Ledger.notes P { mesh } cs).mesh.mesh past
        (Ledger.notes P { mesh } cs).user c := by
  rw [Ledger.along_append] at hx
  exact ((Inv.start mesh).run hx.1 hr).fresh hc hx.2.1

/-! The state `x` of `minimise x(1) ^ 2 / 2` on one step of the first scheme. -/

section Terminal

/-- The entries of the first scheme. -/
def eulerTables : FLGR ℚ where
  c := fun k => [1].getD k 0
  c0 := fun k => [0, 0, 1].getD k 0
  b := fun k => [1].getD k 0
  w := fun k => [1].getD k 0
  w0 := fun k => [0, -1, 1].getD k 0
  D := fun k => [0, -1, 1, -1, 1].getD k 0

def oneStep : MeshPtr eulerTables :=
  ⟨1, Mesh.createEquidistantFixedStages eulerTables 1 1 1 Nat.one_pos Nat.one_pos⟩

def twoSteps : MeshPtr eulerTables :=
  ⟨2, Mesh.createEquidistantFixedStages eulerTables 1 2 1 Nat.two_pos Nat.one_pos⟩

def terminal : Problem ℚ where
  pc := { hasMayer := true, hasLagrange := false, xBounds := [⟨0, 9⟩], uBounds := [], pBounds := []
          x0Fixed := [none], xfFixed := [none], rBounds := [], gBounds := [] }
  full := { f := [{}], g := [] }
  boundary := { M := some { jac := { dxf := [⟨0, 0⟩] } }, r := []
                hes := { dxfDxf := [⟨0, 0, 0⟩] } }
  f_length := by decide
  g_length := by decide
  r_length := rfl

def terminalCallbacks : Callbacks eulerTables where
  fullEval := fun _ _ _ _ => 0
  fullJac := fun _ _ _ _ => 0
  fullHes := fun _ _ _ _ _ _ _ => 0
  fullPpHes := fun _ _ _ _ _ _ _ => 0
  boundaryEval := fun _ _ xuf _ _ => (xuf.elim 0 fun v => v 0) ^ 2 / 2
  boundaryJac := fun _ _ xuf _ _ => xuf.elim 0 fun v => v 0
  boundaryHes := fun _ _ _ _ mayerFactor _ _ _ => mayerFactor

/-- Sizes and patterns, then the constraints with the buffers of the objective. -/
theorem first_order_fresh_terminal : ∃ s,
    run terminalCallbacks terminal (fun _ => (0, 0)) (State.start oneStep)
      [.getInfo, .getJacSparsity, .getHesSparsity, .evalF true fun k => k] = some s ∧
    (step terminalCallbacks terminal (fun _ => (0, 0)) s (.evalG false fun k => k)).map Prod.snd =
      some [1] :=
  ⟨_, rfl, (first_order_fresh terminalCallbacks terminal (fun _ => (0, 0)) oneStep
    [.getInfo, .getJacSparsity, .getHesSparsity, .evalF true fun k => k] (.evalG false fun k => k)
    trivial (by
      refine ⟨trivial, trivial, trivial, ⟨⟨rfl, rfl, Nat.one_pos⟩, .inl rfl⟩,
        ⟨⟨rfl, rfl, Nat.one_pos⟩, .inr ⟨_, rfl, fun _ _ => rfl⟩⟩, trivial⟩) rfl).trans
    (by decide +kernel)⟩

end Terminal

end GDOP
end Moo
