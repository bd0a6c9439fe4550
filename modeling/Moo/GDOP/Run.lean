import Moo.GDOP.Instance

/-!
# GDOP.Run

Runs of the instance, and what a fresh evaluation returns.

* `Call T`, `step`, `run`: everything a user and a solver can call, in any order. A step returns
  what an evaluation writes to the solver; it is `none` where the program aborts.
* `Ledger T`: what can be said about a run from its calls alone: the current mesh, which queries
  were made since the last change of the sizes, the `x`, `lambda` and `sigma` of the evaluations
  before.
* `run_notes`, `run_keeps`: what every step preserves, a run preserves.
* `fresh`: the value of an evaluation, computed from the mesh and the arguments of the call:
  callbacks on zero buffers, no flags, no cache.
-/

namespace Moo
namespace GDOP

open Loop FixedVector NLP

inductive Call {K : Type} [Field K] (T : FLGR K) where
  | update (mesh : MeshPtr T)
  | setInitialGuess (guess : Option (PrimalDualTrajectory T))
  | setScalingFactory (factory : Option (ScalingFactory T))
  | getInfo
  | getBounds
  | getJacSparsity
  | getHesSparsity
  | getInitialGuess (initX initLambda initZ : Bool) (solver : Iterate K)
  | evalF (newX : Bool) (x : Nat → K)
  | evalGradF (newX : Bool) (x : Nat → K)
  | evalG (newX : Bool) (x : Nat → K)
  | evalJac (newX : Bool) (x : Nat → K)
  | evalHes (newX : Bool) (x : Nat → K) (newLambda : Bool) (lambda : Nat → K) (sigma : K)
  | finalize (obj : K) (x lambda zL zU : Nat → K)

abbrev State {K : Type} [Field K] (T : FLGR K) := NLP (Instance T) K

section Steps

variable {K : Type} [Field K] [LinearOrder K] {T : FLGR K} (cb : Callbacks T) (P : Problem K)
variable (past : Nat → Nat × Nat)

/-- The state after the constructor. -/
def State.start (mesh : MeshPtr T) : State T := NLP.new { mesh }

def step (s : State T) : Call T → Option (State T × List K)
  | .update mesh => some ({ s with inst := s.inst.update mesh }, [])
  | .setInitialGuess guess => some ({ s with inst := s.inst.setInitialGuess guess }, [])
  | .setScalingFactory factory => some ({ s with inst := s.inst.setScalingFactory factory }, [])
  | .getInfo => some (s.solverGetInfo (virtuals cb P past), [])
  | .getBounds => (s.solverGetBounds (virtuals cb P past)).map fun r => (r.1, [])
  | .getJacSparsity => some ((s.solverGetJacSparsity (virtuals cb P past)).1, [])
  | .getHesSparsity => some ((s.solverGetHesSparsity (virtuals cb P past)).1, [])
  | .getInitialGuess bx bl bz solver =>
    (s.solverGetInitialGuess (virtuals cb P past) bx bl bz solver).map fun r => (r.1, [])
  | .evalF newX x => (s.solverEvalF (virtuals cb P past) newX x).map fun r => (r.1, [r.2])
  | .evalGradF newX x => s.solverEvalGradF (virtuals cb P past) newX x
  | .evalG newX x => s.solverEvalG (virtuals cb P past) newX x
  | .evalJac newX x => s.solverEvalJac (virtuals cb P past) newX x
  | .evalHes newX x newLambda lambda sigma =>
    s.solverEvalHes (virtuals cb P past) newX x newLambda lambda sigma
  | .finalize obj x lambda zL zU =>
    (s.solverFinalizeSolution (virtuals cb P past) obj x lambda zL zU).map fun s => (s, [])

def run (s : State T) : List (Call T) → Option (State T)
  | [] => some s
  | c :: cs => (step cb P past s c).bind fun r => run r.1 cs

/-- What a call does to the instance. The vectors the base class hands on are left open. -/
inductive Moves (i : Instance T) : Call T → Instance T → Prop where
  | update {mesh} : Moves i (.update mesh) (i.update mesh)
  | setInitialGuess {guess} : Moves i (.setInitialGuess guess) (i.setInitialGuess guess)
  | setScalingFactory {factory} : Moves i (.setScalingFactory factory) (i.setScalingFactory factory)
  | getInfo : Moves i .getInfo ((i.getSizes P).1.getNnz P).1.getScaling.1
  | getBounds (b : BoundVectors K) : Moves i .getBounds (i.getBounds P b).1
  | getJacSparsity (p : Pattern) : Moves i .getJacSparsity (i.getJacSparsity P p).1
  | getHesSparsity (n : Nat) (p : Pattern) :
    Moves i .getHesSparsity (i.getHesSparsity P past n p).1
  | getInitialGuess {bx bl bz solver it r} (hr : i.getInitialGuess P it = some r) :
    Moves i (.getInitialGuess bx bl bz solver) r.1
  | evalF {newX x} (y : List K) : Moves i (.evalF newX x) (i.evalF cb P newX y).1
  | evalGradF {newX x} (y v : List K) : Moves i (.evalGradF newX x) (i.evalGradF cb P newX y v).1
  | evalG {newX x} (y v : List K) : Moves i (.evalG newX x) (i.evalG cb P newX y v).1
  | evalJac {newX x} (y v : List K) : Moves i (.evalJac newX x) (i.evalJacG cb P newX y v).1
  | evalHes {newX x newLambda lambda sigma y mu rho v r}
    (hr : i.evalHes cb P newX y newLambda mu rho v = some r) :
    Moves i (.evalHes newX x newLambda lambda sigma) r.1
  | finalize {obj x lambda zL zU} (it : Iterate K) :
    Moves i (.finalize obj x lambda zL zU) (i.finalizeSolution P it)

variable {cb P past}

/-- The guess is written, and the iterate that goes with it. -/
theorem step_getInitialGuess {s : State T} {bx bl bz : Bool} {solver : Iterate K}
    {r : State T × List K} (hr : step cb P past s (.getInitialGuess bx bl bz solver) = some r) :
    ∃ i guess, s.inst.getInitialGuess P s.curr = some i ∧
      i.1 = { s.inst with initialGuess := guess } ∧
      r = ({ s with inst := i.1, curr := i.2 }, []) := by
  obtain ⟨q, hq, rfl⟩ := Option.map_eq_some_iff.mp hr
  obtain ⟨sc, -, hq⟩ := Option.bind_eq_some_iff.mp hq
  obtain ⟨i, hi, hq⟩ := Option.bind_eq_some_iff.mp hq
  obtain ⟨guess, e⟩ := Instance.getInitialGuess_eq hi
  cases hq
  exact ⟨i, guess, hi, e, rfl⟩

theorem step_moves {s : State T} {c : Call T} {r : State T × List K}
    (hr : step cb P past s c = some r) : Moves cb P past s.inst c r.1.inst := by
  cases c with
  | update mesh =>
    cases hr
    exact .update
  | setInitialGuess guess =>
    cases hr
    exact .setInitialGuess
  | setScalingFactory factory =>
    cases hr
    exact .setScalingFactory
  | getInfo =>
    cases hr
    exact .getInfo
  | getBounds =>
    obtain ⟨q, hq, rfl⟩ := Option.map_eq_some_iff.mp hr
    obtain ⟨sc, -, hq⟩ := Option.bind_eq_some_iff.mp hq
    cases hq
    exact .getBounds s.bounds
  | getJacSparsity =>
    cases hr
    exact .getJacSparsity s.jac
  | getHesSparsity =>
    cases hr
    exact .getHesSparsity s.numberConstraints s.hes
  | getInitialGuess bx bl bz solver =>
    obtain ⟨i, guess, hi, -, rfl⟩ := step_getInitialGuess hr
    exact .getInitialGuess hi
  | evalF newX x =>
    obtain ⟨q, hq, rfl⟩ := Option.map_eq_some_iff.mp hr
    obtain ⟨sc, -, hq⟩ := Option.bind_eq_some_iff.mp hq
    cases hq
    cases newX <;> exact .evalF _
  | evalGradF newX x =>
    obtain ⟨sc, -, hq⟩ := Option.bind_eq_some_iff.mp hr
    cases hq
    cases newX <;> exact .evalGradF _ s.currGrad
  | evalG newX x =>
    obtain ⟨sc, -, hq⟩ := Option.bind_eq_some_iff.mp hr
    cases hq
    cases newX <;> exact .evalG _ s.currG
  | evalJac newX x =>
    obtain ⟨sc, -, hq⟩ := Option.bind_eq_some_iff.mp hr
    cases hq
    cases newX <;> exact .evalJac _ s.currJac
  | evalHes newX x newLambda lambda sigma =>
    obtain ⟨sc, -, hq⟩ := Option.bind_eq_some_iff.mp hr
    obtain ⟨q, he, hq⟩ := Option.bind_eq_some_iff.mp hq
    cases hq
    cases newX <;> cases newLambda <;> exact .evalHes he
  | finalize obj x lambda zL zU =>
    obtain ⟨q, hq, rfl⟩ := Option.map_eq_some_iff.mp hr
    obtain ⟨sc, -, hq⟩ := Option.bind_eq_some_iff.mp hq
    cases hq
    exact .finalize _

end Steps

/-! ## The ledger -/

/-- `jac` and `hes` count the queries since `getInfo`; `user` is the scaling created there. What
an evaluation may rely on is forgotten when `curr_x` and `curr_lambda` are written elsewhere. -/
structure Ledger {K : Type} [Field K] (T : FLGR K) where
  mesh : MeshPtr T
  factory : Option (ScalingFactory T) := none
  user : UserScaling K := .noScaling
  info : Bool := false
  jac : Bool := false
  hes : Nat := 0
  lastX : Option (Nat → K) := none
  lastLambda : Option (Nat → K) := none
  lastSigma : Option K := none

namespace Ledger

section Notes

variable {K : Type} [Field K] {T : FLGR K} (P : Problem K) (l : Ledger T)

def forget : Ledger T := { l with lastX := none, lastLambda := none, lastSigma := none }

/-- `lastSigma` is the factor of the Hessian evaluation before, unless `x` is new since. -/
def noteX (newX : Bool) (x : Nat → K) : Ledger T :=
  { l with lastX := some x, lastSigma := if newX then none else l.lastSigma }

def note : Call T → Ledger T
  | .update mesh => { l.forget with mesh, info := false, jac := false, hes := 0 }
  | .setInitialGuess _ => l
  | .setScalingFactory factory => { l with factory }
  | .getInfo =>
    { l.forget with
      user := (l.factory.map fun f => f l.mesh.mesh (getSizes P l.mesh.mesh)).getD .noScaling
      info := true
      jac := false
      hes := 0 }
  | .getBounds => l
  | .getJacSparsity => { l with jac := true }
  | .getHesSparsity => { l with hes := l.hes + 1 }
  | .getInitialGuess _ _ _ _ => l.forget
  | .evalF newX x => l.noteX newX x
  | .evalGradF newX x => l.noteX newX x
  | .evalG newX x => l.noteX newX x
  | .evalJac newX x => l.noteX newX x
  | .evalHes newX x _ lambda sigma =>
    { l.noteX newX x with lastLambda := some lambda, lastSigma := some sigma }
  | .finalize _ _ _ _ _ => l.forget

def notes (cs : List (Call T)) : Ledger T := cs.foldl (note P) l

/-! What a solver has to respect. -/

/-- Sizes and patterns of the current mesh have been queried. -/
def Ready : Prop := l.info = true ∧ l.jac = true ∧ 0 < l.hes

/-- `new_x` is set unless `x` is that of the evaluation before. -/
def XFlag (newX : Bool) (x : Nat → K) : Prop :=
  l.Ready ∧ (newX = true ∨ ∃ y, l.lastX = some y ∧
    ∀ i, i < (getSizes P l.mesh.mesh).numberVars → x i = y i)

/-- `XFlag`, for every evaluation. -/
def XFlagged : Call T → Prop
  | .evalF newX x => l.XFlag P newX x
  | .evalGradF newX x => l.XFlag P newX x
  | .evalG newX x => l.XFlag P newX x
  | .evalJac newX x => l.XFlag P newX x
  | .evalHes newX x _ _ _ => l.XFlag P newX x
  | _ => True

/-- For a Hessian evaluation: `new_lambda` is set unless `lambda` is that of the Hessian
evaluation before, and the pattern has been queried once. -/
def LambdaFlagged : Call T → Prop
  | .evalHes _ _ newLambda lambda _ => l.hes = 1 ∧ (newLambda = true ∨ ∃ mu,
      l.lastLambda = some mu ∧
      ∀ r, r < (getSizes P l.mesh.mesh).numberConstraints → lambda r = mu r)
  | _ => True

/-- A Hessian evaluation without news has the objective factor of the one before. -/
def SameSigma : Call T → Prop
  | .evalHes newX _ newLambda _ sigma =>
    newX = false → newLambda = false → ∀ mu, l.lastSigma = some mu → sigma = mu
  | _ => True

/-- Every call of the run satisfies `R` at its turn. -/
def Along (R : Ledger T → Call T → Prop) : Ledger T → List (Call T) → Prop
  | _, [] => True
  | l, c :: cs => R l c ∧ Along R (l.note P c) cs

theorem along_append {R : Ledger T → Call T → Prop} {l : Ledger T} {cs ds : List (Call T)} :
    Along P R l (cs ++ ds) ↔ Along P R l cs ∧ Along P R (l.notes P cs) ds := by
  induction cs generalizing l with
  | nil => simp [Along, notes]
  | cons c cs ih => simp only [List.cons_append, Along, ih, and_assoc, notes, List.foldl_cons]

theorem along_and {Q R : Ledger T → Call T → Prop} {l : Ledger T} {cs : List (Call T)}
    (hq : Along P Q l cs) (hr : Along P R l cs) : Along P (fun l c => Q l c ∧ R l c) l cs := by
  induction cs generalizing l with
  | nil => trivial
  | cons c cs ih => exact ⟨⟨hq.1, hr.1⟩, ih hq.2 hr.2⟩

theorem along_of_forall {Q : Call T → Prop} {l : Ledger T} {cs : List (Call T)}
    (h : ∀ c ∈ cs, Q c) : Along P (fun _ => Q) l cs := by
  induction cs generalizing l with
  | nil => trivial
  | cons c cs ih => exact ⟨h c List.mem_cons_self, ih fun c hm => h c (List.mem_cons_of_mem _ hm)⟩

end Notes

end Ledger

/-! ## Invariants of runs -/

section Invariants

variable {K : Type} [Field K] [LinearOrder K] {T : FLGR K} {cb : Callbacks T} {P : Problem K}
variable {past : Nat → Nat × Nat} {s s' : State T} {cs : List (Call T)}

/-- What a step preserves when its call satisfies `Q` at its turn, a run preserves. -/
theorem run_notes {I : Ledger T → State T → Prop} {Q : Ledger T → Call T → Prop}
    (hstep : ∀ {l s c r}, I l s → Q l c → step cb P past s c = some r → I (l.note P c) r.1)
    {l : Ledger T} (h : I l s) (hc : Ledger.Along P Q l cs) (hr : run cb P past s cs = some s') :
    I (l.notes P cs) s' := by
  induction cs generalizing l s with
  | nil =>
    cases hr
    exact h
  | cons c cs ih =>
    obtain ⟨r, hr, hrun⟩ := Option.bind_eq_some_iff.mp hr
    exact ih (hstep h hc.1 hr) hc.2 hrun

theorem run_keeps {I : State T → Prop} {Q : Call T → Prop}
    (hstep : ∀ {s c r}, I s → Q c → step cb P past s c = some r → I r.1) (h : I s)
    (hc : ∀ c ∈ cs, Q c) (hr : run cb P past s cs = some s') : I s' :=
  run_notes (I := fun _ => I) (l := { mesh := s.inst.mesh }) hstep h
    (Ledger.along_of_forall P hc) hr

end Invariants

/-! ## Fresh evaluations -/

section Fresh

variable {K : Type} [Field K] {T : FLGR K} (cb : Callbacks T) (P : Problem K) (M : Mesh T)
variable (past : Nat → Nat × Nat)

/-- The buffers after the evaluation and the Jacobian callbacks at `x`. -/
def freshBuffers (x : Nat → K) : Buffers K :=
  let off := getSizes P M
  { Buffers.zero with
    eval := cb.fullEval M (getXXu off x) (getXP off x)
    jac := cb.fullJac M (getXXu off x) (getXP off x)
    mrEval := cb.boundaryEval M (getXX0 off x) (getXXuf off x) (getXP off x)
    mrJac := cb.boundaryJac M (getXX0 off x) (getXXuf off x) (getXP off x) }

/-- The buffers after the Hessian callbacks as well. -/
def freshHesBuffers (x lambda : Nat → K) (sigma : K) : Buffers K :=
  let off := getSizes P M
  let B := freshBuffers cb P M x
  let factors := updateLagrangeObjFactors P M sigma fun _ _ => 0
  let lambda := raw (fill off.numberConstraints (updateTransformedLambda P M off lambda))
  { B with
    hes := cb.fullHes M (getXXu off x) (getXP off x) factors (getLmbdFg off lambda) B.jac
    ppHes := cb.fullPpHes M (getXXu off x) (getXP off x) factors (getLmbdFg off lambda) B.jac
    mrHes := cb.boundaryHes M (getXX0 off x) (getXXuf off x) (getXP off x) sigma
      (getLmbdR P off lambda) B.mrJac }

def freshNnzJac : Nat := (initJacobianNonzeros P M P.pc.xSize).2

/-- Pattern and constant part of the Jacobian, written once. -/
def freshCells : Nat → JacCell K :=
  (getJacSparsity P M (getSizes P M) (initJacobianNonzeros P M P.pc.xSize).1
    fun _ => ⟨0, 0, 0⟩).cells

/-- Pattern and block tables of the Hessian, written once. -/
def freshHes : HesState := getHesSparsity P M (getSizes P M) past (fun _ => 0) fun _ => 0

def freshShape : Shape where
  numberVars := (getSizes P M).numberVars
  numberConstraints := (getSizes P M).numberConstraints
  nnzJac := freshNnzJac P M
  nnzHes := initHessianNonzeros P M P.pc.xSize
  jac :=
    { iRow := fill (freshNnzJac P M) fun k => (freshCells P M k).row
      jCol := fill (freshNnzJac P M) fun k => (freshCells P M k).col }
  hes :=
    { iRow := fill (initHessianNonzeros P M P.pc.xSize) (freshHes P M past).iRow
      jCol := fill (initHessianNonzeros P M P.pc.xSize) (freshHes P M past).jCol }

def freshJac (x : Nat → K) : Nat → K :=
  (evalJacGInternal P M (getSizes P M) (freshBuffers cb P M x)
    (initJacobianNonzeros P M P.pc.xSize).1
    (raw (fill (freshNnzJac P M) fun k => (freshCells P M k).der))).cells

/-- What the call writes to the solver, computed afresh. -/
def fresh (user : UserScaling K) : Call T → Option (List K)
  | .evalF _ x =>
    let x := raw (user.unscaleX x (getSizes P M).numberVars)
    some [user.scaleF (evalFInternal P M (freshBuffers cb P M x))]
  | .evalGradF _ x =>
    let x := raw (user.unscaleX x (getSizes P M).numberVars)
    some (user.scaleGradF (evalGradFInternal P M (getSizes P M) (freshBuffers cb P M x))
      (getSizes P M).numberVars)
  | .evalG _ x =>
    let x := raw (user.unscaleX x (getSizes P M).numberVars)
    some (user.scaleG (evalGInternal P M (getSizes P M) (freshBuffers cb P M x) x)
      (getSizes P M).numberConstraints)
  | .evalJac _ x =>
    let x := raw (user.unscaleX x (getSizes P M).numberVars)
    let N := freshShape P M past
    some (user.scaleJac (freshJac cb P M x) N.jac.row N.jac.col N.nnzJac)
  | .evalHes _ x _ lambda sigma =>
    let x := raw (user.unscaleX x (getSizes P M).numberVars)
    let lambda := raw (user.scaleG lambda (getSizes P M).numberConstraints)
    let N := freshShape P M past
    (evalHesInternal P M (getSizes P M) (freshHesBuffers cb P M x lambda (user.scaleF sigma))
      (freshHes P M past)).map fun hes => user.scaleHes hes N.hes.row N.hes.col N.nnzHes
  | _ => some []

end Fresh

end GDOP
end Moo
