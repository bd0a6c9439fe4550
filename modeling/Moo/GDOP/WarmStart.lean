import Moo.GDOP.Cache

/-!
# GDOP.WarmStart

A solution set as the initial guess.

* `Instance.getInitialGuess_back`: a trajectory finalized on the mesh is flattened to the iterate it
  was made of, and stays the guess.
* `Synced`: from `getInfo` on, sizes and scaling are those of the current mesh, whatever is called.
* `warm_start`: in any run, what a solver hands to `finalizeSolution` is what it gets back from
  `getInitialGuess`, when the solution is set as the guess and the mesh stays.
-/

namespace Moo
namespace GDOP

open Loop FixedVector NLP

variable {K : Type} [Field K] [LinearOrder K] {T : FLGR K} (cb : Callbacks T) (P : Problem K)

/-- The `PrimalDualTrajectory` of an iterate. -/
def solution (mesh : MeshPtr T) (off : Offsets) (it : Iterate K) : PrimalDualTrajectory T where
  primals := some (finalizeOptimalPrimals mesh off it.x)
  costates := some (finalizeOptimalCostates P mesh off it.lambda)
  lowerCostates := some (finalizeOptimalBoundDuals mesh off it.zLb)
  upperCostates := some (finalizeOptimalBoundDuals mesh off it.zUb)

/-- The sizes of `allocate_buffers`. -/
structure Allocated (n m : Nat) (it : Iterate K) : Prop where
  x : it.x.length = n
  lambda : it.lambda.length = m
  zLb : it.zLb.length = n
  zUb : it.zUb.length = n

/-! ## One call of the instance -/

section Guess

variable {P}

@[simp] theorem finalizeOptimalPrimals_inducingMesh (mesh : MeshPtr T) (off : Offsets)
    (v : List K) : (finalizeOptimalPrimals mesh off v).inducingMesh = some mesh := rfl

@[simp] theorem finalizeOptimalCostates_inducingMesh (mesh : MeshPtr T) (off : Offsets)
    (v : List K) : (finalizeOptimalCostates P mesh off v).inducingMesh = some mesh := rfl

@[simp] theorem finalizeOptimalBoundDuals_inducingMesh (mesh : MeshPtr T) (off : Offsets)
    (v : List K) : (finalizeOptimalBoundDuals mesh off v).inducingMesh = some mesh := rfl

/-- The guess is from this mesh, so no part of it is interpolated. -/
theorem Instance.getInitialGuess_solution (s : Instance T) (off : Offsets) (it curr : Iterate K) :
    ({ s with initialGuess := some (solution P s.mesh off it) } : Instance T).getInitialGuess P
      curr = some ({ s with initialGuess := some (solution P s.mesh off it) },
      { x := edit curr.x
          (flattenTrajectoryToLayout s.mesh s.off (finalizeOptimalPrimals s.mesh off it.x))
        lambda := edit curr.lambda
          (guessLambda P s.mesh s.off (finalizeOptimalCostates P s.mesh off it.lambda))
        zLb := edit curr.zLb fun v => transformDualsCostatesBounds s.mesh s.off false
          (flattenTrajectoryToLayout s.mesh s.off (finalizeOptimalBoundDuals s.mesh off it.zLb) v)
        zUb := edit curr.zUb fun v => transformDualsCostatesBounds s.mesh s.off false
          (flattenTrajectoryToLayout s.mesh s.off (finalizeOptimalBoundDuals s.mesh off it.zUb)
            v) }) := by
  simp [Instance.getInitialGuess, Instance.onMesh, solution]

/-- On the same layout the iterate comes back. -/
theorem getInitialGuess_back {s : Instance T} (hoff : s.off = getSizes P s.mesh.mesh)
    (hb : ∀ i j, i < s.mesh.mesh.intervals → j < s.mesh.mesh.nodesAt i →
      T.getB (s.mesh.mesh.nodesAt i) j ≠ 0) {it curr : Iterate K}
    (hg : s.initialGuess = some (solution P s.mesh (getSizes P s.mesh.mesh) it))
    (hi : Allocated (getSizes P s.mesh.mesh).numberVars
      (getSizes P s.mesh.mesh).numberConstraints it)
    (hc : Allocated (getSizes P s.mesh.mesh).numberVars
      (getSizes P s.mesh.mesh).numberConstraints curr) :
    s.getInitialGuess P curr = some (s, it) := by
  have hs : s = { s with
    initialGuess := some (solution P s.mesh (getSizes P s.mesh.mesh) it) } := by rw [← hg]
  rw [hs, Instance.getInitialGuess_solution, ← hs, hoff]
  refine congrArg some (Prod.ext rfl ?_)
  obtain ⟨x, lambda, zLb, zUb⟩ := it
  simp only [NLP.Iterate.mk.injEq]
  refine ⟨?_, ?_, ?_, ?_⟩
  · exact edit_eq (hc.x.trans hi.x.symm) fun k hk =>
      flatten_finalizePrimals P s.mesh x _ (hk.trans_eq hi.x)
  · exact edit_eq (hc.lambda.trans hi.lambda.symm) fun k hk =>
      guessLambda_finalize P s.mesh hb lambda _ (hk.trans_eq hi.lambda)
  · exact edit_eq (hc.zLb.trans hi.zLb.symm) fun k hk =>
      flatten_finalizeBoundDuals P s.mesh hb zLb _ (hk.trans_eq hi.zLb)
  · exact edit_eq (hc.zUb.trans hi.zUb.symm) fun k hk =>
      flatten_finalizeBoundDuals P s.mesh hb zUb _ (hk.trans_eq hi.zUb)

/-- A guess is written into the vectors that are there. -/
theorem Allocated.getInitialGuess {n m : Nat} {s : Instance T} {it : Iterate K}
    (h : Allocated n m it) {r : Instance T × Iterate K} (hr : s.getInitialGuess P it = some r) :
    Allocated n m r.2 := by
  have hx (o : Option (Trajectory T)) (F : Trajectory T → (Nat → K) → Nat → K) :
      Allocated n m (o.elim it fun t => { it with x := edit it.x (F t) }) := by
    cases o with
    | none => exact h
    | some t => exact ⟨(edit_length ..).trans h.x, h.lambda, h.zLb, h.zUb⟩
  have hl {it : Iterate K} (h : Allocated n m it) (o : Option (CostateTrajectory T))
      (F : CostateTrajectory T → (Nat → K) → Nat → K) :
      Allocated n m (o.elim it fun t => { it with lambda := edit it.lambda (F t) }) := by
    cases o with
    | none => exact h
    | some t => exact ⟨h.x, (edit_length ..).trans h.lambda, h.zLb, h.zUb⟩
  rw [Instance.getInitialGuess] at hr
  simp only [Option.bind_eq_bind, Option.bind_eq_some_iff] at hr
  obtain ⟨guess, -, primals, -, costates, -, hr⟩ := hr
  have k := hl (hx primals fun t => flattenTrajectoryToLayout s.mesh s.off t) costates
    fun t => guessLambda P s.mesh s.off t
  split at hr
  · simp only [Option.bind_eq_some_iff] at hr
    obtain ⟨lower, -, upper, -, hr⟩ := hr
    cases hr
    refine ⟨k.x, k.lambda, ?_, ?_⟩
    · dsimp only
      rw [edit_length]
      exact k.zLb
    · dsimp only
      rw [edit_length]
      exact k.zUb
  · cases hr
    exact k

end Guess

/-! ## Runs -/

/-- What an instance is given, and no evaluation writes. -/
def Instance.inputs (s : Instance T) :
    MeshPtr T × Option (ScalingFactory T) × Offsets × Option (PrimalDualTrajectory T) :=
  (s.mesh, s.scalingFactory, s.off, s.initialGuess)

/-- What an evaluation may write. -/
def Evaluated (i i' : Instance T) : Prop :=
  ∃ evaluationState buffers lagrangeObjFactors transformedLambda,
    i' = { i with evaluationState, buffers, lagrangeObjFactors, transformedLambda }

/-- Calls of a solver that write neither sizes nor guess. -/
def Call.Inner : Call T → Prop
  | .update _ => False
  | .setInitialGuess _ => False
  | .setScalingFactory _ => False
  | .getInfo => False
  | .getInitialGuess _ _ _ _ => False
  | _ => True

/-- What such calls leave as it is. -/
structure Frames (s s' : State T) : Prop where
  inputs : s'.inst.inputs = s.inst.inputs
  numberVars : s'.numberVars = s.numberVars
  numberConstraints : s'.numberConstraints = s.numberConstraints
  curr : Allocated s.numberVars s.numberConstraints s.curr →
    Allocated s.numberVars s.numberConstraints s'.curr
  scaling : ∀ sc, s.scaling = some sc → ∃ sc', s'.scaling = some sc' ∧ sc'.base = sc.base

section Frames

variable {cb P} {past : Nat → Nat × Nat} {s s' : State T} {i : Instance T} {x : List K}

section Evaluations

omit [LinearOrder K]

theorem Evaluated.inputs {i' : Instance T} (h : Evaluated i i') : i'.inputs = i.inputs := by
  obtain ⟨_, _, _, _, rfl⟩ := h
  rfl

theorem evalF_evaluated (newX : Bool) : Evaluated i (i.evalF cb P newX x).1 := by
  simp only [Instance.evalF]
  split <;> exact ⟨_, _, _, _, rfl⟩

theorem evalG_evaluated (newX : Bool) (v : List K) : Evaluated i (i.evalG cb P newX x v).1 := by
  simp only [Instance.evalG]
  split <;> exact ⟨_, _, _, _, rfl⟩

theorem evalGradF_evaluated (newX : Bool) (v : List K) :
    Evaluated i (i.evalGradF cb P newX x v).1 := by
  simp only [Instance.evalGradF]
  split <;> exact ⟨_, _, _, _, rfl⟩

theorem evalJacG_evaluated (newX : Bool) (v : List K) :
    Evaluated i (i.evalJacG cb P newX x v).1 := by
  simp only [Instance.evalJacG]
  split <;> exact ⟨_, _, _, _, rfl⟩

theorem evalHes_evaluated {newX newLambda : Bool} {lambda v : List K} {sigma : K}
    {r : Instance T × List K} (hr : i.evalHes cb P newX x newLambda lambda sigma v = some r) :
    Evaluated i r.1 := by
  rw [Instance.evalHes] at hr
  obtain ⟨hes, -, rfl⟩ := Option.map_eq_some_iff.mp hr
  dsimp only
  split
  · exact ⟨_, _, _, _, rfl⟩
  · split <;> exact ⟨_, _, _, _, rfl⟩

theorem unscaleX_length (scaling : Scaling K) (x : Nat → K) (n : Nat) :
    (scaling.unscaleX x n).length = n := by
  cases scaling <;> exact fill_length ..

theorem scaleG_length (scaling : Scaling K) (g : Nat → K) (n : Nat) :
    (scaling.scaleG g n).length = n := by
  cases scaling <;> exact fill_length ..

omit [Field K] in
theorem keeps_base {o : Option (Scaling K)} {sc q : Scaling K} (hsc : o = some sc)
    (hq : q.base = sc.base) : ∀ a, o = some a → ∃ b, some q = some b ∧ b.base = a.base := by
  intro a ha
  obtain rfl := Option.some_inj.mp (hsc.symm.trans ha)
  exact ⟨q, rfl, hq⟩

theorem Allocated.updateX {n m : Nat} {it : Iterate K} (h : Allocated n m it) (sc : Scaling K)
    (x : Nat → K) : Allocated n m { it with x := sc.unscaleX x n } :=
  ⟨unscaleX_length sc x n, h.lambda, h.zLb, h.zUb⟩

theorem Allocated.updateLambda {n m : Nat} {it : Iterate K} (h : Allocated n m it)
    (sc : Scaling K) (lambda : Nat → K) :
    Allocated n m { it with lambda := sc.scaleG lambda m } :=
  ⟨h.x, scaleG_length sc lambda m, h.zLb, h.zUb⟩

end Evaluations

theorem step_frames {c : Call T} (hc : c.Inner) {r : State T × List K}
    (hr : step cb P past s c = some r) : Frames s r.1 := by
  cases c with
  | getBounds =>
    obtain ⟨q, hq, rfl⟩ := Option.map_eq_some_iff.mp hr
    obtain ⟨sc, hsc, hq⟩ := Option.bind_eq_some_iff.mp hq
    cases hq
    exact ⟨rfl, rfl, rfl, id, fun sc hsc => ⟨sc, hsc, rfl⟩⟩
  | getJacSparsity =>
    cases hr
    exact ⟨rfl, rfl, rfl, id, fun sc hsc => ⟨sc, hsc, rfl⟩⟩
  | getHesSparsity =>
    cases hr
    exact ⟨rfl, rfl, rfl, id, fun sc hsc => ⟨sc, hsc, rfl⟩⟩
  | evalF newX x =>
    obtain ⟨q, hq, rfl⟩ := Option.map_eq_some_iff.mp hr
    obtain ⟨sc, hsc, hq⟩ := Option.bind_eq_some_iff.mp hq
    cases hq
    cases newX with
    | false =>
      exact ⟨(evalF_evaluated (P := P) _).inputs, rfl, rfl, id, fun sc hsc => ⟨sc, hsc, rfl⟩⟩
    | true =>
      exact ⟨(evalF_evaluated (P := P) _).inputs, rfl, rfl, fun h => h.updateX sc x,
        fun sc hsc => ⟨sc, hsc, rfl⟩⟩
  | evalGradF newX x =>
    obtain ⟨sc, hsc, hq⟩ := Option.bind_eq_some_iff.mp hr
    cases hq
    have hb {grad n} := keeps_base hsc (scaleGradF_base sc grad n)
    cases newX with
    | false => exact ⟨(evalGradF_evaluated (P := P) _ s.currGrad).inputs, rfl, rfl, id, hb⟩
    | true =>
      exact ⟨(evalGradF_evaluated (P := P) _ s.currGrad).inputs, rfl, rfl,
        fun h => h.updateX sc x, hb⟩
  | evalG newX x =>
    obtain ⟨sc, hsc, hq⟩ := Option.bind_eq_some_iff.mp hr
    cases hq
    cases newX with
    | false =>
      exact ⟨(evalG_evaluated (P := P) _ s.currG).inputs, rfl, rfl, id,
        fun sc hsc => ⟨sc, hsc, rfl⟩⟩
    | true =>
      exact ⟨(evalG_evaluated (P := P) _ s.currG).inputs, rfl, rfl, fun h => h.updateX sc x,
        fun sc hsc => ⟨sc, hsc, rfl⟩⟩
  | evalJac newX x =>
    obtain ⟨sc, hsc, hq⟩ := Option.bind_eq_some_iff.mp hr
    cases hq
    have hb {jac row col nnz} := keeps_base hsc (scaleJac_base sc jac row col nnz)
    cases newX with
    | false => exact ⟨(evalJacG_evaluated (P := P) _ s.currJac).inputs, rfl, rfl, id, hb⟩
    | true =>
      exact ⟨(evalJacG_evaluated (P := P) _ s.currJac).inputs, rfl, rfl,
        fun h => h.updateX sc x, hb⟩
  | evalHes newX x newLambda lambda sigma =>
    obtain ⟨sc, hsc, hq⟩ := Option.bind_eq_some_iff.mp hr
    obtain ⟨q, he, hq⟩ := Option.bind_eq_some_iff.mp hq
    cases hq
    have hi := (evalHes_evaluated he).inputs
    have hb {hes row col nnz} := keeps_base hsc (scaleHes_base sc hes row col nnz)
    cases newX <;> cases newLambda
    · exact ⟨hi, rfl, rfl, id, hb⟩
    · exact ⟨hi, rfl, rfl, fun h => h.updateLambda sc lambda, hb⟩
    · exact ⟨hi, rfl, rfl, fun h => h.updateX sc x, hb⟩
    · exact ⟨hi, rfl, rfl, fun h => (h.updateX sc x).updateLambda sc lambda, hb⟩
  | finalize obj x lambda zL zU =>
    obtain ⟨q, hq, rfl⟩ := Option.map_eq_some_iff.mp hr
    obtain ⟨sc, hsc, hq⟩ := Option.bind_eq_some_iff.mp hq
    cases hq
    exact ⟨rfl, rfl, rfl, fun h => ⟨unscaleX_length .., scaleG_length .., unscaleX_length ..,
      unscaleX_length ..⟩, fun sc hsc => ⟨sc, hsc, rfl⟩⟩
  | _ => exact hc.elim

end Frames

section Synced

/-- What `getInfo` sets up, for the mesh and the scaling `user`. -/
structure Opened (mesh : Mesh T) (user : UserScaling K) (s : State T) : Prop where
  off : s.inst.off = getSizes P mesh
  numberVars : s.numberVars = (getSizes P mesh).numberVars
  numberConstraints : s.numberConstraints = (getSizes P mesh).numberConstraints
  curr : Allocated s.numberVars s.numberConstraints s.curr
  scaling : ∃ sc, s.scaling = some sc ∧ sc.base = user.create

structure Synced (l : Ledger T) (s : State T) : Prop where
  mesh : s.inst.mesh = l.mesh
  factory : s.inst.scalingFactory = l.factory
  opened : l.info = true → Opened P l.mesh.mesh l.user s

variable {cb P} {past : Nat → Nat × Nat} {l : Ledger T} {s s' : State T}

omit [LinearOrder K] in
theorem Opened.frames {mesh : Mesh T} {user : UserScaling K} (h : Opened P mesh user s)
    (f : Frames s s') : Opened P mesh user s' where
  off := (congrArg (fun t => t.2.2.1) f.inputs :).trans h.off
  numberVars := f.numberVars.trans h.numberVars
  numberConstraints := f.numberConstraints.trans h.numberConstraints
  curr := by
    rw [f.numberVars, f.numberConstraints]
    exact f.curr h.curr
  scaling := by
    obtain ⟨sc, hsc, hb⟩ := h.scaling
    obtain ⟨sc', hsc', hb'⟩ := f.scaling sc hsc
    exact ⟨sc', hsc', hb'.trans hb⟩

variable (cb past) in
theorem opened_getInfo (hm : s.inst.mesh = l.mesh) (hf : s.inst.scalingFactory = l.factory) :
    Opened P l.mesh.mesh (l.note P .getInfo).user (s.solverGetInfo (virtuals cb P past)) := by
  refine ⟨?_, ?_, ?_, ⟨fill_length .., fill_length .., fill_length .., fill_length ..⟩, _, rfl, ?_⟩
  · rw [← hm]
    rfl
  · rw [← hm]
    rfl
  · rw [← hm]
    rfl
  · simp only [Ledger.note, NLP.allocateBuffers, NLP.allocateSparsityBuffers, hf, hm]
    cases l.factory with
    | none => rfl
    | some f => exact UserScaling.create_base _

/-- Whatever is called. -/
theorem Synced.step (h : Synced P l s) {c : Call T} {r : State T × List K}
    (hr : step cb P past s c = some r) : Synced P (l.note P c) r.1 := by
  have inner (hc : c.Inner) : Synced P (l.note P c) r.1 := by
    have f := step_frames hc hr
    have hl : (l.note P c).mesh = l.mesh ∧ (l.note P c).factory = l.factory ∧
        (l.note P c).user = l.user ∧ (l.note P c).info = l.info := by
      cases c <;> first | exact ⟨rfl, rfl, rfl, rfl⟩ | exact hc.elim
    obtain ⟨e1, e2, e3, e4⟩ := hl
    refine ⟨?_, ?_, fun hi => ?_⟩
    · rw [e1]
      exact (congrArg (fun t => t.1) f.inputs :).trans h.mesh
    · rw [e2]
      exact (congrArg (fun t => t.2.1) f.inputs :).trans h.factory
    · rw [e1, e3]
      exact (h.opened (e4.symm.trans hi)).frames f
  cases c with
  | update mesh =>
    cases hr
    exact ⟨rfl, h.factory, fun hi => (by cases hi)⟩
  | setInitialGuess guess =>
    cases hr
    exact ⟨h.mesh, h.factory, fun hi =>
      ⟨(h.opened hi).off, (h.opened hi).numberVars, (h.opened hi).numberConstraints,
        (h.opened hi).curr, (h.opened hi).scaling⟩⟩
  | setScalingFactory factory =>
    cases hr
    exact ⟨h.mesh, rfl, fun hi =>
      ⟨(h.opened hi).off, (h.opened hi).numberVars, (h.opened hi).numberConstraints,
        (h.opened hi).curr, (h.opened hi).scaling⟩⟩
  | getInfo =>
    cases hr
    exact ⟨h.mesh, h.factory, fun _ => opened_getInfo cb past h.mesh h.factory⟩
  | getInitialGuess bx bl bz solver =>
    obtain ⟨i, guess, hi, e, rfl⟩ := step_getInitialGuess hr
    refine ⟨?_, ?_, fun ho => ⟨?_, (h.opened ho).numberVars, (h.opened ho).numberConstraints,
      (h.opened ho).curr.getInitialGuess hi, (h.opened ho).scaling⟩⟩
    · exact (congrArg Instance.mesh e).trans h.mesh
    · exact (congrArg Instance.scalingFactory e).trans h.factory
    · exact (congrArg Instance.off e).trans (h.opened ho).off
  | _ => exact inner trivial

section Sizes

variable (h : Synced P l s) (hi : l.info = true)

include h hi

omit [LinearOrder K] in
theorem Synced.off : s.inst.off = getSizes P s.inst.mesh.mesh := by
  rw [(h.opened hi).off, h.mesh]

omit [LinearOrder K] in
theorem Synced.sizes : s.numberVars = (getSizes P s.inst.mesh.mesh).numberVars ∧
    s.numberConstraints = (getSizes P s.inst.mesh.mesh).numberConstraints := by
  rw [h.mesh]
  exact ⟨(h.opened hi).numberVars, (h.opened hi).numberConstraints⟩

end Sizes

theorem Synced.run {cs : List (Call T)} (h : Synced P l s) (hr : run cb P past s cs = some s') :
    Synced P (l.notes P cs) s' :=
  run_notes (fun h _ hr => h.step hr) h (Ledger.along_of_forall P fun _ _ => trivial) hr

end Synced

/-! ## The guess that was set -/

section Kept

variable {cb P} {past : Nat → Nat × Nat} {s s' : State T}

def Call.KeepsGuess : Call T → Prop
  | .update _ => False
  | .setInitialGuess _ => False
  | _ => True

theorem Moves.guess {off : Offsets} {it : Iterate K} {i i' : Instance T} {c : Call T}
    (h : Moves cb P past i c i') (hc : c.KeepsGuess)
    (hg : i.initialGuess = some (solution P i.mesh off it)) :
    i'.mesh = i.mesh ∧ i'.initialGuess = i.initialGuess := by
  have kept (e : Evaluated i i') : i'.mesh = i.mesh ∧ i'.initialGuess = i.initialGuess :=
    ⟨(congrArg (fun t => t.1) e.inputs :), (congrArg (fun t => t.2.2.2) e.inputs :)⟩
  cases h with
  | update => exact hc.elim
  | setInitialGuess => exact hc.elim
  | @getInitialGuess _ _ _ _ curr _ hr =>
    have e := Instance.getInitialGuess_solution (P := P) i off it curr
    rw [← hg, hr] at e
    cases e
    exact ⟨rfl, rfl⟩
  | evalF y => exact kept (evalF_evaluated (P := P) _)
  | evalGradF y v => exact kept (evalGradF_evaluated (P := P) _ v)
  | evalG y v => exact kept (evalG_evaluated (P := P) _ v)
  | evalJac y v => exact kept (evalJacG_evaluated (P := P) _ v)
  | evalHes hr => exact kept (evalHes_evaluated hr)
  | _ => exact ⟨rfl, rfl⟩

theorem guess_run {off : Offsets} {it : Iterate K} {ds : List (Call T)}
    (hc : ∀ c ∈ ds, c.KeepsGuess)
    (h : s.inst.initialGuess = some (solution P s.inst.mesh off it))
    (hr : run cb P past s ds = some s') :
    s'.inst.mesh = s.inst.mesh ∧ s'.inst.initialGuess = s.inst.initialGuess := by
  refine run_keeps (I := fun t => t.inst.mesh = s.inst.mesh ∧
    t.inst.initialGuess = s.inst.initialGuess) ?_ ⟨rfl, rfl⟩ hc hr
  rintro t c r ⟨hm, hg⟩ hk ht
  obtain ⟨h1, h2⟩ := (step_moves ht).guess hk (by rw [hg, hm, h])
  exact ⟨h1.trans hm, h2.trans hg⟩

omit [LinearOrder K] in
theorem info_kept {l : Ledger T} (hl : l.info = true) {ds : List (Call T)}
    (hc : ∀ c ∈ ds, c.KeepsGuess) : (l.notes P ds).info = true := by
  induction ds generalizing l with
  | nil => exact hl
  | cons c ds ih =>
    refine ih ?_ fun c hm => hc c (List.mem_cons_of_mem _ hm)
    have h := hc c List.mem_cons_self
    cases c <;> first | exact hl | exact h.elim | rfl

end Kept

/-- The iterate that `finalizeSolution` is handed. -/
def unscaledIterate (scaling : Scaling K) (n m : Nat) (x lambda zL zU : Nat → K) : Iterate K where
  x := scaling.unscaleX x n
  lambda := scaling.scaleG lambda m
  zLb := scaling.unscaleX zL n
  zUb := scaling.unscaleX zU n

omit [LinearOrder K] in
theorem unscaledIterate_allocated (scaling : Scaling K) (n m : Nat) (x lambda zL zU : Nat → K) :
    Allocated n m (unscaledIterate scaling n m x lambda zL zU) :=
  ⟨unscaleX_length .., scaleG_length .., unscaleX_length .., unscaleX_length ..⟩

theorem step_finalize {past : Nat → Nat × Nat} {s : State T} {sc : Scaling K}
    (hsc : s.scaling = some sc) (obj : K) (x lambda zL zU : Nat → K) :
    ∃ s₁, step cb P past s (.finalize obj x lambda zL zU) = some (s₁, []) ∧
      s₁.inst = s.inst.finalizeSolution P
        (unscaledIterate sc s.numberVars s.numberConstraints x lambda zL zU) :=
  ⟨_, congrArg (Option.map fun s => (s, []))
    (NLP.solverFinalizeSolution_eq (virtuals cb P past) hsc obj x lambda zL zU), rfl⟩

/-- A solve with nominal scaling: a nonzero nominal for every variable and every constraint. -/
structure NominalSolve (P : Problem K) (l : Ledger T) (nom : Nominals K) : Prop where
  info : l.info = true
  user : l.user = .nominal nom
  x_length : nom.x.length = (getSizes P l.mesh.mesh).numberVars
  g_length : nom.g.length = (getSizes P l.mesh.mesh).numberConstraints
  x_ne : ∀ v ∈ nom.x, v ≠ 0
  g_ne : ∀ v ∈ nom.g, v ≠ 0

/-- The guess is the solution of an iterate: the solver gets the iterate as it handed it over. -/
theorem solverGetInitialGuess_back {past : Nat → Nat × Nat} {l : Ledger T} {s : State T}
    (h : Synced P l s) {nom : Nominals K} (hn : NominalSolve P l nom)
    (hb : ∀ i j, i < s.inst.mesh.mesh.intervals → j < s.inst.mesh.mesh.nodesAt i →
      T.getB (s.inst.mesh.mesh.nodesAt i) j ≠ 0)
    {sc : Scaling K} (hsc : sc.base = nom.scaling) {x lambda zL zU : Nat → K}
    (hg : s.inst.initialGuess = some (solution P s.inst.mesh (getSizes P s.inst.mesh.mesh)
      (unscaledIterate sc s.numberVars s.numberConstraints x lambda zL zU)))
    (solver : Iterate K) :
    ∃ s', s.solverGetInitialGuess (virtuals cb P past) true true true solver =
      some (s',
        { x := fill s.numberVars x
          lambda := fill s.numberConstraints lambda
          zLb := fill s.numberVars zL
          zUb := fill s.numberVars zU }) := by
  have ho := h.opened hn.info
  obtain ⟨sc', hsc', hbase⟩ := ho.scaling
  rw [hn.user] at hbase
  obtain ⟨h1, h2⟩ := h.sizes hn.info
  have halloc := ho.curr
  have hit : Allocated (getSizes P s.inst.mesh.mesh).numberVars
      (getSizes P s.inst.mesh.mesh).numberConstraints
      (unscaledIterate sc s.numberVars s.numberConstraints x lambda zL zU) := by
    rw [← h1, ← h2]
    exact unscaledIterate_allocated ..
  rw [h1, h2] at halloc
  have e := NLP.solverGetInitialGuess_eq (virtuals cb P past) hsc' true true true solver
  rw [show (virtuals cb P past).getInitialGuess true true true s.curr s.inst = _ from
    getInitialGuess_back (h.off hn.info) hb hg hit halloc] at e
  refine ⟨_, e.trans (congrArg some (Prod.ext rfl ?_))⟩
  -- unscaled with `sc`, scaled with `sc'`
  have hx : nom.x.length = s.numberVars := hn.x_length.trans ho.numberVars.symm
  have hc : nom.g.length = s.numberConstraints := hn.g_length.trans ho.numberConstraints.symm
  have ex (v : Nat → K) : sc'.inplaceScaleX (sc.unscaleX v s.numberVars) =
      fill s.numberVars v := by
    rw [← hx]
    exact inplaceScaleX_unscaleX hsc hbase hn.x_ne v
  have eg : sc'.unscaleG (raw (sc.scaleG lambda s.numberConstraints)) s.numberConstraints =
      fill s.numberConstraints lambda := by
    rw [← hc]
    exact unscaleG_scaleG hsc hbase hn.g_ne lambda
  simp only [if_true, NLP.unscaleCurrLambda, unscaledIterate, ex, eg]

/-- What is finalized after the calls `cs` comes back after the calls `ds`, if the solution was set
as the guess in between and the solve that asks for it has the same mesh and the same scaling. -/
theorem warm_start (cb : Callbacks T) (P : Problem K) (past : Nat → Nat × Nat) (mesh : MeshPtr T)
    (cs : List (Call T)) {s : State T} (hr : run cb P past (State.start mesh) cs = some s)
    {nom : Nominals K} (hn : NominalSolve P (Ledger.notes P { mesh } cs) nom)
    (hb : ∀ i j, i < s.inst.mesh.mesh.intervals → j < s.inst.mesh.mesh.nodesAt i →
      T.getB (s.inst.mesh.mesh.nodesAt i) j ≠ 0) (obj : K) (x lambda zL zU : Nat → K) :
    ∃ s₁, step cb P past s (.finalize obj x lambda zL zU) = some (s₁, []) ∧
      ∀ (ds : List (Call T)) (s₂ : State T), (∀ c ∈ ds, c.KeepsGuess) →
        (Ledger.notes P (Ledger.notes P { mesh } cs).forget ds).user = .nominal nom →
        run cb P past s₁ (.setInitialGuess s₁.inst.optimalSolution :: ds) = some s₂ →
        ∀ solver, ∃ s₃, s₂.solverGetInitialGuess (virtuals cb P past) true true true solver =
          some (s₃,
            { x := fill s.numberVars x
              lambda := fill s.numberConstraints lambda
              zLb := fill s.numberVars zL
              zUb := fill s.numberVars zU }) := by
  have hs := Synced.run (P := P) (l := { mesh }) ⟨rfl, rfl, fun hi => (by cases hi)⟩ hr
  obtain ⟨sc, hsc, hbase⟩ := (hs.opened hn.info).scaling
  rw [hn.user] at hbase
  obtain ⟨s₁, hstep, hinst⟩ := step_finalize cb P hsc obj x lambda zL zU
  refine ⟨s₁, hstep, fun ds s₂ hds hu hr₂ solver => ?_⟩
  obtain ⟨r, hset, hr₂⟩ := Option.bind_eq_some_iff.mp hr₂
  have hs₂ : Synced P (Ledger.notes P (Ledger.notes P { mesh } cs).forget ds) s₂ :=
    ((hs.step hstep).step hset).run hr₂
  cases hset
  -- the guess that is set stays
  have hguess : s₁.inst.optimalSolution = some (solution P s₁.inst.mesh s.inst.off
      (unscaledIterate sc s.numberVars s.numberConstraints x lambda zL zU)) := by
    rw [hinst]
    rfl
  obtain ⟨hm, hg⟩ := guess_run hds hguess hr₂
  replace hm : s₂.inst.mesh = s.inst.mesh := hm.trans (congrArg Instance.mesh hinst :)
  replace hg := hg.trans hguess
  rw [show s₁.inst.mesh = s.inst.mesh from (congrArg Instance.mesh hinst :), ← hm] at hg
  -- and so do sizes and scaling
  have hinfo := info_kept (P := P) (l := (Ledger.notes P { mesh } cs).forget) hn.info hds
  obtain ⟨h1, h2⟩ := hs.sizes hn.info
  obtain ⟨h3, h4⟩ := hs₂.sizes hinfo
  have hmesh : (Ledger.notes P (Ledger.notes P { mesh } cs).forget ds).mesh =
      (Ledger.notes P { mesh } cs).mesh := by rw [← hs₂.mesh, hm, hs.mesh]
  have hn₂ : NominalSolve P (Ledger.notes P (Ledger.notes P { mesh } cs).forget ds) nom :=
    ⟨hinfo, hu, hmesh ▸ hn.x_length, hmesh ▸ hn.g_length, hn.x_ne, hn.g_ne⟩
  rw [hm, ← h1] at h3
  rw [hm, ← h2] at h4
  rw [hs.off hn.info, ← hm, ← h3, ← h4] at hg
  rw [← hm] at hb
  rw [← h3, ← h4]
  exact solverGetInitialGuess_back cb P hs₂ hn₂ hb hbase hg solver

/-! The solution of one solve as the guess of the next. -/

section Terminal

def terminalNominals : Nominals ℚ := ⟨[2, 4], [3], 5⟩

def nominalInfo : List (Call eulerTables) :=
  [.setScalingFactory (some fun _ _ => .nominal terminalNominals), .getInfo]

theorem warm_start_terminal : ∃ s s₁ s₂ s₃,
    run terminalCallbacks terminal (fun _ => (0, 0)) (State.start oneStep) nominalInfo = some s ∧
    step terminalCallbacks terminal (fun _ => (0, 0)) s
      (.finalize 0 (fun k => k + 1) (fun _ => 7) (fun k => k) (fun _ => 1)) = some (s₁, []) ∧
    run terminalCallbacks terminal (fun _ => (0, 0)) s₁
      [.setInitialGuess s₁.inst.optimalSolution, .getInfo] = some s₂ ∧
    s₂.solverGetInitialGuess (virtuals terminalCallbacks terminal fun _ => (0, 0)) true true true
      {} = some (s₃, { x := [1, 2], lambda := [7], zLb := [0, 1], zUb := [1, 1] }) := by
  have hn : NominalSolve terminal (Ledger.notes terminal { mesh := oneStep } nominalInfo)
      terminalNominals :=
    ⟨rfl, rfl, rfl, rfl, by decide +kernel, by decide +kernel⟩
  obtain ⟨s₁, h1, h2⟩ := warm_start terminalCallbacks terminal (fun _ => (0, 0)) oneStep
    nominalInfo rfl hn (by
      intro i j hi hj
      obtain rfl : i = 0 := Nat.lt_one_iff.mp hi
      obtain rfl : j = 0 := Nat.lt_one_iff.mp hj
      decide +kernel) 0 (fun k => k + 1) (fun _ => 7) (fun k => k) (fun _ => 1)
  obtain ⟨s₃, h3⟩ := h2 [.getInfo] _ (by simp [Call.KeepsGuess]) rfl rfl {}
  refine ⟨_, s₁, _, s₃, rfl, h1, rfl, h3.trans (congrArg some (Prod.ext rfl ?_))⟩
  simp only [NLP.Iterate.mk.injEq]
  exact ⟨by decide +kernel, by decide +kernel, by decide +kernel, by decide +kernel⟩

end Terminal

end GDOP
end Moo
