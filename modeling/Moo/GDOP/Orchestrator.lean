import Moo.GDOP.Strategies
import Moo.GDOP.WarmStart

/-!
# GDOP.Orchestrator

`MeshRefinementOrchestrator::optimize`: solve, refine the mesh, set the interpolated solution as
the next guess, until there is no update.

A run is a list of events. What the solver does is given by the calls it makes in each of its
solves. A solution is passed on by dereferencing `optimal_solution`, which only
`finalizeSolution` writes.

* `optimize_refines`: with a solver that finalizes every solve, the loop ends within the
  iterations of the refinement strategy, on meshes that only get finer, and every later guess is
  from the mesh of its solve.
* `solutions_fresh`: the strategies see a solution of the current mesh exactly when every solve
  that returns has finalized one.
-/

namespace Moo
namespace GDOP

open Loop FixedVector NLP Partition

structure Strategies {K : Type} [Field K] (T : FLGR K) where
  initialization : State T → Option (PrimalDualTrajectory T)
  scalingFactory : Option (ScalingFactory T)
  meshRefinement : L2BoundaryNorm K
  refinedInitialization : InterpolationRefinedInitialization T

/-- What happens outside of the solver: a guess is set, a solve has returned after some calls, a
strategy is passed the solution. Each with the mesh of GDOP at its time. -/
inductive Event {K : Type} [Field K] (T : FLGR K) where
  | setInitialGuess (mesh : MeshPtr T) (guess : Option (PrimalDualTrajectory T))
  | solved (calls : List (Call T))
  | detect (mesh : MeshPtr T) (solution : Option (PrimalDualTrajectory T))
  | getRefinedInitialGuess (mesh : MeshPtr T) (solution : Option (PrimalDualTrajectory T))
  | verify (mesh : MeshPtr T) (solution : Option (PrimalDualTrajectory T))
  | emit (mesh : MeshPtr T) (solution : Option (PrimalDualTrajectory T))

/-- How a run ends: by `break`, in a call of the solver that has no result, or at a null pointer. -/
inductive Ending where
  | finished | aborted | crashed | outOfFuel
  deriving Repr, DecidableEq

/-- What a pass of the loop leads to. -/
inductive Next {K : Type} [Field K] (T : FLGR K) where
  | again (s : State T) (N : L2BoundaryNorm K) (initialGuess : Option (PrimalDualTrajectory T))
  | exit (ending : Ending)

section Optimize

variable {K : Type} [Field K] [LinearOrder K] {T : FLGR K} (cb : Callbacks T) (P : Problem K)
variable (past : Nat → Nat × Nat) (sqrt : K → K) (pow : K → K → K) (S : Strategies T)

/-- After a solve; `addr` is where a refined mesh would be allocated. -/
def refine (addr : Nat) (s : State T) (N : L2BoundaryNorm K) : List (Event T) × Next T :=
  let mesh := s.inst.mesh
  let solution := s.inst.optimalSolution
  match solution.bind (N.apply mesh.mesh sqrt pow) with
  | none => ([.detect mesh solution], .exit .crashed)
  | some (_, none) =>
    ([.detect mesh solution, .verify mesh solution, .emit mesh solution], .exit .finished)
  | some (N, some meshUpdate) =>
    let refinedMesh : MeshPtr T := ⟨addr, Mesh.createFromMeshUpdate T meshUpdate⟩
    ([.detect mesh solution, .getRefinedInitialGuess mesh solution],
      match solution.bind (S.refinedInitialization.apply mesh.mesh refinedMesh) with
      | none => .exit .crashed
      | some initialGuess =>
        .again { s with inst := s.inst.update refinedMesh } N (some initialGuess))

/-- The body of the loop; `calls` are those of `solver.optimize()`. -/
def pass (calls : List (Call T)) (addr : Nat) (s : State T) (N : L2BoundaryNorm K)
    (initialGuess : Option (PrimalDualTrajectory T)) : List (Event T) × Next T :=
  let set := Event.setInitialGuess s.inst.mesh initialGuess
  match run cb P past { s with inst := s.inst.setInitialGuess initialGuess } calls with
  | none => ([set], .exit .aborted)
  | some s =>
    let r := refine sqrt pow S addr s N
    (set :: .solved calls :: r.1, r.2)

variable (solves : Nat → List (Call T)) (alloc : Nat → Nat)

/-- `k` counts the passes. -/
def loop : Nat → Nat → State T → L2BoundaryNorm K → Option (PrimalDualTrajectory T) →
    List (Event T) × Ending
  | 0, _, _, _, _ => ([], .outOfFuel)
  | fuel + 1, k, s, N, initialGuess =>
    match pass cb P past sqrt pow S (solves k) (alloc k) s N initialGuess with
    | (events, .exit ending) => (events, ending)
    | (events, .again s N initialGuess) =>
      let r := loop fuel (k + 1) s N initialGuess
      (events ++ r.1, r.2)

def optimize (fuel : Nat) (s : State T) : List (Event T) × Ending :=
  let N := S.meshRefinement.reset s.inst.mesh.mesh P.pc.uSize
  let initialGuess := S.initialization s
  let s := { s with inst := s.inst.setScalingFactory S.scalingFactory }
  loop cb P past sqrt pow S solves alloc fuel 0 s N initialGuess

end Optimize

/-! ## One solve -/

section Solve

variable {K : Type} [Field K] [LinearOrder K] {T : FLGR K} (P : Problem K)

def Call.IsFinalize : Call T → Prop
  | .finalize _ _ _ _ _ => True
  | _ => False

/-- A solve that hands over a solution after asking for the sizes. -/
def Finalizes (calls : List (Call T)) : Prop :=
  ∃ before after c, calls = before ++ c :: after ∧ c.IsFinalize ∧ Call.getInfo ∈ before

/-- The two outcomes of a solve. The mesh and the guess are not the solver's. -/
structure Outcome (calls : List (Call T)) : Prop where
  keeps : ∀ c ∈ calls, c.KeepsGuess
  finalizes : Finalizes calls ∨ ∀ c ∈ calls, ¬ c.IsFinalize

/-- The solution of an iterate on the mesh. -/
def FinalizedOn (mesh : MeshPtr T) (solution' : Option (PrimalDualTrajectory T)) : Prop :=
  ∃ it, solution' = some (solution P mesh (getSizes P mesh.mesh) it)

variable {P} {cb : Callbacks T} {past : Nat → Nat × Nat} {l : Ledger T} {s s' : State T}

omit [LinearOrder K] in
theorem Evaluated.optimalSolution {i i' : Instance T} (h : Evaluated i i') :
    i'.optimalSolution = i.optimalSolution := by
  obtain ⟨_, _, _, _, rfl⟩ := h
  rfl

/-- Only `finalize` writes the solution. -/
theorem Moves.optimalSolution {i i' : Instance T} {c : Call T} (h : Moves cb P past i c i')
    (hc : ¬ c.IsFinalize) : i'.optimalSolution = i.optimalSolution := by
  cases h with
  | getInitialGuess hr =>
    obtain ⟨guess, e⟩ := Instance.getInitialGuess_eq hr
    exact (congrArg Instance.optimalSolution e :)
  | evalF y => exact (evalF_evaluated (P := P) _).optimalSolution
  | evalGradF y v => exact (evalGradF_evaluated (P := P) _ v).optimalSolution
  | evalG y v => exact (evalG_evaluated (P := P) _ v).optimalSolution
  | evalJac y v => exact (evalJacG_evaluated (P := P) _ v).optimalSolution
  | evalHes hr => exact (evalHes_evaluated hr).optimalSolution
  | finalize it => exact absurd trivial hc
  | _ => rfl

theorem optimalSolution_run {calls : List (Call T)} (hc : ∀ c ∈ calls, ¬ c.IsFinalize)
    (hr : run cb P past s calls = some s') : s'.inst.optimalSolution = s.inst.optimalSolution :=
  run_keeps (I := fun t => t.inst.optimalSolution = s.inst.optimalSolution)
    (fun h hc hr => ((step_moves hr).optimalSolution hc).trans h) rfl hc hr

theorem finalize_step (h : Synced P l s) (hi : l.info = true) {c : Call T} (hc : c.IsFinalize)
    {r : State T × List K} (hr : step cb P past s c = some r) :
    FinalizedOn P l.mesh r.1.inst.optimalSolution := by
  cases c with
  | finalize obj x lambda zL zU =>
    obtain ⟨sc, hsc, -⟩ := (h.opened hi).scaling
    obtain ⟨s₁, hstep, hinst⟩ := step_finalize cb P hsc obj x lambda zL zU
    cases hstep.symm.trans hr
    rw [hinst, ← h.mesh]
    exact ⟨_, congrArg (fun off => some (solution P s.inst.mesh off _)) (h.off hi)⟩
  | _ => exact hc.elim

/-- From `getInfo` on, a solution of the mesh stays one. -/
theorem finalizedOn_run {calls : List (Call T)} (h : Synced P l s) (hi : l.info = true)
    (hc : ∀ c ∈ calls, c.KeepsGuess) (hf : FinalizedOn P l.mesh s.inst.optimalSolution)
    (hr : run cb P past s calls = some s') : FinalizedOn P l.mesh s'.inst.optimalSolution := by
  refine (run_notes (I := fun k t => Synced P k t ∧ k.info = true ∧ k.mesh = l.mesh ∧
    FinalizedOn P l.mesh t.inst.optimalSolution) (Q := fun _ c => c.KeepsGuess) ?_
    ⟨h, hi, rfl, hf⟩ (Ledger.along_of_forall P hc) hr).2.2.2
  rintro k t c r ⟨h, hi, hm, hf⟩ hk hr
  refine ⟨h.step hr, ?_, ?_, ?_⟩
  · cases c <;> first | exact hi | exact hk.elim | rfl
  · cases c <;> first | exact hm | exact hk.elim
  · by_cases hfin : c.IsFinalize
    · exact hm ▸ finalize_step h hi hfin hr
    · rw [(step_moves hr).optimalSolution hfin]
      exact hf

omit [LinearOrder K] in
theorem notes_keeps {calls : List (Call T)} (hc : ∀ c ∈ calls, c.KeepsGuess) :
    (l.notes P calls).mesh = l.mesh := by
  induction calls generalizing l with
  | nil => rfl
  | cons c calls ih =>
    refine (ih fun c hm => hc c (List.mem_cons_of_mem _ hm)).trans ?_
    have h := hc c List.mem_cons_self
    cases c <;> first | rfl | exact h.elim

omit [LinearOrder K] in
theorem notes_info {calls : List (Call T)} (hc : ∀ c ∈ calls, c.KeepsGuess)
    (hi : Call.getInfo ∈ calls) : (l.notes P calls).info = true := by
  obtain ⟨before, after, rfl⟩ := List.append_of_mem hi
  rw [Ledger.notes, List.foldl_append]
  exact info_kept (P := P) (l := (l.notes P before).note P .getInfo) rfl fun c hm =>
    hc c (by simp [hm])

theorem run_append {cs ds : List (Call T)} (hr : run cb P past s (cs ++ ds) = some s') :
    ∃ s₁, run cb P past s cs = some s₁ ∧ run cb P past s₁ ds = some s' := by
  induction cs generalizing s with
  | nil => exact ⟨s, rfl, hr⟩
  | cons c cs ih =>
    obtain ⟨r, hr, hrun⟩ := Option.bind_eq_some_iff.mp hr
    obtain ⟨s₁, h1, h2⟩ := ih hrun
    exact ⟨s₁, Option.bind_eq_some_iff.mpr ⟨r, hr, h1⟩, h2⟩

omit [LinearOrder K] in
/-- A ledger that knows nothing but the inputs. -/
theorem synced_new (s : State T) :
    Synced P { mesh := s.inst.mesh, factory := s.inst.scalingFactory } s :=
  ⟨rfl, rfl, fun hi => (by cases hi)⟩

/-- A solve keeps the mesh. -/
theorem solve_mesh {calls : List (Call T)} (hc : ∀ c ∈ calls, c.KeepsGuess)
    (hr : run cb P past s calls = some s') : s'.inst.mesh = s.inst.mesh :=
  ((synced_new s).run hr).mesh.trans (notes_keeps hc)

theorem solve_finalizes {calls : List (Call T)} (hc : ∀ c ∈ calls, c.KeepsGuess)
    (hf : Finalizes calls) (hr : run cb P past s calls = some s') :
    FinalizedOn P s.inst.mesh s'.inst.optimalSolution := by
  obtain ⟨before, after, c, rfl, hfin, hi⟩ := hf
  obtain ⟨s₁, h1, hr⟩ := run_append hr
  obtain ⟨r, hr, hrun⟩ := Option.bind_eq_some_iff.mp hr
  have hk : ∀ c ∈ before, c.KeepsGuess := fun c hm => hc c (by simp [hm])
  have hs := (synced_new (P := P) s).run h1
  have hinfo := notes_info (P := P)
    (l := { mesh := s.inst.mesh, factory := s.inst.scalingFactory }) hk hi
  have e := finalize_step hs hinfo hfin hr
  have hstep := hs.step hr
  cases c with
  | finalize obj x lambda zL zU =>
    have key := finalizedOn_run hstep hinfo (fun c hm => hc c (by simp [hm])) e hrun
    rwa [show (((Ledger.notes P _ before).note P (.finalize obj x lambda zL zU)).mesh) = _ from
      notes_keeps hk] at key
  | _ => exact hfin.elim

end Solve

/-! ## A run with a solver that finalizes -/

section Run

variable {K : Type} [Field K] [LinearOrder K] {T : FLGR K} {P : Problem K}

theorem solution_onMesh (mesh : MeshPtr T) (it : Iterate K) :
    OnMesh P.pc mesh (solution P mesh (getSizes P mesh.mesh) it) := by
  have ht : (nodeTimes mesh).length = mesh.mesh.nodeCount + 1 := mesh.mesh.nodeSeries_length ..
  have series {n : Nat} {first : Nat → K} {v : Nat → Nat → Nat → K} : Sampled mesh.mesh n
      ((List.range n).map fun k => mesh.mesh.nodeSeries (first k) (v k)) := by
    refine ⟨by simp, fun w hw => ?_⟩
    obtain ⟨k, -, rfl⟩ := List.mem_map.mp hw
    exact mesh.mesh.nodeSeries_length ..
  have xu (v : Nat → K) (p : List K) : XuOnMesh P.pc.xSize P.pc.uSize mesh
      (xuTrajectory mesh (getSizes P mesh.mesh) v p) := ⟨rfl, ht, series, series⟩
  exact ⟨⟨_, rfl, xu _ _⟩, ⟨_, rfl, rfl, ht, series, series⟩, ⟨_, rfl, xu _ _⟩, ⟨_, rfl, xu _ _⟩⟩

/-- The meshes of a run: partitions of `[0, tf]` with `p` nodes on every interval. -/
structure Constant (tf : K) (p : Nat) (mesh : MeshPtr T) : Prop where
  partition : IsPartition 0 tf mesh.mesh.grid
  degree : ∀ q ∈ mesh.mesh.nodes, q = p

/-- What GDOP is handed, pass by pass: its mesh and the guess. -/
def handed (events : List (Event T)) : List (MeshPtr T × Option (PrimalDualTrajectory T)) :=
  events.filterMap fun
    | .setInitialGuess mesh guess => some (mesh, guess)
    | _ => none

variable (P) in
structure Refined (tf : K) (p : Nat)
    (passes : List (MeshPtr T × Option (PrimalDualTrajectory T))) : Prop where
  meshes : ∀ q ∈ passes, Constant tf p q.1
  finer : passes.IsChain fun q q' => q.1.mesh.grid ⊆ q'.1.mesh.grid
  guesses : ∀ q ∈ passes.tail, ∃ guess, q.2 = some guess ∧ OnMesh P.pc q.1 guess

variable [IsStrictOrderedRing K] {cb : Callbacks T} {past : Nat → Nat × Nat} {sqrt : K → K}
variable {pow : K → K → K} {S : Strategies T} {method : InterpolationMethod}
variable {tf : K} {p : Nat}

theorem refined_constant {mesh : MeshPtr T} (hm : Constant tf p mesh) {meshUpdate : MeshUpdate K}
    (h : L2BoundaryNorm.Refines mesh.mesh meshUpdate) (addr : Nat) :
    Constant tf p (⟨addr, Mesh.createFromMeshUpdate T meshUpdate⟩ : MeshPtr T) := by
  refine ⟨h.halves.isPartition hm.partition, fun q hq => ?_⟩
  rw [h.degree q hq]
  exact hm.degree _ (mesh.mesh.nodesAt_mem mesh.mesh.intervals_pos)

/-- The strategies, given a solution on the mesh. -/
theorem refine_spec (sqrt : K → K) (pow : K → K → K)
    (hR : S.refinedInitialization = ⟨interpolation method, true, true, true⟩)
    {s : State T} (hm : Constant tf p s.inst.mesh)
    (hf : FinalizedOn P s.inst.mesh s.inst.optimalSolution) (addr : Nat) (N : L2BoundaryNorm K) :
    handed (refine sqrt pow S addr s N).1 = [] ∧
      match (refine sqrt pow S addr s N).2 with
      | .exit ending => ending = .finished
      | .again s' N' initialGuess =>
        N'.remaining + 1 = N.remaining ∧ Constant tf p s'.inst.mesh ∧
          s.inst.mesh.mesh.grid ⊆ s'.inst.mesh.mesh.grid ∧
          ∃ guess, initialGuess = some guess ∧ OnMesh P.pc s'.inst.mesh guess := by
  obtain ⟨it, hit⟩ := hf
  have honmesh := solution_onMesh (P := P) s.inst.mesh it
  obtain ⟨primals, hp, -⟩ := honmesh.primals
  obtain ⟨N', next, happly, hnext⟩ := N.apply_spec sqrt pow hm.partition.sorted hp
  unfold refine
  simp only [hit, Option.bind_some, happly]
  cases next with
  | none => exact ⟨rfl, rfl⟩
  | some meshUpdate =>
    obtain ⟨hrem, hrefines⟩ := hnext meshUpdate rfl
    obtain ⟨guess, hguess, hon⟩ := apply_onMesh method
      ⟨addr, Mesh.createFromMeshUpdate T meshUpdate⟩ honmesh
    dsimp only
    rw [hR, hguess]
    exact ⟨rfl, hrem, refined_constant hm hrefines addr, hrefines.halves.keeps, guess, rfl, hon⟩

theorem pass_spec (cb : Callbacks T) (past : Nat → Nat × Nat) (sqrt : K → K) (pow : K → K → K)
    (hR : S.refinedInitialization = ⟨interpolation method, true, true, true⟩)
    {calls : List (Call T)} (hc : ∀ c ∈ calls, c.KeepsGuess) (hfin : Finalizes calls)
    {s : State T} (hm : Constant tf p s.inst.mesh) (addr : Nat) (N : L2BoundaryNorm K)
    (initialGuess : Option (PrimalDualTrajectory T)) :
    handed (pass cb P past sqrt pow S calls addr s N initialGuess).1 =
        [(s.inst.mesh, initialGuess)] ∧
      match (pass cb P past sqrt pow S calls addr s N initialGuess).2 with
      | .exit ending => ending = .finished ∨ ending = .aborted
      | .again s' N' initialGuess =>
        N'.remaining + 1 = N.remaining ∧ Constant tf p s'.inst.mesh ∧
          s.inst.mesh.mesh.grid ⊆ s'.inst.mesh.mesh.grid ∧
          ∃ guess, initialGuess = some guess ∧ OnMesh P.pc s'.inst.mesh guess := by
  unfold pass
  cases hrun : run cb P past { s with inst := s.inst.setInitialGuess initialGuess } calls with
  | none => exact ⟨rfl, .inr rfl⟩
  | some s₁ =>
    have hmesh : s₁.inst.mesh = s.inst.mesh := (solve_mesh hc hrun :)
    have hf := solve_finalizes hc hfin hrun
    rw [show ({ s with inst := s.inst.setInitialGuess initialGuess } : State T).inst.mesh =
      s.inst.mesh from rfl, ← hmesh] at hf
    obtain ⟨h1, h2⟩ := refine_spec sqrt pow hR (hmesh ▸ hm) hf addr N
    refine ⟨congrArg (fun t => (s.inst.mesh, initialGuess) :: t) h1, ?_⟩
    dsimp only
    cases hnext : (refine sqrt pow S addr s₁ N).2 with
    | exit ending =>
      rw [hnext] at h2
      exact .inl h2
    | again s' N' guess =>
      rw [hnext, hmesh] at h2
      exact h2

variable {solves : Nat → List (Call T)} {alloc : Nat → Nat}

/-- By induction on the fuel: every pass but the last uses up an iteration. -/
theorem loop_spec (cb : Callbacks T) (past : Nat → Nat × Nat) (sqrt : K → K) (pow : K → K → K)
    (alloc : Nat → Nat) (hR : S.refinedInitialization = ⟨interpolation method, true, true, true⟩)
    (hc : ∀ k, ∀ c ∈ solves k, c.KeepsGuess) (hfin : ∀ k, Finalizes (solves k)) (fuel k : Nat)
    {s : State T} (hm : Constant tf p s.inst.mesh) {N : L2BoundaryNorm K}
    (hfuel : N.remaining < fuel) (initialGuess : Option (PrimalDualTrajectory T)) :
    ∃ rest, handed (loop cb P past sqrt pow S solves alloc fuel k s N initialGuess).1 =
        (s.inst.mesh, initialGuess) :: rest ∧
      rest.length ≤ N.remaining ∧ Refined P tf p ((s.inst.mesh, initialGuess) :: rest) ∧
      ((loop cb P past sqrt pow S solves alloc fuel k s N initialGuess).2 = .finished ∨
        (loop cb P past sqrt pow S solves alloc fuel k s N initialGuess).2 = .aborted) := by
  induction fuel generalizing k s N initialGuess with
  | zero => omega
  | succ fuel ih =>
    obtain ⟨h1, h2⟩ := pass_spec cb past sqrt pow hR (hc k) (hfin k)
      hm (alloc k) N initialGuess
    unfold loop
    generalize pass cb P past sqrt pow S (solves k) (alloc k) s N initialGuess = r at h1 h2
    obtain ⟨events, next⟩ := r
    cases next with
    | exit ending =>
      refine ⟨[], h1, Nat.zero_le _, ⟨?_, .singleton _, ?_⟩, h2⟩
      · intro q hq
        rw [List.mem_singleton.mp hq]
        exact hm
      · intro q hq
        cases hq
    | again s' N' guess' =>
      obtain ⟨hrem, hm', hsub, guess, rfl, hon⟩ := h2
      obtain ⟨rest, e, hlen, href, hend⟩ := ih (k + 1) hm' (N := N') (by omega)
        (some guess)
      refine ⟨(s'.inst.mesh, some guess) :: rest, ?_, ?_, ⟨?_, ?_, ?_⟩, hend⟩
      · rw [handed, List.filterMap_append]
        exact congrArg₂ (· ++ ·) h1 e
      · rw [List.length_cons]
        omega
      · intro q hq
        rcases List.mem_cons.mp hq with rfl | hq
        · exact hm
        · exact href.meshes q hq
      · exact .cons_cons hsub href.finer
      · intro q hq
        rcases List.mem_cons.mp hq with rfl | hq
        · exact ⟨guess, rfl, hon⟩
        · exact href.guesses q hq

/-- With a solver that finalizes every solve on the mesh of GDOP, the run ends after at most one
solve more than there are iterations, unless a solve itself has no result. Its meshes are
partitions of `[0, tf]` with `p` nodes on every interval, each with the points of the one before,
and each guess but the first is from the mesh it is set for. -/
theorem optimize_refines (cb : Callbacks T) (P : Problem K) (past : Nat → Nat × Nat)
    (sqrt : K → K) (pow : K → K → K) (S : Strategies T) (solves : Nat → List (Call T))
    (alloc : Nat → Nat) (s : State T) {tf : K} {p : Nat} (method : InterpolationMethod)
    (hR : S.refinedInitialization = ⟨interpolation method, true, true, true⟩)
    (hgrid : IsPartition 0 tf s.inst.mesh.mesh.grid) (hp : ∀ q ∈ s.inst.mesh.mesh.nodes, q = p)
    (hsolves : ∀ k, (∀ c ∈ solves k, c.KeepsGuess) ∧ Finalizes (solves k)) {fuel : Nat}
    (hfuel : 1 + S.meshRefinement.maxPhaseOneIterations +
      S.meshRefinement.maxPhaseTwoIterations ≤ fuel) :
    let r := optimize cb P past sqrt pow S solves alloc fuel s
    (r.2 = .finished ∨ r.2 = .aborted) ∧
      (handed r.1).length ≤ 1 + S.meshRefinement.maxPhaseOneIterations +
        S.meshRefinement.maxPhaseTwoIterations ∧
      (handed r.1).head? = some (s.inst.mesh, S.initialization s) ∧
      Refined P tf p (handed r.1) := by
  have hrem : (S.meshRefinement.reset s.inst.mesh.mesh P.pc.uSize).remaining =
      S.meshRefinement.maxPhaseOneIterations + S.meshRefinement.maxPhaseTwoIterations := rfl
  obtain ⟨rest, e, hlen, href, hend⟩ := loop_spec cb past sqrt pow alloc hR
    (fun k => (hsolves k).1) (fun k => (hsolves k).2) fuel 0
    (s := { s with inst := s.inst.setScalingFactory S.scalingFactory }) ⟨hgrid, hp⟩
    (N := S.meshRefinement.reset s.inst.mesh.mesh P.pc.uSize) (by omega) (S.initialization s)
  unfold optimize
  dsimp only
  rw [e]
  refine ⟨hend, ?_, rfl, href⟩
  rw [List.length_cons]
  omega

/-! The whole interval, then both halves. -/

section Terminal

def terminalNorm : L2BoundaryNorm ℚ where
  phaseOneIteration := 0
  phaseTwoIteration := 0
  maxPhaseOneIterations := 1
  maxPhaseTwoIterations := 1
  phaseTwoLevel := 0
  meshSizeZero := 0
  ctol1 := []
  ctol2 := []

def terminalStrategies : Strategies eulerTables where
  initialization := fun _ => none
  scalingFactory := none
  meshRefinement := terminalNorm
  refinedInitialization := ⟨interpolation .linear, true, true, true⟩

/-- A solve that hands over its start. -/
def terminalSolve : List (Call eulerTables) :=
  [.getInfo, .finalize 0 (fun k => k) (fun _ => 1) (fun _ => 0) fun _ => 0]

theorem optimize_refines_terminal :
    let r := optimize terminalCallbacks terminal (fun _ => (0, 0)) id (fun _ _ => 1)
      terminalStrategies (fun _ => terminalSolve) (fun k => k + 2) 3 (State.start oneStep)
    r.2 = .finished ∧ (handed r.1).map (fun q => q.1.mesh.grid) = [[0, 1], [0, 1 / 2, 1]] ∧
      Refined terminal 1 1 (handed r.1) := by
  refine ⟨by decide +kernel, by decide +kernel, (optimize_refines terminalCallbacks terminal
    (fun _ => (0, 0)) id (fun _ _ => 1) terminalStrategies (fun _ => terminalSolve)
    (fun k => k + 2) (State.start oneStep) .linear rfl ⟨by decide +kernel, by decide +kernel,
      by decide +kernel⟩ ?_ (fun _ => ⟨?_, ?_⟩) le_rfl).2.2.2⟩
  · intro q hq
    exact List.mem_singleton.mp hq
  · intro c hc
    rcases List.mem_pair.mp hc with rfl | rfl <;> exact trivial
  · exact ⟨[.getInfo], [], _, rfl, trivial, List.mem_singleton_self _⟩

end Terminal

end Run

/-! ## A run with any solver -/

section Fresh

variable {K : Type} [Field K] [LinearOrder K] {T : FLGR K} (P : Problem K)

/-- A solution that a strategy is passed is there, and from the mesh of GDOP. -/
def Event.Fresh : Event T → Prop
  | .setInitialGuess _ _ => True
  | .solved _ => True
  | .detect mesh solution => FinalizedOn P mesh solution
  | .getRefinedInitialGuess mesh solution => FinalizedOn P mesh solution
  | .verify mesh solution => FinalizedOn P mesh solution
  | .emit mesh solution => FinalizedOn P mesh solution

/-- The solves that have returned. -/
def returned (events : List (Event T)) : List (List (Call T)) :=
  events.filterMap fun
    | .solved calls => some calls
    | _ => none

variable {P} {cb : Callbacks T} {past : Nat → Nat × Nat} {sqrt : K → K} {pow : K → K → K}
variable {S : Strategies T} {solves : Nat → List (Call T)} {alloc : Nat → Nat}

theorem FinalizedOn.addr {mesh mesh' : MeshPtr T} {t : Option (PrimalDualTrajectory T)}
    (h : FinalizedOn P mesh t) (h' : FinalizedOn P mesh' t) : mesh'.addr = mesh.addr := by
  obtain ⟨it, rfl⟩ := h
  obtain ⟨it', h'⟩ := h'
  have e := congrArg PrimalDualTrajectory.primals (Option.some_inj.mp h')
  have e' := congrArg (fun t => t.inducingMesh.map MeshPtr.addr) (Option.some_inj.mp e)
  exact (Option.some_inj.mp e').symm

theorem refine_fresh (P : Problem K) (sqrt : K → K) (pow : K → K → K) (S : Strategies T)
    (addr : Nat) (s : State T) (N : L2BoundaryNorm K) :
    ((∀ e ∈ (refine sqrt pow S addr s N).1, e.Fresh P) ↔
        FinalizedOn P s.inst.mesh s.inst.optimalSolution) ∧
      returned (refine sqrt pow S addr s N).1 = [] ∧
      ∀ s' N' guess, (refine sqrt pow S addr s N).2 = .again s' N' guess →
        s'.inst.mesh.addr = addr ∧ s'.inst.optimalSolution = s.inst.optimalSolution := by
  unfold refine
  dsimp only
  split
  · exact ⟨by simp [Event.Fresh], rfl, fun _ _ _ h => (by cases h)⟩
  · exact ⟨by simp [Event.Fresh], rfl, fun _ _ _ h => (by cases h)⟩
  · refine ⟨by simp [Event.Fresh], rfl, fun s' N' guess h => ?_⟩
    dsimp only at h
    split at h
    · cases h
    · cases h
      exact ⟨rfl, rfl⟩

/-- A solve leaves a solution of the mesh if it finalizes one, or if one was there. -/
theorem solve_fresh {calls : List (Call T)} (hout : Outcome calls) {s s' : State T}
    (hr : run cb P past s calls = some s') :
    FinalizedOn P s'.inst.mesh s'.inst.optimalSolution ↔
      Finalizes calls ∨ FinalizedOn P s.inst.mesh s.inst.optimalSolution := by
  rw [solve_mesh hout.keeps hr]
  rcases hout.finalizes with hf | hn
  · exact ⟨fun _ => .inl hf, fun _ => solve_finalizes hout.keeps hf hr⟩
  · rw [optimalSolution_run hn hr]
    refine ⟨.inr, fun h => h.resolve_left ?_⟩
    rintro ⟨before, after, c, rfl, hfin, -⟩
    exact hn c (by simp) hfin

/-- By induction on the fuel. On a refined mesh only the solve itself can provide a solution. -/
theorem loop_fresh (hout : ∀ k, Outcome (solves k)) (halloc : ∀ k, alloc (k + 1) ≠ alloc k)
    (fuel k : Nat) (s : State T) (h0 : alloc k ≠ s.inst.mesh.addr) (N : L2BoundaryNorm K)
    (initialGuess : Option (PrimalDualTrajectory T)) :
    (∀ e ∈ (loop cb P past sqrt pow S solves alloc fuel k s N initialGuess).1, e.Fresh P) ↔
      ∀ j calls, (returned (loop cb P past sqrt pow S solves alloc fuel k s N
        initialGuess).1)[j]? = some calls →
          Finalizes calls ∨ (j = 0 ∧ FinalizedOn P s.inst.mesh s.inst.optimalSolution) := by
  induction fuel generalizing k s N initialGuess with
  | zero => simp [loop, returned]
  | succ fuel ih =>
    unfold loop pass
    cases hrun : run cb P past { s with inst := s.inst.setInitialGuess initialGuess }
        (solves k) with
    | none => simp [returned, Event.Fresh]
    | some s₁ =>
      have hmesh : s₁.inst.mesh = s.inst.mesh := (solve_mesh (hout k).keeps hrun :)
      have hsolve : FinalizedOn P s₁.inst.mesh s₁.inst.optimalSolution ↔ Finalizes (solves k) ∨
          FinalizedOn P s.inst.mesh s.inst.optimalSolution := (solve_fresh (hout k) hrun :)
      obtain ⟨hfresh, hret, hagain⟩ := refine_fresh P sqrt pow S (alloc k) s₁ N
      dsimp only
      generalize refine sqrt pow S (alloc k) s₁ N = r at hfresh hret hagain
      obtain ⟨events, next⟩ := r
      dsimp only at hfresh hret hagain ⊢
      have hpass : (∀ e ∈ Event.setInitialGuess s.inst.mesh initialGuess ::
          .solved (solves k) :: events, e.Fresh P) ↔ Finalizes (solves k) ∨
            FinalizedOn P s.inst.mesh s.inst.optimalSolution := by
        rw [List.forall_mem_cons, List.forall_mem_cons, hfresh, hsolve]
        simp only [Event.Fresh, true_and]
      have hreturned : returned (Event.setInitialGuess s.inst.mesh initialGuess ::
          .solved (solves k) :: events) = [solves k] :=
        congrArg (fun t => solves k :: t) hret
      cases next with
      | exit ending =>
        dsimp only
        rw [hpass, hreturned]
        constructor
        · rintro h (_ | j) calls hj
          · cases hj
            exact h.imp_right fun h => ⟨rfl, h⟩
          · cases hj
        · intro h
          exact (h 0 _ rfl).imp_right And.right
      | again s' N' guess =>
        obtain ⟨haddr, hopt⟩ := hagain s' N' guess rfl
        have hnext := ih (k + 1) s' (by rw [haddr]; exact halloc k) N' guess
        dsimp only
        rw [List.forall_mem_append, hpass, hnext]
        unfold returned at hreturned ⊢
        rw [List.filterMap_append, hreturned, List.singleton_append]
        constructor
        · rintro ⟨hfirst, hrest⟩ (_ | j) calls hj
          · cases hj
            exact hfirst.imp_right fun h => ⟨rfl, h⟩
          · -- the solution at hand is from the mesh before
            refine .inl ((hrest j calls hj).resolve_right fun h => ?_)
            have hs₁ := hsolve.mpr hfirst
            rw [← hopt] at hs₁
            have e := hs₁.addr h.2
            rw [haddr, hmesh] at e
            exact h0 e
        · intro h
          refine ⟨(h 0 _ rfl).imp_right And.right, fun j calls hj => ?_⟩
          exact .inl ((h (j + 1) calls hj).resolve_right fun h => by cases h.1)

/-- The strategies are passed a solution of the current mesh throughout the run exactly when every
solve that returns has finalized one; the first may also find one that GDOP has already. A mesh
is allocated where the one before is not. -/
theorem solutions_fresh (cb : Callbacks T) (P : Problem K) (past : Nat → Nat × Nat)
    (sqrt : K → K) (pow : K → K → K) (S : Strategies T) (solves : Nat → List (Call T))
    (hout : ∀ k, Outcome (solves k)) (alloc : Nat → Nat) (s : State T)
    (halloc : alloc 0 ≠ s.inst.mesh.addr ∧ ∀ k, alloc (k + 1) ≠ alloc k) (fuel : Nat) :
    (∀ e ∈ (optimize cb P past sqrt pow S solves alloc fuel s).1, e.Fresh P) ↔
      ∀ j calls, (returned (optimize cb P past sqrt pow S solves alloc fuel s).1)[j]? =
        some calls → Finalizes calls ∨
          (j = 0 ∧ FinalizedOn P s.inst.mesh s.inst.optimalSolution) :=
  loop_fresh hout halloc.2 fuel 0 { s with inst := s.inst.setScalingFactory S.scalingFactory }
    halloc.1 _ _

section Terminal

theorem terminalSolve_outcome : Outcome terminalSolve ∧ Finalizes terminalSolve := by
  have hf : Finalizes terminalSolve :=
    ⟨[.getInfo], [], _, rfl, trivial, List.mem_singleton_self _⟩
  refine ⟨⟨fun c hc => ?_, .inl hf⟩, hf⟩
  rcases List.mem_pair.mp hc with rfl | rfl <;> exact trivial

/-- Two solves that finalize. -/
theorem solutions_fresh_terminal : ∃ events, (optimize terminalCallbacks terminal
      (fun _ => (0, 0)) id (fun _ _ => 1) terminalStrategies (fun _ => terminalSolve)
      (fun k => k + 2) 3 (State.start oneStep)).1 = events ∧ ∀ e ∈ events, e.Fresh terminal := by
  refine ⟨_, rfl, (solutions_fresh terminalCallbacks terminal (fun _ => (0, 0)) id (fun _ _ => 1)
    terminalStrategies (fun _ => terminalSolve) (fun _ => terminalSolve_outcome.1) (fun k => k + 2)
    (State.start oneStep) ⟨by decide, fun k => by omega⟩ 3).mpr fun j calls hj => .inl ?_⟩
  match j with
  | 0 | 1 =>
    cases hj
    exact terminalSolve_outcome.2
  | j + 2 => cases hj

/-- The second solve fails before it has a solution. -/
def failing : Nat → List (Call eulerTables)
  | 0 => terminalSolve
  | _ + 1 => []

/-- Then the first solution is taken for one of the refined mesh. -/
theorem solutions_stale : ∃ mesh t, Event.detect mesh t ∈ (optimize terminalCallbacks terminal
    (fun _ => (0, 0)) id (fun _ _ => 1) terminalStrategies failing (fun k => k + 2) 3
    (State.start oneStep)).1 ∧ mesh.addr = 2 ∧ ¬ (Event.detect mesh t).Fresh terminal := by
  refine ⟨_, _, List.mem_of_getElem? (i := 6) rfl, rfl, ?_⟩
  rintro ⟨it, h⟩
  have e := congrArg (fun t => (t.bind PrimalDualTrajectory.primals).bind fun t =>
    t.inducingMesh.map MeshPtr.addr) h
  cases e

end Terminal

end Fresh

end GDOP
end Moo
