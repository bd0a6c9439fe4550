import Moo.Ipopt.Solves

/-!
# Ipopt.Optimum

From a point of the algorithm to a solution of the optimal control problem.

* `optimum_of_solve`: after any number of solves, feasible, least and stationary points of what the
  algorithm is told are finalized to solutions, optimal solutions and solutions of the adjoint
  equations.
-/

namespace Moo
namespace Ipopt

open FixedVector NLP GDOP

section Optimum

variable {K : Type} [Field K] [LinearOrder K] [IsStrictOrderedRing K] {T : FLGR K}

/-- What the algorithm hands over, with its fixed variables put back and the multipliers of their
bounds recovered, is finalized to a trajectory and costates of the continuous problem. -/
theorem optimum_of_solve (cb : Callbacks T) (P : Problem K) (hP : LayoutsOk P)
    (hM : JacobianMROk P.pc (mayerJac P)) (past : Nat → Nat × Nat) {m : MeshPtr T}
    {factory : Option (ScalingFactory T)} {s : State T} (h : Reached cb P past m factory s)
    (hmesh : RadauMesh m.mesh)
    (hu : (userScaling P m factory).Positive (getSizes P m.mesh).numberVars
      (getSizes P m.mesh).numberConstraints)
    {value : Tag → List K} {rs : List (Request K)} {spaces : Spaces} {s' : Session T}
    {vs : List (List K)} (ha : Asked cb P past s value rs spaces s' vs) {x : Tag}
    (hlast : spaces.xFixedMap ≠ [] → (Track.notes value {} rs).sentX = some x) (yc yd : Tag)
    (zL zU : List K) (obj : K) :
    let off := getSizes P m.mesh
    let N := solveNlp cb P past m factory
    let p := point N spaces (value x)
    ∃ s'' it, finalizeSolution cb P past value s' true x yc yd zL zU obj = some s'' ∧
      s''.nlp.inst.optimalSolution = some (solution P m off it) ∧
      (BelowInf N p → (Feasible N spaces (value x) ↔ Collocates cb P m it.x)) ∧
      (BelowInf N p → Least N spaces (value x) → Optimal cb P m it.x) ∧
      cost cb P m it.x = (userScaling P m factory).fFactor * N.f p ∧
      (userScaling P m factory = .noScaling →
        (Stationary N spaces (value x) (value yc) (value yd) zL zU ↔
          CostateEquations P m (freshBuffers cb P m.mesh (raw it.x))
            (finalizeOptimalCostates P m off it.lambda)
            (finalizeOptimalBoundDuals m off it.zLb)
            (finalizeOptimalBoundDuals m off it.zUb))) := by
  intro off N p
  obtain ⟨l, hk, hlm, hlf⟩ := h.kept hP.hessian
  obtain ⟨hsp, ⟨l', hl⟩, -⟩ := Asked.linked hP.hessian hk hlm hlf ha
  obtain ⟨l'', nlp, s'', z, hsound, hs'', hstep, hz⟩ :=
    hl.finalizeSolution hsp hP.hessian yc yd zL zU obj fun _ => hlast
  have hmesh' : l''.mesh = m := hsound.mesh
  have huser := hsound.user
  subst hmesh'
  rw [← huser] at hu
  obtain ⟨s₁, it, hstep₁, hsol, hadm, hmin, hcost, hstat⟩ := hsound.kept.inv.finalize_optimum hP hM
    hsound.ready hmesh hu obj p (duals spaces (value yc) (value yd)) z.1 z.2
  rw [hstep, Option.some_inj, Prod.mk.injEq] at hstep₁
  obtain ⟨rfl, -⟩ := hstep₁
  rw [huser] at hadm hmin hcost hstat
  have hn : N.bounds.xLb.length = N.numberVars := solveNlp_xLb
  refine ⟨s'', it, hs'', hsol, fun hb => (hsp.feasible_iff hb).trans hadm, fun hb hleast =>
    hmin.mp (hsp.minimizer_of_least hn hb hleast), hcost, fun hno => ?_⟩
  rw [← hstat hno, hz rfl]
  exact (hsp.stationary_iff (value x) (value yc) (value yd) zL zU hn).symm

/-- `1 + 2 t` at the cost `33`, with its costates and the multiplier `7` of the initial state. -/
theorem optimum_of_solve_descent : ∃ s' s'' it,
    Asked descentCallbacks descent (fun _ => (0, 0)) (State.start unevenMesh) descentValue
      descentRequests descentSpaces s'
      [[33], [0, 0, 0], [1, -2, 3 / 2, 1 / 2, 2, -9 / 2, 5 / 2], [2, 3, 2]] ∧
    finalizeSolution descentCallbacks descent (fun _ => (0, 0)) descentValue s' true 1 3 4 [0, 0, 0]
      [0, 0, 0] 33 = some s'' ∧
    s''.nlp.inst.optimalSolution =
      some (solution descent unevenMesh (getSizes descent unevenMesh.mesh) it) ∧
    Collocates descentCallbacks descent unevenMesh it.x ∧
    cost descentCallbacks descent unevenMesh it.x = 33 ∧
    CostateEquations descent unevenMesh
      (freshBuffers descentCallbacks descent unevenMesh.mesh (raw it.x))
      (finalizeOptimalCostates descent unevenMesh (getSizes descent unevenMesh.mesh) it.lambda)
      (finalizeOptimalBoundDuals unevenMesh (getSizes descent unevenMesh.mesh) it.zLb)
      (finalizeOptimalBoundDuals unevenMesh (getSizes descent unevenMesh.mesh) it.zUb) := by
  obtain ⟨s', ha⟩ := descent_asked
  obtain ⟨s'', it, hs, hsol, hc, -, hcost, hstat⟩ := optimum_of_solve descentCallbacks descent
    descent_layoutsOk descent_mayer (fun _ => (0, 0)) (.start unevenMesh) unevenMesh_radauMesh
    ⟨fun _ h => (by cases h), fun _ _ => one_pos, fun _ _ => one_pos, one_pos⟩ ha (x := 1)
    (fun _ => rfl) 3 4 [0, 0, 0] [0, 0, 0] 33
  refine ⟨s', s'', it, ha, hs, hsol, (hc ?_).mp ?_, hcost.trans (by decide +kernel),
    (hstat rfl).mp ?_⟩
  · exact ⟨by decide +kernel, by decide +kernel⟩
  · exact ⟨by decide +kernel, by decide +kernel, by decide +kernel, by decide +kernel,
      by decide +kernel⟩
  · unfold Stationary
    decide +kernel

end Optimum

end Ipopt
end Moo
