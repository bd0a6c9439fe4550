import Moo.GDOP.Optimum
import Moo.Ipopt.View

/-!
# Ipopt.Solves

Solves from opening to closing, one after the other.

* `Linked.finalizeSolution`: the vectors that are handed over, with the multipliers of the bounds of
  fixed variables, when the point was evaluated last.
* `Reached`: the states after any number of solves, with changes of mesh, guess and scaling between
  them. `Reached.kept`: the adapter sets its flags so that the cache of the NLP is kept in all of
  them.
* `replies`: in every solve, every request that is settled is answered from the NLP of the solve.
* `stale_descent`: where one is not, the value of another point is returned.
-/

namespace Moo
namespace Ipopt

open Loop Coo FixedVector NLP GDOP

section Finalize

variable {K : Type} [Field K] [LinearOrder K] {T : FLGR K} {cb : Callbacks T} {P : Problem K}
variable {past : Nat → Nat × Nat} {m : MeshPtr T} {factory : Option (ScalingFactory T)}
variable {value : Tag → List K} {N : Functions K} {spaces : Spaces} {l : Ledger T} {t : Track K}
variable {s : Session T} (h : Linked cb P past m factory value N spaces l t s)
variable (hsp : Splits N spaces)

omit h in
include hsp in
/-- The nonzeros in columns of fixed variables are accumulated onto the gradient. -/
theorem Splits.accum_jacFixed (x yc yd : List K) {grad jac : Nat → K}
    (hg : ∀ i, i < N.numberVars → grad i = N.gradF (point N spaces x) i)
    (hj : ∀ e ∈ spaces.jacFixed, jac e.idx = N.jacG (point N spaces x) e.idx) {i : Nat}
    (hi : i ∈ spaces.xFixedMap) :
    accum (spaces.jacFixed.map fun e => (e.col, duals spaces yc yd e.row * jac e.idx)) grad i =
      gradient N spaces x yc yd i := by
  have hp := (hsp.fixed i hi).1
  have hmap : (spaces.jacFixed.map fun e => (e.col, duals spaces yc yd e.row * jac e.idx)) =
      spaces.jacFixed.map fun e =>
        (e.col, duals spaces yc yd e.row * N.jacG (point N spaces x) e.idx) :=
    List.map_congr_left fun e he => by rw [hj e he]
  rw [accum_apply, hmap, hg i ((hsp.vars i).mpr (.inr hi)), hsp.jacFixed, gradient, List.map_map,
    List.map_map, sum_map_filter, sum_map_range]
  refine congrArg _ (Finset.sum_congr rfl fun k _ => ?_)
  by_cases hc : N.jac.col k = i
  · simp [hc, hp, mul_comm]
  · simp [hc]

include h hsp

/-- With the point evaluated last, the multipliers are those of the point. -/
theorem Linked.resortBoundMultipliers (hP : HessianLayoutOk P) {x yc yd : Tag} (zL zU : List K)
    (hx : t.iterates = some x) (hsent : spaces.xFixedMap ≠ [] → t.sentX = some x) : ∃ l' t' s',
    Ipopt.resortBoundMultipliers cb P past value s x yc yd zL zU =
        some (s', boundDuals N spaces (value x) (value yc) (value yd) zL zU) ∧
      Linked cb P past m factory value N spaces l' t' s' ∧ t'.iterates = t.iterates ∧
      t'.multipliers = t.multipliers := by
  unfold Ipopt.resortBoundMultipliers
  rw [h.spaces_eq]
  by_cases hf : spaces.xFixedMap = []
  · refine ⟨l, t, s, ?_, h, rfl, rfl⟩
    simp [hf, boundDuals]
  · -- the gradient is asked for without a new point
    have hnew : decide (t.iterates ≠ some x) = false := by simp [hx]
    obtain ⟨nlp, v, hstep, rfl, hs⟩ := h.sound.forward hP
      (c := .evalGradF (decide (t.iterates ≠ some x)) (point N spaces (value x))) trivial
      (h.xFlag fun _ => hsent hf) trivial trivial
    have he := h.evaluate x hs
    let s₁ : Session T := { tnlp := s.tnlp.moveTo x (point N spaces (value x)), nlp }
    obtain ⟨l', t', s₂, h₂, hl, hi, hm, hj⟩ : ∃ l' t' s₂,
        (if spaces.jacFixed = [] then some s₁ else Ipopt.internalEvalJacG cb P past s₁ false) =
          some s₂ ∧ Linked cb P past m factory value N spaces l' t' s₂ ∧ t'.iterates = t.iterates ∧
        t'.multipliers = t.multipliers ∧
        ∀ e ∈ spaces.jacFixed,
          raw s₂.tnlp.jacG e.idx = N.jacG (point N spaces (value x)) e.idx := by
      by_cases hfix : spaces.jacFixed = []
      · exact ⟨_, _, s₁, if_pos hfix, he, hx.symm, rfl, by simp [hfix]⟩
      · obtain ⟨l', s₂, h₂, hl, hj⟩ := he.internalEvalJacG hP fun _ _ => rfl
        have hold : decide ((t.evaluate x).iterates ≠ some x) = false := by simp [Track.evaluate]
        rw [hold] at h₂
        refine ⟨l', _, s₂, (if_neg hfix).trans h₂, hl, ?_, ?_, fun e hm => ?_⟩
        · rw [hx]
          unfold Track.evaluateJacG
          split <;> rfl
        · unfold Track.evaluateJacG
          split <;> rfl
        · rw [hj]
          rw [hsp.jacFixed] at hm
          obtain ⟨k, hk, rfl⟩ := List.mem_map.mp hm
          exact raw_fill_lt _ (List.mem_range.mp (List.mem_filter.mp hk).1)
    refine ⟨l', t', s₂, ?_, hl, hi, hm⟩
    have hgrad (i : Nat) (hi : i < N.numberVars) :
        raw (fill N.numberVars (N.gradF (point N spaces (value x)))) i =
          N.gradF (point N spaces (value x)) i := raw_fill_lt _ hi
    have hmult {i : Nat} (hi : i ∈ spaces.xFixedMap) :=
      hsp.accum_jacFixed (value x) (value yc) (value yd) hgrad hj hi
    rw [hnew] at hstep
    rw [if_neg hf, h.updateLocalX, hnew]
    refine (congrArg (Option.bind · _) hstep).trans ((congrArg (Option.map _) h₂).trans ?_)
    refine congrArg some (Prod.ext rfl (Prod.ext (funext fun i => ?_) (funext fun i => ?_)))
    · dsimp only [boundDuals]
      by_cases hi : i ∈ spaces.xFixedMap
      · rw [if_pos hi, if_pos hi]
        exact congrArg (max 0) (hmult hi)
      · rw [if_neg hi, if_neg hi]
    · dsimp only [boundDuals]
      by_cases hi : i ∈ spaces.xFixedMap
      · rw [if_pos hi, if_pos hi]
        exact congrArg (fun q => max 0 (-q)) (hmult hi)
      · rw [if_neg hi, if_neg hi]

/-- What is handed over: the point with its fixed variables, the multipliers of all constraints, and
those of all bounds. -/
theorem Linked.finalizeSolution (hP : HessianLayoutOk P) {solved : Bool} {x : Tag}
    (yc yd : Tag) (zL zU : List K) (obj : K)
    (hsent : solved = true → spaces.xFixedMap ≠ [] → t.sentX = some x) : ∃ l' nlp s' z,
    Sound cb P past m factory N l' nlp ∧
      Ipopt.finalizeSolution cb P past value s solved x yc yd zL zU obj = some s' ∧
      step cb P past nlp (.finalize obj (point N spaces (value x))
        (duals spaces (value yc) (value yd)) z.1 z.2) = some (s'.nlp, []) ∧
      (solved = true → z = boundDuals N spaces (value x) (value yc) (value yd) zL zU) := by
  have h₁ := h.moveTo x
  have h₂ := h₁.weighTo yc yd
  let s₂ : Session T :=
    ⟨(s.tnlp.moveTo x (point N spaces (value x))).weighTo yc yd
      (duals spaces (value yc) (value yd)), s.nlp⟩
  have hresort : { s₂.tnlp with
      fullX := resortX s₂.tnlp.spaces (value x) s₂.tnlp.fullX
      fullLambda := resortG s₂.tnlp.spaces (value yc) (value yd) s₂.tnlp.fullLambda } =
      s₂.tnlp := by
    rw [h₂.spaces_eq, h₂.fullX_base, h₂.fullLambda_base]
    rfl
  obtain ⟨l', t', s', z, hz, hl, hi, hm, hb⟩ : ∃ l' t' s' z,
      (if solved then Ipopt.resortBoundMultipliers cb P past value s₂ x yc yd zL zU
        else some (s₂, resortBounds s₂.tnlp.spaces zL zU)) = some (s', z) ∧
      Linked cb P past m factory value N spaces l' t' s' ∧ t'.iterates = some x ∧
      t'.multipliers = some (yc, yd) ∧
      (solved = true → z = boundDuals N spaces (value x) (value yc) (value yd) zL zU) := by
    cases solved with
    | true =>
      obtain ⟨l', t', s', hr, hl, hi, hm⟩ := h₂.resortBoundMultipliers hsp hP zL zU rfl (hsent rfl)
      exact ⟨l', t', s', _, hr, hl, hi, hm, fun _ => rfl⟩
    | false => exact ⟨l, _, s₂, _, rfl, h₂, rfl, rfl, fun h => (by cases h)⟩
  obtain ⟨sc, hsc, -, -⟩ := (hl.sound.kept.inv.sized hl.sound.ready.1).scaling
  obtain ⟨s₃, hstep, -⟩ : ∃ s₃, step cb P past s'.nlp (.finalize obj (point N spaces (value x))
      (duals spaces (value yc) (value yd)) z.1 z.2) = some (s₃, []) ∧ _ :=
    step_finalize cb P hsc obj _ _ _ _
  refine ⟨l', s'.nlp, { s' with nlp := s₃ }, z, hl.sound, ?_, hstep, hb⟩
  have hclose : IpoptAdapter.finalizeSolution cb P past s'.nlp s'.tnlp.fullX z.1 z.2
      s'.tnlp.fullLambda obj = some (s₃, []) := by
    rw [hl.fullX x hi, hl.fullLambda _ hm]
    exact hstep
  unfold Ipopt.finalizeSolution
  rw [h.updateLocalX]
  dsimp only
  rw [h₁.updateLocalLambda]
  dsimp only
  rw [hresort]
  refine (congrArg (Option.bind · _) hz).trans ?_
  exact congrArg (Option.map _) hclose

end Finalize

/-! ## One solve after the other -/

section Solves

variable {K : Type} [Field K] [LinearOrder K] {T : FLGR K} (cb : Callbacks T) (P : Problem K)
variable (past : Nat → Nat × Nat)

/-- The state `s` is opened, with the spaces it then has, and the requests are settled and
answered. -/
inductive Asked (s : State T) (value : Tag → List K) (rs : List (Request K)) :
    Spaces → Session T → List (List K) → Prop where
  | mk {q : Session T × BoundVectors K} {q' : Session T × List (List K)}
      (hopen : openSession cb P past s = some q) (hs : Track.Along value {} rs)
      (ha : answers cb P past value q.1 rs = some q') :
      Asked s value rs q.1.tnlp.spaces q'.1 q'.2

/-- The states with their mesh and scaling. A solve may end at any request; one that is closed with
a solution was evaluated there last, unless no variable is fixed. -/
inductive Reached : MeshPtr T → Option (ScalingFactory T) → State T → Prop where
  | start (m : MeshPtr T) : Reached m none (State.start m)
  | update {m factory s} (m' : MeshPtr T) : Reached m factory s →
      Reached m' factory { s with inst := s.inst.update m' }
  | setInitialGuess {m factory s} (guess : Option (PrimalDualTrajectory T)) : Reached m factory s →
      Reached m factory { s with inst := s.inst.setInitialGuess guess }
  | setScalingFactory {m factory s} (factory' : Option (ScalingFactory T)) : Reached m factory s →
      Reached m factory' { s with inst := s.inst.setScalingFactory factory' }
  | asked {m factory s value rs spaces s' vs} : Reached m factory s →
      Asked cb P past s value rs spaces s' vs → Reached m factory s'.nlp
  | closed {m factory s value rs spaces s' vs s'' solved x yc yd zL zU obj} : Reached m factory s →
      Asked cb P past s value rs spaces s' vs →
      (solved = true → spaces.xFixedMap ≠ [] → (Track.notes value {} rs).sentX = some x) →
      finalizeSolution cb P past value s' solved x yc yd zL zU obj = some s'' →
      Reached m factory s''.nlp

variable {cb P past} {m : MeshPtr T} {factory : Option (ScalingFactory T)} {s : State T}
variable {value : Tag → List K} {rs : List (Request K)} {spaces : Spaces} {s' : Session T}
variable {vs : List (List K)} (hP : HessianLayoutOk P)

include hP

theorem Asked.linked {l : Ledger T} (h : Kept cb P past l s) (hm : l.mesh = m)
    (hf : l.factory = factory) (ha : Asked cb P past s value rs spaces s' vs) :
    Splits (solveNlp cb P past m factory) spaces ∧
      (∃ l', Linked cb P past m factory value (solveNlp cb P past m factory) spaces l'
        (Track.notes value {} rs) s') ∧
      List.Forall₂ (Replies (solveNlp cb P past m factory) spaces value) rs vs := by
  obtain ⟨hopen, hs, ha⟩ := ha
  obtain ⟨hsp, l₁, hl⟩ := openSession_linked value h hm hf rfl hopen
  obtain ⟨l₂, hl₂, hv⟩ := hl.requests hP hsp hs ha
  exact ⟨hsp, ⟨l₂, hl₂⟩, hv⟩

theorem Reached.kept (h : Reached cb P past m factory s) :
    ∃ l, Kept cb P past l s ∧ l.mesh = m ∧ l.factory = factory := by
  induction h with
  | start m => exact ⟨_, Kept.start m, rfl, rfl⟩
  | update m' _ ih =>
    obtain ⟨l, hk, rfl, rfl⟩ := ih
    exact ⟨_, hk.step (c := .update m') trivial trivial trivial rfl, rfl, rfl⟩
  | setInitialGuess guess _ ih =>
    obtain ⟨l, hk, rfl, rfl⟩ := ih
    exact ⟨_, hk.step (c := .setInitialGuess guess) trivial trivial trivial rfl, rfl, rfl⟩
  | setScalingFactory factory' _ ih =>
    obtain ⟨l, hk, rfl, rfl⟩ := ih
    exact ⟨_, hk.step (c := .setScalingFactory factory') trivial trivial trivial rfl, rfl, rfl⟩
  | asked _ ha ih =>
    obtain ⟨l, hk, hm, hf⟩ := ih
    obtain ⟨-, ⟨l', hl⟩, -⟩ := Asked.linked hP hk hm hf ha
    exact ⟨l', hl.sound.kept, hl.sound.mesh, hl.sound.factory⟩
  | closed _ ha hsent hclose ih =>
    obtain ⟨l, hk, hm, hf⟩ := ih
    obtain ⟨hsp, ⟨l', hl⟩, -⟩ := Asked.linked hP hk hm hf ha
    obtain ⟨l'', nlp, s₂, z, hsound, hs₂, hstep, -⟩ := hl.finalizeSolution hsp hP _ _ _ _ _ hsent
    rw [hclose, Option.some_inj] at hs₂
    subst hs₂
    exact ⟨_, hsound.kept.step (c := .finalize ..) trivial trivial trivial hstep, hsound.mesh,
      hsound.factory⟩

end Solves

/-! A state that has to grow, and a cost that grows with it. -/

section Descent

/-- Two points and the multipliers of three equations. -/
def descentValue : Tag → List ℚ
  | 1 => [3, 13 / 3, 7]
  | 2 => [1, 1, 1]
  | 3 => [-7, -11 / 4, -1 / 4]
  | _ => []

/-- The first point, evaluated once. -/
def descentRequests : List (Request ℚ) := [.evalF 1, .evalC 1, .evalJacC 1, .evalGradF 1]

theorem descentRequests_along : Track.Along descentValue {} descentRequests := by
  refine ⟨fun h => (by cases h), fun _ _ => rfl, fun _ _ => rfl, fun _ => rfl, trivial⟩

/-- The initial state is fixed, and all constraints are equations. -/
def descentSpaces : Spaces where
  xFixedMap := [0]
  xPos := [1, 2, 3]
  xLPos := [1, 2, 3]
  xUPos := [1, 2, 3]
  cPos := [0, 1, 2]
  dPos := []
  dLPos := []
  dUPos := []
  jacC := [⟨1, 0, 0⟩, ⟨2, 1, 0⟩, ⟨3, 1, 1⟩, ⟨4, 1, 2⟩, ⟨5, 2, 0⟩, ⟨6, 2, 1⟩, ⟨7, 2, 2⟩]
  jacD := []
  jacFixed := [⟨0, 0, 0⟩]
  h := []

theorem descent_asked : ∃ s', Asked descentCallbacks descent (fun _ => (0, 0))
    (State.start unevenMesh) descentValue descentRequests descentSpaces s'
    [[33], [0, 0, 0], [1, -2, 3 / 2, 1 / 2, 2, -9 / 2, 5 / 2], [2, 3, 2]] := by
  have h : ((openSession descentCallbacks descent (fun _ => (0, 0)) (State.start unevenMesh)).bind
      fun q => (answers descentCallbacks descent (fun _ => (0, 0)) descentValue q.1
        descentRequests).map fun q' => (q.1.tnlp.spaces, q'.2)) =
      some (descentSpaces, [[33], [0, 0, 0], [1, -2, 3 / 2, 1 / 2, 2, -9 / 2, 5 / 2],
        [2, 3, 2]]) := by decide +kernel
  obtain ⟨q, hq, h⟩ := Option.bind_eq_some_iff.mp h
  obtain ⟨q', hq', h⟩ := Option.map_eq_some_iff.mp h
  obtain ⟨h1, h2⟩ := Prod.mk.inj h
  exact ⟨q'.1, h1 ▸ h2 ▸ .mk hq descentRequests_along hq'⟩

/-- The constraints of the first point are still stored when another point has been evaluated: what
is asked for next is answered with the objective of that one. -/
theorem stale_descent :
    ((openSession descentCallbacks descent (fun _ => (0, 0)) (State.start unevenMesh)).bind
      fun q => (answers descentCallbacks descent (fun _ => (0, 0)) descentValue q.1
        [.evalC 1, .evalF 2, .evalC 1, .evalF 1]).map Prod.snd) =
      some [[0, 0, 0], [7], [0, 0, 0], [7]] ∧
    ¬ Replies (solveNlp descentCallbacks descent (fun _ => (0, 0)) unevenMesh none) descentSpaces
      descentValue (.evalF 1) [7] := by
  constructor
  · decide +kernel
  · have hf : (solveNlp descentCallbacks descent (fun _ => (0, 0)) unevenMesh none).f
        (point (solveNlp descentCallbacks descent (fun _ => (0, 0)) unevenMesh none) descentSpaces
          (descentValue 1)) = 33 := by decide +kernel
    intro h
    exact absurd ((List.cons.inj h).1.trans hf) (by decide)

end Descent

end Ipopt
end Moo
