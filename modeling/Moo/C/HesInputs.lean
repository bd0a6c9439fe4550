import Moo.C.LayoutBoundary
import Moo.C.Pointers
import Moo.GDOP.HessianCache

/-!
# C.HesInputs

What one Hessian evaluation touches, and what it passes to `hes_lfg` and `hes_mr`.

* `hesAccesses`: the entries of `lagrange_obj_factors` and `transformed_lambda` that are read or
  written, `Access.Inside` whether they are allocated.
* `factorRows`: the rows of `lagrange_obj_factors` after a run. They are allocated for a Lagrange
  term only.
* `HessianInputs`: all accesses are inside, and the callbacks get the transformed multipliers.
* `hessian_inputs_iff`: so it is where there is a Lagrange term, or nothing is evaluated. The full
  sweep reads the factors in any case.
-/

namespace Moo
namespace C

open Loop FixedVector NLP GDOP Segment

/-! ## Accesses -/

inductive Access where
  | factor (i j : Nat)
  | multiplier (pos : Nat)
  deriving Repr, DecidableEq

/-- `rows` has the lengths of the rows of `lagrange_obj_factors`. -/
def Access.Inside (rows : List Nat) (extent : Nat) : Access → Prop
  | .factor i j => j < rows.getD i 0
  | .multiplier pos => pos < extent

section Accesses

variable {K : Type} [Field K] {T : FLGR K} (P : GDOP.Problem K) (M : Mesh T) (off : Offsets)
variable (extent : Nat)

/-- `update_curr_lambda_obj_factors`: the copy, then node by node. -/
def updateAccesses : List Access :=
  (List.range extent).map .multiplier ++ M.nodeOps fun i j =>
    (if P.pc.hasLagrange then [.factor i j] else []) ++
      (List.range P.pc.fSize).map fun f => .multiplier (off.offAccFg i j + f)

/-- `FullSweep::callback_hes`, with the multipliers that `hes_lfg` finds behind its pointer. -/
def fullAccesses : List Access :=
  M.nodeOps fun i j =>
    (if off.offFgTotal ≠ 0 then
      (List.range P.pc.fgSize).map fun k => .multiplier (P.pc.fgSize * M.accNodesAt i j + k)
    else []) ++ [.factor i j]

/-- `BoundarySweep::callback_hes`. -/
def boundaryAccesses : List Access :=
  if P.pc.rSize ≠ 0 then
    (List.range P.pc.rSize).map fun k => .multiplier (off.offFgTotal + k)
  else []

/-- `callback_hessian`. -/
def hesAccesses : List Access :=
  updateAccesses P M off extent ++ fullAccesses P M off ++ boundaryAccesses P off

variable {P M}

theorem mem_nodeOps {β : Type} {g : Nat → Nat → List β} {a : β} :
    a ∈ M.nodeOps g ↔ ∃ i j, i < M.intervals ∧ j < M.nodesAt i ∧ a ∈ g i j := by
  simp only [Mesh.nodeOps, List.mem_flatMap, List.mem_range]
  constructor
  · rintro ⟨i, hi, j, hj, ha⟩
    exact ⟨i, j, hi, hj, ha⟩
  · rintro ⟨i, j, hi, hj, ha⟩
    exact ⟨i, hi, j, hj, ha⟩

/-- The first node is read, with or without a Lagrange term. -/
theorem factor_mem_hesAccesses {i j : Nat} (hi : i < M.intervals) (hj : j < M.nodesAt i) :
    .factor i j ∈ hesAccesses P M off extent := by
  refine List.mem_append_left _ (List.mem_append_right _ ?_)
  exact mem_nodeOps.mpr ⟨i, j, hi, hj, List.mem_append_right _ (List.mem_singleton_self _)⟩

/-- With all nodes allocated, and as many multipliers as constraints. -/
theorem hesAccesses_inside {rows : List Nat}
    (hrows : ∀ i j, i < M.intervals → j < M.nodesAt i → j < rows.getD i 0) :
    ∀ a ∈ hesAccesses P M (getSizes P M) (getSizes P M).numberConstraints,
      a.Inside rows (getSizes P M).numberConstraints := by
  intro a ha
  rcases List.mem_append.mp ha with ha | ha
  rcases List.mem_append.mp ha with ha | ha
  · rcases List.mem_append.mp ha with ha | ha
    · obtain ⟨k, hk, rfl⟩ := List.mem_map.mp ha
      exact List.mem_range.mp hk
    · obtain ⟨i, j, hi, hj, ha⟩ := mem_nodeOps.mp ha
      rcases List.mem_append.mp ha with ha | ha
      · split at ha
        · rw [List.mem_singleton.mp ha]
          exact hrows i j hi hj
        · cases ha
      · obtain ⟨f, hf, rfl⟩ := List.mem_map.mp ha
        have hc : (Constraint.f i j f).Ok P M := ⟨hi, hj, List.mem_range.mp hf⟩
        exact Constraint.index_lt hc
  · obtain ⟨i, j, hi, hj, ha⟩ := mem_nodeOps.mp ha
    rcases List.mem_append.mp ha with ha | ha
    · split at ha
      · obtain ⟨k, hk, rfl⟩ := List.mem_map.mp ha
        have hlt := block_lt (M.accNodesAt_lt hi hj) (List.mem_range.mp hk)
        rw [Access.Inside, getSizes_numberConstraints, Nat.mul_comm M.nodeCount]
        omega
      · cases ha
    · rw [List.mem_singleton.mp ha]
      exact hrows i j hi hj
  · unfold boundaryAccesses at ha
    split at ha
    · obtain ⟨k, hk, rfl⟩ := List.mem_map.mp ha
      have hc : (Constraint.r k).Ok P M := List.mem_range.mp hk
      exact Constraint.index_lt hc
    · cases ha

end Accesses

/-! ## Multipliers and factors -/

section Values

variable {K : Type} [Field K] {T : FLGR K} {P : GDOP.Problem K} {M : Mesh T}

/-- A multiplier as the callbacks get it: those of the dynamics absorb `-delta_t[i]`. -/
def Constraint.transformed (M : Mesh T) (z : K) : Constraint → K
  | .f i _ _ => z * -M.deltaTAt i
  | .g _ _ _ => z
  | .r _ => z

theorem updateTransformedLambda_index {c : Constraint} (hc : c.Ok P M) (lambda : Nat → K) :
    updateTransformedLambda P M (getSizes P M) lambda (c.index P (getSizes P M)) =
      Constraint.transformed M (lambda (c.index P (getSizes P M))) c := by
  have hfg : P.pc.fgSize = P.pc.fSize + P.pc.gSize := rfl
  have hoff : ∀ i j, i < M.intervals → j < M.nodesAt i →
      (getSizes P M).offAccFg i j = 0 + P.pc.fgSize * M.accNodesAt i j := by
    intro i j hi hj
    rw [getSizes_offAccFg P M hi hj]
    ring
  obtain ⟨h1, h2⟩ := forNodes_modify M hoff (show P.pc.fSize ≤ P.pc.fgSize by omega)
    (fun i _ z => z * -M.deltaTAt i) lambda
  have hp := Constraint.index_cases hc
  cases c with
  | f i j k =>
    obtain ⟨hi, hj, hk⟩ := hc
    exact (h2 i j k hi hj (by omega)).trans (if_pos hk)
  | g i j k =>
    obtain ⟨hi, hj, hk⟩ := hc
    rw [Constraint.index, Nat.add_assoc]
    exact (h2 i j (P.pc.fSize + k) hi hj (by omega)).trans (if_neg (by omega))
  | r k => exact h1 _ (.inr (by rw [hp]; omega))

/-- The factors at the nodes, where there is a Lagrange term. -/
theorem updateLagrangeObjFactors_node (hl : P.pc.hasLagrange = true) {i j : Nat}
    (hi : i < M.intervals) (hj : j < M.nodesAt i) (sigma : K) (factors : Nat → Nat → K) :
    updateLagrangeObjFactors P M sigma factors i j =
      sigma * T.getB (M.nodesAt i) j * M.deltaTAt i := by
  unfold updateLagrangeObjFactors
  rw [if_pos hl, forRange_fill₂, if_pos ⟨hi, hj⟩]

end Values

/-! ## What a run has allocated -/

section Extents

variable {K : Type} [Field K] {T : FLGR K} (P : GDOP.Problem K)

/-- The rows of `lagrange_obj_factors` after a call: `get_hes_sparsity` allocates them. -/
def noteRows (l : Ledger T) (rows : List Nat) : Call T → List Nat
  | .getHesSparsity =>
    if P.pc.hasLagrange then fill l.mesh.mesh.intervals l.mesh.mesh.nodesAt else rows
  | _ => rows

def factorRows : Ledger T → List Nat → List (Call T) → List Nat
  | _, rows, [] => rows
  | l, rows, c :: cs => factorRows (l.note P c) (noteRows P l rows c) cs

/-- From the query of the Hessian pattern on the extents are those of the current mesh. -/
structure Extents (l : Ledger T) (rows : List Nat) (s : State T) : Prop where
  rows : P.pc.hasLagrange = true → l.info = true → 0 < l.hes →
    rows = fill l.mesh.mesh.intervals l.mesh.mesh.nodesAt
  lambda : l.info = true → 0 < l.hes →
    s.inst.transformedLambda.length = (getSizes P l.mesh.mesh).numberConstraints

variable {P} [LinearOrder K] {cb : Callbacks T} {past : Nat → Nat × Nat} {l : Ledger T}
variable {s s' : State T} {rows : List Nat}

omit [LinearOrder K] in
/-- Without a Lagrange term there are no rows. -/
theorem factorRows_nil (hl : P.pc.hasLagrange = false) (l : Ledger T) (cs : List (Call T)) :
    factorRows P l [] cs = [] := by
  induction cs generalizing l with
  | nil => rfl
  | cons c cs ih =>
    have hn : noteRows P l [] c = [] := by
      cases c with
      | getHesSparsity => exact if_neg (by simp [hl])
      | _ => rfl
    rw [factorRows, hn]
    exact ih _

omit [LinearOrder K] in
theorem evalHes_extent {i : Instance T} {newX newLambda : Bool} {x lambda v : List K} {sigma : K}
    {r : Instance T × List K} (hr : i.evalHes cb P newX x newLambda lambda sigma v = some r) :
    r.1.transformedLambda.length = i.transformedLambda.length := by
  unfold Instance.evalHes at hr
  obtain ⟨hes, -, rfl⟩ := Option.map_eq_some_iff.mp hr
  dsimp only
  split
  · rfl
  · split <;> exact fill_length ..

/-- Only `get_hes_sparsity` allocates `transformed_lambda`. -/
theorem extent_of_moves {i i' : Instance T} {c : Call T} (h : Moves cb P past i c i')
    (hc : c ≠ .getHesSparsity) : i'.transformedLambda.length = i.transformedLambda.length := by
  have second {newX : Bool} (h : i'.second = (i.checkNewX newX).second) :
      i'.transformedLambda.length = i.transformedLambda.length :=
    congrArg List.length (Instance.of_second h).2.1
  cases h with
  | getHesSparsity n p => exact absurd rfl hc
  | getInitialGuess hr =>
    obtain ⟨guess, e⟩ := Instance.getInitialGuess_eq hr
    simp only [e]
  | evalF y => exact second (evalF_second (P := P) _)
  | evalGradF y v => exact second (evalGradF_second (P := P) _ v)
  | evalG y v => exact second (evalG_second (P := P) _ v)
  | evalJac y v => exact second (evalJacG_second (P := P) _ v)
  | evalHes hr => exact evalHes_extent hr
  | _ => rfl

theorem Extents.step (h : Extents P l rows s) (hs : Synced P l s) {c : Call T}
    {r : State T × List K} (hr : step cb P past s c = some r) :
    Extents P (l.note P c) (noteRows P l rows c) r.1 := by
  -- calls after which the ledger still has the mesh and the queries
  have keep (hc : c ≠ .getHesSparsity) (h1 : (l.note P c).mesh = l.mesh)
      (h2 : (l.note P c).info = l.info) (h3 : (l.note P c).hes = l.hes)
      (h4 : noteRows P l rows c = rows) : Extents P (l.note P c) (noteRows P l rows c) r.1 := by
    refine ⟨?_, ?_⟩
    · rw [h1, h2, h3, h4]
      exact h.rows
    · rw [h1, h2, h3, extent_of_moves (step_moves hr) hc]
      exact h.lambda
  cases c with
  | update mesh => exact ⟨fun _ hi => (by cases hi), fun hi => (by cases hi)⟩
  | getInfo => exact ⟨fun _ _ hq => (by cases hq), fun _ hq => (by cases hq)⟩
  | getHesSparsity =>
    refine ⟨fun hl _ _ => if_pos hl, fun hi _ => ?_⟩
    cases hr
    exact (fill_length ..).trans ((hs.sizes hi).2.trans (by rw [hs.mesh]; rfl))
  | _ => exact keep (by simp) rfl rfl rfl rfl

theorem Extents.run {cs : List (Call T)} (h : Extents P l rows s) (hs : Synced P l s)
    (hr : run cb P past s cs = some s') :
    Extents P (l.notes P cs) (factorRows P l rows cs) s' := by
  induction cs generalizing l s rows with
  | nil =>
    cases hr
    exact h
  | cons c cs ih =>
    obtain ⟨r, hr, hrun⟩ := Option.bind_eq_some_iff.mp hr
    exact ih (h.step hs hr) (hs.step hr) hrun

end Extents

/-! ## The calls of the user's callbacks -/

section Calls

variable {K : Type} [Field K] {T : FLGR K}

/-- The arguments of `hes_lfg`. -/
structure HesLfgArgs (K : Type) where
  xu : Option (Nat → K)
  p : Option (Nat → K)
  lambda : Option (Nat → K)
  objFactor : K
  t : K
  data : Option (Nat → K)

/-- The arguments of `hes_mr`. -/
structure HesMrArgs (K : Type) where
  x0 : Option (Nat → K)
  xuf : Option (Nat → K)
  p : Option (Nat → K)
  lambda : Option (Nat → K)
  objFactor : K
  t0 : K
  tf : K
  dataT0 : Option (Nat → K)
  dataTf : Option (Nat → K)

def UserCallbacks.callHesLfg (u : UserCallbacks K) (a : HesLfgArgs K) : Nat → K :=
  u.hesLfg a.xu a.p a.lambda a.objFactor a.t a.data

def UserCallbacks.callHesMr (u : UserCallbacks K) (a : HesMrArgs K) : Nat → K :=
  u.hesMr a.x0 a.xuf a.p a.lambda a.objFactor a.t0 a.tf a.dataT0 a.dataTf

variable (data : Problem T) (P : GDOP.Problem K) (s : Instance T) (currX : List K)

/-- At node `(i, j)`, once `update_curr_lambda_obj_factors` has filled the tables of `s`. -/
def hesLfgArgs (i j : Nat) : HesLfgArgs K where
  xu := getXuIj P s.mesh.mesh (getXXu s.off (raw currX)) i j
  p := getXP s.off (raw currX)
  lambda := getLambdaIj P s.mesh.mesh (getLmbdFg s.off (raw s.transformedLambda)) i j
  objFactor := s.lagrangeObjFactors i j
  t := s.mesh.mesh.tAt i j
  data := dataFrom data (getDataIj data s.mesh.mesh i j)

def hesMrArgs (sigma : K) : HesMrArgs K where
  x0 := getXX0 s.off (raw currX)
  xuf := getXXuf s.off (raw currX)
  p := getXP s.off (raw currX)
  lambda := getLmbdR P s.off (raw s.transformedLambda)
  objFactor := sigma
  t0 := 0
  tf := s.mesh.mesh.tf
  dataT0 := dataFrom data (getDataT0 data)
  dataTf := dataFrom data (getDataTf data s.mesh.mesh)

/-- The instance after `callback_hessian`, if `eval_hes` calls it. -/
def hessianCallback (cb : Callbacks T) (newX newLambda : Bool) (currLambda : List K)
    (currObjFactor : K) : Option (Instance T) :=
  let s := (s.checkNewX newX).checkNewLambda newLambda
  if s.evaluationState.hes then none
  else
    let s := if s.evaluationState.jacG then s else s.callbackJacobian cb (raw currX)
    some (s.callbackHessian cb P (raw currX) currLambda currObjFactor)

/-- An evaluation reads the buffers behind it. -/
theorem evalHes_hessianCallback (cb : Callbacks T) (newX newLambda : Bool)
    (currLambda currHes : List K) (currObjFactor : K) :
    s.evalHes cb P newX currX newLambda currLambda currObjFactor currHes =
      let t := (hessianCallback P s currX cb newX newLambda currLambda currObjFactor).getD
        ((s.checkNewX newX).checkNewLambda newLambda)
      (t.evalHesInternal P).map fun hes => (t, fill currHes.length hes) := by
  unfold Instance.evalHes hessianCallback
  dsimp only
  split <;> rfl

variable {P s currX} {cb : Callbacks T} {newX newLambda : Bool} {currLambda : List K}
variable {currObjFactor : K}

/-- Nothing is called while the flag stays set. -/
theorem hessianCallback_eq_none :
    hessianCallback P s currX cb newX newLambda currLambda currObjFactor = none ↔
      s.evaluationState.hes = true ∧ newX = false ∧ newLambda = false := by
  unfold hessianCallback
  cases newX <;> cases newLambda <;>
    simp [Instance.checkNewX, Instance.checkNewLambda, NLPState.checkResetX,
      NLPState.checkResetLambda]

theorem hessianCallback_eq_some {i : Instance T}
    (h : hessianCallback P s currX cb newX newLambda currLambda currObjFactor = some i) :
    ∃ t : Instance T, i = t.callbackHessian cb P (raw currX) currLambda currObjFactor ∧
      t.mesh = s.mesh ∧ t.off = s.off ∧ t.transformedLambda = s.transformedLambda := by
  unfold hessianCallback at h
  dsimp only at h
  split at h
  · cases h
  · cases h
    refine ⟨_, rfl, ?_⟩
    split <;> exact ⟨rfl, rfl, rfl⟩

variable (P s currX)

/-- `s` is the instance after `callback_hessian` at `currX` with the multipliers `currLambda`. -/
structure HessianInputs (u : UserCallbacks K) (rows : List Nat) (currLambda : List K) (sigma : K) :
    Prop where
  inside : ∀ a ∈ hesAccesses P s.mesh.mesh s.off s.transformedLambda.length,
    a.Inside rows s.transformedLambda.length
  hesLfg : s.buffers.hes = windows s.mesh.mesh P.full.hes.nnz fun i j =>
    u.callHesLfg (hesLfgArgs data P s currX i j)
  f : ∀ i j k, (Constraint.f i j k).Ok P s.mesh.mesh →
    ((hesLfgArgs data P s currX i j).lambda.map fun lambda => lambda k) =
      some (-s.mesh.mesh.deltaTAt i *
        raw currLambda ((Constraint.f i j k).index P (getSizes P s.mesh.mesh)))
  g : ∀ i j k, (Constraint.g i j k).Ok P s.mesh.mesh →
    ((hesLfgArgs data P s currX i j).lambda.map fun lambda => lambda (P.pc.fSize + k)) =
      some (raw currLambda ((Constraint.g i j k).index P (getSizes P s.mesh.mesh)))
  factor : P.pc.hasLagrange = true → ∀ i j, i < s.mesh.mesh.intervals → j < s.mesh.mesh.nodesAt i →
    (hesLfgArgs data P s currX i j).objFactor =
      sigma * T.getB (s.mesh.mesh.nodesAt i) j * s.mesh.mesh.deltaTAt i
  hesMr : s.buffers.mrHes = u.callHesMr (hesMrArgs data P s currX sigma)
  r : ∀ k, (Constraint.r k).Ok P s.mesh.mesh →
    ((hesMrArgs data P s currX sigma).lambda.map fun lambda => lambda k) =
      some (raw currLambda ((Constraint.r k).index P (getSizes P s.mesh.mesh)))

end Calls

section Inputs

variable {K : Type} [Field K] {T : FLGR K} {data : Problem T} {P : GDOP.Problem K}
variable {u : UserCallbacks K} {s : Instance T}

/-- The multipliers behind the pointers, once the instance has those of the mesh. -/
theorem callbackHessian_read (hoff : s.off = getSizes P s.mesh.mesh)
    (hl : s.transformedLambda.length = (getSizes P s.mesh.mesh).numberConstraints)
    (cb : Callbacks T) (x : Nat → K) (currLambda : List K) (sigma : K) {c : Constraint}
    (hc : c.Ok P s.mesh.mesh) :
    Constraint.read P s.mesh.mesh s.off
        (raw (s.callbackHessian cb P x currLambda sigma).transformedLambda) c =
      some (Constraint.transformed s.mesh.mesh
        (raw currLambda (c.index P (getSizes P s.mesh.mesh))) c) := by
  have hlt := Constraint.index_lt hc
  rw [hoff, Constraint.read_eq hc]
  unfold Instance.callbackHessian
  dsimp only
  rw [raw_fill_lt _ (by rw [hl]; exact hlt), hoff, updateTransformedLambda_index hc]

theorem callbackHessian_inputs (hoff : s.off = getSizes P s.mesh.mesh)
    (hl : s.transformedLambda.length = (getSizes P s.mesh.mesh).numberConstraints)
    {rows : List Nat} (hrows : ∀ i j, i < s.mesh.mesh.intervals → j < s.mesh.mesh.nodesAt i →
      j < rows.getD i 0) (currX currLambda : List K) (sigma : K) :
    HessianInputs data P (s.callbackHessian (callbacks data P u) P (raw currX) currLambda sigma)
      currX u rows currLambda sigma := by
  have read {c : Constraint} (hc : c.Ok P s.mesh.mesh) :=
    callbackHessian_read hoff hl (callbacks data P u) (raw currX) currLambda sigma hc
  have hn : (s.callbackHessian (callbacks data P u) P (raw currX) currLambda
      sigma).transformedLambda.length = (getSizes P s.mesh.mesh).numberConstraints :=
    (fill_length ..).trans hl
  exact
    { inside := by
        rw [hn]
        show ∀ a ∈ hesAccesses P s.mesh.mesh s.off _, _
        rw [hoff]
        exact hesAccesses_inside hrows
      hesLfg := rfl
      f := fun i j k hc => (read hc).trans (congrArg some (mul_comm _ _))
      g := fun i j k hc => read hc
      factor := fun hlag i j hi hj => updateLagrangeObjFactors_node hlag hi hj sigma _
      hesMr := rfl
      r := fun k hc => read hc }

end Inputs

/-- In every run, of an evaluation once the sizes and the pattern of the Hessian have been queried.
`newX` to `sigma` are what GDOP is passed. -/
theorem hessian_inputs_iff {K : Type} [Field K] [LinearOrder K] {T : FLGR K} (c : CProblem K)
    (data : Problem T) (u : UserCallbacks K) (past : Nat → Nat × Nat) (mesh : MeshPtr T)
    (cs : List (Call T)) {s : State T}
    (hr : run (callbacks data (createGdopProblem c) u) (createGdopProblem c) past
      (State.start mesh) cs = some s)
    (hi : (Ledger.notes (createGdopProblem c) { mesh } cs).info = true)
    (hq : 0 < (Ledger.notes (createGdopProblem c) { mesh } cs).hes)
    (newX : Bool) (currX : List K) (newLambda : Bool) (currLambda : List K) (sigma : K) :
    (∀ i, hessianCallback (createGdopProblem c) s.inst currX
        (callbacks data (createGdopProblem c) u) newX newLambda currLambda sigma = some i →
      HessianInputs data (createGdopProblem c) i currX u
        (factorRows (createGdopProblem c) { mesh } [] cs) currLambda sigma) ↔
    c.hasLagrange = true ∨
      (s.inst.evaluationState.hes = true ∧ newX = false ∧ newLambda = false) := by
  have start : Synced (createGdopProblem c) { mesh } (State.start mesh) :=
    ⟨rfl, rfl, fun hi => (by cases hi)⟩
  have hs := start.run hr
  have hx : Extents (createGdopProblem c) _ (factorRows (createGdopProblem c) { mesh } [] cs) s :=
    Extents.run ⟨fun _ hi => (by cases hi), fun hi => (by cases hi)⟩ start hr
  have hoff := hs.off hi
  have hl := hx.lambda hi hq
  rw [← hs.mesh] at hl
  constructor
  · intro h
    cases hcall : hessianCallback (createGdopProblem c) s.inst currX
        (callbacks data (createGdopProblem c) u) newX newLambda currLambda sigma with
    | none => exact .inr (hessianCallback_eq_none.mp hcall)
    | some i =>
      have hin := (h i hcall).inside
      have hpos := i.mesh.mesh.intervals_pos
      cases hlag : c.hasLagrange with
      | true => exact .inl rfl
      | false =>
        -- there are no rows, and the full sweep reads the first node
        rw [factorRows_nil hlag] at hin
        exact absurd (hin _ (factor_mem_hesAccesses _ _ hpos (i.mesh.mesh.nodesAt_pos hpos)))
          (Nat.not_lt_zero 0)
  · rintro (hlag | hcached) i hcall
    · obtain ⟨t, rfl, hm, ho, ht⟩ := hessianCallback_eq_some hcall
      rw [← ho, ← hm] at hoff
      rw [← ht, ← hm] at hl
      refine callbackHessian_inputs hoff hl ?_ currX currLambda sigma
      intro i j hi' hj
      rw [hx.rows hlag hi hq, ← hs.mesh, ← hm, getD_fill, if_pos hi']
      exact hj
    · rw [hessianCallback_eq_none.mpr hcached] at hcall
      cases hcall

/-! `mayer` with its Lagrange term, and a state `x` with `x' = x` without one. -/

section Mayer

def noData : Problem eulerTables where
  rawData := []
  rp := []
  data := none
  dataChunkSize := 0

def noLagrange : CProblem ℚ :=
  { mayer with
    uSize := 0
    xuSize := 1
    hasLagrange := false
    lfgJac := .ofTriplets [⟨0, 0, 0⟩]
    mrLtHes := .ofTriplets []
    xu_size := rfl }

/-- The queries of a solve. -/
def queried : List (Call eulerTables) := [.getInfo, .getJacSparsity, .getHesSparsity]

theorem hessian_inputs_iff_mayer : ∃ s, run (callbacks noData (createGdopProblem mayer) echo)
      (createGdopProblem mayer) (fun _ => (0, 0)) (State.start oneStep) queried = some s ∧
    ∀ i, hessianCallback (createGdopProblem mayer) s.inst [0, 1, 2]
        (callbacks noData (createGdopProblem mayer) echo) true true [3] 1 = some i →
      HessianInputs noData (createGdopProblem mayer) i [0, 1, 2] echo
        (factorRows (createGdopProblem mayer) { mesh := oneStep } [] queried) [3] 1 :=
  ⟨_, rfl, (hessian_inputs_iff mayer noData echo (fun _ => (0, 0)) oneStep queried rfl rfl
    Nat.one_pos true [0, 1, 2] true [3] 1).mpr (.inl rfl)⟩

/-- The first Hessian evaluation reads a factor behind the end of the table. -/
theorem factor_outside : ∃ s i, run (callbacks noData (createGdopProblem noLagrange) echo)
      (createGdopProblem noLagrange) (fun _ => (0, 0)) (State.start oneStep) queried = some s ∧
    hessianCallback (createGdopProblem noLagrange) s.inst [0, 1]
      (callbacks noData (createGdopProblem noLagrange) echo) true true [3] 1 = some i ∧
    ¬ HessianInputs noData (createGdopProblem noLagrange) i [0, 1] echo
      (factorRows (createGdopProblem noLagrange) { mesh := oneStep } [] queried) [3] 1 := by
  refine ⟨_, _, rfl, rfl, fun h => ?_⟩
  have hin := h.inside (.factor 0 0) (factor_mem_hesAccesses _ _ Nat.one_pos Nat.one_pos)
  exact absurd hin (Nat.not_lt_zero 0)

end Mayer

end C
end Moo
