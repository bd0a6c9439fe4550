import Moo.Base.PiecewisePolynomial
import Moo.Simulation.Jacobian

/-!
# Simulation.Integrator

An integrator as its callbacks see it: right-hand side, Jacobian and dense output. All three read
the controls from one buffer, which is written when the time is not that of the last query.

* `setControls`, `getOde`, `getDenseJac`, `radauDenseOutput`, `simulate`. A read outside of an array
  has no result (`none`).
* `Ready`: the buffer holds the controls at the last time. Every callback keeps it
  (`callback_total`), whichever times it asks for.
* `radauDenseOutput_spec`: an output call takes the grid points up to the end of its step.
* `denseOutput_complete`: over all the output calls, each grid point is taken once.
-/

namespace Moo
namespace Simulation

open Loop FixedVector

/-- What the constructor sets and nothing changes. -/
structure System (K : Type) where
  odeFunc : List K → List K → List K → K → List K
  jacFunc : Option (List K → List K → List K → K → Nat → K) := none
  jacPattern : Jacobian := ⟨.dense, fun _ => 0, fun _ => 0, 0⟩
  xSize : Nat
  pSize : Nat := 0
  parameters : List K := []

/-- `lastT` is `⊥` for `MINUS_INFINITY`. -/
structure Integrator {K : Type} [Field K] (T : FLGR K) where
  denseOutputGrid : List K
  output : Trajectory T := {}
  u : List K
  uSize : Nat
  internalControls : Option (ControlTrajectory T)
  lastT : WithBot K := ⊥
  denseOutputIndex : Nat := 0

/-- A call of the output routine: the step `[told, t]` and its continuous extension `contra_`. -/
structure OutputCall (K : Type) where
  told : K
  t : K
  contra : Nat → K → K

/-- What RADAU calls. -/
inductive Callback (K : Type) where
  | fcn (t : K) (x : List K)
  | jac (t : K) (x : List K) (dfx : Nat → K)
  | solout (call : OutputCall K)

section Model

variable {K : Type} [Field K] [LinearOrder K] {T : FLGR K} (sys : System K)

namespace Integrator

variable (s : Integrator T)

def new (grid : List K) (controls : Option (ControlTrajectory T)) : Integrator T where
  denseOutputGrid := grid
  u := List.replicate (controls.elim 0 fun c => c.u.length) 0
  uSize := controls.elim 0 fun c => c.u.length
  internalControls := controls

def setControls (t : K) : Option (Integrator T) :=
  match s.internalControls with
  | some controls =>
    if (t : WithBot K) ≠ s.lastT then
      (controls.interpolateAt t).map fun r =>
        { s with u := r.1, internalControls := some r.2, lastT := t }
    else some { s with lastT := t }
  | none => some { s with lastT := t }

def getOde (t : K) (x : List K) : Option (List K × Integrator T) :=
  (s.setControls t).map fun s => (sys.odeFunc x s.u sys.parameters t, s)

def getDenseJac (t : K) (x : List K) (out : Nat → K) : Option ((Nat → K) × Integrator T) :=
  match sys.jacFunc with
  | none => some (out, s)
  | some jacFunc => (s.setControls t).map fun s =>
      (getDenseJacobian sys.xSize sys.jacPattern (jacFunc x s.u sys.parameters t) out, s)

/-- `for (i = 0; i < n; i++) series[i].push_back(v(i))`. -/
def pushBack (n : Nat) (v : Nat → K) (series : List (List K)) : List (List K) :=
  forRange n (fun i series => series.modify i (· ++ [v i])) series

/-- One pass of the loop over the grid. -/
def denseOutputPass (call : OutputCall K) (s : Integrator T) : Option (Integrator T) :=
  (s.denseOutputGrid[s.denseOutputIndex]?).bind fun tEval =>
    if tEval < call.told then some { s with denseOutputIndex := s.denseOutputIndex + 1 }
    else
      let output := { s.output with
        t := s.output.t ++ [tEval]
        x := pushBack sys.xSize (fun xIdx => call.contra (xIdx + 1) tEval) s.output.x }
      (setControls { s with output := output } tEval).map fun s =>
        { s with
          output := { s.output with u := pushBack s.uSize (fun uIdx => raw s.u uIdx) s.output.u }
          denseOutputIndex := s.denseOutputIndex + 1 }

/-- `idx < grid.size()` and `t_eval <= *t`. -/
def denseOutputCond (call : OutputCall K) (s : Integrator T) : Option Bool :=
  if s.denseOutputIndex < s.denseOutputGrid.length then
    (s.denseOutputGrid[s.denseOutputIndex]?).map fun tEval => decide (¬ call.t < tEval)
  else some false

def radauDenseOutput (call : OutputCall K) (s : Integrator T) : Option (Integrator T) :=
  Checked.whileLoop (s.denseOutputGrid.length - s.denseOutputIndex + 1) (denseOutputCond call)
    (denseOutputPass sys call) s

def callback (s : Integrator T) : Callback K → Option (Integrator T)
  | .fcn t x => (s.getOde sys t x).map Prod.snd
  | .jac t x dfx => (s.getDenseJac sys t x dfx).map Prod.snd
  | .solout call => radauDenseOutput sys call s

def runCallbacks (s : Integrator T) (events : List (Callback K)) : Option (Integrator T) :=
  events.foldlM (callback sys) s

def newOutput : Integrator T :=
  { s with
    output := { x := List.replicate sys.xSize [], u := List.replicate s.uSize [] }
    denseOutputIndex := 0 }

/-- `simulate` up to the call of RADAU in `internal_simulate`. -/
def start : Option (Integrator T) :=
  (s.denseOutputGrid[0]?).bind fun t0 =>
    (if s.internalControls.isSome then s.setControls t0 else some s).map (newOutput sys)

/-- What `simulate` returns. -/
def finish (returnCode : Int) : Option (Trajectory T) :=
  if returnCode < 0 then none
  else some { s.output with p := (List.range sys.pSize).map (raw sys.parameters) }

/-- `simulate` where RADAU makes the calls `events` and ends with `returnCode`. -/
def simulate (grid : List K) (events : List (Callback K)) (returnCode : Int) :
    Option (Option (Trajectory T) × Integrator T) :=
  (start sys { s with denseOutputGrid := grid }).bind fun s =>
    (s.runCallbacks sys events).map fun s => (s.finish sys returnCode, s)

/-- An integrator with `controls` after any simulations. -/
inductive Reachable (controls : Option (ControlTrajectory T)) : Integrator T → Prop where
  | new (grid : List K) : Reachable controls (new grid controls)
  | simulate {s s' : Integrator T} {grid : List K} {events : List (Callback K)} {returnCode : Int}
      {result : Option (Trajectory T)} (h : Reachable controls s)
      (hs : s.simulate sys grid events returnCode = some (result, s')) : Reachable controls s'

end Integrator

/-! ## The control buffer -/

namespace Integrator

variable [IsStrictOrderedRing K] {v : K → List K} {s : Integrator T}

/-- The controls are `v`, and the buffer holds them at the last time. -/
structure Ready (v : K → List K) (s : Integrator T) : Prop where
  controls : ∀ c, s.internalControls = some c → c.Usable ∧ c.valuesAt = v
  absent : s.internalControls = none → ∀ t, v t = s.u
  cached : ∀ t : K, (t : WithBot K) = s.lastT → s.u = v t

/-- Whatever the last time was, the buffer then holds the controls at `t`. -/
theorem setControls_spec (h : Ready v s) (t : K) : ∃ controls,
    s.setControls t = some { s with u := v t, internalControls := controls, lastT := t } ∧
      Ready v { s with u := v t, internalControls := controls, lastT := t } := by
  cases hc : s.internalControls with
  | none =>
    have hu : s.u = v t := (h.absent hc t).symm
    refine ⟨none, ?_, ?_, ?_, ?_⟩
    · simp only [setControls, hc, ← hu]
    · intro c hc'
      cases hc'
    · intro _ t'
      exact (h.absent hc t').trans hu
    · intro t' ht
      rw [WithBot.coe_inj.mp ht]
  | some c =>
    obtain ⟨husable, hval⟩ := h.controls c hc
    by_cases hlast : (t : WithBot K) = s.lastT
    · -- The cached time: nothing is written.
      have hu : s.u = v t := h.cached t hlast
      refine ⟨some c, ?_, ?_, ?_, ?_⟩
      · simp [setControls, hc, hlast, ← hu]
      · intro c' hc'
        obtain rfl := Option.some.inj hc'
        exact ⟨husable, hval⟩
      · intro hc'
        cases hc'
      · intro t' ht
        rw [WithBot.coe_inj.mp ht]
    · obtain ⟨c', hq, husable', hsame⟩ := ControlTrajectory.interpolateAt_step husable t
      refine ⟨some c', ?_, ?_, ?_, ?_⟩
      · simp [setControls, hc, hlast, hq, hval]
      · intro c'' hc''
        obtain rfl := Option.some.inj hc''
        exact ⟨husable', hsame.valuesAt.trans hval⟩
      · intro hc''
        cases hc''
      · intro t' ht
        rw [WithBot.coe_inj.mp ht]

theorem getOde_spec (h : Ready v s) (t : K) (x : List K) : ∃ controls,
    s.getOde sys t x = some (sys.odeFunc x (v t) sys.parameters t,
      { s with u := v t, internalControls := controls, lastT := t }) ∧
      Ready v { s with u := v t, internalControls := controls, lastT := t } := by
  obtain ⟨controls, hs, hr⟩ := setControls_spec h t
  refine ⟨controls, ?_, hr⟩
  rw [getOde, hs, Option.map_some]

theorem getDenseJac_spec {jacFunc : List K → List K → List K → K → Nat → K}
    (hjac : sys.jacFunc = some jacFunc) (h : Ready v s) (t : K) (x : List K) (out : Nat → K) :
    ∃ controls, s.getDenseJac sys t x out =
      some (getDenseJacobian sys.xSize sys.jacPattern (jacFunc x (v t) sys.parameters t) out,
        { s with u := v t, internalControls := controls, lastT := t }) ∧
      Ready v { s with u := v t, internalControls := controls, lastT := t } := by
  obtain ⟨controls, hs, hr⟩ := setControls_spec h t
  refine ⟨controls, ?_, hr⟩
  simp only [getDenseJac, hjac, hs, Option.map_some]

end Integrator

/-! ## The dense output -/

/-- A sample: the time, the states and the controls. -/
structure Sample (K : Type) where
  t : K
  x : Nat → K
  u : List K

def collected (T : FLGR K) (xSize uSize : Nat) (samples : List (Sample K)) : Trajectory T where
  t := samples.map fun a => a.t
  x := (List.range xSize).map fun i => samples.map fun a => a.x i
  u := (List.range uSize).map fun i => samples.map fun a => raw a.u i

/-- The sample that an output call takes at `g`, where the controls are `v`. -/
def sampleAt (v : K → List K) (call : OutputCall K) (g : K) : Sample K where
  t := g
  x := fun i => call.contra (i + 1) g
  u := v g

namespace Integrator

variable [IsStrictOrderedRing K] {v : K → List K} {s : Integrator T}

omit [Field K] [LinearOrder K] [IsStrictOrderedRing K] in
theorem pushBack_getElem? (n : Nat) (w : Nat → K) (series : List (List K)) (k : Nat) :
    (pushBack n w series)[k]? =
      if k < n then series[k]?.map (· ++ [w k]) else series[k]? := by
  induction n with
  | zero => rfl
  | succ n ih =>
    rw [pushBack, forRange_succ, ← pushBack, List.getElem?_modify, ih]
    by_cases hk : n = k
    · subst hk
      simp
    · have hlt : k < n + 1 ↔ k < n := by omega
      simp [hk, hlt]

omit [Field K] [LinearOrder K] [IsStrictOrderedRing K] in
theorem pushBack_map (n : Nat) (w : Nat → K) (f : Nat → List K) :
    pushBack n w ((List.range n).map f) = (List.range n).map fun i => f i ++ [w i] := by
  refine List.ext_getElem? fun k => ?_
  rw [pushBack_getElem?, List.getElem?_map, List.getElem?_map]
  by_cases hk : k < n
  · rw [if_pos hk, List.getElem?_range hk]
    rfl
  · rw [if_neg hk, List.getElem?_eq_none (by simpa using hk)]
    rfl

/-- The integrator has taken `samples`; the points `rest` of its grid are still to come. -/
structure Collecting (v : K → List K) (grid : List K) (uSize : Nat) (samples : List (Sample K))
    (rest : List K) (s : Integrator T) : Prop where
  ready : Ready v s
  onGrid : s.denseOutputGrid = grid
  controls : s.uSize = uSize
  output : s.output = collected T sys.xSize uSize samples
  ahead : grid.drop s.denseOutputIndex = rest

/-- The integrator once it has taken the sample at `g`. -/
def taken (v : K → List K) (s : Integrator T) (call : OutputCall K) (g : K)
    (controls : Option (ControlTrajectory T)) : Integrator T :=
  { s with
    u := v g
    internalControls := controls
    lastT := g
    output := { s.output with
      t := s.output.t ++ [g]
      x := pushBack sys.xSize (fun xIdx => call.contra (xIdx + 1) g) s.output.x
      u := pushBack s.uSize (fun uIdx => raw (v g) uIdx) s.output.u }
    denseOutputIndex := s.denseOutputIndex + 1 }

variable {sys} {grid : List K} {uSize : Nat} {samples : List (Sample K)}

omit [IsStrictOrderedRing K] in
theorem Collecting.getElem? {g : K} {rest : List K}
    (h : Collecting sys v grid uSize samples (g :: rest) s) :
    s.denseOutputGrid[s.denseOutputIndex]? = some g := by
  have hhead := congrArg (·[0]?) h.ahead
  simpa [h.onGrid] using hhead

omit [IsStrictOrderedRing K] in
theorem Collecting.cond {rest : List K} (h : Collecting sys v grid uSize samples rest s)
    (call : OutputCall K) :
    denseOutputCond call s = some (rest.head?.elim false fun g => decide (g ≤ call.t)) := by
  cases rest with
  | nil =>
    have hend : ¬ s.denseOutputIndex < s.denseOutputGrid.length := by
      rw [h.onGrid]
      exact not_lt.mpr (List.drop_eq_nil_iff.mp h.ahead)
    rw [denseOutputCond, if_neg hend]
    rfl
  | cons g rest =>
    have hlt := (List.getElem?_eq_some_iff.mp h.getElem?).1
    simp only [denseOutputCond, if_pos hlt, h.getElem?, Option.map_some, not_lt, List.head?_cons,
      Option.elim_some]

variable (sys) in
/-- The point at the cursor, when it is not before the step. -/
theorem denseOutputPass_taken (h : Ready v s) {g : K}
    (hget : s.denseOutputGrid[s.denseOutputIndex]? = some g) {call : OutputCall K}
    (hg : ¬ g < call.told) : ∃ controls,
      denseOutputPass sys call s = some (s.taken sys v call g controls) ∧
        Ready v (s.taken sys v call g controls) := by
  let output : Trajectory T := { s.output with
    t := s.output.t ++ [g]
    x := pushBack sys.xSize (fun xIdx => call.contra (xIdx + 1) g) s.output.x }
  have hready : Ready v { s with output := output } := ⟨h.controls, h.absent, h.cached⟩
  obtain ⟨controls, hs, hr⟩ := setControls_spec hready g
  refine ⟨controls, ?_, ⟨hr.controls, hr.absent, hr.cached⟩⟩
  simp only [denseOutputPass, hget, Option.bind_some, hg, if_false]
  exact congrArg (Option.map _) hs

theorem denseOutputPass_spec {g : K} {rest : List K}
    (h : Collecting sys v grid uSize samples (g :: rest) s) {call : OutputCall K}
    (hg : call.told ≤ g) : ∃ s', denseOutputPass sys call s = some s' ∧
      Collecting sys v grid uSize (samples ++ [sampleAt v call g]) rest s' := by
  have hrest : grid.drop (s.denseOutputIndex + 1) = rest := by
    rw [← List.tail_drop, h.ahead, List.tail_cons]
  obtain ⟨controls, hs, hr⟩ := denseOutputPass_taken sys h.ready h.getElem? hg.not_gt
  refine ⟨_, hs, hr, h.onGrid, h.controls, ?_, hrest⟩
  simp [taken, h.output, h.controls, collected, sampleAt, pushBack_map]

theorem radauDenseOutput_spec {call : OutputCall K} {rest : List K}
    (hg : ∀ g ∈ rest, call.told ≤ g) (h : Collecting sys v grid uSize samples rest s) :
    ∃ s', radauDenseOutput sys call s = some s' ∧
      Collecting sys v grid uSize
        (samples ++ (rest.takeWhile fun g => decide (g ≤ call.t)).map (sampleAt v call))
        (rest.dropWhile fun g => decide (g ≤ call.t)) s' := by
  have hfuel : s.denseOutputGrid.length - s.denseOutputIndex = rest.length := by
    rw [h.onGrid, ← h.ahead, List.length_drop]
  rw [radauDenseOutput, hfuel]
  clear hfuel
  induction rest generalizing s samples with
  | nil =>
    refine ⟨s, ?_, by simpa using h⟩
    rw [Checked.whileLoop, h.cond]
    rfl
  | cons g rest ih =>
    by_cases hle : g ≤ call.t
    · obtain ⟨s1, hs1, h1⟩ := denseOutputPass_spec h (hg g List.mem_cons_self)
      obtain ⟨s2, hs2, h2⟩ := ih (fun g' hg' => hg g' (List.mem_cons_of_mem _ hg')) h1
      refine ⟨s2, ?_, by simpa [hle] using h2⟩
      rw [List.length_cons, Checked.whileLoop, h.cond]
      simp [hle, hs1, hs2]
    · refine ⟨s, ?_, by simpa [hle] using h⟩
      rw [Checked.whileLoop, h.cond]
      simp [hle]

/-! ## Callbacks in any order -/

variable (sys) in
/-- Skipped or taken, a grid point leaves the buffer with the controls at the last time. -/
theorem denseOutputPass_total (h : Ready v s) (call : OutputCall K)
    (hlt : s.denseOutputIndex < s.denseOutputGrid.length) :
    ∃ s', denseOutputPass sys call s = some s' ∧ Ready v s' ∧ s'.uSize = s.uSize ∧
      s'.denseOutputGrid = s.denseOutputGrid ∧ s'.denseOutputIndex = s.denseOutputIndex + 1 := by
  have hget := List.getElem?_eq_getElem hlt
  by_cases hskip : s.denseOutputGrid[s.denseOutputIndex] < call.told
  · refine ⟨{ s with denseOutputIndex := s.denseOutputIndex + 1 }, ?_,
      ⟨h.controls, h.absent, h.cached⟩, rfl, rfl, rfl⟩
    rw [denseOutputPass, hget, Option.bind_some, if_pos hskip]
  · obtain ⟨controls, hs, hr⟩ := denseOutputPass_taken sys h hget hskip
    exact ⟨_, hs, hr, rfl, rfl, rfl⟩

variable (sys) in
/-- Right-hand side and Jacobian touch neither the grid nor the output. -/
theorem query_total (h : Ready v s) {e : Callback K} (he : ∀ call, e ≠ .solout call) :
    ∃ s', callback sys s e = some s' ∧ Ready v s' ∧ s'.denseOutputGrid = s.denseOutputGrid ∧
      s'.uSize = s.uSize ∧ s'.output = s.output ∧ s'.denseOutputIndex = s.denseOutputIndex := by
  cases e with
  | fcn t x =>
    obtain ⟨controls, hs, hr⟩ := getOde_spec sys h t x
    refine ⟨_, ?_, hr, rfl, rfl, rfl, rfl⟩
    rw [callback, hs, Option.map_some]
  | jac t x dfx =>
    cases hjac : sys.jacFunc with
    | none => exact ⟨s, by simp [callback, getDenseJac, hjac], h, rfl, rfl, rfl, rfl⟩
    | some jacFunc =>
      obtain ⟨controls, hs, hr⟩ := getDenseJac_spec sys hjac h t x dfx
      refine ⟨_, ?_, hr, rfl, rfl, rfl, rfl⟩
      rw [callback, hs, Option.map_some]
  | solout call => exact absurd rfl (he call)

variable (sys) in
/-- A callback has a result, and keeps the buffer in step with the last time. -/
theorem callback_total (h : Ready v s) (e : Callback K) :
    ∃ s', callback sys s e = some s' ∧ Ready v s' ∧ s'.uSize = s.uSize := by
  cases e with
  | fcn t x =>
    obtain ⟨s', hs, hr, -, hu, -⟩ := query_total sys h (e := .fcn t x) (by simp)
    exact ⟨s', hs, hr, hu⟩
  | jac t x dfx =>
    obtain ⟨s', hs, hr, -, hu, -⟩ := query_total sys h (e := .jac t x dfx) (by simp)
    exact ⟨s', hs, hr, hu⟩
  | solout call =>
    have step : ∀ r : Integrator T, (Ready v r ∧ r.uSize = s.uSize) →
        denseOutputCond call r = some false ∨ denseOutputCond call r = some true ∧
          ∃ r', denseOutputPass sys call r = some r' ∧ (Ready v r' ∧ r'.uSize = s.uSize) ∧
            r'.denseOutputGrid.length - r'.denseOutputIndex <
              r.denseOutputGrid.length - r.denseOutputIndex := by
      rintro r ⟨hr, hu⟩
      by_cases hlt : r.denseOutputIndex < r.denseOutputGrid.length
      · by_cases hle : call.t < r.denseOutputGrid[r.denseOutputIndex]
        · exact .inl (by simp [denseOutputCond, hlt, hle])
        · obtain ⟨r', hr', hready, hu', hgrid, hidx⟩ := denseOutputPass_total sys hr call hlt
          refine .inr ⟨by simp [denseOutputCond, hlt, not_lt.mp hle], r', hr',
            ⟨hready, hu'.trans hu⟩, ?_⟩
          rw [hgrid, hidx]
          omega
      · exact .inl (by simp [denseOutputCond, hlt])
    obtain ⟨s', hs', hinv, _⟩ := Checked.whileLoop_total step _ s ⟨h, rfl⟩ (Nat.lt_succ_self _)
    exact ⟨s', hs', hinv⟩

variable (sys) in
theorem runCallbacks_total (h : Ready v s) (events : List (Callback K)) :
    ∃ s', s.runCallbacks sys events = some s' ∧ Ready v s' ∧ s'.uSize = s.uSize := by
  induction events generalizing s with
  | nil => exact ⟨s, rfl, h, rfl⟩
  | cons e events ih =>
    obtain ⟨s1, hs1, h1, hu1⟩ := callback_total sys h e
    obtain ⟨s2, hs2, h2, hu2⟩ := ih h1
    refine ⟨s2, ?_, h2, hu2.trans hu1⟩
    rw [runCallbacks, List.foldlM_cons, hs1]
    exact hs2

theorem Collecting.query {rest : List K} (h : Collecting sys v grid uSize samples rest s)
    {e : Callback K} (he : ∀ call, e ≠ .solout call) :
    ∃ s', callback sys s e = some s' ∧ Collecting sys v grid uSize samples rest s' := by
  obtain ⟨s', hs, hr, hg, hu, ho, hi⟩ := query_total sys h.ready he
  refine ⟨s', hs, hr, hg.trans h.onGrid, hu.trans h.controls, ho.trans h.output, ?_⟩
  rw [hi]
  exact h.ahead

end Integrator

/-! ## All the steps -/

/-- The output calls among the callbacks. -/
def outputCalls (events : List (Callback K)) : List (OutputCall K) :=
  events.filterMap fun e => match e with
    | .solout call => some call
    | _ => none

/-- Each step begins where the last one has ended. -/
def Contiguous : K → List (OutputCall K) → K → Prop
  | a, [], b => a = b
  | a, call :: calls, b => call.told = a ∧ a ≤ call.t ∧ Contiguous call.t calls b

/-- The first call is for the start point. -/
structure Covers (a : K) (calls : List (OutputCall K)) (b : K) : Prop where
  start : calls.head?.map OutputCall.t = some a
  contiguous : Contiguous a calls b

/-- The step that contains `g`, the earlier one of two that meet there. -/
def stepAt (calls : List (OutputCall K)) (g : K) : Option (OutputCall K) :=
  calls.find? fun call => decide (g ≤ call.t)

def extensionAt (calls : List (OutputCall K)) (g : K) (i : Nat) : K :=
  (stepAt calls g).elim 0 fun call => call.contra (i + 1) g

omit [Field K] in
theorem stepAt_mem {calls : List (OutputCall K)} {a b g : K} (h : Contiguous a calls b)
    (hne : calls ≠ []) (ha : a ≤ g) (hb : g ≤ b) :
    ∃ call ∈ calls, stepAt calls g = some call ∧ call.told ≤ g ∧ g ≤ call.t := by
  induction calls generalizing a with
  | nil => exact absurd rfl hne
  | cons call calls ih =>
    obtain ⟨htold, hle, hrest⟩ := h
    by_cases hg : g ≤ call.t
    · refine ⟨call, List.mem_cons_self, ?_, htold.trans_le ha, hg⟩
      simp [stepAt, hg]
    · have hne' : calls ≠ [] := by
        rintro rfl
        exact hg (hb.trans_eq (Eq.symm hrest))
      obtain ⟨c, hc, hs, hc'⟩ := ih hrest hne' (not_le.mp hg).le
      refine ⟨c, List.mem_cons_of_mem _ hc, ?_, hc'⟩
      rw [stepAt, List.find?_cons_of_neg (by simpa using hg)]
      exact hs

namespace Integrator

variable [IsStrictOrderedRing K] {v : K → List K} {s : Integrator T} {sys}
variable {grid : List K} {uSize : Nat} {samples : List (Sample K)}

/-- The sample at `g` after all the calls. -/
def sampleOn (v : K → List K) (calls : List (OutputCall K)) (g : K) : Sample K where
  t := g
  x := extensionAt calls g
  u := v g

omit [Field K] [IsStrictOrderedRing K] in
theorem lt_of_mem_dropWhile {l : List K} (hl : l.Pairwise (· ≤ ·)) {t g : K}
    (hg : g ∈ l.dropWhile fun g => decide (g ≤ t)) : t < g := by
  induction l with
  | nil => cases hg
  | cons a l ih =>
    obtain ⟨hle, hl⟩ := List.pairwise_cons.mp hl
    by_cases ha : a ≤ t
    · rw [List.dropWhile_cons_of_pos (by simpa using ha)] at hg
      exact ih hl hg
    · rw [List.dropWhile_cons_of_neg (by simpa using ha)] at hg
      rcases List.mem_cons.mp hg with rfl | hg
      · exact not_le.mp ha
      · exact (not_le.mp ha).trans_le (hle g hg)

omit [IsStrictOrderedRing K] in
/-- What one call takes, and what it leaves for the others. -/
theorem map_sampleOn {call : OutputCall K} {calls : List (OutputCall K)} {rest : List K}
    (hrest : rest.Pairwise (· ≤ ·)) : rest.map (sampleOn v (call :: calls)) =
      (rest.takeWhile fun g => decide (g ≤ call.t)).map (sampleAt v call) ++
        (rest.dropWhile fun g => decide (g ≤ call.t)).map (sampleOn v calls) := by
  induction rest with
  | nil => rfl
  | cons g rest ih =>
    obtain ⟨hle, hrest⟩ := List.pairwise_cons.mp hrest
    by_cases hg : g ≤ call.t
    · have hsample : sampleOn v (call :: calls) g = sampleAt v call g := by
        have hext : extensionAt (call :: calls) g = fun i => call.contra (i + 1) g := by
          funext i
          simp [extensionAt, stepAt, hg]
        rw [sampleOn, sampleAt, hext]
      simp [hg, hsample, ih hrest]
    · have hsample : ∀ g' ∈ g :: rest, sampleOn v (call :: calls) g' = sampleOn v calls g' := by
        intro g' hg'
        have hlt : ¬ g' ≤ call.t := by
          rcases List.mem_cons.mp hg' with rfl | hg'
          · exact hg
          · exact fun h => hg ((hle g' hg').trans h)
        have hext : extensionAt (call :: calls) g' = extensionAt calls g' := by
          funext i
          simp [extensionAt, stepAt, hlt]
        rw [sampleOn, sampleOn, hext]
      rw [List.map_congr_left hsample, List.takeWhile_cons_of_neg (by simpa using hg),
        List.dropWhile_cons_of_neg (by simpa using hg)]
      rfl

/-- Steps up to `b`, with callbacks between them, take all the points up to `b`. -/
theorem runCallbacks_spec {a b : K} {rest : List K} (events : List (Callback K))
    (h : Collecting sys v grid uSize samples rest s) (hsorted : rest.Pairwise (· ≤ ·))
    (hsteps : Contiguous a (outputCalls events) b) (ha : ∀ g ∈ rest, a ≤ g)
    (hb : ∀ g ∈ rest, g ≤ b) (hend : outputCalls events = [] → rest = []) :
    ∃ s', s.runCallbacks sys events = some s' ∧ Collecting sys v grid uSize
      (samples ++ rest.map (sampleOn v (outputCalls events))) [] s' := by
  induction events generalizing s samples rest a with
  | nil =>
    obtain rfl := hend rfl
    exact ⟨s, rfl, by simpa using h⟩
  | cons e events ih =>
    by_cases he : ∃ call, e = .solout call
    · obtain ⟨call, rfl⟩ := he
      have hcalls : outputCalls (.solout call :: events) = call :: outputCalls events := rfl
      rw [hcalls] at hsteps ⊢
      obtain ⟨rfl, hle, hsteps⟩ := hsteps
      obtain ⟨s1, hs1, h1⟩ := radauDenseOutput_spec ha h
      have hsub : (rest.dropWhile fun g => decide (g ≤ call.t)).Sublist rest :=
        List.dropWhile_sublist _
      have hafter : ∀ g ∈ rest.dropWhile fun g => decide (g ≤ call.t), call.t < g :=
        fun g hg => lt_of_mem_dropWhile hsorted hg
      obtain ⟨s2, hs2, h2⟩ := ih h1 (hsorted.sublist hsub) hsteps (fun g hg => (hafter g hg).le)
        (fun g hg => hb g (hsub.subset hg)) fun hnil => by
          rw [hnil] at hsteps
          refine List.eq_nil_iff_forall_not_mem.mpr fun g hg => ?_
          exact absurd (hafter g hg) (not_lt.mpr ((hb g (hsub.subset hg)).trans_eq hsteps.symm))
      refine ⟨s2, ?_, ?_⟩
      · rw [runCallbacks, List.foldlM_cons, callback, hs1]
        exact hs2
      · rwa [map_sampleOn hsorted, ← List.append_assoc]
    · have hcalls : outputCalls (e :: events) = outputCalls events := by
        cases e with
        | fcn t x => rfl
        | jac t x dfx => rfl
        | solout call => exact absurd ⟨call, rfl⟩ he
      rw [hcalls] at hsteps hend ⊢
      obtain ⟨s1, hs1, h1⟩ := h.query fun call hcall => he ⟨call, hcall⟩
      obtain ⟨s2, hs2, h2⟩ := ih h1 hsorted hsteps ha hb hend
      refine ⟨s2, ?_, h2⟩
      rw [runCallbacks, List.foldlM_cons, hs1]
      exact hs2

/-! ## Simulations -/

def controlsAt (controls : Option (ControlTrajectory T)) : K → List K :=
  controls.elim (fun _ => []) fun c => c.valuesAt

/-- The buffer is in step with the last time, and there is a series for each control. -/
structure Idle (controls : Option (ControlTrajectory T)) (s : Integrator T) : Prop where
  ready : Ready (controlsAt controls) s
  controls : s.uSize = controls.elim 0 fun c => c.u.length

omit [IsStrictOrderedRing K] in
theorem new_idle {controls : Option (ControlTrajectory T)} (hc : ∀ c ∈ controls, c.Usable)
    (grid : List K) : Idle controls (new grid controls) := by
  refine ⟨⟨?_, ?_, ?_⟩, rfl⟩
  · rintro c rfl
    exact ⟨hc c rfl, rfl⟩
  · rintro rfl t
    rfl
  · intro t ht
    cases ht

omit [IsStrictOrderedRing K] in
theorem Ready.newOutput (h : Ready v s) : Ready v (s.newOutput sys) :=
  ⟨h.controls, h.absent, h.cached⟩

variable (sys) in
/-- `simulate` up to the call of RADAU. -/
theorem start_eq {controls : Option (ControlTrajectory T)} (h : Idle controls s) {t0 : K}
    (hgrid : s.denseOutputGrid[0]? = some t0) : ∃ r : Integrator T,
      s.start sys = some (r.newOutput sys) ∧ Ready (controlsAt controls) r ∧
      r.denseOutputGrid = s.denseOutputGrid ∧ r.uSize = s.uSize := by
  obtain ⟨controls', hs, hr⟩ := setControls_spec h.ready t0
  by_cases hc : s.internalControls.isSome
  · refine ⟨_, ?_, hr, rfl, rfl⟩
    rw [start, hgrid, Option.bind_some, if_pos hc, hs, Option.map_some]
  · refine ⟨s, ?_, h.ready, rfl, rfl⟩
    rw [start, hgrid, Option.bind_some, if_neg hc, Option.map_some]

variable (sys) in
/-- Nothing is taken yet. -/
theorem start_spec {controls : Option (ControlTrajectory T)} (h : Idle controls s) {t0 : K}
    (hgrid : s.denseOutputGrid[0]? = some t0) : ∃ s', s.start sys = some s' ∧
      Collecting sys (controlsAt controls) s.denseOutputGrid s.uSize [] s.denseOutputGrid s' := by
  obtain ⟨r, hs, hr, hg, hu⟩ := start_eq sys h hgrid
  refine ⟨_, hs, hr.newOutput, hg, hu, ?_, rfl⟩
  simp [newOutput, collected, hu]

theorem simulate_idle {controls : Option (ControlTrajectory T)} (h : Idle controls s)
    {events : List (Callback K)} {returnCode : Int} {result : Option (Trajectory T)}
    {s' : Integrator T} (hs : s.simulate sys grid events returnCode = some (result, s')) :
    Idle controls s' := by
  have hgrid : Idle controls { s with denseOutputGrid := grid } :=
    ⟨⟨h.ready.controls, h.ready.absent, h.ready.cached⟩, h.controls⟩
  obtain ⟨s1, hs1, hs⟩ := Option.bind_eq_some_iff.mp hs
  obtain ⟨s2, hs2, hs⟩ := Option.map_eq_some_iff.mp hs
  obtain ⟨-, rfl⟩ := Prod.mk.inj hs
  obtain ⟨t0, ht0, -⟩ := Option.bind_eq_some_iff.mp hs1
  obtain ⟨s1', hs1', hstart⟩ := start_spec sys hgrid ht0
  obtain rfl : s1' = s1 := Option.some.inj (hs1'.symm.trans hs1)
  obtain ⟨s2', hs2', hready, hu⟩ := runCallbacks_total sys hstart.ready events
  obtain rfl : s2' = s2 := Option.some.inj (hs2'.symm.trans hs2)
  exact ⟨hready, hu.trans (hstart.controls.trans h.controls)⟩

theorem Reachable.idle {controls : Option (ControlTrajectory T)} (hc : ∀ c ∈ controls, c.Usable)
    (h : Reachable sys controls s) : Idle controls s := by
  induction h with
  | new grid => exact new_idle hc grid
  | simulate _ hs ih => exact simulate_idle ih hs

/-- Whatever was simulated before and whenever the right-hand side is evaluated, the output has one
sample for each grid point: its time, the extension of the step that contains it, and the controls
there. -/
theorem denseOutput_complete {controls : Option (ControlTrajectory T)}
    (hc : ∀ c ∈ controls, c.Usable) (h : Reachable sys controls s) {g0 gn : K}
    (hsorted : grid.Pairwise (· ≤ ·)) (hfirst : grid.head? = some g0)
    (hlast : grid.getLast? = some gn) {events : List (Callback K)}
    (hsteps : Covers g0 (outputCalls events) gn) (returnCode : Int) :
    ∃ s', s.simulate sys grid events returnCode = some (s'.finish sys returnCode, s') ∧
      s'.output.t = grid ∧
      s'.output.x = (List.range sys.xSize).map (fun i =>
        grid.map fun g => extensionAt (outputCalls events) g i) ∧
      s'.output.u = (List.range (controls.elim 0 fun c => c.u.length)).map (fun i =>
        grid.map fun g => raw (controlsAt controls g) i) ∧
      ∀ g ∈ grid, ∃ call ∈ outputCalls events,
        stepAt (outputCalls events) g = some call ∧ call.told ≤ g ∧ g ≤ call.t := by
  have hidle := h.idle hc
  have hgrid : Idle controls { s with denseOutputGrid := grid } :=
    ⟨⟨hidle.ready.controls, hidle.ready.absent, hidle.ready.cached⟩, hidle.controls⟩
  have hne : outputCalls events ≠ [] := by
    intro hnil
    have hstart := hsteps.start
    rw [hnil] at hstart
    cases hstart
  have ha : ∀ g ∈ grid, g0 ≤ g := by
    cases grid with
    | nil => cases hfirst
    | cons a grid =>
      obtain rfl : a = g0 := Option.some.inj hfirst
      intro g hg
      rcases List.mem_cons.mp hg with rfl | hg
      · exact le_rfl
      · exact (List.pairwise_cons.mp hsorted).1 g hg
  have hb : ∀ g ∈ grid, g ≤ gn := by
    obtain ⟨init, rfl⟩ := List.getLast?_eq_some_iff.mp hlast
    intro g hg
    rcases List.mem_append.mp hg with hg | hg
    · exact (List.pairwise_append.mp hsorted).2.2 g hg gn (by simp)
    · exact (List.mem_singleton.mp hg).le
  rw [List.head?_eq_getElem?] at hfirst
  obtain ⟨s1, hs1, h1⟩ := start_spec sys hgrid hfirst
  obtain ⟨s2, hs2, h2⟩ := runCallbacks_spec events h1 hsorted hsteps.contiguous ha hb
    fun hnil => absurd hnil hne
  have hout : s2.output = collected T sys.xSize (controls.elim 0 fun c => c.u.length)
      (grid.map (sampleOn (controlsAt controls) (outputCalls events))) := by
    rw [h2.output, List.nil_append]
    exact congrArg (fun n => collected T sys.xSize n _) hidle.controls
  refine ⟨s2, ?_, ?_, ?_, ?_, fun g hg => stepAt_mem hsteps.contiguous hne (ha g hg) (hb g hg)⟩
  · rw [simulate, hs1, Option.bind_some, hs2, Option.map_some]
  · rw [hout]
    simp [collected, sampleOn, Function.comp_def]
  · rw [hout]
    simp [collected, sampleOn, Function.comp_def]
  · rw [hout]
    simp [collected, sampleOn, Function.comp_def]

end Integrator

end Model

section Ramp

open ControlTrajectory

/-- `x' = u` with one control. -/
def rampSystem : System ℚ where
  odeFunc := fun _ u _ _ => u
  xSize := 1

def rampEvents : List (Callback ℚ) :=
  [.solout ⟨0, 0, fun _ t => t⟩, .fcn (3 / 2) [0], .fcn 3 [0],
    .solout ⟨0, 3 / 2, fun _ t => t ^ 2⟩, .fcn 1 [1], .solout ⟨3 / 2, 2, fun _ t => t ^ 2⟩]

theorem rampControls_usable : ∀ c ∈ some rampControls, c.Usable := by
  intro c hc
  obtain rfl := Option.mem_some_iff.mp hc
  exact .linear (.inl rfl) ⟨by simp [rampControls], by simp [rampControls]⟩
    (by decide +kernel) (.inl rfl)

theorem denseOutput_complete_ramp : ∃ s' : Integrator radauTwo,
    (Integrator.new [] (some rampControls)).simulate rampSystem [0, 1, 1, 2] rampEvents 1 =
      some (s'.finish rampSystem 1, s') ∧
      s'.output.t = [0, 1, 1, 2] ∧
      s'.output.x = (List.range 1).map (fun i =>
        [0, 1, 1, 2].map fun g => extensionAt (outputCalls rampEvents) g i) ∧
      s'.output.u = (List.range 1).map (fun i =>
        [0, 1, 1, 2].map fun g => raw (Integrator.controlsAt (some rampControls) g) i) ∧
      ∀ g ∈ [0, 1, 1, 2], ∃ call ∈ outputCalls rampEvents,
        stepAt (outputCalls rampEvents) g = some call ∧ call.told ≤ g ∧ g ≤ call.t := by
  have hreach : Integrator.Reachable rampSystem (some rampControls)
      (Integrator.new [] (some rampControls)) := .new []
  refine Integrator.denseOutput_complete rampControls_usable hreach (by decide +kernel) rfl rfl
    ⟨rfl, ?_⟩ 1
  simp only [outputCalls, rampEvents, List.filterMap_cons, List.filterMap_nil, Contiguous]
  decide +kernel

end Ramp

end Simulation
end Moo
