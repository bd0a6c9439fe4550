import Moo.Simulation.Integrator

/-!
# Simulation.Radau

One simulation after the other with one `RadauIntegrator`.

`radau_` is a function of its in-parameters (`RadauIn`): what it does is a tree of the calls it
makes, where each answer selects what follows (`Radau`). It ends with the final state in `Y`, a step
size in `H` and a number of stages in `IWORK(13)`. The integrator passes the caller's array, its
member `h_init` and its array `iwork`.

* `simulate`, `simulateAll`: one call, and one after the other.
* `Radau.outcome`: how the tree ends when every question is answered from the controls.
  `Radau.run_agree`: so it ends, with the same output, whatever the buffer and the caches hold.
* `simulateAll_repeatable_iff`: all that leave the same in `Y`, `H` and `IWORK(13)` as one `radau_`
  does make the calls repeatable if and only if it leaves all three as they were (after the last
  call only `Y`). For the other direction `Radau.strict` rejects what no new integrator passes.
-/

namespace Moo
namespace Simulation

open Loop FixedVector Integrator

inductive RadauScheme where
  | adaptive | one | five | nine | thirteen
  deriving Repr, DecidableEq

/-- `min_m`, `max_m` and `start_m`. -/
def RadauScheme.stages : RadauScheme → Int × Int × Int
  | .one => (1, 1, 1)
  | .five => (3, 3, 3)
  | .nine => (5, 5, 5)
  | .thirteen => (7, 7, 7)
  | .adaptive => (1, 7, 5)

/-- The in-parameters of `radau_`. Of its work arrays these are `WORK(1..20)` and `IWORK(1..13)`. -/
structure RadauIn (K : Type) where
  n : Nat
  x : K
  y : List K
  xend : K
  h : K
  rtol : K
  atol : K
  itol : Int := 0
  ijac : Int
  mljac : Int := 0
  mujac : Int := 0
  imas : Int := 0
  mlmas : Int := 0
  mumas : Int := 0
  iout : Int := 1
  work : List K
  lwork : Nat
  iwork : List Int
  liwork : Nat
  rpar : K
  ipar : Int := 0

/-- What `radau_` leaves: `Y`, `H`, `IWORK(13)`, the rest of the two work arrays and `IDID`. -/
structure RadauOut (K : Type) where
  y : List K
  h : K
  ns : Int
  workRest : List K := []
  iworkRest : List Int := []
  idid : Int

inductive Radau (K : Type) where
  | fcn (t : K) (x : List K) (next : List K → Radau K)
  | jac (t : K) (x : List K) (dfx : Nat → K) (next : (Nat → K) → Radau K)
  | solout (call : OutputCall K) (next : Radau K)
  | done (out : RadauOut K)

structure RadauSettings (K : Type) where
  scheme : RadauScheme := .adaptive
  hInit : K
  atol : K
  rtol : K
  maxIt : Int := 100000

/-- `hInit`, `work` and `iwork` are written by `radau_`. -/
structure RadauIntegrator {K : Type} [Field K] (T : FLGR K) where
  base : Integrator T
  hInit : K
  work : List K
  iwork : List Int

/-- The arguments of `simulate(x_start_values, t0, tf, steps)`; `x0` is what the array holds. -/
structure SimulateCall (K : Type) where
  x0 : List K
  t0 : K
  tf : K
  steps : Nat
  pos : 0 < steps

/-- The trajectory, `none` for `nullptr`, and what the caller's array holds afterwards. -/
structure SimulateResult {K : Type} [Field K] (T : FLGR K) where
  trajectory : Option (Trajectory T)
  x0 : List K

section Model

variable {K : Type} [Field K] [LinearOrder K] {T : FLGR K}

def SimulateCall.grid (c : SimulateCall K) : List K :=
  (List.range (c.steps + 1)).map fun i => c.t0 + (i : K) * ((c.tf - c.t0) / (c.steps : K))

namespace Radau

variable (sys : System K)

def run : Radau K → Integrator T → Option (RadauOut K × Integrator T)
  | .fcn t x next, s => (s.getOde sys t x).bind fun r => (next r.1).run r.2
  | .jac t x dfx next, s => (s.getDenseJac sys t x dfx).bind fun r => (next r.1).run r.2
  | .solout call next, s => (radauDenseOutput sys call s).bind next.run
  | .done out, s => some (out, s)

/-- The end when the controls are `v`. -/
def outcome (v : K → List K) : Radau K → RadauOut K
  | .fcn t x next => (next (sys.odeFunc x (v t) sys.parameters t)).outcome v
  | .jac t x dfx next => (next (sys.jacFunc.elim dfx fun jacFunc =>
      getDenseJacobian sys.xSize sys.jacPattern (jacFunc x (v t) sys.parameters t) dfx)).outcome v
  | .solout _ next => next.outcome v
  | .done out => out

/-- The same calls, another `IDID`. -/
def withIdid (idid : Int) : Radau K → Radau K
  | .fcn t x next => .fcn t x fun f => (next f).withIdid idid
  | .jac t x dfx next => .jac t x dfx fun dfx => (next dfx).withIdid idid
  | .solout call next => .solout call (next.withIdid idid)
  | .done out => .done { out with idid := idid }

end Radau

namespace RadauIntegrator

variable (radau : RadauIn K → Radau K) (sys : System K) (settings : RadauSettings K)

/-- An integrator as `build` makes it. -/
def new (controls : Option (ControlTrajectory T)) : RadauIntegrator T where
  base := Integrator.new [] controls
  hInit := settings.hInit
  work := List.replicate (20 + 10 * (sys.xSize + 3 * sys.xSize)) 0
  iwork := ((((List.replicate (20 + 8 * sys.xSize) 0).set 1 settings.maxIt).set 10
    settings.scheme.stages.1).set 11 settings.scheme.stages.2.1).set 12 settings.scheme.stages.2.2

/-- What `internal_simulate` passes. -/
def inputs (r : RadauIntegrator T) (c : SimulateCall K) : RadauIn K where
  n := sys.xSize
  x := raw c.grid 0
  y := c.x0
  xend := raw c.grid (c.grid.length - 1)
  h := r.hInit
  rtol := settings.rtol
  atol := settings.atol
  ijac := if sys.jacFunc.isSome then 1 else 0
  work := r.work.take 20
  lwork := 20 + 10 * (sys.xSize + 3 * sys.xSize)
  iwork := r.iwork.take 13
  liwork := 20 + 8 * sys.xSize
  rpar := 0

/-- The members that `radau_` was passed by address. -/
def writeBack (r : RadauIntegrator T) (out : RadauOut K) (base : Integrator T) :
    RadauIntegrator T where
  base := base
  hInit := out.h
  work := r.work.take 20 ++ out.workRest
  iwork := r.iwork.take 12 ++ out.ns :: out.iworkRest

def simulate (r : RadauIntegrator T) (c : SimulateCall K) :
    Option (SimulateResult T × RadauIntegrator T) :=
  (start sys { r.base with denseOutputGrid := c.grid }).bind fun base =>
    ((radau (r.inputs sys settings c)).run sys base).map fun e =>
      (⟨e.2.finish sys e.1.idid, e.1.y⟩, r.writeBack e.1 e.2)

def simulateAll (r : RadauIntegrator T) :
    List (SimulateCall K) → Option (List (SimulateResult T) × RadauIntegrator T)
  | [] => some ([], r)
  | c :: calls => (simulate radau sys settings r c).bind fun e =>
      (simulateAll e.2 calls).map fun rest => (e.1 :: rest.1, rest.2)

/-- Each result is that of a new integrator, and the caller's arrays are unchanged. -/
def Repeatable (controls : Option (ControlTrajectory T)) (calls : List (SimulateCall K)) : Prop :=
  ∃ results r, simulateAll radau sys settings (new sys settings controls) calls =
      some (results, r) ∧
    List.Forall₂ (fun c result => result.x0 = c.x0 ∧
      (simulate radau sys settings (new sys settings controls) c).map (fun e => e.1.trajectory) =
        some result.trajectory) calls results

/-- The same final states, step sizes and numbers of stages, whatever is passed. -/
def LeavesAlike (controls : Option (ControlTrajectory T)) (radau radau' : RadauIn K → Radau K) :
    Prop :=
  ∀ inp, ((radau' inp).outcome sys (controlsAt controls)).y =
      ((radau inp).outcome sys (controlsAt controls)).y ∧
    ((radau' inp).outcome sys (controlsAt controls)).h =
      ((radau inp).outcome sys (controlsAt controls)).h ∧
    ((radau' inp).outcome sys (controlsAt controls)).ns =
      ((radau inp).outcome sys (controlsAt controls)).ns

/-- `radau_`, but every call whose `H` or `IWORK(13)` is not a new integrator's is rejected. -/
def strict (inp : RadauIn K) : Radau K :=
  (radau inp).withIdid
    (if inp.h = settings.hInit ∧ inp.iwork.getD 12 0 = settings.scheme.stages.2.2 then 1 else -1)

end RadauIntegrator

/-! ## Two runs with the same controls -/

section Agree

variable [IsStrictOrderedRing K] {sys : System K} {v : K → List K} {uSize : Nat}
  {s t : Integrator T}

/-- All is the same but the buffer, its time and the caches. -/
structure Agree (v : K → List K) (uSize : Nat) (s t : Integrator T) : Prop where
  left : Ready v s
  right : Ready v t
  grid : s.denseOutputGrid = t.denseOutputGrid
  output : s.output = t.output
  size : s.uSize = uSize
  uSize : s.uSize = t.uSize
  index : s.denseOutputIndex = t.denseOutputIndex

theorem Agree.pass (h : Agree v uSize s t) {call : OutputCall K} {s' : Integrator T}
    (hs : denseOutputPass sys call s = some s') :
    ∃ t', denseOutputPass sys call t = some t' ∧ Agree v uSize s' t' := by
  obtain ⟨g, hg, hbody⟩ := Option.bind_eq_some_iff.mp hs
  have hg' : t.denseOutputGrid[t.denseOutputIndex]? = some g := by rw [← h.grid, ← h.index, hg]
  by_cases hskip : g < call.told
  · rw [if_pos hskip] at hbody
    obtain rfl := Option.some.inj hbody
    refine ⟨{ t with denseOutputIndex := t.denseOutputIndex + 1 }, ?_,
      ⟨h.left.controls, h.left.absent, h.left.cached⟩,
      ⟨h.right.controls, h.right.absent, h.right.cached⟩, h.grid, h.output, h.size, h.uSize,
      congrArg (· + 1) h.index⟩
    rw [denseOutputPass, hg', Option.bind_some, if_pos hskip]
  · obtain ⟨controls, hl, hleft⟩ := denseOutputPass_taken sys h.left hg hskip
    obtain ⟨controls', hr, hright⟩ := denseOutputPass_taken sys h.right hg' hskip
    obtain rfl := Option.some.inj (hl.symm.trans hs)
    refine ⟨_, hr, hleft, hright, h.grid, ?_, h.size, h.uSize, congrArg (· + 1) h.index⟩
    simp only [taken, h.output, h.uSize]

omit [IsStrictOrderedRing K] in
theorem Agree.cond (h : Agree v uSize s t) (call : OutputCall K) :
    denseOutputCond call s = denseOutputCond call t := by
  rw [denseOutputCond, denseOutputCond, h.grid, h.index]

variable (sys) in
theorem Agree.solout (h : Agree v uSize s t) (call : OutputCall K) : ∃ s' t',
    radauDenseOutput sys call s = some s' ∧ radauDenseOutput sys call t = some t' ∧
      Agree v uSize s' t' := by
  obtain ⟨s', hs, -⟩ := callback_total sys h.left (.solout call)
  have hfuel : t.denseOutputGrid.length - t.denseOutputIndex =
      s.denseOutputGrid.length - s.denseOutputIndex := by rw [h.grid, h.index]
  obtain ⟨t', ht, h'⟩ := Checked.whileLoop_rel (R := Agree v uSize) (fun _ _ h => h.cond call)
    (fun _ _ h _ hs => h.pass hs) _ s t h s' hs
  refine ⟨s', t', hs, ?_, h'⟩
  rw [radauDenseOutput, hfuel, ht]

variable (sys) in
theorem Agree.fcn (h : Agree v uSize s t) (q : K) (x : List K) : ∃ s' t',
    s.getOde sys q x = some (sys.odeFunc x (v q) sys.parameters q, s') ∧
      t.getOde sys q x = some (sys.odeFunc x (v q) sys.parameters q, t') ∧ Agree v uSize s' t' := by
  obtain ⟨controls, hl, hleft⟩ := getOde_spec sys h.left q x
  obtain ⟨controls', hr, hright⟩ := getOde_spec sys h.right q x
  exact ⟨_, _, hl, hr, hleft, hright, h.grid, h.output, h.size, h.uSize, h.index⟩

variable (sys) in
theorem Agree.jac (h : Agree v uSize s t) (q : K) (x : List K) (dfx : Nat → K) : ∃ s' t' out,
    s.getDenseJac sys q x dfx = some (out, s') ∧ t.getDenseJac sys q x dfx = some (out, t') ∧
      (out = sys.jacFunc.elim dfx fun jacFunc =>
        getDenseJacobian sys.xSize sys.jacPattern (jacFunc x (v q) sys.parameters q) dfx) ∧
      Agree v uSize s' t' := by
  cases hjac : sys.jacFunc with
  | none => exact ⟨s, t, dfx, by simp [getDenseJac, hjac], by simp [getDenseJac, hjac], rfl, h⟩
  | some jacFunc =>
    obtain ⟨controls, hl, hleft⟩ := getDenseJac_spec sys hjac h.left q x dfx
    obtain ⟨controls', hr, hright⟩ := getDenseJac_spec sys hjac h.right q x dfx
    exact ⟨_, _, _, hl, hr, rfl, hleft, hright, h.grid, h.output, h.size, h.uSize, h.index⟩

variable (sys) in
/-- The end of the tree and the output depend on the controls, not on what is cached of them. -/
theorem Radau.run_agree (tree : Radau K) (h : Agree v uSize s t) : ∃ s' t',
    tree.run sys s = some (tree.outcome sys v, s') ∧
      tree.run sys t = some (tree.outcome sys v, t') ∧ Agree v uSize s' t' := by
  induction tree generalizing s t with
  | fcn q x next ih =>
    obtain ⟨s1, t1, hs, ht, h1⟩ := h.fcn sys q x
    obtain ⟨s2, t2, hs2, ht2, h2⟩ := ih _ h1
    refine ⟨s2, t2, ?_, ?_, h2⟩
    · rw [run, hs, Option.bind_some, hs2, outcome]
    · rw [run, ht, Option.bind_some, ht2, outcome]
  | jac q x dfx next ih =>
    obtain ⟨s1, t1, out, hs, ht, rfl, h1⟩ := h.jac sys q x dfx
    obtain ⟨s2, t2, hs2, ht2, h2⟩ := ih _ h1
    refine ⟨s2, t2, ?_, ?_, h2⟩
    · rw [run, hs, Option.bind_some, hs2, outcome]
    · rw [run, ht, Option.bind_some, ht2, outcome]
  | solout call next ih =>
    obtain ⟨s1, t1, hs, ht, h1⟩ := h.solout sys call
    obtain ⟨s2, t2, hs2, ht2, h2⟩ := ih h1
    refine ⟨s2, t2, ?_, ?_, h2⟩
    · rw [run, hs, Option.bind_some, hs2, outcome]
    · rw [run, ht, Option.bind_some, ht2, outcome]
  | done out => exact ⟨s, t, rfl, rfl, h⟩

end Agree

/-! ## Another return code -/

section WithIdid

variable {sys : System K} {idid : Int}

omit [Field K] [LinearOrder K] in
theorem Radau.outcome_withIdid (v : K → List K) (tree : Radau K) :
    (tree.withIdid idid).outcome sys v = { tree.outcome sys v with idid := idid } := by
  induction tree with
  | fcn t x next ih => exact ih _
  | jac t x dfx next ih => exact ih _
  | solout call next ih => exact ih
  | done out => rfl

theorem Radau.run_withIdid {tree : Radau K} {s : Integrator T} {e : RadauOut K × Integrator T}
    (h : (tree.withIdid idid).run sys s = some e) : e.1.idid = idid := by
  induction tree generalizing s with
  | fcn t x next ih =>
    obtain ⟨r, -, hr⟩ := Option.bind_eq_some_iff.mp h
    exact ih _ hr
  | jac t x dfx next ih =>
    obtain ⟨r, -, hr⟩ := Option.bind_eq_some_iff.mp h
    exact ih _ hr
  | solout call next ih =>
    obtain ⟨r, -, hr⟩ := Option.bind_eq_some_iff.mp h
    exact ih hr
  | done out =>
    obtain rfl := Option.some.inj h
    rfl

end WithIdid

/-! ## Calls of `simulate` -/

namespace RadauIntegrator

variable [IsStrictOrderedRing K] {radau : RadauIn K → Radau K} {sys : System K}
variable {settings : RadauSettings K} {controls : Option (ControlTrajectory T)}

/-- `radau_` is passed what a new integrator passes. -/
structure Settled (sys : System K) (settings : RadauSettings K)
    (controls : Option (ControlTrajectory T)) (r : RadauIntegrator T) : Prop where
  idle : Idle controls r.base
  hInit : r.hInit = settings.hInit
  work : r.work.take 20 = List.replicate 20 0
  iwork : r.iwork.take 13 = (new (T := T) sys settings controls).iwork.take 13

omit [LinearOrder K] [IsStrictOrderedRing K] in
theorem new_work : (new (T := T) sys settings controls).work.take 20 = List.replicate 20 0 := by
  rw [new, List.take_replicate, Nat.min_eq_left (by omega)]

omit [IsStrictOrderedRing K] in
theorem new_settled (hc : ∀ c ∈ controls, c.Usable) :
    Settled sys settings controls (new sys settings controls) :=
  ⟨new_idle hc [], rfl, new_work, rfl⟩

omit [IsStrictOrderedRing K] in
theorem Settled.inputs_eq {r : RadauIntegrator T} (hr : Settled sys settings controls r)
    (c : SimulateCall K) :
    r.inputs sys settings c = (new (T := T) sys settings controls).inputs sys settings c := by
  rw [inputs, inputs, hr.hInit, hr.work, hr.iwork, new_work]
  rfl

omit [LinearOrder K] [IsStrictOrderedRing K] in
variable (T sys settings controls) in
theorem new_iwork_length : (new (T := T) sys settings controls).iwork.length =
    20 + 8 * sys.xSize := by
  simp only [new, List.length_set, List.length_replicate]

omit [IsStrictOrderedRing K] in
/-- `IWORK(13)` is the last of the parameters. -/
theorem Settled.iwork_length {r : RadauIntegrator T} (hr : Settled sys settings controls r) :
    12 < r.iwork.length := by
  have hlen := congrArg List.length hr.iwork
  rw [List.length_take, List.length_take, new_iwork_length] at hlen
  omega

omit [LinearOrder K] [IsStrictOrderedRing K] in
theorem new_iwork : (new (T := T) sys settings controls).iwork.take 13 =
    (new (T := T) sys settings controls).iwork.take 12 ++ [settings.scheme.stages.2.2] := by
  have hlen : 12 < 20 + 8 * sys.xSize := by omega
  rw [List.take_add_one, new, List.getElem?_set_self (by simpa using hlen)]
  rfl

/-- How `radau_` ends when it is called by a new integrator. -/
def outcome (radau : RadauIn K → Radau K) (sys : System K) (settings : RadauSettings K)
    (controls : Option (ControlTrajectory T)) (c : SimulateCall K) : RadauOut K :=
  (radau ((new sys settings controls).inputs sys settings c)).outcome sys (controlsAt controls)

omit [LinearOrder K] [IsStrictOrderedRing K] in
theorem SimulateCall.grid_getElem? (c : SimulateCall K) : ∃ t0, c.grid[0]? = some t0 := by
  have hpos : 0 < c.grid.length := by simp [SimulateCall.grid]
  exact ⟨_, List.getElem?_eq_getElem hpos⟩

variable (radau) in
/-- One call on two integrators. -/
theorem simulate_agree {r t : RadauIntegrator T} (hr : Settled sys settings controls r)
    (ht : Settled sys settings controls t) (c : SimulateCall K) : ∃ trajectory s s',
    let out := outcome radau sys settings controls c
    simulate radau sys settings r c = some (⟨trajectory, out.y⟩, r.writeBack out s) ∧
      simulate radau sys settings t c = some (⟨trajectory, out.y⟩, t.writeBack out s') ∧
      Idle controls s := by
  have hidle : ∀ u : RadauIntegrator T, Settled sys settings controls u →
      Idle controls { u.base with denseOutputGrid := c.grid } := by
    intro u hu
    exact ⟨⟨hu.idle.ready.controls, hu.idle.ready.absent, hu.idle.ready.cached⟩, hu.idle.controls⟩
  obtain ⟨t0, hgrid⟩ := SimulateCall.grid_getElem? c
  obtain ⟨r1, hr1, hready, hrgrid, hru⟩ := start_eq sys (hidle r hr) hgrid
  obtain ⟨t1, ht1, htready, htgrid, htu⟩ := start_eq sys (hidle t ht) hgrid
  have hsize : r1.uSize = controls.elim 0 fun c => c.u.length := hru.trans hr.idle.controls
  have hsize' : r1.uSize = t1.uSize := hsize.trans (htu.trans ht.idle.controls).symm
  have hagree : Agree (controlsAt controls) (controls.elim 0 fun c => c.u.length)
      (r1.newOutput sys) (t1.newOutput sys) := by
    refine ⟨hready.newOutput, htready.newOutput, hrgrid.trans htgrid.symm, ?_, hsize, hsize', rfl⟩
    rw [newOutput, newOutput, hsize']
  obtain ⟨r2, t2, hr2, ht2, hagree⟩ := Radau.run_agree sys
    (radau ((new (T := T) sys settings controls).inputs sys settings c)) hagree
  refine ⟨r2.finish sys (outcome radau sys settings controls c).idid, r2, t2, ?_, ?_,
    ⟨hagree.left, hagree.size⟩⟩
  · rw [simulate, hr1, Option.bind_some, hr.inputs_eq c, hr2, Option.map_some]
    rfl
  · rw [simulate, ht1, Option.bind_some, ht.inputs_eq c, ht2, Option.map_some, finish,
      ← hagree.output]
    rfl

theorem thirteenth {iwork : List Int} (h : 12 < iwork.length) (ns : Int) :
    (iwork.take 12 ++ [ns]).getD 12 0 = ns := by
  have hlen : (iwork.take 12).length = 12 := by
    rw [List.length_take]
    omega
  rw [List.getD_append_right _ _ _ _ hlen.le, hlen]
  rfl

omit [IsStrictOrderedRing K] in
/-- The next call is passed the number of stages that this one has left. -/
theorem Settled.writeBack_iwork {r : RadauIntegrator T} (hr : Settled sys settings controls r)
    (out : RadauOut K) (s : Integrator T) :
    (r.writeBack out s).iwork.take 13 = r.iwork.take 12 ++ [out.ns] := by
  have hi : (r.iwork.take 12 ++ [out.ns]).length = 13 := by
    have := hr.iwork_length
    simp only [List.length_append, List.length_take, List.length_singleton]
    omega
  rw [RadauIntegrator.writeBack, List.append_cons, List.take_left' hi]

omit [IsStrictOrderedRing K] in
/-- With `H` and `IWORK(13)` as they were, the integrator is settled again. -/
theorem Settled.writeBack {r : RadauIntegrator T} (hr : Settled sys settings controls r)
    {out : RadauOut K} (hh : out.h = settings.hInit) (hns : out.ns = settings.scheme.stages.2.2)
    {s : Integrator T} (hs : Idle controls s) :
    Settled sys settings controls (r.writeBack out s) := by
  have hw : (r.work.take 20).length = 20 := by rw [hr.work, List.length_replicate]
  have htake : r.iwork.take 12 = (new (T := T) sys settings controls).iwork.take 12 := by
    have h12 := congrArg (List.take 12) hr.iwork
    rwa [List.take_take, List.take_take] at h12
  refine ⟨hs, hh, ?_, ?_⟩
  · rw [RadauIntegrator.writeBack, ← hr.work]
    exact List.take_left' hw
  · rw [hr.writeBack_iwork, htake, hns, new_iwork]

variable (radau) in
/-- With `H` and `IWORK(13)` as they were after each call that another one follows, each call is
that of a new integrator. -/
theorem simulateAll_settled (hc : ∀ c ∈ controls, c.Usable) (calls : List (SimulateCall K))
    (hkept : ∀ c ∈ calls.dropLast,
      (outcome radau sys settings controls c).h = settings.hInit ∧
        (outcome radau sys settings controls c).ns = settings.scheme.stages.2.2)
    {r : RadauIntegrator T} (hr : Settled sys settings controls r) :
    ∃ results r', simulateAll radau sys settings r calls = some (results, r') ∧
      List.Forall₂ (fun c result => result.x0 = (outcome radau sys settings controls c).y ∧
        (simulate radau sys settings (new sys settings controls) c).map
          (fun e => e.1.trajectory) = some result.trajectory) calls results := by
  induction calls generalizing r with
  | nil => exact ⟨[], r, rfl, .nil⟩
  | cons c calls ih =>
    obtain ⟨trajectory, s, s', hsim, hnew, hidle⟩ :=
      simulate_agree radau hr (new_settled hc) c
    have hfirst : (simulate radau sys settings (new sys settings controls) c).map
        (fun e => e.1.trajectory) = some trajectory := by rw [hnew, Option.map_some]
    cases calls with
    | nil =>
      refine ⟨[⟨trajectory, _⟩], r.writeBack (outcome radau sys settings controls c) s, ?_,
        .cons ⟨rfl, hfirst⟩ .nil⟩
      rw [simulateAll, hsim]
      rfl
    | cons c' calls =>
      obtain ⟨hh, hns⟩ := hkept c (by simp)
      obtain ⟨results, r', hall, hres⟩ := ih
        (fun d hd => hkept d (by rw [List.dropLast_cons_cons]; exact List.mem_cons_of_mem _ hd))
        (hr.writeBack hh hns hidle)
      refine ⟨⟨trajectory, _⟩ :: results, r', ?_, .cons ⟨rfl, hfirst⟩ hres⟩
      rw [simulateAll, hsim, Option.bind_some, hall]
      rfl

omit [IsStrictOrderedRing K] in
theorem strict_leavesAlike : LeavesAlike sys controls radau (strict radau settings) := by
  intro inp
  rw [strict, Radau.outcome_withIdid]
  exact ⟨rfl, rfl, rfl⟩

omit [IsStrictOrderedRing K] in
theorem outcome_strict (c : SimulateCall K) :
    (outcome (strict radau settings) sys settings controls c).h =
        (outcome radau sys settings controls c).h ∧
      (outcome (strict radau settings) sys settings controls c).ns =
        (outcome radau sys settings controls c).ns :=
  (strict_leavesAlike _).2

omit [IsStrictOrderedRing K] in
/-- A new integrator is not rejected. -/
theorem strict_new (c : SimulateCall K) :
    (simulate (strict radau settings) sys settings (new sys settings controls) c).map
      (fun e => e.1.trajectory) ≠ some none := by
  intro hnone
  obtain ⟨e, he, htraj⟩ := Option.map_eq_some_iff.mp hnone
  obtain ⟨base, -, hrun⟩ := Option.bind_eq_some_iff.mp he
  obtain ⟨o, ho, rfl⟩ := Option.map_eq_some_iff.mp hrun
  have hiwork : ((new (T := T) sys settings controls).iwork.take 13).getD 12 0 =
      settings.scheme.stages.2.2 := by
    have hlen := new_iwork_length T sys settings controls
    rw [new_iwork, thirteenth (by omega)]
  rw [strict, if_pos ⟨rfl, hiwork⟩] at ho
  have hidid := Radau.run_withIdid ho
  simp [finish, hidid] at htraj

omit [IsStrictOrderedRing K] in
/-- Any other integrator is. -/
theorem strict_rejects {r : RadauIntegrator T}
    (hr : ¬ (r.hInit = settings.hInit ∧
      (r.iwork.take 13).getD 12 0 = settings.scheme.stages.2.2)) {c : SimulateCall K}
    {e : SimulateResult T × RadauIntegrator T}
    (he : simulate (strict radau settings) sys settings r c = some e) : e.1.trajectory = none := by
  obtain ⟨base, -, hrun⟩ := Option.bind_eq_some_iff.mp he
  obtain ⟨o, ho, rfl⟩ := Option.map_eq_some_iff.mp hrun
  have hinputs : ¬ ((r.inputs sys settings c).h = settings.hInit ∧
      (r.inputs sys settings c).iwork.getD 12 0 = settings.scheme.stages.2.2) := hr
  rw [strict, if_neg hinputs] at ho
  have hidid := Radau.run_withIdid ho
  simp [finish, hidid]

/-- With `strict` calls that give what a new integrator gives leave `H` and `IWORK(13)` as they
were, up to the last. By induction on the calls: the call after the first one that does not would
be rejected. -/
theorem kept_of_strict (hc : ∀ c ∈ controls, c.Usable) (calls : List (SimulateCall K))
    {r r' : RadauIntegrator T} (hr : Settled sys settings controls r)
    {results : List (SimulateResult T)}
    (hall : simulateAll (strict radau settings) sys settings r calls = some (results, r'))
    (hres : List.Forall₂ (fun c result =>
      (simulate (strict radau settings) sys settings (new sys settings controls) c).map
        (fun e => e.1.trajectory) = some result.trajectory) calls results) :
    ∀ c ∈ calls.dropLast, (outcome radau sys settings controls c).h = settings.hInit ∧
      (outcome radau sys settings controls c).ns = settings.scheme.stages.2.2 := by
  induction calls generalizing r results with
  | nil => simp
  | cons c calls ih =>
    cases calls with
    | nil => simp
    | cons c' calls =>
      obtain ⟨trajectory, s, s', hsim, -, hidle⟩ :=
        simulate_agree (strict radau settings) hr (new_settled hc) c
      have ⟨hh, hns⟩ : (outcome (strict radau settings) sys settings controls c).h =
            (outcome radau sys settings controls c).h ∧
          (outcome (strict radau settings) sys settings controls c).ns =
            (outcome radau sys settings controls c).ns := outcome_strict c
      rw [simulateAll, hsim, Option.bind_some] at hall
      obtain ⟨rest, hrest, heq⟩ := Option.map_eq_some_iff.mp hall
      obtain ⟨rfl, rfl⟩ := Prod.mk.inj heq
      obtain ⟨-, hres⟩ := List.forall₂_cons.mp hres
      have hkept : (outcome radau sys settings controls c).h = settings.hInit ∧
          (outcome radau sys settings controls c).ns = settings.scheme.stages.2.2 := by
        by_contra hlost
        obtain ⟨e, he, hrest⟩ := Option.bind_eq_some_iff.mp hrest
        obtain ⟨rest', -, rfl⟩ := Option.map_eq_some_iff.mp hrest
        have hother : ¬ ((r.writeBack (outcome (strict radau settings) sys settings controls c)
            s).hInit = settings.hInit ∧
            ((r.writeBack (outcome (strict radau settings) sys settings controls c)
              s).iwork.take 13).getD 12 0 = settings.scheme.stages.2.2) := by
          rw [hr.writeBack_iwork, thirteenth hr.iwork_length, hns]
          intro h
          exact hlost ⟨hh.symm.trans h.1, h.2⟩
        have hnone := strict_rejects hother he
        have hnew := (List.forall₂_cons.mp hres).1
        rw [hnone] at hnew
        exact strict_new c' hnew
      rw [List.dropLast_cons_cons]
      intro d hd
      rcases List.mem_cons.mp hd with rfl | hd
      · exact hkept
      · exact ih (hr.writeBack (hh.trans hkept.1) (hns.trans hkept.2) hidle) hrest hres d hd

end RadauIntegrator

end Model

section Clock

open RadauIntegrator ControlTrajectory

/-- `radau_` on a constant right-hand side, in one step: there this is the solution. -/
def oneStepRadau (inp : RadauIn ℚ) : Radau ℚ :=
  .solout ⟨inp.x, inp.x, fun i _ => raw inp.y (i - 1)⟩ <|
    .fcn inp.x inp.y fun f =>
      .solout ⟨inp.x, inp.xend, fun i t => raw inp.y (i - 1) + (t - inp.x) * raw f (i - 1)⟩ <|
        .done
          { y := List.zipWith (fun y f => y + (inp.xend - inp.x) * f) inp.y f
            h := inp.xend - inp.x
            ns := 1
            idid := 1 }

/-- `radau_` on a right-hand side of the time only, by the implicit Euler method: one step of the
size `H`, one for the rest. -/
def eulerRadau (inp : RadauIn ℚ) : Radau ℚ :=
  let mid := inp.x + inp.h
  .solout ⟨inp.x, inp.x, fun i _ => raw inp.y (i - 1)⟩ <|
    .fcn mid inp.y fun f =>
      let y := List.zipWith (fun y f => y + inp.h * f) inp.y f
      .solout ⟨inp.x, mid, fun i t => raw inp.y (i - 1) + (t - inp.x) * raw f (i - 1)⟩ <|
        .fcn inp.xend y fun f =>
          .solout ⟨mid, inp.xend, fun i t => raw y (i - 1) + (t - mid) * raw f (i - 1)⟩ <|
            .done
              { y := List.zipWith (fun y f => y + (inp.xend - mid) * f) y f
                h := inp.xend - mid
                ns := 1
                idid := 1 }

/-- `x' = f(t)`. -/
def clockSystem (f : ℚ → ℚ) : System ℚ where
  odeFunc := fun _ _ _ t => [f t]
  xSize := 1

def clockSettings (hInit : ℚ) : RadauSettings ℚ where
  scheme := .one
  hInit := hInit
  atol := 1 / 10000000000
  rtol := 1 / 10000000000

def clockCall (x0 : List ℚ) : SimulateCall ℚ := ⟨x0, 0, 1, 1, Nat.one_pos⟩

end Clock

end Simulation
end Moo
