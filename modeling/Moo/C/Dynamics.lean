import Moo.C.Problem
import Moo.Simulation.Radau

/-!
# C.Dynamics

The right-hand side of the C interface as an integrator calls it. The inputs at the time of a call
are interpolated into one buffer, which is used again for a call at the same time.

* `getData`, `eval`, `jac`: the members of `Dynamics`. `simulate`: a simulation that calls them.
* `Ready`: the buffer holds the inputs at its time. `getData_spec`: so does every call leave it.
* `run_pure`: whatever RADAU asks for and in which order, a simulation ends as with a right-hand
  side that is a function of its arguments.
* `dynamics_pure`: so does each simulation of a row on the same dynamics, and at the nodes of a mesh
  these inputs are the ones that the sweeps are passed.
-/

namespace Moo
namespace C

open Loop FixedVector GDOP PiecewiseLinear Simulation

/-- `ode_f` and `ode_jac_f` of `c_callbacks_t`, as what they write; `data` is `none` for the null
pointer. -/
structure OdeCallbacks (K : Type) where
  odeF : (x u p : List K) → (t : K) → (data : Option (List K)) → List K
  odeJacF : (x u p : List K) → (t : K) → (data : Option (List K)) → Nat → K

/-- `currentDataTime` is `⊥` for `MINUS_INFINITY`. -/
structure Dynamics {K : Type} [Field K] (T : FLGR K) where
  xSize : Nat
  jacPattern : Simulation.Jacobian
  rawCtrlData : List (ControlTrajectory T)
  currentData : List K
  currentDataTime : WithBot K := ⊥

/-- A call of the simulation strategy. -/
structure SimulationCall {K : Type} [Field K] (T : FLGR K) where
  controls : ControlTrajectory T
  parameters : List K
  call : SimulateCall K

namespace Dynamics

section Model

variable {K : Type} [Field K] {T : FLGR K}

def extractCtrlData (rawData : List (Trajectory T)) : List (ControlTrajectory T) :=
  rawData.map Trajectory.copyExtractControls

def accumulateDataSize (rawCtrlData : List (ControlTrajectory T)) : Nat :=
  rawCtrlData.foldl (fun size ctrl => size + ctrl.u.length) 0

/-- `row`, `col` and `nnz` are those of `ode_jac`. -/
def new (xSize : Nat) (row col : Nat → Nat) (nnz : Nat) (rawData : List (Trajectory T)) :
    Dynamics T where
  xSize := xSize
  jacPattern := ⟨.coo, row, col, nnz⟩
  rawCtrlData := extractCtrlData rawData
  currentData := List.replicate (accumulateDataSize (extractCtrlData rawData)) 0

variable [LinearOrder K]

/-- The loop over the files; `work` is where `work_ptr` points. -/
def interpolateFiles (t : K) :
    List (ControlTrajectory T) → (Nat → K) → Nat → Option (List (ControlTrajectory T) × (Nat → K))
  | [], buf, _ => some ([], buf)
  | ctrl :: files, buf, work => (ctrl.interpolateAt t).bind fun r =>
    let buf := forRange r.1.length (fun k buf => Function.update buf (work + k) (raw r.1 k)) buf
    (interpolateFiles t files buf (work + ctrl.u.length)).map fun rest =>
      (r.2 :: rest.1, rest.2)

variable (d : Dynamics T)

/-- The pointer that is returned, as what it points to. -/
def getData (t : K) : Option (Option (List K) × Dynamics T) :=
  match d.rawCtrlData with
  | [] => some (none, d)
  | files =>
    if (t : WithBot K) ≠ d.currentDataTime then
      (interpolateFiles t files (raw d.currentData) 0).map fun r =>
        let data := fill d.currentData.length r.2
        (some data, { d with rawCtrlData := r.1, currentData := data, currentDataTime := t })
    else some (some d.currentData, d)

variable (cb : OdeCallbacks K) (parameters : List K)

def eval (x u : List K) (t : K) : Option (List K × Dynamics T) :=
  (d.getData t).map fun r => (cb.odeF x u parameters t r.1, r.2)

def jac (x u : List K) (t : K) : Option ((Nat → K) × Dynamics T) :=
  (d.getData t).map fun r => (cb.odeJacF x u parameters t r.1, r.2)

/-- The integrator that `build` is given, for inputs that are a function of time. -/
def system (inputs : K → Option (List K)) : System K where
  odeFunc := fun x u p t => cb.odeF x u p t (inputs t)
  jacFunc := some fun x u p t => cb.odeJacF x u p t (inputs t)
  jacPattern := d.jacPattern
  xSize := d.xSize
  pSize := parameters.length
  parameters := parameters

/-! The callbacks of `Simulation.Integrator`, with these dynamics behind them. -/

def getOde (s : Integrator T) (t : K) (x : List K) : Option (List K × Integrator T × Dynamics T) :=
  (s.setControls t).bind fun s => (d.eval cb parameters x s.u t).map fun r => (r.1, s, r.2)

def getDenseJac (s : Integrator T) (t : K) (x : List K) (out : Nat → K) :
    Option ((Nat → K) × Integrator T × Dynamics T) :=
  (s.setControls t).bind fun s => (d.jac cb parameters x s.u t).map fun r =>
    (getDenseJacobian d.xSize d.jacPattern r.1 out, s, r.2)

def run : Radau K → Integrator T → Dynamics T → Option (RadauOut K × Integrator T × Dynamics T)
  | .fcn t x next, s, d => (d.getOde cb parameters s t x).bind fun r => run (next r.1) r.2.1 r.2.2
  | .jac t x dfx next, s, d =>
    (d.getDenseJac cb parameters s t x dfx).bind fun r => run (next r.1) r.2.1 r.2.2
  | .solout call next, s, d =>
    (Integrator.radauDenseOutput (d.system cb parameters fun _ => none) call s).bind fun s =>
      run next s d
  | .done out, s, d => some (out, s, d)

/-- `RadauIntegratorSimulation`. -/
def settings : RadauSettings K where
  hInit := 1e-6
  atol := 1e-10
  rtol := 1e-10
  maxIt := 5000000

variable (radau : RadauIn K → Radau K)

/-- The integrator is a new one, the dynamics are what the last simulation left. -/
def simulate (c : SimulationCall T) : Option (SimulateResult T × Dynamics T) :=
  let sys := d.system cb c.parameters fun _ => none
  let r : RadauIntegrator T := .new sys settings (some c.controls)
  (Integrator.start sys { r.base with denseOutputGrid := c.call.grid }).bind fun base =>
    (run cb c.parameters (radau (r.inputs sys settings c.call)) base d).map fun e =>
      (⟨e.2.1.finish sys e.1.idid, e.1.y⟩, e.2.2)

def simulateAll (d : Dynamics T) :
    List (SimulationCall T) → Option (List (SimulateResult T) × Dynamics T)
  | [] => some ([], d)
  | c :: calls => (d.simulate cb radau c).bind fun e =>
      (simulateAll e.2 calls).map fun rest => (e.1 :: rest.1, rest.2)

end Model

/-! ## The buffer of the inputs -/

section Inputs

variable {K : Type} [Field K] [LinearOrder K] {T : FLGR K}

/-- The inputs at time `t`, file by file; null without files. -/
def inputsAt (files : List (ControlTrajectory T)) (t : K) : Option (List K) :=
  if files = [] then none else some (files.flatMap fun ctrl => ctrl.valuesAt t)

/-- The controls are those of `files`, and the buffer holds them at the last time. -/
structure Ready (files : List (ControlTrajectory T)) (d : Dynamics T) : Prop where
  usable : ∀ ctrl ∈ d.rawCtrlData, ctrl.Usable
  same : List.Forall₂ ControlTrajectory.SameControls d.rawCtrlData files
  size : d.currentData.length = accumulateDataSize files
  cached : ∀ t : K, (t : WithBot K) = d.currentDataTime →
    d.currentData = files.flatMap fun ctrl => ctrl.valuesAt t

/-- The same dynamics but for the buffer and the caches. -/
structure Alike (files : List (ControlTrajectory T)) (d d' : Dynamics T) : Prop where
  ready : Ready files d'
  xSize : d'.xSize = d.xSize
  jacPattern : d'.jacPattern = d.jacPattern

omit [LinearOrder K] in
theorem accumulateDataSize_eq (files : List (ControlTrajectory T)) :
    accumulateDataSize files = (files.map fun ctrl => ctrl.u.length).sum := by
  have key : ∀ (l : List (ControlTrajectory T)) (n : Nat),
      l.foldl (fun size ctrl => size + ctrl.u.length) n =
        n + (l.map fun ctrl => ctrl.u.length).sum := by
    intro l
    induction l with
    | nil => intro n; rfl
    | cons ctrl l ih =>
      intro n
      rw [List.foldl_cons, ih, List.map_cons, List.sum_cons]
      omega
  rw [accumulateDataSize, key, Nat.zero_add]

theorem inputs_length (files : List (ControlTrajectory T)) (t : K) :
    (files.flatMap fun ctrl => ctrl.valuesAt t).length = accumulateDataSize files := by
  simp [List.length_flatMap, accumulateDataSize_eq]

variable [IsStrictOrderedRing K]

/-- The loop over the files writes one series of values behind the other. -/
theorem interpolateFiles_eq {ctrls files : List (ControlTrajectory T)} (t : K)
    (hu : ∀ ctrl ∈ ctrls, ctrl.Usable)
    (hs : List.Forall₂ ControlTrajectory.SameControls ctrls files) (buf : Nat → K) (work : Nat) :
    ∃ ctrls' : List (ControlTrajectory T), interpolateFiles t ctrls buf work =
        some (ctrls', fun k =>
          if work ≤ k ∧ k < work + (files.flatMap fun ctrl => ctrl.valuesAt t).length then
            raw (files.flatMap fun ctrl => ctrl.valuesAt t) (k - work) else buf k) ∧
      (∀ ctrl ∈ ctrls', ctrl.Usable) ∧
      List.Forall₂ ControlTrajectory.SameControls ctrls' files := by
  induction hs generalizing buf work with
  | nil =>
    refine ⟨[], ?_, hu, .nil⟩
    have hnone : ∀ k, ¬ (work ≤ k ∧ k < work + 0) := fun k => by omega
    simp only [interpolateFiles, List.flatMap_nil, List.length_nil, if_neg (hnone _)]
  | @cons ctrl file ctrls files hc hs ih =>
    obtain ⟨ctrl', hq, hu', hc'⟩ := ControlTrajectory.interpolateAt_step
      (hu ctrl List.mem_cons_self) t
    obtain ⟨ctrls', hr, hus, hss⟩ := ih (fun c h => hu c (List.mem_cons_of_mem _ h))
      (forRange (ctrl.valuesAt t).length
        (fun k buf => Function.update buf (work + k) (raw (ctrl.valuesAt t) k)) buf)
      (work + ctrl.u.length)
    refine ⟨ctrl' :: ctrls', ?_, List.forall_mem_cons.mpr ⟨hu', hus⟩, .cons (hc'.trans hc) hss⟩
    have hl : (ctrl.valuesAt t).length = ctrl.u.length := ctrl.valuesAt_length t
    have hv : file.valuesAt t = ctrl.valuesAt t := (congrFun hc.valuesAt t).symm
    rw [interpolateFiles, hq, Option.bind_some]
    dsimp only
    rw [hr, Option.map_some]
    refine congrArg some (Prod.ext rfl (funext fun k => ?_))
    dsimp only
    rw [List.flatMap_cons, hv, forRange_fillFrom, List.length_append, hl]
    by_cases h1 : work ≤ k ∧ k < work + ctrl.u.length
    · rw [if_neg (by omega), if_pos h1, if_pos (by omega), raw, raw,
        List.getD_append _ _ _ _ (by omega)]
    · by_cases h2 : work + ctrl.u.length ≤ k ∧
          k < work + ctrl.u.length + (files.flatMap fun ctrl => ctrl.valuesAt t).length
      · rw [if_pos h2, if_pos (by omega), raw, raw, List.getD_append_right _ _ _ _ (by omega)]
        congr 1
        omega
      · rw [if_neg h2, if_neg h1, if_neg (by omega)]

variable {files : List (ControlTrajectory T)} {d : Dynamics T}

omit [IsStrictOrderedRing K] in
theorem Alike.refl (h : Ready files d) : Alike files d d := ⟨h, rfl, rfl⟩

omit [IsStrictOrderedRing K] in
theorem Alike.trans {d₁ d₂ : Dynamics T} (h : Alike files d d₁) (h' : Alike files d₁ d₂) :
    Alike files d d₂ :=
  ⟨h'.ready, h'.xSize.trans h.xSize, h'.jacPattern.trans h.jacPattern⟩

/-- What is read at time `t` does not depend on what was read before. -/
theorem getData_spec (h : Ready files d) (t : K) : ∃ d', d.getData t = some (inputsAt files t, d') ∧
    Alike files d d' := by
  cases hf : d.rawCtrlData with
  | nil =>
    have hnil : files = [] := List.forall₂_nil_left_iff.mp (hf ▸ h.same)
    refine ⟨d, ?_, .refl h⟩
    rw [getData, hf, inputsAt, if_pos hnil]
  | cons ctrl ctrls =>
    have hne : files ≠ [] := by
      rintro rfl
      have := List.forall₂_nil_right_iff.mp h.same
      rw [hf] at this
      cases this
    by_cases hlast : (t : WithBot K) = d.currentDataTime
    · refine ⟨d, ?_, .refl h⟩
      rw [getData, hf, inputsAt, if_neg hne]
      simp only [if_neg (not_not.mpr hlast)]
      rw [h.cached t hlast]
    · obtain ⟨ctrls', hr, hu, hs⟩ := interpolateFiles_eq t h.usable h.same (raw d.currentData) 0
      have hl : (files.flatMap fun ctrl => ctrl.valuesAt t).length = d.currentData.length :=
        (inputs_length files t).trans h.size.symm
      have hdata : fill d.currentData.length (fun k =>
          if 0 ≤ k ∧ k < 0 + (files.flatMap fun ctrl => ctrl.valuesAt t).length then
            raw (files.flatMap fun ctrl => ctrl.valuesAt t) (k - 0) else raw d.currentData k) =
          files.flatMap fun ctrl => ctrl.valuesAt t := by
        rw [← hl]
        refine (fill_congr fun k hk => ?_).trans (fill_raw _)
        rw [if_pos ⟨Nat.zero_le k, by omega⟩, Nat.sub_zero]
      refine ⟨{ d with
          rawCtrlData := ctrls'
          currentData := files.flatMap fun ctrl => ctrl.valuesAt t
          currentDataTime := t },
        ?_, ⟨hu, hs, inputs_length files t, fun t' ht => ?_⟩, rfl, rfl⟩
      · rw [getData, hf, inputsAt, if_neg hne]
        simp only [if_pos hlast]
        rw [← hf, hr, Option.map_some, hdata]
      · rw [WithBot.coe_inj.mp ht]

end Inputs

/-! ## Simulations -/

section Simulations

variable {K : Type} [Field K] [LinearOrder K] [IsStrictOrderedRing K] {T : FLGR K}
variable (cb : OdeCallbacks K) (parameters : List K)
variable {files : List (ControlTrajectory T)} {d : Dynamics T}

omit [LinearOrder K] [IsStrictOrderedRing K] in
theorem system_congr {d' : Dynamics T} (hx : d'.xSize = d.xSize)
    (hj : d'.jacPattern = d.jacPattern) (inputs : K → Option (List K)) :
    d'.system cb parameters inputs = d.system cb parameters inputs := by
  rw [system, system, hx, hj]

/-- `a` is `b`, and the dynamics it leaves are those of `d`. -/
structure Answers (files : List (ControlTrajectory T)) (d : Dynamics T) {α : Type}
    (a : Option (α × Integrator T × Dynamics T)) (b : Option (α × Integrator T)) : Prop where
  result : a.map (fun r => (r.1, r.2.1)) = b
  dynamics : ∀ r, a = some r → Alike files d r.2.2

omit [IsStrictOrderedRing K] in
/-- One answer, and then what follows it. -/
theorem Answers.bind {α β : Type} {a : Option (α × Integrator T × Dynamics T)}
    {b : Option (α × Integrator T)} (h : Answers files d a b)
    {f : α × Integrator T × Dynamics T → Option (β × Integrator T × Dynamics T)}
    {g : α × Integrator T → Option (β × Integrator T)}
    (hf : ∀ r, a = some r → Answers files r.2.2 (f r) (g (r.1, r.2.1))) :
    Answers files d (a.bind f) (b.bind g) := by
  obtain ⟨rfl, hd⟩ := h
  cases a with
  | none => exact ⟨rfl, fun r hr => by cases hr⟩
  | some r =>
    refine ⟨(hf r rfl).result, fun r' hr' => ?_⟩
    exact (hd r rfl).trans ((hf r rfl).dynamics r' hr')

theorem getOde_answers (h : Ready files d) (s : Integrator T) (t : K) (x : List K) :
    Answers files d (d.getOde cb parameters s t x)
      (s.getOde (d.system cb parameters (inputsAt files)) t x) := by
  unfold Dynamics.getOde Integrator.getOde
  cases s.setControls t with
  | none => exact ⟨rfl, fun r hr => by cases hr⟩
  | some s' =>
    obtain ⟨d', hd, hd'⟩ := getData_spec h t
    rw [Option.bind_some, eval, hd]
    refine ⟨rfl, fun r hr => ?_⟩
    obtain rfl := Option.some.inj hr
    exact hd'

theorem getDenseJac_answers (h : Ready files d) (s : Integrator T) (t : K) (x : List K)
    (out : Nat → K) :
    Answers files d (d.getDenseJac cb parameters s t x out)
      (s.getDenseJac (d.system cb parameters (inputsAt files)) t x out) := by
  unfold Dynamics.getDenseJac Integrator.getDenseJac
  dsimp only [system]
  cases s.setControls t with
  | none => exact ⟨rfl, fun r hr => by cases hr⟩
  | some s' =>
    obtain ⟨d', hd, hd'⟩ := getData_spec h t
    rw [Option.bind_some, jac, hd]
    refine ⟨rfl, fun r hr => ?_⟩
    obtain rfl := Option.some.inj hr
    exact hd'

/-- A simulation ends as with a right-hand side that is a function of its arguments. -/
theorem run_pure (tree : Radau K) (h : Ready files d) (s : Integrator T) :
    Answers files d (run cb parameters tree s d)
      (tree.run (d.system cb parameters (inputsAt files)) s) := by
  induction tree generalizing s d with
  | fcn t x next ih =>
    refine (getOde_answers cb parameters h s t x).bind fun r hr => ?_
    have hd := (getOde_answers cb parameters h s t x).dynamics r hr
    rw [← system_congr cb parameters hd.xSize hd.jacPattern]
    exact ih r.1 hd.ready r.2.1
  | jac t x dfx next ih =>
    refine (getDenseJac_answers cb parameters h s t x dfx).bind fun r hr => ?_
    have hd := (getDenseJac_answers cb parameters h s t x dfx).dynamics r hr
    rw [← system_congr cb parameters hd.xSize hd.jacPattern]
    exact ih r.1 hd.ready r.2.1
  | solout call next ih =>
    unfold run Radau.run
    -- The output routine reads the sizes only.
    have hsys : Integrator.radauDenseOutput (d.system cb parameters fun _ => none) call s =
        Integrator.radauDenseOutput (d.system cb parameters (inputsAt files)) call s := rfl
    rw [hsys]
    cases Integrator.radauDenseOutput (d.system cb parameters (inputsAt files)) call s with
    | none => exact ⟨rfl, fun r hr => by cases hr⟩
    | some s' => exact ih h s'
  | done out =>
    refine ⟨rfl, fun r hr => ?_⟩
    obtain rfl := Option.some.inj hr
    exact .refl h

variable (radau : RadauIn K → Radau K)

/-- The simulation with inputs that are a function of time. -/
def simulatePure (d : Dynamics T) (inputs : K → Option (List K)) (c : SimulationCall T) :
    Option (SimulateResult T) :=
  let sys := d.system cb c.parameters inputs
  (RadauIntegrator.simulate radau sys settings (.new sys settings (some c.controls)) c.call).map
    Prod.fst

theorem simulate_answers (h : Ready files d) (c : SimulationCall T) :
    (d.simulate cb radau c).map Prod.fst = simulatePure cb radau d (inputsAt files) c ∧
      ∀ e, d.simulate cb radau c = some e → Alike files d e.2 := by
  have hsim : d.simulate cb radau c =
      let sys := d.system cb c.parameters (inputsAt files)
      let r : RadauIntegrator T := .new sys settings (some c.controls)
      (Integrator.start sys { r.base with denseOutputGrid := c.call.grid }).bind fun base =>
        (run cb c.parameters (radau (r.inputs sys settings c.call)) base d).map fun e =>
          (⟨e.2.1.finish sys e.1.idid, e.1.y⟩, e.2.2) := rfl
  rw [hsim, simulatePure, RadauIntegrator.simulate]
  dsimp only
  generalize hr : RadauIntegrator.new (T := T) (d.system cb c.parameters (inputsAt files)) settings
    (some c.controls) = r
  cases Integrator.start (d.system cb c.parameters (inputsAt files))
      { r.base with denseOutputGrid := c.call.grid } with
  | none => exact ⟨rfl, fun e he => by cases he⟩
  | some base =>
    obtain ⟨hresult, hd⟩ := run_pure cb c.parameters
      (radau (r.inputs (d.system cb c.parameters (inputsAt files)) settings c.call)) h base
    rw [Option.bind_some, Option.bind_some, ← hresult]
    refine ⟨by simp only [Option.map_map]; rfl, fun e he => ?_⟩
    obtain ⟨e', he', rfl⟩ := Option.map_eq_some_iff.mp he
    exact hd e' he'

theorem simulatePure_total (inputs : K → Option (List K)) {c : SimulationCall T}
    (hc : c.controls.Usable) : ∃ result, simulatePure cb radau d inputs c = some result := by
  have hnew : RadauIntegrator.Settled (d.system cb c.parameters inputs) settings (some c.controls)
      (.new (d.system cb c.parameters inputs) settings (some c.controls)) :=
    RadauIntegrator.new_settled fun ctrl hctrl => Option.some.inj hctrl ▸ hc
  obtain ⟨trajectory, s, s', hs, -, -⟩ := RadauIntegrator.simulate_agree radau hnew hnew c.call
  exact ⟨_, congrArg (Option.map Prod.fst) hs⟩

omit [IsStrictOrderedRing K] in
theorem simulatePure_congr {d' : Dynamics T} (h : Alike files d d')
    (inputs : K → Option (List K)) (c : SimulationCall T) :
    simulatePure cb radau d' inputs c = simulatePure cb radau d inputs c := by
  rw [simulatePure, simulatePure, system_congr cb c.parameters h.xSize h.jacPattern]

/-- Each simulation of a row. -/
theorem simulateAll_pure (h : Ready files d) (calls : List (SimulationCall T))
    (hc : ∀ c ∈ calls, c.controls.Usable) : ∃ results d',
    simulateAll cb radau d calls = some (results, d') ∧
      List.Forall₂ (fun c result => simulatePure cb radau d (inputsAt files) c = some result)
        calls results := by
  suffices ∀ d', Alike files d d' → ∃ results d'', simulateAll cb radau d' calls =
      some (results, d'') ∧
      List.Forall₂ (fun c result => simulatePure cb radau d (inputsAt files) c = some result)
        calls results from this d (.refl h)
  induction calls with
  | nil => exact fun d' _ => ⟨[], d', rfl, .nil⟩
  | cons c calls ih =>
    intro d' hd
    obtain ⟨result, hp⟩ := simulatePure_total cb radau (d := d) (inputsAt files)
      (hc c List.mem_cons_self)
    obtain ⟨hs, hd'⟩ := simulate_answers cb radau hd.ready c
    rw [simulatePure_congr cb radau hd, hp] at hs
    obtain ⟨e, he, rfl⟩ := Option.map_eq_some_iff.mp hs
    obtain ⟨results, d'', hall, hrest⟩ := ih (fun c h => hc c (List.mem_cons_of_mem _ h)) e.2
      (hd.trans (hd' e he))
    refine ⟨e.1 :: results, d'', ?_, .cons hp hrest⟩
    rw [simulateAll, he, Option.bind_some, hall]
    rfl

end Simulations

/-! ## From the files -/

section Files

variable {K : Type} [Field K] [LinearOrder K] [IsStrictOrderedRing K] {T : FLGR K}

/-- Each file has a sample, its times increase, and every series is as long as they are. -/
structure Readable (csv : List (CsvData K)) : Prop where
  nonempty : ∀ file ∈ csv, file.t ≠ []
  increasing : ∀ file ∈ csv, file.t.Pairwise (· < ·)
  length : ∀ file ∈ csv, ∀ u ∈ file.u, file.t.length = u.length

variable {csv : List (CsvData K)}

omit [IsStrictOrderedRing K] in
theorem Readable.sampled (h : Readable csv) {file : CsvData K} (hf : file ∈ csv) :
    (Trajectory.copyExtractControls (Trajectory.fromCsv (T := T) file)).Sampled :=
  ⟨h.nonempty file hf, fun u hu => (h.length file hf u hu).symm⟩

omit [IsStrictOrderedRing K] in
theorem new_ready (h : Readable csv) (xSize : Nat) (row col : Nat → Nat) (nnz : Nat) :
    Ready (extractCtrlData (csv.map Trajectory.fromCsv))
      (new xSize row col nnz (csv.map (Trajectory.fromCsv (T := T)))) where
  usable := by
    intro ctrl hctrl
    simp only [new, extractCtrlData, List.map_map, List.mem_map] at hctrl
    obtain ⟨file, hf, rfl⟩ := hctrl
    exact .linear (.inl rfl) (h.sampled hf) (h.increasing file hf) (.inl rfl)
  same := List.forall₂_same.mpr fun ctrl _ => ⟨rfl, rfl, rfl, rfl⟩
  size := List.length_replicate
  cached := fun t ht => by cases ht

omit [IsStrictOrderedRing K] in
/-- The inputs are the interpolated columns of the files. -/
theorem inputs_columns (h : Readable csv) (t : K) :
    (extractCtrlData (csv.map (Trajectory.fromCsv (T := T)))).flatMap
        (fun ctrl => ctrl.valuesAt t) =
      (columns (csv.map (Trajectory.fromCsv (T := T)))).map fun col =>
        piecewiseLinear col.1 col.2 t := by
  unfold extractCtrlData columns
  rw [List.map_flatMap, List.flatMap_map, List.flatMap_map, List.flatMap_map]
  refine List.flatMap_congr fun file hf => ?_
  rw [ControlTrajectory.valuesAt_linear (.inl rfl),
    ControlTrajectory.linearValues_eq (h.sampled hf), List.map_map]
  rfl

/-- What is read through the pointer are the entries of the array. -/
def Reads (ptr : Option (Nat → K)) (data : Option (List K)) : Prop :=
  ∀ k v, (data.getD [])[k]? = some v → ∃ f, ptr = some f ∧ f k = v

variable {rp : List K} {mesh : MeshPtr T} {c : C.Problem T}

omit [IsStrictOrderedRing K] in
theorem create_rawData (hc : create csv rp mesh = some c) :
    c.rawData = csv.map Trajectory.fromCsv := by
  obtain ⟨rp', -, hc⟩ := Option.bind_eq_some_iff.mp hc
  obtain ⟨⟨data, size⟩, -, hc⟩ := Option.bind_eq_some_iff.mp hc
  rw [← Option.some.inj hc]

omit [IsStrictOrderedRing K] in
theorem reads_pointsTo (h : Readable csv) (hc : create csv rp mesh = some c) {ptr : Option Nat}
    {t : K} (hp : c.PointsTo ptr t) :
    Reads (dataFrom c ptr) (inputsAt (extractCtrlData c.rawData) t) := by
  intro k v hk
  have hcol : ((inputsAt (extractCtrlData c.rawData) t).getD []) =
      (columns c.rawData).map fun col => piecewiseLinear col.1 col.2 t := by
    rw [create_rawData hc, ← inputs_columns h]
    unfold inputsAt
    split
    next hnil => rw [hnil]; rfl
    next => rfl
  rw [hcol, List.getElem?_map, Option.map_eq_some_iff] at hk
  obtain ⟨col, hk, rfl⟩ := hk
  obtain ⟨hlt, rfl⟩ := List.getElem?_eq_some_iff.mp hk
  rcases hp with ⟨hnil, -⟩ | ⟨flat, idx, hd, rfl, -, hv⟩
  · rw [hnil] at hlt
    exact absurd hlt (Nat.not_lt_zero _)
  · refine ⟨_, rfl, ?_⟩
    rw [hd, Option.getD_some]
    dsimp only
    rw [hv k hlt, List.getD_eq_getElem _ _ hlt]

end Files

/-! The straight line again, as the derivative of a state. -/

section Line

/-- `x' = data`. -/
def follow : OdeCallbacks ℚ where
  odeF := fun _ _ _ _ data => data.getD []
  odeJacF := fun _ _ _ _ _ _ => 0

/-- A simulation from `0` to `1` and one from `1` to `2`. -/
def twice : List (SimulationCall eulerTables) :=
  [⟨{ t := [0] }, [], ⟨[0], 0, 1, 1, Nat.one_pos⟩⟩, ⟨{ t := [0] }, [], ⟨[0], 1, 2, 1, Nat.one_pos⟩⟩]

end Line

end Dynamics

end C
end Moo
