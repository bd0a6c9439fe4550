import Moo.GDOP.PolynomialInterpolation

/-!
# GDOP.Verifier

`SimulationVerifier`: the optimal states against a simulation with the optimal controls.

* `stateErrors`: the errors in a norm. It returns at the first state whose series has another
  length, with zero for this state and all after it.
* `simulationVerifier`: the verdict; no result (`none`) where it dereferences a null pointer, reads
  or writes outside of an array, or aborts.
* `Verified`: what the verdict promises. `verifier_sound_iff`: it is kept exactly for a simulation
  that exists, has a time, and has a value for each state and time, on times that the forward search
  of the evaluation can follow.

`sqrt` is a function with `sqrt a ≤ sqrt 0` for no positive `a`.
-/

namespace Moo
namespace GDOP

open FixedVector Mesh

inductive Norm where
  | norm1 | norm2 | normInf
  deriving Repr, DecidableEq

section Errors

variable {K : Type} [Field K] [LinearOrder K] {T : FLGR K} (sqrt : K → K)

/-- A loop over the states, where `error` is what it computes for two series of one length. -/
def stateErrorsNorm (error : List K → List K → K) : List (List K) → List (List K) → Option (List K)
  | [], _ => some []
  | _ :: _, [] => none
  | xTraj1 :: x, xTraj2 :: other =>
    if xTraj1.length ≠ xTraj2.length then some (List.replicate (x.length + 1) 0)
    else (stateErrorsNorm error x other).map (error xTraj1 xTraj2 :: ·)

/-- The differences of two series, taken in order. -/
def foldDiffs (step : K → K → K) (xTraj1 xTraj2 : List K) : K :=
  (xTraj1.zip xTraj2).foldl (fun acc e => step acc (e.1 - e.2)) 0

def stateErrorsInfNorm : List (List K) → List (List K) → Option (List K) :=
  stateErrorsNorm (foldDiffs fun maxErr diff => if maxErr < |diff| then |diff| else maxErr)

def stateErrors2Norm : List (List K) → List (List K) → Option (List K) :=
  stateErrorsNorm fun xTraj1 xTraj2 =>
    sqrt (foldDiffs (fun sumSqDiff diff => sumSqDiff + diff * diff) xTraj1 xTraj2)

def stateErrors1Norm : List (List K) → List (List K) → Option (List K) :=
  stateErrorsNorm (foldDiffs fun sumAbsDiff diff => sumAbsDiff + |diff|)

/-- Aborts where the two time vectors have different lengths. -/
def stateErrors (traj other : Trajectory T) (norm : Norm) : Option (List K) :=
  if traj.t.length ≠ other.t.length then none
  else match norm with
    | .normInf => stateErrorsInfNorm traj.x other.x
    | .norm2 => stateErrors2Norm sqrt traj.x other.x
    | .norm1 => stateErrors1Norm traj.x other.x

def interpolatePolynomialOntoGridMultipleRead (M : Mesh T) (values : List (List K))
    (timeGrid : List K) : Option (List (List K)) :=
  values.mapM fun v => interpolatePolynomialOntoGridSingleRead M v timeGrid

def interpolatePolynomialOntoGrid (traj : Trajectory T) (timeGrid : List K) :
    Option (Trajectory T) :=
  traj.inducingMesh.bind fun inducingMesh =>
    (interpolatePolynomialOntoGridMultipleRead inducingMesh.mesh traj.x timeGrid).bind fun x =>
      (interpolatePolynomialOntoGridMultipleRead inducingMesh.mesh traj.u timeGrid).map fun u =>
        { t := timeGrid, x := x, u := u, p := traj.p }

def extractInitialStates (traj : Trajectory T) : Option (List K) :=
  traj.x.mapM fun x => x[0]?

/-- The loop over the states. All of them are compared, also after one has failed. -/
def withinTolerances (tolerances errors : List K) : Nat → Option Bool
  | 0 => some true
  | n + 1 => (withinTolerances tolerances errors n).bind fun isValid =>
      (tolerances[n]?).bind fun tol => (errors[n]?).map fun err => isValid && decide (err ≤ tol)

/-- A simulation strategy; `none` is `nullptr`. Its arguments are the controls, the parameters, the
number of steps, the start time, the stop time and the start values. -/
abbrev Simulation {K : Type} [Field K] (T : FLGR K) : Type :=
  ControlTrajectory T → List K → Nat → K → K → List K → Option (Trajectory T)

def simulationResult (simulation : Simulation T) (mesh : Mesh T) (primal : Trajectory T) :
    Option (Trajectory T) :=
  (extractInitialStates primal).bind fun extractedX0 =>
    simulation { primal.copyExtractControls with interpolation := .polynomial } primal.p
      (1 * mesh.nodeCount) 0 mesh.tf extractedX0

def simulationVerifier (simulation : Simulation T) (norm : Norm) (tolerances : List K)
    (mesh : Mesh T) (trajectory : PrimalDualTrajectory T) : Option Bool :=
  trajectory.primals.bind fun primal =>
    (simulationResult simulation mesh primal).bind fun result =>
      (interpolatePolynomialOntoGrid primal result.t).bind fun interpolatedOpt =>
        (stateErrors sqrt interpolatedOpt result norm).bind fun errors =>
          withinTolerances tolerances errors primal.x.length

end Errors

/-! ## What the verdict promises -/

section Promise

variable {K : Type} [Field K] [LinearOrder K] {T : FLGR K} (sqrt : K → K)

def normOf : Norm → List K → K
  | .norm1, d => (d.map fun a => |a|).sum
  | .norm2, d => sqrt (d.map fun a => a ^ 2).sum
  | .normInf, d => d.foldl (fun m a => max m |a|) 0

/-- Optimal states and controls, with their samples on the mesh. -/
structure OptimalOn (M : Mesh T) (trajectory : PrimalDualTrajectory T) (primal : Trajectory T) :
    Prop where
  primals : trajectory.primals = some primal
  mesh : primal.inducingMesh.map MeshPtr.mesh = some M
  x : ∀ v ∈ primal.x, v.length = M.nodeCount + 1
  u : ∀ v ∈ primal.u, v.length = M.nodeCount + 1

/-- The simulation has a value for every state and time, and each state is within its tolerance of
the polynomial of the optimal one. -/
def Verified (norm : Norm) (tolerances : List K) (M : Mesh T) (primal sim : Trajectory T) : Prop :=
  ∀ (i : Nat) v, primal.x[i]? = some v → ∃ series tol, sim.x[i]? = some series ∧
    tolerances[i]? = some tol ∧ series.length = sim.t.length ∧
      normOf sqrt norm (List.zipWith (· - ·) (sim.t.map (M.piecewise v)) series) ≤ tol

/-- There is a verdict, and `true` only for a verified simulation. -/
def Sound (simulation : Simulation T) (norm : Norm) (tolerances : List K) (M : Mesh T)
    (trajectory : PrimalDualTrajectory T) (primal : Trajectory T) : Prop :=
  ∃ b, simulationVerifier sqrt simulation norm tolerances M trajectory = some b ∧
    (b = true → ∃ sim, simulationResult simulation M primal = some sim ∧
      Verified sqrt norm tolerances M primal sim)

/-- A time, unless there is nothing to evaluate, and a value for each state and time. -/
structure Complete (primal sim : Trajectory T) : Prop where
  time : sim.t = [] → primal.x = [] ∧ primal.u = []
  series : ∀ (i : Nat) v, primal.x[i]? = some v → ∃ series, sim.x[i]? = some series ∧
    series.length = sim.t.length

/-- On these times the search of the evaluation has the values of the optimal states. -/
def TimesTracked (M : Mesh T) (primal : Trajectory T) (times : List K) : Prop :=
  ∀ v ∈ primal.x, M.Tracked v 0 times

end Promise

section Loops

variable {K : Type} [Field K] [LinearOrder K] {T : FLGR K} {sqrt : K → K}

omit [LinearOrder K] in
theorem foldDiffs_eq (step : K → K → K) (a b : List K) :
    foldDiffs step a b = (List.zipWith (· - ·) a b).foldl step 0 :=
  List.zipWith_foldl_eq_zip_foldl.symm

theorem foldDiffs_inf (a b : List K) :
    foldDiffs (fun m d => if m < |d| then |d| else m) a b =
      normOf sqrt .normInf (List.zipWith (· - ·) a b) := by
  have hmax : (fun (m d : K) => if m < |d| then |d| else m) = fun m d => max m |d| := by
    funext m d
    rw [max_def_lt]
  rw [foldDiffs_eq, hmax]
  rfl

omit [LinearOrder K] in
theorem foldl_add_map (f : K → K) (d : List K) (a : K) :
    d.foldl (fun s d => s + f d) a = a + (d.map f).sum := by
  induction d generalizing a with
  | nil => simp
  | cons b d ih => rw [List.foldl_cons, ih, List.map_cons, List.sum_cons, add_assoc]

theorem foldDiffs_1 (a b : List K) :
    foldDiffs (fun s d => s + |d|) a b = normOf sqrt .norm1 (List.zipWith (· - ·) a b) := by
  rw [foldDiffs_eq, foldl_add_map, zero_add]
  rfl

theorem foldDiffs_2 (a b : List K) :
    sqrt (foldDiffs (fun s d => s + d * d) a b) =
      normOf sqrt .norm2 (List.zipWith (· - ·) a b) := by
  rw [foldDiffs_eq, foldl_add_map (fun d => d * d), zero_add, normOf]
  simp only [pow_two]

/-- All three are the same loop with their own norm. -/
theorem stateErrors_eq (sqrt : K → K) {traj other : Trajectory T}
    (ht : traj.t.length = other.t.length) (norm : Norm) : stateErrors sqrt traj other norm =
      stateErrorsNorm (fun a b => normOf sqrt norm (List.zipWith (· - ·) a b)) traj.x other.x := by
  unfold stateErrors
  rw [if_neg (not_not.mpr ht)]
  have hloop : ∀ error error' : List K → List K → K, (∀ a b, error a b = error' a b) →
      stateErrorsNorm error traj.x other.x = stateErrorsNorm error' traj.x other.x :=
    fun error error' h => congrArg (stateErrorsNorm · traj.x other.x)
      (funext fun a => funext fun b => h a b)
  cases norm with
  | normInf => exact hloop _ _ foldDiffs_inf
  | norm2 => exact hloop _ _ foldDiffs_2
  | norm1 => exact hloop _ _ foldDiffs_1

omit [LinearOrder K] in
theorem stateErrorsNorm_length {error : List K → List K → K} {x other : List (List K)}
    {errors : List K} (h : stateErrorsNorm error x other = some errors) :
    errors.length = x.length := by
  induction x generalizing other errors with
  | nil =>
    obtain rfl := Option.some.inj h
    rfl
  | cons a x ih =>
    cases other with
    | nil => cases h
    | cons b other =>
      unfold stateErrorsNorm at h
      split at h
      · obtain rfl := Option.some.inj h
        simp
      · obtain ⟨rest, hrest, rfl⟩ := Option.map_eq_some_iff.mp h
        rw [List.length_cons, ih hrest, List.length_cons]

omit [LinearOrder K] in
/-- With a series of the same length for each state there is no early return. -/
theorem stateErrorsNorm_complete (error : List K → List K → K) {x other : List (List K)}
    (h : ∀ (i : Nat) v, x[i]? = some v → ∃ series, other[i]? = some series ∧
      series.length = v.length) :
    ∃ errors, stateErrorsNorm error x other = some errors ∧
      ∀ (i : Nat) v series, x[i]? = some v → other[i]? = some series →
        errors[i]? = some (error v series) := by
  induction x generalizing other with
  | nil => exact ⟨[], rfl, fun i v series hv _ => by simp at hv⟩
  | cons a x ih =>
    obtain ⟨b, hb, hlen⟩ := h 0 a rfl
    cases other with
    | nil => cases hb
    | cons b' other =>
      obtain rfl : b' = b := Option.some.inj hb
      have htail : ∀ (i : Nat) v, x[i]? = some v → ∃ series, other[i]? = some series ∧
          series.length = v.length := fun i v hv => h (i + 1) v hv
      obtain ⟨errors, he, hall⟩ := ih htail
      refine ⟨error a b' :: errors, ?_, ?_⟩
      · rw [stateErrorsNorm, if_neg (not_not.mpr hlen.symm), he, Option.map_some]
      · intro i v series hv hs
        cases i with
        | zero =>
          obtain rfl : a = v := Option.some.inj hv
          obtain rfl : b' = series := Option.some.inj hs
          rfl
        | succ i => exact hall i v series hv hs

/-- The verdict of the loop over the states. -/
theorem withinTolerances_spec {tolerances errors : List K} {n : Nat} (ht : n ≤ tolerances.length)
    (he : n ≤ errors.length) : ∃ b, withinTolerances tolerances errors n = some b ∧
      (b = true ↔ ∀ i, i < n → raw errors i ≤ raw tolerances i) := by
  induction n with
  | zero => exact ⟨true, rfl, by simp⟩
  | succ n ih =>
    obtain ⟨b, hb, hiff⟩ := ih (by omega) (by omega)
    refine ⟨b && decide (raw errors n ≤ raw tolerances n), ?_, ?_⟩
    · rw [withinTolerances, hb, Option.bind_some, ControlTrajectory.getElem?_eq_raw (by omega),
        Option.bind_some, ControlTrajectory.getElem?_eq_raw (by omega), Option.map_some]
    · rw [Bool.and_eq_true, decide_eq_true_eq, hiff]
      constructor
      · rintro ⟨hlt, hn⟩ i hi
        rcases Nat.lt_succ_iff_lt_or_eq.mp hi with hi | rfl
        · exact hlt i hi
        · exact hn
      · intro h
        exact ⟨fun i hi => h i (by omega), h n (Nat.lt_succ_self n)⟩

section Definite

variable [IsStrictOrderedRing K]

omit [LinearOrder K] [IsStrictOrderedRing K] in
theorem zipWith_sub_self (a : List K) :
    List.zipWith (· - ·) a a = List.replicate a.length 0 := by
  rw [List.zipWith_self]
  simp

omit [IsStrictOrderedRing K] in
theorem abs_le_foldl_max (d : List K) (m : K) :
    m ≤ d.foldl (fun m a => max m |a|) m ∧
      ∀ a ∈ d, |a| ≤ d.foldl (fun m a => max m |a|) m := by
  induction d generalizing m with
  | nil => simp
  | cons b d ih =>
    obtain ⟨hm, hd⟩ := ih (max m |b|)
    refine ⟨(le_max_left ..).trans hm, fun a ha => ?_⟩
    rcases List.mem_cons.mp ha with rfl | ha
    · exact (le_max_right ..).trans hm
    · exact hd a ha

theorem foldl_max_zero (n : Nat) :
    (List.replicate n (0 : K)).foldl (fun m a => max m |a|) 0 = 0 := by
  induction n with
  | zero => rfl
  | succ n ih => simpa [List.replicate_succ] using ih

/-- In none of the norms is anything but zero as small as zero. -/
theorem eq_zero_of_normOf_le (hsqrt : ∀ a : K, 0 ≤ a → sqrt a ≤ sqrt 0 → a = 0) (norm : Norm)
    {d : List K} {n : Nat}
    (hd : normOf sqrt norm d ≤ normOf sqrt norm (List.replicate n 0)) : ∀ a ∈ d, a = 0 := by
  intro a ha
  cases norm with
  | norm1 =>
    have hsum : (d.map fun a => |a|).sum ≤ 0 := by simpa [normOf] using hd
    have hle := List.single_le_sum (l := d.map fun a => |a|) (by simp) |a| (List.mem_map_of_mem ha)
    exact abs_nonpos_iff.mp (hle.trans hsum)
  | norm2 =>
    have hnonneg : ∀ b ∈ d.map (fun a => a ^ 2), 0 ≤ b := by simp [sq_nonneg]
    have hsum := hsqrt _ (List.sum_nonneg hnonneg) (by simpa [normOf] using hd)
    have hle := List.single_le_sum hnonneg (a ^ 2) (List.mem_map_of_mem ha)
    exact pow_eq_zero_iff two_ne_zero |>.mp (le_antisymm (hle.trans hsum.le) (sq_nonneg a))
  | normInf =>
    have hle := (abs_le_foldl_max d 0).2 a ha
    exact abs_nonpos_iff.mp (hle.trans (hd.trans_eq (foldl_max_zero n)))

omit [LinearOrder K] [IsStrictOrderedRing K] in
theorem eq_of_zipWith_sub {a b : List K} (hlen : a.length = b.length)
    (h : ∀ c ∈ List.zipWith (· - ·) a b, c = 0) : a = b := by
  induction a generalizing b with
  | nil => exact (List.length_eq_zero_iff.mp hlen.symm).symm
  | cons x a ih =>
    cases b with
    | nil => cases hlen
    | cons y b =>
      rw [List.zipWith_cons_cons, List.forall_mem_cons] at h
      rw [sub_eq_zero.mp h.1, ih (Nat.succ.inj hlen) h.2]

end Definite

end Loops

section Verdict

variable {K : Type} [Field K] [LinearOrder K] {T : FLGR K} {sqrt : K → K}
variable {M : Mesh T} {trajectory : PrimalDualTrajectory T} {primal sim : Trajectory T}
variable {simulation : Simulation T} {norm : Norm}

theorem multipleRead_time {values r : List (List K)}
    (h : interpolatePolynomialOntoGridMultipleRead M values [] = some r) : values = [] := by
  cases values with
  | nil => rfl
  | cons v values =>
    rw [interpolatePolynomialOntoGridMultipleRead, List.mapM_cons, gridRead_nil] at h
    cases h

/-- The errors do not depend on the tolerances. -/
theorem simulationVerifier_errors {tolerances : List K} {b : Bool}
    (hp : trajectory.primals = some primal)
    (h : simulationVerifier sqrt simulation norm tolerances M trajectory = some b) :
    ∃ sim errors, simulationResult simulation M primal = some sim ∧
      (sim.t = [] → primal.x = [] ∧ primal.u = []) ∧ errors.length = primal.x.length ∧
      ∀ tolerances, simulationVerifier sqrt simulation norm tolerances M trajectory =
        withinTolerances tolerances errors primal.x.length := by
  unfold simulationVerifier at h
  rw [hp, Option.bind_some] at h
  obtain ⟨sim, hsim, h⟩ := Option.bind_eq_some_iff.mp h
  obtain ⟨opt, hopt, h⟩ := Option.bind_eq_some_iff.mp h
  obtain ⟨errors, herrors, h⟩ := Option.bind_eq_some_iff.mp h
  obtain ⟨mesh, hmesh, h'⟩ := Option.bind_eq_some_iff.mp hopt
  obtain ⟨x, hx, h'⟩ := Option.bind_eq_some_iff.mp h'
  obtain ⟨u, hu, rfl⟩ := Option.map_eq_some_iff.mp h'
  have hlen : x.length = primal.x.length := Checked.mapM_length hx
  refine ⟨sim, errors, hsim, fun hnil => ?_, ?_, fun tolerances => ?_⟩
  · rw [hnil] at hx hu
    exact ⟨multipleRead_time hx, multipleRead_time hu⟩
  · have hsame := herrors.symm.trans (stateErrors_eq sqrt (by rfl) norm)
    rw [stateErrorsNorm_length hsame.symm, hlen]
  · rw [simulationVerifier, hp, Option.bind_some, hsim, Option.bind_some, hopt, Option.bind_some,
      herrors, Option.bind_some]

/-- Sound at every tolerance, the verdict is about a complete simulation. -/
theorem complete_of_sound (hp : trajectory.primals = some primal)
    (hsound : ∀ tolerances : List K, tolerances.length = primal.x.length →
      Sound sqrt simulation norm tolerances M trajectory primal) :
    ∃ sim, simulationResult simulation M primal = some sim ∧ Complete primal sim := by
  obtain ⟨b, hb, -⟩ := hsound (List.replicate primal.x.length 0) List.length_replicate
  obtain ⟨sim, errors, hsim, ht, hlen, hverdict⟩ := simulationVerifier_errors hp hb
  refine ⟨sim, hsim, ht, fun i v hv => ?_⟩
  -- The errors themselves as tolerances: the verdict is `true`.
  obtain ⟨b, hb, hpass⟩ := hsound errors hlen
  obtain ⟨b', hb', hiff⟩ := withinTolerances_spec hlen.ge hlen.ge
  rw [hverdict, hb'] at hb
  obtain rfl := Option.some.inj hb
  obtain ⟨sim', hsim', hv'⟩ := hpass (hiff.mpr fun i _ => le_rfl)
  obtain rfl : sim' = sim := Option.some.inj (hsim'.symm.trans hsim)
  obtain ⟨series, tol, hs, -, hslen, -⟩ := hv' i v hv
  exact ⟨series, hs, hslen⟩

variable (hM : M.Ordered) (h : OptimalOn M trajectory primal)

include hM

theorem multipleRead_eq {values : List (List K)} {timeGrid : List K}
    (hv : ∀ v ∈ values, v.length = M.nodeCount + 1) (ht : timeGrid = [] → values = []) :
    interpolatePolynomialOntoGridMultipleRead M values timeGrid =
      some (values.map fun v => M.onGrid v 0 timeGrid) := by
  refine Checked.mapM_eq fun v hmem => ?_
  refine gridRead_onGrid hM (hv v hmem) fun hnil => ?_
  rw [ht hnil] at hmem
  cases hmem

include h

/-- Where the simulation is complete, the verdict is about the norms. -/
theorem simulationVerifier_complete (sqrt : K → K) (norm : Norm)
    (hsim : simulationResult simulation M primal = some sim) (hc : Complete primal sim)
    {tolerances : List K} (htol : tolerances.length = primal.x.length) :
    ∃ b, simulationVerifier sqrt simulation norm tolerances M trajectory = some b ∧
      (b = true ↔ ∀ (i : Nat) v series, primal.x[i]? = some v → sim.x[i]? = some series →
        normOf sqrt norm (List.zipWith (· - ·) (M.onGrid v 0 sim.t) series) ≤
          raw tolerances i) := by
  obtain ⟨mesh, hmesh, hmesh'⟩ := Option.map_eq_some_iff.mp h.mesh
  have hx := multipleRead_eq hM h.x fun ht => (hc.time ht).1
  have hu := multipleRead_eq hM h.u fun ht => (hc.time ht).2
  let opt : Trajectory T :=
    { t := sim.t
      x := primal.x.map fun v => M.onGrid v 0 sim.t
      u := primal.u.map fun v => M.onGrid v 0 sim.t
      p := primal.p }
  have hopt : interpolatePolynomialOntoGrid primal sim.t = some opt := by
    rw [interpolatePolynomialOntoGrid, hmesh, Option.bind_some, hmesh', hx, Option.bind_some, hu,
      Option.map_some]
  have hseries : ∀ (i : Nat) v, opt.x[i]? = some v → ∃ series, sim.x[i]? = some series ∧
      series.length = v.length := by
    intro i v hv
    obtain ⟨w, hw, rfl⟩ := Option.map_eq_some_iff.mp ((List.getElem?_map ..).symm.trans hv)
    obtain ⟨series, hs, hlen⟩ := hc.series i w hw
    exact ⟨series, hs, by rw [hlen, Mesh.onGrid_length]⟩
  obtain ⟨errors, herrors, hall⟩ := stateErrorsNorm_complete
    (fun a b => normOf sqrt norm (List.zipWith (· - ·) a b)) hseries
  have hsame : stateErrors sqrt opt sim norm = _ := stateErrors_eq sqrt (by rfl) norm
  have hlen : errors.length = primal.x.length := by
    rw [stateErrorsNorm_length herrors, List.length_map]
  have herror : ∀ (i : Nat) v series, primal.x[i]? = some v → sim.x[i]? = some series →
      raw errors i =
        normOf sqrt norm (List.zipWith (· - ·) (M.onGrid v 0 sim.t) series) := by
    intro i v series hv hs
    have herr := hall i (M.onGrid v 0 sim.t) series (by rw [List.getElem?_map, hv]; rfl) hs
    rw [raw, List.getD_eq_getElem?_getD, herr, Option.getD_some]
  obtain ⟨b, hb, hiff⟩ := withinTolerances_spec htol.ge hlen.ge
  refine ⟨b, ?_, hiff.trans ⟨fun hle i v series hv hs => ?_, fun hle i hi => ?_⟩⟩
  · rw [simulationVerifier, h.primals, Option.bind_some, hsim, Option.bind_some, hopt,
      Option.bind_some, hsame, herrors, Option.bind_some, hb]
  · rw [← herror i v series hv hs]
    exact hle i (List.getElem?_eq_some_iff.mp hv).1
  · have hv := List.getElem?_eq_getElem hi
    obtain ⟨series, hs, -⟩ := hc.series i _ hv
    rw [herror i _ series hv hs]
    exact hle i _ series hv hs

theorem sound_of_tracked (sqrt : K → K) (norm : Norm)
    (hsim : simulationResult simulation M primal = some sim) (hc : Complete primal sim)
    (ht : TimesTracked M primal sim.t) {tolerances : List K}
    (htol : tolerances.length = primal.x.length) :
    Sound sqrt simulation norm tolerances M trajectory primal := by
  obtain ⟨b, hb, hiff⟩ := simulationVerifier_complete hM h sqrt norm hsim hc htol
  refine ⟨b, hb, fun htrue => ⟨sim, hsim, fun i v hv => ?_⟩⟩
  have hi := (List.getElem?_eq_some_iff.mp hv).1
  obtain ⟨series, hs, hlen⟩ := hc.series i v hv
  refine ⟨series, raw tolerances i, hs, ControlTrajectory.getElem?_eq_raw (by omega), hlen, ?_⟩
  rw [← Mesh.onGrid_eq_map.mpr (ht v (List.mem_of_getElem? hv))]
  exact hiff.mp htrue i v series hv hs

/-- A simulation with the values that the search takes is accepted when no error is tolerated. -/
theorem exists_accepted (sqrt : K → K) (norm : Norm) {times : List K} (hne : times ≠ []) :
    ∃ (simulation : Simulation T) (sim : Trajectory T),
      simulationResult simulation M primal = some sim ∧ sim.t = times ∧ Complete primal sim ∧
      (∀ (i : Nat) v, primal.x[i]? = some v → sim.x[i]? = some (M.onGrid v 0 times)) ∧
      simulationVerifier sqrt simulation norm (List.replicate primal.x.length
        (normOf sqrt norm (List.replicate times.length 0))) M trajectory = some true := by
  let sim : Trajectory T := { t := times, x := primal.x.map fun v => M.onGrid v 0 times }
  have hsim : simulationResult (fun _ _ _ _ _ _ => some sim) M primal = some sim := by
    have hfirst : extractInitialStates primal = some (primal.x.map fun v => raw v 0) :=
      Checked.mapM_eq fun v hv =>
        ControlTrajectory.getElem?_eq_raw (by rw [h.x v hv]; omega)
    rw [simulationResult, hfirst, Option.bind_some]
  have hget : ∀ (i : Nat) v, primal.x[i]? = some v → sim.x[i]? = some (M.onGrid v 0 times) :=
    fun i v hv => by rw [List.getElem?_map, hv, Option.map_some]
  have hc : Complete primal sim :=
    ⟨fun hnil => absurd hnil hne, fun i v hv => ⟨_, hget i v hv, M.onGrid_length v 0 times⟩⟩
  have htol : (List.replicate primal.x.length
      (normOf sqrt norm (List.replicate times.length 0))).length = primal.x.length :=
    List.length_replicate
  obtain ⟨b, hb, hiff⟩ := simulationVerifier_complete hM h sqrt norm hsim hc htol
  have htrue : b = true := by
    refine hiff.mpr fun i v series hv hs => ?_
    rw [hget i v hv] at hs
    obtain rfl := Option.some.inj hs
    rw [zipWith_sub_self, M.onGrid_length, raw,
      List.getD_replicate _ (List.getElem?_eq_some_iff.mp hv).1]
  exact ⟨_, sim, hsim, rfl, hc, hget, htrue ▸ hb⟩

/-- Times on which every complete simulation is judged right, at any tolerance. -/
theorem tracked_of_sound [IsStrictOrderedRing K]
    (hsqrt : ∀ a : K, 0 ≤ a → sqrt a ≤ sqrt 0 → a = 0) {times : List K}
    (hsound : ∀ (simulation : Simulation T) sim, simulationResult simulation M primal = some sim →
      sim.t = times → Complete primal sim → ∀ tolerances : List K,
      tolerances.length = primal.x.length →
      Sound sqrt simulation norm tolerances M trajectory primal) :
    TimesTracked M primal times := by
  rcases eq_or_ne times [] with rfl | hne
  · exact fun _ _ => trivial
  obtain ⟨simulation, sim, hsim, ht, hc, hget, haccept⟩ := exists_accepted hM h sqrt norm hne
  obtain ⟨b, hb, hverified⟩ := hsound simulation sim hsim ht hc _ List.length_replicate
  obtain ⟨sim', hsim', hall⟩ := hverified (Option.some.inj (hb.symm.trans haccept))
  obtain rfl : sim = sim' := Option.some.inj (hsim.symm.trans hsim')
  intro v hv
  obtain ⟨i, hi⟩ := List.mem_iff_getElem?.mp hv
  obtain ⟨series, tol, hs, htol, -, hle⟩ := hall i v hi
  obtain rfl : M.onGrid v 0 times = series := Option.some.inj ((hget i v hi).symm.trans hs)
  rw [List.getElem?_replicate_of_lt (List.getElem?_eq_some_iff.mp hi).1] at htol
  obtain rfl := Option.some.inj htol
  rw [ht] at hle
  refine Mesh.onGrid_eq_map.mp (eq_of_zipWith_sub ?_ (eq_zero_of_normOf_le hsqrt norm hle)).symm
  rw [List.length_map, M.onGrid_length]

end Verdict

section Square

/-- One optimal state, `t ^ 2` at the nodes, and a constant control. -/
def squarePrimal : Trajectory radauTwo where
  t := fine.getFlatT
  x := [[0, 1, 4, 9]]
  u := [[1, 1, 1, 1]]
  interpolation := .polynomial
  inducingMesh := some ⟨0, fine⟩

def squareTrajectory : PrimalDualTrajectory radauTwo where
  primals := some squarePrimal

def noSimulation : Simulation radauTwo := fun _ _ _ _ _ _ => none

/-- A simulation that has lost its last state value. -/
def shortSimulation : Simulation radauTwo := fun _ _ _ _ _ _ =>
  some { t := [0, 1, 3], x := [[0, 100]] }

/-- A simulation whose times go back: there the search stays in the last interval. -/
def backwardSimulation : Simulation radauTwo := fun _ _ _ _ _ _ =>
  some { t := [0, 3, 1 / 2], x := [[0, 9, -47 / 32]] }

/-- A simulation on the nodes and between them. -/
def denseSimulation : Simulation radauTwo := fun _ _ _ _ _ _ =>
  some { t := [0, 1 / 2, 1, 2, 3], x := [[0, 1 / 4, 1, 4, 9]] }

end Square

end GDOP
end Moo
