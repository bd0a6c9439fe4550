import Moo.GDOP.WarmStart

/-!
# C.Problem

The problem behind the C interface: input trajectories from files, interpolated onto the mesh and
handed to the user's callbacks as pointers into one array.

* `create`: the constructor. `fillData` lays the interpolated controls out in one chunk for every
  entry of the time grid; it runs once.
* `getDataIj`, `getDataT0`, `getDataTf`: the pointers, computed from the current mesh.
* `callbacks`: the callbacks of the two sweeps, made of the user's.
* `data_follows_mesh`: the pointers are right in every run whose meshes keep the time grid of the
  first one. `data_stale`: they are not on a refined mesh.
-/

namespace Moo
namespace C

open Loop FixedVector NLP GDOP PiecewiseLinear

/-- The content of a csv file. -/
structure CsvData (K : Type) where
  t : List K
  x : List (List K) := []
  u : List (List K) := []
  p : List K := []

def Trajectory.fromCsv {K : Type} [Field K] {T : FLGR K} (csv : CsvData K) : Trajectory T where
  t := csv.t
  x := csv.x
  u := csv.u
  p := csv.p
  interpolation := .linear

/-- `data` is the array that `c_problem->data` points to, `none` for the null pointer. -/
structure Problem {K : Type} [Field K] (T : FLGR K) where
  rawData : List (Trajectory T)
  rp : List K
  data : Option (List K)
  dataChunkSize : Nat

/-- The functions of `c_callbacks_t`, as the entries they write to `out`. -/
structure UserCallbacks (K : Type) where
  evalLfg : (xu p : Option (Nat → K)) → (t : K) → (data : Option (Nat → K)) → Nat → K
  jacLfg : (xu p : Option (Nat → K)) → (t : K) → (data : Option (Nat → K)) → Nat → K
  hesLfg : (xu p lambda : Option (Nat → K)) → (objFactor t : K) → (data : Option (Nat → K)) →
    Nat → K
  evalMr : (x0 xuf p : Option (Nat → K)) → (t0 tf : K) → (dataT0 dataTf : Option (Nat → K)) →
    Nat → K
  jacMr : (x0 xuf p : Option (Nat → K)) → (t0 tf : K) → (dataT0 dataTf : Option (Nat → K)) →
    Nat → K
  hesMr : (x0 xuf p lambda : Option (Nat → K)) → (objFactor t0 tf : K) →
    (dataT0 dataTf : Option (Nat → K)) → Nat → K

/-! ## The constructor -/

section Create

variable {K : Type} [Field K] [LinearOrder K] {T : FLGR K}

/-- The parameters of all files, one behind the other; `none` where they exceed the buffer. -/
def fillRuntimeParameters (rawData : List (Trajectory T)) (rp : List K) : Option (List K) :=
  (rawData.foldlM (fun (s : List K × Nat) traj =>
    if s.2 + traj.p.length > rp.length then none
    else some (edit s.1 fun rp => forRange traj.p.length (fun k rp =>
      Function.update rp (s.2 + k) (raw traj.p k)) rp, s.2 + traj.p.length)) (rp, 0)).map Prod.fst

/-- One chunk of the data array: the controls of all files at one entry of the time grid. -/
def fillChunk (interpolated : List (Trajectory T)) (tIdx : Nat) (s : (Nat → K) × Nat) :
    (Nat → K) × Nat :=
  interpolated.foldl (fun (s : (Nat → K) × Nat) traj =>
    (forRange traj.u.length (fun uIdx buf =>
      Function.update buf (s.2 + uIdx) (raw (traj.u.getD uIdx []) tIdx)) s.1,
      s.2 + traj.u.length)) s

/-- The data array and the size of its chunks. -/
def fillData (rawData : List (Trajectory T)) (mesh : MeshPtr T) :
    Option (Option (List K) × Nat) := do
  let interpolated ← rawData.mapM fun traj => traj.interpolateOntoMesh mesh
  let blockSize := rawData.foldl (fun size traj => size + traj.u.length) 0
  if blockSize = 0 then some (none, 0)
  else
    let flat := (forRange (mesh.mesh.nodeCount + 1) (fillChunk interpolated) (fun _ => 0, 0)).1
    some (some (fill (blockSize * (mesh.mesh.nodeCount + 1)) flat), blockSize)

def create (csv : List (CsvData K)) (rp : List K) (mesh : MeshPtr T) : Option (Problem T) := do
  let rawData := csv.map Trajectory.fromCsv
  let rp ← fillRuntimeParameters rawData rp
  let (data, dataChunkSize) ← fillData rawData mesh
  some { rawData, rp, data, dataChunkSize }

end Create

/-! ## The callbacks -/

section Callbacks

variable {K : Type} [Field K] {T : FLGR K} (c : Problem T)

/-! Pointers into the data array, as the index they point to. -/

def getDataIj (M : Mesh T) (i j : Nat) : Option Nat :=
  c.data.map fun _ => (1 + M.accNodesAt i j) * c.dataChunkSize

def getDataT0 : Option Nat := c.data.map fun _ => 0

def getDataTf (M : Mesh T) : Option Nat := c.data.map fun _ => M.nodeCount * c.dataChunkSize

/-- What a callback reads through a pointer. Behind the array the model reads zeros, the source
whatever is there. -/
def dataFrom (ptr : Option Nat) : Option (Nat → K) :=
  ptr.map fun idx k => raw (c.data.getD []) (idx + k)

variable (P : GDOP.Problem K) (M : Mesh T)

def getXuIj (xu : Option (Nat → K)) (i j : Nat) : Option (Nat → K) :=
  xu.map fun v k => v (P.pc.xuSize * M.accNodesAt i j + k)

def getLambdaIj (lambda : Option (Nat → K)) (i j : Nat) : Option (Nat → K) :=
  lambda.map fun v k => v (P.pc.fgSize * M.accNodesAt i j + k)

/-- A buffer with a window of `size` entries for each node. -/
def windows (size : Nat) (out : Nat → Nat → Nat → K) : Nat → K :=
  M.forNodes (fun i j buf => forRange size (fun k buf =>
    Function.update buf (size * M.accNodesAt i j + k) (out i j k)) buf) fun _ => 0

/-- The parameter Hessian has a buffer of its own, which no callback writes. -/
def callbacks (u : UserCallbacks K) : Callbacks T where
  fullEval := fun M xu p => windows M P.full.size fun i j =>
    u.evalLfg (getXuIj P M xu i j) p (M.tAt i j) (dataFrom c (getDataIj c M i j))
  fullJac := fun M xu p => windows M P.full.computeJacNnz fun i j =>
    u.jacLfg (getXuIj P M xu i j) p (M.tAt i j) (dataFrom c (getDataIj c M i j))
  fullHes := fun M xu p factors lambda _ => windows M P.full.hes.nnz fun i j =>
    u.hesLfg (getXuIj P M xu i j) p (getLambdaIj P M lambda i j) (factors i j) (M.tAt i j)
      (dataFrom c (getDataIj c M i j))
  fullPpHes := fun _ _ _ _ _ _ _ => 0
  boundaryEval := fun M x0 xuf p =>
    u.evalMr x0 xuf p 0 M.tf (dataFrom c (getDataT0 c)) (dataFrom c (getDataTf c M))
  boundaryJac := fun M x0 xuf p =>
    u.jacMr x0 xuf p 0 M.tf (dataFrom c (getDataT0 c)) (dataFrom c (getDataTf c M))
  boundaryHes := fun M x0 xuf p mayerFactor lambda _ =>
    u.hesMr x0 xuf p lambda mayerFactor 0 M.tf (dataFrom c (getDataT0 c))
      (dataFrom c (getDataTf c M))

end Callbacks

/-! ## What the constructor fills in -/

section Fill

variable {K : Type} [Field K] {T : FLGR K}

/-- All input controls, file by file, with their sample times. -/
def columns (rawData : List (Trajectory T)) : List (List K × List K) :=
  rawData.flatMap fun traj => traj.u.map fun u => (traj.t, u)

theorem columns_cons (traj : Trajectory T) (rawData : List (Trajectory T)) :
    columns (traj :: rawData) = (traj.u.map fun u => (traj.t, u)) ++ columns rawData :=
  List.flatMap_cons

theorem fillChunk_eq (trajs : List (Trajectory T)) (tIdx : Nat) (buf : Nat → K) (offset : Nat) :
    fillChunk trajs tIdx (buf, offset) =
      (fun k => if offset ≤ k ∧ k < offset + (trajs.flatMap Trajectory.u).length then
        raw ((trajs.flatMap Trajectory.u).getD (k - offset) []) tIdx else buf k,
      offset + (trajs.flatMap Trajectory.u).length) := by
  induction trajs generalizing buf offset with
  | nil =>
    refine Prod.ext (funext fun k => ?_) rfl
    exact (if_neg (by simp)).symm
  | cons traj trajs ih =>
    rw [fillChunk, List.foldl_cons]
    refine (ih _ _).trans (Prod.ext (funext fun k => ?_) ?_)
    · simp only [List.flatMap_cons, List.length_append, forRange_fillFrom]
      by_cases h1 : offset ≤ k ∧ k < offset + traj.u.length
      · rw [if_neg (by omega), if_pos h1, if_pos (by omega), List.getD_append _ _ _ _ (by omega)]
      · by_cases h2 : offset + traj.u.length ≤ k ∧
            k < offset + traj.u.length + (trajs.flatMap Trajectory.u).length
        · rw [if_pos h2, if_pos (by omega), List.getD_append_right _ _ _ _ (by omega)]
          congr 2
          omega
        · rw [if_neg h2, if_neg h1, if_neg (by omega)]
    · simp only [List.flatMap_cons, List.length_append]
      omega

/-- The chunks lie one behind the other. -/
theorem chunks_eq (trajs : List (Trajectory T)) (n : Nat) (buf : Nat → K) :
    (forRange n (fillChunk trajs) (buf, 0)).2 = n * (trajs.flatMap Trajectory.u).length ∧
    ∀ tIdx k, tIdx < n → k < (trajs.flatMap Trajectory.u).length →
      (forRange n (fillChunk trajs) (buf, 0)).1
          (tIdx * (trajs.flatMap Trajectory.u).length + k) =
        raw ((trajs.flatMap Trajectory.u).getD k []) tIdx := by
  refine forRange_inv (P := fun n (s : (Nat → K) × Nat) =>
    s.2 = n * (trajs.flatMap Trajectory.u).length ∧
    ∀ tIdx k, tIdx < n → k < (trajs.flatMap Trajectory.u).length →
      s.1 (tIdx * (trajs.flatMap Trajectory.u).length + k) =
        raw ((trajs.flatMap Trajectory.u).getD k []) tIdx)
    ⟨(Nat.zero_mul _).symm, fun _ _ h => absurd h (Nat.not_lt_zero _)⟩ ?_
  rintro m hm ⟨buf, offset⟩ ⟨rfl, hs⟩
  rw [fillChunk_eq]
  refine ⟨(Nat.succ_mul _ _).symm, fun tIdx k ht hk => ?_⟩
  rcases Nat.lt_succ_iff_lt_or_eq.mp ht with hlt | rfl
  · have hle := mul_succ_le (c := (trajs.flatMap Trajectory.u).length) hlt
    exact (if_neg (by omega)).trans (hs tIdx k hlt hk)
  · refine (if_pos (by omega)).trans ?_
    rw [Nat.add_sub_cancel_left]

variable [LinearOrder K]

theorem mapM_linear {rawData : List (Trajectory T)} (mesh : MeshPtr T)
    (h : ∀ traj ∈ rawData, traj.interpolation = .linear) :
    rawData.mapM (fun traj : Trajectory T => traj.interpolateOntoMesh mesh) =
      some (rawData.map fun traj : Trajectory T => traj.interpolateOntoMeshLinear mesh) := by
  induction rawData with
  | nil => rfl
  | cons traj rawData ih =>
    rw [List.mapM_cons, ih fun tr htr => h tr (List.mem_cons_of_mem _ htr),
      Trajectory.interpolateOntoMesh, h traj List.mem_cons_self]
    rfl

theorem controls_interpolated (rawData : List (Trajectory T)) (mesh : MeshPtr T) :
    (rawData.map fun traj => traj.interpolateOntoMeshLinear mesh).flatMap Trajectory.u =
      (columns rawData).map fun col =>
        interpolateLinearSingle col.1 col.2 mesh.mesh.getFlatT := by
  induction rawData with
  | nil => rfl
  | cons traj rawData ih =>
    rw [List.map_cons, List.flatMap_cons, ih, columns_cons, List.map_append, List.map_map]
    rfl

omit [LinearOrder K] in
theorem blockSize_eq (rawData : List (Trajectory T)) :
    rawData.foldl (fun size traj => size + traj.u.length) 0 = (columns rawData).length := by
  have key : ∀ (l : List (Trajectory T)) (n : Nat),
      l.foldl (fun size traj => size + traj.u.length) n = n + (columns l).length := by
    intro l
    induction l with
    | nil => intro n; rfl
    | cons traj l ih =>
      intro n
      rw [List.foldl_cons, ih, columns_cons, List.length_append, List.length_map]
      omega
  rw [key, Nat.zero_add]

/-- Input trajectories as they come from files. -/
structure Sampled (rawData : List (Trajectory T)) : Prop where
  linear : ∀ traj ∈ rawData, traj.interpolation = .linear
  length : ∀ col ∈ columns rawData, col.1.length = col.2.length

omit [LinearOrder K] in
theorem sampled_fromCsv {csv : List (CsvData K)}
    (hcsv : ∀ d ∈ csv, ∀ u ∈ d.u, d.t.length = u.length) :
    Sampled (csv.map (Trajectory.fromCsv (T := T))) := by
  refine ⟨fun traj htraj => ?_, fun col hcol => ?_⟩
  · obtain ⟨d, -, rfl⟩ := List.mem_map.mp htraj
    rfl
  · obtain ⟨traj, htraj, hcol⟩ := List.mem_flatMap.mp hcol
    obtain ⟨d, hd, rfl⟩ := List.mem_map.mp htraj
    obtain ⟨u, hu, rfl⟩ := List.mem_map.mp hcol
    exact hcsv d hd u hu

/-- The array that the constructor leaves: at chunk `tIdx` every input at entry `tIdx` of the time
grid. -/
theorem fillData_eq {rawData : List (Trajectory T)} (h : Sampled rawData) (mesh : MeshPtr T) :
    (columns rawData = [] ∧ fillData rawData mesh = some (none, 0)) ∨
    ∃ flat, columns rawData ≠ [] ∧
      fillData rawData mesh = some (some flat, (columns rawData).length) ∧
      flat.length = (columns rawData).length * (mesh.mesh.nodeCount + 1) ∧
      ∀ tIdx k, tIdx < mesh.mesh.nodeCount + 1 → k < (columns rawData).length →
        raw flat (tIdx * (columns rawData).length + k) =
          piecewiseLinear ((columns rawData).getD k ([], [])).1
            ((columns rawData).getD k ([], [])).2 (raw mesh.mesh.getFlatT tIdx) := by
  rw [fillData, mapM_linear mesh h.linear]
  simp only [Option.bind_eq_bind, Option.bind_some, blockSize_eq]
  by_cases h0 : (columns rawData).length = 0
  · exact .inl ⟨List.length_eq_zero_iff.mp h0, if_pos h0⟩
  · refine .inr ⟨_, fun h => h0 (by rw [h]; rfl), if_neg h0, fill_length .., fun tIdx k ht hk => ?_⟩
    have hu := controls_interpolated rawData mesh
    have hl := congrArg List.length hu
    rw [List.length_map] at hl
    have hc := (chunks_eq (rawData.map fun traj => traj.interpolateOntoMeshLinear mesh)
      (mesh.mesh.nodeCount + 1) (fun _ => 0)).2 tIdx k ht (hl ▸ hk)
    rw [hl] at hc
    have hlt := mul_succ_le (c := (columns rawData).length) ht
    rw [Nat.mul_comm (mesh.mesh.nodeCount + 1)] at hlt
    rw [raw_fill_lt _ (by omega), hc, hu]
    have hcol : ((columns rawData).map fun col =>
        interpolateLinearSingle col.1 col.2 mesh.mesh.getFlatT).getD k [] =
        interpolateLinearSingle ((columns rawData).getD k ([], [])).1
          ((columns rawData).getD k ([], [])).2 mesh.mesh.getFlatT := by
      simp [hk]
    have hlen := h.length _ (List.getElem_mem hk)
    rw [← List.getD_eq_getElem _ ([], []) hk] at hlen
    rw [hcol]
    exact interpolateLinearSingle_getD hlen _ (by rw [mesh.mesh.getFlatT_length]; exact ht)

end Fill

/-! ## Data and mesh -/

section Follows

variable {K : Type} [Field K] [LinearOrder K] {T : FLGR K}

/-- The pointer lies in the array, with a whole chunk behind it: the inputs at `time`. Without
inputs it is null. -/
def Problem.PointsTo (c : Problem T) (ptr : Option Nat) (time : K) : Prop :=
  (columns c.rawData = [] ∧ ptr = none) ∨
    ∃ flat idx, c.data = some flat ∧ ptr = some idx ∧
      idx + (columns c.rawData).length ≤ flat.length ∧
      ∀ k, k < (columns c.rawData).length →
        raw flat (idx + k) = piecewiseLinear ((columns c.rawData).getD k ([], [])).1
          ((columns c.rawData).getD k ([], [])).2 time

/-- All pointers that the callbacks are passed on the mesh `M`. -/
structure Problem.Follows (c : Problem T) (M : Mesh T) : Prop where
  node : ∀ i j, i < M.intervals → j < M.nodesAt i → c.PointsTo (getDataIj c M i j) (M.tAt i j)
  t0 : c.PointsTo (getDataT0 c) 0
  tf : c.PointsTo (getDataTf c M) M.tf

variable {csv : List (CsvData K)} {rp : List K} {mesh : MeshPtr T} {c : Problem T}

/-- Every pointer is one to an entry of the time grid of the first mesh. -/
theorem pointsTo_entry (hc : create csv rp mesh = some c)
    (hcsv : ∀ d ∈ csv, ∀ u ∈ d.u, d.t.length = u.length) (tIdx : Nat)
    (ht : tIdx < mesh.mesh.nodeCount + 1) :
    c.PointsTo (c.data.map fun _ => tIdx * c.dataChunkSize) (raw mesh.mesh.getFlatT tIdx) := by
  obtain ⟨rp', -, hc⟩ := Option.bind_eq_some_iff.mp hc
  rcases fillData_eq (sampled_fromCsv hcsv) mesh with ⟨h0, e⟩ | ⟨flat, -, e, hl, hv⟩
  · rw [e] at hc
    cases hc
    exact .inl ⟨h0, rfl⟩
  · rw [e] at hc
    cases hc
    refine .inr ⟨flat, _, rfl, rfl, ?_, fun k hk => hv tIdx k ht hk⟩
    have hlt := mul_succ_le (c := (columns (csv.map (Trajectory.fromCsv (T := T)))).length) ht
    rw [Nat.mul_comm (mesh.mesh.nodeCount + 1)] at hlt
    rw [hl]
    exact hlt

/-- On a mesh with the time grid of the first one the pointers are right. -/
theorem follows_of_flatT (hc : create csv rp mesh = some c)
    (hcsv : ∀ d ∈ csv, ∀ u ∈ d.u, d.t.length = u.length)
    {M : Mesh T} (hT : ∀ scheme ∈ M.nodes, T.getC scheme (scheme - 1) = 1)
    (hM : M.getFlatT = mesh.mesh.getFlatT) : c.Follows M := by
  have hn : M.nodeCount = mesh.mesh.nodeCount := by
    have h := congrArg List.length hM
    rw [M.getFlatT_length, mesh.mesh.getFlatT_length] at h
    omega
  refine ⟨fun i j hi hj => ?_, ?_, ?_⟩
  · have h := M.accNodesAt_lt hi hj
    have hp := pointsTo_entry hc hcsv (M.accNodesAt i j + 1) (by omega)
    rw [← hM, show raw M.getFlatT _ = _ from M.getFlatT_node hi hj, Nat.add_comm] at hp
    exact hp
  · have hp := pointsTo_entry hc hcsv 0 (Nat.succ_pos _)
    rw [Nat.zero_mul] at hp
    exact hp
  · have hp := pointsTo_entry hc hcsv M.nodeCount (by omega)
    rw [← hM, show raw M.getFlatT _ = _ from M.getFlatT_last hT] at hp
    exact hp

/-- Without inputs there is nothing to be right about. -/
theorem follows_of_nil (hc : create csv rp mesh = some c)
    (hcsv : ∀ d ∈ csv, ∀ u ∈ d.u, d.t.length = u.length) (h0 : columns c.rawData = [])
    (M : Mesh T) : c.Follows M := by
  have hd : c.data = none := by
    obtain ⟨rp', -, hc⟩ := Option.bind_eq_some_iff.mp hc
    rcases fillData_eq (sampled_fromCsv hcsv) mesh with ⟨-, e⟩ | ⟨flat, hne, e, -, -⟩
    · rw [e] at hc
      cases hc
      rfl
    · rw [e] at hc
      cases hc
      exact absurd h0 hne
  refine ⟨fun i j _ _ => .inl ⟨h0, ?_⟩, .inl ⟨h0, ?_⟩, .inl ⟨h0, ?_⟩⟩
  · rw [getDataIj, hd]
    rfl
  · rw [getDataT0, hd]
    rfl
  · rw [getDataTf, hd]
    rfl

omit [LinearOrder K] in
/-- The mesh of a ledger is the first one or one that was passed to `update`. -/
theorem notes_mesh {P : GDOP.Problem K} {Q : MeshPtr T → Prop} {l : Ledger T} (hl : Q l.mesh)
    {cs : List (Call T)} (hcs : ∀ m, Call.update m ∈ cs → Q m) : Q (l.notes P cs).mesh := by
  induction cs generalizing l with
  | nil => exact hl
  | cons c cs ih =>
    refine ih ?_ fun m hm => hcs m (List.mem_cons_of_mem _ hm)
    cases c with
    | update m => exact hcs m List.mem_cons_self
    | _ => exact hl

/-- In every run in which each mesh passed to `update` has the time grid of the first one, or
without inputs, the callbacks are passed the inputs at the times of the current mesh. The last
node of a scheme is `1`. -/
theorem data_follows_mesh (csv : List (CsvData K)) (rp : List K) (mesh : MeshPtr T)
    {c : Problem T} (hc : create csv rp mesh = some c)
    (hcsv : ∀ d ∈ csv, ∀ u ∈ d.u, d.t.length = u.length) (P : GDOP.Problem K)
    (u : UserCallbacks K) (past : Nat → Nat × Nat) (cs : List (Call T)) {s : State T}
    (hr : run (callbacks c P u) P past (State.start mesh) cs = some s)
    (hT : ∀ scheme ∈ s.inst.mesh.mesh.nodes, T.getC scheme (scheme - 1) = 1)
    (h : columns c.rawData = [] ∨
      ∀ m, Call.update m ∈ cs → m.mesh.getFlatT = mesh.mesh.getFlatT) :
    c.Follows s.inst.mesh.mesh := by
  rcases h with h0 | hm
  · exact follows_of_nil hc hcsv h0 _
  · have hs := Synced.run (P := P) (l := { mesh }) ⟨rfl, rfl, fun hi => (by cases hi)⟩ hr
    refine follows_of_flatT hc hcsv hT ?_
    rw [hs.mesh]
    exact notes_mesh (Q := fun m => m.mesh.getFlatT = mesh.mesh.getFlatT) rfl hm

end Follows

/-! One input, the straight line from `(0, 0)` to `(1, 1)`, on one step and then on two. -/

section Line

def line : List (CsvData ℚ) := [{ t := [0, 1], u := [[0, 1]] }]

/-- The input is the value of every function. -/
def echo : UserCallbacks ℚ where
  evalLfg := fun _ _ _ data _ => (data.getD 0) 0
  jacLfg := fun _ _ _ data _ => (data.getD 0) 0
  hesLfg := fun _ _ _ _ _ data _ => (data.getD 0) 0
  evalMr := fun _ _ _ _ _ _ dataTf _ => (dataTf.getD 0) 0
  jacMr := fun _ _ _ _ _ _ dataTf _ => (dataTf.getD 0) 0
  hesMr := fun _ _ _ _ _ _ _ _ dataTf _ => (dataTf.getD 0) 0

/-- The calls of a solve up to its first evaluation. -/
def evaluated : List (Call eulerTables) :=
  [.getInfo, .getJacSparsity, .getHesSparsity, .evalF true fun k => k]

/-- The mesh is replaced by a copy. -/
theorem data_follows_mesh_line : ∃ c s,
    create line [] oneStep = some c ∧
    run (callbacks c terminal echo) terminal (fun _ => (0, 0)) (State.start oneStep)
      (.update ⟨2, oneStep.mesh⟩ :: evaluated) = some s ∧
    c.Follows s.inst.mesh.mesh := by
  refine ⟨_, _, rfl, rfl, data_follows_mesh line [] oneStep rfl ?_ terminal echo
    (fun _ => (0, 0)) (.update ⟨2, oneStep.mesh⟩ :: evaluated) rfl ?_ (.inr ?_)⟩
  · decide +kernel
  · decide +kernel
  · intro m hm
    simp only [evaluated, List.mem_cons, Call.update.injEq, reduceCtorEq, List.not_mem_nil,
      or_false] at hm
    subst hm
    rfl

/-- On two steps the last node has the third entry of an array of two. -/
theorem data_stale : ∃ c s,
    create line [] oneStep = some c ∧
    run (callbacks c terminal echo) terminal (fun _ => (0, 0)) (State.start oneStep)
      (.update twoSteps :: evaluated) = some s ∧
    ¬ c.Follows s.inst.mesh.mesh := by
  refine ⟨_, _, rfl, rfl, fun h => ?_⟩
  rcases h.node 1 0 (by decide) (by decide) with ⟨h0, -⟩ | ⟨flat, idx, hd, hp, hle, -⟩
  · cases h0
  · cases hd
    cases hp
    revert hle
    decide

end Line

end C
end Moo
