import Moo.Base.Interpolate
import Moo.Base.Trajectory
import Moo.Lib.Seek

/-!
# Base.ControlTrajectory

Controls as functions of time, evaluated during a simulation. The evaluators remember the segment
of their last query.

Both have no result (`none`) where they read outside of an array or dereference a null mesh, the
linear one also where it divides by zero.

* `interpolateAtLinear`, `interpolateAtPolynomial`, `interpolateAt`.
* `CachedIndex`: what queries leave in `lastTIndex`. `interpolateAtLinear_step` is one query,
  `interpolateAtLinear_run` any sequence of queries.
-/

namespace Moo

open FixedVector

structure ControlTrajectory {K : Type} [Field K] (T : FLGR K) where
  t : List K := []
  u : List (List K) := []
  interpolation : InterpolationMethod := .linear
  inducingMesh : Option (MeshPtr T) := none
  lastTIndex : Nat := 0
  lastMeshInterval : Nat := 0

/-- The difference of two numbers of type `size_t`. -/
def sizeSub (a b : Nat) : Nat := if b ≤ a then a - b else 2 ^ 64 + a - b

def Trajectory.copyExtractControls {K : Type} [Field K] {T : FLGR K} (traj : Trajectory T) :
    ControlTrajectory T where
  t := traj.t
  u := traj.u
  interpolation := traj.interpolation
  lastTIndex := 0
  lastMeshInterval := 0
  inducingMesh := traj.inducingMesh

namespace ControlTrajectory

variable {K : Type} [Field K] [LinearOrder K] {T : FLGR K} (traj : ControlTrajectory T)

/-- The interpolated values, and the trajectory with its new cache. -/
def interpolateAtLinear (tQuery : K) : Option (List K × ControlTrajectory T) := do
  let tLen := traj.t.length
  let front ← traj.t[0]?
  let back ← traj.t.getLast?
  if tQuery ≤ front then
    let values ← traj.u.mapM fun u => u[0]?
    return (values, { traj with lastTIndex := 0 })
  else if back ≤ tQuery then
    let values ← traj.u.mapM fun u => u.getLast?
    return (values, { traj with lastTIndex := sizeSub tLen 2 })
  else
    let tIdx ← Seek.seek tLen (fun i => traj.t[i]?) tQuery traj.lastTIndex
    let t1 ← traj.t[tIdx]?
    let t2 ← traj.t[tIdx + 1]?
    let alpha ← Checked.div (tQuery - t1) (t2 - t1)
    let values ← traj.u.mapM fun u => do
      let u1 ← u[tIdx]?
      let u2 ← u[tIdx + 1]?
      return u1 + alpha * (u2 - u1)
    return (values, { traj with lastTIndex := tIdx })

/-- `values_i` points to the samples of the interval: nothing else may be read through it. -/
def interpolateAtPolynomial (tQuery : K) : Option (List K × ControlTrajectory T) := do
  let front ← traj.t[0]?
  let back ← traj.t.getLast?
  if tQuery ≤ front then
    let values ← traj.u.mapM fun u => u[0]?
    return (values, { traj with lastMeshInterval := 0 })
  else if back ≤ tQuery then
    let values ← traj.u.mapM fun u => u.getLast?
    let inducingMesh ← traj.inducingMesh
    return (values, { traj with lastMeshInterval := inducingMesh.mesh.intervals - 1 })
  else
    let inducingMesh ← traj.inducingMesh
    let grid := inducingMesh.mesh.grid
    let mInterval ← Seek.seek inducingMesh.mesh.intervals (fun i => grid[i]?) tQuery
      traj.lastMeshInterval
    let meshPOrder ← inducingMesh.mesh.nodes[mInterval]?
    let tStart ← grid[mInterval]?
    let tEnd ← grid[mInterval + 1]?
    let offset := inducingMesh.mesh.accNodesAt mInterval 0
    let values ← traj.u.mapM fun u =>
      T.interpolateRead meshPOrder true (Checked.window u offset (meshPOrder + 1)) 1 tStart tEnd
        tQuery
    return (values, { traj with lastMeshInterval := mInterval })

def interpolateAt (tQuery : K) : Option (List K × ControlTrajectory T) :=
  match traj.interpolation, traj.inducingMesh with
  | .linear, _ => traj.interpolateAtLinear tQuery
  | .polynomial, none => traj.interpolateAtLinear tQuery
  | .polynomial, some _ => traj.interpolateAtPolynomial tQuery

/-- One query after the other. -/
def runLinear (traj : ControlTrajectory T) : List K → Option (List (List K) × ControlTrajectory T)
  | [] => some ([], traj)
  | tQuery :: queries => do
    let (values, traj) ← traj.interpolateAtLinear tQuery
    let (rest, traj) ← runLinear traj queries
    return (values :: rest, traj)

/-! ## The cached index -/

/-- The first segment, the last one, or a segment of positive length. -/
def CachedIndex (t : List K) (i : Nat) : Prop :=
  i = 0 ∨ i = sizeSub t.length 2 ∨ i + 1 < t.length ∧ raw t i < raw t (i + 1)

/-- The search ends at a segment of positive length that contains the query. -/
theorem seek_segment {t : List K} {i : Nat} (hi : CachedIndex t i) {q : K} (hn : 0 < t.length)
    (hfront : raw t 0 < q) (hback : q < raw t (t.length - 1)) :
    ∃ r, Seek.seek t.length (fun i => t[i]?) q i = some r ∧ r + 1 < t.length ∧
      raw t r ≤ q ∧ q ≤ raw t (r + 1) ∧ raw t r < raw t (r + 1) := by
  have hlen : 1 < t.length := by
    by_contra h
    have h1 : t.length = 1 := by omega
    rw [h1] at hback
    exact absurd (hfront.trans hback) (lt_irrefl _)
  have hlast : sizeSub t.length 2 = t.length - 2 := if_pos hlen
  have hit : i < t.length := by
    rcases hi with rfl | rfl | ⟨hi, _⟩
    · omega
    · omega
    · omega
  have hkey : ∀ i, i < t.length → t[i]? = some (raw t i) := by
    intro i hi
    rw [raw, List.getD_eq_getElem _ _ hi, List.getElem?_eq_getElem hi]
  obtain ⟨r, hr, hf⟩ := Seek.seek_found (q := q) hkey hit
  have hl : raw t r ≤ q := by
    rcases hf.left with rfl | h
    · exact hfront.le
    · exact h
  have hr1 : r + 1 < t.length := by
    by_contra h
    obtain rfl : r = t.length - 1 := by
      have := hf.lt
      omega
    exact absurd (hl.trans_lt hback) (lt_irrefl _)
  have hq := hf.right hr1
  refine ⟨r, hr, hr1, hl, hq, ?_⟩
  rcases hf.moved with rfl | h | h
  · -- The search has not moved: the cached segment.
    rcases hi with rfl | rfl | ⟨_, hi⟩
    · exact hfront.trans_le hq
    · rw [hlast] at hl ⊢
      rw [show t.length - 2 + 1 = t.length - 1 by omega]
      exact hl.trans_lt hback
    · exact hi
  · exact h.trans_le hq
  · exact hl.trans_lt h

/-! ## Queries -/

section Queries

variable {traj}

/-- Controls with one value for every time. -/
structure Sampled (traj : ControlTrajectory T) : Prop where
  nonempty : traj.t ≠ []
  length : ∀ u ∈ traj.u, u.length = traj.t.length

omit [LinearOrder K] in
theorem getElem?_eq_raw {l : List K} {i : Nat} (h : i < l.length) : l[i]? = some (raw l i) := by
  rw [raw, List.getD_eq_getElem _ _ h, List.getElem?_eq_getElem h]

omit [LinearOrder K] in
theorem getLast?_eq_raw {l : List K} (h : 0 < l.length) :
    l.getLast? = some (raw l (l.length - 1)) := by
  rw [List.getLast?_eq_getElem?, getElem?_eq_raw (by omega)]

theorem interpolateAtLinear_front (hs : traj.Sampled) {q : K} (h : q ≤ raw traj.t 0) :
    traj.interpolateAtLinear q =
      some (traj.u.map fun u => raw u 0, { traj with lastTIndex := 0 }) := by
  have hn := List.length_pos_of_ne_nil hs.nonempty
  have hu : traj.u.mapM (fun u => u[0]?) = some (traj.u.map fun u => raw u 0) :=
    Checked.mapM_eq fun u hu => getElem?_eq_raw (by rw [hs.length u hu]; exact hn)
  simp [interpolateAtLinear, getElem?_eq_raw hn, getLast?_eq_raw hn, h, hu]

theorem interpolateAtLinear_back (hs : traj.Sampled) {q : K} (h0 : raw traj.t 0 < q)
    (h : raw traj.t (traj.t.length - 1) ≤ q) : traj.interpolateAtLinear q =
      some (traj.u.map fun u => raw u (u.length - 1),
        { traj with lastTIndex := sizeSub traj.t.length 2 }) := by
  have hn := List.length_pos_of_ne_nil hs.nonempty
  have hu : traj.u.mapM (fun u => u.getLast?) =
      some (traj.u.map fun u => raw u (u.length - 1)) :=
    Checked.mapM_eq fun u hu => getLast?_eq_raw (by rw [hs.length u hu]; exact hn)
  simp [interpolateAtLinear, getElem?_eq_raw hn, getLast?_eq_raw hn, h0.not_ge, h, hu]

theorem interpolateAtLinear_inner (hs : traj.Sampled) {q : K} (h0 : raw traj.t 0 < q)
    (h : q < raw traj.t (traj.t.length - 1)) {r : Nat}
    (hr : Seek.seek traj.t.length (fun i => traj.t[i]?) q traj.lastTIndex = some r)
    (hr1 : r + 1 < traj.t.length) (hlt : raw traj.t r < raw traj.t (r + 1)) :
    traj.interpolateAtLinear q =
      some (traj.u.map fun u => raw u r + (q - raw traj.t r) * (raw u (r + 1) - raw u r) /
        (raw traj.t (r + 1) - raw traj.t r), { traj with lastTIndex := r }) := by
  have hn := List.length_pos_of_ne_nil hs.nonempty
  have hu : traj.u.mapM (fun u => do
      let u1 ← u[r]?
      let u2 ← u[r + 1]?
      return u1 + (q - raw traj.t r) / (raw traj.t (r + 1) - raw traj.t r) * (u2 - u1)) =
      some (traj.u.map fun u => raw u r + (q - raw traj.t r) * (raw u (r + 1) - raw u r) /
        (raw traj.t (r + 1) - raw traj.t r)) := by
    refine Checked.mapM_eq fun u hu => ?_
    have hlen := hs.length u hu
    rw [getElem?_eq_raw (by omega), getElem?_eq_raw (by omega), ← div_mul_eq_mul_div]
    rfl
  simp only [interpolateAtLinear, getElem?_eq_raw hn, getLast?_eq_raw hn, h0.not_ge, h.not_ge, hr,
    getElem?_eq_raw hr1, getElem?_eq_raw (Nat.lt_of_succ_lt hr1),
    Checked.div_eq (sub_ne_zero.mpr hlt.ne'), if_false, Option.bind_eq_bind, Option.bind_some]
  exact congrArg (Option.bind · _) hu

/-- The values of the stateless evaluator. -/
def linearValues (traj : ControlTrajectory T) (q : K) : List K :=
  traj.u.map fun u => raw (interpolateLinearSingle traj.t u [q]) 0

theorem linearValues_eq (hs : traj.Sampled) (q : K) :
    traj.linearValues q = traj.u.map fun u => PiecewiseLinear.piecewiseLinear traj.t u q := by
  refine List.map_congr_left fun u hu => ?_
  exact interpolateLinearSingle_getD (hs.length u hu).symm [q] (k := 0) Nat.one_pos

/-- One query, from any cached index to another one. -/
theorem interpolateAtLinear_step (hs : traj.Sampled) (hc : CachedIndex traj.t traj.lastTIndex)
    (q : K) : ∃ values i, traj.interpolateAtLinear q =
        some (values, { traj with lastTIndex := i }) ∧ CachedIndex traj.t i ∧
      (traj.t.Pairwise (· < ·) → values = traj.linearValues q) := by
  have hn := List.length_pos_of_ne_nil hs.nonempty
  have hlen : ∀ u ∈ traj.u, traj.t.length = u.length := fun u hu => (hs.length u hu).symm
  rcases le_or_gt q (raw traj.t 0) with h0 | h0
  · refine ⟨_, _, interpolateAtLinear_front hs h0, .inl rfl, fun ht => ?_⟩
    rw [linearValues_eq hs]
    refine List.map_congr_left fun u hu => ?_
    exact (PiecewiseLinear.piecewiseLinear_left (hlen u hu) ht hn h0).symm
  · rcases le_or_gt (raw traj.t (traj.t.length - 1)) q with h | h
    · refine ⟨_, _, interpolateAtLinear_back hs h0 h, .inr (.inl rfl), fun ht => ?_⟩
      rw [linearValues_eq hs]
      refine List.map_congr_left fun u hu => ?_
      exact (PiecewiseLinear.piecewiseLinear_right (hlen u hu) ht hn h).symm
    · obtain ⟨r, hr, hr1, hl, hq, hlt⟩ := seek_segment hc hn h0 h
      refine ⟨_, _, interpolateAtLinear_inner hs h0 h hr hr1 hlt, .inr (.inr ⟨hr1, hlt⟩),
        fun ht => ?_⟩
      rw [linearValues_eq hs]
      refine List.map_congr_left fun u hu => ?_
      exact (PiecewiseLinear.piecewiseLinear_segment (hlen u hu) ht hr1 hl hq).symm

theorem runLinear_total (hs : traj.Sampled) (hc : CachedIndex traj.t traj.lastTIndex)
    (queries : List K) : ∃ values i, traj.runLinear queries =
        some (values, { traj with lastTIndex := i }) ∧
      (traj.t.Pairwise (· < ·) → values = queries.map traj.linearValues) := by
  induction queries generalizing traj with
  | nil => exact ⟨[], traj.lastTIndex, rfl, fun _ => rfl⟩
  | cons q queries ih =>
    obtain ⟨values, i, hv, hi, hval⟩ := interpolateAtLinear_step hs hc q
    obtain ⟨rest, i', hr, hrest⟩ := @ih { traj with lastTIndex := i }
      ⟨hs.nonempty, hs.length⟩ hi
    refine ⟨values :: rest, i', ?_, fun ht => ?_⟩
    · simp only [runLinear, hv, Option.bind_eq_bind, Option.bind_some]
      rw [hr]
      rfl
    · rw [List.map_cons, hval ht, hrest ht]
      rfl

/-- From a new cache, every sequence of queries reads what is there and divides by lengths; with
increasing times the values are those of the stateless evaluator. -/
theorem interpolateAtLinear_run (traj : ControlTrajectory T) (hs : traj.Sampled)
    (h0 : traj.lastTIndex = 0) (queries : List K) :
    (traj.runLinear queries).isSome ∧
      (traj.t.Pairwise (· < ·) → (traj.runLinear queries).map Prod.fst =
        some (queries.map traj.linearValues)) := by
  obtain ⟨values, i, hr, hval⟩ := runLinear_total hs (.inl h0) queries
  rw [hr]
  exact ⟨rfl, fun ht => congrArg some (hval ht)⟩

/-- A jump at `1`. -/
def jumpControls : ControlTrajectory radauTwo where
  t := [0, 1, 1, 2]
  u := [[0, 2, 4, 5]]

def rampControls : ControlTrajectory radauTwo where
  t := [0, 1, 3]
  u := [[0, 2, 4]]

theorem interpolateAtLinear_run_jump :
    (jumpControls.runLinear [3 / 2, 1, 3, 1, -1, 1 / 2]).isSome ∧
      (rampControls.runLinear [5, 2, 1]).map Prod.fst =
        some ([5, 2, 1].map rampControls.linearValues) := by
  have hjump : jumpControls.Sampled := ⟨by simp [jumpControls], by simp [jumpControls]⟩
  have hramp : rampControls.Sampled := ⟨by simp [rampControls], by simp [rampControls]⟩
  constructor
  · exact (interpolateAtLinear_run jumpControls hjump rfl _).1
  · exact (interpolateAtLinear_run rampControls hramp rfl _).2 (by decide +kernel)

end Queries

end ControlTrajectory

end Moo
