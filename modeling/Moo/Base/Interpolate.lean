import Mathlib.Algebra.Order.AbsoluteValue.Basic
import Mathlib.Algebra.Order.Ring.Rat
import Moo.Base.FLGR
import Moo.Lib.Barycentric
import Moo.Lib.Checked

/-!
# Base.Interpolate

Barycentric interpolation is exact.

* `FLGR.interpolateWith`: `interpolate` with a result only when every value that is read is there
  and every division has a result. `interpolateWith_interpolate` connects the two, and
  `interpolateRead_eq` says which values are read.
* `FLGR.Separated`: nodes as far apart as the match tolerance (nodes that are closer are one node
  to the code). `FLGR.Tables`: such nodes with their weights.
* `interpolateChecked_exact`: polynomials of a degree below the number of nodes are reproduced.
-/

namespace Moo
namespace FLGR

open Polynomial

variable {K : Type} (T : FLGR K)

/-! ## The nodes of one set -/

def nodesOf (scheme : Nat) (containsZero : Bool) : Nat → K :=
  if containsZero then T.getC0 scheme else T.getC scheme

def weightsOf (scheme : Nat) (containsZero : Bool) : Nat → K :=
  if containsZero then T.getW0 scheme else T.getW scheme

def nodeCountOf (scheme : Nat) (containsZero : Bool) : Nat := scheme + if containsZero then 1 else 0

section Checked

variable [Field K] [LinearOrder K]

/-- `interpolate` with `none` for a value that cannot be read. -/
def interpolateWith (divide : K → K → Option K) (scheme : Nat) (containsZero : Bool)
    (values : Nat → Option K) (increment : Nat) (intervalStart intervalEnd point : K) : Option K :=
  let nodes := T.nodesOf scheme containsZero
  let weights := T.weightsOf scheme containsZero
  let nodeCount := nodeCountOf scheme containsZero
  let h := intervalEnd - intervalStart
  let nodeStart := nodes 0
  let nodeEnd := nodes (nodeCount - 1)
  if |nodeEnd - nodeStart| < nodeTol ∨ (containsZero = false ∧ scheme = 1) then values 0
  else
    (divide (point - intervalStart) h).bind fun ratio =>
      let pointHat := ratio * (nodeEnd - nodeStart) + nodeStart
      match (List.range nodeCount).find? (fun j => |pointHat - nodes j| < nodeTol) with
      | some j => values j
      | none =>
        (Checked.forRange nodeCount (fun j (nd : K × K) =>
          (divide (weights j) (pointHat - nodes j)).bind fun temp =>
            (values (increment * j)).map fun v => (nd.1 + temp * v, nd.2 + temp)) (0, 0)).bind
          fun nd => divide nd.1 nd.2

/-- No value outside of `values`, no division by zero. -/
def interpolateChecked := T.interpolateWith Checked.div

/-- No value outside of `values`. -/
def interpolateRead := T.interpolateWith fun a b => some (a / b)

variable (scheme : Nat) (containsZero : Bool)

/-- The point rescaled to the domain of the nodes. -/
def pointHat (intervalStart intervalEnd point : K) : K :=
  (point - intervalStart) / (intervalEnd - intervalStart) *
    (T.nodesOf scheme containsZero (nodeCountOf scheme containsZero - 1) -
      T.nodesOf scheme containsZero 0) + T.nodesOf scheme containsZero 0

/-- The node that the point matches. -/
def matching (hat : K) : Option Nat :=
  (List.range (nodeCountOf scheme containsZero)).find?
    fun j => |hat - T.nodesOf scheme containsZero j| < nodeTol

theorem interpolate_eq (values : Nat → K) (increment : Nat)
    (intervalStart intervalEnd point : K) :
    T.interpolate scheme containsZero values increment intervalStart intervalEnd point =
      if |T.nodesOf scheme containsZero (nodeCountOf scheme containsZero - 1) -
          T.nodesOf scheme containsZero 0| < nodeTol ∨ (containsZero = false ∧ scheme = 1) then
        values 0
      else
        let hat := T.pointHat scheme containsZero intervalStart intervalEnd point
        match T.matching scheme containsZero hat with
        | some j => values j
        | none =>
          let nd := Loop.forRange (nodeCountOf scheme containsZero) (fun j (nd : K × K) =>
            let temp := T.weightsOf scheme containsZero j / (hat - T.nodesOf scheme containsZero j)
            (nd.1 + temp * values (increment * j), nd.2 + temp)) (0, 0)
          nd.1 / nd.2 := rfl

omit [LinearOrder K] in
theorem pair_sum (n : Nat) (a v : Nat → K) :
    Loop.forRange n (fun j (nd : K × K) => (nd.1 + a j * v j, nd.2 + a j)) (0, 0) =
      (∑ j ∈ Finset.range n, a j * v j, ∑ j ∈ Finset.range n, a j) := by
  induction n with
  | zero => rfl
  | succ n ih => rw [Loop.forRange_succ, ih, Finset.sum_range_succ, Finset.sum_range_succ]

variable {scheme containsZero}

/-- An interpolation with a result is the interpolation. -/
theorem interpolateWith_interpolate {divide : K → K → Option K}
    (hdiv : ∀ x y z, divide x y = some z → z = x / y) {valuesAt : Nat → Option K}
    {values : Nat → K} {increment : Nat} {intervalStart intervalEnd point v : K}
    (hv : ∀ k y, valuesAt k = some y → values k = y)
    (h : T.interpolateWith divide scheme containsZero valuesAt increment intervalStart intervalEnd
      point = some v) :
    T.interpolate scheme containsZero values increment intervalStart intervalEnd point = v := by
  rw [interpolate_eq]
  unfold interpolateWith at h
  by_cases hc : |T.nodesOf scheme containsZero (nodeCountOf scheme containsZero - 1) -
      T.nodesOf scheme containsZero 0| < nodeTol ∨ (containsZero = false ∧ scheme = 1)
  · rw [if_pos hc]
    simp only [if_pos hc] at h
    exact hv 0 v h
  · rw [if_neg hc]
    simp only [if_neg hc] at h
    obtain ⟨ratio, hr, h⟩ := Option.bind_eq_some_iff.mp h
    obtain rfl := hdiv _ _ _ hr
    change (match T.matching scheme containsZero (T.pointHat scheme containsZero intervalStart
      intervalEnd point) with | some j => valuesAt j | none => _) = some v at h
    cases hm : T.matching scheme containsZero (T.pointHat scheme containsZero intervalStart
      intervalEnd point) with
    | some j =>
      simp only [hm] at h ⊢
      exact hv j v h
    | none =>
      simp only [hm] at h ⊢
      obtain ⟨nd, hnd, h⟩ := Option.bind_eq_some_iff.mp h
      obtain rfl := hdiv _ _ _ h
      rw [← Checked.of_forRange ?_ hnd]
      intro j _ s t ht
      obtain ⟨temp, ht, h⟩ := Option.bind_eq_some_iff.mp ht
      obtain rfl := hdiv _ _ _ ht
      obtain ⟨y, hy, rfl⟩ := Option.map_eq_some_iff.mp h
      rw [hv _ _ hy]
      rfl

/-- The values that are read: one for each node. -/
theorem interpolateRead_eq (hn : 0 < nodeCountOf scheme containsZero) {valuesAt : Nat → Option K}
    {values : Nat → K} {intervalStart intervalEnd point : K}
    (hv : ∀ k, k < nodeCountOf scheme containsZero → valuesAt k = some (values k)) :
    T.interpolateRead scheme containsZero valuesAt 1 intervalStart intervalEnd point =
      some (T.interpolate scheme containsZero values 1 intervalStart intervalEnd point) := by
  rw [interpolate_eq]
  unfold interpolateRead interpolateWith
  by_cases hc : |T.nodesOf scheme containsZero (nodeCountOf scheme containsZero - 1) -
      T.nodesOf scheme containsZero 0| < nodeTol ∨ (containsZero = false ∧ scheme = 1)
  · simp only [if_pos hc]
    exact hv 0 hn
  · simp only [if_neg hc, Option.bind_some]
    change (match T.matching scheme containsZero (T.pointHat scheme containsZero intervalStart
      intervalEnd point) with | some j => valuesAt j | none => _) = _
    cases hm : T.matching scheme containsZero (T.pointHat scheme containsZero intervalStart
      intervalEnd point) with
    | some j => exact hv j (List.mem_range.mp (List.mem_of_find?_eq_some hm))
    | none =>
      refine Eq.trans (congrArg (Option.bind · _) (Checked.forRange_eq fun j hj nd => ?_))
        (Option.bind_some ..)
      rw [Nat.one_mul, hv j hj]
      rfl

end Checked

/-! ## Exactness -/

section Exact

variable [Field K] [LinearOrder K] {scheme : Nat} {containsZero : Bool}

/-- Nodes the code tells apart. -/
def Separated (scheme : Nat) (containsZero : Bool) : Prop :=
  ∀ i j, i < j → j < nodeCountOf scheme containsZero →
    nodeTol ≤ |T.nodesOf scheme containsZero j - T.nodesOf scheme containsZero i|

/-- Such nodes, and their barycentric weights. -/
structure Tables (scheme : Nat) (containsZero : Bool) : Prop where
  separated : T.Separated scheme containsZero
  weights : Barycentric.Weights (nodeCountOf scheme containsZero) (T.nodesOf scheme containsZero)
    (T.weightsOf scheme containsZero)

/-- The physical time of a node: the first at the start of the interval, the last at its end. -/
def nodeTime (scheme : Nat) (containsZero : Bool) (intervalStart intervalEnd : K) (j : Nat) : K :=
  intervalStart + (T.nodesOf scheme containsZero j - T.nodesOf scheme containsZero 0) /
    (T.nodesOf scheme containsZero (nodeCountOf scheme containsZero - 1) -
      T.nodesOf scheme containsZero 0) * (intervalEnd - intervalStart)

/-- No node is matched that the point does not equal. -/
def Clear (scheme : Nat) (containsZero : Bool) (hat : K) : Prop :=
  ∀ j, j < nodeCountOf scheme containsZero → |hat - T.nodesOf scheme containsZero j| < nodeTol →
    hat = T.nodesOf scheme containsZero j

variable {T} [IsStrictOrderedRing K]

theorem nodeTol_pos : (0 : K) < nodeTol := by
  unfold nodeTol
  positivity

theorem Separated.ne (hT : T.Separated scheme containsZero) {i j : Nat} (hij : i < j)
    (hj : j < nodeCountOf scheme containsZero) :
    T.nodesOf scheme containsZero j - T.nodesOf scheme containsZero i ≠ 0 := by
  intro h
  have := hT i j hij hj
  rw [h, abs_zero] at this
  exact absurd this (not_le.mpr nodeTol_pos)

theorem Separated.injOn (hT : T.Separated scheme containsZero) :
    Set.InjOn (T.nodesOf scheme containsZero) (Finset.range (nodeCountOf scheme containsZero)) := by
  intro i hi j hj e
  simp only [Finset.coe_range, Set.mem_Iio] at hi hj
  rcases Nat.lt_trichotomy i j with h | h | h
  · exact absurd (sub_eq_zero.mpr e.symm) (hT.ne h hj)
  · exact h
  · exact absurd (sub_eq_zero.mpr e) (hT.ne h hi)

omit [IsStrictOrderedRing K] in
/-- A point that equals a node, or keeps its distance from all of them. -/
theorem Separated.clear (hT : T.Separated scheme containsZero) {hat : K}
    (h : (∃ j, j < nodeCountOf scheme containsZero ∧ hat = T.nodesOf scheme containsZero j) ∨
      ∀ j, j < nodeCountOf scheme containsZero →
        nodeTol ≤ |hat - T.nodesOf scheme containsZero j|) :
    T.Clear scheme containsZero hat := by
  intro j hj hlt
  rcases h with ⟨i, hi, rfl⟩ | h
  · rcases Nat.lt_trichotomy i j with hij | rfl | hij
    · rw [abs_sub_comm] at hlt
      exact absurd (hT i j hij hj) (not_le.mpr hlt)
    · rfl
    · exact absurd (hT j i hij hi) (not_le.mpr hlt)
  · exact absurd (h j hj) (not_le.mpr hlt)

theorem eval_eq_of_degree_lt_one {R : Type*} [Semiring R] {q : R[X]} (hq : q.degree < 1)
    (s t : R) : q.eval s = q.eval t := by
  have h : q = C (q.coeff 0) := eq_C_of_degree_le_zero (Nat.WithBot.lt_one_iff_le_zero.mp hq)
  rw [h, eval_C, eval_C]

variable (T scheme containsZero) in
/-- `q` in the coordinate of the nodes. -/
noncomputable def rescale (a b : K) (q : K[X]) : K[X] :=
  let slope := (b - a) / (T.nodesOf scheme containsZero (nodeCountOf scheme containsZero - 1) -
    T.nodesOf scheme containsZero 0)
  q.comp (C slope * X + C (a - slope * T.nodesOf scheme containsZero 0))

omit [LinearOrder K] [IsStrictOrderedRing K] in
theorem eval_rescale_node (a b : K) (q : K[X]) (j : Nat) :
    (T.rescale scheme containsZero a b q).eval (T.nodesOf scheme containsZero j) =
      q.eval (T.nodeTime scheme containsZero a b j) := by
  simp only [rescale, eval_comp, eval_add, eval_mul, eval_C, eval_X, nodeTime]
  congr 1
  ring

omit [LinearOrder K] [IsStrictOrderedRing K] in
theorem eval_rescale_pointHat {a b : K} (hab : a ≠ b)
    (hne : T.nodesOf scheme containsZero (nodeCountOf scheme containsZero - 1) -
      T.nodesOf scheme containsZero 0 ≠ 0) (q : K[X]) (point : K) :
    (T.rescale scheme containsZero a b q).eval (T.pointHat scheme containsZero a b point) =
      q.eval point := by
  have hba : b - a ≠ 0 := sub_ne_zero.mpr hab.symm
  simp only [rescale, eval_comp, eval_add, eval_mul, eval_C, eval_X, pointHat]
  congr 1
  field_simp
  ring

omit [LinearOrder K] [IsStrictOrderedRing K] in
theorem degree_rescale_lt {q : K[X]} {n : Nat} (hq : q.degree < n) (a b : K) :
    (T.rescale scheme containsZero a b q).degree < n := Barycentric.degree_comp_lt hq _ _

/-- The quotient of the two sums, away from the nodes. -/
theorem quotient_exact (hn : 0 < nodeCountOf scheme containsZero)
    (hT : T.Tables scheme containsZero) {r : K[X]}
    (hr : r.degree < nodeCountOf scheme containsZero) {valuesAt : Nat → Option K}
    (hv : ∀ j, j < nodeCountOf scheme containsZero →
      valuesAt j = some (r.eval (T.nodesOf scheme containsZero j)))
    {x : K} (hx : ∀ j, j < nodeCountOf scheme containsZero → x ≠ T.nodesOf scheme containsZero j) :
    ((Checked.forRange (nodeCountOf scheme containsZero) (fun j (nd : K × K) =>
      (Checked.div (T.weightsOf scheme containsZero j)
        (x - T.nodesOf scheme containsZero j)).bind fun temp =>
          (valuesAt (1 * j)).map fun v => (nd.1 + temp * v, nd.2 + temp)) (0, 0)).bind
      fun nd => Checked.div nd.1 nd.2) = some (r.eval x) := by
  have step : ∀ j, j < nodeCountOf scheme containsZero → ∀ nd : K × K,
      ((Checked.div (T.weightsOf scheme containsZero j)
          (x - T.nodesOf scheme containsZero j)).bind fun temp =>
            (valuesAt (1 * j)).map fun v => (nd.1 + temp * v, nd.2 + temp)) =
        some (nd.1 + T.weightsOf scheme containsZero j / (x - T.nodesOf scheme containsZero j) *
            r.eval (T.nodesOf scheme containsZero j),
          nd.2 + T.weightsOf scheme containsZero j / (x - T.nodesOf scheme containsZero j)) := by
    intro j hj nd
    rw [Checked.div_eq (sub_ne_zero.mpr (hx j hj)), Option.bind_some, Nat.one_mul, hv j hj]
    rfl
  rw [Checked.forRange_eq step, Option.bind_some, pair_sum,
    Checked.div_eq (Barycentric.denominator_ne_zero hn hT.separated.injOn hT.weights hx)]
  exact congrArg some (Barycentric.secondForm hn hT.separated.injOn hT.weights hx hr)

/-- A point that is a node takes the value of the node, whatever the weights. -/
theorem interpolate_node (hT : T.Separated scheme containsZero) {j : Nat}
    (hj : j < nodeCountOf scheme containsZero) {a b point : K}
    (hpoint : T.pointHat scheme containsZero a b point = T.nodesOf scheme containsZero j)
    (values : Nat → K) : T.interpolate scheme containsZero values 1 a b point = values j := by
  rw [interpolate_eq]
  split
  · rename_i hc
    rcases Nat.eq_zero_or_pos j with rfl | h0
    · rfl
    · rcases hc with hc | ⟨rfl, rfl⟩
      · have := hT 0 (nodeCountOf scheme containsZero - 1) (by omega) (by omega)
        exact absurd this (not_le.mpr hc)
      · have h1 : nodeCountOf 1 false = 1 := rfl
        omega
  · have hm : T.matching scheme containsZero (T.pointHat scheme containsZero a b point) =
        some j := by
      rw [hpoint, matching, List.find?_range_eq_some]
      refine ⟨by simpa using nodeTol_pos, List.mem_range.mpr hj, fun i hi => ?_⟩
      simpa using hT i j hi hj
    simp only [hm]

theorem interpolateChecked_exact (hs : 0 < scheme) (hT : T.Tables scheme containsZero) {a b : K}
    (hab : a ≠ b) {q : K[X]} (hq : q.degree < nodeCountOf scheme containsZero)
    {valuesAt : Nat → Option K}
    (hv : ∀ j, j < nodeCountOf scheme containsZero →
      valuesAt j = some (q.eval (T.nodeTime scheme containsZero a b j)))
    {point : K} (hpoint : T.Clear scheme containsZero (T.pointHat scheme containsZero a b point)) :
    T.interpolateChecked scheme containsZero valuesAt 1 a b point = some (q.eval point) := by
  have hn : 0 < nodeCountOf scheme containsZero := by
    unfold nodeCountOf
    omega
  unfold interpolateChecked interpolateWith
  by_cases h1 : nodeCountOf scheme containsZero = 1
  · -- One node: the constant polynomial.
    rw [h1] at hq
    simp only [h1, Nat.sub_self, sub_self, abs_zero, nodeTol_pos, true_or, if_true]
    rw [hv 0 hn, eval_eq_of_degree_lt_one hq]
  · have hne := hT.separated.ne (i := 0) (j := nodeCountOf scheme containsZero - 1) (by omega)
      (by omega)
    have hsep := hT.separated 0 (nodeCountOf scheme containsZero - 1) (by omega) (by omega)
    have hdeg : ¬ (|T.nodesOf scheme containsZero (nodeCountOf scheme containsZero - 1) -
        T.nodesOf scheme containsZero 0| < nodeTol ∨ containsZero = false ∧ scheme = 1) := by
      rintro (h | ⟨rfl, rfl⟩)
      · exact absurd hsep (not_le.mpr h)
      · exact h1 rfl
    simp only [if_neg hdeg]
    rw [Checked.div_eq (sub_ne_zero.mpr hab.symm), Option.bind_some]
    change (match T.matching scheme containsZero (T.pointHat scheme containsZero a b point) with
      | some j => valuesAt j | none => _) = _
    cases hm : T.matching scheme containsZero (T.pointHat scheme containsZero a b point) with
    | some j =>
      -- A node is matched: the point is that node.
      have hj := List.mem_range.mp (List.mem_of_find?_eq_some hm)
      have he := hpoint j hj (by simpa using List.find?_some hm)
      simp only
      rw [hv j hj, ← eval_rescale_node, ← he, eval_rescale_pointHat hab hne]
    | none =>
      have hx : ∀ j, j < nodeCountOf scheme containsZero →
          T.pointHat scheme containsZero a b point ≠ T.nodesOf scheme containsZero j := by
        intro j hj e
        have := List.find?_eq_none.mp hm j (List.mem_range.mpr hj)
        rw [e, sub_self, abs_zero] at this
        exact this (by simpa using nodeTol_pos)
      have hr := quotient_exact hn hT (degree_rescale_lt hq a b) (fun j hj =>
        (hv j hj).trans (congrArg some (eval_rescale_node a b q j).symm)) hx
      rw [eval_rescale_pointHat hab hne] at hr
      exact hr

theorem interpolate_clear (hs : 0 < scheme) (hT : T.Tables scheme containsZero) {a b : K}
    (hab : a ≠ b) {q : K[X]} (hq : q.degree < nodeCountOf scheme containsZero) {values : Nat → K}
    (hv : ∀ j, j < nodeCountOf scheme containsZero →
      values j = q.eval (T.nodeTime scheme containsZero a b j))
    {point : K} (hpoint : T.Clear scheme containsZero (T.pointHat scheme containsZero a b point)) :
    T.interpolate scheme containsZero values 1 a b point = q.eval point := by
  have hchecked : T.interpolateChecked scheme containsZero (fun k => some (values k)) 1 a b point =
      some (q.eval point) :=
    interpolateChecked_exact hs hT hab hq (fun j hj => congrArg some (hv j hj)) hpoint
  exact T.interpolateWith_interpolate (fun _ _ _ h => (Checked.of_div h).2)
    (fun _ _ hy => Option.some.inj hy) hchecked

/-- Polynomials of a degree below the number of nodes are reproduced, without a division by
zero. -/
theorem interpolate_exact (hs : 0 < scheme) (hT : T.Tables scheme containsZero)
    {intervalStart intervalEnd : K} (hab : intervalStart ≠ intervalEnd) {q : K[X]}
    (hq : q.degree < nodeCountOf scheme containsZero) {values : Nat → K}
    (hv : ∀ j, j < nodeCountOf scheme containsZero →
      values j = q.eval (T.nodeTime scheme containsZero intervalStart intervalEnd j)) {point : K}
    (hpoint : (∃ j, j < nodeCountOf scheme containsZero ∧
        T.pointHat scheme containsZero intervalStart intervalEnd point =
          T.nodesOf scheme containsZero j) ∨
      ∀ j, j < nodeCountOf scheme containsZero →
        nodeTol ≤ |T.pointHat scheme containsZero intervalStart intervalEnd point -
          T.nodesOf scheme containsZero j|) :
    T.interpolateChecked scheme containsZero
        (fun k => if k < nodeCountOf scheme containsZero then some (values k) else none) 1
        intervalStart intervalEnd point = some (q.eval point) ∧
      T.interpolate scheme containsZero values 1 intervalStart intervalEnd point =
        q.eval point := by
  have hclear := hT.separated.clear hpoint
  exact ⟨interpolateChecked_exact hs hT hab hq (fun j hj => by rw [if_pos hj, hv j hj]) hclear,
    interpolate_clear hs hT hab hq hv hclear⟩

end Exact

end FLGR

/-- The tables of the schemes with one and two nodes. -/
def radauTwo : FLGR ℚ where
  c k := [1, 1 / 3, 1].getD k 0
  c0 k := [0, 0, 1, 0, 1 / 3, 1].getD k 0
  b k := [1, 3 / 4, 1 / 4].getD k 0
  w k := [1, -3 / 2, 3 / 2].getD k 0
  w0 k := [0, -1, 1, 3, -9 / 2, 3 / 2].getD k 0
  D k := [0, -1, 1, -1, 1, -4, 9 / 2, -1 / 2, -2, 3 / 2, 1 / 2, 2, -9 / 2, 5 / 2].getD k 0

namespace FLGR

theorem radauTwo_tables {scheme : Nat} (hs : scheme = 1 ∨ scheme = 2) (containsZero : Bool) :
    radauTwo.Tables scheme containsZero := by
  have separated : ∀ s ∈ [1, 2], ∀ z, ∀ j < nodeCountOf s z, ∀ i < j,
      nodeTol ≤ |radauTwo.nodesOf s z j - radauTwo.nodesOf s z i| := by decide +kernel
  have weights : ∀ s ∈ [1, 2], ∀ z, ∀ j < nodeCountOf s z, radauTwo.weightsOf s z j =
      1 * Lagrange.nodalWeight (Finset.range (nodeCountOf s z)) (radauTwo.nodesOf s z) j := by
    unfold Lagrange.nodalWeight
    decide +kernel
  have hmem : scheme ∈ [1, 2] := by simpa using hs
  exact ⟨fun i j hij hj => separated scheme hmem containsZero j hj i hij,
    1, one_ne_zero, weights scheme hmem containsZero⟩

open Polynomial in
theorem interpolate_exact_square :
    radauTwo.interpolateChecked 2 true
        (fun k => if k < 3 then some ([1, 4, 16].getD k 0) else none) 1 1 4 3 = some 9 ∧
      radauTwo.interpolate 2 true (fun k => [1, 4, 16].getD k 0) 1 1 4 3 = 9 := by
  have hq : (X ^ 2 : ℚ[X]).degree < nodeCountOf 2 true := by
    rw [degree_X_pow]
    exact_mod_cast Nat.lt_succ_self 2
  have hv : ∀ j, j < nodeCountOf 2 true →
      ([1, 4, 16] : List ℚ).getD j 0 = (X ^ 2 : ℚ[X]).eval (radauTwo.nodeTime 2 true 1 4 j) := by
    have hall : ∀ j < nodeCountOf 2 true,
        ([1, 4, 16] : List ℚ).getD j 0 = radauTwo.nodeTime 2 true 1 4 j ^ 2 := by decide +kernel
    intro j hj
    rw [eval_pow, eval_X]
    exact hall j hj
  have hpoint : ∀ j, j < nodeCountOf 2 true →
      nodeTol ≤ |radauTwo.pointHat 2 true 1 4 3 - radauTwo.nodesOf 2 true j| := by decide +kernel
  have he : (X ^ 2 : ℚ[X]).eval 3 = 9 := by norm_num
  have h := interpolate_exact Nat.two_pos (radauTwo_tables (.inr rfl) true) (by decide +kernel) hq
    hv (.inr hpoint)
  rw [he] at h
  exact h

end FLGR
end Moo
