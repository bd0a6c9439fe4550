import Moo.Base.Interpolate

/-!
# Base.StridedInterpolation

Interpolation of interleaved values, `increment` apart.

* `gathered`: the values that belong to the nodes, side by side.
* `interpolate_strided_iff`: interpolating with an increment is interpolating what is gathered,
  unless the point matches a node and the entry with the number of that node is another value.
* `interpolate_strided_all`: for every array, that is a match with the first node or none.
* `strided_of_before`: the callers ask for a point before the first node.
-/

namespace Moo
namespace FLGR

variable {K : Type} [Field K] [LinearOrder K] (T : FLGR K) (scheme : Nat) (containsZero : Bool)

/-- The values of the nodes: `values[0]`, `values[increment]`, `values[2 * increment]`, … -/
def gathered (values : Nat → K) (increment : Nat) : Nat → K := fun j => values (increment * j)

/-- The nodes span no interval: the interpolant is the first value. -/
def Constant : Prop :=
  |T.nodesOf scheme containsZero (nodeCountOf scheme containsZero - 1) -
    T.nodesOf scheme containsZero 0| < nodeTol ∨ (containsZero = false ∧ scheme = 1)

variable (values : Nat → K) (increment : Nat) (intervalStart intervalEnd point : K)

/-- `interpolate` reads values `increment` apart. -/
def Strided : Prop :=
  T.interpolate scheme containsZero values increment intervalStart intervalEnd point =
    T.interpolate scheme containsZero (gathered values increment) 1 intervalStart intervalEnd point

variable {T scheme containsZero}

/-- A matched node takes the value with its own number, whatever the increment. -/
theorem interpolate_match (hc : ¬ T.Constant scheme containsZero) {j : Nat}
    (hm : T.matching scheme containsZero
      (T.pointHat scheme containsZero intervalStart intervalEnd point) = some j) :
    T.interpolate scheme containsZero values increment intervalStart intervalEnd point =
      values j := by
  unfold Constant at hc
  rw [interpolate_eq, if_neg hc]
  simp only [hm]

/-- Without a match the sums read the values of the nodes. -/
theorem strided_of_noMatch (hm : T.matching scheme containsZero
    (T.pointHat scheme containsZero intervalStart intervalEnd point) = none) :
    T.Strided scheme containsZero values increment intervalStart intervalEnd point := by
  rw [Strided, interpolate_eq, interpolate_eq]
  simp only [hm, gathered, Nat.one_mul, Nat.mul_zero]

theorem strided_of_constant (hc : T.Constant scheme containsZero) :
    T.Strided scheme containsZero values increment intervalStart intervalEnd point := by
  unfold Constant at hc
  rw [Strided, interpolate_eq, interpolate_eq, if_pos hc, if_pos hc, gathered, Nat.mul_zero]

/-- The values are those of the nodes, unless a node is matched whose number is the place of
another value. -/
theorem interpolate_strided_iff :
    T.Strided scheme containsZero values increment intervalStart intervalEnd point ↔
      T.Constant scheme containsZero ∨ ∀ j, T.matching scheme containsZero
        (T.pointHat scheme containsZero intervalStart intervalEnd point) = some j →
          values j = values (increment * j) := by
  by_cases hc : T.Constant scheme containsZero
  · exact iff_of_true (strided_of_constant values increment _ _ _ hc) (.inl hc)
  rw [or_iff_right hc]
  cases hm : T.matching scheme containsZero
      (T.pointHat scheme containsZero intervalStart intervalEnd point) with
  | none => exact iff_of_true (strided_of_noMatch values increment _ _ _ hm) (fun j h => nomatch h)
  | some j =>
    rw [Strided, interpolate_match values increment _ _ _ hc hm,
      interpolate_match _ 1 _ _ _ hc hm]
    constructor
    · rintro h k ⟨⟩
      exact h
    · exact fun h => h j rfl

/-- For every array of values: only the first node may be matched, or the values are side by
side. -/
theorem interpolate_strided_all :
    (∀ values : Nat → K,
      T.Strided scheme containsZero values increment intervalStart intervalEnd point) ↔
      T.Constant scheme containsZero ∨ increment = 1 ∨ ∀ j, T.matching scheme containsZero
        (T.pointHat scheme containsZero intervalStart intervalEnd point) = some j → j = 0 := by
  by_cases hc : T.Constant scheme containsZero
  · exact iff_of_true (fun values => strided_of_constant values increment _ _ _ hc) (.inl hc)
  simp only [interpolate_strided_iff, or_iff_right hc]
  constructor
  · intro h
    by_contra hne
    push Not at hne
    obtain ⟨hinc, j, hm, hj⟩ := hne
    -- an array that tells the two places apart
    have hvalues := h (fun k => if k = j then 1 else 0) j hm
    have hplace : increment * j ≠ j := by simp [hinc, hj]
    simp [hplace] at hvalues
  · rintro (rfl | h) values j hm
    · rw [Nat.one_mul]
    · rw [h j hm, Nat.mul_zero]

/-- A point before the first node, as the one at the start of the horizon, is read right. -/
theorem strided_of_before [IsStrictOrderedRing K]
    (h : ∀ j, j < nodeCountOf scheme containsZero →
      T.pointHat scheme containsZero intervalStart intervalEnd point + nodeTol ≤
        T.nodesOf scheme containsZero j) :
    T.Strided scheme containsZero values increment intervalStart intervalEnd point := by
  refine strided_of_noMatch values increment _ _ _ (List.find?_eq_none.mpr fun j hj => ?_)
  have hj := h j (List.mem_range.mp hj)
  rw [decide_eq_true_eq, not_lt, abs_sub_comm]
  exact (le_sub_iff_add_le'.mpr hj).trans (le_abs_self _)

/-- Two series, the second one behind the first in every pair, at the nodes `0`, `1/3`, `1`. -/
def twoSeries : Nat → ℚ := fun k => [0, 10, 1, 20, 2, 30].getD k 0

/-- At the end of the interval the first series is `2`; the entry with the number of the node is
`1`, the first series at `1/3`. -/
theorem strided_match_last : ¬ radauTwo.Strided 2 true twoSeries 2 0 1 1 := by
  unfold Strided
  decide +kernel

end FLGR
end Moo
