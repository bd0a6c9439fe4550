import Mathlib.Algebra.Order.Field.Basic
import Mathlib.Tactic.NormNum.OfScientific
import Mathlib.Data.List.GetD
import Mathlib.Data.List.Perm.Subperm
import Mathlib.Tactic.Linarith

/-!
# Lib.Partition

Partitions of an interval, and their refinement by midpoints.

* `IsPartition a b l`: `l` is strictly increasing from `a` to `b`.
* `Halves l l'`: `l'` has every point of `l`, and what it adds are midpoints of neighbours of `l`.
* `Halves.isPartition`: such an `l'` is a partition of the same interval.
-/

namespace Partition

section Points

variable {K : Type*} [LinearOrder K]

structure IsPartition (a b : K) (l : List K) : Prop where
  sorted : l.Pairwise (· < ·)
  first : l.head? = some a
  last : l.getLast? = some b

variable {a b : K} {l : List K}

theorem IsPartition.first_mem (h : IsPartition a b l) : a ∈ l := List.mem_of_head? h.first

theorem IsPartition.last_mem (h : IsPartition a b l) : b ∈ l := List.mem_of_getLast? h.last

theorem IsPartition.first_le (h : IsPartition a b l) {y : K} (hy : y ∈ l) : a ≤ y := by
  obtain ⟨l, rfl⟩ := List.head?_eq_some_iff.mp h.first
  rcases List.mem_cons.mp hy with rfl | hy
  · exact le_rfl
  · exact ((List.pairwise_cons.mp h.sorted).1 y hy).le

theorem IsPartition.le_last (h : IsPartition a b l) {y : K} (hy : y ∈ l) : y ≤ b := by
  obtain ⟨l, rfl⟩ := List.getLast?_eq_some_iff.mp h.last
  rcases List.mem_append.mp hy with hy | hy
  · exact ((List.pairwise_append.mp h.sorted).2.2 y hy b (by simp)).le
  · rw [List.mem_singleton.mp hy]

/-- Sorted points between two of them. -/
theorem IsPartition.of_bounds (hl : l.Pairwise (· < ·)) (ha : a ∈ l) (hb : b ∈ l)
    (h : ∀ y ∈ l, a ≤ y ∧ y ≤ b) : IsPartition a b l := by
  refine ⟨hl, ?_, ?_⟩
  · cases l with
    | nil => cases ha
    | cons x l =>
      rcases List.mem_cons.mp ha with rfl | ha
      · rfl
      · have h1 := (List.pairwise_cons.mp hl).1 a ha
        have h2 := (h x List.mem_cons_self).1
        exact absurd h1 (not_lt.mpr h2)
  · rcases List.eq_nil_or_concat l with rfl | ⟨l, x, rfl⟩
    · cases hb
    · rw [List.concat_eq_append] at *
      rcases List.mem_append.mp hb with hb | hb
      · have h1 := (List.pairwise_append.mp hl).2.2 b hb x (by simp)
        have h2 := (h x (by simp)).2
        exact absurd h1 (not_lt.mpr h2)
      · rw [List.mem_singleton.mp hb]
        simp

/-- The points in the order of their positions. -/
theorem getD_lt_succ (hl : l.Pairwise (· < ·)) (d : K) {i : Nat} (hi : i + 1 < l.length) :
    l.getD i d < l.getD (i + 1) d := by
  rw [List.getD_eq_getElem _ _ (by omega), List.getD_eq_getElem _ _ hi]
  exact List.pairwise_iff_getElem.mp hl _ _ _ hi (by omega)

theorem sorted_of_succ {n : Nat} {f : Nat → K} (h : ∀ k, k + 1 < n → f k < f (k + 1)) :
    ((List.range n).map f).Pairwise (· < ·) := by
  have step : ∀ d k, k + (d + 1) < n → f k < f (k + (d + 1)) := by
    intro d
    induction d with
    | zero => exact h
    | succ d ih => exact fun k hk => (ih k (by omega)).trans (h (k + (d + 1)) hk)
  rw [List.pairwise_iff_getElem]
  intro i j hi hj hij
  rw [List.length_map, List.length_range] at hj
  obtain ⟨d, rfl⟩ := Nat.exists_eq_add_of_lt hij
  simp only [List.getElem_map, List.getElem_range]
  exact step d i hj

end Points

section Midpoints

variable {K : Type*} [Field K] [LinearOrder K]

def mid (l : List K) (i : Nat) : K := 0.5 * (l.getD i 0 + l.getD (i + 1) 0)

/-- A point of `l`, or the midpoint of two neighbours. -/
def Added (l : List K) (y : K) : Prop := y ∈ l ∨ ∃ i, i + 1 < l.length ∧ y = mid l i

structure Halves (l l' : List K) : Prop where
  sorted : l'.Pairwise (· < ·)
  keeps : l ⊆ l'
  adds : ∀ y ∈ l', Added l y

variable {l l' : List K}

theorem Halves.length_le (h : Halves l l') (hl : l.Pairwise (· < ·)) : l.length ≤ l'.length := by
  have hn : l.Nodup := hl.imp fun hab => hab.ne
  exact (List.subperm_of_subset hn h.keeps).length_le

variable [IsStrictOrderedRing K] {a b : K}

theorem mid_bounds {u v : K} (h : u < v) : u < 0.5 * (u + v) ∧ 0.5 * (u + v) < v := by
  have half : (0.5 : K) = 1 / 2 := by norm_num
  rw [half]
  constructor <;> linarith

theorem mid_mem {i : Nat} (hl : l.Pairwise (· < ·)) (hi : i + 1 < l.length) :
    l.getD i 0 < mid l i ∧ mid l i < l.getD (i + 1) 0 :=
  mid_bounds (getD_lt_succ hl 0 hi)

theorem Halves.isPartition (h : Halves l l') (hl : IsPartition a b l) : IsPartition a b l' := by
  refine .of_bounds h.sorted (h.keeps hl.first_mem) (h.keeps hl.last_mem) fun y hy => ?_
  rcases h.adds y hy with hy | ⟨i, hi, rfl⟩
  · exact ⟨hl.first_le hy, hl.le_last hy⟩
  · have mem {k : Nat} (hk : k < l.length) : l.getD k 0 ∈ l := by
      rw [List.getD_eq_getElem _ _ hk]
      exact List.getElem_mem hk
    obtain ⟨h1, h2⟩ := mid_mem hl.sorted hi
    exact ⟨(hl.first_le (mem (by omega))).trans h1.le, h2.le.trans (hl.le_last (mem hi))⟩

end Midpoints

end Partition
