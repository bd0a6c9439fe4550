import Moo.Lib.Loop

/-!
# Lib.IndexSort

Sorting an array of indices by what they point to, and inverting the permutation.

* `order less n`: the indices `0 … n - 1`, sorted by the comparison `less`.
* `invert p`: `for (i < n) a[p[i]] = i`.

`order_lt`: when `less` tells all indices apart, the order is strict, so it does not depend on the
sorting algorithm.
-/

namespace IndexSort

open Loop

def order (less : Nat → Nat → Bool) (n : Nat) : List Nat :=
  (List.range n).mergeSort fun a b => !less b a

def invert (p : List Nat) (a : Nat → Nat) : Nat → Nat :=
  forRange p.length (fun i a => Function.update a (p.getD i 0) i) a

section Order

variable (less : Nat → Nat → Bool) (n : Nat)

theorem order_perm : (order less n).Perm (List.range n) := List.mergeSort_perm ..

@[simp] theorem order_length : (order less n).length = n := by simp [order]

theorem order_nodup : (order less n).Nodup := (order_perm less n).nodup_iff.mpr List.nodup_range

@[simp] theorem mem_order {i : Nat} : i ∈ order less n ↔ i < n := by simp [order]

variable {n}

theorem order_get_lt {k : Nat} (hk : k < n) : (order less n).getD k 0 < n := by
  have hl : k < (order less n).length := by rwa [order_length]
  rw [List.getD_eq_getElem _ _ hl]
  exact (mem_order less n).mp (List.getElem_mem hl)

variable {less}

/-- A comparison by a key. -/
theorem order_lt {α : Type*} [LinearOrder α] {key : Nat → α}
    (hless : ∀ a b, less a b = true ↔ key a < key b)
    (hkey : ∀ a b, a < n → b < n → key a = key b → a = b) {k k' : Nat} (hkk : k < k')
    (hk' : k' < n) : key ((order less n).getD k 0) < key ((order less n).getD k' 0) := by
  have hle : ∀ a b, (!less b a) = true ↔ key a ≤ key b := by
    intro a b
    rw [Bool.not_eq_true', ← Bool.not_eq_true, hless, not_lt]
  have hs : (order less n).Pairwise fun a b => (!less b a) = true := by
    refine List.pairwise_mergeSort ?_ ?_ _
    · intro a b c hab hbc
      rw [hle] at *
      exact hab.trans hbc
    · intro a b
      rw [Bool.or_eq_true, hle, hle]
      exact le_total ..
  have hk : k < n := hkk.trans hk'
  have hl : k < (order less n).length := by rwa [order_length]
  have hl' : k' < (order less n).length := by rwa [order_length]
  have hne : (order less n).getD k 0 ≠ (order less n).getD k' 0 := by
    rw [List.getD_eq_getElem _ _ hl, List.getD_eq_getElem _ _ hl']
    intro e
    have := (order_nodup less n).getElem_inj_iff.mp e
    omega
  refine lt_of_le_of_ne ?_ fun e => hne (hkey _ _ (order_get_lt less hk) (order_get_lt less hk') e)
  rw [List.getD_eq_getElem _ _ hl, List.getD_eq_getElem _ _ hl']
  exact (hle _ _).mp (List.pairwise_iff_getElem.mp hs k k' hl hl' hkk)

end Order

theorem invert_apply {p : List Nat} (hp : p.Nodup) (a : Nat → Nat) {k : Nat} (hk : k < p.length) :
    invert p a (p.getD k 0) = k := by
  have key := forRange_inv (n := p.length)
    (P := fun m (a : Nat → Nat) => ∀ k, k < m → k < p.length → a (p.getD k 0) = k)
    (f := fun i a => Function.update a (p.getD i 0) i) (s := a) (fun k h _ => by omega) ?_
  · exact key k hk hk
  · intro i hi a ha k hk hkl
    by_cases h : k = i
    · rw [h, Function.update_self]
    · rw [Function.update_of_ne, ha k (by omega) hkl]
      rw [List.getD_eq_getElem _ _ hkl, List.getD_eq_getElem _ _ hi]
      intro e
      exact h (hp.getElem_inj_iff.mp e)

end IndexSort
