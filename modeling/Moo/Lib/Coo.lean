import Mathlib.Algebra.BigOperators.Ring.Finset
import Mathlib.Algebra.BigOperators.Group.Finset.Sigma
import Mathlib.Algebra.Field.Defs
import Moo.Lib.Loop

/-!
# Lib.Coo

Sparse matrices in coordinate format and arrays that are accumulated into.

* `coo n row col val` is the matrix of `n` triplets; triplets with equal coordinates add up.
* `coo_list` reads the triplets off a list; `sum_coo` multiplies by a row.
* `accum` is a sequence of `a[k] += v`; `accum_apply` is the content it leaves. `foldl_store`
  brings assignments among them to this form.
-/

namespace Coo

open Loop

variable {M : Type*} [AddCommMonoid M]

def coo (n : Nat) (row col : Nat → Nat) (val : Nat → M) (r c : Nat) : M :=
  ∑ k ∈ Finset.range n, if row k = r ∧ col k = c then val k else 0

/-- A sum over array positions that hold the elements of a list. -/
theorem sum_range_list {α : Type*} (l : List α) (F : Nat → M) (G : α → M)
    (h : ∀ (k : Nat) (hk : k < l.length), F k = G l[k]) :
    ∑ k ∈ Finset.range l.length, F k = (l.map G).sum := by
  induction l generalizing F with
  | nil => rfl
  | cons a l ih =>
    rw [List.length_cons, Finset.sum_range_succ', List.map_cons, List.sum_cons, add_comm,
      h 0 (by simp), ih (fun k => F (k + 1)) fun k hk => h (k + 1) (by simpa using hk)]
    rfl

theorem sum_map_filter {α : Type*} (l : List α) (p : α → Bool) (G : α → M) :
    ((l.filter p).map G).sum = (l.map fun a => if p a then G a else 0).sum := by
  induction l with
  | nil => rfl
  | cons a l ih =>
    cases hp : p a with
    | true => simp [hp, ih]
    | false => simp [hp, ih]

theorem coo_list {α : Type*} (l : List α) {row col : Nat → Nat} {val : Nat → M}
    (frow fcol : α → Nat) (fval : α → M)
    (h : ∀ (k : Nat) (hk : k < l.length),
      row k = frow l[k] ∧ col k = fcol l[k] ∧ val k = fval l[k]) (r c : Nat) :
    coo l.length row col val r c =
      (l.map fun a => if frow a = r ∧ fcol a = c then fval a else 0).sum := by
  refine sum_range_list l _ _ fun k hk => ?_
  obtain ⟨h1, h2, h3⟩ := h k hk
  rw [h1, h2, h3]

/-- Rows weighted by a vector: every triplet is met in its own row. -/
theorem sum_coo {R : Type*} [NonUnitalNonAssocSemiring R] {m n : Nat} {row : Nat → Nat}
    (h : ∀ k, k < n → row k < m) (col : Nat → Nat) (val w : Nat → R) (c : Nat) :
    ∑ r ∈ Finset.range m, w r * coo n row col val r c =
      ∑ k ∈ Finset.range n, if col k = c then w (row k) * val k else 0 := by
  simp only [coo, Finset.mul_sum]
  rw [Finset.sum_comm]
  refine Finset.sum_congr rfl fun k hk => ?_
  have hrow := Finset.mem_range.mpr (h k (Finset.mem_range.mp hk))
  rw [Finset.sum_eq_single_of_mem _ hrow]
  · simp only [true_and, mul_ite, mul_zero]
  · intro r _ hne
    rw [if_neg fun e => hne e.1.symm, mul_zero]

/-! ## Accumulated arrays -/

def addAt (a : Nat → M) (e : Nat × M) : Nat → M := Function.update a e.1 (a e.1 + e.2)

def accum (l : List (Nat × M)) (a : Nat → M) : Nat → M := l.foldl addAt a

theorem addAt_apply (a : Nat → M) (e : Nat × M) (k : Nat) :
    addAt a e k = a k + if e.1 = k then e.2 else 0 := by
  by_cases h : e.1 = k
  · subst h
    simp [addAt]
  · simp [addAt, Function.update_of_ne (Ne.symm h), h]

theorem accum_apply (l : List (Nat × M)) (a : Nat → M) (k : Nat) :
    accum l a k = a k + (l.map fun e => if e.1 = k then e.2 else 0).sum := by
  induction l generalizing a with
  | nil => simp [accum]
  | cons e l ih =>
    have h : accum (e :: l) a = accum l (addAt a e) := rfl
    rw [h, ih, addAt_apply, List.map_cons, List.sum_cons, add_assoc]

theorem accum_append (l l' : List (Nat × M)) (a : Nat → M) :
    accum (l ++ l') a = accum l' (accum l a) := List.foldl_append ..

/-- `a[k] = v` where the flag is set, `a[k] += v` otherwise. -/
def store (a : Nat → M) (e : Bool × Nat × M) : Nat → M :=
  if e.1 then Function.update a e.2.1 e.2.2 else addAt a e.2

/-- Assigning a cell that nothing has touched before is adding onto it. -/
theorem foldl_store {l : List (Bool × Nat × M)}
    (h : l.Pairwise fun e' e => e.1 = true → e'.2.1 ≠ e.2.1) :
    l.foldl store (fun _ => 0) = accum (l.map Prod.snd) fun _ => 0 := by
  induction l using List.reverseRecOn with
  | nil => rfl
  | append_singleton l e ih =>
    obtain ⟨hl, -, he⟩ := List.pairwise_append.mp h
    rw [List.foldl_append, List.map_append, accum_append, ih hl]
    unfold accum
    simp only [List.map_cons, List.map_nil, List.foldl_cons, List.foldl_nil]
    unfold store
    split
    · rename_i hset
      have hzero : accum (l.map Prod.snd) (fun _ => 0) e.2.1 = 0 := by
        rw [accum_apply, zero_add]
        refine List.sum_eq_zero fun v hv => ?_
        simp only [List.map_map, List.mem_map, Function.comp_apply] at hv
        obtain ⟨e', he', rfl⟩ := hv
        exact if_neg (he e' he' e (List.mem_singleton.mpr rfl) hset)
      unfold accum at hzero
      rw [addAt, hzero, zero_add]
    · rfl

/-- A run of cells `a, a + 1, …`, each added onto once. -/
theorem sum_range_key (n a y : Nat) (v : Nat → M) :
    (((List.range n).map fun f => (a + f, v f)).map fun e => if e.1 = a + y then e.2 else 0).sum =
      if y < n then v y else 0 := by
  simp only [List.map_map, Function.comp_def, Nat.add_left_cancel_iff]
  rw [sum_map_range, Finset.sum_ite_eq' (Finset.range n) y v]
  simp

end Coo
