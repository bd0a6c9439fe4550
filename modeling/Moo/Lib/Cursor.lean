import Mathlib.Data.List.Pairwise
import Mathlib.Data.List.Count
import Moo.Lib.Loop

/-!
# Lib.Cursor

A cursor that follows a sorted array: `while (c < n && key(a[c]) == x) { …a[c]…; c++; }`, run for
`x = 0, 1, 2, …`.

The cursor stands at the number of elements with a key below `x` (`below`), and the loop for `x`
works on the elements with key `x`, in order (`whileLoop_cursor`).
-/

namespace Cursor

open Loop

universe u v

variable {α : Type u} {σ : Type v} (w : α → Nat)

/-- How many elements come before those with key `x`. -/
def below (l : List α) (x : Nat) : Nat := l.countP (w · < x)

/-- The elements with key `x`. -/
def row (l : List α) (x : Nat) : List α := l.filter (w · == x)

@[simp] theorem below_zero (l : List α) : below w l 0 = 0 := by simp [below]

theorem below_succ (l : List α) (x : Nat) :
    below w l (x + 1) = below w l x + (row w l x).length := by
  induction l with
  | nil => rfl
  | cons e l ih =>
    simp only [below, row, List.countP_cons, List.filter_cons, decide_eq_true_eq, beq_iff_eq]
      at ih ⊢
    rw [ih]
    split_ifs <;> (try rw [List.length_cons]) <;> omega

/-- The rows `0, …, n - 1` are all of the list when all keys are below `n`. -/
theorem below_eq_length {l : List α} {n : Nat} (h : ∀ a ∈ l, w a < n) :
    below w l n = l.length := by
  rw [below, List.countP_eq_length]
  intro a ha
  simpa using h a ha

theorem sum_row_length (l : List α) (n : Nat) :
    ∑ x ∈ Finset.range n, (row w l x).length = below w l n := by
  induction n with
  | zero => simp
  | succ n ih => rw [Finset.sum_range_succ, ih, below_succ]

/-- A sorted list from its rows. -/
theorem sorted_split {l : List α} (hl : l.Pairwise fun a b => w a ≤ w b) (x : Nat) :
    l = l.filter (w · < x) ++ (row w l x ++ l.filter (x < w ·)) := by
  induction l with
  | nil => rfl
  | cons e l ih =>
    obtain ⟨he, hl⟩ := List.pairwise_cons.mp hl
    have ih := ih hl
    have hnil : ∀ p : α → Bool, (∀ a, w e ≤ w a → p a = false) → l.filter p = [] := by
      intro p hp
      rw [List.filter_eq_nil_iff]
      intro a ha
      rw [hp a (he a ha)]
      decide
    rcases Nat.lt_trichotomy (w e) x with h | h | h
    · rw [row, List.filter_cons_of_pos (by simpa using h), List.filter_cons_of_neg (by simp; omega),
        List.filter_cons_of_neg (by simp; omega), List.cons_append, ← row, ← ih]
    · have hlow := hnil (w · < x) fun a ha => decide_eq_false (by omega)
      rw [hlow, List.nil_append, row] at ih
      rw [row, List.filter_cons_of_neg (by simp; omega), hlow, List.nil_append,
        List.filter_cons_of_pos (by simpa using h), List.filter_cons_of_neg (by simp; omega),
        List.cons_append, ← ih]
    · have hlow := hnil (w · < x) fun a ha => decide_eq_false (by omega)
      have hrow := hnil (w · == x) fun a ha => beq_false_of_ne (by omega)
      rw [hlow, row, hrow, List.nil_append, List.nil_append] at ih
      rw [row, List.filter_cons_of_neg (by simp; omega), hlow, List.nil_append,
        List.filter_cons_of_neg (by simp; omega), hrow, List.nil_append,
        List.filter_cons_of_pos (by simpa using h), ← ih]

/-- The passes over `mid`, standing behind `pre`. -/
theorem whileLoop_mid {x : Nat} {cond : σ × Nat → Bool} {f : Nat → σ → σ} {g : σ → α → σ}
    (post : List α) (hpost : ∀ a ∈ post, x < w a) :
    ∀ (mid pre : List α) (fuel : Nat) (s : σ),
      (∀ s c, cond (s, c) = (decide (c < (pre ++ (mid ++ post)).length) &&
        ((pre ++ (mid ++ post))[c]?.map w == some x))) →
      (∀ c (a : α), (pre ++ (mid ++ post))[c]? = some a → ∀ s, f c s = g s a) →
      (∀ a ∈ mid, w a = x) → mid.length ≤ fuel →
      whileLoop fuel cond (fun t => (f t.2 t.1, t.2 + 1)) (s, pre.length) =
        (mid.foldl g s, pre.length + mid.length) := by
  intro mid
  induction mid with
  | nil =>
    intro pre fuel s hcond _ _ _
    have hc : cond (s, pre.length) = false := by
      rw [hcond]
      cases post with
      | nil => simp
      | cons b post =>
        have := hpost b (by simp)
        have hne : ¬ w b = x := by omega
        simp [hne]
    cases fuel with
    | zero => rfl
    | succ fuel => simp [whileLoop, hc]
  | cons a mid ih =>
    intro pre fuel s hcond hf hmid hfuel
    obtain ⟨fuel, rfl⟩ : ∃ n, fuel = n + 1 := ⟨fuel - 1, by rw [List.length_cons] at hfuel; omega⟩
    have hc : cond (s, pre.length) = true := by
      rw [hcond]
      simp [hmid a (by simp)]
    have hfa : f pre.length s = g s a := hf pre.length a (by simp) s
    have e : pre ++ (a :: mid ++ post) = (pre ++ [a]) ++ (mid ++ post) := by simp
    have h := ih (pre ++ [a]) fuel (g s a) (by rwa [← e]) (by rwa [← e])
      (fun b hb => hmid b (by simp [hb])) (by simpa using hfuel)
    rw [List.length_append, List.length_singleton] at h
    rw [whileLoop, if_pos hc, hfa, h, List.foldl_cons, List.length_cons]
    congr 1
    omega

/-- The loop for `x`. The pass at cursor `c` is `f c`; on the array's elements it is `g`. -/
theorem whileLoop_cursor {l : List α} (hl : l.Pairwise fun a b => w a ≤ w b) {x : Nat}
    {cond : σ × Nat → Bool} {f : Nat → σ → σ} {g : σ → α → σ}
    (hcond : ∀ s c, cond (s, c) = (decide (c < l.length) && (l[c]?.map w == some x)))
    (hf : ∀ c (a : α), l[c]? = some a → ∀ s, f c s = g s a) (s : σ) :
    whileLoop l.length cond (fun t => (f t.2 t.1, t.2 + 1)) (s, below w l x) =
      ((row w l x).foldl g s, below w l (x + 1)) := by
  have hpre : below w l x = (l.filter (w · < x)).length := List.countP_eq_length_filter
  have hlen := congrArg List.length (sorted_split w hl x)
  rw [List.length_append, List.length_append] at hlen
  have h := whileLoop_mid (σ := σ) w (x := x) (f := f) (g := g)
    (l.filter (x < w ·)) (fun a ha => by simpa using (List.mem_filter.mp ha).2) (row w l x)
    (l.filter (w · < x)) l.length s (by rwa [← sorted_split w hl x])
    (by rwa [← sorted_split w hl x])
    (fun a ha => by simpa using (List.mem_filter.mp ha).2) (by omega)
  rw [hpre, h, below_succ, hpre]

end Cursor
