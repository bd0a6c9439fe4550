import Mathlib.Algebra.BigOperators.Group.Finset.Basic
import Mathlib.Algebra.BigOperators.Group.List.Basic
import Mathlib.Data.List.GetD
import Mathlib.Logic.Function.Basic

/-!
# Lib.Loop

Counted loops, guarded loops and their rules.

* `forRange n body s`: `for (i = 0; i < n; i++) s = body(i, s)`.
* `forFrom lo hi body s`: the same from `lo` up to (not including) `hi`.
* `whileLoop fuel cond body s`: `while (cond(s)) s = body(s)`, with `fuel` bounding the passes.

Two rules carry the loop proofs: `forRange_inv` (an invariant indexed by the pass) and
`forRange_foldl` (a loop whose pass `i` performs the operations `g i` performs the concatenated
list of operations).
-/

namespace Loop

universe u v

variable {σ : Type u} {β : Type v}

def forRange : Nat → (Nat → σ → σ) → σ → σ
  | 0, _, s => s
  | n + 1, body, s => body n (forRange n body s)

def forFrom (lo hi : Nat) (body : Nat → σ → σ) (s : σ) : σ :=
  forRange (hi - lo) (fun k => body (lo + k)) s

def whileLoop : Nat → (σ → Bool) → (σ → σ) → σ → σ
  | 0, _, _, s => s
  | fuel + 1, cond, body, s => if cond s then whileLoop fuel cond body (body s) else s

@[simp] theorem forRange_zero (f : Nat → σ → σ) (s : σ) : forRange 0 f s = s := rfl

theorem forRange_succ (n : Nat) (f : Nat → σ → σ) (s : σ) :
    forRange (n + 1) f s = f n (forRange n f s) := rfl

/-- Loop invariant rule. -/
theorem forRange_inv {P : Nat → σ → Prop} {n : Nat} {f : Nat → σ → σ} {s : σ} (h0 : P 0 s)
    (hs : ∀ i, i < n → ∀ t, P i t → P (i + 1) (f i t)) : P n (forRange n f s) := by
  induction n with
  | zero => exact h0
  | succ n ih =>
    rw [forRange_succ]
    exact hs n (by omega) _ (ih fun i hi => hs i (by omega))

theorem forRange_congr {n : Nat} {f g : Nat → σ → σ} {s : σ}
    (h : ∀ i, i < n → ∀ t, f i t = g i t) : forRange n f s = forRange n g s := by
  induction n with
  | zero => rfl
  | succ n ih =>
    rw [forRange_succ, forRange_succ, ih fun i hi => h i (by omega), h n (by omega)]

/-- A component that no pass touches is left unchanged. -/
theorem forRange_frame {γ : Type*} {n : Nat} {f : Nat → σ → σ} (π : σ → γ) (s : σ)
    (h : ∀ i, i < n → ∀ t, π (f i t) = π t) : π (forRange n f s) = π s :=
  forRange_inv (P := fun _ t => π t = π s) rfl fun i hi t ht => (h i hi t).trans ht

/-- Passes that are folds over lists of operations make the loop one fold. -/
theorem forRange_foldl {n : Nat} {f : Nat → σ → σ} {r : σ → β → σ} {g : Nat → List β}
    (h : ∀ i, i < n → ∀ t, f i t = (g i).foldl r t) (s : σ) :
    forRange n f s = ((List.range n).flatMap g).foldl r s := by
  induction n with
  | zero => rfl
  | succ n ih =>
    rw [forRange_succ, ih fun i hi => h i (by omega), h n (by omega), List.range_succ,
      List.flatMap_append, List.foldl_append]
    simp

/-- A loop that writes all entries in order appends them. -/
theorem foldl_set {α : Type*} {f : σ → β → α × σ} (xs : List β) (l r : List α) (s : σ)
    (hr : r.length = xs.length) :
    (xs.zipIdx l.length).foldl (fun t q => (t.1.set q.2 (f t.2 q.1).1, (f t.2 q.1).2)) (l ++ r, s) =
      xs.foldl (fun t x => (t.1 ++ [(f t.2 x).1], (f t.2 x).2)) (l, s) := by
  induction xs generalizing l r s with
  | nil =>
    obtain rfl := List.length_eq_zero_iff.mp hr
    simp
  | cons x xs ih =>
    obtain ⟨b, r, rfl⟩ := List.exists_cons_of_length_eq_add_one hr
    have hnext := ih (l ++ [(f s x).1]) r (f s x).2 (Nat.succ.inj hr)
    rw [List.length_append, List.length_singleton, List.append_assoc] at hnext
    rw [List.zipIdx_cons, List.foldl_cons, List.foldl_cons, List.set_append_right _ _ le_rfl,
      Nat.sub_self, List.set_cons_zero]
    exact hnext

theorem forRange_step (n : Nat) (step : σ → β → σ) (g : Nat → β) (s : σ) :
    forRange n (fun i s => step s (g i)) s = ((List.range n).map g).foldl step s := by
  induction n with
  | zero => rfl
  | succ n ih => rw [forRange_succ, ih, List.range_succ, List.map_append, List.foldl_append]; rfl

theorem forFrom_step (lo hi : Nat) (step : σ → β → σ) (g : Nat → β) (s : σ) :
    forFrom lo hi (fun i s => step s (g i)) s =
      ((List.range (hi - lo)).map fun k => g (lo + k)).foldl step s :=
  forRange_step (hi - lo) step (fun k => g (lo + k)) s

theorem whileLoop_congr {cond : σ → Bool} {f g : σ → σ} (h : ∀ s, cond s = true → f s = g s) :
    ∀ (fuel : Nat) (s : σ), whileLoop fuel cond f s = whileLoop fuel cond g s := by
  intro fuel
  induction fuel with
  | zero => intro s; rfl
  | succ fuel ih =>
    intro s
    unfold whileLoop
    split
    · rename_i hs
      rw [h s hs]
      exact ih _
    · rfl

/-! ## Filling arrays -/

/-- Row `a` of `b` rows of width `c` ends within the table. -/
theorem mul_succ_le {a b c : Nat} (h : a < b) : a * c + c ≤ b * c := by
  rw [← Nat.succ_mul]
  exact Nat.mul_le_mul_right c h

theorem forRange_fill {α : Type*} (n : Nat) (v : Nat → α) (a : Nat → α) (k : Nat) :
    forRange n (fun i a => Function.update a i (v i)) a k = if k < n then v k else a k := by
  induction n with
  | zero => rfl
  | succ n ih =>
    rw [forRange_succ]
    rcases Nat.lt_trichotomy k n with h | rfl | h
    · rw [Function.update_of_ne (by omega), ih, if_pos h, if_pos (by omega)]
    · rw [Function.update_self, if_pos (by omega)]
    · rw [Function.update_of_ne (by omega), ih, if_neg (by omega), if_neg (by omega)]

theorem forRange_fillFrom {α : Type*} (off n : Nat) (v : Nat → α) (a : Nat → α) (k : Nat) :
    forRange n (fun i a => Function.update a (off + i) (v i)) a k =
      if off ≤ k ∧ k < off + n then v (k - off) else a k := by
  induction n with
  | zero => rw [forRange_zero, if_neg (by omega)]
  | succ n ih =>
    rw [forRange_succ]
    by_cases h : k = off + n
    · subst h
      rw [Function.update_self, if_pos (by omega), Nat.add_sub_cancel_left]
    · rw [Function.update_of_ne h, ih]
      exact if_congr (by omega) rfl rfl

/-- A loop that applies `g` to `n` neighbouring cells. -/
theorem forRange_modifyFrom {α : Type*} (off n : Nat) (g : α → α) (a : Nat → α) (k : Nat) :
    forRange n (fun i a => Function.update a (off + i) (g (a (off + i)))) a k =
      if off ≤ k ∧ k < off + n then g (a k) else a k := by
  induction n with
  | zero => rw [forRange_zero, if_neg (by omega)]
  | succ n ih =>
    rw [forRange_succ]
    by_cases h : k = off + n
    · subst h
      rw [Function.update_self, if_pos (by omega), ih, if_neg (by omega)]
    · rw [Function.update_of_ne h, ih]
      exact if_congr (by omega) rfl rfl

/-- A loop nest that writes every cell of a table with rows of different lengths once. -/
theorem forRange_fill₂ {α : Type*} (n : Nat) (m : Nat → Nat) (v : Nat → Nat → α)
    (a : Nat → Nat → α) (i j : Nat) :
    forRange n (fun i a => forRange (m i) (fun j a =>
      Function.update a i (Function.update (a i) j (v i j))) a) a i j =
      if i < n ∧ j < m i then v i j else a i j := by
  have row : ∀ (i : Nat) (l : Nat) (a : Nat → Nat → α),
      forRange l (fun j a => Function.update a i (Function.update (a i) j (v i j))) a =
        Function.update a i (forRange l (fun j r => Function.update r j (v i j)) (a i)) := by
    intro i l a
    induction l with
    | zero => simp
    | succ l ih => simp [forRange_succ, ih]
  induction n with
  | zero => simp
  | succ n ih =>
    rw [forRange_succ, row]
    rcases Nat.lt_trichotomy i n with h | rfl | h
    · rw [Function.update_of_ne (by omega), ih]
      simp [h, Nat.lt_succ_of_lt h]
    · rw [Function.update_self, forRange_fill, ih]
      simp
    · rw [Function.update_of_ne (by omega), ih]
      simp [show ¬ i < n by omega, show ¬ i < n + 1 by omega]

/-! ## Sums over the operations of a loop -/

theorem sum_map_flatMap {α M : Type*} [AddCommMonoid M] (l : List α) (g : α → List β)
    (F : β → M) : ((l.flatMap g).map F).sum = (l.map fun a => ((g a).map F).sum).sum := by
  induction l with
  | nil => rfl
  | cons a l ih => simp [List.flatMap_cons, ih]

theorem sum_map_range {M : Type*} [AddCommMonoid M] (n : Nat) (F : Nat → M) :
    ((List.range n).map F).sum = ∑ i ∈ Finset.range n, F i := by
  induction n with
  | zero => rfl
  | succ n ih => simp [List.range_succ, Finset.sum_range_succ, ih]

/-- `for (i < n) s += v(i)`. -/
theorem forRange_add {M : Type*} [AddCommMonoid M] (n : Nat) (v : Nat → M) (s : M) :
    forRange n (fun i s => s + v i) s = s + ∑ i ∈ Finset.range n, v i := by
  induction n with
  | zero => rw [forRange_zero, Finset.sum_range_zero, add_zero]
  | succ n ih => rw [forRange_succ, ih, Finset.sum_range_succ, add_assoc]

theorem forRange_sum {M : Type*} [AddCommMonoid M] (n : Nat) (v : Nat → M) :
    forRange n (fun i s => s + v i) 0 = ∑ i ∈ Finset.range n, v i := by
  rw [forRange_add, zero_add]

/-- `a[0] = 0; for (i < n) a[i + 1] = a[i] + v(i)`: partial sums. -/
theorem forRange_partialSums {M : Type*} [AddCommMonoid M] (n : Nat) (v : Nat → M) {k : Nat}
    (hk : k ≤ n) :
    forRange n (fun i a => Function.update a (i + 1) (a i + v i)) (fun _ => 0) k =
      ∑ i ∈ Finset.range k, v i := by
  have inv := forRange_inv (n := n) (P := fun m (a : Nat → M) =>
      ∀ k, k ≤ m → a k = ∑ i ∈ Finset.range k, v i)
    (f := fun i a => Function.update a (i + 1) (a i + v i)) (s := fun _ => 0) ?_ ?_
  · exact inv k hk
  · intro k hk
    obtain rfl : k = 0 := by omega
    rfl
  · intro m _ a ha k hk
    by_cases h : k = m + 1
    · rw [h, Function.update_self, ha m le_rfl, Finset.sum_range_succ]
    · rw [Function.update_of_ne h, ha k (by omega)]

theorem sum_range_getD {M : Type*} [AddCommMonoid M] (l : List M) :
    ∑ i ∈ Finset.range l.length, l.getD i 0 = l.sum := by
  induction l with
  | nil => rfl
  | cons a l ih =>
    rw [List.length_cons, Finset.sum_range_succ', List.sum_cons, ← ih, add_comm]
    rfl

theorem getD_map_range {α : Type*} (n : Nat) (F : Nat → α) (d : α) {i : Nat} (hi : i < n) :
    ((List.range n).map F).getD i d = F i := by
  simp [List.getD_eq_getElem?_getD, List.getElem?_map, List.getElem?_range hi]

theorem map_getD_range {α : Type*} (l : List α) (d : α) :
    (List.range l.length).map (fun k => l.getD k d) = l := by
  refine List.ext_getElem (by simp) fun k h1 h2 => ?_
  simp [List.getElem?_eq_getElem h2]

theorem length_flatMap_range (n : Nat) (g : Nat → List β) :
    ((List.range n).flatMap g).length = ∑ i ∈ Finset.range n, (g i).length := by
  rw [List.length_flatMap, sum_map_range]

/-- Positions in the operations of a loop whose passes perform `m` operations each. -/
theorem getElem?_flatMap_range {n m : Nat} {g : Nat → List β}
    (hg : ∀ i, i < n → (g i).length = m) {k : Nat} {e : β}
    (h : ((List.range n).flatMap g)[k]? = some e) :
    ∃ i j, i < n ∧ k = m * i + j ∧ (g i)[j]? = some e := by
  have hlen : ∀ l, l ≤ n → ((List.range l).flatMap g).length = m * l := by
    intro l hl
    rw [length_flatMap_range, Finset.sum_congr rfl fun i hi =>
      hg i (Nat.lt_of_lt_of_le (Finset.mem_range.mp hi) hl), Finset.sum_const_nat fun _ _ => rfl,
      Finset.card_range, Nat.mul_comm]
  induction n with
  | zero => simp at h
  | succ n ih =>
    rw [List.range_succ, List.flatMap_append, List.flatMap_singleton, List.getElem?_append,
      hlen n (Nat.le_succ n)] at h
    split at h
    · obtain ⟨i, j, hi, hk, he⟩ := ih (fun i hi => hg i (by omega)) h fun l hl => hlen l (by omega)
      exact ⟨i, j, by omega, hk, he⟩
    · exact ⟨n, k - m * n, by omega, by omega, h⟩

end Loop
