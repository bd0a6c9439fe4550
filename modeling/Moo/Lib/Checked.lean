import Mathlib.Algebra.Field.Defs
import Moo.Lib.Loop

/-!
# Lib.Checked

Computations that read and write arrays and divide, with `none` for an access outside of an array or
a division by zero.

* `div`: division. `window`: an array behind a pointer, with the cells that may be read. `store`: a
  write.
* `forRange`, `whileLoop`: the loops. A `whileLoop` that runs out of fuel has no result.

`forRange_eq` compares a checked loop with the plain one; `whileLoop_total` is the rule for total
correctness (an invariant, and a measure below the fuel); `foldlM_store` is for loops that write one
entry after the other.
-/

namespace Checked

universe u v

variable {σ : Type u} {α : Type v}

def div {K : Type u} [Field K] [DecidableEq K] (a b : K) : Option K :=
  if b = 0 then none else some (a / b)

/-- The `n` cells from `off` on. -/
def window (l : List α) (off n k : Nat) : Option α := if k < n then l[off + k]? else none

def store (l : List α) (i : Nat) (a : α) : Option (List α) :=
  if i < l.length then some (l.set i a) else none

def forRange : Nat → (Nat → σ → Option σ) → σ → Option σ
  | 0, _, s => some s
  | n + 1, body, s => (forRange n body s).bind (body n)

def whileLoop : Nat → (σ → Option Bool) → (σ → Option σ) → σ → Option σ
  | 0, _, _, _ => none
  | fuel + 1, cond, body, s =>
    (cond s).bind fun b => if b then (body s).bind (whileLoop fuel cond body) else some s

section Div

variable {K : Type u} [Field K] [DecidableEq K]

theorem div_eq {a b : K} (h : b ≠ 0) : div a b = some (a / b) := if_neg h

theorem of_div {a b c : K} (h : div a b = some c) : b ≠ 0 ∧ c = a / b := by
  unfold div at h
  split at h
  · cases h
  · rename_i hb
    exact ⟨hb, (Option.some.inj h).symm⟩

end Div

theorem window_eq {l : List α} {off n k : Nat} (hk : k < n) (hn : off + n ≤ l.length) (d : α) :
    window l off n k = some (l.getD (off + k) d) := by
  rw [window, if_pos hk, List.getElem?_eq_getElem (by omega), List.getD_eq_getElem _ _ (by omega)]

theorem of_window {l : List α} {off n k : Nat} {a : α} (h : window l off n k = some a) (d : α) :
    k < n ∧ l.getD (off + k) d = a := by
  unfold window at h
  split at h
  · rename_i hk
    exact ⟨hk, by rw [List.getD_eq_getElem?_getD, h, Option.getD_some]⟩
  · cases h

theorem store_append (l : List α) (a b : α) (r : List α) :
    store (l ++ b :: r) l.length a = some (l ++ a :: r) := by
  rw [store, if_pos (by simp), List.set_append_right _ _ le_rfl, Nat.sub_self, List.set_cons_zero]

/-- A loop that writes all entries in order appends them. -/
theorem foldlM_store {β : Type*} {f : σ → β → Option (α × σ)} (xs : List β) (l r : List α) (s : σ)
    (hr : r.length = xs.length) :
    (xs.zipIdx l.length).foldlM (fun t q => (f t.2 q.1).bind fun e =>
      (store t.1 q.2 e.1).map fun l => (l, e.2)) (l ++ r, s) =
        xs.foldlM (fun t x => (f t.2 x).map fun e => (t.1 ++ [e.1], e.2)) (l, s) := by
  induction xs generalizing l r s with
  | nil =>
    obtain rfl := List.length_eq_zero_iff.mp hr
    simp
  | cons x xs ih =>
    obtain ⟨b, r, rfl⟩ := List.exists_cons_of_length_eq_add_one hr
    rw [List.zipIdx_cons, List.foldlM_cons, List.foldlM_cons]
    cases f s x with
    | none => rfl
    | some e =>
      have hnext := ih (l ++ [e.1]) r e.2 (Nat.succ.inj hr)
      rw [List.length_append, List.length_singleton, List.append_assoc] at hnext
      rw [Option.bind_some, store_append, Option.map_some, Option.map_some]
      exact hnext

/-- A loop over an array whose passes all have a result. -/
theorem mapM_eq {β : Type v} {f : α → Option β} {g : α → β} {l : List α}
    (h : ∀ a ∈ l, f a = some (g a)) : l.mapM f = some (l.map g) := by
  induction l with
  | nil => rfl
  | cons a l ih =>
    rw [List.mapM_cons, h a List.mem_cons_self, ih fun b hb => h b (List.mem_cons_of_mem _ hb)]
    rfl

theorem mapM_length {β : Type v} {f : α → Option β} {l : List α} {r : List β}
    (h : l.mapM f = some r) : r.length = l.length := by
  induction l generalizing r with
  | nil =>
    obtain rfl := Option.some.inj h
    rfl
  | cons a l ih =>
    rw [List.mapM_cons] at h
    obtain ⟨b, _, h⟩ := Option.bind_eq_some_iff.mp h
    obtain ⟨rest, hrest, h⟩ := Option.bind_eq_some_iff.mp h
    obtain rfl := Option.some.inj h
    rw [List.length_cons, List.length_cons, ih hrest]

theorem forRange_eq {n : Nat} {body : Nat → σ → Option σ} {f : Nat → σ → σ} {s : σ}
    (h : ∀ i, i < n → ∀ t, body i t = some (f i t)) :
    forRange n body s = some (Loop.forRange n f s) := by
  induction n with
  | zero => rfl
  | succ n ih =>
    rw [forRange, ih fun i hi => h i (by omega), Option.bind_some, h n (by omega)]
    rfl

/-- Passes that are folds over lists of operations make the loop one fold. -/
theorem forRange_foldlM {β : Type*} {n : Nat} {body : Nat → σ → Option σ} {r : σ → β → Option σ}
    {g : Nat → List β} (h : ∀ i, i < n → ∀ t, body i t = (g i).foldlM r t) (s : σ) :
    forRange n body s = ((List.range n).flatMap g).foldlM r s := by
  induction n with
  | zero => rfl
  | succ n ih =>
    rw [forRange, ih fun i hi => h i (by omega), List.range_succ, List.flatMap_append,
      List.foldlM_append]
    refine congrArg (Option.bind _) (funext fun t => ?_)
    rw [h n (by omega), List.flatMap_singleton]

/-- A checked loop with a result computes what the plain loop does. -/
theorem of_forRange {n : Nat} {body : Nat → σ → Option σ} {f : Nat → σ → σ} {s t : σ}
    (h : ∀ i, i < n → ∀ s t, body i s = some t → t = f i s) (ht : forRange n body s = some t) :
    t = Loop.forRange n f s := by
  induction n generalizing t with
  | zero => exact (Option.some.inj ht).symm
  | succ n ih =>
    obtain ⟨r, hr, ht⟩ := Option.bind_eq_some_iff.mp ht
    rw [Loop.forRange_succ, ← ih (fun i hi => h i (by omega)) hr]
    exact h n (by omega) r t ht

theorem whileLoop_total {cond : σ → Option Bool} {body : σ → Option σ} {inv : σ → Prop}
    {size : σ → Nat}
    (h : ∀ s, inv s → cond s = some false ∨
      cond s = some true ∧ ∃ t, body s = some t ∧ inv t ∧ size t < size s) :
    ∀ (fuel : Nat) (s : σ), inv s → size s < fuel →
      ∃ t, whileLoop fuel cond body s = some t ∧ inv t ∧ cond t = some false := by
  intro fuel
  induction fuel with
  | zero =>
    intro s _ hf
    omega
  | succ fuel ih =>
    intro s hs hf
    rcases h s hs with hc | ⟨hc, t, ht, hi, hlt⟩
    · exact ⟨s, by simp [whileLoop, hc], hs, hc⟩
    · obtain ⟨r, hr, hir, hcr⟩ := ih t hi (by omega)
      exact ⟨r, by simp [whileLoop, hc, ht, hr], hir, hcr⟩

/-- A checked loop that ends within its fuel makes one pass less than the fuel allows. -/
theorem of_whileLoop {cond : σ → Option Bool} {body : σ → Option σ} {cond' : σ → Bool}
    {body' : σ → σ} (hc : ∀ s b, cond s = some b → cond' s = b)
    (hb : ∀ s t, body s = some t → body' s = t) :
    ∀ (fuel : Nat) (s t : σ), whileLoop (fuel + 1) cond body s = some t →
      Loop.whileLoop fuel cond' body' s = t := by
  intro fuel
  induction fuel with
  | zero =>
    intro s t h
    obtain ⟨b, hs, h⟩ := Option.bind_eq_some_iff.mp h
    cases b with
    | false => exact Option.some.inj h
    | true =>
      obtain ⟨r, _, h⟩ := Option.bind_eq_some_iff.mp h
      cases h
  | succ fuel ih =>
    intro s t h
    obtain ⟨b, hs, h⟩ := Option.bind_eq_some_iff.mp h
    rw [Loop.whileLoop, hc s b hs]
    cases b with
    | false => exact Option.some.inj h
    | true =>
      obtain ⟨r, hr, h⟩ := Option.bind_eq_some_iff.mp h
      rw [if_pos rfl, hb s r hr]
      exact ih r t h

/-- Two loops whose passes go in step end in related states. -/
theorem whileLoop_rel {τ : Type*} {cond : σ → Option Bool} {body : σ → Option σ}
    {cond' : τ → Option Bool} {body' : τ → Option τ} {R : σ → τ → Prop}
    (hc : ∀ s t, R s t → cond s = cond' t)
    (hb : ∀ s t, R s t → ∀ s', body s = some s' → ∃ t', body' t = some t' ∧ R s' t') :
    ∀ (fuel : Nat) (s : σ) (t : τ), R s t → ∀ s', whileLoop fuel cond body s = some s' →
      ∃ t', whileLoop fuel cond' body' t = some t' ∧ R s' t' := by
  intro fuel
  induction fuel with
  | zero =>
    intro s t _ s' h
    cases h
  | succ fuel ih =>
    intro s t hr s' h
    obtain ⟨b, hs, h⟩ := Option.bind_eq_some_iff.mp h
    have ht : cond' t = some b := (hc s t hr).symm.trans hs
    cases b with
    | false =>
      obtain rfl := Option.some.inj h
      exact ⟨t, by simp [whileLoop, ht], hr⟩
    | true =>
      obtain ⟨s1, hs1, h⟩ := Option.bind_eq_some_iff.mp h
      obtain ⟨t1, ht1, hr1⟩ := hb s t hr s1 hs1
      obtain ⟨t', ht', hr'⟩ := ih s1 t1 hr1 s' h
      exact ⟨t', by simp [whileLoop, ht, ht1, ht'], hr'⟩

end Checked
