import Mathlib.Data.List.Perm.Basic
import Mathlib.Data.List.Nodup
import Moo.Lib.Loop

/-!
# Lib.Buckets

Telling the elements of a list apart: every element is appended to one of several lists.

* `foldl_push`: each list has the elements of its key, in input order.
* `Distributes`: the lists put together are the input, element by element.
* `forRange_push`: a loop whose passes push, on a record that holds the lists.
-/

namespace Buckets

open Loop

variable {α β ι : Type*} [DecidableEq ι] {key : α → ι} {val : α → β}

/-- `lists[key(a)].push_back(val(a))`. -/
def push (key : α → ι) (val : α → β) (lists : ι → List β) (a : α) : ι → List β :=
  Function.update lists (key a) (lists (key a) ++ [val a])

theorem push_apply (lists : ι → List β) (a : α) (q : ι) :
    push key val lists a q = if key a = q then lists q ++ [val a] else lists q := by
  unfold push
  split
  · rename_i h
    rw [← h, Function.update_self]
  · rename_i h
    exact Function.update_of_ne (Ne.symm h) _ _

/-- A key of two parts, told apart one after the other. -/
theorem push_apply_pair {κ : Type*} [DecidableEq κ] {key : α → ι × κ} {lists : ι × κ → List β}
    {a : α} {k : ι} {p : κ} (hk : key a = (k, p)) (q : ι × κ) :
    push key val lists a q =
      if k = q.1 then if p = q.2 then lists q ++ [val a] else lists q else lists q := by
  rw [push_apply, hk]
  by_cases h1 : k = q.1
  · rw [if_pos h1]
    by_cases h2 : p = q.2
    · rw [if_pos h2, if_pos (Prod.ext h1 h2)]
    · rw [if_neg h2, if_neg fun h => h2 (congrArg Prod.snd h)]
  · rw [if_neg h1, if_neg fun h => h1 (congrArg Prod.fst h)]

theorem foldl_push (l : List α) (lists : ι → List β) (q : ι) :
    l.foldl (push key val) lists q = lists q ++ (l.filter fun a => key a = q).map val := by
  induction l generalizing lists with
  | nil => simp
  | cons a l ih =>
    rw [List.foldl_cons, ih, push_apply]
    by_cases h : key a = q
    · simp [h]
    · simp [h]

/-- Each element of `l` is under one of the places, as an element that `back` leads from. -/
structure Distributes (places : List ι) (lists : ι → List β) (back : ι → β → α)
    (l : List α) : Prop where
  perm : (places.flatMap fun q => (lists q).map (back q)).Perm l
  order : ∀ q, ((lists q).map (back q)).Sublist l

theorem perm_filter {places : List ι} (hp : places.Nodup) (l : List α)
    (hl : ∀ a ∈ l, key a ∈ places) :
    (places.flatMap fun q => l.filter fun a => key a = q).Perm l := by
  induction places generalizing l with
  | nil =>
    obtain rfl : l = [] := List.eq_nil_iff_forall_not_mem.mpr fun a ha => by simpa using hl a ha
    rfl
  | cons q places ih =>
    obtain ⟨hq, hp⟩ := List.nodup_cons.mp hp
    have h := ih hp (l.filter fun a => ¬ key a = q) fun a ha => by
      obtain ⟨ha, hne⟩ := List.mem_filter.mp ha
      exact (List.mem_cons.mp (hl a ha)).resolve_left (of_decide_eq_true hne)
    have e : (places.flatMap fun q' => (l.filter fun a => ¬ key a = q).filter fun a => key a = q') =
        places.flatMap fun q' => l.filter fun a => key a = q' := by
      refine List.flatMap_congr fun q' hq' => ?_
      rw [List.filter_filter]
      refine List.filter_congr fun a _ => ?_
      have : q' ≠ q := fun h => hq (h ▸ hq')
      by_cases h : key a = q'
      · simp [h, this]
      · simp [h]
    rw [e] at h
    rw [List.flatMap_cons]
    refine (h.append_left _).trans ?_
    simpa using List.filter_append_perm (fun a => decide (key a = q)) l

variable {places : List ι} {lists : ι → List β} {back : ι → β → α} {l : List α}

theorem map_back (hb : ∀ a ∈ l, back (key a) (val a) = a) (q : ι) :
    ((l.filter fun a => key a = q).map val).map (back q) = l.filter fun a => key a = q := by
  rw [List.map_map]
  refine (List.map_congr_left fun a ha => ?_).trans (List.map_id _)
  obtain ⟨ha, hk⟩ := List.mem_filter.mp ha
  rw [← of_decide_eq_true hk]
  exact hb a ha

theorem distributes (hp : places.Nodup) (hl : ∀ a ∈ l, key a ∈ places)
    (hb : ∀ a ∈ l, back (key a) (val a) = a)
    (h : lists = l.foldl (push key val) fun _ => []) : Distributes places lists back l := by
  have hq : ∀ q, (lists q).map (back q) = l.filter fun a => key a = q := by
    intro q
    rw [h, foldl_push, List.nil_append, map_back hb]
  refine ⟨?_, fun q => ?_⟩
  · rw [List.flatMap_congr fun q _ => hq q]
    exact perm_filter hp l hl
  · rw [hq]
    exact List.filter_sublist

omit [DecidableEq ι] in
theorem Distributes.mem_iff (h : Distributes places lists back l) {a : α} :
    a ∈ l ↔ ∃ q ∈ places, ∃ e ∈ lists q, back q e = a := by
  rw [← h.perm.mem_iff]
  simp

omit [DecidableEq ι] in
theorem Distributes.back_mem (h : Distributes places lists back l) {q : ι} {e : β}
    (he : e ∈ lists q) : back q e ∈ l :=
  (h.order q).subset (List.mem_map.mpr ⟨e, he, rfl⟩)

/-- What holds of every element pushed holds of the elements of a list. -/
theorem forall_mem {Q : ι → β → Prop} (h : lists = l.foldl (push key val) fun _ => [])
    (hQ : ∀ a ∈ l, Q (key a) (val a)) (q : ι) : ∀ e ∈ lists q, Q q e := by
  intro e he
  rw [h, foldl_push, List.nil_append] at he
  obtain ⟨a, ha, rfl⟩ := List.mem_map.mp he
  obtain ⟨ha, hk⟩ := List.mem_filter.mp ha
  rw [← of_decide_eq_true hk]
  exact hQ a ha

theorem forRange_push {σ : Type*} {I : σ → Prop} (view : σ → ι → List β) (item : Nat → α)
    {n : Nat} {step : Nat → σ → σ} {s : σ} (h0 : I s)
    (hs : ∀ nz, nz < n → ∀ t, I t →
      I (step nz t) ∧ view (step nz t) = push key val (view t) (item nz)) :
    I (forRange n step s) ∧
      view (forRange n step s) = ((List.range n).map item).foldl (push key val) (view s) := by
  refine forRange_inv (P := fun m t => I t ∧
    view t = ((List.range m).map item).foldl (push key val) (view s)) ⟨h0, rfl⟩ ?_
  rintro m hm t ⟨hI, hv⟩
  obtain ⟨h1, h2⟩ := hs m hm t hI
  refine ⟨h1, ?_⟩
  rw [h2, hv, List.range_succ, List.map_append, List.foldl_append]
  rfl

end Buckets
