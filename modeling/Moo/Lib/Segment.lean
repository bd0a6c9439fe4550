import Mathlib.Algebra.BigOperators.Group.Finset.Basic
import Mathlib.Data.List.Nodup
import Moo.Lib.Loop

/-!
# Lib.Segment

Loops that tile a range of indices.

The passes of such a loop nest work on consecutive segments `[b i, b (i + 1))` of an index range
(`w` gives the index an operation works on).

* `sum_segment`: of the operations of the whole loop those of one pass matter to an index.
* `Seg w lo hi l`: the elements of `l` are distinct and work on `[lo, hi)`. It is composed along
  the loop nest by `Seg.append` and `Seg.flatMap_range`.
-/

namespace Segment

open Loop

variable {β : Type*} {n : Nat} {b : Nat → Nat} {w : β → Nat}

theorem segment_lt (hb : ∀ i, i < n → b i ≤ b (i + 1)) {i i' : Nat} (h : i ≤ i') (hi' : i' ≤ n) :
    b i ≤ b i' := by
  induction i', h using Nat.le_induction with
  | base => exact le_rfl
  | succ m hm ih => exact (ih (by omega)).trans (hb m (by omega))

/-- Pass `i` of a loop over segments is the only one that works on the indices of segment `i`. -/
theorem segment_unique (hb : ∀ i, i < n → b i ≤ b (i + 1)) {i i' k : Nat} (hi : i < n)
    (hi' : i' < n) (h : b i ≤ k ∧ k < b (i + 1)) (h' : b i' ≤ k ∧ k < b (i' + 1)) : i = i' := by
  rcases Nat.lt_trichotomy i i' with hlt | rfl | hlt
  · have := segment_lt hb (show i + 1 ≤ i' from hlt) (by omega)
    omega
  · rfl
  · have := segment_lt hb (show i' + 1 ≤ i from hlt) (by omega)
    omega

theorem sum_eq_zero_of_key {M : Type*} [AddCommMonoid M] (l : List β) (F : β → M) {k : Nat}
    (h : ∀ e ∈ l, w e ≠ k) : (l.map fun e => if w e = k then F e else 0).sum = 0 := by
  refine List.sum_eq_zero fun v hv => ?_
  obtain ⟨e, he, rfl⟩ := List.mem_map.mp hv
  exact if_neg (h e he)

theorem sum_of_key {M : Type*} [AddCommMonoid M] (l : List β) (F : β → M) {k : Nat}
    (h : ∀ e ∈ l, w e = k) : (l.map fun e => if w e = k then F e else 0).sum = (l.map F).sum :=
  congrArg List.sum (List.map_congr_left fun e he => if_pos (h e he))

theorem sum_segment {M : Type*} [AddCommMonoid M] {g : Nat → List β} (F : β → M)
    (hb : ∀ i, i < n → b i ≤ b (i + 1))
    (hg : ∀ i, i < n → ∀ e ∈ g i, b i ≤ w e ∧ w e < b (i + 1)) {i k : Nat} (hi : i < n)
    (hk : b i ≤ k ∧ k < b (i + 1)) :
    (((List.range n).flatMap g).map fun e => if w e = k then F e else 0).sum =
      ((g i).map fun e => if w e = k then F e else 0).sum := by
  rw [sum_map_flatMap, sum_map_range, Finset.sum_eq_single i]
  · intro i' hi' hne
    refine sum_eq_zero_of_key _ F fun e he hek => hne ?_
    have hn := Finset.mem_range.mp hi'
    exact segment_unique hb hn hi (hek ▸ hg i' hn e he) hk
  · intro h
    exact absurd (Finset.mem_range.mpr hi) h

/-! ## Segments of one size -/

theorem block_inj {size a c y z : Nat} (hy : y < size) (hz : z < size)
    (h : size * a + y = size * c + z) : a = c ∧ y = z := by
  have hpos : 0 < size := by omega
  have ha := Nat.mul_add_div hpos a y
  have hc := Nat.mul_add_div hpos c z
  rw [Nat.div_eq_of_lt hy] at ha
  rw [Nat.div_eq_of_lt hz] at hc
  obtain rfl : a = c := by
    rw [h] at ha
    omega
  exact ⟨rfl, by omega⟩

theorem exists_mul_add {size m k : Nat} (h : k < size * m) :
    ∃ a y, a < m ∧ y < size ∧ k = size * a + y := by
  have hpos : 0 < size := Nat.pos_of_mul_pos_right (Nat.zero_lt_of_lt h)
  exact ⟨k / size, k % size, Nat.div_lt_of_lt_mul h, Nat.mod_lt _ hpos,
    (Nat.div_add_mod k size).symm⟩

theorem block_lt {size a m y : Nat} (ha : a < m) (hy : y < size) : size * a + y < size * m := by
  have := Nat.mul_le_mul_left size (show a + 1 ≤ m from ha)
  rw [Nat.mul_succ] at this
  omega

/-! ## Distinct elements on a stretch of indices -/

structure Seg (w : β → Nat) (lo hi : Nat) (l : List β) : Prop where
  bounds : ∀ e ∈ l, lo ≤ w e ∧ w e < hi
  nodup : l.Nodup

namespace Seg

variable {lo mid hi : Nat} {l l' : List β}

theorem nil : Seg w lo hi [] := ⟨by simp, List.nodup_nil⟩

theorem singleton {e : β} (h : lo ≤ w e ∧ w e < hi) : Seg w lo hi [e] :=
  ⟨by simpa using h, List.nodup_singleton e⟩

theorem mono {lo' hi' : Nat} (h : Seg w lo hi l) (hlo : lo' ≤ lo) (hhi : hi ≤ hi') :
    Seg w lo' hi' l :=
  ⟨fun e he => by have := h.bounds e he; omega, h.nodup⟩

theorem append (h : Seg w lo mid l) (h' : Seg w mid hi l') (hlo : lo ≤ mid) (hhi : mid ≤ hi) :
    Seg w lo hi (l ++ l') := by
  refine ⟨fun e he => ?_, List.nodup_append.mpr ⟨h.nodup, h'.nodup, fun a ha c hc e => ?_⟩⟩
  · rcases List.mem_append.mp he with he | he
    · have := h.bounds e he
      omega
    · have := h'.bounds e he
      omega
  · have h1 := h.bounds a ha
    have h2 := h'.bounds c hc
    rw [e] at h1
    omega

theorem flatMap_range {g : Nat → List β} (hb : ∀ i, i < n → b i ≤ b (i + 1))
    (hg : ∀ i, i < n → Seg w (b i) (b (i + 1)) (g i)) :
    Seg w (b 0) (b n) ((List.range n).flatMap g) := by
  induction n with
  | zero => exact nil
  | succ n ih =>
    rw [List.range_succ, List.flatMap_append, List.flatMap_singleton]
    exact (ih (fun i hi => hb i (by omega)) fun i hi => hg i (by omega)).append (hg n (by omega))
      (segment_lt (fun i hi => hb i (by omega)) (Nat.zero_le n) le_rfl) (hb n (by omega))

theorem map_range {f : Nat → β} (hf : ∀ i, i < n → b i ≤ w (f i) ∧ w (f i) < b (i + 1)) :
    Seg w (b 0) (b n) ((List.range n).map f) := by
  rw [List.map_eq_flatMap]
  exact flatMap_range (fun i hi => by have := hf i hi; omega) fun i hi => singleton (hf i hi)

end Seg

end Segment
