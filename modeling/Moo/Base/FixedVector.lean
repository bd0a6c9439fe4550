import Mathlib.Data.List.GetD
import Moo.Lib.Loop

/-!
# Base.FixedVector

Vectors of a fixed size. A `FixedVector` is a `List`; `raw` reads it through its pointer, `fill`
writes all of its entries, and `edit` is a loop that writes some of them in place.
-/

namespace Moo
namespace FixedVector

open Loop

variable {K : Type}

/-- `n` entries, written in full. -/
def fill (n : Nat) (f : Nat → K) : List K := (List.range n).map f

variable [Zero K]

/-- `raw()`, and `operator[]`. -/
def raw (v : List K) (i : Nat) : K := v.getD i 0

/-- Writes through the pointer: `F` maps the old content to the new one. -/
def edit (v : List K) (F : (Nat → K) → Nat → K) : List K := fill v.length (F (raw v))

omit [Zero K] in
@[simp] theorem fill_length (n : Nat) (f : Nat → K) : (fill n f).length = n := by simp [fill]

@[simp] theorem edit_length (v : List K) (F : (Nat → K) → Nat → K) :
    (edit v F).length = v.length := fill_length ..

theorem raw_fill (n : Nat) (f : Nat → K) (i : Nat) :
    raw (fill n f) i = if i < n then f i else 0 := by
  by_cases h : i < n
  · rw [if_pos h]
    exact getD_map_range n f 0 h
  · rw [if_neg h]
    exact List.getD_eq_default _ _ (by rw [fill_length]; omega)

theorem raw_fill_lt {n i : Nat} (f : Nat → K) (h : i < n) : raw (fill n f) i = f i := by
  rw [raw_fill, if_pos h]

theorem raw_of_le {v : List K} {i : Nat} (h : v.length ≤ i) : raw v i = 0 :=
  List.getD_eq_default _ _ h

omit [Zero K] in
theorem fill_congr {n : Nat} {f g : Nat → K} (h : ∀ i, i < n → f i = g i) : fill n f = fill n g :=
  List.map_congr_left fun i hi => h i (List.mem_range.mp hi)

theorem fill_raw (v : List K) : fill v.length (raw v) = v := map_getD_range v 0

/-- Vectors of one size with the same entries. -/
theorem ext {v w : List K} (hl : v.length = w.length) (h : ∀ i, i < v.length → raw v i = raw w i) :
    v = w := by
  rw [← fill_raw v, ← fill_raw w, ← hl]
  exact fill_congr h

theorem edit_eq {v w : List K} {F : (Nat → K) → Nat → K} (hl : v.length = w.length)
    (h : ∀ i, i < w.length → F (raw v) i = raw w i) : edit v F = w := by
  rw [edit, hl, ← fill_raw w, fill_length]
  exact fill_congr h

theorem raw_map {L : Type} [Zero L] (f : K → L) (v : List K) {i : Nat} (h : i < v.length) :
    raw (v.map f) i = f (raw v i) := by
  simp [raw, h]

theorem forall_mem_iff {v : List K} {P : K → Prop} :
    (∀ y ∈ v, P y) ↔ ∀ i, i < v.length → P (raw v i) := by
  constructor
  · intro h i hi
    rw [raw, List.getD_eq_getElem _ _ hi]
    exact h _ (List.getElem_mem hi)
  · intro h y hy
    obtain ⟨i, hi, rfl⟩ := List.getElem_of_mem hy
    have := h i hi
    rwa [raw, List.getD_eq_getElem _ _ hi] at this

end FixedVector
end Moo
