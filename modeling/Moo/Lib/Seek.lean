import Mathlib.Order.Basic
import Moo.Lib.Checked

/-!
# Lib.Seek

A search among sorted keys that starts where the last search ended:

`while (i + 1 < n && key[i + 1] < q) i++; while (i > 0 && q < key[i]) i--;`

`seek_found`: the loops end, read keys below `n` only, and the result is next to `q` whatever the
start. Nothing is assumed about the order of the keys.
-/

namespace Seek

open Checked

variable {K : Type*} [LinearOrder K]

def up (n : Nat) (key : Nat → Option K) (q : K) (i : Nat) : Option Nat :=
  whileLoop (n + 1)
    (fun i => if i + 1 < n then (key (i + 1)).map fun k => decide (k < q) else some false)
    (fun i => some (i + 1)) i

def down (n : Nat) (key : Nat → Option K) (q : K) (i : Nat) : Option Nat :=
  whileLoop (n + 1)
    (fun i => if 0 < i then (key i).map fun k => decide (q < k) else some false)
    (fun i => some (i - 1)) i

def seek (n : Nat) (key : Nat → Option K) (q : K) (i : Nat) : Option Nat :=
  (up n key q i).bind (down n key q)

/-- `r` is next to `q`; where the search has moved, it has passed a key strictly. -/
structure Found (n : Nat) (key : Nat → K) (q : K) (i r : Nat) : Prop where
  lt : r < n
  left : r = 0 ∨ key r ≤ q
  right : r + 1 < n → q ≤ key (r + 1)
  moved : r = i ∨ key r < q ∨ q < key (r + 1)

variable {n : Nat} {keyAt : Nat → Option K} {key : Nat → K} {q : K}

theorem up_spec (hkey : ∀ i, i < n → keyAt i = some (key i)) {i : Nat} (hi : i < n) :
    ∃ r, up n keyAt q i = some r ∧ r < n ∧ (r = i ∨ key r < q) ∧ (r + 1 < n → q ≤ key (r + 1)) := by
  have step : ∀ r, r < n ∧ (r = i ∨ key r < q) →
      (if r + 1 < n then (keyAt (r + 1)).map fun k => decide (k < q) else some false) = some false ∨
      (if r + 1 < n then (keyAt (r + 1)).map fun k => decide (k < q) else some false) = some true ∧
        ∃ t, some (r + 1) = some t ∧ (t < n ∧ (t = i ∨ key t < q)) ∧ n - t < n - r := by
    rintro r ⟨hr, _⟩
    by_cases h : r + 1 < n
    · by_cases hq : key (r + 1) < q
      · exact .inr ⟨by simp [h, hkey (r + 1) h, hq], r + 1, rfl, ⟨h, .inr hq⟩, by omega⟩
      · exact .inl (by simp [h, hkey (r + 1) h, not_lt.mp hq])
    · exact .inl (by simp [h])
  obtain ⟨r, hr, hinv, hc⟩ := whileLoop_total step (n + 1) i ⟨hi, .inl rfl⟩ (by omega)
  refine ⟨r, hr, hinv.1, hinv.2, fun h => ?_⟩
  simpa [h, hkey (r + 1) h] using hc

theorem down_spec (hkey : ∀ i, i < n → keyAt i = some (key i)) {i : Nat} (hi : i < n) :
    ∃ r, down n keyAt q i = some r ∧ r ≤ i ∧ (r = 0 ∨ key r ≤ q) ∧ (r = i ∨ q < key (r + 1)) := by
  have step : ∀ r, r ≤ i ∧ (r = i ∨ q < key (r + 1)) →
      (if 0 < r then (keyAt r).map fun k => decide (q < k) else some false) = some false ∨
      (if 0 < r then (keyAt r).map fun k => decide (q < k) else some false) = some true ∧
        ∃ t, some (r - 1) = some t ∧ (t ≤ i ∧ (t = i ∨ q < key (t + 1))) ∧ t < r := by
    rintro r ⟨hr, _⟩
    rcases Nat.eq_zero_or_pos r with h | h
    · exact .inl (by simp [h])
    · by_cases hq : q < key r
      · refine .inr ⟨by simp [h, hkey r (by omega), hq], r - 1, rfl, ⟨by omega, .inr ?_⟩, by omega⟩
        rwa [Nat.sub_add_cancel h]
      · exact .inl (by simp [h, hkey r (by omega), not_lt.mp hq])
  obtain ⟨r, hr, hinv, hc⟩ := whileLoop_total step (n + 1) i ⟨le_rfl, .inl rfl⟩ (by omega)
  refine ⟨r, hr, hinv.1, ?_, hinv.2⟩
  rcases Nat.eq_zero_or_pos r with h | h
  · exact .inl h
  · right
    simpa [h, hkey r (by omega)] using hc

theorem seek_found (hkey : ∀ i, i < n → keyAt i = some (key i)) {i : Nat} (hi : i < n) :
    ∃ r, seek n keyAt q i = some r ∧ Found n key q i r := by
  obtain ⟨m, hm, hmn, hmi, hmr⟩ := up_spec (q := q) hkey hi
  obtain ⟨r, hr, hrm, hl, hrr⟩ := down_spec (q := q) hkey hmn
  refine ⟨r, by rw [seek, hm, Option.bind_some, hr], by omega, hl, ?_, ?_⟩
  · intro h
    rcases hrr with rfl | hq
    · exact hmr h
    · exact hq.le
  · rcases hrr with rfl | hq
    · rcases hmi with h | h
      · exact .inl h
      · exact .inr (.inl h)
    · exact .inr (.inr hq)

end Seek
