import Mathlib.Data.List.Pairwise
import Mathlib.Data.List.Count
import Mathlib.Data.List.Nodup
import Mathlib.Data.List.Perm.Basic

/-!
# Lib.Ascent

The longest start of a list along which a key ascends: what a cursor finds that follows the
list and a counter at the same time, and never goes back.

* `ascent_append_descent`: the list is its ascent and the rest.
* `ascent_next`: the first element of the rest comes too late.
* `eq_of_ascending`: an ascending list is known from its elements.
-/

namespace Ascent

variable {α : Type*} (w : α → Nat)

/-- The elements from the first on, as long as each key is above the one before; the first key is
at least `lo`. -/
def ascentFrom (lo : Nat) : List α → List α
  | [] => []
  | a :: l => if lo ≤ w a then a :: ascentFrom (w a + 1) l else []

def ascent (l : List α) : List α := ascentFrom w 0 l

/-- What comes behind the ascent. -/
def descent (l : List α) : List α := l.drop (ascent w l).length

theorem ascentFrom_starts (lo : Nat) (l : List α) : ascentFrom w lo l <+: l := by
  induction l generalizing lo with
  | nil => exact List.prefix_rfl
  | cons a l ih =>
    unfold ascentFrom
    split
    · exact (List.prefix_cons_inj a).mpr (ih _)
    · exact List.nil_prefix

theorem le_of_mem_ascentFrom {lo : Nat} {l : List α} {a : α} (h : a ∈ ascentFrom w lo l) :
    lo ≤ w a := by
  induction l generalizing lo with
  | nil => cases h
  | cons b l ih =>
    unfold ascentFrom at h
    split at h
    · rename_i hb
      rcases List.mem_cons.mp h with rfl | h
      · exact hb
      · have := ih h
        omega
    · cases h

theorem ascentFrom_pairwise (lo : Nat) (l : List α) :
    (ascentFrom w lo l).Pairwise fun a b => w a < w b := by
  induction l generalizing lo with
  | nil => exact List.Pairwise.nil
  | cons a l ih =>
    unfold ascentFrom
    split
    · exact List.Pairwise.cons (fun b hb => le_of_mem_ascentFrom w hb) (ih _)
    · exact List.Pairwise.nil

theorem ascentFrom_map {β : Type*} (g : β → α) (lo : Nat) (l : List β) :
    ascentFrom w lo (l.map g) = (ascentFrom (w ∘ g) lo l).map g := by
  induction l generalizing lo with
  | nil => rfl
  | cons b l ih =>
    rw [List.map_cons, ascentFrom, ascentFrom, ih, Function.comp_apply]
    by_cases h : lo ≤ w (g b)
    · rw [if_pos h, if_pos h, List.map_cons]
    · rw [if_neg h, if_neg h, List.map_nil]

theorem ascent_map {β : Type*} (g : β → α) (l : List β) :
    ascent w (l.map g) = (ascent (w ∘ g) l).map g := ascentFrom_map w g 0 l

theorem descent_map {β : Type*} (g : β → α) (l : List β) :
    descent w (l.map g) = (descent (w ∘ g) l).map g := by
  unfold descent
  rw [ascent_map, List.length_map, List.map_drop]

theorem ascentFrom_next {lo : Nat} {l : List α} {e : α}
    (h : l[(ascentFrom w lo l).length]? = some e) :
    w e < lo ∨ ∃ a ∈ ascentFrom w lo l, w e ≤ w a := by
  induction l generalizing lo with
  | nil => simp at h
  | cons a l ih =>
    unfold ascentFrom at h ⊢
    split at h
    · rename_i ha
      rw [if_pos ha]
      rw [List.length_cons, List.getElem?_cons_succ] at h
      rcases ih h with hlt | ⟨b, hb, hle⟩
      · exact .inr ⟨a, List.mem_cons_self, by omega⟩
      · exact .inr ⟨b, List.mem_cons_of_mem a hb, hle⟩
    · rename_i ha
      rw [List.length_nil, List.getElem?_cons_zero] at h
      cases h
      exact .inl (by omega)

variable {w} {l l' : List α}

theorem ascent_starts : ascent w l <+: l := ascentFrom_starts w 0 l

theorem ascent_append_descent : ascent w l ++ descent w l = l :=
  List.prefix_iff_eq_append.mp ascent_starts

theorem ascent_pairwise : (ascent w l).Pairwise fun a b => w a < w b := ascentFrom_pairwise w 0 l

theorem ascent_next {e : α} (h : l[(ascent w l).length]? = some e) :
    ∃ a ∈ ascent w l, w e ≤ w a :=
  (ascentFrom_next w h).resolve_left (Nat.not_lt_zero _)

theorem nodup_of_ascending (h : l.Pairwise fun a b => w a < w b) : l.Nodup := by
  refine List.nodup_iff_pairwise_ne.mpr (h.imp ?_)
  rintro a _ hlt rfl
  exact Nat.lt_irrefl _ hlt

theorem eq_of_ascending (h : l.Pairwise fun a b => w a < w b)
    (h' : l'.Pairwise fun a b => w a < w b) (hm : ∀ a, a ∈ l ↔ a ∈ l') : l = l' := by
  have hp : l.Perm l' :=
    (List.perm_ext_iff_of_nodup (nodup_of_ascending h) (nodup_of_ascending h')).mpr hm
  refine hp.eq_of_pairwise ?_ h h'
  intro a b _ _ hab hba
  omega

end Ascent
