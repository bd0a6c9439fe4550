import Mathlib.Order.Defs.Unbundled
import Mathlib.Data.List.Pairwise
import Mathlib.Data.List.Nodup

/-!
# Lib.OrdSet

Ordered sets without duplicates, iterated in increasing order: `std::set<T, Compare>`.

An `OrdSet α r` is a list that carries the proof that it is strictly increasing under `r`, so
duplicates cannot be built. `insert` walks to the place of the new element and leaves the list
alone when an equivalent element is already there.
-/

universe u

structure OrdSet (α : Type u) (r : α → α → Prop) where
  elems : List α
  sorted : elems.Pairwise r

namespace OrdSet

variable {α : Type u} {r : α → α → Prop}

def empty : OrdSet α r := ⟨[], List.Pairwise.nil⟩

def size (s : OrdSet α r) : Nat := s.elems.length

@[simp] theorem mem_empty {x : α} : x ∈ (empty : OrdSet α r).elems ↔ False := by
  simp [empty]

theorem nodup [IsStrictTotalOrder α r] (s : OrdSet α r) : s.elems.Nodup := by
  refine s.sorted.imp ?_
  intro a b hab e
  exact irrefl_of r a (e ▸ hab)

variable [DecidableRel r]

def insertList (a : α) : List α → List α
  | [] => [a]
  | b :: l => if r a b then a :: b :: l else if r b a then b :: insertList a l else b :: l

variable [IsStrictTotalOrder α r]

theorem mem_insertList {a x : α} {l : List α} :
    x ∈ insertList (r := r) a l ↔ x = a ∨ x ∈ l := by
  induction l with
  | nil => simp [insertList]
  | cons b l ih =>
    simp only [insertList]
    split
    · simp
    · rename_i hab
      split
      · rw [List.mem_cons, List.mem_cons, ih]
        exact or_left_comm
      · rename_i hba
        have e : a = b := (trichotomous_of r a b).resolve_left hab |>.resolve_right hba
        subst e
        simp

theorem insertList_sorted (a : α) {l : List α} (h : l.Pairwise r) :
    (insertList (r := r) a l).Pairwise r := by
  induction l with
  | nil => simp [insertList]
  | cons b l ih =>
    obtain ⟨hb, hl⟩ := List.pairwise_cons.mp h
    simp only [insertList]
    split
    · rename_i hab
      refine List.pairwise_cons.mpr ⟨fun x hx => ?_, h⟩
      rcases List.mem_cons.mp hx with rfl | hx
      · exact hab
      · exact trans_of r hab (hb x hx)
    · split
      · rename_i hba
        refine List.pairwise_cons.mpr ⟨fun x hx => ?_, ih hl⟩
        rcases mem_insertList.mp hx with rfl | hx
        · exact hba
        · exact hb x hx
      · exact h

def insert (s : OrdSet α r) (a : α) : OrdSet α r :=
  ⟨insertList (r := r) a s.elems, insertList_sorted a s.sorted⟩

def insertAll (s : OrdSet α r) (l : List α) : OrdSet α r := l.foldl insert s

@[simp] theorem mem_insert {s : OrdSet α r} {a x : α} :
    x ∈ (s.insert a).elems ↔ x = a ∨ x ∈ s.elems := mem_insertList

theorem forall_insert {Q : α → Prop} {s : OrdSet α r} {a : α} (hs : ∀ x ∈ s.elems, Q x)
    (ha : Q a) : ∀ x ∈ (s.insert a).elems, Q x := by
  intro x hx
  rcases mem_insert.mp hx with rfl | hx
  · exact ha
  · exact hs x hx

@[simp] theorem mem_insertAll {s : OrdSet α r} {l : List α} {x : α} :
    x ∈ (s.insertAll l).elems ↔ x ∈ s.elems ∨ x ∈ l := by
  induction l generalizing s with
  | nil => simp [insertAll]
  | cons a l ih =>
    have e : s.insertAll (a :: l) = (s.insert a).insertAll l := rfl
    rw [e, ih, mem_insert, List.mem_cons]
    tauto

end OrdSet
