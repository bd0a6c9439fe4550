import Moo.Base.NlpStructs
import Moo.Lib.OrdSet
import Mathlib.Logic.Function.Basic

/-!
# Base.BlockSparsity

Index tables of the Hessian blocks: `(row, col)` and, for a repeated block, the running number of
the repetition, to the position in the array of nonzeros.

The assertions of the source are compiled out of a release build and are no part of the functions;
that indices are in range is a hypothesis where it matters. `InsertAssert` is the one on insertion.
-/

namespace Moo

inductive BlockType where
  | exact
  | offset
  | rowOffset
  deriving Repr, DecidableEq

/-- `cell` is the table `block`, keyed by `(row, col)`: zero-initialised, with `none` for a cell
that no `insert` wrote. -/
structure BlockSparsity where
  type : BlockType
  cell : Nat × Nat → Option Nat := fun _ => none
  nnz : Nat := 0
  rowOffsetPrev : Nat → Nat := fun _ => 0
  rowSize : Nat → Nat := fun _ => 0
  offPrev : Nat := 0

namespace BlockSparsity

variable (b : BlockSparsity)

def insert (row col index : Nat) : BlockSparsity :=
  { b with cell := Function.update b.cell (row, col) (some index), nnz := b.nnz + 1 }

/-- `block[row][col]`. -/
def cellAt (row col : Nat) : Nat := (b.cell (row, col)).getD 0

/-- `access(row, col)`; `none` where the source aborts. -/
def access (row col : Nat) : Option Nat :=
  match b.type with
  | .exact => some (b.cellAt row col)
  | _ => none

/-- `access(row, col, block_count)`. -/
def accessAt (row col blockCount : Nat) : Nat :=
  match b.type with
  | .offset => b.offPrev + b.nnz * blockCount + b.cellAt row col
  | .rowOffset => b.rowOffsetPrev row + b.rowSize row * blockCount + b.cellAt row col
  | .exact => b.cellAt row col

end BlockSparsity

/-! ## Ordered index sets -/

/-- `OrderedIndexSet::Compare`: rows first, columns within a row. -/
def Compare (a b : Nat × Nat) : Prop := if a.1 ≠ b.1 then a.1 < b.1 else a.2 < b.2

theorem compare_iff {a b : Nat × Nat} : Compare a b ↔ a.1 < b.1 ∨ a.1 = b.1 ∧ a.2 < b.2 := by
  unfold Compare
  split
  · omega
  · omega

instance : DecidableRel Compare := fun _ _ => decidable_of_iff _ compare_iff.symm

instance : IsStrictTotalOrder (Nat × Nat) Compare where
  irrefl := fun a h => by rw [compare_iff] at h; omega
  trans := fun a b c h h' => by rw [compare_iff] at h h' ⊢; omega
  trichotomous := fun a b h h' => by
    rw [compare_iff] at h h'
    exact Prod.ext (by omega) (by omega)

abbrev OrderedIndexSet := OrdSet (Nat × Nat) Compare

namespace OrderedIndexSet

/-- The set after `clear()`. -/
def empty : OrderedIndexSet := OrdSet.empty

@[simp] theorem not_mem_empty {e : Nat × Nat} : e ∉ empty.elems := by simp [empty]

def insertSparsity (set : OrderedIndexSet) (hes : List HessianSparsity) (rowOff colOff : Nat) :
    OrderedIndexSet :=
  set.insertAll (hes.map fun coo => (coo.row + rowOff, coo.col + colOff))

/-- The assertion of `insert_sparsity`, for every entry. -/
def InsertAssert (hes : List HessianSparsity) (rowOff colOff : Nat) : Prop :=
  ∀ coo ∈ hes, coo.row + rowOff ≥ coo.col + colOff

theorem mem_insertSparsity {set : OrderedIndexSet} {hes : List HessianSparsity}
    {rowOff colOff : Nat} {e : Nat × Nat} : e ∈ (set.insertSparsity hes rowOff colOff).elems ↔
      e ∈ set.elems ∨ ∃ coo ∈ hes, (coo.row + rowOff, coo.col + colOff) = e := by
  rw [insertSparsity, OrdSet.mem_insertAll, List.mem_map]

/-- The flattened set is sorted by row. -/
theorem sorted_row (set : OrderedIndexSet) : set.elems.Pairwise fun a b => a.1 ≤ b.1 :=
  set.sorted.imp fun h => by rw [compare_iff] at h; omega

end OrderedIndexSet

end Moo
