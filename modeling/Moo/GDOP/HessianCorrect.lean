import Moo.GDOP.HessianLayout

/-!
# GDOP.HessianCorrect

What the assembled Hessian is, read off the layout.

* `mem_hesLayout`, `hesLayout_length`: the layout has exactly the valid entries and `nnz_hes`
  slots, so slots and valid entries correspond one to one.
* `Var`: a variable of the discretised problem by its place; an entry stands for a pair of them.
* `hessian_coordinates_iff`: the coordinate arrays are right exactly when `H_flat` is a prefix of
  `G_flat`; `mixed` is a layout where it is not.
-/

namespace Moo
namespace GDOP

open Loop Coo

section Slots

variable {K : Type} [Field K] {T : FLGR K} (P : Problem K) (M : Mesh T)

/-- A place of a block and, for a repeated block, a node that is not the last. -/
structure Addr.Valid (a : Addr) : Prop where
  place : (a.row, a.col) ∈ hesFlat P P.pc.xSize a.blk
  node : if a.blk.type = .exact then a.node = 0 else a.node < M.nodeCount - 1

variable {P M}
variable (hP : HessianLayoutOk P)

include hP

theorem mem_hesLayout {a : Addr} : a ∈ hesLayout P M (getSizes P M) ↔ a.Valid P M := by
  obtain ⟨b, r, c, n⟩ := a
  constructor
  · intro ha
    rcases List.mem_append.mp ha with ha | ha
    · rcases List.mem_append.mp ha with ha | ha
      · obtain ⟨h, hm⟩ := mem_layoutAB.mp ha
        refine ⟨hm, ?_⟩
        rcases h with ⟨rfl, h⟩ | ⟨rfl, h⟩ <;> simpa [HesBlock.type] using h
      · obtain ⟨x, _, ha⟩ := List.mem_flatMap.mp ha
        obtain ⟨h, hn, hm, _⟩ := mem_layoutCD.mp ha
        refine ⟨hm, ?_⟩
        rcases h with rfl | rfl <;> simpa [HesBlock.type] using hn
    · obtain ⟨p, _, ha⟩ := List.mem_flatMap.mp ha
      obtain ⟨h, hm, _⟩ := mem_layoutEFGH.mp ha
      refine ⟨hm, ?_⟩
      rcases h with ⟨rfl | rfl | rfl, h⟩ | ⟨rfl, h⟩ <;> simpa [HesBlock.type] using h
  · rintro ⟨hm, hn⟩
    have hi := hP.inside hm
    have inAB (h : Addr.mk b r c n ∈ layoutAB P M (getSizes P M)) :
        Addr.mk b r c n ∈ hesLayout P M (getSizes P M) :=
      List.mem_append_left _ (List.mem_append_left _ h)
    have inCD (hr : r < P.pc.xuSize) (h : Addr.mk b r c n ∈ layoutCD P (getSizes P M) r) :
        Addr.mk b r c n ∈ hesLayout P M (getSizes P M) :=
      List.mem_append_left _ (List.mem_append_right _
        (List.mem_flatMap.mpr ⟨r, List.mem_range.mpr hr, h⟩))
    have inEFGH (hr : r < P.pc.pSize) (h : Addr.mk b r c n ∈ layoutEFGH P M (getSizes P M) r) :
        Addr.mk b r c n ∈ hesLayout P M (getSizes P M) :=
      List.mem_append_right _ (List.mem_flatMap.mpr ⟨r, List.mem_range.mpr hr, h⟩)
    cases b with
    | A => exact inAB (mem_layoutAB.mpr ⟨.inl ⟨rfl, hn⟩, hm⟩)
    | B => exact inAB (mem_layoutAB.mpr ⟨.inr ⟨rfl, hn⟩, hm⟩)
    | C => exact inCD hi.1 (mem_layoutCD.mpr ⟨.inl rfl, hn, hm, rfl⟩)
    | D => exact inCD hi.1 (mem_layoutCD.mpr ⟨.inr rfl, hn, hm, rfl⟩)
    | E => exact inEFGH hi.1 (mem_layoutEFGH.mpr ⟨.inl ⟨.inl rfl, hn⟩, hm, rfl⟩)
    | F => exact inEFGH hi.1 (mem_layoutEFGH.mpr ⟨.inr ⟨rfl, hn⟩, hm, rfl⟩)
    | G => exact inEFGH hi.1 (mem_layoutEFGH.mpr ⟨.inl ⟨.inr (.inl rfl), hn⟩, hm, rfl⟩)
    | H => exact inEFGH hi.1 (mem_layoutEFGH.mpr ⟨.inl ⟨.inr (.inr rfl), hn⟩, hm, rfl⟩)

omit hP in
theorem sum_flatRow (X : HesBlock) {n : Nat}
    (h : ∀ e ∈ hesFlat P P.pc.xSize X, e.1 < n) :
    ∑ x ∈ Finset.range n, (flatRow P (getSizes P M) X x).length =
      (hesFlat P P.pc.xSize X).length := by
  rw [← Cursor.below_eq_length Prod.fst h, ← Cursor.sum_row_length]
  rfl

theorem hesLayout_length :
    (hesLayout P M (getSizes P M)).length = initHessianNonzeros P M P.pc.xSize := by
  have hAB : (layoutAB P M (getSizes P M)).length = (hesFlat P P.pc.xSize .A).length +
      (M.nodeCount - 1) * (hesFlat P P.pc.xSize .B).length := by
    rw [layoutAB, List.length_append, length_flatMap_range]
    simp
  have hCD : ((List.range (getSizes P M).offXu).flatMap (layoutCD P (getSizes P M))).length =
      (hesFlat P P.pc.xSize .C).length + (hesFlat P P.pc.xSize .D).length := by
    rw [length_flatMap_range, ← sum_flatRow (M := M) .C fun e he => (hP.inside he).1,
      ← sum_flatRow (M := M) .D fun e he => (hP.inside he).1, ← Finset.sum_add_distrib]
    refine Finset.sum_congr rfl fun x _ => ?_
    rw [layoutCD, List.length_append, entriesAt_length, entriesAt_length]
  have hEH : ((List.range P.pc.pSize).flatMap (layoutEFGH P M (getSizes P M))).length =
      (hesFlat P P.pc.xSize .E).length +
        (M.nodeCount - 1) * (hesFlat P P.pc.xSize .F).length +
        (hesFlat P P.pc.xSize .G).length + (hesFlat P P.pc.xSize .H).length := by
    rw [length_flatMap_range, ← sum_flatRow (M := M) .E fun e he => (hP.inside he).1,
      ← sum_flatRow (M := M) .F fun e he => (hP.inside he).1,
      ← sum_flatRow (M := M) .G fun e he => (hP.inside he).1,
      ← sum_flatRow (M := M) .H fun e he => (hP.inside he).1, Finset.mul_sum,
      ← Finset.sum_add_distrib, ← Finset.sum_add_distrib, ← Finset.sum_add_distrib]
    refine Finset.sum_congr rfl fun x _ => ?_
    rw [layoutEFGH, List.length_append, List.length_append, List.length_append,
      length_flatMap_range]
    simp
  rw [hesLayout, List.length_append, List.length_append, hAB, hCD, hEH, initHessianNonzeros]
  ring

variable (past : Nat → Nat × Nat) (iRow jCol : Nat → Nat)

theorem slot_lt {a : Addr} (ha : a.Valid P M) :
    (getHesSparsity P M (getSizes P M) past iRow jCol).slot a <
      initHessianNonzeros P M P.pc.xSize := by
  obtain ⟨k, hk⟩ := List.mem_iff_getElem?.mp ((mem_hesLayout hP).mpr ha)
  rw [(getHesSparsity_laid P M past iRow jCol hP).slot k a hk, ← hesLayout_length hP]
  exact (List.getElem?_eq_some_iff.mp hk).1

theorem slot_inj {a b : Addr} (ha : a.Valid P M) (hb : b.Valid P M)
    (h : (getHesSparsity P M (getSizes P M) past iRow jCol).slot a =
      (getHesSparsity P M (getSizes P M) past iRow jCol).slot b) : a = b := by
  obtain ⟨k, hk⟩ := List.mem_iff_getElem?.mp ((mem_hesLayout hP).mpr ha)
  obtain ⟨l, hl⟩ := List.mem_iff_getElem?.mp ((mem_hesLayout hP).mpr hb)
  rw [(getHesSparsity_laid P M past iRow jCol hP).slot k a hk,
    (getHesSparsity_laid P M past iRow jCol hP).slot l b hl] at h
  subst h
  simpa [hk] using hl

theorem exists_slot {k : Nat} (hk : k < initHessianNonzeros P M P.pc.xSize) :
    ∃ a : Addr, a.Valid P M ∧ (getHesSparsity P M (getSizes P M) past iRow jCol).slot a = k := by
  rw [← hesLayout_length hP] at hk
  exact ⟨_, (mem_hesLayout hP).mp (List.getElem_mem hk),
    (getHesSparsity_laid P M past iRow jCol hP).slot k _ (List.getElem?_eq_getElem hk)⟩

theorem slot_coord {a : Addr} (ha : a.Valid P M) :
    (getHesSparsity P M (getSizes P M) past iRow jCol).coord
      ((getHesSparsity P M (getSizes P M) past iRow jCol).slot a) =
    hesWritten P (getSizes P M) past a := by
  obtain ⟨k, hk⟩ := List.mem_iff_getElem?.mp ((mem_hesLayout hP).mpr ha)
  have h := getHesSparsity_laid P M past iRow jCol hP
  rw [h.slot k a hk, h.coord k a hk fun h => h]

/-- An exact block is also read by `access(row, col)`. -/
theorem access_eq {X : HesBlock} (hX : X.type = .exact) (row col node : Nat) :
    ((getHesSparsity P M (getSizes P M) past iRow jCol).block X).access row col =
      some ((getHesSparsity P M (getSizes P M) past iRow jCol).slot ⟨X, row, col, node⟩) := by
  have ht := ((getHesSparsity_laid P M past iRow jCol hP).type X).trans hX
  simp [BlockSparsity.access, HesState.slot, BlockSparsity.accessAt, ht]

end Slots

/-! ## The variables an entry stands for -/

section Coordinates

variable {K : Type} [Field K] {T : FLGR K} (P : Problem K) (M : Mesh T)

/-- A variable: initial state, state or control of a node, parameter. -/
inductive Var where
  | x0 (i : Nat)
  | node (n i : Nat)
  | p (i : Nat)
  deriving Repr, DecidableEq

def Var.index : Var → Nat
  | .x0 i => i
  | .node n i => nodeStart (getSizes P M) n + i
  | .p i => (getSizes P M).offXuTotal + i

def Var.Ok : Var → Prop
  | .x0 i => i < P.pc.xSize
  | .node n i => n < M.nodeCount ∧ i < P.pc.xuSize
  | .p i => i < P.pc.pSize

/-- Row and column variable of an entry: the block layout of the lower triangle. -/
def Addr.vars (a : Addr) : Var × Var :=
  match a.blk with
  | .A => (.x0 a.row, .x0 a.col)
  | .B => (.node a.node a.row, .node a.node a.col)
  | .C => (.node (M.nodeCount - 1) a.row, .x0 a.col)
  | .D => (.node (M.nodeCount - 1) a.row, .node (M.nodeCount - 1) a.col)
  | .E => (.p a.row, .x0 a.col)
  | .F => (.p a.row, .node a.node a.col)
  | .G => (.p a.row, .node (M.nodeCount - 1) a.col)
  | .H => (.p a.row, .p a.col)

variable {P M}

theorem nodeStart_le {n n' : Nat} (h : n < n') :
    nodeStart (getSizes P M) n + P.pc.xuSize ≤ nodeStart (getSizes P M) n' := by
  have := Nat.mul_le_mul_left P.pc.xuSize (show n + 1 ≤ n' from h)
  rw [Nat.mul_succ] at this
  simp only [nodeStart, getSizes_offX, getSizes_offXu]
  omega

theorem nodeStart_total {n : Nat} (h : n < M.nodeCount) :
    nodeStart (getSizes P M) n + P.pc.xuSize ≤ (getSizes P M).offXuTotal := by
  rw [getSizes_offXuTotal]
  exact nodeStart_le h

theorem xSize_le_nodeStart (n : Nat) : P.pc.xSize ≤ nodeStart (getSizes P M) n :=
  Nat.le_add_right ..

theorem xSize_le_offXuTotal : P.pc.xSize ≤ (getSizes P M).offXuTotal := by
  rw [getSizes_offXuTotal]
  exact Nat.le_add_right ..

theorem Var.index_lt {v : Var} (hv : v.Ok P M) : v.index P M < (getSizes P M).numberVars := by
  have hn : (getSizes P M).numberVars = (getSizes P M).offXuTotal + P.pc.pSize := rfl
  cases v with
  | x0 i =>
    have := xSize_le_offXuTotal (P := P) (M := M)
    simp only [Var.Ok, Var.index] at hv ⊢
    omega
  | node n i =>
    have := nodeStart_total (P := P) hv.1
    simp only [Var.Ok, Var.index] at hv ⊢
    omega
  | p i =>
    simp only [Var.Ok, Var.index] at hv ⊢
    omega

theorem Var.index_inj {v v' : Var} (hv : v.Ok P M) (hv' : v'.Ok P M)
    (h : v.index P M = v'.index P M) : v = v' := by
  have ht := xSize_le_offXuTotal (P := P) (M := M)
  have hx := xSize_le_nodeStart (P := P) (M := M)
  cases v with
  | x0 i =>
    cases v' with
    | x0 i' => exact congrArg Var.x0 h
    | node n' i' =>
      have := hx n'
      simp only [Var.Ok, Var.index] at hv h
      omega
    | p i' =>
      simp only [Var.Ok, Var.index] at hv h
      omega
  | node n i =>
    have hn := nodeStart_total (P := P) hv.1
    cases v' with
    | x0 i' =>
      have := hx n
      simp only [Var.Ok, Var.index] at hv' h
      omega
    | node n' i' =>
      simp only [Var.Ok, Var.index] at hv hv' h
      rcases Nat.lt_trichotomy n n' with hlt | rfl | hlt
      · have := nodeStart_le (P := P) (M := M) hlt
        omega
      · rw [Nat.add_left_cancel h]
      · have := nodeStart_le (P := P) (M := M) hlt
        omega
    | p i' =>
      simp only [Var.Ok, Var.index] at hv h
      omega
  | p i =>
    cases v' with
    | x0 i' =>
      simp only [Var.Ok, Var.index] at hv' h
      omega
    | node n' i' =>
      have hn := nodeStart_total (P := P) hv'.1
      simp only [Var.Ok, Var.index] at hv' h
      omega
    | p i' => rw [Nat.add_left_cancel h]

variable (hP : HessianLayoutOk P)

include hP

theorem Addr.Valid.vars_ok {a : Addr} (ha : a.Valid P M) :
    (a.vars M).1.Ok P M ∧ (a.vars M).2.Ok P M ∧
      (a.vars M).2.index P M ≤ (a.vars M).1.index P M := by
  obtain ⟨b, r, c, n⟩ := a
  have hi := hP.inside ha.place
  have hn := ha.node
  have hpos := M.nodeCount_pos
  have ht := xSize_le_offXuTotal (P := P) (M := M)
  have hl := nodeStart_total (P := P) (M := M) (n := M.nodeCount - 1) (by omega)
  have hx := xSize_le_nodeStart (P := P) (M := M) (M.nodeCount - 1)
  have hxu : P.pc.xuSize = P.pc.xSize + P.pc.uSize := rfl
  cases b <;> simp only [HesBlock.Inside] at hi <;>
    simp only [Addr.vars, Var.Ok, Var.index, HesBlock.type, reduceCtorEq, if_false] at hn ⊢ <;>
    try omega
  have := nodeStart_total (P := P) (M := M) (n := n) (by omega)
  omega

omit hP in
theorem Addr.Valid.vars_inj {a b : Addr} (ha : a.Valid P M) (hb : b.Valid P M)
    (h : a.vars M = b.vars M) : a = b := by
  obtain ⟨X, r, c, n⟩ := a
  obtain ⟨Y, r', c', n'⟩ := b
  have hn := ha.node
  have hn' := hb.node
  cases X <;> cases Y <;>
    simp only [Addr.vars, Prod.mk.injEq, Var.x0.injEq, Var.node.injEq, Var.p.injEq, reduceCtorEq,
      and_false, false_and, HesBlock.type, if_true, if_false, Addr.mk.injEq, true_and]
      at h hn hn' ⊢ <;> omega

omit hP in
/-- The coordinates of an entry, as the code means them, are those of its variables. -/
theorem hesWritten_vars (past : Nat → Nat × Nat) {a : Addr} (ha : a.Valid P M)
    (hH : ∀ e ∈ hesFlat P P.pc.xSize .H,
      flatAt (hesFlat P P.pc.xSize .G) past ((hesFlat P P.pc.xSize .H).idxOf e) = e) :
    hesWritten P (getSizes P M) past a = ((a.vars M).1.index P M, (a.vars M).2.index P M) := by
  obtain ⟨b, r, c, n⟩ := a
  have hl : (getSizes P M).offLastXu = nodeStart (getSizes P M) (M.nodeCount - 1) :=
    getSizes_offLastXu P M
  cases b <;> simp only [hesWritten, Addr.vars, Var.index, hl]
  rw [getSizes_offX, hH _ ha.place]

end Coordinates

/-! ## The coordinate arrays -/

section CoordinateArrays

variable {K : Type} [Field K] {T : FLGR K} (P : Problem K) (M : Mesh T)
variable (past : Nat → Nat × Nat) (iRow jCol : Nat → Nat)

/-- What the coordinate arrays have to hold after `get_hes_sparsity`. -/
structure HessianCoordinates : Prop where
  A : ∀ row col, (row, col) ∈ hesFlat P P.pc.xSize .A →
    (((getHesSparsity P M (getSizes P M) past iRow jCol).block .A).access row col).map
      (getHesSparsity P M (getSizes P M) past iRow jCol).coord = some (row, col)
  B : ∀ i j, i < M.intervals → j < M.nodesAt i → M.isLast i j = false → ∀ row col,
    (row, col) ∈ hesFlat P P.pc.xSize .B →
    (getHesSparsity P M (getSizes P M) past iRow jCol).coord
      (((getHesSparsity P M (getSizes P M) past iRow jCol).block .B).accessAt row col
        (M.accNodesAt i j)) =
      ((getSizes P M).offAccXu i j + row, (getSizes P M).offAccXu i j + col)
  C : ∀ row col, (row, col) ∈ hesFlat P P.pc.xSize .C →
    (((getHesSparsity P M (getSizes P M) past iRow jCol).block .C).access row col).map
      (getHesSparsity P M (getSizes P M) past iRow jCol).coord =
      some ((getSizes P M).offLastXu + row, col)
  D : ∀ row col, (row, col) ∈ hesFlat P P.pc.xSize .D →
    (((getHesSparsity P M (getSizes P M) past iRow jCol).block .D).access row col).map
      (getHesSparsity P M (getSizes P M) past iRow jCol).coord =
      some ((getSizes P M).offLastXu + row, (getSizes P M).offLastXu + col)
  E : ∀ row col, (row, col) ∈ hesFlat P P.pc.xSize .E →
    (((getHesSparsity P M (getSizes P M) past iRow jCol).block .E).access row col).map
      (getHesSparsity P M (getSizes P M) past iRow jCol).coord =
      some ((getSizes P M).offXuTotal + row, col)
  F : ∀ i j, i < M.intervals → j < M.nodesAt i → M.isLast i j = false → ∀ row col,
    (row, col) ∈ hesFlat P P.pc.xSize .F →
    (getHesSparsity P M (getSizes P M) past iRow jCol).coord
      (((getHesSparsity P M (getSizes P M) past iRow jCol).block .F).accessAt row col
        (M.accNodesAt i j)) =
      ((getSizes P M).offXuTotal + row, (getSizes P M).offAccXu i j + col)
  G : ∀ row col, (row, col) ∈ hesFlat P P.pc.xSize .G →
    (((getHesSparsity P M (getSizes P M) past iRow jCol).block .G).access row col).map
      (getHesSparsity P M (getSizes P M) past iRow jCol).coord =
      some ((getSizes P M).offXuTotal + row, (getSizes P M).offLastXu + col)
  H : ∀ row col, (row, col) ∈ hesFlat P P.pc.xSize .H →
    (((getHesSparsity P M (getSizes P M) past iRow jCol).block .H).access row col).map
      (getHesSparsity P M (getSizes P M) past iRow jCol).coord =
      some ((getSizes P M).offXuTotal + row, (getSizes P M).offXuTotal + col)
  in_range : ∀ k, k < initHessianNonzeros P M P.pc.xSize →
    ((getHesSparsity P M (getSizes P M) past iRow jCol).coord k).1 < (getSizes P M).numberVars ∧
    ((getHesSparsity P M (getSizes P M) past iRow jCol).coord k).2 ≤
      ((getHesSparsity P M (getSizes P M) past iRow jCol).coord k).1
  distinct : ∀ k k', k < initHessianNonzeros P M P.pc.xSize →
    k' < initHessianNonzeros P M P.pc.xSize →
    (getHesSparsity P M (getSizes P M) past iRow jCol).coord k =
      (getHesSparsity P M (getSizes P M) past iRow jCol).coord k' → k = k'

variable {P M}
variable (hP : HessianLayoutOk P)

include hP

theorem exact_coord {X : HesBlock} (hX : X.type = .exact) {row col : Nat}
    (h : (row, col) ∈ hesFlat P P.pc.xSize X) :
    (((getHesSparsity P M (getSizes P M) past iRow jCol).block X).access row col).map
      (getHesSparsity P M (getSizes P M) past iRow jCol).coord =
      some (hesWritten P (getSizes P M) past ⟨X, row, col, 0⟩) := by
  have hv : Addr.Valid P M ⟨X, row, col, 0⟩ := ⟨h, by rw [if_pos hX]⟩
  rw [access_eq hP past iRow jCol hX row col 0, Option.map_some, slot_coord hP past iRow jCol hv]

theorem node_coord {X : HesBlock} (hX : X.type ≠ .exact) {i j : Nat} (hi : i < M.intervals)
    (hj : j < M.nodesAt i) (hl : M.isLast i j = false) {row col : Nat}
    (h : (row, col) ∈ hesFlat P P.pc.xSize X) :
    (getHesSparsity P M (getSizes P M) past iRow jCol).coord
      (((getHesSparsity P M (getSizes P M) past iRow jCol).block X).accessAt row col
        (M.accNodesAt i j)) =
      hesWritten P (getSizes P M) past ⟨X, row, col, M.accNodesAt i j⟩ := by
  refine slot_coord hP past iRow jCol (a := ⟨X, row, col, M.accNodesAt i j⟩) ⟨h, ?_⟩
  have hlt := M.accNodesAt_lt hi hj
  have hne : M.accNodesAt i j ≠ M.nodeCount - 1 := fun h => by
    rw [(M.isLast_iff hi hj).mpr h] at hl
    cases hl
  rw [if_neg hX]
  dsimp only
  omega

/-- All is right when the entries of `H` stand in `G_flat` at their own positions. -/
theorem hessianCoordinates_of_flatAt (hH : ∀ e ∈ hesFlat P P.pc.xSize .H,
      flatAt (hesFlat P P.pc.xSize .G) past ((hesFlat P P.pc.xSize .H).idxOf e) = e) :
    HessianCoordinates P M past iRow jCol where
  A := fun _ _ h => exact_coord past iRow jCol hP rfl h
  B := fun i j hi hj hl row col h => by
    rw [node_coord past iRow jCol hP (by decide) hi hj hl h, getSizes_offAccXu P M hi hj]
    rfl
  C := fun _ _ h => exact_coord past iRow jCol hP rfl h
  D := fun _ _ h => exact_coord past iRow jCol hP rfl h
  E := fun _ _ h => exact_coord past iRow jCol hP rfl h
  F := fun i j hi hj hl row col h => by
    rw [node_coord past iRow jCol hP (by decide) hi hj hl h, getSizes_offAccXu P M hi hj]
    rfl
  G := fun _ _ h => exact_coord past iRow jCol hP rfl h
  H := fun row col h => by
    rw [exact_coord past iRow jCol hP rfl h]
    simp only [hesWritten, getSizes_offX, hH _ h]
  in_range := fun k hk => by
    obtain ⟨a, ha, rfl⟩ := exists_slot hP past iRow jCol hk
    obtain ⟨h1, h2, h3⟩ := ha.vars_ok hP
    rw [slot_coord hP past iRow jCol ha, hesWritten_vars past ha hH]
    exact ⟨Var.index_lt h1, h3⟩
  distinct := fun k k' hk hk' h => by
    obtain ⟨a, ha, rfl⟩ := exists_slot hP past iRow jCol hk
    obtain ⟨b, hb, rfl⟩ := exists_slot hP past iRow jCol hk'
    rw [slot_coord hP past iRow jCol ha, slot_coord hP past iRow jCol hb,
      hesWritten_vars past ha hH, hesWritten_vars past hb hH, Prod.mk.injEq] at h
    obtain ⟨a1, a2, -⟩ := ha.vars_ok hP
    obtain ⟨b1, b2, -⟩ := hb.vars_ok hP
    rw [ha.vars_inj hb (Prod.ext (Var.index_inj a1 b1 h.1) (Var.index_inj a2 b2 h.2))]

theorem flatAt_of_hessianCoordinates (h : HessianCoordinates P M past iRow jCol) :
    ∀ e ∈ hesFlat P P.pc.xSize .H,
      flatAt (hesFlat P P.pc.xSize .G) past ((hesFlat P P.pc.xSize .H).idxOf e) = e := by
  intro e he
  have h1 := h.H e.1 e.2 he
  rw [exact_coord past iRow jCol hP rfl he, Option.some_inj] at h1
  simp only [hesWritten, getSizes_offX, Prod.mk.injEq] at h1
  exact Prod.ext (Nat.add_left_cancel h1.1) (Nat.add_left_cancel h1.2)

omit hP in
/-- Whatever lies behind the array, `H_flat` is read back from `G_flat` exactly when it is a
prefix of it. -/
theorem flatAt_iff_prefix {G H : List (Nat × Nat)} (hd : H.Nodup) :
    (∀ past, ∀ e ∈ H, flatAt G past (H.idxOf e) = e) ↔ H <+: G := by
  rw [List.prefix_iff_getElem?]
  constructor
  · intro h k hk
    have hread : ∀ past, flatAt G past k = H[k] := by
      intro past
      have := h past H[k] (List.getElem_mem hk)
      rwa [hd.idxOf_getElem] at this
    by_cases hG : k < G.length
    · have := hread fun _ => (0, 0)
      rw [flatAt, List.getD_eq_getElem _ _ hG] at this
      rw [List.getElem?_eq_getElem hG, this]
    · -- behind the array two contents cannot both be the entry
      have h1 := hread fun _ => (0, 0)
      have h2 := hread fun _ => (1, 0)
      rw [flatAt, List.getD_eq_default _ _ (by omega)] at h1 h2
      rw [← h1] at h2
      exact absurd h2 (by decide)
  · intro h past e he
    have hk := List.idxOf_lt_length_of_mem he
    rw [flatAt, List.getD_eq_getElem?_getD, h _ hk, List.getElem_idxOf]
    rfl

omit past iRow jCol in
theorem hessian_coordinates_iff : (∀ past iRow jCol, HessianCoordinates P M past iRow jCol) ↔
    hesFlat P P.pc.xSize .H <+: hesFlat P P.pc.xSize .G := by
  have hd : (hesFlat P P.pc.xSize .H).Nodup := hesFlat_nodup P (getSizes P M) .H
  rw [← flatAt_iff_prefix hd]
  constructor
  · intro h past
    exact flatAt_of_hessianCoordinates past id id hP (h past id id)
  · intro h past iRow jCol
    exact hessianCoordinates_of_flatAt past iRow jCol hP (h past)

end CoordinateArrays

/-! One state and two parameters; the boundary functions have the Hessian entries `(p1, xf)` and
`(p0, p0)`. The coordinates of the second are taken from the first. -/

section Mixed

def zeroTables : FLGR Rat where
  c := fun _ => 0
  c0 := fun _ => 0
  b := fun _ => 0
  w := fun _ => 0
  w0 := fun _ => 0
  D := fun _ => 0

def oneNode : Mesh zeroTables :=
  Mesh.createEquidistantFixedStages zeroTables 1 1 1 Nat.one_pos Nat.one_pos

def mixed : Problem Rat where
  pc := { hasMayer := true, hasLagrange := false, xBounds := [⟨0, 1⟩], uBounds := []
          pBounds := [⟨0, 1⟩, ⟨0, 1⟩], x0Fixed := [none], xfFixed := [none], rBounds := []
          gBounds := [] }
  full := { f := [{}], g := [] }
  boundary := { M := some {}, r := [], hes := { dpDxf := [⟨1, 0, 0⟩], dpDp := [⟨0, 0, 1⟩] } }
  f_length := rfl
  g_length := rfl
  r_length := rfl

theorem mixed_layoutOk : HessianLayoutOk mixed := by
  constructor <;> intro e he <;> simp [mixed] at he <;> subst he <;> decide

theorem mixed_coordinates :
    ¬ ∀ past iRow jCol, HessianCoordinates mixed oneNode past iRow jCol := by
  intro h
  have hH := (h (fun _ => (0, 0)) id id).H 0 0 (by decide)
  have hw : (((getHesSparsity mixed oneNode (getSizes mixed oneNode) (fun _ => (0, 0)) id
      id).block .H).access 0 0).map (getHesSparsity mixed oneNode (getSizes mixed oneNode)
        (fun _ => (0, 0)) id id).coord = some (3, 2) := by decide
  rw [hw] at hH
  exact absurd hH (by decide)

theorem hessian_coordinates_iff_mixed :
    (∀ past iRow jCol, HessianCoordinates mixed oneNode past iRow jCol) ↔
      [(0, 0)] <+: [(1, 0)] :=
  hessian_coordinates_iff (P := mixed) (M := oneNode) mixed_layoutOk

end Mixed

end GDOP
end Moo
