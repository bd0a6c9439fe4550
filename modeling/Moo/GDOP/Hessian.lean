import Moo.Base.BlockSparsity
import Moo.GDOP.Problem

/-!
# GDOP.Hessian

Assembly of the Lagrangian Hessian (lower triangle): `init_hessian_nonzeros`, `get_hes_sparsity`,
`eval_hes_internal` and the `update_*` functions it calls.

The nonzeros are those of eight blocks. `A` is `x0 / x0`; `C`, `D` are the rows of the last node
(`x0`, last node); `E`, `F`, `G`, `H` are the rows of the parameters (`x0`, the nodes, the last
node, `p`); `B` is every other node with itself. `B` and `F` are repeated for all nodes but the
last: `B` as a whole, `F` within each row.
-/

namespace Moo
namespace GDOP

open Loop Coo

inductive HesBlock where
  | A | B | C | D | E | F | G | H
  deriving Repr, DecidableEq

/-- `BlockSparsity` of each block before anything is inserted. -/
def HesBlock.type : HesBlock → BlockType
  | .B => .offset
  | .F => .rowOffset
  | _ => .exact

section Nonzeros

variable {K : Type} [Field K] {T : FLGR K} (P : Problem K) (M : Mesh T) (offX : Nat)

/-- `hes_A_set` to `hes_H_set`. -/
def hesSet : HesBlock → OrderedIndexSet
  | .A => OrderedIndexSet.empty
      |>.insertSparsity P.boundary.hes.dx0Dx0 0 0
  | .B => OrderedIndexSet.empty
      |>.insertSparsity P.full.hes.dxDx 0 0
      |>.insertSparsity P.full.hes.duDx offX 0
      |>.insertSparsity P.full.hes.duDu offX offX
  | .C => OrderedIndexSet.empty
      |>.insertSparsity P.boundary.hes.dxfDx0 0 0
      |>.insertSparsity P.boundary.hes.dufDx0 offX 0
  | .D => OrderedIndexSet.empty
      |>.insertSparsity P.boundary.hes.dxfDxf 0 0
      |>.insertSparsity P.boundary.hes.dufDxf offX 0
      |>.insertSparsity P.boundary.hes.dufDuf offX offX
      |>.insertSparsity P.full.hes.dxDx 0 0
      |>.insertSparsity P.full.hes.duDx offX 0
      |>.insertSparsity P.full.hes.duDu offX offX
  | .E => OrderedIndexSet.empty
      |>.insertSparsity P.boundary.hes.dpDx0 0 0
  | .F => OrderedIndexSet.empty
      |>.insertSparsity P.full.hes.dpDx 0 0
      |>.insertSparsity P.full.hes.dpDu 0 offX
  | .G => OrderedIndexSet.empty
      |>.insertSparsity P.boundary.hes.dpDxf 0 0
      |>.insertSparsity P.boundary.hes.dpDuf 0 offX
      |>.insertSparsity P.full.hes.dpDx 0 0
      |>.insertSparsity P.full.hes.dpDu 0 offX
  | .H => OrderedIndexSet.empty
      |>.insertSparsity P.boundary.hes.dpDp 0 0
      |>.insertSparsity P.full.ppHes.dpDp 0 0

/-- The sets in iteration order. -/
def hesFlat (X : HesBlock) : List (Nat × Nat) := (hesSet P offX X).elems

/-- `init_hessian_nonzeros`: `nnz_hes`. -/
def initHessianNonzeros : Nat :=
  ((hesFlat P offX .B).length + (hesFlat P offX .F).length) * (M.nodeCount - 1) +
    (hesFlat P offX .A).length + (hesFlat P offX .C).length + (hesFlat P offX .D).length +
    (hesFlat P offX .E).length + (hesFlat P offX .G).length + (hesFlat P offX .H).length

end Nonzeros

/-! ## Well-formed layouts -/

/-- Places of a symmetric block of size `n`: its lower triangle. -/
def TriOk (n : Nat) (l : List HessianSparsity) : Prop := ∀ e ∈ l, e.row < n ∧ e.col ≤ e.row

def RectOk (m n : Nat) (l : List HessianSparsity) : Prop := ∀ e ∈ l, e.row < m ∧ e.col < n

structure HessianLayoutOk {K : Type} (P : Problem K) : Prop where
  dx0Dx0 : TriOk P.pc.xSize P.boundary.hes.dx0Dx0
  dxfDx0 : RectOk P.pc.xSize P.pc.xSize P.boundary.hes.dxfDx0
  dxfDxf : TriOk P.pc.xSize P.boundary.hes.dxfDxf
  dufDx0 : RectOk P.pc.uSize P.pc.xSize P.boundary.hes.dufDx0
  dufDxf : RectOk P.pc.uSize P.pc.xSize P.boundary.hes.dufDxf
  dufDuf : TriOk P.pc.uSize P.boundary.hes.dufDuf
  dpDx0 : RectOk P.pc.pSize P.pc.xSize P.boundary.hes.dpDx0
  dpDxf : RectOk P.pc.pSize P.pc.xSize P.boundary.hes.dpDxf
  dpDuf : RectOk P.pc.pSize P.pc.uSize P.boundary.hes.dpDuf
  dpDp : TriOk P.pc.pSize P.boundary.hes.dpDp
  dxDx : TriOk P.pc.xSize P.full.hes.dxDx
  duDx : RectOk P.pc.uSize P.pc.xSize P.full.hes.duDx
  duDu : TriOk P.pc.uSize P.full.hes.duDu
  dpDx : RectOk P.pc.pSize P.pc.xSize P.full.hes.dpDx
  dpDu : RectOk P.pc.pSize P.pc.uSize P.full.hes.dpDu
  ppDpDp : TriOk P.pc.pSize P.full.ppHes.dpDp

/-- Where the places of each block lie. -/
def HesBlock.Inside {K : Type} (pc : ProblemConstants K) (e : Nat × Nat) : HesBlock → Prop
  | .A => e.1 < pc.xSize ∧ e.2 ≤ e.1
  | .B => e.1 < pc.xuSize ∧ e.2 ≤ e.1
  | .C => e.1 < pc.xuSize ∧ e.2 < pc.xSize
  | .D => e.1 < pc.xuSize ∧ e.2 ≤ e.1
  | .E => e.1 < pc.pSize ∧ e.2 < pc.xSize
  | .F => e.1 < pc.pSize ∧ e.2 < pc.xuSize
  | .G => e.1 < pc.pSize ∧ e.2 < pc.xuSize
  | .H => e.1 < pc.pSize ∧ e.2 ≤ e.1

theorem HessianLayoutOk.inside {K : Type} {P : Problem K} (hP : HessianLayoutOk P) {X : HesBlock}
    {e : Nat × Nat} (he : e ∈ hesFlat P P.pc.xSize X) : X.Inside P.pc e := by
  have hxu : P.pc.xuSize = P.pc.xSize + P.pc.uSize := rfl
  cases X with
  | A =>
    simp only [hesFlat, hesSet, OrderedIndexSet.mem_insertSparsity,
      OrderedIndexSet.not_mem_empty, false_or] at he
    obtain ⟨coo, hm, rfl⟩ := he
    exact hP.dx0Dx0 coo hm
  | B =>
    simp only [hesFlat, hesSet, OrderedIndexSet.mem_insertSparsity,
      OrderedIndexSet.not_mem_empty, false_or] at he
    rcases he with (⟨coo, hm, rfl⟩ | ⟨coo, hm, rfl⟩) | ⟨coo, hm, rfl⟩
    · have := hP.dxDx coo hm
      dsimp only [HesBlock.Inside]
      omega
    · have := hP.duDx coo hm
      dsimp only [HesBlock.Inside]
      omega
    · have := hP.duDu coo hm
      dsimp only [HesBlock.Inside]
      omega
  | C =>
    simp only [hesFlat, hesSet, OrderedIndexSet.mem_insertSparsity,
      OrderedIndexSet.not_mem_empty, false_or] at he
    rcases he with ⟨coo, hm, rfl⟩ | ⟨coo, hm, rfl⟩
    · have := hP.dxfDx0 coo hm
      dsimp only [HesBlock.Inside]
      omega
    · have := hP.dufDx0 coo hm
      dsimp only [HesBlock.Inside]
      omega
  | D =>
    simp only [hesFlat, hesSet, OrderedIndexSet.mem_insertSparsity,
      OrderedIndexSet.not_mem_empty, false_or] at he
    dsimp only [HesBlock.Inside]
    rcases he with ((((⟨coo, hm, rfl⟩ | ⟨coo, hm, rfl⟩) | ⟨coo, hm, rfl⟩) | ⟨coo, hm, rfl⟩) |
      ⟨coo, hm, rfl⟩) | ⟨coo, hm, rfl⟩
    · have := hP.dxfDxf coo hm
      omega
    · have := hP.dufDxf coo hm
      omega
    · have := hP.dufDuf coo hm
      omega
    · have := hP.dxDx coo hm
      omega
    · have := hP.duDx coo hm
      omega
    · have := hP.duDu coo hm
      omega
  | E =>
    simp only [hesFlat, hesSet, OrderedIndexSet.mem_insertSparsity,
      OrderedIndexSet.not_mem_empty, false_or] at he
    obtain ⟨coo, hm, rfl⟩ := he
    exact hP.dpDx0 coo hm
  | F =>
    simp only [hesFlat, hesSet, OrderedIndexSet.mem_insertSparsity,
      OrderedIndexSet.not_mem_empty, false_or] at he
    dsimp only [HesBlock.Inside]
    rcases he with ⟨coo, hm, rfl⟩ | ⟨coo, hm, rfl⟩
    · have := hP.dpDx coo hm
      omega
    · have := hP.dpDu coo hm
      omega
  | G =>
    simp only [hesFlat, hesSet, OrderedIndexSet.mem_insertSparsity,
      OrderedIndexSet.not_mem_empty, false_or] at he
    dsimp only [HesBlock.Inside]
    rcases he with ((⟨coo, hm, rfl⟩ | ⟨coo, hm, rfl⟩) | ⟨coo, hm, rfl⟩) | ⟨coo, hm, rfl⟩
    · have := hP.dpDxf coo hm
      omega
    · have := hP.dpDuf coo hm
      omega
    · have := hP.dpDx coo hm
      omega
    · have := hP.dpDu coo hm
      omega
  | H =>
    simp only [hesFlat, hesSet, OrderedIndexSet.mem_insertSparsity,
      OrderedIndexSet.not_mem_empty, false_or] at he
    rcases he with ⟨coo, hm, rfl⟩ | ⟨coo, hm, rfl⟩
    · exact hP.dpDp coo hm
    · exact hP.ppDpDp coo hm

/-- `hes_nnz_counter`, `i_row_hes`, `j_col_hes` and the eight block tables. -/
structure HesState where
  counter : Nat
  iRow : Nat → Nat
  jCol : Nat → Nat
  block : HesBlock → BlockSparsity

namespace HesState

variable (s : HesState)

/-- `i_row_hes[k]`, `j_col_hes[k]`. -/
def coord (k : Nat) : Nat × Nat := (s.iRow k, s.jCol k)

def put (k : Nat) (c : Nat × Nat) : HesState :=
  { s with iRow := Function.update s.iRow k c.1, jCol := Function.update s.jCol k c.2 }

/-- An update of one of the tables. -/
def modify (X : HesBlock) (f : BlockSparsity → BlockSparsity) : HesState :=
  { s with block := Function.update s.block X (f (s.block X)) }

def insert (X : HesBlock) (e : Nat × Nat) (index : Nat) : HesState :=
  s.modify X fun b => b.insert e.1 e.2 index

/-- One pass of an exact block: the coordinates, the table entry, `hes_nnz_counter++`. -/
def emit (X : HesBlock) (e c : Nat × Nat) : HesState :=
  { (s.put s.counter c).insert X e s.counter with counter := s.counter + 1 }

end HesState

/-- `while (index < flat.int_size() && flat[index].first == row) { …; index++; }` with the pass
`f`. -/
def rowLoop {σ : Type} (flat : List (Nat × Nat)) (f : Nat → σ → σ) (row : Nat) (t : σ × Nat) :
    σ × Nat :=
  whileLoop flat.length
    (fun t => decide (t.2 < flat.length) && (flat.getD t.2 (0, 0)).1 == row)
    (fun t => (f t.2 t.1, t.2 + 1)) t

/-- Reading a flattened set: `past` is what lies behind the array. -/
def flatAt (flat : List (Nat × Nat)) (past : Nat → Nat × Nat) (k : Nat) : Nat × Nat :=
  flat.getD k (past k)

section Sparsity

variable {K : Type} [Field K] {T : FLGR K} (P : Problem K) (M : Mesh T) (off : Offsets)

def hesPatternA (s : HesState) : HesState :=
  (hesFlat P off.offX .A).foldl (fun s e => s.emit .A e (e.1, e.2)) s

/-- The table of `B`, with a counter of its own. -/
def hesInsertB (s : HesState) : HesState × Nat :=
  let (s, blockBNnz) := (hesFlat P off.offX .B).foldl
    (fun (t : HesState × Nat) e => (t.1.insert .B e t.2, t.2 + 1)) (s, 0)
  (s.modify .B fun b => { b with offPrev := (s.block .A).nnz }, blockBNnz)

/-- The coordinates of a repeated block, for every node but the last. -/
def hesPatternNodes (X : HesBlock) (c : Nat → Nat → Nat × Nat → Nat × Nat) (s : HesState) :
    HesState :=
  M.forNodes (fun i j s =>
    if M.isLast i j then s
    else (hesFlat P off.offX X).foldl (fun s e =>
      s.put ((s.block X).accessAt e.1 e.2 (M.accNodesAt i j)) (c i j e)) s) s

/-- One pass of the loop over `xu_index`. -/
def hesPatternCD (xuIndex : Nat) (t : HesState × Nat × Nat) : HesState × Nat × Nat :=
  let (s, cIndex, dIndex) := t
  let flatC := hesFlat P off.offX .C
  let flatD := hesFlat P off.offX .D
  let (s, cIndex) := rowLoop flatC (fun k s => s.emit .C (flatC.getD k (0, 0))
    (off.offLastXu + (flatC.getD k (0, 0)).1, (flatC.getD k (0, 0)).2)) xuIndex (s, cIndex)
  let (s, dIndex) := rowLoop flatD (fun k s => s.emit .D (flatD.getD k (0, 0))
    (off.offLastXu + (flatD.getD k (0, 0)).1, off.offLastXu + (flatD.getD k (0, 0)).2))
    xuIndex (s, dIndex)
  (s, cIndex, dIndex)

/-- The row `p_index` of `F`: its offset, its table entries counted from zero, its size. -/
def hesInsertF (pIndex : Nat) (t : HesState × Nat) : HesState × Nat :=
  let (s, fIndex) := t
  let flatF := hesFlat P off.offX .F
  let s := s.modify .F fun b =>
    { b with rowOffsetPrev := Function.update b.rowOffsetPrev pIndex s.counter }
  let ((s, rowFNnz), fIndex) := rowLoop flatF
    (fun k (t : HesState × Nat) => (t.1.insert .F (flatF.getD k (0, 0)) t.2, t.2 + 1))
    pIndex ((s, 0), fIndex)
  let s := s.modify .F fun b => { b with rowSize := Function.update b.rowSize pIndex rowFNnz }
  ({ s with counter := s.counter + (M.nodeCount - 1) * rowFNnz }, fIndex)

structure Cursors where
  eIndex : Nat := 0
  fIndex : Nat := 0
  gIndex : Nat := 0
  hIndex : Nat := 0

/-- One pass of the loop over `p_index`. The coordinates of an `H` entry are read from `G_flat`
at the cursor of `H`. -/
def hesPatternEFGH (past : Nat → Nat × Nat) (pIndex : Nat) (t : HesState × Cursors) :
    HesState × Cursors :=
  let (s, c) := t
  let flatE := hesFlat P off.offX .E
  let flatG := hesFlat P off.offX .G
  let flatH := hesFlat P off.offX .H
  let (s, eIndex) := rowLoop flatE (fun k s => s.emit .E (flatE.getD k (0, 0))
    (off.offXuTotal + (flatE.getD k (0, 0)).1, (flatE.getD k (0, 0)).2)) pIndex (s, c.eIndex)
  let (s, fIndex) := hesInsertF P M off pIndex (s, c.fIndex)
  let (s, gIndex) := rowLoop flatG (fun k s => s.emit .G (flatG.getD k (0, 0))
    (off.offXuTotal + (flatG.getD k (0, 0)).1, off.offLastXu + (flatG.getD k (0, 0)).2))
    pIndex (s, c.gIndex)
  let (s, hIndex) := rowLoop flatH (fun k s => s.emit .H (flatH.getD k (0, 0))
    (off.offXuTotal + (flatAt flatG past k).1, off.offXuTotal + (flatAt flatG past k).2))
    pIndex (s, c.hIndex)
  (s, { eIndex, fIndex, gIndex, hIndex })

/-- `get_hes_sparsity` on the coordinate arrays `iRow`, `jCol` and the block tables `block`. -/
def getHesSparsityFrom (past : Nat → Nat × Nat) (block : HesBlock → BlockSparsity)
    (iRow jCol : Nat → Nat) : HesState :=
  let s : HesState := { counter := 0, iRow, jCol, block }
  let s := hesPatternA P off s
  let (s, blockBNnz) := hesInsertB P off s
  let s := hesPatternNodes P M off .B
    (fun i j e => (off.offAccXu i j + e.1, off.offAccXu i j + e.2)) s
  let s := { s with counter := s.counter + blockBNnz * (M.nodeCount - 1) }
  let (s, _) := forRange off.offXu (hesPatternCD P off) (s, 0, 0)
  let (s, _) := forRange P.pc.pSize (hesPatternEFGH P M off past) (s, {})
  hesPatternNodes P M off .F (fun i j e => (off.offXuTotal + e.1, off.offAccXu i j + e.2)) s

/-- The block tables as `init_hessian_nonzeros` resets them. -/
def resetBlocks (X : HesBlock) : BlockSparsity := { type := X.type }

/-- `get_hes_sparsity` on fresh block tables. -/
def getHesSparsity (past : Nat → Nat × Nat) (iRow jCol : Nat → Nat) : HesState :=
  getHesSparsityFrom P M off past resetBlocks iRow jCol

end Sparsity

section Values

variable {K : Type} [Field K] {T : FLGR K} (P : Problem K) (M : Mesh T) (off : Offsets)
variable (B : Buffers K)

def updateHessianLfg (i j : Nat) (mapXuXu mapPXu : BlockSparsity) (hes : Nat → K) : Nat → K :=
  let layout := P.full.hes
  let blockCount := M.accNodesAt i j
  let hes := layout.dxDx.foldl (fun hes e =>
    addAt hes (mapXuXu.accessAt e.row e.col blockCount, lfgHes P M B e.bufIndex i j)) hes
  let hes := layout.duDx.foldl (fun hes e =>
    addAt hes (mapXuXu.accessAt (off.offX + e.row) e.col blockCount,
      lfgHes P M B e.bufIndex i j)) hes
  let hes := layout.duDu.foldl (fun hes e =>
    addAt hes (mapXuXu.accessAt (off.offX + e.row) (off.offX + e.col) blockCount,
      lfgHes P M B e.bufIndex i j)) hes
  let hes := layout.dpDx.foldl (fun hes e =>
    addAt hes (mapPXu.accessAt e.row e.col blockCount, lfgHes P M B e.bufIndex i j)) hes
  layout.dpDu.foldl (fun hes e =>
    addAt hes (mapPXu.accessAt e.row (off.offX + e.col) blockCount,
      lfgHes P M B e.bufIndex i j)) hes

/-- `curr_hes[block.access(row + rowOff, col + colOff)] += value` over one list of the layout;
`none` when an access aborts. -/
def addEntries (block : BlockSparsity) (rowOff colOff : Nat) (value : Nat → K)
    (l : List HessianSparsity) (hes : Nat → K) : Option (Nat → K) :=
  l.foldlM (fun hes e =>
    (block.access (rowOff + e.row) (colOff + e.col)).map fun k =>
      addAt hes (k, value e.bufIndex)) hes

def updateParameterHessianLfg (s : HesState) (hes : Nat → K) : Option (Nat → K) :=
  addEntries (s.block .H) 0 0 (lfgPpHes B) P.full.ppHes.dpDp hes

def updateHessianMr (s : HesState) (hes : Nat → K) : Option (Nat → K) := do
  let layout := P.boundary.hes
  let hes ← addEntries (s.block .A) 0 0 (mrHes B) layout.dx0Dx0 hes
  let hes ← addEntries (s.block .C) 0 0 (mrHes B) layout.dxfDx0 hes
  let hes ← addEntries (s.block .D) 0 0 (mrHes B) layout.dxfDxf hes
  let hes ← addEntries (s.block .C) off.offX 0 (mrHes B) layout.dufDx0 hes
  let hes ← addEntries (s.block .D) off.offX 0 (mrHes B) layout.dufDxf hes
  let hes ← addEntries (s.block .D) off.offX off.offX (mrHes B) layout.dufDuf hes
  let hes ← addEntries (s.block .E) 0 0 (mrHes B) layout.dpDx0 hes
  let hes ← addEntries (s.block .G) 0 0 (mrHes B) layout.dpDxf hes
  let hes ← addEntries (s.block .G) 0 off.offX (mrHes B) layout.dpDuf hes
  addEntries (s.block .H) 0 0 (mrHes B) layout.dpDp hes

/-- The blocks that the entries of node `(i, j)` belong to. -/
def nodeBlocks (i j : Nat) : HesBlock × HesBlock := if M.isLast i j then (.D, .G) else (.B, .F)

def evalHesInternal (s : HesState) : Option (Nat → K) := do
  let hes := M.forNodes (fun i j hes =>
    updateHessianLfg P M off B i j (s.block (nodeBlocks M i j).1) (s.block (nodeBlocks M i j).2)
      hes) (fun _ => 0)
  let hes ← updateParameterHessianLfg P B s hes
  updateHessianMr P off B s hes

end Values

/-! ## The assertion on insertion

`insert_sparsity` asserts that an entry is of the lower triangle, by the offsets in its block. -/

section Assertion

variable {K : Type} (P : Problem K) (offX : Nat)

/-- A call of `insert_sparsity`. -/
structure InsertCall where
  set : HesBlock
  hes : List HessianSparsity
  rowOff : Nat
  colOff : Nat

/-- The calls of `init_hessian_nonzeros`, in order. -/
def insertCalls : List InsertCall :=
  [⟨.A, P.boundary.hes.dx0Dx0, 0, 0⟩, ⟨.C, P.boundary.hes.dxfDx0, 0, 0⟩,
    ⟨.C, P.boundary.hes.dufDx0, offX, 0⟩, ⟨.D, P.boundary.hes.dxfDxf, 0, 0⟩,
    ⟨.D, P.boundary.hes.dufDxf, offX, 0⟩, ⟨.D, P.boundary.hes.dufDuf, offX, offX⟩,
    ⟨.E, P.boundary.hes.dpDx0, 0, 0⟩, ⟨.G, P.boundary.hes.dpDxf, 0, 0⟩,
    ⟨.G, P.boundary.hes.dpDuf, 0, offX⟩, ⟨.H, P.boundary.hes.dpDp, 0, 0⟩,
    ⟨.B, P.full.hes.dxDx, 0, 0⟩, ⟨.B, P.full.hes.duDx, offX, 0⟩,
    ⟨.B, P.full.hes.duDu, offX, offX⟩, ⟨.D, P.full.hes.dxDx, 0, 0⟩,
    ⟨.D, P.full.hes.duDx, offX, 0⟩, ⟨.D, P.full.hes.duDu, offX, offX⟩,
    ⟨.F, P.full.hes.dpDx, 0, 0⟩, ⟨.F, P.full.hes.dpDu, 0, offX⟩,
    ⟨.G, P.full.hes.dpDx, 0, 0⟩, ⟨.G, P.full.hes.dpDu, 0, offX⟩,
    ⟨.H, P.full.ppHes.dpDp, 0, 0⟩]

/-- They are what the sets are made of. -/
theorem hesSet_insertCalls (X : HesBlock) : hesSet P offX X =
    ((insertCalls P offX).filter fun call => call.set = X).foldl
      (fun set call => set.insertSparsity call.hes call.rowOff call.colOff)
      OrderedIndexSet.empty := by
  cases X <;> rfl

def InsertAssertions : Prop :=
  ∀ call ∈ insertCalls P offX, OrderedIndexSet.InsertAssert call.hes call.rowOff call.colOff

/-- The entries of the rectangular blocks that start at the diagonal of their local indices are
below it. -/
structure RectanglesLower : Prop where
  dxfDx0 : ∀ e ∈ P.boundary.hes.dxfDx0, e.col ≤ e.row
  dpDx0 : ∀ e ∈ P.boundary.hes.dpDx0, e.col ≤ e.row
  dpDxf : ∀ e ∈ P.boundary.hes.dpDxf, e.col ≤ e.row
  dpDuf : ∀ e ∈ P.boundary.hes.dpDuf, P.pc.xSize + e.col ≤ e.row
  dpDx : ∀ e ∈ P.full.hes.dpDx, e.col ≤ e.row
  dpDu : ∀ e ∈ P.full.hes.dpDu, P.pc.xSize + e.col ≤ e.row

variable {P}

theorem InsertAssertions.lower (h : InsertAssertions P P.pc.xSize) : RectanglesLower P := by
  have call (X : HesBlock) (hes : List HessianSparsity) (rowOff colOff : Nat)
      (hm : ⟨X, hes, rowOff, colOff⟩ ∈ insertCalls P P.pc.xSize) :
      ∀ e ∈ hes, colOff + e.col ≤ rowOff + e.row := by
    intro e he
    have := h _ hm e he
    dsimp only at this
    omega
  refine ⟨fun e he => ?_, fun e he => ?_, fun e he => ?_, fun e he => ?_, fun e he => ?_,
    fun e he => ?_⟩
  · have := call .C _ 0 0 (by simp [insertCalls]) e he
    omega
  · have := call .E _ 0 0 (by simp [insertCalls]) e he
    omega
  · have := call .G _ 0 0 (by simp [insertCalls]) e he
    omega
  · have := call .G _ 0 P.pc.xSize (by simp [insertCalls]) e he
    omega
  · have := call .F _ 0 0 (by simp [insertCalls]) e he
    omega
  · have := call .F _ 0 P.pc.xSize (by simp [insertCalls]) e he
    omega

/-- The symmetric blocks are lower triangular, and a control row lies below every state column; of
the other blocks the assertion asks that they are lower triangular too. -/
theorem insert_assertions_iff (hP : HessianLayoutOk P) :
    InsertAssertions P P.pc.xSize ↔ RectanglesLower P := by
  refine ⟨InsertAssertions.lower, fun h call hcall e he => ?_⟩
  have tri {n off : Nat} {l : List HessianSparsity} (hl : TriOk n l) (he : e ∈ l) :
      e.row + off ≥ e.col + off := by
    have := hl e he
    omega
  have rect {m : Nat} {l : List HessianSparsity} (hl : RectOk m P.pc.xSize l) (he : e ∈ l) :
      e.row + P.pc.xSize ≥ e.col + 0 := by
    have := hl e he
    omega
  simp only [insertCalls, List.mem_cons, List.not_mem_nil, or_false] at hcall
  rcases hcall with rfl | rfl | rfl | rfl | rfl | rfl | rfl | rfl | rfl | rfl | rfl | rfl | rfl |
    rfl | rfl | rfl | rfl | rfl | rfl | rfl | rfl
  · exact tri hP.dx0Dx0 he
  · exact h.dxfDx0 e he
  · exact rect hP.dufDx0 he
  · exact tri hP.dxfDxf he
  · exact rect hP.dufDxf he
  · exact tri hP.dufDuf he
  · exact h.dpDx0 e he
  · exact h.dpDxf e he
  · exact Nat.add_comm P.pc.xSize e.col ▸ h.dpDuf e he
  · exact tri hP.dpDp he
  · exact tri hP.dxDx he
  · exact rect hP.duDx he
  · exact tri hP.duDu he
  · exact tri hP.dxDx he
  · exact rect hP.duDx he
  · exact tri hP.duDu he
  · exact h.dpDx e he
  · exact Nat.add_comm P.pc.xSize e.col ▸ h.dpDu e he
  · exact h.dpDx e he
  · exact Nat.add_comm P.pc.xSize e.col ▸ h.dpDu e he
  · exact tri hP.ppDpDp he

/-- Two states, and a boundary function with `d² / dx1(tf) dx0(t0)` the wrong way round. -/
def crossed : Problem ℚ where
  pc := { hasMayer := true, hasLagrange := false, xBounds := [⟨0, 1⟩, ⟨0, 1⟩], uBounds := []
          pBounds := [], x0Fixed := [none, none], xfFixed := [none, none], rBounds := []
          gBounds := [] }
  full := { f := [{}, {}], g := [] }
  boundary := { M := some {}, r := [], hes := { dxfDx0 := [⟨0, 1, 0⟩] } }
  f_length := rfl
  g_length := rfl
  r_length := rfl

theorem crossed_layoutOk : HessianLayoutOk crossed := by
  constructor <;> intro e he <;> simp [crossed] at he
  subst he
  decide

theorem insert_assertion_fails :
    ¬ ∀ P : Problem ℚ, HessianLayoutOk P → InsertAssertions P P.pc.xSize := by
  intro h
  exact absurd ((h crossed crossed_layoutOk).lower.dxfDx0 ⟨0, 1, 0⟩ List.mem_cons_self) (by decide)

theorem insert_assertions_iff_crossed :
    InsertAssertions crossed crossed.pc.xSize ↔ RectanglesLower crossed :=
  insert_assertions_iff crossed_layoutOk

end Assertion

end GDOP
end Moo
