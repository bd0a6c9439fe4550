import Mathlib.Algebra.Order.Field.Basic
import Mathlib.Tactic.NormNum.OfScientific
import Moo.Lib.Coo
import Moo.Lib.Segment

/-!
# Base.FLGR

The flipped Legendre-Gauss-Radau schemes: tables, quadrature, differentiation, interpolation.

The node, weight and differentiation tables are flat arrays; scheme `m` starts at
`offsetLinear m` (`m` entries), `offsetLinear0 m` (`m + 1` entries) or `offsetQuadratic m`
(`(m + 1)²` entries). The numbers themselves are a parameter (`FLGR K`): what is proved holds for
every content of the tables, and a result that needs a fact about the nodes says which.
-/

namespace Moo

open Loop

structure FLGR (K : Type) where
  c : Nat → K
  c0 : Nat → K
  b : Nat → K
  w : Nat → K
  w0 : Nat → K
  D : Nat → K

namespace FLGR

variable {K : Type} (T : FLGR K)

def offsetLinear (scheme : Nat) : Nat := (scheme - 1) * scheme / 2
def offsetQuadratic (scheme : Nat) : Nat := scheme * (scheme + 1) * (2 * scheme + 1) / 6
def offsetLinear0 (scheme : Nat) : Nat := scheme * (scheme + 1) / 2

def getC (scheme index : Nat) : K := T.c (offsetLinear scheme + index)
def getB (scheme index : Nat) : K := T.b (offsetLinear scheme + index)
def getW (scheme index : Nat) : K := T.w (offsetLinear scheme + index)
def getC0 (scheme index : Nat) : K := T.c0 (offsetLinear0 scheme + index)
def getW0 (scheme index : Nat) : K := T.w0 (offsetLinear0 scheme + index)
def getD (scheme row col : Nat) : K := T.D (offsetQuadratic scheme + row * (scheme + 1) + col)

section Field

variable [Field K]

/-- `Linalg::dot` with the quadrature weights. -/
def integrate (scheme : Nat) (values : Nat → K) : K :=
  forRange scheme (fun i ret => ret + values i * T.getB scheme i) 0

/-- `Linalg::matrix_vector` in row-major format with the differentiation matrix: the first
`scheme + 1` cells of `out` are cleared and filled, the rest keeps its content. -/
def diffMatrixMultiply (scheme : Nat) (inp : Nat → K) (out : Nat → K) : Nat → K :=
  forRange (scheme + 1) (fun row out =>
    forRange (scheme + 1) (fun col out =>
      Function.update out row (out row + T.getD scheme row col * inp col)) out)
    (fun k => if k < scheme + 1 then 0 else out k)

/-- A cell of the product. -/
theorem diffMatrixMultiply_apply (scheme : Nat) (inp out : Nat → K) (k : Nat) :
    T.diffMatrixMultiply scheme inp out k =
      if k < scheme + 1 then ∑ col ∈ Finset.range (scheme + 1), T.getD scheme k col * inp col
      else out k := by
  have row : ∀ (r n : Nat) (a : Nat → K), forRange n (fun col out =>
      Function.update out r (out r + T.getD scheme r col * inp col)) a =
        Function.update a r (a r + ∑ col ∈ Finset.range n, T.getD scheme r col * inp col) := by
    intro r n a
    induction n with
    | zero => simp
    | succ n ih => rw [forRange_succ, ih, Finset.sum_range_succ]; simp [add_assoc]
  have inv := forRange_inv (n := scheme + 1)
    (P := fun r (a : Nat → K) => ∀ k, a k =
      if k < r then ∑ col ∈ Finset.range (scheme + 1), T.getD scheme k col * inp col
      else if k < scheme + 1 then 0 else out k)
    (f := fun r out => forRange (scheme + 1) (fun col out =>
      Function.update out r (out r + T.getD scheme r col * inp col)) out)
    (s := fun k => if k < scheme + 1 then 0 else out k) (fun k => rfl) ?_
  · rw [diffMatrixMultiply, inv k]
    split <;> rfl
  · intro r hr a ha k
    rw [row]
    by_cases h : k = r
    · rw [h, Function.update_self, ha r, if_neg (lt_irrefl r), if_pos hr, zero_add,
        if_pos (Nat.lt_succ_self r)]
    · rw [Function.update_of_ne h, ha k]
      exact if_congr (by omega) rfl rfl

/-- One block of collocation constraints: row `row` of `D` against the previous state and the
states of the interval, added onto `out` with stride `outStride`. The pointer `out` of the source
is the array `g` with the index `base` it points to. -/
def diffMatrixMultiplyBlockStrided (scheme xSize xStride outStride : Nat) (xPrev xNew : Nat → K)
    (base : Nat) (g : Nat → K) : Nat → K :=
  forFrom 1 (scheme + 1) (fun row g =>
    let outRowBase := (row - 1) * outStride
    forRange xSize (fun xIndex g =>
      let outRow := base + (outRowBase + xIndex)
      let g := Function.update g outRow (g outRow + T.getD scheme row 0 * xPrev xIndex)
      forFrom 1 (scheme + 1) (fun col g =>
        Function.update g outRow
          (g outRow + T.getD scheme row col * xNew ((col - 1) * xStride + xIndex))) g) g) g

/-- The additions onto one row of the block. -/
def blockRow (scheme xStride : Nat) (xPrev xNew : Nat → K) (outRow row xIndex : Nat) :
    List (Nat × K) :=
  (outRow, T.getD scheme (row + 1) 0 * xPrev xIndex) ::
    (List.range scheme).map fun col =>
      (outRow, T.getD scheme (row + 1) (col + 1) * xNew (col * xStride + xIndex))

def blockOps (scheme xSize xStride outStride : Nat) (xPrev xNew : Nat → K) (base : Nat) :
    List (Nat × K) :=
  (List.range scheme).flatMap fun row => (List.range xSize).flatMap fun xIndex =>
    T.blockRow scheme xStride xPrev xNew (base + (row * outStride + xIndex)) row xIndex

theorem diffMatrixMultiplyBlockStrided_eq (scheme xSize xStride outStride : Nat)
    (xPrev xNew : Nat → K) (base : Nat) (g : Nat → K) :
    T.diffMatrixMultiplyBlockStrided scheme xSize xStride outStride xPrev xNew base g =
      Coo.accum (T.blockOps scheme xSize xStride outStride xPrev xNew base) g := by
  have row : ∀ (outRow r x : Nat) (a : Nat → K),
      forFrom 1 (scheme + 1) (fun col g => Function.update g outRow
          (g outRow + T.getD scheme (r + 1) col * xNew ((col - 1) * xStride + x)))
        (Function.update a outRow (a outRow + T.getD scheme (r + 1) 0 * xPrev x)) =
      (T.blockRow scheme xStride xPrev xNew outRow r x).foldl Coo.addAt a := by
    intro outRow r x a
    refine (forFrom_step 1 (scheme + 1) Coo.addAt (fun col =>
      (outRow, T.getD scheme (r + 1) col * xNew ((col - 1) * xStride + x))) _).trans ?_
    simp [blockRow, Coo.addAt, Nat.add_comm 1]
  rw [diffMatrixMultiplyBlockStrided, forFrom, Nat.add_sub_cancel]
  refine forRange_foldl (fun r hr t => forRange_foldl (fun x hx t => ?_) t) g
  simp only [Nat.add_comm 1 r, Nat.add_sub_cancel]
  exact row _ r x t

theorem blockRow_key {scheme xStride : Nat} {xPrev xNew : Nat → K} {outRow row xIndex : Nat}
    {e : Nat × K} (he : e ∈ T.blockRow scheme xStride xPrev xNew outRow row xIndex) :
    e.1 = outRow := by
  rcases List.mem_cons.mp he with rfl | he
  · rfl
  · obtain ⟨col, _, rfl⟩ := List.mem_map.mp he
    rfl

theorem blockOps_key {scheme xSize xStride outStride : Nat} {xPrev xNew : Nat → K} {base : Nat}
    {e : Nat × K} (he : e ∈ T.blockOps scheme xSize xStride outStride xPrev xNew base) :
    ∃ row xIndex, row < scheme ∧ xIndex < xSize ∧ e.1 = base + (row * outStride + xIndex) := by
  obtain ⟨row, hr, he⟩ := List.mem_flatMap.mp he
  obtain ⟨x, hx, he⟩ := List.mem_flatMap.mp he
  exact ⟨row, x, List.mem_range.mp hr, List.mem_range.mp hx, T.blockRow_key he⟩

/-- What the block adds onto row `row * outStride + y`: nothing behind the first `xSize` rows of
every stride. -/
theorem blockOps_sum {scheme xSize xStride outStride : Nat} (xPrev xNew : Nat → K) (base : Nat)
    (hs : xSize ≤ outStride) {row y : Nat} (hr : row < scheme) (hy : y < outStride) :
    ((T.blockOps scheme xSize xStride outStride xPrev xNew base).map fun e =>
        if e.1 = base + (row * outStride + y) then e.2 else 0).sum =
      if y < xSize then T.getD scheme (row + 1) 0 * xPrev y + ∑ col ∈ Finset.range scheme,
        T.getD scheme (row + 1) (col + 1) * xNew (col * xStride + y) else 0 := by
  have rows : ∀ r, r < scheme → ∀ e ∈ (List.range xSize).flatMap fun x =>
      T.blockRow scheme xStride xPrev xNew (base + (r * outStride + x)) r x,
      base + r * outStride ≤ e.1 ∧ e.1 < base + (r + 1) * outStride := by
    intro r _ e he
    obtain ⟨x, hx, he⟩ := List.mem_flatMap.mp he
    have := List.mem_range.mp hx
    rw [T.blockRow_key he, Nat.succ_mul]
    omega
  have hb : ∀ r, base + r * outStride ≤ base + (r + 1) * outStride := by
    intro r
    rw [Nat.succ_mul]
    omega
  rw [blockOps, Segment.sum_segment (b := fun row => base + row * outStride) (w := Prod.fst)
    Prod.snd (fun r _ => hb r) rows hr ⟨by omega, by rw [Nat.succ_mul]; omega⟩]
  split
  · rename_i hx
    rw [Segment.sum_segment (b := fun x => base + (row * outStride + x)) (w := Prod.fst) Prod.snd
      (fun x _ => by omega) (fun x _ e he => by rw [T.blockRow_key he]; omega) hx
      ⟨le_rfl, by omega⟩,
      List.map_congr_left (g := Prod.snd) fun e he => if_pos (T.blockRow_key he), blockRow,
      List.map_cons, List.sum_cons, List.map_map, ← sum_map_range]
    rfl
  · rename_i hx
    refine Segment.sum_eq_zero_of_key (w := Prod.fst) _ Prod.snd fun e he => ?_
    obtain ⟨x, hx', he⟩ := List.mem_flatMap.mp he
    have := List.mem_range.mp hx'
    rw [T.blockRow_key he]
    omega

end Field

section Interpolate

variable [Field K] [LinearOrder K]

/-- The match tolerance `1e-14`. -/
def nodeTol : K := 1e-14

/-- Barycentric interpolation. A point within `nodeTol` of a node takes that node's entry of
`values` (the entry at index `j`, whatever the increment). -/
def interpolate (scheme : Nat) (containsZero : Bool) (values : Nat → K) (increment : Nat)
    (intervalStart intervalEnd point : K) : K :=
  let nodes := if containsZero then T.getC0 scheme else T.getC scheme
  let weights := if containsZero then T.getW0 scheme else T.getW scheme
  let nodeCount := scheme + if containsZero then 1 else 0
  let h := intervalEnd - intervalStart
  let nodeStart := nodes 0
  let nodeEnd := nodes (nodeCount - 1)
  if |nodeEnd - nodeStart| < nodeTol ∨ (containsZero = false ∧ scheme = 1) then values 0
  else
    let pointHat := (point - intervalStart) / h * (nodeEnd - nodeStart) + nodeStart
    match (List.range nodeCount).find? (fun j => |pointHat - nodes j| < nodeTol) with
    | some j => values j
    | none =>
      let (numerator, denominator) := forRange nodeCount (fun j (nd : K × K) =>
        let temp := weights j / (pointHat - nodes j)
        (nd.1 + temp * values (increment * j), nd.2 + temp)) (0, 0)
      numerator / denominator

end Interpolate

end FLGR

end Moo
