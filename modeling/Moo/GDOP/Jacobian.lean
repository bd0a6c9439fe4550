import Moo.GDOP.Eval
import Moo.Lib.Tape

/-!
# GDOP.Jacobian

Assembly of the constraint Jacobian: `init_jacobian_nonzeros`, `get_jac_sparsity` and
`eval_jac_g_internal`.

Pattern and values are written by two separate loop nests over the same running `nnz_index`.
Here `nnz_index` with the arrays it addresses is a `Tape`: the pattern loop writes the cells
`(i_row_jac[k], j_col_jac[k], const_der_jac[k])`, the value loop the cells `curr_jac[k]`.
-/

namespace Moo
namespace GDOP

open Loop

/-- `i_row_jac[k]`, `j_col_jac[k]`, `const_der_jac[k]`. -/
structure JacCell (K : Type) where
  row : Nat
  col : Nat
  der : K

namespace JacCell

variable {K : Type}

/-- A callback nonzero: coordinates only, `const_der_jac` keeps its content. -/
def put (row col : Nat) (c : JacCell K) : JacCell K := { c with row := row, col := col }

/-- A nonzero of the differentiation matrix: coordinates and constant value. -/
def putDer (row col : Nat) (d : K) (_ : JacCell K) : JacCell K := ⟨row, col, d⟩

end JacCell

/-- `df_dx_counter < int_size(*df_dx) && (*df_dx)[df_dx_counter].col == x_elem`. -/
def hits (dfDx : List JacobianSparsity) (dfDxCounter xElem : Nat) : Bool :=
  decide (dfDxCounter < dfDx.length) && (dfDx.getD dfDxCounter ⟨0, 0⟩).col == xElem

/-- The merged walk over the state columns that both loop nests contain. Every pass with
`x_elem == f_index` writes the collocation cell (`diag`, which is given the colliding entry of
`df_dx`, if there is one); every other column writes a cell (`elem`) when `df_dx` has it next. -/
def walkDfDx {α : Type} (dfDx : List JacobianSparsity) (fIndex offX : Nat)
    (diag : Option JacobianSparsity → α → α) (elem : Nat → JacobianSparsity → α → α)
    (t : Tape α) : Tape α :=
  (forRange offX (fun xElem (s : Tape α × Nat) =>
    let entry := dfDx.getD s.2 ⟨0, 0⟩
    if xElem = fIndex then
      if hits dfDx s.2 xElem then (s.1.write (diag (some entry)), s.2 + 1)
      else (s.1.write (diag none), s.2)
    else if hits dfDx s.2 xElem then (s.1.write (elem xElem entry), s.2 + 1)
    else s) (t, 0)).1

section Nonzeros

variable {K : Type} [Field K] {T : FLGR K} (P : Problem K) (M : Mesh T)

def nnzF : Nat := forRange P.pc.fSize (fun f n => n + (P.full.fAt f).jac.nnz) 0
def nnzG : Nat := forRange P.pc.gSize (fun g n => n + (P.full.gAt g).jac.nnz) 0
def nnzR : Nat := forRange P.pc.rSize (fun r n => n + (P.boundary.rAt r).jac.nnz) 0

/-- Number of `f` whose own state is among the columns of `df / dx`. -/
def diagonalCollisions : Nat :=
  forRange P.pc.fSize (fun f n => n + (P.full.fAt f).jac.dx.countP (·.col == f)) 0

/-- `off_acc_jac_fg`: first nonzero of every interval, and one past the last. -/
def offAccJacFg (offX : Nat) : Nat → Nat :=
  forRange M.intervals (fun i acc =>
    Function.update acc (i + 1) (acc i + M.nodesAt i *
      ((M.nodesAt i + 1) * offX + nnzF P + nnzG P - diagonalCollisions P))) (fun _ => 0)

/-- `init_jacobian_nonzeros`: the offsets and `nnz_jac`. -/
def initJacobianNonzeros (offX : Nat) : (Nat → Nat) × Nat :=
  let off := offAccJacFg P M offX
  (off, off M.intervals + nnzR P)

end Nonzeros

section Pattern

variable {K : Type} [Field K] {T : FLGR K} (P : Problem K) (M : Mesh T) (off : Offsets)

def jacSparsityRowF (i j fIndex : Nat) (t : Tape (JacCell K)) : Tape (JacCell K) :=
  let eqnIndex := off.offAccFg i j + fIndex
  let fn := P.full.fAt fIndex
  let D := T.getD (M.nodesAt i) (j + 1)
  -- base point states, and the nodes `k < j` of the interval
  let t := t.write (.putDer eqnIndex (offPrev M off i + fIndex) (D 0))
  let t := forRange j
    (fun k t => t.write (.putDer eqnIndex (off.offAccXu i k + fIndex) (D (k + 1)))) t
  let t := walkDfDx fn.jac.dx fIndex off.offX
    (fun _ => .putDer eqnIndex (off.offAccXu i j + fIndex) (D (j + 1)))
    (fun xElem _ => .put eqnIndex (off.offAccXu i j + xElem)) t
  let t := fn.jac.du.foldl
    (fun t dfDu => t.write (.put eqnIndex (off.offAccXu i j + off.offX + dfDu.col))) t
  -- the nodes `k > j`
  let t := forFrom (j + 1) (M.nodesAt i)
    (fun k t => t.write (.putDer eqnIndex (off.offAccXu i k + fIndex) (D (k + 1)))) t
  fn.jac.dp.foldl (fun t dfDp => t.write (.put eqnIndex (off.offXuTotal + dfDp.col))) t

def jacSparsityRowG (i j gIndex : Nat) (t : Tape (JacCell K)) : Tape (JacCell K) :=
  let eqnIndex := off.offAccFg i j + P.pc.fSize + gIndex
  let fn := P.full.gAt gIndex
  let t := fn.jac.dx.foldl
    (fun t dgDx => t.write (.put eqnIndex (off.offAccXu i j + dgDx.col))) t
  let t := fn.jac.du.foldl
    (fun t dgDu => t.write (.put eqnIndex (off.offAccXu i j + off.offX + dgDu.col))) t
  fn.jac.dp.foldl (fun t dgDp => t.write (.put eqnIndex (off.offXuTotal + dgDp.col))) t

/-- One pass of the loop over the intervals, `nnz_index` set to `off_acc_jac_fg[i]` first. -/
def jacSparsityInterval (accJac : Nat → Nat) (i : Nat) (t : Tape (JacCell K)) :
    Tape (JacCell K) :=
  forRange (M.nodesAt i) (fun j t =>
    forRange P.pc.gSize (jacSparsityRowG P off i j)
      (forRange P.pc.fSize (jacSparsityRowF P M off i j) t)) { t with pos := accJac i }

def jacSparsityRowR (rIndex : Nat) (t : Tape (JacCell K)) : Tape (JacCell K) :=
  let eqnIndex := off.offFgTotal + rIndex
  let fn := P.boundary.rAt rIndex
  let t := fn.jac.dx0.foldl (fun t drDx0 => t.write (.put eqnIndex drDx0.col)) t
  let t := fn.jac.dxf.foldl (fun t drDxf => t.write (.put eqnIndex (off.offLastXu + drDxf.col))) t
  let t := fn.jac.duf.foldl
    (fun t drDuf => t.write (.put eqnIndex (off.offLastXu + off.offX + drDuf.col))) t
  fn.jac.dp.foldl (fun t drDp => t.write (.put eqnIndex (off.offXuTotal + drDp.col))) t

/-- `get_jac_sparsity` on the arrays `cells`; the result holds the final `nnz_index`. -/
def getJacSparsity (accJac : Nat → Nat) (cells : Nat → JacCell K) : Tape (JacCell K) :=
  let t := forRange M.intervals (jacSparsityInterval P M off accJac) ⟨0, cells⟩
  forRange P.pc.rSize (jacSparsityRowR P off) { t with pos := accJac M.intervals }

end Pattern

/-! ## The pattern queried again

Every cell is overwritten by constants, in part or in full, or left alone. So the second query
of a pattern leaves the arrays as the first one did. -/

section Again

open Tape

variable {K : Type}

/-- The given parts are overwritten. -/
def JacCell.over (rc : Option (Nat × Nat)) (d : Option K) (c : JacCell K) : JacCell K :=
  ⟨(rc.map Prod.fst).getD c.row, (rc.map Prod.snd).getD c.col, d.getD c.der⟩

theorem JacCell.over_over (rc rc' : Option (Nat × Nat)) (d d' : Option K) (c : JacCell K) :
    JacCell.over rc d (JacCell.over rc' d' c) = JacCell.over (rc.or rc') (d.or d') c := by
  cases rc <;> cases d <;> rfl

variable (K) in
def Overwrites : CellClass (JacCell K) where
  mem := fun f => ∃ rc d, f = JacCell.over rc d
  id_mem := ⟨none, none, rfl⟩
  comp_mem := by
    rintro _ _ ⟨rc, d, rfl⟩ ⟨rc', d', rfl⟩
    exact ⟨rc.or rc', d.or d', funext (JacCell.over_over rc rc' d d')⟩

theorem Overwrites.idem {f : JacCell K → JacCell K} (hf : (Overwrites K).mem f) (c : JacCell K) :
    f (f c) = f c := by
  obtain ⟨rc, d, rfl⟩ := hf
  rw [JacCell.over_over]
  cases rc <;> cases d <;> rfl

theorem put_mem (row col : Nat) : (Overwrites K).mem (JacCell.put row col) :=
  ⟨some (row, col), none, rfl⟩

theorem putDer_mem (row col : Nat) (d : K) : (Overwrites K).mem (JacCell.putDer row col d) :=
  ⟨some (row, col), some d, rfl⟩

theorem cellwise_walkDfDx {α : Type} {C : CellClass α} (dfDx : List JacobianSparsity)
    (fIndex offX : Nat) {diag : Option JacobianSparsity → α → α}
    {elem : Nat → JacobianSparsity → α → α} (hd : ∀ e, C.mem (diag e))
    (he : ∀ x e, C.mem (elem x e)) :
    Cellwise C (walkDfDx dfDx fIndex offX diag elem) := by
  refine Cellwise.forRange_state
    (g := fun xElem s t => if xElem = fIndex then
      (if hits dfDx s xElem then t.write (diag (some (dfDx.getD s ⟨0, 0⟩)))
        else t.write (diag none))
      else if hits dfDx s xElem then t.write (elem xElem (dfDx.getD s ⟨0, 0⟩)) else t)
    (v := fun xElem s => if hits dfDx s xElem then s + 1 else s) (fun x t s => ?_)
    (fun x s => ?_) 0
  · dsimp only
    split_ifs <;> rfl
  · by_cases h1 : x = fIndex
    · by_cases h2 : hits dfDx s x
      · simp only [if_pos h1, if_pos h2]
        exact Cellwise.write (hd _)
      · simp only [if_pos h1, if_neg h2]
        exact Cellwise.write (hd _)
    · by_cases h2 : hits dfDx s x
      · simp only [if_neg h1, if_pos h2]
        exact Cellwise.write (he _ _)
      · simp only [if_neg h1, if_neg h2]
        exact Cellwise.id

variable [Field K] {T : FLGR K} (P : Problem K) (M : Mesh T) (off : Offsets)

theorem cellwise_rowF (i j fIndex : Nat) :
    Cellwise (Overwrites K) (jacSparsityRowF P M off i j fIndex) := by
  refine (Cellwise.foldl _ fun _ => .write (put_mem _ _)).comp ?_
  refine Cellwise.comp (.forRange fun _ => .write (putDer_mem _ _ _)) ?_
  refine (Cellwise.foldl _ fun _ => .write (put_mem _ _)).comp ?_
  refine (cellwise_walkDfDx _ _ _ (fun _ => putDer_mem _ _ _) fun _ _ => put_mem _ _).comp ?_
  exact Cellwise.comp (.forRange fun _ => .write (putDer_mem _ _ _)) (.write (putDer_mem _ _ _))

omit [Field K] in
theorem cellwise_rowG (i j gIndex : Nat) :
    Cellwise (Overwrites K) (jacSparsityRowG P off i j gIndex) :=
  (Cellwise.foldl _ fun _ => .write (put_mem _ _)).comp
    ((Cellwise.foldl _ fun _ => .write (put_mem _ _)).comp
      (.foldl _ fun _ => .write (put_mem _ _)))

omit [Field K] in
theorem cellwise_rowR (rIndex : Nat) : Cellwise (Overwrites K) (jacSparsityRowR P off rIndex) :=
  (Cellwise.foldl _ fun _ => .write (put_mem _ _)).comp
    ((Cellwise.foldl _ fun _ => .write (put_mem _ _)).comp
      ((Cellwise.foldl _ fun _ => .write (put_mem _ _)).comp
        (.foldl _ fun _ => .write (put_mem _ _))))

theorem cellwise_interval (accJac : Nat → Nat) (i : Nat) :
    Cellwise (Overwrites K) (jacSparsityInterval P M off accJac i) := by
  refine Cellwise.comp (G := forRange (M.nodesAt i) _) (.forRange fun j => ?_) (.seek _)
  exact Cellwise.comp (.forRange (cellwise_rowG P off i j)) (.forRange (cellwise_rowF P M off i j))

/-- What the query does to each cell. -/
theorem getJacSparsity_cells (accJac : Nat → Nat) :
    ∃ φ : Nat → JacCell K → JacCell K, (∀ k, (Overwrites K).mem (φ k)) ∧
      ∀ cells, (getJacSparsity P M off accJac cells).cells = fun k => φ k (cells k) := by
  have h : Cellwise (Overwrites K) fun t => forRange P.pc.rSize (jacSparsityRowR P off)
      { forRange M.intervals (jacSparsityInterval P M off accJac) t with
        pos := accJac M.intervals } :=
    Cellwise.comp (.forRange (cellwise_rowR P off))
      ((Cellwise.seek _).comp (.forRange (cellwise_interval P M off accJac)))
  obtain ⟨q, φ, hφ, e⟩ := h 0
  exact ⟨φ, hφ, fun cells => congrArg Tape.cells (e cells)⟩

end Again

section Values

variable {K : Type} [Field K] {T : FLGR K} (P : Problem K) (M : Mesh T) (off : Offsets)
variable (B : Buffers K)

def evalJacRowF (i j fIndex : Nat) (t : Tape K) : Tape K :=
  let fn := P.full.fAt fIndex
  let t := t.skip (j + 1)
  let t := walkDfDx fn.jac.dx fIndex off.offX
    (fun collision v => match collision with
      | some dfDx => v - M.deltaTAt i * lfgJac P M B dfDx.bufIndex i j
      | none => v)
    (fun _ dfDx v => v - M.deltaTAt i * lfgJac P M B dfDx.bufIndex i j) t
  let t := fn.jac.du.foldl
    (fun t dfDu => t.write fun _ => -M.deltaTAt i * lfgJac P M B dfDu.bufIndex i j) t
  let t := t.skip (M.nodesAt i - j - 1)
  fn.jac.dp.foldl
    (fun t dfDp => t.write fun _ => -M.deltaTAt i * lfgJac P M B dfDp.bufIndex i j) t

def evalJacRowG (i j gIndex : Nat) (t : Tape K) : Tape K :=
  let fn := P.full.gAt gIndex
  let t := fn.jac.dx.foldl (fun t dgDx => t.write fun _ => lfgJac P M B dgDx.bufIndex i j) t
  let t := fn.jac.du.foldl (fun t dgDu => t.write fun _ => lfgJac P M B dgDu.bufIndex i j) t
  fn.jac.dp.foldl (fun t dgDp => t.write fun _ => lfgJac P M B dgDp.bufIndex i j) t

def evalJacInterval (accJac : Nat → Nat) (i : Nat) (t : Tape K) : Tape K :=
  forRange (M.nodesAt i) (fun j t =>
    forRange P.pc.gSize (evalJacRowG P M B i j)
      (forRange P.pc.fSize (evalJacRowF P M off B i j) t)) { t with pos := accJac i }

def evalJacRowR (rIndex : Nat) (t : Tape K) : Tape K :=
  let fn := P.boundary.rAt rIndex
  let t := fn.jac.dx0.foldl (fun t drDx0 => t.write fun _ => mrJac B drDx0.bufIndex) t
  let t := fn.jac.dxf.foldl (fun t drDxf => t.write fun _ => mrJac B drDxf.bufIndex) t
  let t := fn.jac.duf.foldl (fun t drDuf => t.write fun _ => mrJac B drDuf.bufIndex) t
  fn.jac.dp.foldl (fun t drDp => t.write fun _ => mrJac B drDp.bufIndex) t

/-- `eval_jac_g_internal`: `curr_jac` starts as a copy of `const_der_jac`. -/
def evalJacGInternal (accJac : Nat → Nat) (constDerJac : Nat → K) : Tape K :=
  let t := forRange M.intervals (evalJacInterval P M off B accJac) ⟨0, constDerJac⟩
  forRange P.pc.rSize (evalJacRowR P B) { t with pos := accJac M.intervals }

end Values

end GDOP
end Moo
