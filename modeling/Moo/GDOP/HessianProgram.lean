import Moo.GDOP.HessianLayout

/-!
# GDOP.HessianProgram

`get_hes_sparsity` as straight-line code: which commands come next does not depend on the tables
or the arrays.

* `HesCmd`, `exec`: the commands. `hesProgram`: their list; `getHesSparsityFrom_eq`: the loops run
  it.
* `Counted d o s s'`: states that differ in the counters of their tables only. Commands keep it
  (`Counted.exec`), and so the arrays when no coordinate of `B` is moved (`SameArrays.exec`).
* `getHesSparsityFrom_nnz`: every query counts its entries once more.
-/

namespace Moo
namespace GDOP

open Loop

inductive HesCmd where
  | emit (X : HesBlock) (e c : Nat × Nat)
  | tableB (es : List (Nat × Nat))
  | put (X : HesBlock) (e : Nat × Nat) (node : Nat) (c : Nat × Nat)
  | skip (n : Nat)
  | rowF (p : Nat) (es : List (Nat × Nat)) (nodes : Nat)

namespace HesState

variable (s : HesState)

def skip (n : Nat) : HesState := { s with counter := s.counter + n }

def setRowOffset (p : Nat) : HesState :=
  s.modify .F fun b => { b with rowOffsetPrev := Function.update b.rowOffsetPrev p s.counter }

def setRowSize (p n : Nat) : HesState :=
  s.modify .F fun b => { b with rowSize := Function.update b.rowSize p n }

def setOffPrev : HesState := s.modify .B fun b => { b with offPrev := (s.block .A).nnz }

/-- Insertions with numbers of their own, as the table of `B` and the rows of `F` are filled. -/
def inserts (X : HesBlock) (es : List (Nat × Nat)) : HesState × Nat :=
  es.foldl (fun t e => (t.1.insert X e t.2, t.2 + 1)) (s, 0)

end HesState

namespace HesCmd

def exec (s : HesState) : HesCmd → HesState
  | emit X e c => s.emit X e c
  | tableB es => (s.inserts .B es).1.setOffPrev
  | put X e node c => s.put ((s.block X).accessAt e.1 e.2 node) c
  | skip n => s.skip n
  | rowF p es nodes =>
    let t := (s.setRowOffset p).inserts .F es
    (t.1.setRowSize p t.2).skip (nodes * t.2)

/-- The table a command writes. -/
def table : HesCmd → Option HesBlock
  | emit X _ _ => some X
  | tableB _ => some .B
  | put _ _ _ _ => none
  | skip _ => none
  | rowF _ _ _ => some .F

def IsPut : HesCmd → Prop
  | put _ _ _ _ => True
  | _ => False

end HesCmd

open HesCmd

def execs (s : HesState) (cmds : List HesCmd) : HesState := cmds.foldl exec s

theorem execs_cons (s : HesState) (cmd : HesCmd) (cmds : List HesCmd) :
    execs s (cmd :: cmds) = execs (exec s cmd) cmds := rfl

theorem execs_append (s : HesState) (cmds cmds' : List HesCmd) :
    execs s (cmds ++ cmds') = execs (execs s cmds) cmds' := List.foldl_append ..

/-! ## The program -/

section Program

variable {K : Type} [Field K] {T : FLGR K} (P : Problem K) (M : Mesh T) (off : Offsets)

def emits (X : HesBlock) (es : List (Nat × Nat)) (c : Nat × Nat → Nat × Nat) : List HesCmd :=
  es.map fun e => .emit X e (c e)

def putsNodes (X : HesBlock) (c : Nat → Nat → Nat × Nat → Nat × Nat) : List HesCmd :=
  M.nodeOps fun i j =>
    if M.isLast i j then []
    else (hesFlat P off.offX X).map fun e => .put X e (M.accNodesAt i j) (c i j e)

def programAB : List HesCmd :=
  emits .A (hesFlat P off.offX .A) (fun e => (e.1, e.2)) ++ [.tableB (hesFlat P off.offX .B)]

def programCD (x : Nat) : List HesCmd :=
  emits .C (flatRow P off .C x) (fun e => (off.offLastXu + e.1, e.2)) ++
    emits .D (flatRow P off .D x) (fun e => (off.offLastXu + e.1, off.offLastXu + e.2))

def programEFGH (past : Nat → Nat × Nat) (p : Nat) : List HesCmd :=
  emits .E (flatRow P off .E p) (fun e => (off.offXuTotal + e.1, e.2)) ++
    [.rowF p (flatRow P off .F p) (M.nodeCount - 1)] ++
    emits .G (flatRow P off .G p) (fun e => (off.offXuTotal + e.1, off.offLastXu + e.2)) ++
    emits .H (flatRow P off .H p) fun e =>
      let g := flatAt (hesFlat P off.offX .G) past ((hesFlat P off.offX .H).idxOf e)
      (off.offXuTotal + g.1, off.offXuTotal + g.2)

/-- The commands between the coordinates of `B` and those of `F`. -/
def programRows (past : Nat → Nat × Nat) : List HesCmd :=
  .skip ((hesFlat P off.offX .B).length * (M.nodeCount - 1)) ::
    ((List.range off.offXu).flatMap (programCD P off) ++
      (List.range P.pc.pSize).flatMap (programEFGH P M off past))

def putsB : List HesCmd :=
  putsNodes P M off .B fun i j e => (off.offAccXu i j + e.1, off.offAccXu i j + e.2)

def putsF : List HesCmd :=
  putsNodes P M off .F fun i j e => (off.offXuTotal + e.1, off.offAccXu i j + e.2)

def hesProgram (past : Nat → Nat × Nat) : List HesCmd :=
  programAB P off ++ (putsB P M off ++ (programRows P M off past ++ putsF P M off))

omit [Field K] in
theorem execs_emits (X : HesBlock) (es : List (Nat × Nat)) (c : Nat × Nat → Nat × Nat)
    (s : HesState) : execs s (emits X es c) = es.foldl (fun s e => s.emit X e (c e)) s :=
  List.foldl_map ..

theorem execs_putsNodes (X : HesBlock) (c : Nat → Nat → Nat × Nat → Nat × Nat) (s : HesState) :
    execs s (putsNodes P M off X c) = hesPatternNodes P M off X c s := by
  refine (M.forNodes_foldl (fun i j _ _ t => ?_) s).symm
  split
  · rfl
  · rw [List.foldl_map]
    rfl

omit [Field K] in
/-- The loop at `x` emits row `x`. -/
theorem rowLoop_emits {X : HesBlock} (x : Nat) {c : Nat → Nat × Nat} {f : Nat × Nat → Nat × Nat}
    (hc : ∀ k e, (hesFlat P off.offX X)[k]? = some e → c k = f e) (s : HesState) :
    rowLoop (hesFlat P off.offX X)
        (fun k s => s.emit X ((hesFlat P off.offX X).getD k (0, 0)) (c k)) x
        (s, Cursor.below Prod.fst (hesFlat P off.offX X) x) =
      (execs s (emits X (flatRow P off X x) f),
        Cursor.below Prod.fst (hesFlat P off.offX X) (x + 1)) := by
  rw [execs_emits]
  refine rowLoop_eq (hesFlat_sorted P off X) (fun k e hk s => ?_) x s
  rw [hc k e hk, List.getD_eq_getElem?_getD, hk, Option.getD_some]

omit [Field K] in
theorem hesPatternCD_eq (x : Nat) (s : HesState) :
    hesPatternCD P off x (s, Cursor.below Prod.fst (hesFlat P off.offX .C) x,
        Cursor.below Prod.fst (hesFlat P off.offX .D) x) =
      (execs s (programCD P off x), Cursor.below Prod.fst (hesFlat P off.offX .C) (x + 1),
        Cursor.below Prod.fst (hesFlat P off.offX .D) (x + 1)) := by
  have hC := rowLoop_emits P off (X := .C) x
    (c := fun k => (off.offLastXu + ((hesFlat P off.offX .C).getD k (0, 0)).1,
      ((hesFlat P off.offX .C).getD k (0, 0)).2))
    (f := fun e => (off.offLastXu + e.1, e.2))
    (fun k e hk => by simp [List.getD_eq_getElem?_getD, hk]) s
  have hD := rowLoop_emits P off (X := .D) x
    (c := fun k => (off.offLastXu + ((hesFlat P off.offX .D).getD k (0, 0)).1,
      off.offLastXu + ((hesFlat P off.offX .D).getD k (0, 0)).2))
    (f := fun e => (off.offLastXu + e.1, off.offLastXu + e.2))
    (fun k e hk => by simp [List.getD_eq_getElem?_getD, hk])
  simp only [hesPatternCD, hC, hD, programCD, execs_append]

theorem hesInsertF_eq (p : Nat) (s : HesState) :
    hesInsertF P M off p (s, Cursor.below Prod.fst (hesFlat P off.offX .F) p) =
      (exec s (.rowF p (flatRow P off .F p) (M.nodeCount - 1)),
        Cursor.below Prod.fst (hesFlat P off.offX .F) (p + 1)) := by
  have hf : ∀ k e, (hesFlat P off.offX .F)[k]? = some e → ∀ t : HesState × Nat,
      (t.1.insert .F ((hesFlat P off.offX .F).getD k (0, 0)) t.2, t.2 + 1) =
        (t.1.insert .F e t.2, t.2 + 1) := by
    intro k e hk t
    rw [List.getD_eq_getElem?_getD, hk, Option.getD_some]
  simp only [hesInsertF, rowLoop_eq (hesFlat_sorted P off .F) hf p]
  rfl

theorem hesPatternEFGH_eq (past : Nat → Nat × Nat) (p : Nat) (s : HesState) :
    hesPatternEFGH P M off past p (s, ⟨Cursor.below Prod.fst (hesFlat P off.offX .E) p,
        Cursor.below Prod.fst (hesFlat P off.offX .F) p,
        Cursor.below Prod.fst (hesFlat P off.offX .G) p,
        Cursor.below Prod.fst (hesFlat P off.offX .H) p⟩) =
      (execs s (programEFGH P M off past p), ⟨Cursor.below Prod.fst (hesFlat P off.offX .E) (p + 1),
        Cursor.below Prod.fst (hesFlat P off.offX .F) (p + 1),
        Cursor.below Prod.fst (hesFlat P off.offX .G) (p + 1),
        Cursor.below Prod.fst (hesFlat P off.offX .H) (p + 1)⟩) := by
  have hE := rowLoop_emits P off (X := .E) p
    (c := fun k => (off.offXuTotal + ((hesFlat P off.offX .E).getD k (0, 0)).1,
      ((hesFlat P off.offX .E).getD k (0, 0)).2))
    (f := fun e => (off.offXuTotal + e.1, e.2))
    (fun k e hk => by simp [List.getD_eq_getElem?_getD, hk]) s
  have hG := rowLoop_emits P off (X := .G) p
    (c := fun k => (off.offXuTotal + ((hesFlat P off.offX .G).getD k (0, 0)).1,
      off.offLastXu + ((hesFlat P off.offX .G).getD k (0, 0)).2))
    (f := fun e => (off.offXuTotal + e.1, off.offLastXu + e.2))
    (fun k e hk => by simp [List.getD_eq_getElem?_getD, hk])
  have hH := rowLoop_emits P off (X := .H) p
    (c := fun k => (off.offXuTotal + (flatAt (hesFlat P off.offX .G) past k).1,
      off.offXuTotal + (flatAt (hesFlat P off.offX .G) past k).2))
    (f := fun e =>
      let g := flatAt (hesFlat P off.offX .G) past ((hesFlat P off.offX .H).idxOf e)
      (off.offXuTotal + g.1, off.offXuTotal + g.2))
    (fun k e hk => by
      obtain ⟨hlt, he⟩ := List.getElem?_eq_some_iff.mp hk
      simp only [← he, (hesFlat_nodup P off .H).idxOf_getElem])
  simp only [hesPatternEFGH, hE, hesInsertF_eq, hG, hH, programEFGH, execs_append]
  rfl

/-- The loops run the program. -/
theorem getHesSparsityFrom_eq (past : Nat → Nat × Nat) (block : HesBlock → BlockSparsity)
    (iRow jCol : Nat → Nat) : getHesSparsityFrom P M off past block iRow jCol =
      execs { counter := 0, iRow, jCol, block } (hesProgram P M off past) := by
  have hCD (s : HesState) : forRange off.offXu (hesPatternCD P off) (s, 0, 0) =
      (execs s ((List.range off.offXu).flatMap (programCD P off)),
        Cursor.below Prod.fst (hesFlat P off.offX .C) off.offXu,
        Cursor.below Prod.fst (hesFlat P off.offX .D) off.offXu) := by
    refine forRange_inv (P := fun x t => t = (execs s ((List.range x).flatMap (programCD P off)),
      Cursor.below Prod.fst (hesFlat P off.offX .C) x,
      Cursor.below Prod.fst (hesFlat P off.offX .D) x)) (by simp [execs]) ?_
    rintro x - t rfl
    rw [hesPatternCD_eq, List.range_succ, List.flatMap_append, List.flatMap_singleton,
      execs_append]
  have hEH (s : HesState) : forRange P.pc.pSize (hesPatternEFGH P M off past) (s, {}) =
      (execs s ((List.range P.pc.pSize).flatMap (programEFGH P M off past)),
        ⟨Cursor.below Prod.fst (hesFlat P off.offX .E) P.pc.pSize,
        Cursor.below Prod.fst (hesFlat P off.offX .F) P.pc.pSize,
        Cursor.below Prod.fst (hesFlat P off.offX .G) P.pc.pSize,
        Cursor.below Prod.fst (hesFlat P off.offX .H) P.pc.pSize⟩) := by
    refine forRange_inv (σ := HesState × Cursors) (P := fun p t => t =
      (execs s ((List.range p).flatMap (programEFGH P M off past)),
        ⟨Cursor.below Prod.fst (hesFlat P off.offX .E) p,
        Cursor.below Prod.fst (hesFlat P off.offX .F) p,
        Cursor.below Prod.fst (hesFlat P off.offX .G) p,
        Cursor.below Prod.fst (hesFlat P off.offX .H) p⟩)) (by simp [execs]) ?_
    rintro p - t rfl
    rw [hesPatternEFGH_eq, List.range_succ, List.flatMap_append, List.flatMap_singleton,
      execs_append]
  have hAB : ∀ s, (hesInsertB P off (hesPatternA P off s)).1 = execs s (programAB P off) :=
    fun s => by rw [programAB, execs_append, execs_emits]; rfl
  simp only [getHesSparsityFrom, hesInsertB_snd, hAB, hCD, hEH, hesProgram, putsB, putsF,
    execs_append, execs_putsNodes, programRows, execs_cons]
  rfl

end Program

/-! ## What the commands leave alone -/

section Frame

variable {s : HesState} {cmd : HesCmd} {cmds : List HesCmd}

theorem HesState.modify_block_ne (s : HesState) {X Y : HesBlock} (h : Y ≠ X)
    (f : BlockSparsity → BlockSparsity) : (s.modify X f).block Y = s.block Y :=
  Function.update_of_ne h ..

theorem HesState.modify_block_self (s : HesState) (X : HesBlock)
    (f : BlockSparsity → BlockSparsity) : (s.modify X f).block X = f (s.block X) :=
  Function.update_self ..

theorem inserts_frame (s : HesState) (X : HesBlock) (es : List (Nat × Nat)) :
    (s.inserts X es).1.counter = s.counter ∧ (∀ k, (s.inserts X es).1.coord k = s.coord k) ∧
      (s.inserts X es).2 = es.length ∧
      ((s.inserts X es).1.block X).nnz = (s.block X).nnz + es.length ∧
      ∀ Y, Y ≠ X → (s.inserts X es).1.block Y = s.block Y := by
  induction es using List.reverseRecOn with
  | nil => exact ⟨rfl, fun _ => rfl, rfl, rfl, fun _ _ => rfl⟩
  | append_singleton es e ih =>
    obtain ⟨h1, h2, h3, h4, h5⟩ := ih
    have he : s.inserts X (es ++ [e]) =
        ((s.inserts X es).1.insert X e (s.inserts X es).2, (s.inserts X es).2 + 1) := by
      rw [HesState.inserts, List.foldl_append]
      rfl
    rw [he, List.length_append, List.length_singleton, h3]
    refine ⟨h1, h2, rfl, ?_, fun Y hY => ?_⟩
    · rw [HesState.insert, HesState.modify_block_self, BlockSparsity.insert, h4]
      exact Nat.add_assoc ..
    · rw [HesState.insert, HesState.modify_block_ne _ hY, h5 Y hY]

theorem exec_block_ne {Y : HesBlock} (h : cmd.table ≠ some Y) :
    (exec s cmd).block Y = s.block Y := by
  cases cmd with
  | emit X e c => exact s.emit_block_ne (fun hY => h (congrArg some hY.symm)) e c
  | tableB es =>
    have hY : Y ≠ .B := fun hY => h (congrArg some hY.symm)
    rw [exec, HesState.setOffPrev, HesState.modify_block_ne _ hY]
    exact (inserts_frame s .B es).2.2.2.2 Y hY
  | put X e node c => rfl
  | skip n => rfl
  | rowF p es nodes =>
    have hY : Y ≠ .F := fun hY => h (congrArg some hY.symm)
    dsimp only [exec, HesState.skip]
    rw [HesState.setRowSize, HesState.modify_block_ne _ hY,
      (inserts_frame _ .F es).2.2.2.2 Y hY, HesState.setRowOffset, HesState.modify_block_ne _ hY]

theorem execs_block_ne {Y : HesBlock} (h : ∀ cmd ∈ cmds, cmd.table ≠ some Y) :
    (execs s cmds).block Y = s.block Y := by
  induction cmds generalizing s with
  | nil => rfl
  | cons cmd cmds ih =>
    rw [execs_cons, ih fun cmd' hm => h cmd' (List.mem_cons_of_mem _ hm),
      exec_block_ne (h cmd List.mem_cons_self)]

/-- A command that is no `put` writes below the counter it leaves. -/
theorem exec_frame (h : ¬ cmd.IsPut) : s.counter ≤ (exec s cmd).counter ∧
    ∀ k, (exec s cmd).counter ≤ k → (exec s cmd).coord k = s.coord k := by
  cases cmd with
  | emit X e c =>
    refine ⟨Nat.le_succ _, fun k hk => ?_⟩
    have hk : s.counter + 1 ≤ k := hk
    exact (s.emit_coord X e c k).trans (if_neg (by omega))
  | tableB es =>
    obtain ⟨h1, h2, -⟩ := inserts_frame s .B es
    exact ⟨h1.symm.le, fun k _ => h2 k⟩
  | put X e node c => exact absurd trivial h
  | skip n => exact ⟨Nat.le_add_right _ _, fun _ _ => rfl⟩
  | rowF p es nodes =>
    obtain ⟨h1, h2, -⟩ := inserts_frame (s.setRowOffset p) .F es
    exact ⟨h1.symm.le.trans (Nat.le_add_right _ _), fun k _ => h2 k⟩

variable (s cmds) in
theorem execs_frame (h : ∀ cmd ∈ cmds, ¬ cmd.IsPut) : s.counter ≤ (execs s cmds).counter ∧
    ∀ k, (execs s cmds).counter ≤ k → (execs s cmds).coord k = s.coord k := by
  induction cmds generalizing s with
  | nil => exact ⟨le_rfl, fun _ _ => rfl⟩
  | cons cmd cmds ih =>
    obtain ⟨h1, h2⟩ := exec_frame (s := s) (h cmd List.mem_cons_self)
    obtain ⟨h3, h4⟩ := ih (exec s cmd) fun cmd' hm => h cmd' (List.mem_cons_of_mem _ hm)
    exact ⟨h1.trans h3, fun k hk => (h4 k hk).trans (h2 k (h3.trans hk))⟩

variable (s cmds) in
/-- `put` writes coordinates only. -/
theorem execs_puts (h : ∀ cmd ∈ cmds, cmd.IsPut) :
    (execs s cmds).counter = s.counter ∧ (execs s cmds).block = s.block := by
  induction cmds generalizing s with
  | nil => exact ⟨rfl, rfl⟩
  | cons cmd cmds ih =>
    obtain ⟨h1, h2⟩ := ih (exec s cmd) fun cmd' hm => h cmd' (List.mem_cons_of_mem _ hm)
    cases cmd with
    | put X e node c => exact ⟨h1, h2⟩
    | _ => exact absurd (h _ List.mem_cons_self) id

variable (s cmds) in
/-- Coordinates are put at the slots of their entries. -/
theorem execs_puts_coord (k : Nat) (h : ∀ cmd ∈ cmds, ∃ X e node c, cmd = .put X e node c ∧
      s.slot ⟨X, e.1, e.2, node⟩ ≠ k) : (execs s cmds).coord k = s.coord k := by
  induction cmds generalizing s with
  | nil => rfl
  | cons cmd cmds ih =>
    obtain ⟨X, e, node, c, rfl, hk⟩ := h cmd List.mem_cons_self
    have hrest := ih (exec s (.put X e node c)) fun cmd' hm =>
      h cmd' (List.mem_cons_of_mem _ hm)
    exact hrest.trans ((s.put_coord _ c k).trans (if_neg (Ne.symm hk)))

end Frame

/-! ## Tables that count differently -/

/-- The table with more entries counted, in itself and before it. -/
def recount (b : BlockSparsity) (d o : Nat) : BlockSparsity :=
  { b with nnz := b.nnz + d, offPrev := b.offPrev + o }

theorem recount_accessAt (b : BlockSparsity) (d o row col node : Nat) :
    (recount b d o).accessAt row col node =
      b.accessAt row col node + if b.type = .offset then o + d * node else 0 := by
  unfold BlockSparsity.accessAt recount
  cases hb : b.type with
  | exact => simp [BlockSparsity.cellAt]
  | offset =>
    simp only [BlockSparsity.cellAt, if_true]
    rw [Nat.add_mul]
    omega
  | rowOffset => simp [BlockSparsity.cellAt]

structure Counted (d o : HesBlock → Nat) (s s' : HesState) : Prop where
  type : ∀ X, (s.block X).type = X.type
  counter : s'.counter = s.counter
  block : ∀ X, s'.block X = recount (s.block X) (d X) (o X)

section Counted

variable {d o : HesBlock → Nat} {s s' : HesState} {cmd : HesCmd} {cmds : List HesCmd}

theorem Counted.modify (h : Counted d o s s') (X : HesBlock) {f f' : BlockSparsity → BlockSparsity}
    (ht : ∀ b, (f b).type = b.type) (hf : ∀ b, f' (recount b (d X) (o X)) =
      recount (f b) (d X) (o X)) : Counted d o (s.modify X f) (s'.modify X f') where
  type := by
    intro Y
    by_cases hY : Y = X
    · rw [hY, HesState.modify_block_self, ht]
      exact h.type X
    · rw [HesState.modify_block_ne _ hY]
      exact h.type Y
  counter := h.counter
  block := by
    intro Y
    by_cases hY : Y = X
    · rw [hY, HesState.modify_block_self, HesState.modify_block_self, h.block, hf]
    · rw [HesState.modify_block_ne _ hY, HesState.modify_block_ne _ hY]
      exact h.block Y

theorem Counted.insert (h : Counted d o s s') (X : HesBlock) (e : Nat × Nat) (index : Nat) :
    Counted d o (s.insert X e index) (s'.insert X e index) := by
  refine h.modify X (fun _ => rfl) fun b => ?_
  simp only [recount, BlockSparsity.insert, BlockSparsity.mk.injEq, true_and, and_true]
  omega

theorem Counted.skip (h : Counted d o s s') (n : Nat) : Counted d o (s.skip n) (s'.skip n) :=
  ⟨h.type, congrArg (· + n) h.counter, h.block⟩

theorem Counted.put (h : Counted d o s s') (k k' : Nat) (c : Nat × Nat) :
    Counted d o (s.put k c) (s'.put k' c) := ⟨h.type, h.counter, h.block⟩

theorem Counted.inserts (h : Counted d o s s') (X : HesBlock) (es : List (Nat × Nat)) :
    Counted d o (s.inserts X es).1 (s'.inserts X es).1 := by
  have key : ∀ (es : List (Nat × Nat)) (n : Nat) {s s' : HesState}, Counted d o s s' →
      Counted d o (es.foldl (fun t e => (t.1.insert X e t.2, t.2 + 1)) (s, n)).1
        (es.foldl (fun t e => (t.1.insert X e t.2, t.2 + 1)) (s', n)).1 := by
    intro es
    induction es with
    | nil => exact fun _ _ _ h => h
    | cons e es ih => exact fun n _ _ h => ih (n + 1) (h.insert X e n)
  exact key es 0 h

theorem Counted.setRowOffset (h : Counted d o s s') (p : Nat) :
    Counted d o (s.setRowOffset p) (s'.setRowOffset p) :=
  h.modify .F (fun _ => rfl) fun b => by rw [h.counter]; rfl

theorem Counted.setRowSize (h : Counted d o s s') (p n : Nat) :
    Counted d o (s.setRowSize p n) (s'.setRowSize p n) :=
  h.modify .F (fun _ => rfl) fun _ => rfl

/-- The entries of `A` that are counted stand before `B`. -/
theorem Counted.setOffPrev (h : Counted d o s s') :
    Counted d (Function.update o .B (d .A)) s.setOffPrev s'.setOffPrev where
  type := by
    intro Y
    by_cases hY : Y = .B
    · rw [hY, HesState.setOffPrev, HesState.modify_block_self]
      exact h.type .B
    · rw [HesState.setOffPrev, HesState.modify_block_ne _ hY]
      exact h.type Y
  counter := h.counter
  block := by
    intro Y
    by_cases hY : Y = .B
    · rw [hY, HesState.setOffPrev, HesState.setOffPrev, HesState.modify_block_self,
        HesState.modify_block_self, h.block, h.block, Function.update_self]
      rfl
    · rw [HesState.setOffPrev, HesState.setOffPrev, HesState.modify_block_ne _ hY,
        HesState.modify_block_ne _ hY, Function.update_of_ne hY]
      exact h.block Y

theorem Counted.exec (h : Counted d o s s') (hc : cmd.table ≠ some .B) :
    Counted d o (exec s cmd) (exec s' cmd) := by
  cases cmd with
  | emit X e c =>
    have hi := ((h.put s.counter s'.counter c).insert X e s.counter).skip 1
    have he : HesCmd.exec s' (.emit X e c) =
        ((s'.put s'.counter c).insert X e s.counter).skip 1 := by
      rw [← h.counter]
      rfl
    rw [he]
    exact hi
  | tableB es => exact absurd rfl hc
  | put X e node c => exact h.put _ _ c
  | skip n => exact h.skip n
  | rowF p es nodes =>
    have h1 := (h.setRowOffset p).inserts .F es
    dsimp only [HesCmd.exec]
    rw [(inserts_frame _ .F es).2.2.1, (inserts_frame _ .F es).2.2.1]
    exact (h1.setRowSize p es.length).skip _

theorem Counted.execs (h : Counted d o s s') (hc : ∀ cmd ∈ cmds, cmd.table ≠ some .B) :
    Counted d o (execs s cmds) (execs s' cmds) := by
  induction cmds generalizing s s' with
  | nil => exact h
  | cons cmd cmds ih =>
    exact ih (h.exec (hc cmd List.mem_cons_self)) fun cmd' hm => hc cmd' (List.mem_cons_of_mem _ hm)

/-! The arrays stay the same as long as no coordinate of `B` is moved. -/

def SameArrays (s s' : HesState) : Prop := s'.iRow = s.iRow ∧ s'.jCol = s.jCol

/-- The place where a command puts coordinates is not moved. -/
def HesCmd.Still (d o : HesBlock → Nat) : HesCmd → Prop
  | put X _ node _ => X = .B → o X + d X * node = 0
  | _ => True

theorem Counted.slot (h : Counted d o s s') (a : Addr) :
    s'.slot a = s.slot a + if a.blk = .B then o .B + d .B * a.node else 0 := by
  rw [HesState.slot, h.block, recount_accessAt, h.type, HesState.slot]
  obtain ⟨X, r, c, n⟩ := a
  cases X <;> rfl

theorem SameArrays.inserts (h : SameArrays s s') (X : HesBlock) (es : List (Nat × Nat)) :
    SameArrays (s.inserts X es).1 (s'.inserts X es).1 := by
  have key (s : HesState) (k : Nat) := (inserts_frame s X es).2.1 k
  refine ⟨funext fun k => ?_, funext fun k => ?_⟩
  · exact (congrArg Prod.fst (key s' k)).trans
      ((congrFun h.1 k).trans (congrArg Prod.fst (key s k)).symm)
  · exact (congrArg Prod.snd (key s' k)).trans
      ((congrFun h.2 k).trans (congrArg Prod.snd (key s k)).symm)

theorem SameArrays.setOffPrev (h : SameArrays s s') : SameArrays s.setOffPrev s'.setOffPrev := h

theorem SameArrays.put (h : SameArrays s s') {k k' : Nat} (hk : k' = k) (c : Nat × Nat) :
    SameArrays (s.put k c) (s'.put k' c) := by
  subst hk
  exact ⟨by rw [HesState.put, HesState.put, h.1], by rw [HesState.put, HesState.put, h.2]⟩

theorem SameArrays.exec (h : SameArrays s s') (hd : Counted d o s s') (hs : cmd.Still d o) :
    SameArrays (exec s cmd) (exec s' cmd) := by
  cases cmd with
  | emit X e c => exact h.put hd.counter c
  | tableB es => exact h.inserts .B es
  | put X e node c =>
    refine h.put ((hd.slot ⟨X, e.1, e.2, node⟩).trans ?_) c
    by_cases hX : X = .B
    · subst hX
      rw [if_pos rfl, hs rfl]
      rfl
    · rw [if_neg hX]
      rfl
  | skip n => exact h
  | rowF p es nodes =>
    have hrow : SameArrays (s.setRowOffset p) (s'.setRowOffset p) := h
    exact hrow.inserts .F es

theorem SameArrays.execs (h : SameArrays s s') (hd : Counted d o s s')
    (hc : ∀ cmd ∈ cmds, cmd.table ≠ some .B) (hs : ∀ cmd ∈ cmds, cmd.Still d o) :
    SameArrays (execs s cmds) (execs s' cmds) := by
  induction cmds generalizing s s' with
  | nil => exact h
  | cons cmd cmds ih =>
    exact ih (h.exec hd (hs cmd List.mem_cons_self)) (hd.exec (hc cmd List.mem_cons_self))
      (fun cmd' hm => hc cmd' (List.mem_cons_of_mem _ hm))
      fun cmd' hm => hs cmd' (List.mem_cons_of_mem _ hm)

end Counted

/-! ## The whole program on tables that hold entries -/

section Tables

variable {K : Type} [Field K] {T : FLGR K} (P : Problem K) (M : Mesh T) (off : Offsets)
variable (past : Nat → Nat × Nat)

theorem mem_putsNodes {X : HesBlock} {c : Nat → Nat → Nat × Nat → Nat × Nat} {cmd : HesCmd}
    (h : cmd ∈ putsNodes P M off X c) : ∃ e node c', node < M.nodeCount - 1 ∧
      e ∈ hesFlat P off.offX X ∧ cmd = .put X e node c' := by
  obtain ⟨i, hi, h⟩ := List.mem_flatMap.mp h
  obtain ⟨j, hj, h⟩ := List.mem_flatMap.mp h
  have hi := List.mem_range.mp hi
  have hj := List.mem_range.mp hj
  dsimp only at h
  split at h
  · cases h
  · rename_i hlast
    obtain ⟨e, he, rfl⟩ := List.mem_map.mp h
    have hlt := M.accNodesAt_lt hi hj
    have hne : M.accNodesAt i j ≠ M.nodeCount - 1 := fun h => hlast ((M.isLast_iff hi hj).mpr h)
    exact ⟨e, _, _, by omega, he, rfl⟩

omit [Field K] in
theorem mem_emits {X : HesBlock} {es : List (Nat × Nat)} {c : Nat × Nat → Nat × Nat} {cmd : HesCmd}
    (h : cmd ∈ emits X es c) : cmd.table = some X ∧ ¬ cmd.IsPut := by
  obtain ⟨e, -, rfl⟩ := List.mem_map.mp h
  exact ⟨rfl, id⟩

theorem programRows_table {cmd : HesCmd} (h : cmd ∈ programRows P M off past) :
    (cmd.table ≠ some .A ∧ cmd.table ≠ some .B) ∧ ¬ cmd.IsPut := by
  have other {X : HesBlock} (ht : cmd.table = some X ∧ ¬ cmd.IsPut) (hA : X ≠ .A) (hB : X ≠ .B) :
      (cmd.table ≠ some .A ∧ cmd.table ≠ some .B) ∧ ¬ cmd.IsPut := by
    rw [ht.1]
    exact ⟨⟨fun e => hA (Option.some.inj e), fun e => hB (Option.some.inj e)⟩, ht.2⟩
  rcases List.mem_cons.mp h with rfl | h
  · exact ⟨⟨nofun, nofun⟩, id⟩
  rcases List.mem_append.mp h with h | h
  · obtain ⟨x, -, h⟩ := List.mem_flatMap.mp h
    rcases List.mem_append.mp h with h | h
    · exact other (mem_emits h) nofun nofun
    · exact other (mem_emits h) nofun nofun
  · obtain ⟨p, -, h⟩ := List.mem_flatMap.mp h
    simp only [programEFGH, List.mem_append, List.mem_singleton] at h
    rcases h with ((h | rfl) | h) | h
    · exact other (mem_emits h) nofun nofun
    · exact ⟨⟨nofun, nofun⟩, id⟩
    · exact other (mem_emits h) nofun nofun
    · exact other (mem_emits h) nofun nofun

/-- What comes behind the tables of `A` and `B`. -/
def programRest : List HesCmd := putsB P M off ++ (programRows P M off past ++ putsF P M off)

theorem programRest_table {cmd : HesCmd} (h : cmd ∈ programRest P M off past) :
    cmd.table ≠ some .A ∧ cmd.table ≠ some .B := by
  rw [programRest, putsB, putsF, List.mem_append, List.mem_append] at h
  rcases h with h | h | h
  · obtain ⟨_, _, _, -, -, rfl⟩ := mem_putsNodes P M off h
    exact ⟨nofun, nofun⟩
  · exact (programRows_table P M off past h).1
  · obtain ⟨_, _, _, -, -, rfl⟩ := mem_putsNodes P M off h
    exact ⟨nofun, nofun⟩

variable (block : HesBlock → BlockSparsity) (iRow jCol : Nat → Nat)

/-- The entries of `A` and `B` are counted once more. -/
theorem getHesSparsityFrom_nnz :
    ((getHesSparsityFrom P M off past block iRow jCol).block .A).nnz =
        (block .A).nnz + (hesFlat P off.offX .A).length ∧
      ((getHesSparsityFrom P M off past block iRow jCol).block .B).nnz =
        (block .B).nnz + (hesFlat P off.offX .B).length := by
  rw [getHesSparsityFrom_eq, show hesProgram P M off past =
    programAB P off ++ programRest P M off past from rfl, execs_append,
    execs_block_ne fun cmd h => (programRest_table P M off past h).1,
    execs_block_ne fun cmd h => (programRest_table P M off past h).2, programAB, execs_append,
    execs_emits]
  obtain ⟨s, hs⟩ : ∃ s, (hesFlat P off.offX .A).foldl
      (fun (s : HesState) e => s.emit .A e (e.1, e.2))
      ({ counter := 0, iRow, jCol, block } : HesState) = s := ⟨_, rfl⟩
  have hA : (s.block .A).nnz = (block .A).nnz + (hesFlat P off.offX .A).length := by
    rw [← hs, emits_nnz]
  have hB : s.block .B = block .B := by rw [← hs, emits_block (by decide)]
  have h := inserts_frame s .B (hesFlat P off.offX .B)
  have he : execs s [.tableB (hesFlat P off.offX .B)] =
      (s.inserts .B (hesFlat P off.offX .B)).1.setOffPrev := rfl
  rw [hs, he, HesState.setOffPrev, HesState.modify_block_ne _ (by decide),
    HesState.modify_block_self, h.2.2.2.2 .A (by decide)]
  exact ⟨hA, h.2.2.2.1.trans (congrArg (fun b => b.nnz + _) hB)⟩

variable {block} (ht : ∀ X, (block X).type = X.type)

include ht

/-- Entries that were counted before move the coordinates of `B`, and nothing else. -/
theorem getHesSparsityFrom_counted :
    Counted (fun X => (block X).nnz)
        (Function.update (fun X => (block X).offPrev) .B (block .A).nnz)
        (getHesSparsityFrom P M off past (fun X => { block X with nnz := 0, offPrev := 0 }) iRow
          jCol)
        (getHesSparsityFrom P M off past block iRow jCol) ∧
      ((∀ node, node < M.nodeCount - 1 → hesFlat P off.offX .B ≠ [] →
          (block .A).nnz + (block .B).nnz * node = 0) →
        SameArrays
          (getHesSparsityFrom P M off past (fun X => { block X with nnz := 0, offPrev := 0 })
            iRow jCol)
          (getHesSparsityFrom P M off past block iRow jCol)) := by
  rw [getHesSparsityFrom_eq, getHesSparsityFrom_eq, show hesProgram P M off past =
    programAB P off ++ programRest P M off past from rfl, execs_append, execs_append, programAB,
    execs_append, execs_append]
  have h0 : Counted (fun X => (block X).nnz) (fun X => (block X).offPrev)
      { counter := 0, iRow, jCol, block := fun X => { block X with nnz := 0, offPrev := 0 } }
      { counter := 0, iRow, jCol, block } :=
    ⟨ht, rfl, fun X => by rw [recount, Nat.zero_add, Nat.zero_add]⟩
  have a0 : SameArrays
      { counter := 0, iRow, jCol, block := fun X => { block X with nnz := 0, offPrev := 0 } }
      { counter := 0, iRow, jCol, block } := ⟨rfl, rfl⟩
  have hA : ∀ cmd ∈ emits .A (hesFlat P off.offX .A) fun e => (e.1, e.2),
      cmd.table ≠ some .B ∧ cmd.Still (fun X => (block X).nnz) fun X => (block X).offPrev := by
    intro cmd hm
    obtain ⟨e, -, rfl⟩ := List.mem_map.mp hm
    exact ⟨nofun, trivial⟩
  have h1 := h0.execs fun cmd hm => (hA cmd hm).1
  have h2 := (h1.inserts .B (hesFlat P off.offX .B)).setOffPrev
  refine ⟨h2.execs fun cmd hm => (programRest_table P M off past hm).2, fun hB => ?_⟩
  have a1 := a0.execs h0 (fun cmd hm => (hA cmd hm).1) fun cmd hm => (hA cmd hm).2
  refine (a1.inserts .B (hesFlat P off.offX .B)).setOffPrev.execs h2
    (fun cmd hm => (programRest_table P M off past hm).2) fun cmd hm => ?_
  -- only the coordinates of `B` depend on the counts
  rw [programRest, putsB, putsF, List.mem_append, List.mem_append] at hm
  rcases hm with hm | hm | hm
  · obtain ⟨e, node, c, hn, he, rfl⟩ := mem_putsNodes P M off hm
    intro _
    rw [Function.update_self]
    exact hB node hn (List.ne_nil_of_mem he)
  · have hp := (programRows_table P M off past hm).2
    cases cmd with
    | put X e node c => exact absurd trivial hp
    | _ => trivial
  · obtain ⟨e, node, c, -, -, rfl⟩ := mem_putsNodes P M off hm
    exact nofun

end Tables

end GDOP
end Moo
