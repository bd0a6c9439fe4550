import Mathlib.Algebra.CharZero.Defs
import Moo.GDOP.HessianProgram
import Moo.GDOP.HessianValues
import Moo.GDOP.Instance
import Moo.GDOP.JacobianSlots

/-!
# GDOP.SparsityQueries

The sparsity patterns queried again and again, after one `get_nnz`.

* `Arrays.query`: a query works on the arrays and the tables that the query before has left.
* `Repeatable`: the patterns are those of the first queries, nothing is written behind the arrays,
  and evaluations read and write as after the first queries.
* `HesQueried`: the state after `n` queries of the Hessian. The tables of `A` and `B` count their
  entries `n` times, which moves the block `B`.
* `repeatable_iff`: the queries are repeatable if and only if the Hessian is queried once at most,
  or no entry of `B` is moved.
-/

namespace Moo
namespace GDOP

open Loop Coo

inductive Query where
  | jac
  | hes
  deriving Repr, DecidableEq

/-- `i_row_jac`, `j_col_jac` and `const_der_jac`; `i_row_hes`, `j_col_hes` and the block tables. -/
structure Arrays (K : Type) where
  jac : Nat → JacCell K
  hes : HesState

section Queries

variable {K : Type} [Field K] {T : FLGR K} (P : Problem K) (M : Mesh T)
variable (past : Nat → Nat × Nat)

def Arrays.query (s : Arrays K) : Query → Arrays K
  | .jac =>
    { s with
      jac := (getJacSparsity P M (getSizes P M) (initJacobianNonzeros P M P.pc.xSize).1
        s.jac).cells }
  | .hes =>
    { s with hes := getHesSparsityFrom P M (getSizes P M) past s.hes.block s.hes.iRow s.hes.jCol }

def Arrays.queries (s : Arrays K) (qs : List Query) : Arrays K :=
  qs.foldl (Arrays.query P M past) s

/-- After `get_nnz`: no constant derivatives and no entries; the patterns hold anything. -/
def Arrays.opened (iRowJac jColJac iRowHes jColHes : Nat → Nat) : Arrays K where
  jac := fun k => ⟨iRowJac k, jColJac k, 0⟩
  hes := { counter := 0, iRow := iRowHes, jCol := jColHes, block := resetBlocks }

/-- The Jacobian that is evaluated with these constants. -/
def Arrays.evalJac (s : Arrays K) (B : Buffers K) : Nat → K :=
  (evalJacGInternal P M (getSizes P M) B (initJacobianNonzeros P M P.pc.xSize).1
    fun k => (s.jac k).der).cells

def Arrays.evalHes (s : Arrays K) (B : Buffers K) : Option (Nat → K) :=
  evalHesInternal P M (getSizes P M) B s.hes

structure Repeatable (s : Arrays K) (qs : List Query) : Prop where
  jacPattern : .jac ∈ qs → ∀ k, k < (initJacobianNonzeros P M P.pc.xSize).2 →
    (s.queries P M past qs).jac k = (s.query P M past .jac).jac k
  jacInside : ∀ k, (initJacobianNonzeros P M P.pc.xSize).2 ≤ k →
    (s.queries P M past qs).jac k = s.jac k
  hesPattern : .hes ∈ qs → ∀ k, k < initHessianNonzeros P M P.pc.xSize →
    (s.queries P M past qs).hes.coord k = (s.query P M past .hes).hes.coord k
  hesInside : ∀ k, initHessianNonzeros P M P.pc.xSize ≤ k →
    (s.queries P M past qs).hes.coord k = s.hes.coord k
  jacValues : .jac ∈ qs → ∀ B k, k < (initJacobianNonzeros P M P.pc.xSize).2 →
    (s.queries P M past qs).evalJac P M B k = (s.query P M past .jac).evalJac P M B k
  hesValues : .hes ∈ qs → ∀ B,
    (s.queries P M past qs).evalHes P M B = (s.query P M past .hes).evalHes P M B

/-- The Hessian is queried once at most, or `B` is not repeated, empty, or at the start of the array
and not repeated twice. -/
def Unmoved (qs : List Query) : Prop :=
  qs.count .hes ≤ 1 ∨ M.nodeCount = 1 ∨ hesFlat P P.pc.xSize .B = [] ∨
    hesFlat P P.pc.xSize .A = [] ∧ M.nodeCount = 2

instance (qs : List Query) : Decidable (Unmoved P M qs) :=
  inferInstanceAs (Decidable (_ ∨ _ ∨ _ ∨ _ ∧ _))

variable {P M past} {s : Arrays K} {qs : List Query}

theorem queries_append_singleton (q : Query) :
    s.queries P M past (qs ++ [q]) = (s.queries P M past qs).query P M past q := by
  rw [Arrays.queries, List.foldl_append]
  rfl

/-! ## The Jacobian -/

/-- However often it is queried, the cells are those of the first query. -/
theorem queries_jac : (s.queries P M past qs).jac =
    if .jac ∈ qs then (s.query P M past .jac).jac else s.jac := by
  obtain ⟨φ, hφ, e⟩ := getJacSparsity_cells P M (getSizes P M)
    (initJacobianNonzeros P M P.pc.xSize).1
  have hquery (t : Arrays K) : (t.query P M past .jac).jac = fun k => φ k (t.jac k) := e t.jac
  induction qs using List.reverseRecOn with
  | nil => rfl
  | append_singleton qs q ih =>
    rw [queries_append_singleton]
    cases q with
    | jac =>
      rw [if_pos (List.mem_append_right _ List.mem_cons_self), hquery, hquery, ih]
      split
      · rw [hquery]
        exact funext fun k => Overwrites.idem (hφ k) _
      · rfl
    | hes =>
      have hmem : .jac ∈ qs ++ [.hes] ↔ .jac ∈ qs := by simp
      rw [if_congr hmem rfl rfl]
      exact ih

theorem query_jac_inside (hP : WalksOk P) {k : Nat}
    (hk : (initJacobianNonzeros P M P.pc.xSize).2 ≤ k) :
    (s.query P M past .jac).jac k = s.jac k := by
  rw [nnzJac_eq P M .zero hP] at hk
  rw [Arrays.query, getJacSparsity_eq P M .zero hP]
  exact Tape.run_cells_of_ge _ _ (by simpa using hk)

end Queries

/-! ## The Hessian, from tables that count no entry -/

section First

variable {K : Type} [Field K] {T : FLGR K} {P : Problem K} {M : Mesh T}
variable (past : Nat → Nat × Nat) {block : HesBlock → BlockSparsity} (iRow jCol : Nat → Nat)

/-- The slots of the entries of `B`: behind those of `A`, node by node. -/
theorem slot_B {s : HesState} {written : Addr → Nat × Nat} {pending : Addr → Prop}
    (h : Laid written pending s (hesLayout P M (getSizes P M))) (hP : HessianLayoutOk P)
    {a : Addr} (ha : a.Valid P M) (hB : a.blk = .B) :
    ∃ j, (hesFlat P P.pc.xSize .B)[j]? = some (a.row, a.col) ∧
      s.slot a = (hesFlat P P.pc.xSize .A).length +
        ((hesFlat P P.pc.xSize .B).length * a.node + j) := by
  obtain ⟨k, hk⟩ := List.mem_iff_getElem?.mp ((mem_hesLayout hP).mpr ha)
  have hslot := h.slot k a hk
  -- the entry stands in the first part of the layout
  have hAB : (layoutAB P M (getSizes P M))[k]? = some a := by
    rw [hesLayout, List.append_assoc, List.getElem?_append] at hk
    split at hk
    · exact hk
    · rcases List.mem_append.mp (List.mem_of_getElem? hk) with hm | hm
      · obtain ⟨x, -, hm⟩ := List.mem_flatMap.mp hm
        have hb := (mem_layoutCD.mp hm).1
        simp [hB] at hb
      · obtain ⟨p, -, hm⟩ := List.mem_flatMap.mp hm
        have hb := (mem_layoutEFGH.mp hm).1
        simp [hB] at hb
  rw [layoutAB, List.getElem?_append] at hAB
  split at hAB
  · have hb := (mem_entriesAt.mp (List.mem_of_getElem? hAB)).1
    simp [hB] at hb
  · rename_i hle
    rw [entriesAt_length] at hle hAB
    obtain ⟨n, j, -, hkj, hj⟩ := getElem?_flatMap_range
      (m := (hesFlat P P.pc.xSize .B).length) (fun _ _ => entriesAt_length ..) hAB
    obtain ⟨e, he, rfl⟩ := Option.map_eq_some_iff.mp ((List.getElem?_map ..).symm.trans hj)
    refine ⟨j, he, ?_⟩
    have hA : (hesFlat P (getSizes P M).offX .A).length = (hesFlat P P.pc.xSize .A).length := rfl
    dsimp only
    omega

variable (ht : ∀ X, (block X).type = X.type) (hA : (block .A).nnz = 0) (hB : (block .B).nnz = 0)
variable (hP : HessianLayoutOk P)

include ht hA hB hP

theorem slot_first (iRow' jCol' : Nat → Nat) {a : Addr} (ha : a.Valid P M) :
    (getHesSparsityFrom P M (getSizes P M) past block iRow jCol).slot a =
      (getHesSparsity P M (getSizes P M) past iRow' jCol').slot a := by
  obtain ⟨k, hk⟩ := List.mem_iff_getElem?.mp ((mem_hesLayout hP).mpr ha)
  rw [(getHesSparsityFrom_laid P M past iRow jCol ht hA hB hP).1.slot k a hk,
    (getHesSparsity_laid P M past iRow' jCol' hP).slot k a hk]

theorem coord_first (iRow' jCol' : Nat → Nat) {k : Nat}
    (hk : k < initHessianNonzeros P M P.pc.xSize) :
    (getHesSparsityFrom P M (getSizes P M) past block iRow jCol).coord k =
      (getHesSparsity P M (getSizes P M) past iRow' jCol').coord k := by
  rw [← hesLayout_length hP] at hk
  have ha := List.getElem?_eq_getElem hk
  rw [(getHesSparsityFrom_laid P M past iRow jCol ht hA hB hP).1.coord k _ ha id,
    (getHesSparsity_laid P M past iRow' jCol' hP).coord k _ ha id]

/-- Nothing is written behind the nonzeros. -/
theorem coord_inside {k : Nat} (hk : initHessianNonzeros P M P.pc.xSize ≤ k) :
    (getHesSparsityFrom P M (getSizes P M) past block iRow jCol).coord k = (iRow k, jCol k) := by
  obtain ⟨hlaid, hcounter⟩ := getHesSparsityFrom_laid P M past iRow jCol ht hA hB hP
  have hslot {X : HesBlock} {e : Nat × Nat} {node : Nat} (hX : X.type ≠ .exact)
      (hn : node < M.nodeCount - 1) (he : e ∈ hesFlat P P.pc.xSize X) :
      (getHesSparsityFrom P M (getSizes P M) past block iRow jCol).slot ⟨X, e.1, e.2, node⟩ ≠
        k := by
    have hvalid : (Addr.mk X e.1 e.2 node).Valid P M := ⟨he, by rw [if_neg hX]; exact hn⟩
    obtain ⟨l, hl⟩ := List.mem_iff_getElem?.mp ((mem_hesLayout hP).mpr hvalid)
    have hlt := (List.getElem?_eq_some_iff.mp hl).1
    rw [hesLayout_length hP] at hlt
    rw [hlaid.slot l _ hl]
    omega
  rw [hesLayout_length hP] at hcounter
  rw [getHesSparsityFrom_eq, hesProgram, execs_append, execs_append, execs_append]
    at hslot hcounter ⊢
  obtain ⟨s0, hs0⟩ : ∃ s0 : HesState, { counter := 0, iRow, jCol, block } = s0 := ⟨_, rfl⟩
  rw [hs0] at hslot hcounter ⊢
  obtain ⟨s1, hs1⟩ : ∃ s1, execs s0 (programAB P (getSizes P M)) = s1 := ⟨_, rfl⟩
  obtain ⟨s2, hs2⟩ : ∃ s2, execs s1 (putsB P M (getSizes P M)) = s2 := ⟨_, rfl⟩
  obtain ⟨s3, hs3⟩ : ∃ s3, execs s2 (programRows P M (getSizes P M) past) = s3 := ⟨_, rfl⟩
  rw [hs1, hs2, hs3] at hslot hcounter ⊢
  have putB := execs_puts s1 (putsB P M (getSizes P M)) fun cmd hm => by
    obtain ⟨_, _, _, -, -, rfl⟩ := mem_putsNodes P M _ hm
    trivial
  have putF := execs_puts s3 (putsF P M (getSizes P M)) fun cmd hm => by
    obtain ⟨_, _, _, -, -, rfl⟩ := mem_putsNodes P M _ hm
    trivial
  have rows := execs_frame s2 (programRows P M (getSizes P M) past) fun cmd hm =>
    (programRows_table P M (getSizes P M) past hm).2
  have first := execs_frame s0 (programAB P (getSizes P M)) fun cmd hm => by
    rcases List.mem_append.mp hm with hm | hm
    · exact (mem_emits hm).2
    · rw [List.mem_singleton.mp hm]
      exact id
  have hblockB : s3.block .B = s1.block .B := by
    rw [← hs3, execs_block_ne fun cmd hm => (programRows_table P M (getSizes P M) past hm).1.2,
      ← hs2, putB.2]
  rw [hs2] at putB
  rw [hs3] at rows
  rw [hs1] at first
  -- the coordinates of `F`, the rows, the coordinates of `B`, and what comes before them
  have e4 := execs_puts_coord s3 (putsF P M (getSizes P M)) k fun cmd hm => by
    obtain ⟨e, node, c, hn, he, rfl⟩ := mem_putsNodes P M _ hm
    refine ⟨_, e, node, c, rfl, ?_⟩
    have h := hslot (X := .F) (by decide) hn he
    rwa [HesState.slot, putF.2] at h
  have e2 := execs_puts_coord s1 (putsB P M (getSizes P M)) k fun cmd hm => by
    obtain ⟨e, node, c, hn, he, rfl⟩ := mem_putsNodes P M _ hm
    refine ⟨_, e, node, c, rfl, ?_⟩
    have h := hslot (X := .B) (by decide) hn he
    rwa [HesState.slot, putF.2, hblockB] at h
  rw [hs2] at e2
  have h3 : s3.counter ≤ k := by omega
  rw [e4, rows.2 k h3, e2, first.2 k (by omega), ← hs0]
  rfl

end First

/-! ## The Hessian, queried `n` times -/

section Again

variable {K : Type} [Field K] {T : FLGR K} (P : Problem K) (M : Mesh T)
variable (past : Nat → Nat × Nat) (iRow jCol : Nat → Nat)

/-- The entries of `A` and `B` that are counted too often do not reach an entry of `B`. -/
def StillB : Prop := ∀ node, node < M.nodeCount - 1 → hesFlat P P.pc.xSize .B ≠ [] →
  (hesFlat P P.pc.xSize .A).length + (hesFlat P P.pc.xSize .B).length * node = 0

structure HesQueried (n : Nat) (s : HesState) : Prop where
  type : ∀ X, (s.block X).type = X.type
  nnzA : (s.block .A).nnz = n * (hesFlat P P.pc.xSize .A).length
  nnzB : (s.block .B).nnz = n * (hesFlat P P.pc.xSize .B).length
  slot : ∀ m, n = m + 1 → ∀ a : Addr, a.Valid P M → s.slot a =
    (getHesSparsity P M (getSizes P M) past iRow jCol).slot a + if a.blk = .B then
      m * ((hesFlat P P.pc.xSize .A).length + (hesFlat P P.pc.xSize .B).length * a.node) else 0
  pattern : n ≤ 1 ∨ StillB P M → 0 < n → ∀ k, k < initHessianNonzeros P M P.pc.xSize →
    s.coord k = (getHesSparsity P M (getSizes P M) past iRow jCol).coord k
  inside : n ≤ 1 ∨ StillB P M → ∀ k, initHessianNonzeros P M P.pc.xSize ≤ k →
    s.coord k = (iRow k, jCol k)

variable {P M past iRow jCol} {n : Nat} {s : HesState}

theorem stillB_iff : StillB P M ↔ M.nodeCount = 1 ∨ hesFlat P P.pc.xSize .B = [] ∨
    hesFlat P P.pc.xSize .A = [] ∧ M.nodeCount = 2 := by
  have hpos := M.nodeCount_pos
  constructor
  · intro h
    by_contra hne
    push Not at hne
    obtain ⟨hN, hB, hA⟩ := hne
    have hlen := List.length_pos_of_ne_nil hB
    have hA0 := List.length_eq_zero_iff.mp (Nat.add_eq_zero_iff.mp (h 0 (by omega) hB)).1
    have hN2 := hA hA0
    have h1 := h 1 (by omega) hB
    omega
  · rintro (h | h | ⟨hA, hN⟩) node hn hB
    · omega
    · exact absurd h hB
    · obtain rfl : node = 0 := by omega
      rw [hA]
      rfl

theorem HesQueried.opened : HesQueried P M past iRow jCol 0
    { counter := 0, iRow, jCol, block := resetBlocks } where
  type := fun _ => rfl
  nnzA := (Nat.zero_mul _).symm
  nnzB := (Nat.zero_mul _).symm
  slot := nofun
  pattern := fun _ h => absurd h (Nat.lt_irrefl 0)
  inside := fun _ _ _ => rfl

theorem HesQueried.step (h : HesQueried P M past iRow jCol n s) (hP : HessianLayoutOk P) :
    HesQueried P M past iRow jCol (n + 1)
      (getHesSparsityFrom P M (getSizes P M) past s.block s.iRow s.jCol) := by
  obtain ⟨hcount, harrays⟩ :=
    getHesSparsityFrom_counted P M (getSizes P M) past s.iRow s.jCol h.type
  obtain ⟨hnnzA, hnnzB⟩ := getHesSparsityFrom_nnz P M (getSizes P M) past s.block s.iRow s.jCol
  have ht : ∀ X, ({ s.block X with nnz := 0, offPrev := 0 } : BlockSparsity).type = X.type := h.type
  have harr (hs : n + 1 ≤ 1 ∨ StillB P M) := harrays fun node hn hB => by
    rw [h.nnzA, h.nnzB]
    rcases hs with hs | hs
    · obtain rfl : n = 0 := by omega
      omega
    · rw [Nat.mul_assoc, ← Nat.mul_add, hs node hn hB, Nat.mul_zero]
  have hcoord (hs : n + 1 ≤ 1 ∨ StillB P M) (k : Nat) :
      (getHesSparsityFrom P M (getSizes P M) past s.block s.iRow s.jCol).coord k =
      (getHesSparsityFrom P M (getSizes P M) past
        (fun X => { s.block X with nnz := 0, offPrev := 0 }) s.iRow s.jCol).coord k :=
    congrArg₂ Prod.mk (congrFun (harr hs).1 k) (congrFun (harr hs).2 k)
  refine ⟨fun X => ?_, ?_, ?_, ?_, fun hs _ k hk => ?_, fun hs k hk => ?_⟩
  · rw [hcount.block X]
    exact hcount.type X
  · rw [hnnzA, h.nnzA, Nat.succ_mul]
    rfl
  · rw [hnnzB, h.nnzB, Nat.succ_mul]
    rfl
  · rintro m hm a ha
    obtain rfl : n = m := by omega
    rw [hcount.slot a, slot_first past s.iRow s.jCol ht rfl rfl hP iRow jCol ha,
      Function.update_self, h.nnzA, h.nnzB, Nat.mul_add, Nat.mul_assoc]
  · rw [hcoord hs, coord_first past s.iRow s.jCol ht rfl rfl hP iRow jCol hk]
  · rw [hcoord hs, coord_inside past s.iRow s.jCol ht rfl rfl hP hk]
    exact h.inside (hs.imp_left fun h => by omega) k hk

theorem queries_hes (hP : HessianLayoutOk P) (iRowJac jColJac : Nat → Nat) (qs : List Query) :
    HesQueried P M past iRow jCol (qs.count .hes)
      ((Arrays.opened (K := K) iRowJac jColJac iRow jCol).queries P M past qs).hes := by
  induction qs using List.reverseRecOn with
  | nil => exact .opened
  | append_singleton qs q ih =>
    rw [queries_append_singleton, List.count_append]
    cases q with
    | jac => exact ih
    | hes => exact ih.step hP

/-- What is evaluated depends on the slots of the entries only. -/
theorem evalHes_congr {s s' : HesState} (ht : ∀ X, (s.block X).type = X.type)
    (ht' : ∀ X, (s'.block X).type = X.type)
    (hslot : ∀ a : Addr, a.Valid P M → s.slot a = s'.slot a) (B : Buffers K) :
    evalHesInternal P M (getSizes P M) B s = evalHesInternal P M (getSizes P M) B s' := by
  rw [evalHesInternal_eq P M B s ht, evalHesInternal_eq P M B s' ht']
  have hops : slotOps s (hesOps P M B) = slotOps s' (hesOps P M B) :=
    List.map_congr_left fun op hop => by rw [hslot _ (hesOps_valid P M B op hop)]
  rw [hops]

end Again

/-! ## A buffer that shows every slot -/

section Ones

variable {K : Type} [Field K] {T : FLGR K} (P : Problem K) (M : Mesh T)

def Buffers.ones : Buffers K where
  eval := fun _ => 1
  jac := fun _ => 1
  hes := fun _ => 1
  ppHes := fun _ => 1
  mrEval := fun _ => 1
  mrJac := fun _ => 1
  mrHes := fun _ => 1

theorem entryOps_one {X : HesBlock} {node rowOff colOff : Nat} {value : Nat → K}
    (hv : ∀ k, value k = 1) (l : List HessianSparsity) :
    ∀ op ∈ entryOps X node rowOff colOff value l, op.2 = 1 := by
  intro op hop
  obtain ⟨e, -, rfl⟩ := List.mem_map.mp hop
  exact hv _

theorem hesOps_one : ∀ op ∈ hesOps P M Buffers.ones, op.2 = 1 := by
  intro op hop
  rcases List.mem_append.mp hop with hop | hop
  · obtain ⟨i, -, hop⟩ := List.mem_flatMap.mp hop
    obtain ⟨j, -, hop⟩ := List.mem_flatMap.mp hop
    simp only [nodeHesOps, List.mem_append] at hop
    rcases hop with (((hop | hop) | hop) | hop) | hop <;>
      exact entryOps_one (fun _ => rfl) _ op hop
  · simp only [boundaryHesOps, List.mem_append] at hop
    rcases hop with
      (((((((((hop | hop) | hop) | hop) | hop) | hop) | hop) | hop) | hop) | hop) | hop <;>
      exact entryOps_one (fun _ => rfl) _ op hop

variable {P M}

/-- Every entry of `B` is added onto. -/
theorem exists_op_B {a : Addr} (ha : a.Valid P M) (hB : a.blk = .B) (B : Buffers K) :
    ∃ op ∈ hesOps P M B, op.1 = a := by
  obtain ⟨X, r, c, n⟩ := a
  obtain rfl : X = .B := hB
  have hn : n < M.nodeCount - 1 := ha.node
  obtain ⟨i, j, hi, hj, rfl⟩ := M.exists_accNodesAt (k := n) (by omega)
  have hl : ¬ M.isLast i j = true := by
    rw [M.isLast_iff hi hj]
    omega
  have hplace := ha.place
  simp only [hesFlat, hesSet, OrderedIndexSet.mem_insertSparsity, OrderedIndexSet.not_mem_empty,
    false_or] at hplace
  have hnode : ∃ op ∈ nodeHesOps P M B i j, op.1 = ⟨.B, r, c, M.accNodesAt i j⟩ := by
    simp only [nodeHesOps, nodeBlocks, if_neg hl]
    rcases hplace with (⟨coo, hm, he⟩ | ⟨coo, hm, he⟩) | ⟨coo, hm, he⟩ <;>
      obtain ⟨rfl, rfl⟩ := Prod.mk.inj he
    · refine ⟨_, List.mem_append_left _ (List.mem_append_left _ (List.mem_append_left _
        (List.mem_append_left _ (List.mem_map_of_mem hm)))), ?_⟩
      simp
    · refine ⟨_, List.mem_append_left _ (List.mem_append_left _ (List.mem_append_left _
        (List.mem_append_right _ (List.mem_map_of_mem hm)))), ?_⟩
      simp [Nat.add_comm]
    · refine ⟨_, List.mem_append_left _ (List.mem_append_left _ (List.mem_append_right _
        (List.mem_map_of_mem hm))), ?_⟩
      simp [Nat.add_comm]
  obtain ⟨op, hop, he⟩ := hnode
  exact ⟨op, List.mem_append_left _ (List.mem_flatMap.mpr ⟨i, List.mem_range.mpr hi,
    List.mem_flatMap.mpr ⟨j, List.mem_range.mpr hj, hop⟩⟩), he⟩

theorem sum_ones {ops : List (Addr × K)} (h : ∀ op ∈ ops, op.2 = 1) (a : Addr) :
    (ops.map fun op => if op.1 = a then op.2 else 0).sum = (ops.countP (·.1 = a) : K) := by
  induction ops with
  | nil => simp
  | cons op ops ih =>
    rw [List.map_cons, List.sum_cons, ih fun op hm => h op (List.mem_cons_of_mem _ hm),
      List.countP_cons, h op List.mem_cons_self]
    by_cases he : op.1 = a
    · simp [he, add_comm]
    · simp [he]

end Ones

/-! ## Repeatable queries -/

section Main

variable {K : Type} [Field K] {T : FLGR K} {P : Problem K} {M : Mesh T}
variable {past : Nat → Nat × Nat} {iRowJac jColJac iRowHes jColHes : Nat → Nat} {qs : List Query}

theorem repeatable_of_unmoved (hJ : WalksOk P) (hP : HessianLayoutOk P) (h : Unmoved P M qs) :
    Repeatable P M past (.opened iRowJac jColJac iRowHes jColHes) qs := by
  have hes : HesQueried P M past iRowHes jColHes _ _ := queries_hes hP iRowJac jColJac qs
  have opened : HesQueried P M past iRowHes jColHes 0 _ := .opened
  have once := opened.step hP
  have hstill : qs.count .hes ≤ 1 ∨ StillB P M := h.imp_right stillB_iff.mpr
  refine ⟨fun hq k _ => ?_, fun k hk => ?_, fun hq k hk => ?_, hes.inside hstill,
    fun hq B k _ => ?_, fun hq B => ?_⟩
  · rw [queries_jac, if_pos hq]
  · rw [queries_jac]
    split
    · exact query_jac_inside hJ hk
    · rfl
  · rw [hes.pattern hstill (List.count_pos_iff.mpr hq) k hk]
    exact (once.pattern (.inl le_rfl) Nat.one_pos k hk).symm
  · rw [Arrays.evalJac, queries_jac, if_pos hq]
    rfl
  · refine evalHes_congr hes.type once.type (fun a ha => ?_) B
    obtain ⟨m, hm⟩ : ∃ m, qs.count .hes = m + 1 :=
      ⟨qs.count .hes - 1, by have := List.count_pos_iff.mpr hq; omega⟩
    rw [hes.slot m hm a ha, once.slot 0 rfl a ha]
    congr 1
    split
    · rename_i hB
      have hn : a.node < M.nodeCount - 1 := by
        have := ha.node
        rwa [hB] at this
      rcases hstill with hs | hs
      · obtain rfl : m = 0 := by omega
        rfl
      · have hplace := ha.place
        rw [hB] at hplace
        rw [hs a.node hn (List.ne_nil_of_mem hplace), Nat.mul_zero, Nat.mul_zero]
    · rfl

/-- The first entry of `B` that is moved leaves its slot to no other entry. -/
theorem exists_vacant {m : Nat} {s : HesState}
    (hes : HesQueried P M past iRowHes jColHes (m + 1) s) (hm : 0 < m) (hP : HessianLayoutOk P)
    (hstill : ¬ StillB P M) : ∃ a : Addr, a.Valid P M ∧ a.blk = .B ∧ ∀ b : Addr, b.Valid P M →
      s.slot b ≠ (getHesSparsity P M (getSizes P M) past iRowHes jColHes).slot a := by
  unfold StillB at hstill
  push Not at hstill
  obtain ⟨n, hn, hB, hne⟩ := hstill
  have hex : ∃ n, n < M.nodeCount - 1 ∧
      (hesFlat P P.pc.xSize .A).length + (hesFlat P P.pc.xSize .B).length * n ≠ 0 := ⟨n, hn, hne⟩
  obtain ⟨node, hnode, hmin⟩ : ∃ node, (node < M.nodeCount - 1 ∧
      (hesFlat P P.pc.xSize .A).length + (hesFlat P P.pc.xSize .B).length * node ≠ 0) ∧
      ∀ n, n < node → ¬ (n < M.nodeCount - 1 ∧
        (hesFlat P P.pc.xSize .A).length + (hesFlat P P.pc.xSize .B).length * n ≠ 0) :=
    ⟨Nat.find hex, Nat.find_spec hex, fun _ => Nat.find_min hex⟩
  obtain ⟨e, es, hes0⟩ := List.exists_cons_of_ne_nil hB
  have hlaid := getHesSparsity_laid P M past iRowHes jColHes hP
  have ha : (Addr.mk .B e.1 e.2 node).Valid P M :=
    ⟨by rw [hes0]; exact List.mem_cons_self, hnode.1⟩
  obtain ⟨j, hj, hslot⟩ := slot_B hlaid hP ha rfl
  have hj0 : j = 0 := by
    have h0 : (hesFlat P P.pc.xSize .B)[0]? = some (e.1, e.2) := by rw [hes0]; rfl
    exact (List.getElem?_inj (List.getElem?_eq_some_iff.mp hj).1
      (hesFlat_nodup P (getSizes P M) .B)).mp (hj.trans h0.symm)
  refine ⟨_, ha, rfl, fun b hb he => ?_⟩
  rw [hes.slot m rfl b hb] at he
  by_cases hbB : b.blk = .B
  · rw [if_pos hbB] at he
    have hbn : b.node < M.nodeCount - 1 := by
      have := hb.node
      rwa [hbB] at this
    by_cases hlt : b.node < node
    · -- an entry before is not moved
      have h0 := not_and_not_right.mp (hmin b.node hlt) hbn
      rw [h0, Nat.mul_zero, Nat.add_zero] at he
      have hab := slot_inj hP past iRowHes jColHes hb ha he
      rw [hab] at hlt
      exact absurd hlt (Nat.lt_irrefl node)
    · -- an entry behind is moved further behind
      obtain ⟨k, -, hbslot⟩ := slot_B hlaid hP hb hbB
      have hle := Nat.mul_le_mul_left (hesFlat P P.pc.xSize .B).length (Nat.le_of_not_lt hlt)
      have hpos : 0 < m * ((hesFlat P P.pc.xSize .A).length +
          (hesFlat P P.pc.xSize .B).length * b.node) :=
        Nat.mul_pos hm (by omega)
      rw [hslot, hbslot, hj0] at he
      dsimp only at he
      omega
  · rw [if_neg hbB, Nat.add_zero] at he
    have hab := slot_inj hP past iRowHes jColHes hb ha he
    exact hbB (by rw [hab])

theorem unmoved_of_repeatable [CharZero K] (hP : HessianLayoutOk P)
    (h : Repeatable P M past (.opened iRowJac jColJac iRowHes jColHes) qs) : Unmoved P M qs := by
  by_contra hmoved
  obtain ⟨hcount, hstill⟩ := not_or.mp hmoved
  rw [← stillB_iff] at hstill
  have hes : HesQueried P M past iRowHes jColHes _ _ := queries_hes hP iRowJac jColJac qs
  have opened : HesQueried P M past iRowHes jColHes 0 _ := .opened
  have once := opened.step hP
  obtain ⟨m, hm⟩ : ∃ m, qs.count .hes = m + 1 := ⟨qs.count .hes - 1, by omega⟩
  rw [hm] at hes hcount
  obtain ⟨a, ha, hB, hvacant⟩ := exists_vacant hes (by omega) hP hstill
  have hq : Query.hes ∈ qs := List.count_pos_iff.mp (by omega)
  have heval := h.hesValues hq Buffers.ones
  rw [Arrays.evalHes, Arrays.evalHes, evalHesInternal_eq P M _ _ hes.type] at heval
  have hfirst := evalHesInternal_eq P M Buffers.ones
    (getHesSparsity P M (getSizes P M) past iRowHes jColHes) once.type
  have heq := congrFun (Option.some.inj (heval.trans hfirst))
    ((getHesSparsity P M (getSizes P M) past iRowHes jColHes).slot a)
  rw [accum_slot P M past iRowHes jColHes hP (hesOps_valid P M _) ha, sum_ones (hesOps_one P M),
    accum_apply, zero_add, slotOps, List.map_map] at heq
  have hzero : ((hesOps P M Buffers.ones).map ((fun e : Nat × K =>
      if e.1 = (getHesSparsity P M (getSizes P M) past iRowHes jColHes).slot a then e.2 else 0) ∘
      fun op =>
        (((Arrays.opened iRowJac jColJac iRowHes jColHes).queries P M past qs).hes.slot op.1,
          op.2))).sum = 0 := by
    refine List.sum_eq_zero fun v hv => ?_
    obtain ⟨op, hop, rfl⟩ := List.mem_map.mp hv
    exact if_neg (hvacant op.1 (hesOps_valid P M _ op hop))
  rw [hzero] at heq
  obtain ⟨op, hop, hopa⟩ := exists_op_B ha hB (Buffers.ones (K := K))
  have hpos : 0 < (hesOps P M Buffers.ones).countP (fun op : Addr × K => op.1 = a) :=
    List.countP_pos_iff.mpr ⟨op, hop, by simpa using hopa⟩
  exact hpos.ne (Nat.cast_eq_zero.mp heq.symm).symm

/-- Queries are repeatable if and only if the Hessian is not queried again where that moves an entry
of `B`. -/
theorem repeatable_iff [CharZero K] (hJ : WalksOk P) (hP : HessianLayoutOk P) :
    Repeatable P M past (.opened iRowJac jColJac iRowHes jColHes) qs ↔ Unmoved P M qs :=
  ⟨unmoved_of_repeatable hP, repeatable_of_unmoved hJ hP⟩

end Main

/-! One state with a Lagrange term that is quadratic in it, and three nodes. -/

section Curved

def threeNodes : Mesh zeroTables :=
  Mesh.createEquidistantFixedStages zeroTables 1 3 1 (by decide) Nat.one_pos

def curved : Problem ℚ where
  pc := { hasMayer := false, hasLagrange := true, xBounds := [⟨0, 1⟩], uBounds := [], pBounds := []
          x0Fixed := [none], xfFixed := [none], rBounds := [], gBounds := [] }
  full := { L := some {}, f := [{ bufIndex := 1 }], g := [], hes := { dxDx := [⟨0, 0, 0⟩] } }
  boundary := { r := [] }
  f_length := rfl
  g_length := rfl
  r_length := by decide

theorem curved_layoutOk : HessianLayoutOk curved := by
  constructor <;> intro e he <;> simp [curved] at he
  subst he
  decide

theorem curved_walksOk : WalksOk curved := by
  have hf : ∀ f, f < curved.pc.fSize → (curved.full.fAt f).jac.dx = [] := by decide
  refine ⟨fun f h => ?_, fun f h e he => ?_⟩
  · rw [hf f h]
    exact .nil
  · rw [hf f h] at he
    cases he

/-- The second query counts the entry of `B` twice, and the second node is two places behind the
first one. -/
theorem second_query_moves : ¬ ∀ (P : Problem ℚ) (M : Mesh zeroTables) (past : Nat → Nat × Nat)
    (iRowJac jColJac iRowHes jColHes : Nat → Nat) (qs : List Query), WalksOk P →
      HessianLayoutOk P → Repeatable P M past (.opened iRowJac jColJac iRowHes jColHes) qs := by
  intro h
  have hmoved := unmoved_of_repeatable curved_layoutOk
    (h curved threeNodes (fun _ => (0, 0)) id id id id [.hes, .hes] curved_walksOk curved_layoutOk)
  exact absurd hmoved (by decide)

theorem repeatable_iff_curved :
    Repeatable curved threeNodes (fun _ => (0, 0)) (.opened id id id id) [.hes, .jac, .jac] ↔
      Unmoved curved threeNodes [.hes, .jac, .jac] :=
  repeatable_iff curved_walksOk curved_layoutOk

end Curved

end GDOP
end Moo
