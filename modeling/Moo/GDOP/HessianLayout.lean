import Moo.GDOP.Hessian
import Moo.Lib.Cursor
import Moo.Lib.Segment

/-!
# GDOP.HessianLayout

Where every entry of the Hessian blocks is stored, and which coordinates stand there.

* `hesLayout`: all entries `(block, row, col, node)` in the order of the array of nonzeros.
* `Laid written pending s L`: in state `s` the entry `L[k]` has slot `k`, and, unless it is
  pending, the coordinates `written` at that slot. Every step of `get_hes_sparsity` extends `L` or
  settles pending entries (`Laid.emits`, `Laid.insertB`, `Laid.insertF`, `Laid.patternNodes`).
* `getHesSparsity_laid`: at the end the whole layout is laid and nothing is pending.
-/

namespace Moo
namespace GDOP

open Loop Segment

/-- An entry of a block. `node` numbers the repetitions of `B` and `F` and is zero elsewhere. -/
structure Addr where
  blk : HesBlock
  row : Nat
  col : Nat
  node : Nat
  deriving Repr, DecidableEq

/-- The entries of block `X` at the places `l`, for one node. -/
def entriesAt (X : HesBlock) (l : List (Nat × Nat)) (node : Nat) : List Addr :=
  l.map fun e => ⟨X, e.1, e.2, node⟩

theorem mem_entriesAt {X : HesBlock} {l : List (Nat × Nat)} {node : Nat} {a : Addr} :
    a ∈ entriesAt X l node ↔ a.blk = X ∧ a.node = node ∧ (a.row, a.col) ∈ l := by
  constructor
  · intro h
    obtain ⟨e, he, rfl⟩ := List.mem_map.mp h
    exact ⟨rfl, rfl, he⟩
  · rintro ⟨rfl, rfl, h⟩
    exact List.mem_map.mpr ⟨_, h, rfl⟩

@[simp] theorem entriesAt_length (X : HesBlock) (l : List (Nat × Nat)) (node : Nat) :
    (entriesAt X l node).length = l.length := List.length_map ..

/-- The slot of an entry. -/
def HesState.slot (s : HesState) (a : Addr) : Nat :=
  (s.block a.blk).accessAt a.row a.col a.node

structure Laid (written : Addr → Nat × Nat) (pending : Addr → Prop) (s : HesState)
    (L : List Addr) : Prop where
  type : ∀ X, (s.block X).type = X.type
  slot : ∀ k a, L[k]? = some a → s.slot a = k
  inserted : ∀ a ∈ L, ((s.block a.blk).cell (a.row, a.col)).isSome = true
  coord : ∀ k a, L[k]? = some a → ¬ pending a → s.coord k = written a

/-! ## The steps -/

section Steps

variable {written : Addr → Nat × Nat} {pending : Addr → Prop} {s : HesState} {L : List Addr}

theorem accessAt_exact {b : BlockSparsity} (h : b.type = .exact) (row col node : Nat) :
    b.accessAt row col node = b.cellAt row col := by
  simp [BlockSparsity.accessAt, h]

@[simp] theorem HesState.emit_counter (s : HesState) (X : HesBlock) (e c : Nat × Nat) :
    (s.emit X e c).counter = s.counter + 1 := rfl

theorem HesState.emit_block_self (s : HesState) (X : HesBlock) (e c : Nat × Nat) :
    (s.emit X e c).block X = (s.block X).insert e.1 e.2 s.counter := by
  simp [emit, insert, modify, put]

theorem HesState.emit_block_ne (s : HesState) {X Y : HesBlock} (h : Y ≠ X) (e c : Nat × Nat) :
    (s.emit X e c).block Y = s.block Y := by
  simp [emit, insert, modify, put, h]

theorem HesState.emit_coord (s : HesState) (X : HesBlock) (e c : Nat × Nat) (k : Nat) :
    (s.emit X e c).coord k = if k = s.counter then c else s.coord k := by
  by_cases h : k = s.counter
  · subst h
    simp [emit, insert, modify, put, coord]
  · simp [emit, insert, modify, put, coord, h]

theorem cell_insert (b : BlockSparsity) (row col index : Nat) (e : Nat × Nat) :
    (b.insert row col index).cell e = if e = (row, col) then some index else b.cell e := by
  by_cases h : e = (row, col)
  · simp [BlockSparsity.insert, h]
  · simp [BlockSparsity.insert, h]

/-- An exact entry is laid at the end. -/
theorem Laid.emit (h : Laid written pending s L) (hc : s.counter = L.length) {X : HesBlock}
    (hX : X.type = .exact) {e c : Nat × Nat} (hw : written ⟨X, e.1, e.2, 0⟩ = c)
    (hfresh : ∀ a ∈ L, a.blk = X → (a.row, a.col) ≠ e) :
    Laid written pending (s.emit X e c) (L ++ [⟨X, e.1, e.2, 0⟩]) := by
  have old : ∀ a ∈ L, (s.emit X e c).slot a = s.slot a ∧
      ((s.emit X e c).block a.blk).cell (a.row, a.col) = (s.block a.blk).cell (a.row, a.col) := by
    intro a ha
    by_cases hb : a.blk = X
    · have hcell : ((s.emit X e c).block a.blk).cell (a.row, a.col) =
          (s.block a.blk).cell (a.row, a.col) := by
        rw [hb, s.emit_block_self, cell_insert, if_neg (hfresh a ha hb)]
      refine ⟨?_, hcell⟩
      have ht : ((s.emit X e c).block a.blk).type = .exact := by
        rw [hb, s.emit_block_self]
        exact (h.type X).trans hX
      rw [HesState.slot, accessAt_exact ht, BlockSparsity.cellAt, hcell, HesState.slot,
        accessAt_exact (by rw [h.type, hb, hX])]
      rfl
    · rw [HesState.slot, s.emit_block_ne hb]
      exact ⟨rfl, rfl⟩
  refine ⟨fun Y => ?_, fun k a ha => ?_, fun a ha => ?_, fun k a ha hp => ?_⟩
  · by_cases hY : Y = X
    · rw [hY, s.emit_block_self]
      exact h.type X
    · rw [s.emit_block_ne hY, h.type]
  · rw [List.getElem?_append] at ha
    split at ha
    · rw [(old a (List.mem_of_getElem? ha)).1, h.slot k a ha]
    · obtain ⟨hk, rfl⟩ : k - L.length = 0 ∧ a = ⟨X, e.1, e.2, 0⟩ := by
        cases hk : k - L.length with
        | zero =>
          rw [hk] at ha
          exact ⟨rfl, by simpa using ha.symm⟩
        | succ n => simp [hk] at ha
      have ht : ((s.emit X e c).block X).type = .exact := by
        rw [s.emit_block_self]
        exact (h.type X).trans hX
      rw [HesState.slot, accessAt_exact ht, BlockSparsity.cellAt, s.emit_block_self, cell_insert,
        if_pos rfl, hc]
      dsimp only [Option.getD_some]
      omega
  · rcases List.mem_append.mp ha with ha | ha
    · rw [(old a ha).2]
      exact h.inserted a ha
    · rw [List.mem_singleton.mp ha, s.emit_block_self, cell_insert, if_pos rfl]
      rfl
  · rw [List.getElem?_append] at ha
    rw [s.emit_coord]
    split at ha
    · rename_i hk
      rw [if_neg (by omega), h.coord k a ha hp]
    · rename_i hk
      cases hk' : k - L.length with
      | zero =>
        rw [hk'] at ha
        obtain rfl : a = ⟨X, e.1, e.2, 0⟩ := by simpa using ha.symm
        rw [if_pos (by omega), hw]
      | succ n => simp [hk'] at ha

theorem Laid.emits (h : Laid written pending s L) (hc : s.counter = L.length) {X : HesBlock}
    (hX : X.type = .exact) {c : Nat × Nat → Nat × Nat} (es : List (Nat × Nat)) (hes : es.Nodup)
    (hw : ∀ e ∈ es, written ⟨X, e.1, e.2, 0⟩ = c e)
    (hfresh : ∀ a ∈ L, a.blk = X → (a.row, a.col) ∉ es) :
    Laid written pending (es.foldl (fun s e => s.emit X e (c e)) s) (L ++ entriesAt X es 0) ∧
      (es.foldl (fun s e => s.emit X e (c e)) s).counter = (L ++ entriesAt X es 0).length := by
  induction es generalizing s L with
  | nil => simpa [entriesAt] using ⟨h, hc⟩
  | cons e es ih =>
    obtain ⟨hne, hes⟩ := List.nodup_cons.mp hes
    have h1 := h.emit hc hX (hw e (by simp)) fun a ha hb he =>
      hfresh a ha hb (by rw [he]; simp)
    have h2 := ih h1 (by simp [hc]) hes (fun e he => hw e (by simp [he])) fun a ha hb hmem => by
      rcases List.mem_append.mp ha with ha | ha
      · exact hfresh a ha hb (List.mem_cons_of_mem _ hmem)
      · rw [List.mem_singleton.mp ha] at hmem
        exact hne hmem
    have e1 : L ++ [⟨X, e.1, e.2, 0⟩] ++ entriesAt X es 0 = L ++ entriesAt X (e :: es) 0 := by
      simp [entriesAt]
    rwa [e1] at h2

/-- Exact entries touch the table of their own block only. -/
theorem emits_block {X Y : HesBlock} (hY : Y ≠ X) (c : Nat × Nat → Nat × Nat)
    (es : List (Nat × Nat)) (s : HesState) :
    (es.foldl (fun s e => s.emit X e (c e)) s).block Y = s.block Y := by
  induction es generalizing s with
  | nil => rfl
  | cons e es ih => rw [List.foldl_cons, ih, s.emit_block_ne hY]

theorem emits_nnz (X : HesBlock) (c : Nat × Nat → Nat × Nat) (es : List (Nat × Nat))
    (s : HesState) : ((es.foldl (fun s e => s.emit X e (c e)) s).block X).nnz =
      (s.block X).nnz + es.length := by
  induction es generalizing s with
  | nil => rfl
  | cons e es ih =>
    rw [List.foldl_cons, ih, s.emit_block_self, List.length_cons]
    simp only [BlockSparsity.insert]
    omega

/-- A run of local insertions: the places get consecutive numbers. -/
theorem inserts_spec (X : HesBlock) (es : List (Nat × Nat)) (hes : es.Nodup) (s : HesState)
    (n : Nat) : ∃ cell, es.foldl (fun (t : HesState × Nat) e => (t.1.insert X e t.2, t.2 + 1))
        (s, n) = (s.modify X fun b => { b with cell := cell, nnz := b.nnz + es.length },
          n + es.length) ∧
      (∀ k e, es[k]? = some e → cell e = some (n + k)) ∧
      ∀ e, e ∉ es → cell e = (s.block X).cell e := by
  induction es generalizing s n with
  | nil =>
    refine ⟨(s.block X).cell, ?_, fun k e h => by simp at h, fun e _ => rfl⟩
    simp [HesState.modify]
  | cons e es ih =>
    obtain ⟨hne, hes⟩ := List.nodup_cons.mp hes
    obtain ⟨cell, h1, h2, h3⟩ := ih hes (s.insert X e n) (n + 1)
    refine ⟨cell, ?_, fun k e' hk => ?_, fun e' he' => ?_⟩
    · rw [List.foldl_cons, h1]
      simp only [HesState.insert, HesState.modify, Function.update_self, Function.update_idem,
        BlockSparsity.insert, List.length_cons, Prod.mk.injEq]
      refine ⟨?_, by omega⟩
      rw [Nat.add_assoc, Nat.add_comm 1]
    · cases k with
      | zero =>
        obtain rfl : e = e' := by simpa using hk
        rw [h3 e hne]
        simp [HesState.insert, HesState.modify, cell_insert]
      | succ k =>
        rw [h2 k e' (by simpa using hk), Nat.add_assoc, Nat.add_comm 1]
    · rw [h3 e' fun h => he' (List.mem_cons_of_mem _ h)]
      have hne' : ¬ e' = e := fun h => he' (h ▸ List.mem_cons_self ..)
      simp [HesState.insert, HesState.modify, cell_insert, hne']

/-- A repeated stretch of block `X` is laid at the end, its coordinates pending. -/
theorem Laid.repeated (h : Laid written pending s L) {s' : HesState} {X : HesBlock}
    (es : List (Nat × Nat)) (nodes : Nat) (ht : ∀ Y, (s'.block Y).type = Y.type)
    (hcoord : ∀ k, s'.coord k = s.coord k)
    (hold : ∀ a ∈ L, s'.slot a = s.slot a ∧
      (s'.block a.blk).cell (a.row, a.col) = (s.block a.blk).cell (a.row, a.col))
    (hnew : ∀ n k e, es[k]? = some e →
      s'.slot ⟨X, e.1, e.2, n⟩ = L.length + (es.length * n + k) ∧
      ((s'.block X).cell e).isSome = true)
    (hp : ∀ a : Addr, a.blk = X → pending a) :
    Laid written pending s' (L ++ (List.range nodes).flatMap (entriesAt X es)) := by
  have split : ∀ k a, (L ++ (List.range nodes).flatMap (entriesAt X es))[k]? = some a →
      L[k]? = some a ∨ ∃ n j, k = L.length + (es.length * n + j) ∧
        es[j]? = some (a.row, a.col) ∧ a = ⟨X, a.row, a.col, n⟩ := by
    intro k a ha
    rw [List.getElem?_append] at ha
    split at ha
    · exact .inl ha
    · obtain ⟨n, j, _, hk, ha⟩ := getElem?_flatMap_range (m := es.length) (fun _ _ => by simp) ha
      obtain ⟨e, he, rfl⟩ := Option.map_eq_some_iff.mp
        ((List.getElem?_map (l := es) (i := j)).symm.trans ha)
      exact .inr ⟨n, j, by omega, he, rfl⟩
  refine ⟨ht, fun k a ha => ?_, fun a ha => ?_, fun k a ha hpa => ?_⟩
  · rcases split k a ha with ha | ⟨n, j, hk, he, hX⟩
    · rw [(hold a (List.mem_of_getElem? ha)).1, h.slot k a ha]
    · rw [hX, (hnew n j _ he).1, hk]
  · obtain ⟨k, ha⟩ := List.mem_iff_getElem?.mp ha
    rcases split k a ha with ha | ⟨n, j, hk, he, hX⟩
    · rw [(hold a (List.mem_of_getElem? ha)).2]
      exact h.inserted a (List.mem_of_getElem? ha)
    · rw [hX]
      exact (hnew n j _ he).2
  · rcases split k a ha with ha | ⟨n, j, hk, he, hX⟩
    · rw [hcoord, h.coord k a ha hpa]
    · exact absurd (hp a (by rw [hX])) hpa

end Steps

/-! ## The loops of `get_hes_sparsity` -/

section Loops

variable {K : Type} [Field K] {T : FLGR K} (P : Problem K) (M : Mesh T) (off : Offsets)
variable {written : Addr → Nat × Nat} {pending : Addr → Prop} {s : HesState} {L : List Addr}

omit [Field K] in
theorem hesFlat_nodup (X : HesBlock) : (hesFlat P off.offX X).Nodup := OrdSet.nodup _

omit [Field K] in
theorem hesFlat_sorted (X : HesBlock) :
    (hesFlat P off.offX X).Pairwise fun a b => a.1 ≤ b.1 := OrderedIndexSet.sorted_row _

omit [Field K] in
theorem Laid.insertB (h : Laid written pending s L) (hB : ∀ a ∈ L, a.blk ≠ .B)
    (h0 : (s.block .B).nnz = 0) (hA : (s.block .A).nnz = L.length)
    (hp : ∀ a : Addr, a.blk = .B → pending a) (nodes : Nat) :
    Laid written pending (hesInsertB P off s).1
      (L ++ (List.range nodes).flatMap (entriesAt .B (hesFlat P off.offX .B))) ∧
    (hesInsertB P off s).2 = (hesFlat P off.offX .B).length ∧
    (hesInsertB P off s).1.counter = s.counter ∧
    ∀ Y, Y ≠ HesBlock.B → (hesInsertB P off s).1.block Y = s.block Y := by
  obtain ⟨cell, h1, h2, h3⟩ := inserts_spec .B (hesFlat P off.offX .B) (hesFlat_nodup P off .B) s 0
  have e : hesInsertB P off s = (s.modify .B fun b => { b with
      cell := cell, nnz := b.nnz + (hesFlat P off.offX .B).length, offPrev := (s.block .A).nnz },
      (hesFlat P off.offX .B).length) := by
    simp [hesInsertB, h1, HesState.modify]
  have hne : ∀ Y, Y ≠ HesBlock.B → (hesInsertB P off s).1.block Y = s.block Y := by
    intro Y hY
    rw [e]
    exact Function.update_of_ne hY ..
  refine ⟨?_, by rw [e], by rw [e]; rfl, hne⟩
  refine h.repeated _ nodes (fun Y => ?_) (fun k => by rw [e]; rfl) (fun a ha => ?_) ?_ hp
  · by_cases hY : Y = .B
    · rw [e, hY]
      simpa [HesState.modify] using h.type .B
    · rw [hne Y hY, h.type]
  · rw [HesState.slot, hne _ (hB a ha)]
    exact ⟨rfl, rfl⟩
  · intro n k e' hk
    have ht := h.type .B
    rw [e]
    simp only [HesState.slot, HesState.modify, Function.update_self, BlockSparsity.accessAt, ht,
      HesBlock.type, BlockSparsity.cellAt, h2 k e' hk, h0, hA, Option.getD_some, Nat.zero_add,
      Option.isSome_some, and_true]
    omega

/-- The cursor loop works on the places of one row. -/
theorem rowLoop_eq {σ : Type} {flat : List (Nat × Nat)} (hl : flat.Pairwise fun a b => a.1 ≤ b.1)
    {f : Nat → σ → σ} {g : σ → Nat × Nat → σ}
    (hf : ∀ c e, flat[c]? = some e → ∀ s, f c s = g s e) (row : Nat) (s : σ) :
    rowLoop flat f row (s, Cursor.below Prod.fst flat row) =
      ((Cursor.row Prod.fst flat row).foldl g s, Cursor.below Prod.fst flat (row + 1)) := by
  refine Cursor.whileLoop_cursor Prod.fst hl (fun s c => ?_) hf s
  by_cases hc : c < flat.length <;> simp [hc]

variable {P off} in
omit [Field K] in
theorem mem_row {X : HesBlock} {x : Nat} {e : Nat × Nat} :
    e ∈ Cursor.row Prod.fst (hesFlat P off.offX X) x ↔ e ∈ hesFlat P off.offX X ∧ e.1 = x := by
  simp [Cursor.row]

omit [Field K] in
theorem row_nodup (X : HesBlock) (x : Nat) :
    (Cursor.row Prod.fst (hesFlat P off.offX X) x).Nodup := (hesFlat_nodup P off X).filter _

omit [Field K] in
/-- A row of an exact block: the loop at `x` lays the entries of row `x`. -/
theorem Laid.rowLoop (h : Laid written pending s L) (hc : s.counter = L.length) {X : HesBlock}
    (hX : X.type = .exact) (x : Nat) {c : Nat → Nat × Nat}
    (hw : ∀ k e, (hesFlat P off.offX X)[k]? = some e → e.1 = x →
      written ⟨X, e.1, e.2, 0⟩ = c k)
    (hrow : ∀ a ∈ L, a.blk = X → a.row ≠ x) :
    ∃ s', rowLoop (hesFlat P off.offX X)
        (fun k s => s.emit X ((hesFlat P off.offX X).getD k (0, 0)) (c k)) x
        (s, Cursor.below Prod.fst (hesFlat P off.offX X) x) =
      (s', Cursor.below Prod.fst (hesFlat P off.offX X) (x + 1)) ∧
      Laid written pending s'
        (L ++ entriesAt X (Cursor.row Prod.fst (hesFlat P off.offX X) x) 0) ∧
      s'.counter = (L ++ entriesAt X (Cursor.row Prod.fst (hesFlat P off.offX X) x) 0).length ∧
      ∀ Y, Y ≠ X → s'.block Y = s.block Y := by
  -- the cursor of an element is its position
  have hf : ∀ k e, (hesFlat P off.offX X)[k]? = some e → ∀ s : HesState,
      s.emit X ((hesFlat P off.offX X).getD k (0, 0)) (c k) =
        s.emit X e (c ((hesFlat P off.offX X).idxOf e)) := by
    intro k e hk s
    obtain ⟨hlt, he⟩ := List.getElem?_eq_some_iff.mp hk
    rw [← he, (hesFlat_nodup P off X).idxOf_getElem, List.getD_eq_getElem _ _ hlt]
  have hw' : ∀ e ∈ Cursor.row Prod.fst (hesFlat P off.offX X) x,
      written ⟨X, e.1, e.2, 0⟩ = c ((hesFlat P off.offX X).idxOf e) := by
    intro e he
    obtain ⟨hmem, hx⟩ := mem_row.mp he
    exact hw _ e (by rw [List.getElem?_eq_getElem (List.idxOf_lt_length_of_mem hmem),
      List.getElem_idxOf]) hx
  obtain ⟨h1, h2⟩ := h.emits hc hX _ (row_nodup P off X x) hw'
    fun a ha hb hmem => hrow a ha hb (mem_row.mp hmem).2
  exact ⟨_, rowLoop_eq (hesFlat_sorted P off X) hf x s, h1, h2, fun Y hY => emits_block hY _ _ s⟩

theorem Laid.insertF (h : Laid written pending s L) (hc : s.counter = L.length) (p : Nat)
    (hF : ∀ a ∈ L, a.blk = .F → a.row ≠ p) (hp : ∀ a : Addr, a.blk = .F → pending a) :
    ∃ s', hesInsertF P M off p (s, Cursor.below Prod.fst (hesFlat P off.offX .F) p) =
      (s', Cursor.below Prod.fst (hesFlat P off.offX .F) (p + 1)) ∧
      Laid written pending s' (L ++ (List.range (M.nodeCount - 1)).flatMap
        (entriesAt .F (Cursor.row Prod.fst (hesFlat P off.offX .F) p))) ∧
      s'.counter = (L ++ (List.range (M.nodeCount - 1)).flatMap
        (entriesAt .F (Cursor.row Prod.fst (hesFlat P off.offX .F) p))).length := by
  obtain ⟨es, hes⟩ : ∃ es, Cursor.row Prod.fst (hesFlat P off.offX .F) p = es := ⟨_, rfl⟩
  have hes_row : ∀ e ∈ es, e.1 = p := fun e he => (mem_row.mp (hes ▸ he)).2
  let s0 := s.modify .F fun b =>
    { b with rowOffsetPrev := Function.update b.rowOffsetPrev p s.counter }
  obtain ⟨cell, h1, h2, h3⟩ := inserts_spec .F es (hes ▸ row_nodup P off .F p) s0 0
  have hf : ∀ k e, (hesFlat P off.offX .F)[k]? = some e → ∀ t : HesState × Nat,
      (t.1.insert .F ((hesFlat P off.offX .F).getD k (0, 0)) t.2, t.2 + 1) =
        (t.1.insert .F e t.2, t.2 + 1) := by
    intro k e hk t
    rw [List.getD_eq_getElem?_getD, hk]
    rfl
  have hloop := rowLoop_eq (hesFlat_sorted P off .F) hf p (s0, 0)
  rw [hes, h1] at hloop
  -- the table of `F` after the pass
  let b' : BlockSparsity := { s.block .F with
    cell := cell, nnz := (s.block .F).nnz + es.length
    rowOffsetPrev := Function.update (s.block .F).rowOffsetPrev p s.counter
    rowSize := Function.update (s.block .F).rowSize p es.length }
  have e : hesInsertF P M off p (s, Cursor.below Prod.fst (hesFlat P off.offX .F) p) =
      ({ s.modify .F (fun _ => b') with counter := s.counter + (M.nodeCount - 1) * es.length },
        Cursor.below Prod.fst (hesFlat P off.offX .F) (p + 1)) := by
    rw [hesInsertF]
    simp only [s0] at hloop
    simp only [hloop]
    simp [b', HesState.modify]
  rw [hes]
  refine ⟨_, e, ?_, ?_⟩
  · refine h.repeated es _ (fun Y => ?_) (fun k => rfl) (fun a ha => ?_) (fun n k e' hk => ?_) hp
    · by_cases hY : Y = .F
      · rw [hY]
        simpa [HesState.modify, b'] using h.type .F
      · simpa [HesState.modify, hY] using h.type Y
    · by_cases hb : a.blk = .F
      · have hr := hF a ha hb
        have hcell : cell (a.row, a.col) = (s.block .F).cell (a.row, a.col) := by
          rw [h3 _ fun hmem => hr (hes_row _ hmem)]
          simp [s0, HesState.modify]
        have ht := h.type .F
        simp [HesState.slot, HesState.modify, BlockSparsity.accessAt, BlockSparsity.cellAt, hb, b',
          hcell, hr, ht, HesBlock.type]
      · simp [HesState.slot, HesState.modify, hb]
    · have ht := h.type .F
      have hrow : e'.1 = p := hes_row e' (List.mem_of_getElem? hk)
      have hcell := h2 k e' hk
      rw [← Prod.mk.eta (p := e'), hrow] at hcell ⊢
      simp only [HesState.slot, HesState.modify, Function.update_self, BlockSparsity.accessAt, ht,
        HesBlock.type, BlockSparsity.cellAt, hcell, b', Option.getD_some, Nat.zero_add,
        Option.isSome_some, and_true]
      omega
  · rw [List.length_append, length_flatMap_range]
    simp [hc]

end Loops

/-! ## The coordinates of the repeated blocks -/

section Pattern

variable {K : Type} [Field K] {T : FLGR K} (P : Problem K) (M : Mesh T) (off : Offsets)
variable {written : Addr → Nat × Nat} {pending : Addr → Prop} {s : HesState} {L : List Addr}

theorem Laid.weaken {pending' : Addr → Prop} (h : Laid written pending s L)
    (hp : ∀ a ∈ L, pending a → pending' a) : Laid written pending' s L where
  type := h.type
  slot := h.slot
  inserted := h.inserted
  coord := fun k a ha hpa => h.coord k a ha fun h' => hpa (hp a (List.mem_of_getElem? ha) h')

theorem HesState.put_coord (s : HesState) (k : Nat) (c : Nat × Nat) (k' : Nat) :
    (s.put k c).coord k' = if k' = k then c else s.coord k' := by
  by_cases h : k' = k
  · subst h
    simp [put, coord]
  · simp [put, coord, h]

/-- Writing the coordinates of a laid entry settles it and disturbs no other. -/
theorem Laid.put (h : Laid written pending s L) {a : Addr} (ha : a ∈ L) :
    Laid written (fun b => pending b ∧ b ≠ a) (s.put (s.slot a) (written a)) L := by
  obtain ⟨k, hk⟩ := List.mem_iff_getElem?.mp ha
  have hslot := h.slot k a hk
  refine ⟨h.type, h.slot, h.inserted, fun k' b hb hp => ?_⟩
  rw [s.put_coord, hslot]
  by_cases hkk : k' = k
  · subst hkk
    obtain rfl : a = b := by simpa [hk] using hb
    rw [if_pos rfl]
  · rw [if_neg hkk]
    refine h.coord k' b hb fun hpb => hp ⟨hpb, fun hba => hkk ?_⟩
    rw [← h.slot k' b hb, hba, hslot]

theorem Laid.puts (h : Laid written pending s L) (ops : List (Addr × (Nat × Nat)))
    (hops : ∀ op ∈ ops, op.1 ∈ L ∧ op.2 = written op.1) :
    Laid written (fun b => pending b ∧ b ∉ ops.map Prod.fst)
      (ops.foldl (fun s op => s.put (s.slot op.1) op.2) s) L := by
  induction ops generalizing s pending with
  | nil => exact h.weaken fun a _ hp => ⟨hp, by simp⟩
  | cons op ops ih =>
    obtain ⟨hmem, hw⟩ := hops op (by simp)
    rw [List.foldl_cons, hw]
    refine (ih (h.put hmem) fun o ho => hops o (by simp [ho])).weaken fun a _ hp => ?_
    obtain ⟨⟨h1, h2⟩, h3⟩ := hp
    exact ⟨h1, by simpa using ⟨h2, by simpa using h3⟩⟩

theorem puts_frame (ops : List (Addr × (Nat × Nat))) (s : HesState) :
    (ops.foldl (fun s op => s.put (s.slot op.1) op.2) s).counter = s.counter ∧
      (ops.foldl (fun s op => s.put (s.slot op.1) op.2) s).block = s.block := by
  induction ops generalizing s with
  | nil => exact ⟨rfl, rfl⟩
  | cons op ops ih => exact ih _

/-- The loop over the nodes settles all entries of block `X`. -/
theorem Laid.patternNodes (h : Laid written pending s L) {X : HesBlock}
    {c : Nat → Nat → Nat × Nat → Nat × Nat}
    (hmem : ∀ n e, n < M.nodeCount - 1 → e ∈ hesFlat P off.offX X → ⟨X, e.1, e.2, n⟩ ∈ L)
    (honly : ∀ a ∈ L, a.blk = X →
      a.node < M.nodeCount - 1 ∧ (a.row, a.col) ∈ hesFlat P off.offX X)
    (hw : ∀ i j e, i < M.intervals → j < M.nodesAt i →
      c i j e = written ⟨X, e.1, e.2, M.accNodesAt i j⟩) :
    Laid written (fun a => pending a ∧ a.blk ≠ X) (hesPatternNodes P M off X c s) L ∧
      (hesPatternNodes P M off X c s).counter = s.counter ∧
      (hesPatternNodes P M off X c s).block = s.block := by
  let ops (i j : Nat) : List (Addr × (Nat × Nat)) :=
    if M.isLast i j then []
    else (hesFlat P off.offX X).map fun e => (⟨X, e.1, e.2, M.accNodesAt i j⟩, c i j e)
  have e : hesPatternNodes P M off X c s =
      (M.nodeOps ops).foldl (fun s op => s.put (s.slot op.1) op.2) s := by
    refine M.forNodes_foldl (fun i j _ _ t => ?_) s
    dsimp only [ops]
    split
    · rfl
    · rw [List.foldl_map]
      rfl
  have hops : ∀ op ∈ M.nodeOps ops, ∃ i j, i < M.intervals ∧ j < M.nodesAt i ∧
      M.accNodesAt i j < M.nodeCount - 1 ∧ ∃ e ∈ hesFlat P off.offX X,
        op = (⟨X, e.1, e.2, M.accNodesAt i j⟩, c i j e) := by
    intro op hop
    obtain ⟨i, hi, hop⟩ := List.mem_flatMap.mp hop
    obtain ⟨j, hj, hop⟩ := List.mem_flatMap.mp hop
    have hi := List.mem_range.mp hi
    have hj := List.mem_range.mp hj
    dsimp only [ops] at hop
    split at hop
    · simp at hop
    · rename_i hlast
      obtain ⟨e, he, rfl⟩ := List.mem_map.mp hop
      have hlt := M.accNodesAt_lt hi hj
      have hne : M.accNodesAt i j ≠ M.nodeCount - 1 := fun h => hlast ((M.isLast_iff hi hj).mpr h)
      exact ⟨i, j, hi, hj, by omega, e, he, rfl⟩
  rw [e]
  refine ⟨(h.puts _ fun op hop => ?_).weaken fun a ha hp => ⟨hp.1, fun hX => hp.2 ?_⟩,
    puts_frame _ s⟩
  · obtain ⟨i, j, hi, hj, hn, e, he, rfl⟩ := hops op hop
    exact ⟨hmem _ e hn he, hw i j e hi hj⟩
  · -- every entry of `X` is visited at its node
    obtain ⟨hn, hflat⟩ := honly a ha hX
    obtain ⟨i, j, hi, hj, hacc⟩ := M.exists_accNodesAt (k := a.node) (by omega)
    refine List.mem_map.mpr ⟨(a, c i j (a.row, a.col)), ?_, rfl⟩
    refine List.mem_flatMap.mpr ⟨i, List.mem_range.mpr hi,
      List.mem_flatMap.mpr ⟨j, List.mem_range.mpr hj, ?_⟩⟩
    have hlast : M.isLast i j = false := by
      rw [Bool.eq_false_iff]
      intro hl
      have := (M.isLast_iff hi hj).mp hl
      omega
    dsimp only [ops]
    rw [hlast, if_neg (by decide)]
    refine List.mem_map.mpr ⟨_, hflat, ?_⟩
    rw [hacc, ← hX]

end Pattern

/-! ## The whole layout -/

section Layout

variable {K : Type} [Field K] {T : FLGR K} (P : Problem K) (M : Mesh T) (off : Offsets)

/-- The places of block `X` in row `x`. -/
def flatRow (X : HesBlock) (x : Nat) : List (Nat × Nat) :=
  Cursor.row Prod.fst (hesFlat P off.offX X) x

def layoutCD (xuIndex : Nat) : List Addr :=
  entriesAt .C (flatRow P off .C xuIndex) 0 ++ entriesAt .D (flatRow P off .D xuIndex) 0

def layoutEFGH (pIndex : Nat) : List Addr :=
  entriesAt .E (flatRow P off .E pIndex) 0 ++
  (List.range (M.nodeCount - 1)).flatMap (entriesAt .F (flatRow P off .F pIndex)) ++
  entriesAt .G (flatRow P off .G pIndex) 0 ++ entriesAt .H (flatRow P off .H pIndex) 0

def layoutAB : List Addr :=
  entriesAt .A (hesFlat P off.offX .A) 0 ++
  (List.range (M.nodeCount - 1)).flatMap (entriesAt .B (hesFlat P off.offX .B))

/-- All entries, in the order of the array of nonzeros. -/
def hesLayout : List Addr :=
  layoutAB P M off ++ (List.range off.offXu).flatMap (layoutCD P off) ++
    (List.range P.pc.pSize).flatMap (layoutEFGH P M off)

/-- First variable of node `n`. -/
def nodeStart (n : Nat) : Nat := off.offX + off.offXu * n

/-- The coordinates the code writes for an entry. For `H` they are read from `G_flat`, at the
position of the entry in `H_flat`. -/
def hesWritten (past : Nat → Nat × Nat) (a : Addr) : Nat × Nat :=
  match a.blk with
  | .A => (a.row, a.col)
  | .B => (nodeStart off a.node + a.row, nodeStart off a.node + a.col)
  | .C => (off.offLastXu + a.row, a.col)
  | .D => (off.offLastXu + a.row, off.offLastXu + a.col)
  | .E => (off.offXuTotal + a.row, a.col)
  | .F => (off.offXuTotal + a.row, nodeStart off a.node + a.col)
  | .G => (off.offXuTotal + a.row, off.offLastXu + a.col)
  | .H =>
    let g := flatAt (hesFlat P off.offX .G) past ((hesFlat P off.offX .H).idxOf (a.row, a.col))
    (off.offXuTotal + g.1, off.offXuTotal + g.2)

variable {P M off}

omit [Field K] in
theorem mem_flatRow {X : HesBlock} {x : Nat} {e : Nat × Nat} :
    e ∈ flatRow P off X x ↔ e ∈ hesFlat P off.offX X ∧ e.1 = x := mem_row

omit [Field K] in
theorem mem_layoutCD {x : Nat} {a : Addr} : a ∈ layoutCD P off x ↔
    (a.blk = .C ∨ a.blk = .D) ∧ a.node = 0 ∧ (a.row, a.col) ∈ hesFlat P off.offX a.blk ∧
      a.row = x := by
  simp only [layoutCD, List.mem_append, mem_entriesAt, mem_flatRow]
  constructor
  · rintro (⟨hb, h⟩ | ⟨hb, h⟩)
    · rw [hb]
      exact ⟨.inl rfl, h⟩
    · rw [hb]
      exact ⟨.inr rfl, h⟩
  · rintro ⟨hb | hb, h⟩
    · rw [hb] at h
      exact .inl ⟨hb, h⟩
    · rw [hb] at h
      exact .inr ⟨hb, h⟩

theorem mem_layoutEFGH {p : Nat} {a : Addr} : a ∈ layoutEFGH P M off p ↔
    ((a.blk = .E ∨ a.blk = .G ∨ a.blk = .H) ∧ a.node = 0 ∨
      a.blk = .F ∧ a.node < M.nodeCount - 1) ∧
    (a.row, a.col) ∈ hesFlat P off.offX a.blk ∧ a.row = p := by
  simp only [layoutEFGH, List.mem_append, List.mem_flatMap, List.mem_range, mem_entriesAt,
    mem_flatRow]
  constructor
  · rintro (((⟨hb, hn, h⟩ | ⟨n, hn, hb, rfl, h⟩) | ⟨hb, hn, h⟩) | ⟨hb, hn, h⟩)
    · exact ⟨.inl ⟨.inl hb, hn⟩, by rw [hb]; exact h⟩
    · exact ⟨.inr ⟨hb, hn⟩, by rw [hb]; exact h⟩
    · exact ⟨.inl ⟨.inr (.inl hb), hn⟩, by rw [hb]; exact h⟩
    · exact ⟨.inl ⟨.inr (.inr hb), hn⟩, by rw [hb]; exact h⟩
  · rintro ⟨⟨hb | hb | hb, hn⟩ | ⟨hb, hn⟩, h⟩ <;> rw [hb] at h
    · exact .inl (.inl (.inl ⟨hb, hn, h⟩))
    · exact .inl (.inr ⟨hb, hn, h⟩)
    · exact .inr ⟨hb, hn, h⟩
    · exact .inl (.inl (.inr ⟨_, hn, hb, rfl, h⟩))

theorem mem_layoutAB {a : Addr} : a ∈ layoutAB P M off ↔
    (a.blk = .A ∧ a.node = 0 ∨ a.blk = .B ∧ a.node < M.nodeCount - 1) ∧
      (a.row, a.col) ∈ hesFlat P off.offX a.blk := by
  simp only [layoutAB, List.mem_append, List.mem_flatMap, List.mem_range, mem_entriesAt]
  constructor
  · rintro (⟨hb, hn, h⟩ | ⟨n, hn, hb, rfl, h⟩)
    · exact ⟨.inl ⟨hb, hn⟩, by rw [hb]; exact h⟩
    · exact ⟨.inr ⟨hb, hn⟩, by rw [hb]; exact h⟩
  · rintro ⟨⟨hb, hn⟩ | ⟨hb, hn⟩, h⟩ <;> rw [hb] at h
    · exact .inl ⟨hb, hn, h⟩
    · exact .inr ⟨_, hn, hb, rfl, h⟩

end Layout

/-! ## `get_hes_sparsity` -/

section Sparsity

variable {K : Type} [Field K] {T : FLGR K} (P : Problem K) (M : Mesh T) (off : Offsets)
variable (past : Nat → Nat × Nat) {pending : Addr → Prop} {s : HesState} {L : List Addr}

omit [Field K] in
theorem hesPatternCD_laid (h : Laid (hesWritten P off past) pending s L)
    (hc : s.counter = L.length) (x : Nat)
    (hrow : ∀ a ∈ L, a.blk = .C ∨ a.blk = .D → a.row ≠ x) :
    ∃ s', hesPatternCD P off x (s, Cursor.below Prod.fst (hesFlat P off.offX .C) x,
        Cursor.below Prod.fst (hesFlat P off.offX .D) x) =
      (s', Cursor.below Prod.fst (hesFlat P off.offX .C) (x + 1),
        Cursor.below Prod.fst (hesFlat P off.offX .D) (x + 1)) ∧
      Laid (hesWritten P off past) pending s' (L ++ layoutCD P off x) ∧
      s'.counter = (L ++ layoutCD P off x).length := by
  obtain ⟨s1, e1, h1, hc1, -⟩ := h.rowLoop P off hc (X := .C) rfl x
    (c := fun k => (off.offLastXu + ((hesFlat P off.offX .C).getD k (0, 0)).1,
      ((hesFlat P off.offX .C).getD k (0, 0)).2))
    (fun k e hk _ => by simp [hesWritten, List.getD_eq_getElem?_getD, hk])
    fun a ha hb => hrow a ha (.inl hb)
  obtain ⟨s2, e2, h2, hc2, -⟩ := h1.rowLoop P off hc1 (X := .D) rfl x
    (c := fun k => (off.offLastXu + ((hesFlat P off.offX .D).getD k (0, 0)).1,
      off.offLastXu + ((hesFlat P off.offX .D).getD k (0, 0)).2))
    (fun k e hk _ => by simp [hesWritten, List.getD_eq_getElem?_getD, hk])
    fun a ha hb => by
      rcases List.mem_append.mp ha with ha | ha
      · exact hrow a ha (.inr hb)
      · rw [(mem_entriesAt.mp ha).1] at hb
        cases hb
  refine ⟨s2, ?_, ?_, ?_⟩
  · simp only [hesPatternCD, e1, e2]
  · simpa only [layoutCD, flatRow, List.append_assoc] using h2
  · simpa only [layoutCD, flatRow, List.append_assoc] using hc2

theorem hesPatternEFGH_laid (h : Laid (hesWritten P off past) pending s L)
    (hc : s.counter = L.length) (p : Nat)
    (hrow : ∀ a ∈ L, a.blk = .E ∨ a.blk = .F ∨ a.blk = .G ∨ a.blk = .H → a.row ≠ p)
    (hp : ∀ a : Addr, a.blk = .F → pending a) :
    ∃ s', hesPatternEFGH P M off past p (s, ⟨Cursor.below Prod.fst (hesFlat P off.offX .E) p,
        Cursor.below Prod.fst (hesFlat P off.offX .F) p,
        Cursor.below Prod.fst (hesFlat P off.offX .G) p,
        Cursor.below Prod.fst (hesFlat P off.offX .H) p⟩) =
      (s', ⟨Cursor.below Prod.fst (hesFlat P off.offX .E) (p + 1),
        Cursor.below Prod.fst (hesFlat P off.offX .F) (p + 1),
        Cursor.below Prod.fst (hesFlat P off.offX .G) (p + 1),
        Cursor.below Prod.fst (hesFlat P off.offX .H) (p + 1)⟩) ∧
      Laid (hesWritten P off past) pending s' (L ++ layoutEFGH P M off p) ∧
      s'.counter = (L ++ layoutEFGH P M off p).length := by
  obtain ⟨s1, e1, h1, hc1, -⟩ := h.rowLoop P off hc (X := .E) rfl p
    (c := fun k => (off.offXuTotal + ((hesFlat P off.offX .E).getD k (0, 0)).1,
      ((hesFlat P off.offX .E).getD k (0, 0)).2))
    (fun k e hk _ => by simp [hesWritten, List.getD_eq_getElem?_getD, hk])
    fun a ha hb => hrow a ha (.inl hb)
  obtain ⟨s2, e2, h2, hc2⟩ := h1.insertF P M off hc1 p (fun a ha hb => by
    rcases List.mem_append.mp ha with ha | ha
    · exact hrow a ha (.inr (.inl hb))
    · rw [(mem_entriesAt.mp ha).1] at hb
      cases hb) hp
  obtain ⟨s3, e3, h3, hc3, -⟩ := h2.rowLoop P off hc2 (X := .G) rfl p
    (c := fun k => (off.offXuTotal + ((hesFlat P off.offX .G).getD k (0, 0)).1,
      off.offLastXu + ((hesFlat P off.offX .G).getD k (0, 0)).2))
    (fun k e hk _ => by simp [hesWritten, List.getD_eq_getElem?_getD, hk])
    fun a ha hb => by
      simp only [List.mem_append, List.mem_flatMap, mem_entriesAt, hb] at ha
      rcases ha with (ha | ⟨hb', -⟩) | ⟨_, -, hb', -⟩
      · exact hrow a ha (.inr (.inr (.inl hb)))
      · cases hb'
      · cases hb'
  obtain ⟨s4, e4, h4, hc4, -⟩ := h3.rowLoop P off hc3 (X := .H) rfl p
    (c := fun k => (off.offXuTotal + (flatAt (hesFlat P off.offX .G) past k).1,
      off.offXuTotal + (flatAt (hesFlat P off.offX .G) past k).2))
    (fun k e hk _ => by
      obtain ⟨hlt, he⟩ := List.getElem?_eq_some_iff.mp hk
      simp only [hesWritten]
      rw [Prod.mk.eta, ← he, (hesFlat_nodup P off .H).idxOf_getElem])
    fun a ha hb => by
      simp only [List.mem_append, List.mem_flatMap, mem_entriesAt, hb] at ha
      rcases ha with ((ha | ⟨hb', -⟩) | ⟨_, -, hb', -⟩) | ⟨hb', -⟩
      · exact hrow a ha (.inr (.inr (.inr hb)))
      · cases hb'
      · cases hb'
      · cases hb'
  refine ⟨s4, ?_, ?_, ?_⟩
  · simp only [hesPatternEFGH, e1, e2, e3, e4]
  · simpa only [layoutEFGH, flatRow, List.append_assoc] using h4
  · simpa only [layoutEFGH, flatRow, List.append_assoc] using hc4

omit [Field K] in
theorem hesInsertB_snd (s : HesState) :
    (hesInsertB P off s).2 = (hesFlat P off.offX .B).length := by
  obtain ⟨cell, h1, -⟩ := inserts_spec .B (hesFlat P off.offX .B) (hesFlat_nodup P off .B) s 0
  simp [hesInsertB, h1]

variable (iRow jCol : Nat → Nat)

section Tables

/-! The tables may hold entries already, where those of `A` and `B` count none. -/

variable {block : HesBlock → BlockSparsity} (ht : ∀ X, (block X).type = X.type)
variable (hA : (block .A).nnz = 0) (hB : (block .B).nnz = 0)

include ht hA hB

/-- The blocks after `A`, before the repeated blocks. -/
theorem layoutAB_laid :
    ∃ s, hesPatternNodes P M (getSizes P M) .B
        (fun i j e => ((getSizes P M).offAccXu i j + e.1, (getSizes P M).offAccXu i j + e.2))
        (hesInsertB P (getSizes P M) (hesPatternA P (getSizes P M)
          { counter := 0, iRow, jCol, block })).1 = s ∧
      Laid (hesWritten P (getSizes P M) past) (fun a => a.blk = .F) s
        (layoutAB P M (getSizes P M)) ∧
      s.counter + (hesFlat P (getSizes P M).offX .B).length * (M.nodeCount - 1) =
        (layoutAB P M (getSizes P M)).length := by
  have h0 : Laid (hesWritten P (getSizes P M) past) (fun a => a.blk = .B ∨ a.blk = .F)
      { counter := 0, iRow, jCol, block } [] :=
    ⟨ht, fun k a h => by simp at h, fun a h => by simp at h, fun k a h => by simp at h⟩
  obtain ⟨h1, hcA⟩ := h0.emits rfl (X := .A) rfl (c := fun e => (e.1, e.2))
    (hesFlat P (getSizes P M).offX .A) (hesFlat_nodup P _ .A) (fun e _ => rfl)
    fun a ha => by simp at ha
  rw [List.nil_append] at h1 hcA
  obtain ⟨h2, -, hcB, -⟩ := h1.insertB P (getSizes P M)
    (fun a ha hb => by rw [(mem_entriesAt.mp ha).1] at hb; cases hb)
    (by rw [emits_block (by decide)]; exact hB) (by rw [emits_nnz]; simp [hA])
    (fun a hb => .inl hb)
    (M.nodeCount - 1)
  obtain ⟨hN, hcN, -⟩ := h2.patternNodes P M (getSizes P M) (X := .B)
    (c := fun i j e => ((getSizes P M).offAccXu i j + e.1, (getSizes P M).offAccXu i j + e.2))
    (fun n e hn he => mem_layoutAB.mpr ⟨.inr ⟨rfl, hn⟩, he⟩)
    (fun a ha hb => by
      obtain ⟨h, hm⟩ := mem_layoutAB.mp ha
      rw [hb] at h hm
      exact ⟨by simpa using h, hm⟩)
    fun i j e hi hj => by rw [getSizes_offAccXu P M hi hj]; rfl
  refine ⟨_, rfl, hN.weaken fun a _ hp => ?_, ?_⟩
  · rcases hp with ⟨hb | hb, hne⟩
    · exact absurd hb hne
    · exact hb
  · refine (congrArg (· + _) (hcN.trans (hcB.trans hcA))).trans ?_
    rw [layoutAB, List.length_append, length_flatMap_range]
    simp [Nat.mul_comm]

/-- Every entry is laid, with the coordinates the code writes for it. -/
theorem getHesSparsityFrom_laid (hP : HessianLayoutOk P) :
    Laid (hesWritten P (getSizes P M) past) (fun _ => False)
        (getHesSparsityFrom P M (getSizes P M) past block iRow jCol)
        (hesLayout P M (getSizes P M)) ∧
      (getHesSparsityFrom P M (getSizes P M) past block iRow jCol).counter =
        (hesLayout P M (getSizes P M)).length := by
  obtain ⟨sB, eB, hB, hcB⟩ := layoutAB_laid P M past iRow jCol ht hA hB
  let s1 : HesState := { sB with
    counter := sB.counter + (hesFlat P (getSizes P M).offX .B).length * (M.nodeCount - 1) }
  have hB' : Laid (hesWritten P (getSizes P M) past) (fun a => a.blk = .F) s1
      (layoutAB P M (getSizes P M)) := ⟨hB.type, hB.slot, hB.inserted, hB.coord⟩
  have hCD := forRange_inv (n := (getSizes P M).offXu) (f := hesPatternCD P (getSizes P M))
    (s := (s1, 0, 0)) (P := fun x t => ∃ s, t = (s,
        Cursor.below Prod.fst (hesFlat P (getSizes P M).offX .C) x,
        Cursor.below Prod.fst (hesFlat P (getSizes P M).offX .D) x) ∧
      Laid (hesWritten P (getSizes P M) past) (fun a => a.blk = .F) s
        (layoutAB P M (getSizes P M) ++ (List.range x).flatMap (layoutCD P (getSizes P M))) ∧
      s.counter = (layoutAB P M (getSizes P M) ++
        (List.range x).flatMap (layoutCD P (getSizes P M))).length)
    ⟨s1, by simp, by simpa using hB', by
      rw [List.range_zero, List.flatMap_nil, List.append_nil]
      exact hcB⟩ ?_
  · obtain ⟨s2, e2, h2, hc2⟩ := hCD
    have hEH := forRange_inv (n := P.pc.pSize) (f := hesPatternEFGH P M (getSizes P M) past)
      (s := (s2, {})) (P := fun p t => ∃ s, t = (s,
          ⟨Cursor.below Prod.fst (hesFlat P (getSizes P M).offX .E) p,
          Cursor.below Prod.fst (hesFlat P (getSizes P M).offX .F) p,
          Cursor.below Prod.fst (hesFlat P (getSizes P M).offX .G) p,
          Cursor.below Prod.fst (hesFlat P (getSizes P M).offX .H) p⟩) ∧
        Laid (hesWritten P (getSizes P M) past) (fun a => a.blk = .F) s
          (layoutAB P M (getSizes P M) ++
            (List.range (getSizes P M).offXu).flatMap (layoutCD P (getSizes P M)) ++
            (List.range p).flatMap (layoutEFGH P M (getSizes P M))) ∧
        s.counter = (layoutAB P M (getSizes P M) ++
            (List.range (getSizes P M).offXu).flatMap (layoutCD P (getSizes P M)) ++
            (List.range p).flatMap (layoutEFGH P M (getSizes P M))).length)
      ⟨s2, by simp, by simpa using h2, by simpa using hc2⟩ ?_
    · obtain ⟨s3, e3, h3, hc3⟩ := hEH
      obtain ⟨hF, hcF, -⟩ := h3.patternNodes P M (getSizes P M) (X := .F)
        (c := fun i j e => ((getSizes P M).offXuTotal + e.1, (getSizes P M).offAccXu i j + e.2))
        (fun n e hn he => by
          have hrow : e.1 < P.pc.pSize := (hP.inside he).1
          exact List.mem_append_right _ (List.mem_flatMap.mpr ⟨e.1, List.mem_range.mpr hrow,
            mem_layoutEFGH.mpr ⟨.inr ⟨rfl, hn⟩, he, rfl⟩⟩))
        (fun a ha hb => by
          rcases List.mem_append.mp ha with ha | ha
          · rcases List.mem_append.mp ha with ha | ha
            · have := (mem_layoutAB.mp ha).1
              simp [hb] at this
            · obtain ⟨x, _, ha⟩ := List.mem_flatMap.mp ha
              have := (mem_layoutCD.mp ha).1
              simp [hb] at this
          · obtain ⟨p, _, ha⟩ := List.mem_flatMap.mp ha
            obtain ⟨h, hm, -⟩ := mem_layoutEFGH.mp ha
            rw [hb] at h hm
            exact ⟨by simpa using h, hm⟩)
        fun i j e hi hj => by rw [getSizes_offAccXu P M hi hj]; rfl
      have e : getHesSparsityFrom P M (getSizes P M) past block iRow jCol =
          hesPatternNodes P M (getSizes P M) .F
            (fun i j e => ((getSizes P M).offXuTotal + e.1, (getSizes P M).offAccXu i j + e.2))
            s3 := by
        have hs1 : getHesSparsityFrom P M (getSizes P M) past block iRow jCol =
            hesPatternNodes P M (getSizes P M) .F
              (fun i j e => ((getSizes P M).offXuTotal + e.1, (getSizes P M).offAccXu i j + e.2))
              (forRange P.pc.pSize (hesPatternEFGH P M (getSizes P M) past)
                ((forRange (getSizes P M).offXu (hesPatternCD P (getSizes P M)) (s1, 0, 0)).1,
                  {})).1 := by
          dsimp only [s1]
          rw [← hesInsertB_snd P (getSizes P M) (hesPatternA P (getSizes P M)
            { counter := 0, iRow, jCol, block }), ← eB]
          rfl
        rw [hs1, e2, e3]
      rw [e]
      exact ⟨hF.weaken fun a _ h => h.2 h.1, hcF.trans hc3⟩
    · rintro p - t ⟨s, rfl, h, hc⟩
      obtain ⟨s', e', h', hc'⟩ := hesPatternEFGH_laid P M (getSizes P M) past h hc p
        (fun a ha hb => by
          simp only [List.mem_append, List.mem_flatMap, List.mem_range] at ha
          rcases ha with (ha | ⟨x, -, ha⟩) | ⟨q, hq, ha⟩
          · have := (mem_layoutAB.mp ha).1
            rcases hb with hb | hb | hb | hb <;> simp [hb] at this
          · have := (mem_layoutCD.mp ha).1
            rcases hb with hb | hb | hb | hb <;> simp [hb] at this
          · have := (mem_layoutEFGH.mp ha).2.2
            omega) fun a hb => hb
      refine ⟨s', e', ?_⟩
      rw [List.range_succ, List.flatMap_append, List.flatMap_singleton, ← List.append_assoc]
      exact ⟨h', hc'⟩
  · rintro x - t ⟨s, rfl, h, hc⟩
    obtain ⟨s', e', h', hc'⟩ := hesPatternCD_laid P (getSizes P M) past h hc x
      (fun a ha hb => by
        simp only [List.mem_append, List.mem_flatMap, List.mem_range] at ha
        rcases ha with ha | ⟨y, hy, ha⟩
        · have := (mem_layoutAB.mp ha).1
          rcases hb with hb | hb <;> simp [hb] at this
        · have := (mem_layoutCD.mp ha).2.2.2
          omega)
    refine ⟨s', e', ?_⟩
    rw [List.range_succ, List.flatMap_append, List.flatMap_singleton, ← List.append_assoc]
    exact ⟨h', hc'⟩

end Tables

theorem getHesSparsity_laid (hP : HessianLayoutOk P) :
    Laid (hesWritten P (getSizes P M) past) (fun _ => False)
      (getHesSparsity P M (getSizes P M) past iRow jCol) (hesLayout P M (getSizes P M)) :=
  (getHesSparsityFrom_laid P M past iRow jCol (fun _ => rfl) rfl rfl hP).1

end Sparsity

end GDOP
end Moo
