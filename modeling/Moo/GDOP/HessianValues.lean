import Moo.GDOP.HessianCorrect

/-!
# GDOP.HessianValues

What `eval_hes_internal` leaves in the slots.

* `hesOps`: the additions it makes, each with the entry it is made onto; `hesOps_valid`: all of
  them are onto entries of the layout.
* `evalHesInternal_eq`: it performs exactly these, at the slots of the entries.
* `hesValues`: in each slot stands the sum of the buffer entries of its place.
-/

namespace Moo
namespace GDOP

open Loop Coo

/-! ## The values -/

section Values

variable {K : Type} [Field K] {T : FLGR K} (P : Problem K) (M : Mesh T) (B : Buffers K)

/-- The buffer entries of one list of the layout that have a given place in their block. -/
def placeSum (l : List HessianSparsity) (rowOff colOff : Nat) (value : Nat → K)
    (place : Nat × Nat) : K :=
  (l.map fun e => if (rowOff + e.row, colOff + e.col) = place then value e.bufIndex else 0).sum

/-- The state and control entries of node `(i, j)` at a place. -/
def pathXuXu (i j : Nat) (place : Nat × Nat) : K :=
  placeSum P.full.hes.dxDx 0 0 (fun k => lfgHes P M B k i j) place +
  placeSum P.full.hes.duDx P.pc.xSize 0 (fun k => lfgHes P M B k i j) place +
  placeSum P.full.hes.duDu P.pc.xSize P.pc.xSize (fun k => lfgHes P M B k i j) place

/-- The parameter entries of node `(i, j)` at a place. -/
def pathPXu (i j : Nat) (place : Nat × Nat) : K :=
  placeSum P.full.hes.dpDx 0 0 (fun k => lfgHes P M B k i j) place +
  placeSum P.full.hes.dpDu 0 P.pc.xSize (fun k => lfgHes P M B k i j) place

/-- The boundary entries, and the parameter entries of the full sweep, of an exact block. -/
def boundarySum (X : HesBlock) (place : Nat × Nat) : K :=
  let hes := P.boundary.hes
  match X with
  | .A => placeSum hes.dx0Dx0 0 0 (mrHes B) place
  | .C => placeSum hes.dxfDx0 0 0 (mrHes B) place + placeSum hes.dufDx0 P.pc.xSize 0 (mrHes B) place
  | .D => placeSum hes.dxfDxf 0 0 (mrHes B) place +
      placeSum hes.dufDxf P.pc.xSize 0 (mrHes B) place +
      placeSum hes.dufDuf P.pc.xSize P.pc.xSize (mrHes B) place
  | .E => placeSum hes.dpDx0 0 0 (mrHes B) place
  | .G => placeSum hes.dpDxf 0 0 (mrHes B) place + placeSum hes.dpDuf 0 P.pc.xSize (mrHes B) place
  | .H => placeSum P.full.ppHes.dpDp 0 0 (lfgPpHes B) place +
      placeSum hes.dpDp 0 0 (mrHes B) place
  | _ => 0

/-! The additions `eval_hes_internal` makes, each with the entry it is made onto. -/

def entryOps (X : HesBlock) (node rowOff colOff : Nat) (value : Nat → K)
    (l : List HessianSparsity) : List (Addr × K) :=
  l.map fun e => (⟨X, rowOff + e.row, colOff + e.col, node⟩, value e.bufIndex)

def nodeHesOps (i j : Nat) : List (Addr × K) :=
  let X := nodeBlocks M i j
  let node := if M.isLast i j then 0 else M.accNodesAt i j
  let value := fun k => lfgHes P M B k i j
  entryOps X.1 node 0 0 value P.full.hes.dxDx ++
  entryOps X.1 node P.pc.xSize 0 value P.full.hes.duDx ++
  entryOps X.1 node P.pc.xSize P.pc.xSize value P.full.hes.duDu ++
  entryOps X.2 node 0 0 value P.full.hes.dpDx ++
  entryOps X.2 node 0 P.pc.xSize value P.full.hes.dpDu

def boundaryHesOps : List (Addr × K) :=
  let hes := P.boundary.hes
  entryOps .H 0 0 0 (lfgPpHes B) P.full.ppHes.dpDp ++
  entryOps .A 0 0 0 (mrHes B) hes.dx0Dx0 ++
  entryOps .C 0 0 0 (mrHes B) hes.dxfDx0 ++
  entryOps .D 0 0 0 (mrHes B) hes.dxfDxf ++
  entryOps .C 0 P.pc.xSize 0 (mrHes B) hes.dufDx0 ++
  entryOps .D 0 P.pc.xSize 0 (mrHes B) hes.dufDxf ++
  entryOps .D 0 P.pc.xSize P.pc.xSize (mrHes B) hes.dufDuf ++
  entryOps .E 0 0 0 (mrHes B) hes.dpDx0 ++
  entryOps .G 0 0 0 (mrHes B) hes.dpDxf ++
  entryOps .G 0 0 P.pc.xSize (mrHes B) hes.dpDuf ++
  entryOps .H 0 0 0 (mrHes B) hes.dpDp

def hesOps : List (Addr × K) := M.nodeOps (nodeHesOps P M B) ++ boundaryHesOps P B

theorem entryOps_sum (X : HesBlock) (node rowOff colOff : Nat) (value : Nat → K)
    (l : List HessianSparsity) (a : Addr) :
    ((entryOps X node rowOff colOff value l).map fun op => if op.1 = a then op.2 else 0).sum =
      if X = a.blk ∧ node = a.node then placeSum l rowOff colOff value (a.row, a.col) else 0 := by
  obtain ⟨Y, r, c, n⟩ := a
  rw [entryOps, placeSum, List.map_map]
  split
  · rename_i h
    obtain ⟨rfl, rfl⟩ := h
    refine congrArg List.sum (List.map_congr_left fun e _ => ?_)
    simp
  · rename_i h
    refine List.sum_eq_zero fun v hv => ?_
    obtain ⟨e, _, rfl⟩ := List.mem_map.mp hv
    refine if_neg fun h' => h ?_
    simp only [Addr.mk.injEq] at h'
    exact ⟨h'.1, h'.2.2.2⟩

theorem boundaryHesOps_sum {a : Addr} (ha : a.blk.type = .exact) (hn : a.node = 0) :
    ((boundaryHesOps P B).map fun op => if op.1 = a then op.2 else 0).sum =
      boundarySum P B a.blk (a.row, a.col) := by
  obtain ⟨b, r, c, n⟩ := a
  dsimp only at hn
  subst hn
  simp only [boundaryHesOps, List.map_append, List.sum_append, entryOps_sum]
  cases b <;> simp [HesBlock.type] at ha <;> simp [boundarySum, add_assoc]

theorem boundaryHesOps_sum_zero {a : Addr} (ha : a.blk.type ≠ .exact) :
    ((boundaryHesOps P B).map fun op => if op.1 = a then op.2 else 0).sum = 0 := by
  obtain ⟨b, r, c, n⟩ := a
  simp only [boundaryHesOps, List.map_append, List.sum_append, entryOps_sum]
  cases b <;> simp [HesBlock.type] at ha <;> simp

theorem nodeHesOps_sum (i j : Nat) (a : Addr) :
    ((nodeHesOps P M B i j).map fun op => if op.1 = a then op.2 else 0).sum =
      if (if M.isLast i j then 0 else M.accNodesAt i j) = a.node then
        (if (nodeBlocks M i j).1 = a.blk then pathXuXu P M B i j (a.row, a.col) else 0) +
        (if (nodeBlocks M i j).2 = a.blk then pathPXu P M B i j (a.row, a.col) else 0)
      else 0 := by
  simp only [nodeHesOps, List.map_append, List.sum_append, entryOps_sum, pathXuXu, pathPXu]
  by_cases hn : (if M.isLast i j then 0 else M.accNodesAt i j) = a.node
  · by_cases h1 : (nodeBlocks M i j).1 = a.blk <;> by_cases h2 : (nodeBlocks M i j).2 = a.blk <;>
      simp [hn, h1, h2, add_assoc]
  · simp [hn]

/-! `eval_hes_internal` performs these additions at the slots of the entries. -/

section Eval

variable (s : HesState) (ht : ∀ X, (s.block X).type = X.type)

/-- The additions onto the array. -/
def slotOps (ops : List (Addr × K)) : List (Nat × K) := ops.map fun op => (s.slot op.1, op.2)

include ht

theorem addEntries_eq {X : HesBlock} (hX : X.type = .exact) (rowOff colOff : Nat)
    (value : Nat → K) (l : List HessianSparsity) (hes : Nat → K) :
    addEntries (s.block X) rowOff colOff value l hes =
      some (accum (slotOps s (entryOps X 0 rowOff colOff value l)) hes) := by
  induction l generalizing hes with
  | nil => rfl
  | cons e l ih =>
    have ha : (s.block X).access (rowOff + e.row) (colOff + e.col) =
        some (s.slot ⟨X, rowOff + e.row, colOff + e.col, 0⟩) := by
      have h := (ht X).trans hX
      simp [BlockSparsity.access, HesState.slot, BlockSparsity.accessAt, h]
    unfold addEntries at ih ⊢
    rw [List.foldlM_cons, ha]
    exact ih _

theorem updateParameterHessianLfg_eq (hes : Nat → K) : updateParameterHessianLfg P B s hes =
    some (accum (slotOps s (entryOps .H 0 0 0 (lfgPpHes B) P.full.ppHes.dpDp)) hes) :=
  addEntries_eq s ht rfl 0 0 (lfgPpHes B) P.full.ppHes.dpDp hes

theorem updateHessianLfg_eq (i j : Nat) (hes : Nat → K) :
    updateHessianLfg P M (getSizes P M) B i j (s.block (nodeBlocks M i j).1)
        (s.block (nodeBlocks M i j).2) hes =
      accum (slotOps s (nodeHesOps P M B i j)) hes := by
  -- the last node belongs to exact blocks, which take no node number
  have hslot : ∀ X, X = (nodeBlocks M i j).1 ∨ X = (nodeBlocks M i j).2 → ∀ r c,
      (s.block X).accessAt r c (M.accNodesAt i j) =
        s.slot ⟨X, r, c, if M.isLast i j then 0 else M.accNodesAt i j⟩ := by
    intro X hX r c
    by_cases hl : M.isLast i j = true
    · have hex : X.type = .exact := by
        rw [nodeBlocks, if_pos hl] at hX
        rcases hX with rfl | rfl <;> rfl
      rw [HesState.slot, if_pos hl, accessAt_exact ((ht X).trans hex),
        accessAt_exact ((ht X).trans hex)]
    · rw [HesState.slot, if_neg hl]
  simp only [updateHessianLfg, hslot _ (.inl rfl), hslot _ (.inr rfl)]
  simp only [slotOps, nodeHesOps, entryOps, List.map_append, accum_append, List.map_map]
  simp only [accum, List.foldl_map, Function.comp_def, Nat.zero_add, getSizes_offX]

theorem evalHesInternal_eq : evalHesInternal P M (getSizes P M) B s =
    some (accum (slotOps s (hesOps P M B)) fun _ => 0) := by
  have hnodes : M.forNodes (fun i j hes => updateHessianLfg P M (getSizes P M) B i j
      (s.block (nodeBlocks M i j).1) (s.block (nodeBlocks M i j).2) hes) (fun _ => 0) =
      accum (slotOps s (M.nodeOps (nodeHesOps P M B))) fun _ => 0 := by
    have h := M.forNodes_foldl (r := addAt) (g := fun i j => slotOps s (nodeHesOps P M B i j))
      (fun i j _ _ t => updateHessianLfg_eq P M B s ht i j t) (fun _ => 0)
    rw [h, slotOps, Mesh.nodeOps, Mesh.nodeOps, List.map_flatMap]
    simp only [List.map_flatMap, slotOps]
    rfl
  rw [evalHesInternal, hnodes]
  simp only [updateParameterHessianLfg_eq P B s ht, updateHessianMr,
    addEntries_eq s ht (X := .A) rfl, addEntries_eq s ht (X := .C) rfl,
    addEntries_eq s ht (X := .D) rfl, addEntries_eq s ht (X := .E) rfl,
    addEntries_eq s ht (X := .G) rfl, addEntries_eq s ht (X := .H) rfl, getSizes_offX,
    Option.bind_eq_bind, Option.bind_some]
  simp only [slotOps, hesOps, boundaryHesOps, List.map_append, accum_append]

end Eval

/-! ## The layout has every entry that is added onto -/

section Valid

theorem entryOps_valid {X : HesBlock} {node rowOff colOff : Nat} {value : Nat → K}
    {l : List HessianSparsity}
    (hn : if X.type = .exact then node = 0 else node < M.nodeCount - 1)
    (hl : ∀ coo ∈ l, (coo.row + rowOff, coo.col + colOff) ∈ hesFlat P P.pc.xSize X) :
    ∀ op ∈ entryOps X node rowOff colOff value l, op.1.Valid P M := by
  intro op hop
  obtain ⟨e, he, rfl⟩ := List.mem_map.mp hop
  refine ⟨?_, hn⟩
  have h := hl e he
  rwa [Nat.add_comm e.row, Nat.add_comm e.col] at h

omit [Field K] in
/-- Both pairs of blocks of a node hold what the node adds. -/
theorem mem_nodeFlat {X Y : HesBlock} (hX : (X, Y) = (.D, .G) ∨ (X, Y) = (.B, .F)) (offX : Nat) :
    (∀ e ∈ P.full.hes.dxDx, (e.row + 0, e.col + 0) ∈ hesFlat P offX X) ∧
    (∀ e ∈ P.full.hes.duDx, (e.row + offX, e.col + 0) ∈ hesFlat P offX X) ∧
    (∀ e ∈ P.full.hes.duDu, (e.row + offX, e.col + offX) ∈ hesFlat P offX X) ∧
    (∀ e ∈ P.full.hes.dpDx, (e.row + 0, e.col + 0) ∈ hesFlat P offX Y) ∧
    (∀ e ∈ P.full.hes.dpDu, (e.row + 0, e.col + offX) ∈ hesFlat P offX Y) := by
  rcases hX with h | h <;> cases h <;>
    simp only [hesFlat, hesSet, OrderedIndexSet.mem_insertSparsity] <;>
    refine ⟨fun e he => ?_, fun e he => ?_, fun e he => ?_, fun e he => ?_, fun e he => ?_⟩
  case inl.refl.refine_1 | inr.refl.refine_1 => exact .inl (.inl (.inr ⟨e, he, rfl⟩))
  case inl.refl.refine_2 | inr.refl.refine_2 => exact .inl (.inr ⟨e, he, rfl⟩)
  case inl.refl.refine_3 | inr.refl.refine_3 => exact .inr ⟨e, he, rfl⟩
  case inl.refl.refine_4 | inr.refl.refine_4 => exact .inl (.inr ⟨e, he, rfl⟩)
  case inl.refl.refine_5 | inr.refl.refine_5 => exact .inr ⟨e, he, rfl⟩

theorem nodeHesOps_valid {i j : Nat} (hi : i < M.intervals) (hj : j < M.nodesAt i) :
    ∀ op ∈ nodeHesOps P M B i j, op.1.Valid P M := by
  have hX : ((nodeBlocks M i j).1, (nodeBlocks M i j).2) = (HesBlock.D, HesBlock.G) ∨
      ((nodeBlocks M i j).1, (nodeBlocks M i j).2) = (.B, .F) := by
    unfold nodeBlocks
    split
    · exact .inl rfl
    · exact .inr rfl
  -- the last node adds onto exact blocks, the others onto blocks with a copy for every node
  have hn : ∀ X, X = (nodeBlocks M i j).1 ∨ X = (nodeBlocks M i j).2 →
      if X.type = .exact then (if M.isLast i j then 0 else M.accNodesAt i j) = 0
      else (if M.isLast i j then 0 else M.accNodesAt i j) < M.nodeCount - 1 := by
    unfold nodeBlocks
    by_cases hl : M.isLast i j = true
    · rw [if_pos hl, if_pos hl]
      rintro X (rfl | rfl) <;> rfl
    · have hlt := M.accNodesAt_lt hi hj
      have hne : M.accNodesAt i j ≠ M.nodeCount - 1 := fun h => hl ((M.isLast_iff hi hj).mpr h)
      have hlt' : M.accNodesAt i j < M.nodeCount - 1 := by omega
      rw [if_neg hl, if_neg hl]
      rintro X (rfl | rfl) <;> exact hlt'
  obtain ⟨h1, h2, h3, h4, h5⟩ := mem_nodeFlat P hX P.pc.xSize
  simp only [nodeHesOps, List.forall_mem_append]
  exact ⟨⟨⟨⟨entryOps_valid P M (hn _ (.inl rfl)) h1, entryOps_valid P M (hn _ (.inl rfl)) h2⟩,
    entryOps_valid P M (hn _ (.inl rfl)) h3⟩, entryOps_valid P M (hn _ (.inr rfl)) h4⟩,
    entryOps_valid P M (hn _ (.inr rfl)) h5⟩

theorem boundaryHesOps_valid : ∀ op ∈ boundaryHesOps P B, op.1.Valid P M := by
  simp only [boundaryHesOps, List.forall_mem_append]
  refine ⟨⟨⟨⟨⟨⟨⟨⟨⟨⟨?_, ?_⟩, ?_⟩, ?_⟩, ?_⟩, ?_⟩, ?_⟩, ?_⟩, ?_⟩, ?_⟩, ?_⟩ <;>
    refine entryOps_valid P M rfl fun coo h => ?_ <;>
    simp only [hesFlat, hesSet, OrderedIndexSet.mem_insertSparsity]
  case refine_1 => exact .inr ⟨coo, h, rfl⟩
  case refine_2 => exact .inr ⟨coo, h, rfl⟩
  case refine_3 => exact .inl (.inr ⟨coo, h, rfl⟩)
  case refine_4 => exact .inl (.inl (.inl (.inl (.inl (.inr ⟨coo, h, rfl⟩)))))
  case refine_5 => exact .inr ⟨coo, h, rfl⟩
  case refine_6 => exact .inl (.inl (.inl (.inl (.inr ⟨coo, h, rfl⟩))))
  case refine_7 => exact .inl (.inl (.inl (.inr ⟨coo, h, rfl⟩)))
  case refine_8 => exact .inr ⟨coo, h, rfl⟩
  case refine_9 => exact .inl (.inl (.inl (.inr ⟨coo, h, rfl⟩)))
  case refine_10 => exact .inl (.inl (.inr ⟨coo, h, rfl⟩))
  case refine_11 => exact .inl (.inr ⟨coo, h, rfl⟩)

theorem hesOps_valid : ∀ op ∈ hesOps P M B, op.1.Valid P M := by
  intro op hop
  rcases List.mem_append.mp hop with hop | hop
  · obtain ⟨i, hi, hop⟩ := List.mem_flatMap.mp hop
    obtain ⟨j, hj, hop⟩ := List.mem_flatMap.mp hop
    exact nodeHesOps_valid P M B (List.mem_range.mp hi) (List.mem_range.mp hj) op hop
  · exact boundaryHesOps_valid P M B op hop

end Valid

/-! ## The content of a slot -/

section Content

variable (past : Nat → Nat × Nat) (iRow jCol : Nat → Nat)

/-- Slots of valid entries are distinct, so a slot collects the additions onto its own entry. -/
theorem accum_slot (hP : HessianLayoutOk P) {ops : List (Addr × K)}
    (hops : ∀ op ∈ ops, op.1.Valid P M) {a : Addr} (ha : a.Valid P M) :
    accum (slotOps (getHesSparsity P M (getSizes P M) past iRow jCol) ops) (fun _ => 0)
        ((getHesSparsity P M (getSizes P M) past iRow jCol).slot a) =
      (ops.map fun op => if op.1 = a then op.2 else 0).sum := by
  rw [accum_apply, zero_add, slotOps, List.map_map]
  refine congrArg List.sum (List.map_congr_left fun op hop => ?_)
  by_cases h : op.1 = a
  · simp [h]
  · have hne : (getHesSparsity P M (getSizes P M) past iRow jCol).slot op.1 ≠
        (getHesSparsity P M (getSizes P M) past iRow jCol).slot a :=
      fun hs => h (slot_inj hP past iRow jCol (hops op hop) ha hs)
    simp [h, hne]

theorem hesOps_sum (a : Addr) : ((hesOps P M B).map fun op => if op.1 = a then op.2 else 0).sum =
    ((M.nodeOps (nodeHesOps P M B)).map fun op => if op.1 = a then op.2 else 0).sum +
      ((boundaryHesOps P B).map fun op => if op.1 = a then op.2 else 0).sum := by
  rw [hesOps, List.map_append, List.sum_append]

/-- Onto an entry of a repeated block only its own node adds. -/
theorem hesOps_sum_node {i j : Nat} (hi : i < M.intervals) (hj : j < M.nodesAt i)
    (hl : M.isLast i j = false) {a : Addr} (hX : a.blk = .B ∨ a.blk = .F)
    (hn : a.node = M.accNodesAt i j) :
    ((hesOps P M B).map fun op => if op.1 = a then op.2 else 0).sum =
      if a.blk = .B then pathXuXu P M B i j (a.row, a.col)
      else pathPXu P M B i j (a.row, a.col) := by
  have hex : a.blk.type ≠ .exact := by rcases hX with h | h <;> rw [h] <;> decide
  rw [hesOps_sum, boundaryHesOps_sum_zero P B hex, add_zero, M.sum_nodeOps _ _ hi hj]
  · rw [nodeHesOps_sum, nodeBlocks, hl, hn]
    rcases hX with h | h <;> simp [h]
  · intro i' j' hi' hj' hne
    rw [nodeHesOps_sum]
    by_cases hl' : M.isLast i' j' = true
    · rcases hX with h | h <;> simp [h, nodeBlocks, hl']
    · rw [if_neg hl', if_neg]
      intro h
      obtain ⟨rfl, rfl⟩ := M.accNodesAt_inj hi' hj' hi hj (h.trans hn)
      exact hne.elim (fun h => h rfl) fun h => h rfl

/-- Onto an entry of `D` or `G` the last node adds besides the boundary, onto the other exact
blocks the boundary alone. -/
theorem hesOps_sum_exact {a : Addr} (hX : a.blk.type = .exact) (hn : a.node = 0) :
    ((hesOps P M B).map fun op => if op.1 = a then op.2 else 0).sum =
      (if a.blk = .D then pathXuXu P M B (M.intervals - 1) (M.nodesAt (M.intervals - 1) - 1)
          (a.row, a.col)
        else if a.blk = .G then pathPXu P M B (M.intervals - 1)
          (M.nodesAt (M.intervals - 1) - 1) (a.row, a.col)
        else 0) + boundarySum P B a.blk (a.row, a.col) := by
  have hI := M.intervals_pos
  have hi : M.intervals - 1 < M.intervals := by omega
  have hp := M.nodesAt_pos hi
  have hB : a.blk ≠ .B := fun h => by simp [h, HesBlock.type] at hX
  have hF : a.blk ≠ .F := fun h => by simp [h, HesBlock.type] at hX
  have hlast : M.isLast (M.intervals - 1) (M.nodesAt (M.intervals - 1) - 1) = true := by
    simp [Mesh.isLast]
  rw [hesOps_sum, boundaryHesOps_sum P B hX hn,
    M.sum_nodeOps _ _ hi (show M.nodesAt (M.intervals - 1) - 1 < _ by omega)]
  · rw [nodeHesOps_sum, nodeBlocks, if_pos hlast, if_pos hlast, if_pos hn.symm]
    by_cases hD : a.blk = .D
    · simp [hD]
    · by_cases hG : a.blk = .G
      · simp [hG]
      · simp [hD, hG, Ne.symm hD, Ne.symm hG]
  · intro i' j' hi' hj' hne
    have hl' : ¬ M.isLast i' j' = true := by
      intro h
      simp only [Mesh.isLast, Bool.and_eq_true, beq_iff_eq] at h
      exact hne.elim (fun h' => h' h.1) fun h' => h' h.2
    rw [nodeHesOps_sum]
    simp [nodeBlocks, hl', Ne.symm hB, Ne.symm hF]

end Content

/-! ## Slots and values -/

section Main

variable (past : Nat → Nat × Nat) (iRow jCol : Nat → Nat)

/-- The content of the slots: a sum of buffer entries for each of the blocks. -/
structure HessianContent (hes : Nat → K) : Prop where
  repeated : ∀ i j, i < M.intervals → j < M.nodesAt i → M.isLast i j = false → ∀ row col,
    ((row, col) ∈ hesFlat P P.pc.xSize .B →
      hes (((getHesSparsity P M (getSizes P M) past iRow jCol).block .B).accessAt row col
        (M.accNodesAt i j)) = pathXuXu P M B i j (row, col)) ∧
    ((row, col) ∈ hesFlat P P.pc.xSize .F →
      hes (((getHesSparsity P M (getSizes P M) past iRow jCol).block .F).accessAt row col
        (M.accNodesAt i j)) = pathPXu P M B i j (row, col))
  last : ∀ i j, M.isLast i j = true → ∀ row col,
    ((row, col) ∈ hesFlat P P.pc.xSize .D →
      (((getHesSparsity P M (getSizes P M) past iRow jCol).block .D).access row col).map hes =
        some (pathXuXu P M B i j (row, col) + boundarySum P B .D (row, col))) ∧
    ((row, col) ∈ hesFlat P P.pc.xSize .G →
      (((getHesSparsity P M (getSizes P M) past iRow jCol).block .G).access row col).map hes =
        some (pathPXu P M B i j (row, col) + boundarySum P B .G (row, col)))
  boundary : ∀ X, X = .A ∨ X = .C ∨ X = .E ∨ X = .H → ∀ row col,
    (row, col) ∈ hesFlat P P.pc.xSize X →
      (((getHesSparsity P M (getSizes P M) past iRow jCol).block X).access row col).map hes =
        some (boundarySum P B X (row, col))

/-- The slots and the content `eval_hes_internal` leaves in them. -/
structure HessianSlots : Prop where
  lt : ∀ a : Addr, a.Valid P M → (getHesSparsity P M (getSizes P M) past iRow jCol).slot a <
    initHessianNonzeros P M P.pc.xSize
  distinct : ∀ a b : Addr, a.Valid P M → b.Valid P M →
    (getHesSparsity P M (getSizes P M) past iRow jCol).slot a =
      (getHesSparsity P M (getSizes P M) past iRow jCol).slot b → a = b
  addressed : ∀ k, k < initHessianNonzeros P M P.pc.xSize →
    ∃ a : Addr, a.Valid P M ∧ (getHesSparsity P M (getSizes P M) past iRow jCol).slot a = k
  inserted : ∀ op ∈ hesOps P M B,
    (((getHesSparsity P M (getSizes P M) past iRow jCol).block op.1.blk).cell
      (op.1.row, op.1.col)).isSome = true
  accesses : evalHesInternal P M (getSizes P M) B
      (getHesSparsity P M (getSizes P M) past iRow jCol) =
    some (accum (slotOps (getHesSparsity P M (getSizes P M) past iRow jCol) (hesOps P M B))
      fun _ => 0)
  content : ∃ hes, evalHesInternal P M (getSizes P M) B
      (getHesSparsity P M (getSizes P M) past iRow jCol) = some hes ∧
    HessianContent P M B past iRow jCol hes

theorem eq_last_of_isLast {i j : Nat} (h : M.isLast i j = true) :
    i = M.intervals - 1 ∧ j = M.nodesAt (M.intervals - 1) - 1 := by
  simpa [Mesh.isLast] using h

theorem hessianContent (hP : HessianLayoutOk P) : HessianContent P M B past iRow jCol
    (accum (slotOps (getHesSparsity P M (getSizes P M) past iRow jCol) (hesOps P M B))
      fun _ => 0) := by
  have hops := hesOps_valid P M B
  -- an exact slot, as `access` returns it
  have hexact : ∀ X : HesBlock, X.type = .exact → ∀ row col,
      (row, col) ∈ hesFlat P P.pc.xSize X →
      (((getHesSparsity P M (getSizes P M) past iRow jCol).block X).access row col).map
        (accum (slotOps (getHesSparsity P M (getSizes P M) past iRow jCol) (hesOps P M B))
          fun _ => 0) =
      some ((hesOps P M B).map fun op => if op.1 = ⟨X, row, col, 0⟩ then op.2 else 0).sum := by
    intro X hX row col h
    rw [access_eq hP past iRow jCol hX row col 0, Option.map_some,
      accum_slot P M past iRow jCol hP hops ⟨h, by simp [hX]⟩]
  refine ⟨?_, ?_, ?_⟩
  · intro i j hi hj hl row col
    have hlt := M.accNodesAt_lt hi hj
    have hne : M.accNodesAt i j ≠ M.nodeCount - 1 := fun h => by
      rw [(M.isLast_iff hi hj).mpr h] at hl
      cases hl
    have hn : M.accNodesAt i j < M.nodeCount - 1 := by omega
    constructor
    · intro h
      have hv : Addr.Valid P M ⟨.B, row, col, M.accNodesAt i j⟩ := ⟨h, hn⟩
      have := accum_slot P M past iRow jCol hP hops hv
      rw [hesOps_sum_node P M B hi hj hl (.inl rfl) rfl] at this
      exact this
    · intro h
      have hv : Addr.Valid P M ⟨.F, row, col, M.accNodesAt i j⟩ := ⟨h, hn⟩
      have := accum_slot P M past iRow jCol hP hops hv
      rw [hesOps_sum_node P M B hi hj hl (.inr rfl) rfl] at this
      exact this
  · intro i j hl row col
    obtain ⟨rfl, rfl⟩ := eq_last_of_isLast M hl
    constructor
    · intro h
      rw [hexact .D rfl row col h, hesOps_sum_exact P M B rfl rfl]
      rfl
    · intro h
      rw [hexact .G rfl row col h, hesOps_sum_exact P M B rfl rfl]
      rfl
  · intro X hX row col h
    have ht : X.type = .exact := by rcases hX with rfl | rfl | rfl | rfl <;> rfl
    rw [hexact X ht row col h, hesOps_sum_exact P M B ht rfl]
    rcases hX with rfl | rfl | rfl | rfl <;> simp

theorem hessian_slots (hP : HessianLayoutOk P) : HessianSlots P M B past iRow jCol where
  lt := fun _ ha => slot_lt hP past iRow jCol ha
  distinct := fun _ _ ha hb h => slot_inj hP past iRow jCol ha hb h
  addressed := fun _ hk => exists_slot hP past iRow jCol hk
  inserted := fun op hop => (getHesSparsity_laid P M past iRow jCol hP).inserted op.1
    ((mem_hesLayout hP).mpr (hesOps_valid P M B op hop))
  accesses := evalHesInternal_eq P M B _ (getHesSparsity_laid P M past iRow jCol hP).type
  content := ⟨_, evalHesInternal_eq P M B _ (getHesSparsity_laid P M past iRow jCol hP).type,
    hessianContent P M B past iRow jCol hP⟩

end Main

end Values

/-- Buffers of `mixed` that hold their own positions. -/
def mixedBuffers : Buffers Rat where
  eval := fun k => k
  jac := fun k => k
  hes := fun k => k
  ppHes := fun k => k
  mrEval := fun k => k
  mrJac := fun k => k
  mrHes := fun k => k

theorem hessian_slots_mixed : HessianSlots mixed oneNode mixedBuffers (fun _ => (0, 0)) id id :=
  hessian_slots mixed oneNode mixedBuffers _ _ _ mixed_layoutOk

end GDOP
end Moo
