import Moo.GDOP.Jacobian

/-!
# GDOP.JacobianSlots

The pattern loop and the value loop of the Jacobian run over the same nonzeros.

* `Slot`: one nonzero, what the pattern loop and the value loop each write for it.
* `walkDfDx_eq`: the merged walk over sorted columns visits what `walkList` lists.
* `getJacSparsity_eq`, `evalJacGInternal_eq`: both loop nests are programs over `jacSlots`.
* `offAccJacFg_eq`, `nnzJac_eq`: the closed-form counts are numbers of slots.
-/

namespace Moo
namespace GDOP

open Loop Coo

/-- A nonzero of the Jacobian. `der` is the constant the pattern loop stores, if it stores one;
`val` is what the value loop makes of the stored constant. -/
structure Slot (K : Type) where
  row : Nat
  col : Nat
  der : Option K
  val : K → K

namespace Slot

variable {K : Type} [Field K]

def pat (s : Slot K) : JacCell K → JacCell K :=
  match s.der with
  | some d => .putDer s.row s.col d
  | none => .put s.row s.col

/-- The entry of the matrix. -/
def value (s : Slot K) : K := s.val (s.der.getD 0)

end Slot

/-! ## The merged walk -/

section Walk

variable {β : Type}

/-- What the walk writes, column by column. -/
def walkList (dfDx : List JacobianSparsity) (fIndex offX : Nat)
    (diag : Option JacobianSparsity → β) (elem : Nat → JacobianSparsity → β) : List β :=
  (List.range offX).flatMap fun x =>
    if x = fIndex then [diag (dfDx.find? (·.col == x))]
    else ((dfDx.find? (·.col == x)).map (elem x)).toList

theorem walkList_succ (dfDx : List JacobianSparsity) (fIndex x : Nat)
    (diag : Option JacobianSparsity → β) (elem : Nat → JacobianSparsity → β) :
    walkList dfDx fIndex (x + 1) diag elem = walkList dfDx fIndex x diag elem ++
      if x = fIndex then [diag (dfDx.find? (·.col == x))]
      else ((dfDx.find? (·.col == x)).map (elem x)).toList := by
  simp [walkList, List.range_succ]

theorem mem_walkList {dfDx : List JacobianSparsity} {fIndex offX : Nat}
    {diag : Option JacobianSparsity → β} {elem : Nat → JacobianSparsity → β} {s : β}
    (h : s ∈ walkList dfDx fIndex offX diag elem) :
    (∃ o, s = diag o) ∨ ∃ x e, s = elem x e := by
  obtain ⟨x, _, h⟩ := List.mem_flatMap.mp h
  split at h
  · exact .inl ⟨_, List.mem_singleton.mp h⟩
  · obtain ⟨e, _, h⟩ := Option.map_eq_some_iff.mp (Option.mem_toList.mp h)
    exact .inr ⟨x, e, h.symm⟩

theorem walkList_map {γ : Type} (h : β → γ) (dfDx : List JacobianSparsity) (fIndex offX : Nat)
    (diag : Option JacobianSparsity → β) (elem : Nat → JacobianSparsity → β) :
    (walkList dfDx fIndex offX diag elem).map h =
      walkList dfDx fIndex offX (fun o => h (diag o)) (fun x e => h (elem x e)) := by
  rw [walkList, walkList, List.map_flatMap]
  refine List.flatMap_congr fun x _ => ?_
  split
  · rfl
  · cases dfDx.find? (·.col == x) <;> rfl

/-- On sorted columns the entry behind all columns below `x` is the one that has column `x`. -/
theorem next_entry {l : List JacobianSparsity} (hl : l.Pairwise fun e e' => e.col < e'.col)
    (x : Nat) : (if hits l (l.countP (·.col < x)) x then some (l.getD (l.countP (·.col < x)) ⟨0, 0⟩)
      else none) = l.find? (·.col == x) := by
  induction l with
  | nil => simp [hits]
  | cons e l ih =>
    obtain ⟨he, hl⟩ := List.pairwise_cons.mp hl
    by_cases hx : e.col < x
    · have hne : (e.col == x) = false := by simp; omega
      rw [List.countP_cons_of_pos (by simpa using hx), List.find?_cons_of_neg (by simp [hne]),
        ← ih hl]
      simp [hits, List.getD_eq_getElem?_getD]
    · have h0 : l.countP (·.col < x) = 0 := by
        rw [List.countP_eq_zero]
        intro e' he'
        have := he e' he'
        simp only [decide_eq_true_eq]
        omega
      rw [List.countP_cons_of_neg (by simpa using hx), h0]
      by_cases hx' : e.col = x
      · simp [hits, hx']
      · have hnone : l.find? (·.col == x) = none := by
          rw [List.find?_eq_none]
          intro e' he'
          have := he e' he'
          simp only [beq_iff_eq]
          omega
        rw [List.find?_cons_of_neg (by simpa using hx'), hnone]
        simp [hits, hx']

theorem filter_succ {l : List JacobianSparsity} (hl : l.Pairwise fun e e' => e.col < e'.col)
    (x : Nat) : l.filter (·.col < x + 1) =
      l.filter (·.col < x) ++ (l.find? (·.col == x)).toList := by
  induction l with
  | nil => rfl
  | cons e l ih =>
    obtain ⟨he, hl⟩ := List.pairwise_cons.mp hl
    have ih := ih hl
    rcases Nat.lt_trichotomy e.col x with hlt | heq | hgt
    · rw [List.find?_cons_of_neg (by simp; omega), List.filter_cons_of_pos (by simp; omega),
        List.filter_cons_of_pos (by simpa using hlt), ih]
      rfl
    · have hnone : ∀ y, y ≤ x + 1 → l.filter (·.col < y) = [] := by
        intro y hy
        rw [List.filter_eq_nil_iff]
        intro e' he'
        have := he e' he'
        simp only [decide_eq_true_eq]
        omega
      rw [List.find?_cons_of_pos (by simpa using heq), List.filter_cons_of_pos (by simp; omega),
        List.filter_cons_of_neg (by simp; omega), hnone _ le_rfl, hnone _ (Nat.le_succ x)]
      rfl
    · rw [List.find?_cons_of_neg (by simp; omega), List.filter_cons_of_neg (by simp; omega),
        List.filter_cons_of_neg (by simp; omega), ih]

/-- One column of the walk. -/
def walkStep {α : Type} (dfDx : List JacobianSparsity) (fIndex : Nat)
    (diag : Option JacobianSparsity → α → α) (elem : Nat → JacobianSparsity → α → α)
    (xElem : Nat) (s : Tape α × Nat) : Tape α × Nat :=
  if xElem = fIndex then
    if hits dfDx s.2 xElem then (s.1.write (diag (some (dfDx.getD s.2 ⟨0, 0⟩))), s.2 + 1)
    else (s.1.write (diag none), s.2)
  else if hits dfDx s.2 xElem then (s.1.write (elem xElem (dfDx.getD s.2 ⟨0, 0⟩)), s.2 + 1)
  else s

theorem walkDfDx_forRange {α : Type} (dfDx : List JacobianSparsity) (fIndex offX : Nat)
    (diag : Option JacobianSparsity → α → α) (elem : Nat → JacobianSparsity → α → α)
    (t : Tape α) : walkDfDx dfDx fIndex offX diag elem t =
      (forRange offX (walkStep dfDx fIndex diag elem) (t, 0)).1 := rfl

theorem walkDfDx_eq {α : Type} {dfDx : List JacobianSparsity}
    (hl : dfDx.Pairwise fun e e' => e.col < e'.col) (fIndex offX : Nat)
    (diag : Option JacobianSparsity → α → α) (elem : Nat → JacobianSparsity → α → α)
    (t : Tape α) :
    walkDfDx dfDx fIndex offX diag elem t =
      Tape.run (walkList dfDx fIndex offX diag elem) t := by
  have inv := forRange_inv (n := offX)
    (P := fun x (s : Tape α × Nat) => s.1 = Tape.run (walkList dfDx fIndex x diag elem) t ∧
      s.2 = dfDx.countP (·.col < x))
    (f := walkStep dfDx fIndex diag elem) (s := (t, 0)) ⟨rfl, by simp⟩ ?_
  · exact inv.1
  · rintro x - ⟨s, c⟩ ⟨rfl, rfl⟩
    -- the counter stands at the first column that is not below `x`
    have hn := next_entry hl x
    have hc : dfDx.countP (·.col < x + 1) =
        dfDx.countP (·.col < x) + (dfDx.find? (·.col == x)).toList.length := by
      simp only [List.countP_eq_length_filter, filter_succ hl x, List.length_append]
    rw [hc, walkList_succ, Tape.run_append, ← hn]
    unfold walkStep
    dsimp only
    by_cases hh : hits dfDx (dfDx.countP (·.col < x)) x = true <;> by_cases hx : x = fIndex
    · simp only [if_pos hh, if_pos hx]
      exact ⟨rfl, rfl⟩
    · simp only [if_pos hh, if_neg hx]
      exact ⟨rfl, rfl⟩
    · simp only [if_neg hh, if_pos hx]
      exact ⟨rfl, rfl⟩
    · simp only [if_neg hh, if_neg hx]
      exact ⟨rfl, rfl⟩

/-- A walk adds up to the diagonal and the entries of the list. -/
theorem walkList_sum {M : Type} [AddCommMonoid M] {dfDx : List JacobianSparsity}
    (hl : dfDx.Pairwise fun e e' => e.col < e'.col) {fIndex offX : Nat}
    (hr : ∀ e ∈ dfDx, e.col < offX) (hf : fIndex < offX)
    (diag : Option JacobianSparsity → M) (elem : Nat → JacobianSparsity → M) (A : M)
    (B : JacobianSparsity → M)
    (hdiag : ∀ o, (∀ e ∈ o.toList, e.col = fIndex) → diag o = A + (o.toList.map B).sum)
    (helem : ∀ e, elem e.col e = B e) :
    (walkList dfDx fIndex offX diag elem).sum = A + (dfDx.map B).sum := by
  have key : ∀ n, (walkList dfDx fIndex n diag elem).sum =
      (if fIndex < n then A else 0) + ((dfDx.filter (·.col < n)).map B).sum := by
    intro n
    induction n with
    | zero => simp [walkList]
    | succ n ih =>
      rw [walkList_succ, List.sum_append, ih, filter_succ hl, List.map_append, List.sum_append]
      by_cases h : n = fIndex
      · have hd := hdiag (dfDx.find? (·.col == n)) fun e he => by
          have := List.find?_some (Option.mem_toList.mp he)
          simp only [beq_iff_eq] at this
          omega
        rw [if_pos h, if_neg (by omega), if_pos (by omega), List.sum_singleton, hd, zero_add]
        exact add_left_comm _ _ _
      · have hx : ((dfDx.find? (·.col == n)).map (elem n)).toList =
            (dfDx.find? (·.col == n)).toList.map B := by
          cases hn : dfDx.find? (·.col == n) with
          | none => rfl
          | some e =>
            have := List.find?_some hn
            simp only [beq_iff_eq] at this
            subst this
            simp [helem]
        have hi : (if fIndex < n + 1 then A else 0) = if fIndex < n then A else 0 :=
          if_congr (by omega) rfl rfl
        rw [if_neg h, hx, hi, add_assoc]
  have hall : dfDx.filter (·.col < offX) = dfDx := by
    rw [List.filter_eq_self]
    intro e he
    simpa using hr e he
  rw [key, if_pos hf, hall]

theorem filter_eq_find? {l : List JacobianSparsity}
    (hl : l.Pairwise fun e e' => e.col < e'.col) (x : Nat) :
    l.filter (·.col == x) = (l.find? (·.col == x)).toList := by
  induction l with
  | nil => rfl
  | cons e l ih =>
    obtain ⟨he, hl⟩ := List.pairwise_cons.mp hl
    by_cases hx : e.col = x
    · have hnone : l.filter (·.col == x) = [] := by
        rw [List.filter_eq_nil_iff]
        intro e' he'
        have := he e' he'
        simp only [beq_iff_eq]
        omega
      rw [List.filter_cons_of_pos (by simpa using hx), List.find?_cons_of_pos (by simpa using hx),
        hnone]
      rfl
    · rw [List.filter_cons_of_neg (by simpa using hx), List.find?_cons_of_neg (by simpa using hx),
        ih hl]

/-- The diagonal entry of `dfDx` shares its cell with the differentiation matrix. -/
theorem walkList_length {dfDx : List JacobianSparsity}
    (hl : dfDx.Pairwise fun e e' => e.col < e'.col) {fIndex offX : Nat}
    (hr : ∀ e ∈ dfDx, e.col < offX) (hf : fIndex < offX)
    (diag : Option JacobianSparsity → β) (elem : Nat → JacobianSparsity → β) :
    (walkList dfDx fIndex offX diag elem).length + dfDx.countP (·.col == fIndex) =
      1 + dfDx.length := by
  have key : ∀ n, (walkList dfDx fIndex n diag elem).length +
      (if fIndex < n then dfDx.countP (·.col == fIndex) else 0) =
      (if fIndex < n then 1 else 0) + (dfDx.filter (·.col < n)).length := by
    intro n
    induction n with
    | zero => simp [walkList]
    | succ n ih =>
      have hlen : (dfDx.filter (·.col == n)).length = dfDx.countP (·.col == n) :=
        List.countP_eq_length_filter.symm
      rw [walkList_succ, filter_succ hl, List.length_append, List.length_append,
        ← filter_eq_find? hl, hlen]
      by_cases h : n = fIndex
      · subst h
        rw [if_neg (by omega), if_neg (by omega)] at ih
        rw [if_pos rfl, if_pos (by omega), if_pos (by omega), List.length_singleton]
        omega
      · have hmap : ((dfDx.find? (·.col == n)).map (elem n)).toList.length =
            dfDx.countP (·.col == n) := by
          rw [← hlen, filter_eq_find? hl]
          cases dfDx.find? (·.col == n) <;> rfl
        rw [if_neg h, hmap]
        split at ih
        · rw [if_pos (by omega), if_pos (by omega)]
          omega
        · rw [if_neg (by omega), if_neg (by omega)]
          omega
  have hall : dfDx.filter (·.col < offX) = dfDx := by
    rw [List.filter_eq_self]
    intro e he
    simpa using hr e he
  have h := key offX
  rwa [if_pos hf, if_pos hf, hall] at h

end Walk

/-! ## The slots of each row -/

section Slots

variable {K : Type} [Field K] {T : FLGR K} (P : Problem K) (M : Mesh T) (off : Offsets)
variable (B : Buffers K)

def rowF (i j fIndex : Nat) : List (Slot K) :=
  let eqnIndex := off.offAccFg i j + fIndex
  let fn := P.full.fAt fIndex
  let D := T.getD (M.nodesAt i) (j + 1)
  [⟨eqnIndex, offPrev M off i + fIndex, some (D 0), id⟩] ++
  (List.range j).map (fun k => ⟨eqnIndex, off.offAccXu i k + fIndex, some (D (k + 1)), id⟩) ++
  walkList fn.jac.dx fIndex off.offX
    (fun collision => ⟨eqnIndex, off.offAccXu i j + fIndex, some (D (j + 1)),
      fun v => match collision with
        | some dfDx => v - M.deltaTAt i * lfgJac P M B dfDx.bufIndex i j
        | none => v⟩)
    (fun x dfDx => ⟨eqnIndex, off.offAccXu i j + x, none,
      fun v => v - M.deltaTAt i * lfgJac P M B dfDx.bufIndex i j⟩) ++
  fn.jac.du.map (fun dfDu => ⟨eqnIndex, off.offAccXu i j + off.offX + dfDu.col, none,
    fun _ => -M.deltaTAt i * lfgJac P M B dfDu.bufIndex i j⟩) ++
  (List.range (M.nodesAt i - (j + 1))).map (fun k =>
    ⟨eqnIndex, off.offAccXu i (j + 1 + k) + fIndex, some (D (j + 1 + k + 1)), id⟩) ++
  fn.jac.dp.map fun dfDp => ⟨eqnIndex, off.offXuTotal + dfDp.col, none,
    fun _ => -M.deltaTAt i * lfgJac P M B dfDp.bufIndex i j⟩

def rowG (i j gIndex : Nat) : List (Slot K) :=
  let eqnIndex := off.offAccFg i j + P.pc.fSize + gIndex
  let fn := P.full.gAt gIndex
  fn.jac.dx.map (fun dgDx => ⟨eqnIndex, off.offAccXu i j + dgDx.col, none,
    fun _ => lfgJac P M B dgDx.bufIndex i j⟩) ++
  fn.jac.du.map (fun dgDu => ⟨eqnIndex, off.offAccXu i j + off.offX + dgDu.col, none,
    fun _ => lfgJac P M B dgDu.bufIndex i j⟩) ++
  fn.jac.dp.map fun dgDp => ⟨eqnIndex, off.offXuTotal + dgDp.col, none,
    fun _ => lfgJac P M B dgDp.bufIndex i j⟩

def rowR (rIndex : Nat) : List (Slot K) :=
  let eqnIndex := off.offFgTotal + rIndex
  let fn := P.boundary.rAt rIndex
  fn.jac.dx0.map (fun drDx0 => ⟨eqnIndex, drDx0.col, none, fun _ => mrJac B drDx0.bufIndex⟩) ++
  fn.jac.dxf.map (fun drDxf => ⟨eqnIndex, off.offLastXu + drDxf.col, none,
    fun _ => mrJac B drDxf.bufIndex⟩) ++
  fn.jac.duf.map (fun drDuf => ⟨eqnIndex, off.offLastXu + off.offX + drDuf.col, none,
    fun _ => mrJac B drDuf.bufIndex⟩) ++
  fn.jac.dp.map fun drDp => ⟨eqnIndex, off.offXuTotal + drDp.col, none,
    fun _ => mrJac B drDp.bufIndex⟩

def nodeSlots (i j : Nat) : List (Slot K) :=
  (List.range P.pc.fSize).flatMap (rowF P M off B i j) ++
  (List.range P.pc.gSize).flatMap (rowG P M off B i j)

def intervalSlots (i : Nat) : List (Slot K) :=
  (List.range (M.nodesAt i)).flatMap (nodeSlots P M off B i)

def boundarySlots : List (Slot K) := (List.range P.pc.rSize).flatMap (rowR P off B)

def jacSlots : List (Slot K) :=
  (List.range M.intervals).flatMap (intervalSlots P M off B) ++ boundarySlots P off B

/-! Both loops write exactly these slots. -/

theorem run_map_foldl {α β : Type} (l : List β) (f : β → α → α) (t : Tape α) :
    Tape.run (l.map f) t = l.foldl (fun t e => t.write (f e)) t := by
  rw [Tape.run, List.foldl_map]

theorem jacSparsityRowF_eq {fIndex : Nat}
    (hl : (P.full.fAt fIndex).jac.dx.Pairwise fun e e' => e.col < e'.col) (i j : Nat)
    (t : Tape (JacCell K)) : jacSparsityRowF P M off i j fIndex t =
      Tape.run ((rowF P M off B i j fIndex).map Slot.pat) t := by
  simp only [rowF, List.map_append, Tape.run_append, List.map_map, walkList_map]
  rw [jacSparsityRowF, walkDfDx_eq hl]
  simp only [run_map_foldl]
  rw [forFrom_step, forRange_step]
  simp only [List.foldl_map]
  rfl

theorem evalJacRowF_eq {fIndex : Nat}
    (hl : (P.full.fAt fIndex).jac.dx.Pairwise fun e e' => e.col < e'.col) (i j : Nat)
    (t : Tape K) : evalJacRowF P M off B i j fIndex t =
      Tape.run ((rowF P M off B i j fIndex).map Slot.val) t := by
  simp only [rowF, List.map_append, Tape.run_append, List.map_map, walkList_map]
  have hskip : t.skip (j + 1) = (t.skip 1).skip j := by rw [Tape.skip_skip, Nat.add_comm]
  rw [evalJacRowF, walkDfDx_eq hl, hskip]
  have hid : ∀ (n : Nat) (t : Tape K), t.skip n = Tape.run ((List.range n).map fun _ => id) t := by
    intro n t
    rw [Tape.skip_eq_run, List.map_const', List.length_range]
  simp only [← run_map_foldl, Nat.sub_sub, hid]
  rfl

theorem jacSparsityRowG_eq (i j gIndex : Nat) (t : Tape (JacCell K)) :
    jacSparsityRowG P off i j gIndex t =
      Tape.run ((rowG P M off B i j gIndex).map Slot.pat) t := by
  simp only [rowG, List.map_append, Tape.run_append, List.map_map, jacSparsityRowG,
    ← run_map_foldl]
  rfl

theorem evalJacRowG_eq (i j gIndex : Nat) (t : Tape K) :
    evalJacRowG P M B i j gIndex t = Tape.run ((rowG P M off B i j gIndex).map Slot.val) t := by
  simp only [rowG, List.map_append, Tape.run_append, List.map_map, evalJacRowG, ← run_map_foldl]
  rfl

omit [Field K] in
theorem jacSparsityRowR_eq (rIndex : Nat) (t : Tape (JacCell K)) :
    jacSparsityRowR P off rIndex t = Tape.run ((rowR P off B rIndex).map Slot.pat) t := by
  simp only [rowR, List.map_append, Tape.run_append, List.map_map, jacSparsityRowR,
    ← run_map_foldl]
  rfl

omit [Field K] in
theorem evalJacRowR_eq (rIndex : Nat) (t : Tape K) :
    evalJacRowR P B rIndex t = Tape.run ((rowR P off B rIndex).map Slot.val) t := by
  simp only [rowR, List.map_append, Tape.run_append, List.map_map, evalJacRowR, ← run_map_foldl]
  rfl

/-- A loop nest of rows is one program. -/
theorem run_flatMap {α β : Type} {n : Nat} {body : Nat → Tape α → Tape α} {g : Nat → List β}
    {h : β → α → α} (hb : ∀ i, i < n → ∀ t, body i t = Tape.run ((g i).map h) t) (t : Tape α) :
    forRange n body t = Tape.run (((List.range n).flatMap g).map h) t := by
  rw [List.map_flatMap]
  exact forRange_foldl hb t

variable (hP : WalksOk P)

include hP

theorem jacSparsityInterval_eq (accJac : Nat → Nat) (i : Nat) (t : Tape (JacCell K)) :
    jacSparsityInterval P M off accJac i t =
      Tape.run ((intervalSlots P M off B i).map Slot.pat) { t with pos := accJac i } := by
  refine run_flatMap (fun j _ t => ?_) _
  rw [nodeSlots, List.map_append, Tape.run_append,
    ← run_flatMap fun f hf t => jacSparsityRowF_eq P M off B (hP.sorted _ hf) i j t,
    ← run_flatMap fun g _ t => jacSparsityRowG_eq P M off B i j g t]

theorem evalJacInterval_eq (accJac : Nat → Nat) (i : Nat) (t : Tape K) :
    evalJacInterval P M off B accJac i t =
      Tape.run ((intervalSlots P M off B i).map Slot.val) { t with pos := accJac i } := by
  refine run_flatMap (fun j _ t => ?_) _
  rw [nodeSlots, List.map_append, Tape.run_append,
    ← run_flatMap fun f hf t => evalJacRowF_eq P M off B (hP.sorted _ hf) i j t,
    ← run_flatMap fun g _ t => evalJacRowG_eq P M off B i j g t]

/-! ## Counting -/

theorem rowF_length {i j fIndex : Nat} (hj : j < M.nodesAt i) (hf : fIndex < P.pc.fSize) :
    (rowF P M (getSizes P M) B i j fIndex).length +
        (P.full.fAt fIndex).jac.dx.countP (·.col == fIndex) =
      M.nodesAt i + 1 + (P.full.fAt fIndex).jac.nnz := by
  have hw := walkList_length (hP.sorted _ hf) (hP.range _ hf) hf
    (fun collision => (⟨(getSizes P M).offAccFg i j + fIndex,
      (getSizes P M).offAccXu i j + fIndex, some (T.getD (M.nodesAt i) (j + 1) (j + 1)),
      fun v => match collision with
        | some dfDx => v - M.deltaTAt i * lfgJac P M B dfDx.bufIndex i j
        | none => v⟩ : Slot K))
    (fun x dfDx => ⟨(getSizes P M).offAccFg i j + fIndex, (getSizes P M).offAccXu i j + x, none,
      fun v => v - M.deltaTAt i * lfgJac P M B dfDx.bufIndex i j⟩)
  simp only [rowF, List.length_append, List.length_map, List.length_range, List.length_singleton,
    JacobianLFG.nnz, getSizes_offX]
  omega

omit hP in
theorem rowG_length (i j gIndex : Nat) :
    (rowG P M off B i j gIndex).length = (P.full.gAt gIndex).jac.nnz := by
  simp [rowG, JacobianLFG.nnz, Nat.add_assoc]

omit [Field K] hP in
theorem rowR_length (rIndex : Nat) :
    (rowR P off B rIndex).length = (P.boundary.rAt rIndex).jac.nnz := by
  simp [rowR, JacobianMR.nnz, Nat.add_assoc]

theorem nodeSlots_length {i j : Nat} (hj : j < M.nodesAt i) :
    (nodeSlots P M (getSizes P M) B i j).length =
      (M.nodesAt i + 1) * P.pc.xSize + nnzF P + nnzG P - diagonalCollisions P := by
  have h : ∑ f ∈ Finset.range P.pc.fSize, (rowF P M (getSizes P M) B i j f).length +
      diagonalCollisions P = (M.nodesAt i + 1) * P.pc.xSize + nnzF P := by
    rw [diagonalCollisions, nnzF, forRange_sum, forRange_sum, ← Finset.sum_add_distrib,
      Finset.sum_congr rfl fun f hf => rowF_length P M B hP hj (Finset.mem_range.mp hf),
      Finset.sum_add_distrib, Finset.sum_const_nat fun _ _ => rfl, Finset.card_range, Nat.mul_comm]
    rfl
  have hg : nnzG P = ∑ g ∈ Finset.range P.pc.gSize, (P.full.gAt g).jac.nnz := forRange_sum ..
  rw [nodeSlots, List.length_append, length_flatMap_range, length_flatMap_range,
    Finset.sum_congr rfl fun g _ => rowG_length P M (getSizes P M) B i j g, ← hg]
  omega

theorem intervalSlots_length (i : Nat) :
    (intervalSlots P M (getSizes P M) B i).length = M.nodesAt i *
      ((M.nodesAt i + 1) * P.pc.xSize + nnzF P + nnzG P - diagonalCollisions P) := by
  rw [intervalSlots, length_flatMap_range, Finset.sum_const_nat fun j hj =>
    nodeSlots_length P M B hP (Finset.mem_range.mp hj), Finset.card_range]

/-- `off_acc_jac_fg[i]` is the number of slots of the intervals before `i`. -/
theorem offAccJacFg_eq {i : Nat} (hi : i ≤ M.intervals) :
    (initJacobianNonzeros P M P.pc.xSize).1 i =
      ((List.range i).flatMap (intervalSlots P M (getSizes P M) B)).length := by
  have h : (initJacobianNonzeros P M P.pc.xSize).1 = offAccJacFg P M P.pc.xSize := rfl
  rw [h, offAccJacFg, forRange_partialSums M.intervals (fun i => M.nodesAt i *
    ((M.nodesAt i + 1) * P.pc.xSize + nnzF P + nnzG P - diagonalCollisions P)) hi,
    length_flatMap_range]
  exact Finset.sum_congr rfl fun i _ => (intervalSlots_length P M B hP i).symm

theorem nnzJac_eq :
    (initJacobianNonzeros P M P.pc.xSize).2 = (jacSlots P M (getSizes P M) B).length := by
  have h : (initJacobianNonzeros P M P.pc.xSize).2 =
    (initJacobianNonzeros P M P.pc.xSize).1 M.intervals + nnzR P := rfl
  rw [h, offAccJacFg_eq P M B hP le_rfl, jacSlots, List.length_append, boundarySlots,
    length_flatMap_range (g := rowR P (getSizes P M) B),
    Finset.sum_congr rfl fun r _ => rowR_length P (getSizes P M) B r, ← forRange_sum]
  rfl

/-- The two loop nests differ in what they write for a slot (`h`), not in the slots. -/
theorem run_jacSlots {α : Type} (h : Slot K → α → α) {interval row : Nat → Tape α → Tape α}
    (hi : ∀ i t, interval i t = Tape.run ((intervalSlots P M (getSizes P M) B i).map h)
      { t with pos := (initJacobianNonzeros P M P.pc.xSize).1 i })
    (hr : ∀ r t, row r t = Tape.run ((rowR P (getSizes P M) B r).map h) t) (cells : Nat → α) :
    forRange P.pc.rSize row { forRange M.intervals interval ⟨0, cells⟩ with
        pos := (initJacobianNonzeros P M P.pc.xSize).1 M.intervals } =
      Tape.run ((jacSlots P M (getSizes P M) B).map h) ⟨0, cells⟩ := by
  have inv := forRange_inv (n := M.intervals) (f := interval) (s := ⟨0, cells⟩)
    (P := fun i t => t = Tape.run
      (((List.range i).flatMap (intervalSlots P M (getSizes P M) B)).map h) ⟨0, cells⟩) rfl ?_
  · rw [inv, jacSlots, List.map_append, Tape.run_append, boundarySlots,
      ← run_flatMap fun r _ t => hr r t]
    congr 1
    exact Tape.seek_eq (by rw [offAccJacFg_eq P M B hP le_rfl]; simp)
  · rintro i hn t rfl
    rw [hi, List.range_succ, List.flatMap_append, List.flatMap_singleton, List.map_append,
      Tape.run_append]
    congr 1
    exact Tape.seek_eq (by rw [offAccJacFg_eq P M B hP (Nat.le_of_lt hn)]; simp)

theorem getJacSparsity_eq (cells : Nat → JacCell K) :
    getJacSparsity P M (getSizes P M) (initJacobianNonzeros P M P.pc.xSize).1 cells =
      Tape.run ((jacSlots P M (getSizes P M) B).map Slot.pat) ⟨0, cells⟩ :=
  run_jacSlots P M B hP Slot.pat (fun i t => jacSparsityInterval_eq P M _ B hP _ i t)
    (fun r t => jacSparsityRowR_eq P _ B r t) cells

theorem evalJacGInternal_eq (constDerJac : Nat → K) :
    evalJacGInternal P M (getSizes P M) B (initJacobianNonzeros P M P.pc.xSize).1 constDerJac =
      Tape.run ((jacSlots P M (getSizes P M) B).map Slot.val) ⟨0, constDerJac⟩ :=
  run_jacSlots P M B hP Slot.val (fun i t => evalJacInterval_eq P M _ B hP _ i t)
    (fun r t => evalJacRowR_eq P _ B r t) constDerJac

theorem offAccJacFg_succ {i : Nat} (hi : i < M.intervals) :
    (initJacobianNonzeros P M P.pc.xSize).1 (i + 1) =
      (initJacobianNonzeros P M P.pc.xSize).1 i +
        (intervalSlots P M (getSizes P M) B i).length := by
  rw [offAccJacFg_eq P M B hP hi, offAccJacFg_eq P M B hP (Nat.le_of_lt hi), List.range_succ,
    List.flatMap_append, List.flatMap_singleton, List.length_append]

include B in
theorem jacSparsityInterval_pos {i : Nat} (hi : i < M.intervals) (t : Tape (JacCell K)) :
    (jacSparsityInterval P M (getSizes P M) (initJacobianNonzeros P M P.pc.xSize).1 i t).pos =
      (initJacobianNonzeros P M P.pc.xSize).1 (i + 1) := by
  rw [jacSparsityInterval_eq P M _ B hP, Tape.run_pos, List.length_map,
    offAccJacFg_succ P M B hP hi]

theorem evalJacInterval_pos {i : Nat} (hi : i < M.intervals) (t : Tape K) :
    (evalJacInterval P M (getSizes P M) B (initJacobianNonzeros P M P.pc.xSize).1 i t).pos =
      (initJacobianNonzeros P M P.pc.xSize).1 (i + 1) := by
  rw [evalJacInterval_eq P M _ B hP, Tape.run_pos, List.length_map, offAccJacFg_succ P M B hP hi]

end Slots

end GDOP
end Moo
