import Mathlib.Data.List.ProdSigma
import Moo.C.Layout
import Moo.Lib.Buckets

/-!
# C.LayoutFull

The lists of the full sweep: Jacobian entries by function and group of columns, Hessian entries by
block.

* `lfgJacKey`, `lfgHesKey`: the list of a triplet. `lfgJacBack`, `lfgHesBack`: the triplet of an
  entry.
* `createFullsweepLayout_lists`: the passes push every triplet under its key.
* `createFullsweepLayout_classified`: nothing is lost, nothing is twice.
-/

namespace Moo
namespace C

open Loop GDOP Buckets

/-! ## Places of the full sweep -/

/-- The groups of variables, in the order of the columns. -/
inductive Part where
  | dx | du | dp
  deriving Repr, DecidableEq

/-- The functions, in the order of the rows. -/
inductive LfgFn where
  | L
  | f (k : Nat)
  | g (k : Nat)
  deriving Repr, DecidableEq

section FullPlaces

variable {K : Type} (c : CProblem K)

def Part.off : Part → Nat
  | .dx => 0
  | .du => c.xSize
  | .dp => c.xuSize

def Part.size : Part → Nat
  | .dx => c.xSize
  | .du => c.uSize
  | .dp => c.pSize

def Part.ofIndex (k : Nat) : Part :=
  if k < c.xSize then .dx else if k < c.xuSize then .du else .dp

theorem Part.ofIndex_bounds {k : Nat} (hk : k < c.xuSize + c.pSize) :
    (Part.ofIndex c k).off c ≤ k ∧ k < (Part.ofIndex c k).off c + (Part.ofIndex c k).size c := by
  have hxu := c.xu_size
  unfold Part.ofIndex
  split
  · simp only [Part.off, Part.size]
    omega
  · split
    · simp only [Part.off, Part.size]
      omega
    · simp only [Part.off, Part.size]
      omega

def lSize : Nat := if c.hasLagrange then 1 else 0

/-- The number of functions. -/
def lfgSize : Nat := lSize c + c.xSize + c.gSize

def LfgFn.row : LfgFn → Nat
  | .L => 0
  | .f k => lSize c + k
  | .g k => lSize c + c.xSize + k

def LfgFn.ofRow (row : Nat) : LfgFn :=
  if c.hasLagrange && row == 0 then .L
  else if row < c.xSize + lSize c then .f (row - lSize c)
  else .g (row - c.xSize - lSize c)

def lfgFns : List LfgFn :=
  (if c.hasLagrange then [.L] else []) ++ (List.range c.xSize).map .f ++ (List.range c.gSize).map .g

theorem LfgFn.ofRow_row (row : Nat) : (LfgFn.ofRow c row).row c = row := by
  unfold LfgFn.ofRow lSize LfgFn.row lSize
  cases c.hasLagrange with
  | false =>
    by_cases h : row < c.xSize
    · simp [h]
    · simp [h]
      omega
  | true =>
    by_cases h0 : row = 0
    · simp [h0]
    · by_cases h : row < c.xSize + 1
      · simp [h0, h]
        omega
      · simp [h0, h]
        omega

theorem mem_lfgFns {fn : LfgFn} : fn ∈ lfgFns c ↔
    match fn with
    | .L => c.hasLagrange = true
    | .f k => k < c.xSize
    | .g k => k < c.gSize := by
  cases fn <;> simp [lfgFns]

theorem LfgFn.row_inj {q q' : LfgFn} (hq : q ∈ lfgFns c) (hq' : q' ∈ lfgFns c)
    (h : q.row c = q'.row c) : q = q' := by
  rw [mem_lfgFns] at hq hq'
  unfold LfgFn.row lSize at h
  cases q <;> cases q' <;> simp_all <;> omega

theorem LfgFn.row_lt {q : LfgFn} (hq : q ∈ lfgFns c) : q.row c < lfgSize c := by
  rw [mem_lfgFns] at hq
  unfold LfgFn.row lfgSize lSize
  cases q with
  | L =>
    dsimp only at hq ⊢
    rw [if_pos hq]
    omega
  | f k =>
    dsimp only at hq ⊢
    omega
  | g k =>
    dsimp only at hq ⊢
    omega

theorem LfgFn.ofRow_mem {row : Nat} (h : row < lfgSize c) : LfgFn.ofRow c row ∈ lfgFns c := by
  unfold lfgSize lSize at h
  rw [mem_lfgFns]
  unfold LfgFn.ofRow lSize
  cases hL : c.hasLagrange with
  | false =>
    rw [hL] at h
    by_cases hf : row < c.xSize
    · simp [hf]
    · simp at h
      simp [hf]
      omega
  | true =>
    rw [hL] at h
    by_cases h0 : row = 0
    · simp [h0]
    · by_cases hf : row < c.xSize + 1
      · simp [h0, hf]
        omega
      · simp at h
        simp [h0, hf]
        omega

theorem lfgFns_nodup : (lfgFns c).Nodup := by
  have hf : ((List.range c.xSize).map LfgFn.f).Nodup :=
    List.nodup_range.map fun _ _ h => LfgFn.f.inj h
  have hg : ((List.range c.gSize).map LfgFn.g).Nodup :=
    List.nodup_range.map fun _ _ h => LfgFn.g.inj h
  unfold lfgFns
  rw [List.append_assoc, List.nodup_append, List.nodup_append]
  refine ⟨?_, ⟨hf, hg, ?_⟩, ?_⟩
  · split <;> simp
  · intro a ha b hb
    obtain ⟨_, -, rfl⟩ := List.mem_map.mp ha
    obtain ⟨_, -, rfl⟩ := List.mem_map.mp hb
    exact LfgFn.noConfusion
  · intro a ha b hb
    split at ha
    · obtain rfl := List.mem_singleton.mp ha
      rcases List.mem_append.mp hb with hb | hb <;>
      · obtain ⟨_, -, rfl⟩ := List.mem_map.mp hb
        exact LfgFn.noConfusion
    · cases ha

/-- The Jacobian lists: one for each function and each group of columns. -/
def lfgJacPlaces : List (LfgFn × Part) := (lfgFns c).product [.dx, .du, .dp]

/-- The blocks of the lower triangle. -/
def lfgHesPlaces : List (Part × Part) :=
  [(.dx, .dx), (.du, .dx), (.du, .du), (.dp, .dx), (.dp, .du), (.dp, .dp)]

/-- Where a nonzero of the Jacobian belongs, and as what. -/
def lfgJacKey (t : Triplet) : LfgFn × Part := (LfgFn.ofRow c t.row, Part.ofIndex c t.col)

def lfgJacVal (t : Triplet) : JacobianSparsity :=
  ⟨t.col - (Part.ofIndex c t.col).off c, t.bufIndex⟩

def lfgHesKey (t : Triplet) : Part × Part := (Part.ofIndex c t.row, Part.ofIndex c t.col)

def lfgHesVal (t : Triplet) : HessianSparsity :=
  ⟨t.row - (Part.ofIndex c t.row).off c, t.col - (Part.ofIndex c t.col).off c, t.bufIndex⟩

/-- The nonzero that an entry of a list stands for. -/
def lfgJacBack (q : LfgFn × Part) (e : JacobianSparsity) : Triplet :=
  ⟨q.1.row c, q.2.off c + e.col, e.bufIndex⟩

def lfgHesBack (q : Part × Part) (e : HessianSparsity) : Triplet :=
  ⟨q.1.off c + e.row, q.2.off c + e.col, e.bufIndex⟩

end FullPlaces

/-! ## Lists of the full sweep -/

def jacPart (jac : JacobianLFG) : Part → List JacobianSparsity
  | .dx => jac.dx
  | .du => jac.du
  | .dp => jac.dp

def lfgFn (layout : FullSweepLayout) : LfgFn → FunctionLFG
  | .L => layout.L.getD {}
  | .f k => layout.fAt k
  | .g k => layout.gAt k

def lfgJacList (layout : FullSweepLayout) (q : LfgFn × Part) : List JacobianSparsity :=
  jacPart (lfgFn layout q.1).jac q.2

def lfgHesList (layout : FullSweepLayout) : Part × Part → List HessianSparsity
  | (.dx, .dx) => layout.hes.dxDx
  | (.du, .dx) => layout.hes.duDx
  | (.du, .du) => layout.hes.duDu
  | (.dp, .dx) => layout.hes.dpDx
  | (.dp, .du) => layout.hes.dpDu
  | (.dp, .dp) => layout.ppHes.dpDp
  | _ => []

/-- One entry of a vector of functions is edited. -/
theorem getD_modify {α : Type*} (l : List α) (d : α) (edit : α → α) {i : Nat} (hi : i < l.length)
    (k : Nat) : (l.modify i edit).getD k d = if i = k then edit (l.getD k d) else l.getD k d := by
  rw [List.getD_eq_getElem?_getD, List.getElem?_modify, List.getD_eq_getElem?_getD]
  split
  · rename_i h
    subst h
    simp [hi]
  · simp

section FullLists

variable {K : Type} {c : CProblem K} {layout : FullSweepLayout}

/-- A layout with the functions of the problem. -/
structure FullSized (c : CProblem K) (layout : FullSweepLayout) : Prop where
  L : layout.L.isSome = c.hasLagrange
  f : layout.f.length = c.xSize
  g : layout.g.length = c.gSize

/-- The layout after an edit of one function. -/
def editFn (layout : FullSweepLayout) (edit : FunctionLFG → FunctionLFG) : LfgFn → FullSweepLayout
  | .L => { layout with L := layout.L.map edit }
  | .f k => { layout with f := layout.f.modify k edit }
  | .g k => { layout with g := layout.g.modify k edit }

theorem editFn_sized (hl : FullSized c layout) (edit : FunctionLFG → FunctionLFG) (q : LfgFn) :
    FullSized c (editFn layout edit q) := by
  obtain ⟨h1, h2, h3⟩ := hl
  cases q with
  | L => exact ⟨by simpa [editFn] using h1, h2, h3⟩
  | f k => exact ⟨h1, by simpa [editFn] using h2, h3⟩
  | g k => exact ⟨h1, h2, by simpa [editFn] using h3⟩

theorem editFn_fn (hl : FullSized c layout) (edit : FunctionLFG → FunctionLFG) {q : LfgFn}
    (hq : q ∈ lfgFns c) (q' : LfgFn) : lfgFn (editFn layout edit q) q' =
      if q = q' then edit (lfgFn layout q') else lfgFn layout q' := by
  rw [mem_lfgFns] at hq
  cases q with
  | L =>
    cases q' with
    | L =>
      obtain ⟨L, hL⟩ := Option.isSome_iff_exists.mp (hl.L.trans hq)
      simp [lfgFn, editFn, hL]
    | f k => rfl
    | g k => rfl
  | f i =>
    cases q' with
    | L => rfl
    | f k =>
      simpa [lfgFn, editFn, FullSweepLayout.fAt] using
        getD_modify layout.f {} edit (hl.f ▸ hq) k
    | g k => rfl
  | g i =>
    cases q' with
    | L => rfl
    | f k => rfl
    | g k =>
      simpa [lfgFn, editFn, FullSweepLayout.gAt] using
        getD_modify layout.g {} edit (hl.g ▸ hq) k

theorem accessLfgFromRow_eq (hl : FullSized c layout) (row : Nat)
    (edit : FunctionLFG → FunctionLFG) :
    accessLfgFromRow layout row edit = editFn layout edit (LfgFn.ofRow c row) := by
  have hs : (if c.hasLagrange = true then 1 else 0) = lSize c := rfl
  unfold accessLfgFromRow LfgFn.ofRow
  simp only [hl.f, hl.L, hs]
  by_cases h0 : (c.hasLagrange && row == 0) = true
  · rw [if_pos h0, if_pos h0]
    rfl
  · rw [if_neg h0, if_neg h0]
    by_cases h1 : row < c.xSize + lSize c
    · rw [if_pos h1, if_pos h1]
      rfl
    · rw [if_neg h1, if_neg h1]
      rfl

/-- The layout with the value indices of the functions, whose Jacobians are those of `old`. -/
structure Indexed (c : CProblem K) (old layout : FullSweepLayout) (n : Nat) : Prop where
  sized : FullSized c layout
  jac : ∀ q, (lfgFn layout q).jac = (lfgFn old q).jac
  hes : layout.hes = old.hes
  ppHes : layout.ppHes = old.ppHes
  bufIndex : ∀ q ∈ lfgFns c, q.row c < n → (lfgFn layout q).bufIndex = c.lfgEval (q.row c)

theorem Indexed.edit {old : FullSweepLayout} {n : Nat} (h : Indexed c old layout n) {q : LfgFn}
    (hq : q ∈ lfgFns c) (hn : q.row c = n) :
    Indexed c old (editFn layout (fun fn => { fn with bufIndex := c.lfgEval n }) q) (n + 1) where
  sized := editFn_sized h.sized _ q
  jac := by
    intro q'
    rw [editFn_fn h.sized _ hq]
    split
    · exact h.jac q'
    · exact h.jac q'
  hes := by
    cases q with
    | L => exact h.hes
    | f k => exact h.hes
    | g k => exact h.hes
  ppHes := by
    cases q with
    | L => exact h.ppHes
    | f k => exact h.ppHes
    | g k => exact h.ppHes
  bufIndex := by
    intro q' hq' hlt
    rw [editFn_fn h.sized _ hq]
    split
    · rename_i he
      rw [← he, hn]
    · rename_i he
      have hne : q'.row c ≠ q.row c := fun e => he (LfgFn.row_inj c hq hq' e.symm)
      exact h.bufIndex q' hq' (by omega)

theorem layoutLfgInitEval_indexed (hl : FullSized c layout) :
    Indexed c layout (layoutLfgInitEval layout c) (lfgSize c) := by
  have h0 : Indexed c layout layout 0 := ⟨hl, fun _ => rfl, rfl, rfl, fun _ _ h => by omega⟩
  have hL : Indexed c layout
      { layout with L := layout.L.map fun L => { L with bufIndex := c.lfgEval 0 } } (lSize c) := by
    unfold lSize
    cases hc : c.hasLagrange with
    | true => exact h0.edit (q := .L) ((mem_lfgFns c).mpr hc) rfl
    | false =>
      have hn : layout.L = none := by
        have := hl.L
        rw [hc] at this
        simpa using this
      have e : { layout with L := layout.L.map fun L : FunctionLFG =>
          { L with bufIndex := c.lfgEval 0 } } = layout := by
        rw [hn]
        cases layout
        exact congrArg (fun L => FullSweepLayout.mk L _ _ _ _) hn.symm
      rw [e]
      exact h0
  unfold layoutLfgInitEval
  have hs : (if (layout.L.map fun L : FunctionLFG => { L with bufIndex := c.lfgEval 0 }).isSome =
      true then 1 else 0) = lSize c := by
    rw [Option.isSome_map, hl.L]
    rfl
  simp only [hs]
  have hf := forRange_inv (P := fun n t => Indexed c layout t (lSize c + n)) hL
    (n := c.xSize) (f := fun fIdx (layout : FullSweepLayout) => { layout with
      f := layout.f.modify fIdx fun fn => { fn with bufIndex := c.lfgEval (lSize c + fIdx) } })
    fun i hi t ht => ht.edit (q := .f i) ((mem_lfgFns c).mpr hi) rfl
  exact forRange_inv (P := fun n t => Indexed c layout t (lSize c + c.xSize + n)) hf
    fun i hi t ht => ht.edit (q := .g i) ((mem_lfgFns c).mpr hi) rfl

theorem pushJacLfg_part (t : Triplet) (jac : JacobianLFG) (p : Part) :
    jacPart (pushJacLfg c t jac) p =
      if Part.ofIndex c t.col = p then
        jacPart jac p ++ [lfgJacVal c t]
      else jacPart jac p := by
  unfold pushJacLfg lfgJacVal Part.ofIndex
  by_cases h1 : t.col < c.xSize
  · cases p <;> simp [h1, jacPart, Part.off]
  · by_cases h2 : t.col < c.xuSize
    · cases p <;> simp [h1, h2, jacPart, Part.off]
    · cases p <;> simp [h1, h2, jacPart, Part.off]

theorem pushHesLfg_list {t : Triplet} (ht : t.col ≤ t.row) :
    lfgHesList (pushHesLfg c t layout) =
      push (lfgHesKey c) (lfgHesVal c) (lfgHesList layout) t := by
  have hxu := c.xu_size
  funext ⟨a, b⟩
  rw [push_apply]
  unfold pushHesLfg lfgHesKey lfgHesVal Part.ofIndex
  by_cases c1 : t.col < c.xSize
  · by_cases r1 : t.row < c.xSize
    · cases a <;> cases b <;> simp [c1, r1, lfgHesList, Part.off]
    · by_cases r2 : t.row < c.xuSize
      · cases a <;> cases b <;> simp [c1, r1, r2, lfgHesList, Part.off]
      · cases a <;> cases b <;> simp [c1, r1, r2, lfgHesList, Part.off]
  · have r1 : ¬ t.row < c.xSize := by omega
    by_cases c2 : t.col < c.xuSize
    · by_cases r2 : t.row < c.xuSize
      · cases a <;> cases b <;> simp [c1, r1, c2, r2, lfgHesList, Part.off]
      · cases a <;> cases b <;> simp [c1, r1, c2, r2, lfgHesList, Part.off]
    · have r2 : ¬ t.row < c.xuSize := by omega
      cases a <;> cases b <;> simp [c1, r1, c2, r2, lfgHesList, Part.off]

theorem layoutLfgInitJac_lists (hl : FullSized c layout)
    (hj : ∀ t ∈ c.lfgJac.triplets, t.row < lfgSize c) :
    FullSized c (layoutLfgInitJac layout c) ∧
      lfgJacList (layoutLfgInitJac layout c) =
        c.lfgJac.triplets.foldl (push (lfgJacKey c) (lfgJacVal c)) (lfgJacList layout) := by
  refine forRange_push lfgJacList c.lfgJac.triplet hl fun nz hnz t ht =>
    ⟨(accessLfgFromRow_eq ht _ _).symm ▸ editFn_sized ht _ _, ?_⟩
  have hrow := hj _ (List.mem_map.mpr ⟨nz, List.mem_range.mpr hnz, rfl⟩)
  funext q
  rw [push_apply_pair (rfl : lfgJacKey c _ = (_, _)), lfgJacList]
  dsimp only
  rw [accessLfgFromRow_eq ht, editFn_fn ht _ (LfgFn.ofRow_mem c hrow)]
  by_cases h1 : LfgFn.ofRow c (c.lfgJac.triplet nz).row = q.1
  · rw [if_pos h1, if_pos h1]
    exact pushJacLfg_part _ _ _
  · rw [if_neg h1, if_neg h1]
    rfl

/-- The Jacobian pass leaves the value indices and the Hessian lists alone. -/
theorem layoutLfgInitJac_keeps (hl : FullSized c layout)
    (hj : ∀ t ∈ c.lfgJac.triplets, t.row < lfgSize c) :
    (∀ q, (lfgFn (layoutLfgInitJac layout c) q).bufIndex = (lfgFn layout q).bufIndex) ∧
      lfgHesList (layoutLfgInitJac layout c) = lfgHesList layout := by
  have key := forRange_inv (P := fun _ t => FullSized c t ∧
      (∀ q, (lfgFn t q).bufIndex = (lfgFn layout q).bufIndex) ∧
      lfgHesList t = lfgHesList layout) (n := c.lfgJac.nnz) (f := fun nz layout =>
      accessLfgFromRow layout (c.lfgJac.triplet nz).row fun fn =>
        { fn with jac := pushJacLfg c (c.lfgJac.triplet nz) fn.jac })
    ⟨hl, fun _ => rfl, rfl⟩ ?_
  · exact key.2
  · rintro nz hnz t ⟨h1, h2, h3⟩
    have hrow := hj _ (List.mem_map.mpr ⟨nz, List.mem_range.mpr hnz, rfl⟩)
    rw [accessLfgFromRow_eq h1]
    refine ⟨editFn_sized h1 _ _, fun q => ?_, ?_⟩
    · rw [editFn_fn h1 _ (LfgFn.ofRow_mem c hrow)]
      split
      · exact h2 q
      · exact h2 q
    · rw [← h3]
      cases LfgFn.ofRow c (c.lfgJac.triplet nz).row <;> rfl

theorem layoutLfgInitHes_lists (hh : ∀ t ∈ c.lfgLtHes.triplets, t.col ≤ t.row) :
    lfgHesList (layoutLfgInitHes layout c) =
      c.lfgLtHes.triplets.foldl (push (lfgHesKey c) (lfgHesVal c)) (lfgHesList layout) :=
  (forRange_push (I := fun _ => True) lfgHesList c.lfgLtHes.triplet trivial fun nz hnz _ _ =>
    ⟨trivial, pushHesLfg_list
      (hh _ (List.mem_map.mpr ⟨nz, List.mem_range.mpr hnz, rfl⟩))⟩).2

variable (c layout) in
theorem layoutLfgInitHes_keeps :
    (layoutLfgInitHes layout c).L = layout.L ∧ (layoutLfgInitHes layout c).f = layout.f ∧
      (layoutLfgInitHes layout c).g = layout.g := by
  have hp : ∀ t (l : FullSweepLayout), (pushHesLfg c t l).L = l.L ∧ (pushHesLfg c t l).f = l.f ∧
      (pushHesLfg c t l).g = l.g := by
    intro t l
    unfold pushHesLfg
    dsimp only
    split_ifs <;> exact ⟨rfl, rfl, rfl⟩
  refine ⟨forRange_frame FullSweepLayout.L layout fun _ _ t => (hp _ t).1,
    forRange_frame FullSweepLayout.f layout fun _ _ t => (hp _ t).2.1,
    forRange_frame FullSweepLayout.g layout fun _ _ t => (hp _ t).2.2⟩

theorem layoutLfgInitHes_fn (q : LfgFn) :
    lfgFn (layoutLfgInitHes layout c) q = lfgFn layout q := by
  obtain ⟨h1, h2, h3⟩ := layoutLfgInitHes_keeps c layout
  cases q with
  | L => rw [lfgFn, h1]; rfl
  | f k => rw [lfgFn, FullSweepLayout.fAt, h2]; rfl
  | g k => rw [lfgFn, FullSweepLayout.gAt, h3]; rfl

theorem newFullSweepLayout_sized :
    FullSized c (newFullSweepLayout c.hasLagrange c.xSize c.gSize) := by
  refine ⟨?_, List.length_replicate, List.length_replicate⟩
  unfold newFullSweepLayout
  cases c.hasLagrange <;> rfl

theorem newFullSweepLayout_fn (b : Bool) (n m : Nat) (q : LfgFn) :
    lfgFn (newFullSweepLayout b n m) q = {} := by
  cases q with
  | L => cases b <;> rfl
  | f k => exact List.getElem?_getD_replicate_default_eq ..
  | g k => exact List.getElem?_getD_replicate_default_eq ..

theorem layoutLfgInitJac_sized (hl : FullSized c layout) :
    FullSized c (layoutLfgInitJac layout c) := by
  refine forRange_inv (P := fun _ t => FullSized c t) hl fun nz _ t ht => ?_
  dsimp only
  rw [accessLfgFromRow_eq ht]
  exact editFn_sized ht _ _

theorem createFullsweepLayout_sized : FullSized c (createFullsweepLayout c) := by
  have h :=
    layoutLfgInitJac_sized (layoutLfgInitEval_indexed (newFullSweepLayout_sized (c := c))).sized
  obtain ⟨k1, k2, k3⟩ := layoutLfgInitHes_keeps c (layoutLfgInitJac
    (layoutLfgInitEval (newFullSweepLayout c.hasLagrange c.xSize c.gSize) c) c)
  exact ⟨k1 ▸ h.L, k2 ▸ h.f, k3 ▸ h.g⟩

/-- The Jacobian lists have the triplets that are pushed to them. -/
theorem createFullsweepLayout_jac (hj : ∀ t ∈ c.lfgJac.triplets, t.row < lfgSize c) :
    lfgJacList (createFullsweepLayout c) =
      c.lfgJac.triplets.foldl (push (lfgJacKey c) (lfgJacVal c)) fun _ => [] := by
  have h1 := layoutLfgInitEval_indexed (newFullSweepLayout_sized (c := c))
  obtain ⟨-, h3⟩ := layoutLfgInitJac_lists h1.sized hj
  have e : lfgJacList (layoutLfgInitEval
      (newFullSweepLayout c.hasLagrange c.xSize c.gSize) c) = fun _ => [] := by
    funext q
    rw [lfgJacList, h1.jac, newFullSweepLayout_fn]
    cases q.2 <;> rfl
  unfold createFullsweepLayout
  rw [← e, ← h3]
  funext q
  rw [lfgJacList, layoutLfgInitHes_fn]
  rfl

/-- Where values go in the layout of the full sweep, and its lists. -/
structure FullLists (c : CProblem K) (layout : FullSweepLayout) : Prop where
  bufIndex : ∀ q ∈ lfgFns c, (lfgFn layout q).bufIndex = c.lfgEval (q.row c)
  jac : lfgJacList layout = c.lfgJac.triplets.foldl (push (lfgJacKey c) (lfgJacVal c)) fun _ => []
  hes : lfgHesList layout = c.lfgLtHes.triplets.foldl (push (lfgHesKey c) (lfgHesVal c)) fun _ => []

theorem createFullsweepLayout_lists (hj : ∀ t ∈ c.lfgJac.triplets, t.row < lfgSize c)
    (hh : ∀ t ∈ c.lfgLtHes.triplets, t.col ≤ t.row) : FullLists c (createFullsweepLayout c) := by
  have h1 := layoutLfgInitEval_indexed (newFullSweepLayout_sized (c := c))
  obtain ⟨h4, h5⟩ := layoutLfgInitJac_keeps h1.sized hj
  refine ⟨fun q hq => ?_, createFullsweepLayout_jac hj, ?_⟩
  · unfold createFullsweepLayout
    rw [layoutLfgInitHes_fn, h4]
    exact h1.bufIndex q hq (LfgFn.row_lt c hq)
  · unfold createFullsweepLayout
    rw [layoutLfgInitHes_lists hh, h5]
    congr 1
    funext ⟨a, b⟩
    have hes := h1.hes
    have pp := h1.ppHes
    cases a <;> cases b <;> simp only [lfgHesList, hes, pp] <;> rfl

end FullLists

/-! ## Classification -/

section FullClassification

variable {K : Type} (c : CProblem K)

def LfgJacInRange : Prop :=
  ∀ t ∈ c.lfgJac.triplets, t.row < lfgSize c ∧ t.col < c.xuSize + c.pSize

/-- In range, and of the lower triangle. -/
def LfgHesInRange : Prop :=
  ∀ t ∈ c.lfgLtHes.triplets, t.row < c.xuSize + c.pSize ∧ t.col ≤ t.row

instance : Decidable (LfgJacInRange c) := List.decidableBAll _ _
instance : Decidable (LfgHesInRange c) := List.decidableBAll _ _

theorem lfgJac_back {t : Triplet} (hc : t.col < c.xuSize + c.pSize) :
    lfgJacBack c (lfgJacKey c t) (lfgJacVal c t) = t := by
  have h := Part.ofIndex_bounds c hc
  unfold lfgJacBack lfgJacKey lfgJacVal
  rw [LfgFn.ofRow_row, Nat.add_sub_of_le h.1]

theorem lfgHes_back {t : Triplet} (hr : t.row < c.xuSize + c.pSize) (hc : t.col ≤ t.row) :
    lfgHesBack c (lfgHesKey c t) (lfgHesVal c t) = t := by
  have h1 := Part.ofIndex_bounds c hr
  have h2 := Part.ofIndex_bounds c (Nat.lt_of_le_of_lt hc hr)
  unfold lfgHesBack lfgHesKey lfgHesVal
  rw [Nat.add_sub_of_le h1.1, Nat.add_sub_of_le h2.1]

/-- Groups in the order of the variables: the lower triangle has no other blocks. -/
theorem lfgHesKey_mem {t : Triplet} (hc : t.col ≤ t.row) : lfgHesKey c t ∈ lfgHesPlaces := by
  have hxu := c.xu_size
  unfold lfgHesKey Part.ofIndex
  by_cases r1 : t.row < c.xSize
  · rw [if_pos r1, if_pos (by omega)]
    decide
  · rw [if_neg r1]
    by_cases r2 : t.row < c.xuSize
    · rw [if_pos r2, if_pos (show t.col < c.xuSize by omega)]
      split <;> decide
    · rw [if_neg r2]
      split_ifs <;> decide

/-- The pattern of the path functions, told apart. -/
structure FullClassified (layout : FullSweepLayout) : Prop where
  sized : FullSized c layout
  jac : Distributes (lfgJacPlaces c) (lfgJacList layout) (lfgJacBack c) c.lfgJac.triplets
  jacInside : ∀ q, ∀ e ∈ lfgJacList layout q, q ∈ lfgJacPlaces c ∧ e.col < q.2.size c
  hes : Distributes lfgHesPlaces (lfgHesList layout) (lfgHesBack c) c.lfgLtHes.triplets
  hesInside : ∀ q, ∀ e ∈ lfgHesList layout q, q ∈ lfgHesPlaces ∧ e.row < q.1.size c ∧
    e.col < q.2.size c ∧ (q.1 = q.2 → e.col ≤ e.row)

variable {c}

theorem createFullsweepLayout_classified (hj : LfgJacInRange c) (hh : LfgHesInRange c) :
    FullClassified c (createFullsweepLayout c) := by
  have hl := createFullsweepLayout_lists (fun t ht => (hj t ht).1) fun t ht => (hh t ht).2
  have hmem : ∀ t ∈ c.lfgJac.triplets, lfgJacKey c t ∈ lfgJacPlaces c := fun t ht =>
    List.pair_mem_product.mpr
      ⟨LfgFn.ofRow_mem c (hj t ht).1, by cases Part.ofIndex c t.col <;> decide⟩
  refine ⟨createFullsweepLayout_sized, ?_, ?_, ?_, ?_⟩
  · exact distributes ((lfgFns_nodup c).product (by decide)) hmem
      (fun t ht => lfgJac_back c (hj t ht).2) hl.jac
  · refine forall_mem (Q := fun q e => q ∈ lfgJacPlaces c ∧ e.col < q.2.size c) hl.jac
      fun t ht => ⟨hmem t ht, ?_⟩
    have h := Part.ofIndex_bounds c (hj t ht).2
    dsimp only [lfgJacKey, lfgJacVal]
    omega
  · exact distributes (by decide) (fun t ht => lfgHesKey_mem c (hh t ht).2)
      (fun t ht => lfgHes_back c (hh t ht).1 (hh t ht).2) hl.hes
  · refine forall_mem (Q := fun q e => q ∈ lfgHesPlaces ∧ e.row < q.1.size c ∧
      e.col < q.2.size c ∧ (q.1 = q.2 → e.col ≤ e.row)) hl.hes fun t ht => ?_
    obtain ⟨hr, hc⟩ := hh t ht
    have h1 := Part.ofIndex_bounds c hr
    have h2 := Part.ofIndex_bounds c (Nat.lt_of_le_of_lt hc hr)
    refine ⟨lfgHesKey_mem c hc, ?_, ?_, fun h => ?_⟩
    · dsimp only [lfgHesKey, lfgHesVal]
      omega
    · dsimp only [lfgHesKey, lfgHesVal]
      omega
    · dsimp only [lfgHesKey, lfgHesVal] at h ⊢
      rw [h]
      omega

end FullClassification

end C
end Moo
