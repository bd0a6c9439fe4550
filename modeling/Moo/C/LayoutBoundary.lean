import Moo.C.LayoutFull

/-!
# C.LayoutBoundary

The lists of the boundary sweep. The order of its variables is `x(t0)`, `x(tf)`, `u(tf)`, `p`.

* `layout_classifies`: the lists of both layouts are the triplets told apart.
* `boundary_hessian_iff`: the boundary Hessian is the one of the interface where its pattern is a
  permutation of the one that is read.
-/

namespace Moo
namespace C

open Loop GDOP Buckets

/-! ## Places of the boundary sweep -/

inductive MrPart where
  | dx0 | dxf | duf | dp
  deriving Repr, DecidableEq

inductive MrFn where
  | M
  | r (k : Nat)
  deriving Repr, DecidableEq

section BoundaryPlaces

variable {K : Type} (c : CProblem K)

def MrPart.off : MrPart → Nat
  | .dx0 => 0
  | .dxf => c.xSize
  | .duf => 2 * c.xSize
  | .dp => 2 * c.xSize + c.uSize

def MrPart.size : MrPart → Nat
  | .dx0 => c.xSize
  | .dxf => c.xSize
  | .duf => c.uSize
  | .dp => c.pSize

/-- The number of variables of a boundary function. -/
def mrVars : Nat := 2 * c.xSize + c.uSize + c.pSize

def MrPart.ofIndex (k : Nat) : MrPart :=
  if k < c.xSize then .dx0
  else if k < 2 * c.xSize then .dxf
  else if k < 2 * c.xSize + c.uSize then .duf
  else .dp

theorem MrPart.ofIndex_bounds {k : Nat} (hk : k < mrVars c) :
    (MrPart.ofIndex c k).off c ≤ k ∧
      k < (MrPart.ofIndex c k).off c + (MrPart.ofIndex c k).size c := by
  unfold mrVars at hk
  unfold MrPart.ofIndex
  split
  · simp only [MrPart.off, MrPart.size]
    omega
  · split
    · simp only [MrPart.off, MrPart.size]
      omega
    · split
      · simp only [MrPart.off, MrPart.size]
        omega
      · simp only [MrPart.off, MrPart.size]
        omega

def mSize : Nat := if c.hasMayer then 1 else 0

def mrSize : Nat := mSize c + c.rSize

def MrFn.row : MrFn → Nat
  | .M => 0
  | .r k => mSize c + k

def MrFn.ofRow (row : Nat) : MrFn :=
  if c.hasMayer && row == 0 then .M else .r (row - mSize c)

def mrFns : List MrFn := (if c.hasMayer then [.M] else []) ++ (List.range c.rSize).map .r

theorem mem_mrFns {fn : MrFn} : fn ∈ mrFns c ↔
    match fn with
    | .M => c.hasMayer = true
    | .r k => k < c.rSize := by
  cases fn <;> simp [mrFns]

theorem MrFn.ofRow_row (row : Nat) : (MrFn.ofRow c row).row c = row := by
  unfold MrFn.ofRow mSize MrFn.row mSize
  cases c.hasMayer with
  | false => simp
  | true =>
    by_cases h0 : row = 0
    · simp [h0]
    · simp [h0]
      omega

theorem MrFn.ofRow_mem {row : Nat} (h : row < mrSize c) : MrFn.ofRow c row ∈ mrFns c := by
  unfold mrSize mSize at h
  rw [mem_mrFns]
  unfold MrFn.ofRow mSize
  cases hM : c.hasMayer with
  | false =>
    rw [hM] at h
    simpa using h
  | true =>
    rw [hM] at h
    by_cases h0 : row = 0
    · simp [h0]
    · simp at h
      simp [h0]
      omega

theorem mrFns_nodup : (mrFns c).Nodup := by
  have hr : ((List.range c.rSize).map MrFn.r).Nodup :=
    List.nodup_range.map fun _ _ h => MrFn.r.inj h
  unfold mrFns
  rw [List.nodup_append]
  refine ⟨?_, hr, ?_⟩
  · split <;> simp
  · intro a ha b hb
    obtain ⟨_, -, rfl⟩ := List.mem_map.mp hb
    split at ha
    · obtain rfl := List.mem_singleton.mp ha
      exact MrFn.noConfusion
    · cases ha

def mrJacPlaces : List (MrFn × MrPart) := (mrFns c).product [.dx0, .dxf, .duf, .dp]

def mrHesPlaces : List (MrPart × MrPart) :=
  [(.dx0, .dx0), (.dxf, .dx0), (.dxf, .dxf), (.duf, .dx0), (.duf, .dxf), (.duf, .duf),
    (.dp, .dx0), (.dp, .dxf), (.dp, .duf), (.dp, .dp)]

def mrJacKey (t : Triplet) : MrFn × MrPart := (MrFn.ofRow c t.row, MrPart.ofIndex c t.col)

def mrJacVal (t : Triplet) : JacobianSparsity :=
  ⟨t.col - (MrPart.ofIndex c t.col).off c, t.bufIndex⟩

def mrHesKey (t : Triplet) : MrPart × MrPart := (MrPart.ofIndex c t.row, MrPart.ofIndex c t.col)

def mrHesVal (t : Triplet) : HessianSparsity :=
  ⟨t.row - (MrPart.ofIndex c t.row).off c, t.col - (MrPart.ofIndex c t.col).off c, t.bufIndex⟩

def mrJacBack (q : MrFn × MrPart) (e : JacobianSparsity) : Triplet :=
  ⟨q.1.row c, q.2.off c + e.col, e.bufIndex⟩

def mrHesBack (q : MrPart × MrPart) (e : HessianSparsity) : Triplet :=
  ⟨q.1.off c + e.row, q.2.off c + e.col, e.bufIndex⟩

end BoundaryPlaces

/-! ## Lists of the boundary sweep -/

def mrPart (jac : JacobianMR) : MrPart → List JacobianSparsity
  | .dx0 => jac.dx0
  | .dxf => jac.dxf
  | .duf => jac.duf
  | .dp => jac.dp

def mrFn (layout : BoundarySweepLayout) : MrFn → FunctionMR
  | .M => layout.M.getD {}
  | .r k => layout.rAt k

def mrJacList (layout : BoundarySweepLayout) (q : MrFn × MrPart) : List JacobianSparsity :=
  mrPart (mrFn layout q.1).jac q.2

def mrHesList (hes : HessianMR) : MrPart × MrPart → List HessianSparsity
  | (.dx0, .dx0) => hes.dx0Dx0
  | (.dxf, .dx0) => hes.dxfDx0
  | (.dxf, .dxf) => hes.dxfDxf
  | (.duf, .dx0) => hes.dufDx0
  | (.duf, .dxf) => hes.dufDxf
  | (.duf, .duf) => hes.dufDuf
  | (.dp, .dx0) => hes.dpDx0
  | (.dp, .dxf) => hes.dpDxf
  | (.dp, .duf) => hes.dpDuf
  | (.dp, .dp) => hes.dpDp
  | _ => []

section BoundaryLists

variable {K : Type} {c : CProblem K} {layout : BoundarySweepLayout}

structure BoundarySized (c : CProblem K) (layout : BoundarySweepLayout) : Prop where
  M : layout.M.isSome = c.hasMayer
  r : layout.r.length = c.rSize

def editMr (layout : BoundarySweepLayout) (edit : FunctionMR → FunctionMR) :
    MrFn → BoundarySweepLayout
  | .M => { layout with M := layout.M.map edit }
  | .r k => { layout with r := layout.r.modify k edit }

theorem editMr_sized (hl : BoundarySized c layout) (edit : FunctionMR → FunctionMR) (q : MrFn) :
    BoundarySized c (editMr layout edit q) := by
  obtain ⟨h1, h2⟩ := hl
  cases q with
  | M => exact ⟨by simpa [editMr] using h1, h2⟩
  | r k => exact ⟨h1, by simpa [editMr] using h2⟩

theorem editMr_fn (hl : BoundarySized c layout) (edit : FunctionMR → FunctionMR) {q : MrFn}
    (hq : q ∈ mrFns c) (q' : MrFn) : mrFn (editMr layout edit q) q' =
      if q = q' then edit (mrFn layout q') else mrFn layout q' := by
  rw [mem_mrFns] at hq
  cases q with
  | M =>
    cases q' with
    | M =>
      obtain ⟨M, hM⟩ := Option.isSome_iff_exists.mp (hl.M.trans hq)
      simp [mrFn, editMr, hM]
    | r k => rfl
  | r i =>
    cases q' with
    | M => rfl
    | r k =>
      simpa [mrFn, editMr, BoundarySweepLayout.rAt] using
        getD_modify layout.r {} edit (hl.r ▸ hq) k

theorem accessMrFromRow_eq (hl : BoundarySized c layout) (row : Nat)
    (edit : FunctionMR → FunctionMR) :
    accessMrFromRow layout row edit = editMr layout edit (MrFn.ofRow c row) := by
  have hs : (if c.hasMayer = true then 1 else 0) = mSize c := rfl
  unfold accessMrFromRow MrFn.ofRow
  simp only [hl.M, hs]
  by_cases h0 : (c.hasMayer && row == 0) = true
  · rw [if_pos h0, if_pos h0]
    rfl
  · rw [if_neg h0, if_neg h0]
    rfl

/-- The first pass leaves the Jacobian and Hessian lists alone. -/
theorem layoutMrInitEval_keeps (hl : BoundarySized c layout) :
    BoundarySized c (layoutMrInitEval layout c) ∧
      mrJacList (layoutMrInitEval layout c) = mrJacList layout ∧
      (layoutMrInitEval layout c).hes = layout.hes := by
  unfold layoutMrInitEval
  refine forRange_inv (P := fun _ t => BoundarySized c t ∧ mrJacList t = mrJacList layout ∧
    t.hes = layout.hes) ⟨?_, ?_, rfl⟩ ?_
  · exact editMr_sized hl _ .M
  · funext ⟨q, p⟩
    cases q with
    | M =>
      unfold mrJacList mrFn
      cases layout.M <;> rfl
    | r k => rfl
  · rintro i hi t ⟨h1, h2, h3⟩
    refine ⟨editMr_sized h1 _ (.r i), ?_, h3⟩
    rw [← h2]
    funext ⟨q, p⟩
    have h := editMr_fn h1 (fun fn => { fn with
      bufIndex := c.mrEval ((if (layout.M.map fun M : FunctionMR =>
        { M with bufIndex := c.mrEval 0 }).isSome then 1 else 0) + i) })
      (show MrFn.r i ∈ mrFns c from (mem_mrFns c).mpr hi) q
    refine (congrArg (fun fn : FunctionMR => mrPart fn.jac p) h).trans ?_
    split <;> rfl

theorem pushJacMr_part (t : Triplet) (jac : JacobianMR) (p : MrPart) :
    mrPart (pushJacMr c t jac) p =
      if MrPart.ofIndex c t.col = p then mrPart jac p ++ [mrJacVal c t] else mrPart jac p := by
  unfold pushJacMr mrJacVal MrPart.ofIndex
  by_cases h1 : t.col < c.xSize
  · cases p <;> simp [h1, mrPart, MrPart.off]
  · by_cases h2 : t.col < 2 * c.xSize
    · cases p <;> simp [h1, h2, mrPart, MrPart.off]
    · by_cases h3 : t.col < 2 * c.xSize + c.uSize
      · cases p <;> simp [h1, h2, h3, mrPart, MrPart.off]
      · cases p <;> simp [h1, h2, h3, mrPart, MrPart.off]

theorem layoutMrInitJac_lists (hl : BoundarySized c layout)
    (hj : ∀ t ∈ c.mrJac.triplets, t.row < mrSize c) :
    BoundarySized c (layoutMrInitJac layout c) ∧
      mrJacList (layoutMrInitJac layout c) =
        c.mrJac.triplets.foldl (push (mrJacKey c) (mrJacVal c)) (mrJacList layout) := by
  refine forRange_push mrJacList c.mrJac.triplet hl fun nz hnz t ht =>
    ⟨(accessMrFromRow_eq ht _ _).symm ▸ editMr_sized ht _ _, ?_⟩
  have hrow := hj _ (List.mem_map.mpr ⟨nz, List.mem_range.mpr hnz, rfl⟩)
  funext q
  rw [push_apply_pair (rfl : mrJacKey c _ = (_, _)), mrJacList]
  dsimp only
  rw [accessMrFromRow_eq ht, editMr_fn ht _ (MrFn.ofRow_mem c hrow)]
  by_cases h1 : MrFn.ofRow c (c.mrJac.triplet nz).row = q.1
  · rw [if_pos h1, if_pos h1]
    exact pushJacMr_part _ _ _
  · rw [if_neg h1, if_neg h1]
    rfl

theorem layoutMrInitJac_hes (hl : BoundarySized c layout) :
    (layoutMrInitJac layout c).hes = layout.hes := by
  refine (forRange_inv (P := fun _ t => BoundarySized c t ∧ t.hes = layout.hes) ⟨hl, rfl⟩ ?_).2
  rintro nz hnz t ⟨h1, h2⟩
  dsimp only
  rw [accessMrFromRow_eq h1]
  refine ⟨editMr_sized h1 _ _, ?_⟩
  rw [← h2]
  cases MrFn.ofRow c (c.mrJac.triplet nz).row <;> rfl

theorem pushHesMr_list {t : Triplet} (ht : t.col ≤ t.row) (hes : HessianMR) :
    mrHesList (pushHesMr c t hes) = push (mrHesKey c) (mrHesVal c) (mrHesList hes) t := by
  funext ⟨a, b⟩
  rw [push_apply]
  unfold pushHesMr mrHesKey mrHesVal MrPart.ofIndex
  by_cases c1 : t.col < c.xSize
  · by_cases r1 : t.row < c.xSize
    · cases a <;> cases b <;> simp [c1, r1, mrHesList, MrPart.off]
    · by_cases r2 : t.row < 2 * c.xSize
      · cases a <;> cases b <;> simp [c1, r1, r2, mrHesList, MrPart.off]
      · by_cases r3 : t.row < 2 * c.xSize + c.uSize
        · cases a <;> cases b <;> simp [c1, r1, r2, r3, mrHesList, MrPart.off]
        · cases a <;> cases b <;> simp [c1, r1, r2, r3, mrHesList, MrPart.off]
  · have r1 : ¬ t.row < c.xSize := by omega
    by_cases c2 : t.col < 2 * c.xSize
    · by_cases r2 : t.row < 2 * c.xSize
      · cases a <;> cases b <;> simp [c1, r1, c2, r2, mrHesList, MrPart.off]
      · by_cases r3 : t.row < 2 * c.xSize + c.uSize
        · cases a <;> cases b <;> simp [c1, r1, c2, r2, r3, mrHesList, MrPart.off]
        · cases a <;> cases b <;> simp [c1, r1, c2, r2, r3, mrHesList, MrPart.off]
    · have r2 : ¬ t.row < 2 * c.xSize := by omega
      by_cases c3 : t.col < 2 * c.xSize + c.uSize
      · by_cases r3 : t.row < 2 * c.xSize + c.uSize
        · cases a <;> cases b <;> simp [c1, r1, c2, r2, c3, r3, mrHesList, MrPart.off]
        · cases a <;> cases b <;> simp [c1, r1, c2, r2, c3, r3, mrHesList, MrPart.off]
      · have r3 : ¬ t.row < 2 * c.xSize + c.uSize := by omega
        cases a <;> cases b <;> simp [c1, r1, c2, r2, c3, r3, mrHesList, MrPart.off]

theorem layoutMrInitHes_lists (hh : ∀ t ∈ c.lfgLtHes.triplets, t.col ≤ t.row) :
    mrHesList (layoutMrInitHes layout c).hes =
      c.lfgLtHes.triplets.foldl (push (mrHesKey c) (mrHesVal c)) (mrHesList layout.hes) :=
  (forRange_push (I := fun _ => True)
    (fun layout : BoundarySweepLayout => mrHesList layout.hes) c.lfgLtHes.triplet trivial
    fun nz hnz _ _ => ⟨trivial, pushHesMr_list
      (hh _ (List.mem_map.mpr ⟨nz, List.mem_range.mpr hnz, rfl⟩)) _⟩).2

variable (c layout) in
theorem layoutMrInitHes_keeps :
    (layoutMrInitHes layout c).M = layout.M ∧ (layoutMrInitHes layout c).r = layout.r :=
  ⟨forRange_frame BoundarySweepLayout.M layout fun _ _ _ => rfl,
    forRange_frame BoundarySweepLayout.r layout fun _ _ _ => rfl⟩

theorem newBoundarySweepLayout_sized :
    BoundarySized c (newBoundarySweepLayout c.hasMayer c.rSize) := by
  refine ⟨?_, List.length_replicate⟩
  unfold newBoundarySweepLayout
  cases c.hasMayer <;> rfl

theorem layoutMrInitJac_sized (hl : BoundarySized c layout) :
    BoundarySized c (layoutMrInitJac layout c) := by
  refine forRange_inv (P := fun _ t => BoundarySized c t) hl fun nz _ t ht => ?_
  dsimp only
  rw [accessMrFromRow_eq ht]
  exact editMr_sized ht _ _

theorem createBoundarysweepLayout_sized : BoundarySized c (createBoundarysweepLayout c) := by
  have h := layoutMrInitJac_sized (layoutMrInitEval_keeps (newBoundarySweepLayout_sized (c := c))).1
  obtain ⟨k1, k2⟩ := layoutMrInitHes_keeps c (layoutMrInitJac
    (layoutMrInitEval (newBoundarySweepLayout c.hasMayer c.rSize) c) c)
  exact ⟨k1 ▸ h.M, k2 ▸ h.r⟩

theorem createBoundarysweepLayout_jac (hj : ∀ t ∈ c.mrJac.triplets, t.row < mrSize c) :
    mrJacList (createBoundarysweepLayout c) =
      c.mrJac.triplets.foldl (push (mrJacKey c) (mrJacVal c)) fun _ => [] := by
  obtain ⟨h1, h2, -⟩ := layoutMrInitEval_keeps (newBoundarySweepLayout_sized (c := c))
  obtain ⟨-, h4⟩ := layoutMrInitJac_lists h1 hj
  obtain ⟨k1, k2⟩ := layoutMrInitHes_keeps c (layoutMrInitJac
    (layoutMrInitEval (newBoundarySweepLayout c.hasMayer c.rSize) c) c)
  have h0 : mrJacList (newBoundarySweepLayout c.hasMayer c.rSize) = fun _ => [] := by
    funext ⟨q, p⟩
    cases q with
    | M =>
      unfold newBoundarySweepLayout mrJacList mrFn
      cases c.hasMayer <;> cases p <;> rfl
    | r k =>
      have e : (newBoundarySweepLayout c.hasMayer c.rSize).rAt k = {} :=
        List.getElem?_getD_replicate_default_eq ..
      unfold mrJacList mrFn
      dsimp only
      rw [e]
      cases p <;> rfl
  rw [← h0, ← h2, ← h4]
  funext ⟨q, p⟩
  cases q with
  | M => exact congrArg (fun M : Option FunctionMR => mrPart (M.getD {}).jac p) k1
  | r k => exact congrArg (fun r : List FunctionMR => mrPart (r.getD k {}).jac p) k2

/-- The Hessian lists are made of the pattern of the full sweep. -/
theorem createBoundarysweepLayout_hes (hh : ∀ t ∈ c.lfgLtHes.triplets, t.col ≤ t.row) :
    mrHesList (createBoundarysweepLayout c).hes =
      c.lfgLtHes.triplets.foldl (push (mrHesKey c) (mrHesVal c)) fun _ => [] := by
  obtain ⟨h1, -, h3⟩ := layoutMrInitEval_keeps (newBoundarySweepLayout_sized (c := c))
  refine (layoutMrInitHes_lists hh).trans ?_
  rw [layoutMrInitJac_hes h1, h3]
  congr 1
  funext ⟨a, b⟩
  cases a <;> cases b <;> rfl

end BoundaryLists

/-! ## Classification -/

section Classification

variable {K : Type} (c : CProblem K)

def MrJacInRange : Prop := ∀ t ∈ c.mrJac.triplets, t.row < mrSize c ∧ t.col < mrVars c

def MrHesInRange : Prop := ∀ t ∈ c.mrLtHes.triplets, t.row < mrVars c ∧ t.col ≤ t.row

instance : Decidable (MrJacInRange c) := List.decidableBAll _ _
instance : Decidable (MrHesInRange c) := List.decidableBAll _ _

theorem mrJac_back {t : Triplet} (hc : t.col < mrVars c) :
    mrJacBack c (mrJacKey c t) (mrJacVal c t) = t := by
  have h := MrPart.ofIndex_bounds c hc
  unfold mrJacBack mrJacKey mrJacVal
  rw [MrFn.ofRow_row, Nat.add_sub_of_le h.1]

theorem mrHes_back {t : Triplet} (hr : t.row < mrVars c) (hc : t.col ≤ t.row) :
    mrHesBack c (mrHesKey c t) (mrHesVal c t) = t := by
  have h1 := MrPart.ofIndex_bounds c hr
  have h2 := MrPart.ofIndex_bounds c (Nat.lt_of_le_of_lt hc hr)
  unfold mrHesBack mrHesKey mrHesVal
  rw [Nat.add_sub_of_le h1.1, Nat.add_sub_of_le h2.1]

theorem mrHesKey_mem {t : Triplet} (hc : t.col ≤ t.row) : mrHesKey c t ∈ mrHesPlaces := by
  unfold mrHesKey MrPart.ofIndex
  by_cases r1 : t.row < c.xSize
  · rw [if_pos r1, if_pos (by omega)]
    decide
  · rw [if_neg r1]
    by_cases r2 : t.row < 2 * c.xSize
    · rw [if_pos r2, if_pos (show t.col < 2 * c.xSize by omega)]
      split <;> decide
    · rw [if_neg r2]
      by_cases r3 : t.row < 2 * c.xSize + c.uSize
      · rw [if_pos r3, if_pos (show t.col < 2 * c.xSize + c.uSize by omega)]
        split_ifs <;> decide
      · rw [if_neg r3]
        split_ifs <;> decide

/-- The Jacobian pattern of the boundary functions, told apart. -/
structure BoundaryClassified (layout : BoundarySweepLayout) : Prop where
  sized : BoundarySized c layout
  jac : Distributes (mrJacPlaces c) (mrJacList layout) (mrJacBack c) c.mrJac.triplets
  jacInside : ∀ q, ∀ e ∈ mrJacList layout q, q ∈ mrJacPlaces c ∧ e.col < q.2.size c

variable {c}

theorem createBoundarysweepLayout_classified (hm : MrJacInRange c) :
    BoundaryClassified c (createBoundarysweepLayout c) := by
  have hl := createBoundarysweepLayout_jac fun t ht => (hm t ht).1
  have hmem : ∀ t ∈ c.mrJac.triplets, mrJacKey c t ∈ mrJacPlaces c := fun t ht =>
    List.pair_mem_product.mpr
      ⟨MrFn.ofRow_mem c (hm t ht).1, by cases MrPart.ofIndex c t.col <;> decide⟩
  refine ⟨createBoundarysweepLayout_sized, ?_, ?_⟩
  · exact distributes ((mrFns_nodup c).product (by decide)) hmem
      (fun t ht => mrJac_back c (hm t ht).2) hl
  · refine forall_mem (Q := fun q e => q ∈ mrJacPlaces c ∧ e.col < q.2.size c) hl
      fun t ht => ⟨hmem t ht, ?_⟩
    have h := MrPart.ofIndex_bounds c (hm t ht).2
    dsimp only [mrJacKey, mrJacVal]
    omega

theorem layout_classifies (c : CProblem K) (hj : LfgJacInRange c) (hh : LfgHesInRange c)
    (hm : MrJacInRange c) : FullClassified c (createFullsweepLayout c) ∧
      BoundaryClassified c (createBoundarysweepLayout c) :=
  ⟨createFullsweepLayout_classified hj hh, createBoundarysweepLayout_classified hm⟩

end Classification

/-- The problem behind the interface. -/
def createGdopProblem {K : Type} (c : CProblem K) : GDOP.Problem K where
  pc := createConstants c
  full := createFullsweepLayout c
  boundary := createBoundarysweepLayout c
  f_length := createFullsweepLayout_sized.f.trans (createConstants_xSize c).symm
  g_length := createFullsweepLayout_sized.g.trans (createConstants_gSize c).symm
  r_length := createBoundarysweepLayout_sized.r.trans (createConstants_rSize c).symm

/-! ## The boundary Hessian -/

section BoundaryHessian

variable {K : Type} (c : CProblem K)

/-- The Hessian lists of the boundary layout are the pattern `mr_lt_hes`, told apart. -/
structure BoundaryHessian : Prop where
  perm : (mrHesPlaces.flatMap fun q =>
    (mrHesList (createBoundarysweepLayout c).hes q).map (mrHesBack c q)).Perm c.mrLtHes.triplets
  inside : ∀ q, ∀ e ∈ mrHesList (createBoundarysweepLayout c).hes q, q ∈ mrHesPlaces ∧
    e.row < q.1.size c ∧ e.col < q.2.size c ∧ (q.1 = q.2 → e.col ≤ e.row)
  nnz : (createBoundarysweepLayout c).hes.nnz = c.mrLtHes.nnz

variable {c}

theorem mrHes_distributes (hh : LfgHesInRange c) :
    Distributes mrHesPlaces (mrHesList (createBoundarysweepLayout c).hes) (mrHesBack c)
      c.lfgLtHes.triplets := by
  have hxu := c.xu_size
  refine distributes (by decide) (fun t ht => mrHesKey_mem c (hh t ht).2)
    (fun t ht => mrHes_back c ?_ (hh t ht).2)
    (createBoundarysweepLayout_hes fun t ht => (hh t ht).2)
  have := (hh t ht).1
  unfold mrVars
  omega

theorem mrHes_inside (hh : LfgHesInRange c) : ∀ q,
    ∀ e ∈ mrHesList (createBoundarysweepLayout c).hes q, q ∈ mrHesPlaces ∧
      e.row < q.1.size c ∧ e.col < q.2.size c ∧ (q.1 = q.2 → e.col ≤ e.row) := by
  have hxu := c.xu_size
  refine forall_mem (Q := fun q e => q ∈ mrHesPlaces ∧ e.row < q.1.size c ∧
    e.col < q.2.size c ∧ (q.1 = q.2 → e.col ≤ e.row))
    (createBoundarysweepLayout_hes fun t ht => (hh t ht).2) fun t ht => ?_
  obtain ⟨hr, hc⟩ := hh t ht
  have hr : t.row < mrVars c := by
    unfold mrVars
    omega
  have h1 := MrPart.ofIndex_bounds c hr
  have h2 := MrPart.ofIndex_bounds c (Nat.lt_of_le_of_lt hc hr)
  refine ⟨mrHesKey_mem c hc, ?_, ?_, fun h => ?_⟩
  · dsimp only [mrHesKey, mrHesVal]
    omega
  · dsimp only [mrHesKey, mrHesVal]
    omega
  · dsimp only [mrHesKey, mrHesVal] at h ⊢
    rw [h]
    omega

theorem hessianMR_nnz (hes : HessianMR) (back : MrPart × MrPart → HessianSparsity → Triplet) :
    (mrHesPlaces.flatMap fun q => (mrHesList hes q).map (back q)).length = hes.nnz := by
  simp only [mrHesPlaces, List.flatMap_cons, List.flatMap_nil, List.length_append, List.length_map,
    List.length_nil, mrHesList, HessianMR.nnz]
  omega

theorem CooT.length_triplets (coo : CooT) : coo.triplets.length = coo.nnz := by
  simp [CooT.triplets]

/-- The layout has the boundary Hessian exactly where the pattern of the full sweep, which is the
one that is read, is a permutation of it. -/
theorem boundary_hessian_iff (hh : LfgHesInRange c) :
    BoundaryHessian c ↔ c.lfgLtHes.triplets.Perm c.mrLtHes.triplets := by
  have hd := (mrHes_distributes hh).perm
  constructor
  · intro h
    exact hd.symm.trans h.perm
  · intro h
    refine ⟨hd.trans h, mrHes_inside hh, ?_⟩
    rw [← hessianMR_nnz _ (mrHesBack c), (hd.trans h).length_eq, CooT.length_triplets]

end BoundaryHessian

/-! One state and a control. The path functions have no second derivatives, the Mayer term has
`d² / dx(1)²`. -/

section Mayer

def mayer : CProblem ℚ where
  xSize := 1
  uSize := 1
  xuSize := 2
  pSize := 0
  rSize := 0
  gSize := 0
  hasMayer := true
  hasLagrange := true
  xBounds := fun _ => ⟨0, 1⟩
  uBounds := fun _ => ⟨0, 1⟩
  pBounds := fun _ => ⟨0, 1⟩
  rBounds := fun _ => ⟨0, 1⟩
  gBounds := fun _ => ⟨0, 1⟩
  x0Fixed := fun _ => ⟨0, false⟩
  xfFixed := fun _ => ⟨0, false⟩
  lfgEval := id
  lfgJac := .ofTriplets [⟨0, 1, 0⟩, ⟨1, 0, 1⟩]
  lfgLtHes := .ofTriplets []
  mrEval := id
  mrJac := .ofTriplets [⟨0, 1, 0⟩]
  mrLtHes := .ofTriplets [⟨1, 1, 0⟩]
  xu_size := rfl

theorem boundary_hessian_lost :
    ¬ ∀ c : CProblem ℚ, LfgHesInRange c → MrHesInRange c → BoundaryHessian c := by
  intro h
  have hn := (h mayer (by decide) (by decide)).nnz
  exact absurd hn (by decide)

theorem boundary_hessian_iff_mayer :
    BoundaryHessian mayer ↔ ([] : List Triplet).Perm [⟨1, 1, 0⟩] :=
  boundary_hessian_iff (c := mayer) (by decide)

/-- With a parameter, a path and a boundary constraint, and second derivatives of all kinds. -/
def coupled : CProblem ℚ :=
  { mayer with
    pSize := 1
    rSize := 1
    gSize := 1
    lfgJac := .ofTriplets [⟨0, 0, 0⟩, ⟨0, 2, 1⟩, ⟨1, 1, 2⟩, ⟨1, 2, 3⟩, ⟨2, 0, 4⟩]
    lfgLtHes := .ofTriplets [⟨0, 0, 0⟩, ⟨1, 0, 1⟩, ⟨1, 1, 2⟩, ⟨2, 0, 3⟩, ⟨2, 1, 4⟩, ⟨2, 2, 5⟩]
    mrJac := .ofTriplets [⟨0, 1, 0⟩, ⟨1, 0, 1⟩, ⟨1, 3, 2⟩]
    mrLtHes := .ofTriplets [⟨1, 1, 0⟩, ⟨3, 0, 1⟩] }

theorem layout_classifies_coupled : FullClassified coupled (createFullsweepLayout coupled) ∧
    BoundaryClassified coupled (createBoundarysweepLayout coupled) :=
  layout_classifies coupled (by decide) (by decide) (by decide)

end Mayer

end C
end Moo
