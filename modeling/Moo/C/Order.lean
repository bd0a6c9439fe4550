import Moo.C.Windows
import Moo.GDOP.JacobianOrder
import Moo.GDOP.Layout

/-!
# C.Order

The order of the triplets of `lfg_jac`.

* `stateTriplets`: the triplets of one dynamics function in state columns, in their order.
* `KeepsWalks`: two orders of which the merged walks make the same, and lose nothing.
* `OrderFree`: the counts, the counters and the matrix of two orders agree.
* `order_free_iff`: so it is for the permutations that keep the walks, and no others.
-/

namespace Moo
namespace C

open Loop Coo GDOP Buckets Ascent

section Triplets

variable {K : Type} (c : CProblem K)

def CProblem.withJac (coo : CooT) : CProblem K := { c with lfgJac := coo }

/-- The triplets of dynamics `f` in state columns. -/
def stateTriplets (f : Nat) : List Triplet :=
  c.lfgJac.triplets.filter fun t => t.row = lSize c + f ∧ t.col < c.xSize

/-- The entry of `df / dx` that a state triplet becomes. -/
def stateEntry (t : Triplet) : JacobianSparsity := ⟨t.col, t.bufIndex⟩

theorem ascent_back {f : Nat} : ((ascent Triplet.col (stateTriplets c f)).map stateEntry).map
    (fun e => (⟨lSize c + f, e.col, e.bufIndex⟩ : Triplet)) =
      ascent Triplet.col (stateTriplets c f) := by
  rw [List.map_map]
  refine (List.map_congr_left fun t ht => ?_).trans (List.map_id _)
  have hrow := (of_decide_eq_true (List.mem_filter.mp (ascent_starts.subset ht)).2).1
  show (⟨lSize c + f, t.col, t.bufIndex⟩ : Triplet) = t
  rw [← hrow]

/-- In every dynamics both lists start with the same ascending columns, and what comes behind is of
the own state only. -/
structure KeepsWalks (c c' : CProblem K) : Prop where
  same : ∀ f, f < c.xSize →
    ascent Triplet.col (stateTriplets c' f) = ascent Triplet.col (stateTriplets c f)
  own : ∀ f, f < c.xSize → ∀ t ∈ descent Triplet.col (stateTriplets c f), t.col = f
  own' : ∀ f, f < c.xSize → ∀ t ∈ descent Triplet.col (stateTriplets c' f), t.col = f

variable {c}

theorem lfgJacKey_state {f : Nat} (hf : f < c.xSize) (t : Triplet) :
    lfgJacKey c t = (.f f, .dx) ↔ t.row = lSize c + f ∧ t.col < c.xSize := by
  constructor
  · intro h
    obtain ⟨hrow, hcol⟩ := Prod.mk.inj h
    refine ⟨?_, ?_⟩
    · rw [← LfgFn.ofRow_row c t.row, hrow]
      rfl
    · unfold Part.ofIndex at hcol
      split at hcol
      · assumption
      · split at hcol <;> cases hcol
  · rintro ⟨hrow, hcol⟩
    unfold lfgJacKey LfgFn.ofRow Part.ofIndex
    rw [hrow, if_pos hcol]
    unfold lSize
    cases c.hasLagrange with
    | true => simp [Nat.add_comm, hf]
    | false => simp [hf]

theorem dx_eq (hj : LfgJacInRange c) {f : Nat} (hf : f < c.xSize) :
    ((createGdopProblem c).full.fAt f).jac.dx = (stateTriplets c f).map stateEntry := by
  have h := congrFun (createFullsweepLayout_jac fun t ht => (hj t ht).1) (.f f, .dx)
  rw [foldl_push, List.nil_append] at h
  refine Eq.trans (b := lfgJacList (createFullsweepLayout c) (.f f, .dx)) rfl (h.trans ?_)
  have hfil : (c.lfgJac.triplets.filter fun t => lfgJacKey c t = (.f f, .dx)) =
      stateTriplets c f :=
    List.filter_congr fun t _ => decide_eq_decide.mpr (lfgJacKey_state hf t)
  rw [hfil]
  refine List.map_congr_left fun t ht => ?_
  have hcol := (of_decide_eq_true (List.mem_filter.mp ht).2).2
  unfold lfgJacVal Part.ofIndex stateEntry
  rw [if_pos hcol]
  rfl

theorem dx_range (hj : LfgJacInRange c) (f : Nat) (hf : f < (createGdopProblem c).pc.fSize) :
    ∀ e ∈ ((createGdopProblem c).full.fAt f).jac.dx, e.col < (createGdopProblem c).pc.xSize := by
  have hx : (createGdopProblem c).pc.xSize = c.xSize := createConstants_xSize c
  intro e he
  rw [dx_eq hj (hx ▸ hf)] at he
  obtain ⟨t, ht, rfl⟩ := List.mem_map.mp he
  rw [hx]
  exact (of_decide_eq_true (List.mem_filter.mp ht).2).2

/-- The columns that the walk of dynamics `f` finds. -/
theorem seen_dx (hj : LfgJacInRange c) {f : Nat} (hf : f < c.xSize) :
    ((createGdopProblem c).seen.full.fAt f).jac.dx =
      (ascent Triplet.col (stateTriplets c f)).map stateEntry := by
  rw [seen_fAt]
  exact (congrArg (ascent JacobianSparsity.col) (dx_eq hj hf)).trans (ascent_map ..)

theorem lost_iff (hj : LfgJacInRange c) {f : Nat} (hf : f < c.xSize) :
    lost (createGdopProblem c) f = 0 ↔
      ∀ t ∈ descent Triplet.col (stateTriplets c f), t.col = f := by
  have hu : ((createGdopProblem c).full.fAt f).unseen =
      (descent Triplet.col (stateTriplets c f)).map stateEntry :=
    (congrArg (descent JacobianSparsity.col) (dx_eq hj hf)).trans (descent_map ..)
  unfold lost
  rw [hu, List.countP_map, List.countP_eq_zero]
  constructor
  · intro h t ht
    by_contra hne
    exact h t ht (decide_eq_true hne)
  · intro h t ht hd
    exact of_decide_eq_true hd (h t ht)

end Triplets

/-! ## Permuted lists -/

section Permuted

variable {K : Type} {c : CProblem K} {coo : CooT} (hj : LfgJacInRange c)
variable (hp : coo.triplets.Perm c.lfgJac.triplets)

include hp

theorem withJac_inRange (hj : LfgJacInRange c) : LfgJacInRange (c.withJac coo) :=
  fun t ht => hj t (hp.mem_iff.mp ht)

include hj

/-- Every list of the layout is permuted. -/
theorem lfgJacList_perm (q : LfgFn × Part) :
    (lfgJacList (createFullsweepLayout (c.withJac coo)) q).Perm
      (lfgJacList (createFullsweepLayout c) q) := by
  have h := createFullsweepLayout_jac fun t ht => (hj t ht).1
  have h' := createFullsweepLayout_jac fun t ht => (withJac_inRange hp hj t ht).1
  rw [h, h', foldl_push, foldl_push]
  exact (hp.filter _).map _

theorem jac_perm (q : LfgFn) :
    (lfgFn (createFullsweepLayout (c.withJac coo)) q).jac.dx.Perm
        (lfgFn (createFullsweepLayout c) q).jac.dx ∧
      (lfgFn (createFullsweepLayout (c.withJac coo)) q).jac.du.Perm
        (lfgFn (createFullsweepLayout c) q).jac.du ∧
      (lfgFn (createFullsweepLayout (c.withJac coo)) q).jac.dp.Perm
        (lfgFn (createFullsweepLayout c) q).jac.dp :=
  ⟨lfgJacList_perm hj hp (q, .dx), lfgJacList_perm hj hp (q, .du), lfgJacList_perm hj hp (q, .dp)⟩

theorem jac_nnz (q : LfgFn) : (lfgFn (createFullsweepLayout (c.withJac coo)) q).jac.nnz =
    (lfgFn (createFullsweepLayout c) q).jac.nnz := by
  obtain ⟨h1, h2, h3⟩ := jac_perm hj hp q
  unfold JacobianLFG.nnz
  rw [h1.length_eq, h2.length_eq, h3.length_eq]

theorem withJac_computeJacNnz : (createFullsweepLayout (c.withJac coo)).computeJacNnz =
    (createFullsweepLayout c).computeJacNnz := by
  rw [computeJacNnz_eq createFullsweepLayout_sized, computeJacNnz_eq createFullsweepLayout_sized]
  exact congrArg List.sum (List.map_congr_left fun q _ => jac_nnz hj hp q)

variable [Field K] {T : FLGR K} (M : Mesh T)

theorem withJac_lfgJac (B : Buffers K) : lfgJac (createGdopProblem (c.withJac coo)) M B =
    lfgJac (createGdopProblem c) M B := by
  funext b i j
  have h : (createGdopProblem (c.withJac coo)).full.computeJacNnz =
      (createGdopProblem c).full.computeJacNnz := withJac_computeJacNnz hj hp
  unfold lfgJac
  rw [h]

/-- The counts do not depend on the order. -/
theorem withJac_initJacobianNonzeros (offX : Nat) :
    initJacobianNonzeros (createGdopProblem (c.withJac coo)) M offX =
      initJacobianNonzeros (createGdopProblem c) M offX := by
  have hF : nnzF (createGdopProblem (c.withJac coo)) = nnzF (createGdopProblem c) := by
    unfold nnzF
    rw [forRange_sum, forRange_sum]
    exact Finset.sum_congr rfl fun f _ => jac_nnz hj hp (.f f)
  have hG : nnzG (createGdopProblem (c.withJac coo)) = nnzG (createGdopProblem c) := by
    unfold nnzG
    rw [forRange_sum, forRange_sum]
    exact Finset.sum_congr rfl fun g _ => jac_nnz hj hp (.g g)
  have hd : diagonalCollisions (createGdopProblem (c.withJac coo)) =
      diagonalCollisions (createGdopProblem c) := by
    unfold diagonalCollisions
    rw [forRange_sum, forRange_sum]
    exact Finset.sum_congr rfl fun f _ => (jac_perm hj hp (.f f)).1.countP_eq _
  have hR : nnzR (createGdopProblem (c.withJac coo)) = nnzR (createGdopProblem c) := rfl
  unfold initJacobianNonzeros offAccJacFg
  rw [hF, hG, hd, hR]

omit hj hp in
theorem lfgRow_perm {P P' : GDOP.Problem K} {off : Offsets} {B : Buffers K}
    (hs : lfgJac P' M B = lfgJac P M B) {jac jac' : JacobianLFG} (hx : jac'.dx.Perm jac.dx)
    (hu : jac'.du.Perm jac.du) (hq : jac'.dp.Perm jac.dp) (i j : Nat) (φ : Nat → K) :
    lfgRow P' M off B jac' i j φ = lfgRow P M off B jac i j φ := by
  unfold lfgRow
  rw [hs, (hx.map _).sum_eq, (hu.map _).sum_eq, (hq.map _).sum_eq]

end Permuted

/-! ## What two orders have in common -/

section Free

variable {K : Type} [Field K]

/-- The counts agree, the counters end every interval where the next one starts, and the matrices
agree for every content of the callback buffers. -/
structure OrderFree (T : FLGR K) (c c' : CProblem K) : Prop where
  nnz : ∀ M : Mesh T,
    (initJacobianNonzeros (createGdopProblem c') M (createGdopProblem c').pc.xSize).2 =
      (initJacobianNonzeros (createGdopProblem c) M (createGdopProblem c).pc.xSize).2
  ends : ∀ M : Mesh T, IntervalsEnd (createGdopProblem c) M
  ends' : ∀ M : Mesh T, IntervalsEnd (createGdopProblem c') M
  matrix : ∀ (M : Mesh T) (B : Buffers K) (rows cols rows' cols' : Nat → Nat) (r k : Nat),
    r < (getSizes (createGdopProblem c) M).numberConstraints →
    jacMatrix (createGdopProblem c') M B rows' cols' r k =
      jacMatrix (createGdopProblem c) M B rows cols r k

variable {T : FLGR K} {c : CProblem K} {coo : CooT} (hj : LfgJacInRange c)
variable (hp : coo.triplets.Perm c.lfgJac.triplets)

include hj hp

theorem orderFree_of_keepsWalks (h : KeepsWalks c (c.withJac coo)) :
    OrderFree T c (c.withJac coo) := by
  have hj' := withJac_inRange hp hj
  have hx : (createGdopProblem c).pc.fSize = c.xSize := createConstants_xSize c
  have hlost : ∀ f, f < (createGdopProblem c).pc.fSize → lost (createGdopProblem c) f = 0 :=
    fun f hf => (lost_iff hj (hx ▸ hf)).mpr (h.own f (hx ▸ hf))
  have hlost' : ∀ f, f < (createGdopProblem c).pc.fSize →
      lost (createGdopProblem (c.withJac coo)) f = 0 :=
    fun f hf => (lost_iff hj' (hx ▸ hf)).mpr (h.own' f (hx ▸ hf))
  refine ⟨fun M => ?_, fun M => ?_, fun M => ?_, fun M B rows cols rows' cols' r k hr => ?_⟩
  · exact congrArg Prod.snd (withJac_initJacobianNonzeros hj hp M _)
  · exact (intervalsEnd_iff (dx_range hj)).mpr hlost
  · exact (intervalsEnd_iff (dx_range hj')).mpr hlost'
  · have hs := withJac_lfgJac hj hp M B
    obtain ⟨row, hrow, rfl⟩ := Constraint.exists_index hr
    cases row with
    | f i j f =>
      obtain ⟨hi, hjn, hf⟩ := hrow
      obtain ⟨-, hu, hq⟩ := jac_perm hj hp (.f f)
      have hdx : ((createGdopProblem (c.withJac coo)).full.fAt f).seen.jac.dx =
          ((createGdopProblem c).full.fAt f).seen.jac.dx := by
        rw [← seen_fAt, ← seen_fAt, seen_dx hj (hx ▸ hf), seen_dx hj' (hx ▸ hf),
          h.same f (hx ▸ hf)]
      refine (jacMatrix_seen_f (dx_range hj') hlost' B rows' cols' hi hjn hf k).trans
        (Eq.trans ?_ (jacMatrix_seen_f (dx_range hj) hlost B rows cols hi hjn hf k).symm)
      exact congrArg (fun v => collRow T M _ i j f (unit k) - M.deltaTAt i * v)
        (lfgRow_perm M hs (.of_eq hdx) hu hq i j (unit k))
    | g i j g =>
      obtain ⟨hi, hjn, hg⟩ := hrow
      obtain ⟨hd, hu, hq⟩ := jac_perm hj hp (.g g)
      refine (jacMatrix_seen_g (dx_range hj') hlost' B rows' cols' hi hjn hg k).trans
        (Eq.trans ?_ (jacMatrix_seen_g (dx_range hj) hlost B rows cols hi hjn hg k).symm)
      exact lfgRow_perm M hs hd hu hq i j (unit k)
    | r q =>
      exact (jacMatrix_seen_r (dx_range hj') hlost' B rows' cols' hrow k).trans
        (jacMatrix_seen_r (dx_range hj) hlost B rows cols hrow k).symm

/-- One interval of length 1 with one node shows every state entry of a row. -/
theorem keepsWalks_of_orderFree (h : OrderFree T c (c.withJac coo)) :
    KeepsWalks c (c.withJac coo) := by
  have hj' := withJac_inRange hp hj
  have hx : (createGdopProblem c).pc.fSize = c.xSize := createConstants_xSize c
  let M : Mesh T := .createFromMeshUpdate T ⟨[0, 1], [1], by simp, rfl, by simp⟩
  have hlost := (intervalsEnd_iff (dx_range hj)).mp (h.ends M)
  have hlost' := (intervalsEnd_iff (dx_range hj')).mp (h.ends' M)
  refine ⟨fun f hf => ?_, fun f hf => (lost_iff hj hf).mp (hlost f (hx.symm ▸ hf)),
    fun f hf => (lost_iff hj' hf).mp (hlost' f (hx.symm ▸ hf))⟩
  have hf' : f < (createGdopProblem c).pc.fSize := hx.symm ▸ hf
  obtain ⟨-, hu, hq⟩ :
      _ ∧ ((createGdopProblem (c.withJac coo)).full.fAt f).seen.jac.du.Perm
          ((createGdopProblem c).full.fAt f).seen.jac.du ∧
        ((createGdopProblem (c.withJac coo)).full.fAt f).seen.jac.dp.Perm
          ((createGdopProblem c).full.fAt f).seen.jac.dp := jac_perm hj hp (.f f)
  have hM : M.deltaTAt 0 = 1 := sub_zero 1
  have h0 : 0 < M.intervals := M.intervals_pos
  have h1 : 0 < M.nodesAt 0 := M.nodesAt_pos h0
  have hrow : ∀ B k, lfgRow (createGdopProblem c) M (getSizes (createGdopProblem c) M) B
        ((createGdopProblem (c.withJac coo)).full.fAt f).seen.jac 0 0 (unit k) =
      lfgRow (createGdopProblem c) M (getSizes (createGdopProblem c) M) B
        ((createGdopProblem c).full.fAt f).seen.jac 0 0 (unit k) := by
    intro B k
    have hr := Constraint.index_lt (P := createGdopProblem c) (M := M) (c := .f 0 0 f)
      ⟨h0, h1, hf'⟩
    have e := h.matrix M B (fun _ => 0) (fun _ => 0) (fun _ => 0) (fun _ => 0) _ k hr
    have e' := ((jacMatrix_seen_f (dx_range hj') hlost' B _ _ h0 h1 hf' k).symm.trans e).trans
      (jacMatrix_seen_f (dx_range hj) hlost B _ _ h0 h1 hf' k)
    rw [hM, one_mul, one_mul] at e'
    refine Eq.trans ?_ (sub_right_injective e')
    exact (lfgRow_perm M (withJac_lfgJac hj hp M B) (.refl _) (.refl _) (.refl _) 0 0 _).symm
  have hmem := mem_dx_of_lfgRow (createGdopProblem c) M hu hq
    (nodup_of_ascending ascent_pairwise) (nodup_of_ascending ascent_pairwise) hrow
  have hdx := eq_of_ascending ascent_pairwise ascent_pairwise hmem
  have hdx : (ascent Triplet.col (stateTriplets (c.withJac coo) f)).map stateEntry =
      (ascent Triplet.col (stateTriplets c f)).map stateEntry := by
    rw [← seen_dx hj' hf, ← seen_dx hj hf, seen_fAt, seen_fAt]
    exact hdx
  have hback := congrArg (List.map fun e => (⟨lSize c + f, e.col, e.bufIndex⟩ : Triplet)) hdx
  rw [ascent_back] at hback
  exact (ascent_back (c := c.withJac coo)).symm.trans hback

/-- Exactly the permutations that keep the walks do not matter. -/
theorem order_free_iff : OrderFree T c (c.withJac coo) ↔ KeepsWalks c (c.withJac coo) :=
  ⟨keepsWalks_of_orderFree hj hp, orderFree_of_keepsWalks hj hp⟩

end Free

/-! An oscillator: `x0' = x1` and `x1'` of both states. -/

section Oscillator

def oscillator : CProblem ℚ where
  xSize := 2
  uSize := 0
  xuSize := 2
  pSize := 0
  rSize := 0
  gSize := 0
  hasMayer := false
  hasLagrange := false
  xBounds := fun _ => ⟨0, 1⟩
  uBounds := fun _ => ⟨0, 1⟩
  pBounds := fun _ => ⟨0, 1⟩
  rBounds := fun _ => ⟨0, 1⟩
  gBounds := fun _ => ⟨0, 1⟩
  x0Fixed := fun _ => ⟨0, false⟩
  xfFixed := fun _ => ⟨0, false⟩
  lfgEval := id
  lfgJac := .ofTriplets [⟨0, 1, 0⟩, ⟨1, 0, 1⟩, ⟨1, 1, 2⟩]
  lfgLtHes := .ofTriplets []
  mrEval := id
  mrJac := .ofTriplets []
  mrLtHes := .ofTriplets []
  xu_size := by decide

/-- The rows may change places. -/
theorem order_free_iff_rows : OrderFree eulerTables oscillator
    (oscillator.withJac (.ofTriplets [⟨1, 0, 1⟩, ⟨1, 1, 2⟩, ⟨0, 1, 0⟩])) :=
  (order_free_iff (c := oscillator) (by decide) (by decide)).mpr
    ⟨by decide, by decide, by decide⟩

/-- Backwards, the walk of the second row stops at its second triplet: the interval ends one slot
too early. -/
theorem order_matters : ¬ ∀ (c : CProblem ℚ) (coo : CooT), LfgJacInRange c →
    coo.triplets.Perm c.lfgJac.triplets → OrderFree eulerTables c (c.withJac coo) := by
  intro h
  have hends := (h oscillator (.ofTriplets [⟨1, 1, 2⟩, ⟨1, 0, 1⟩, ⟨0, 1, 0⟩]) (by decide)
    (by decide)).ends' oneStep.mesh
  have hpos := hends.pattern 0 Nat.one_pos ⟨0, fun _ => ⟨0, 0, 0⟩⟩
  exact absurd hpos (by decide +kernel)

end Oscillator

end C
end Moo
