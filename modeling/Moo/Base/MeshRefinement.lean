import Moo.Base.PiecewisePolynomial

/-!
# Base.MeshRefinement

Refined meshes represent the same piecewise polynomials.

* `Mesh.Refines M N`: `N` has the grid points of `M`, and on every interval at least as many nodes
  as `M` has there.
* `piecewise_refine`: the samples on `N` of a piecewise polynomial of `M` give it back.
-/

namespace Moo

open Loop FixedVector Polynomial

variable {K : Type} [Field K] [LinearOrder K]

namespace Mesh

variable {T : FLGR K}

structure Refines (M N : Mesh T) : Prop where
  tf : N.tf = M.tf
  grid : ∀ i, i ≤ M.intervals → ∃ k, k ≤ N.intervals ∧ N.gridAt k = M.gridAt i
  nodes : ∀ i k, i < M.intervals → k < N.intervals → M.gridAt i ≤ N.gridAt k →
    N.gridAt (k + 1) ≤ M.gridAt (i + 1) → M.nodesAt i ≤ N.nodesAt k

/-- At `q`, no node is matched that is not hit. -/
def ClearAt (M : Mesh T) (q : K) : Prop :=
  ∀ m, M.Contains m q → T.Clear (M.nodesAt m) true
    (T.pointHat (M.nodesAt m) true (M.gridAt m) (M.gridAt (m + 1)) q)

theorem clearAt_iff (M : Mesh T) (q : K) : M.ClearAt q ↔
    ∀ m, m < M.intervals → M.gridAt m ≤ q → (q ≤ M.gridAt (m + 1) ∨ m + 1 = M.intervals) →
      T.Clear (M.nodesAt m) true
        (T.pointHat (M.nodesAt m) true (M.gridAt m) (M.gridAt (m + 1)) q) :=
  ⟨fun h m hm hl hr => h m ⟨hm, hl, hr⟩, fun h m hm => h m hm.lt hm.left hm.right⟩

instance (scheme : Nat) (containsZero : Bool) (hat : K) :
    Decidable (T.Clear scheme containsZero hat) :=
  inferInstanceAs (Decidable (∀ j, j < FLGR.nodeCountOf scheme containsZero →
    |hat - T.nodesOf scheme containsZero j| < FLGR.nodeTol →
      hat = T.nodesOf scheme containsZero j))

instance (M : Mesh T) (q : K) : Decidable (M.ClearAt q) := decidable_of_iff _ (M.clearAt_iff q).symm

variable {M N : Mesh T}

/-! ## Sample times -/

section Times

variable (hT : ∀ p ∈ M.nodes, T.Nodes0 p)

include hT

theorem nodeTime_eq {m : Nat} (hm : m < M.intervals) (j : Nat) :
    T.nodeTime (M.nodesAt m) true (M.gridAt m) (M.gridAt (m + 1)) j =
      M.gridAt m + T.getC0 (M.nodesAt m) j * (M.gridAt (m + 1) - M.gridAt m) := by
  have hp := hT _ (M.nodesAt_mem hm)
  simp [FLGR.nodeTime, FLGR.nodesOf, FLGR.nodeCountOf, hp.zero, hp.last]

/-- The times of the samples of an interval. -/
theorem getFlatT_window (h : M.gridAt 0 = 0) {m : Nat} (hm : m < M.intervals) {j : Nat}
    (hj : j < M.nodesAt m + 1) : raw M.getFlatT (M.nodesBefore m + j) =
      T.nodeTime (M.nodesAt m) true (M.gridAt m) (M.gridAt (m + 1)) j := by
  have hp := hT _ (M.nodesAt_mem hm)
  rw [nodeTime_eq hT hm]
  cases j with
  | zero =>
    rw [hp.zero, zero_mul, add_zero, add_zero]
    cases m with
    | zero => exact h.symm
    | succ m =>
      have hm' : m < M.intervals := by omega
      have hpos := M.nodesAt_pos hm'
      have hacc := M.accNodesAt_eq hm' (show M.nodesAt m - 1 < M.nodesAt m by omega)
      have hl := M.getFlatT_node hm' (show M.nodesAt m - 1 < M.nodesAt m by omega)
      rw [tAt_last (nodes_of_nodes0 hT _ (M.nodesAt_mem hm')).last hm'] at hl
      rw [M.nodesBefore_succ, ← hl, raw, hacc]
      congr 1
      omega
  | succ j =>
    have hj' : j < M.nodesAt m := by omega
    rw [hp.succ j hj', ← Nat.add_assoc, ← M.accNodesAt_eq hm hj', raw, M.getFlatT_node hm hj',
      tAt_eq hm hj', deltaTAt_eq hm]
    ring

end Times

/-! ## The polynomial of an interval -/

section Polynomials

variable [IsStrictOrderedRing K] (h : M.Ordered) (hT : ∀ p ∈ M.nodes, T.Nodes0 p)

include h hT

theorem window_contains {m : Nat} (hm : m < M.intervals) {j : Nat} (hj : j < M.nodesAt m + 1) :
    M.Contains m (raw M.getFlatT (M.nodesBefore m + j)) := by
  have hp := hT _ (M.nodesAt_mem hm)
  have hd := sub_pos.mpr (h.increasing m hm)
  have h0 : 0 ≤ T.getC0 (M.nodesAt m) j := by
    rcases Nat.eq_zero_or_pos j with rfl | h0
    · exact hp.zero.symm.le
    · rw [← hp.zero]
      exact (hp.increasing 0 j h0 (by omega)).le
  have h1 : T.getC0 (M.nodesAt m) j ≤ 1 := by
    rw [← hp.last]
    rcases Nat.lt_or_eq_of_le (Nat.le_of_lt_succ hj) with hlt | rfl
    · exact (hp.increasing j _ hlt le_rfl).le
    · exact le_rfl
  rw [getFlatT_window hT h.start hm hj, nodeTime_eq hT hm]
  refine ⟨hm, le_add_of_nonneg_right (mul_nonneg h0 hd.le), .inl ?_⟩
  calc M.gridAt m + T.getC0 (M.nodesAt m) j * (M.gridAt (m + 1) - M.gridAt m)
      ≤ M.gridAt m + 1 * (M.gridAt (m + 1) - M.gridAt m) := by gcongr
    _ = M.gridAt (m + 1) := by rw [one_mul, add_sub_cancel]

/-- A polynomial through the samples of an interval. -/
theorem exists_polynomial (values : List K) {m : Nat} (hm : m < M.intervals) :
    ∃ P : K[X], P.degree < (M.nodesAt m + 1 : Nat) ∧ ∀ j, j < M.nodesAt m + 1 →
      raw values (M.nodesBefore m + j) =
        P.eval (T.nodeTime (M.nodesAt m) true (M.gridAt m) (M.gridAt (m + 1)) j) := by
  have hp := hT _ (M.nodesAt_mem hm)
  have hinj : Set.InjOn (T.nodeTime (M.nodesAt m) true (M.gridAt m) (M.gridAt (m + 1)))
      (Finset.range (M.nodesAt m + 1)) := by
    intro i hi j hj e
    simp only [Finset.coe_range, Set.mem_Iio] at hi hj
    rw [nodeTime_eq hT hm, nodeTime_eq hT hm] at e
    have he := mul_right_cancel₀ (sub_pos.mpr (h.increasing m hm)).ne' (add_left_cancel e)
    rcases Nat.lt_trichotomy i j with hij | hij | hij
    · exact absurd he (hp.increasing i j hij (by omega)).ne
    · exact hij
    · exact absurd he (hp.increasing j i hij (by omega)).ne'
  refine ⟨Lagrange.interpolate (Finset.range (M.nodesAt m + 1))
    (T.nodeTime (M.nodesAt m) true (M.gridAt m) (M.gridAt (m + 1)))
    fun j => raw values (M.nodesBefore m + j), ?_, fun j hj => ?_⟩
  · have hd := Lagrange.degree_interpolate_lt (fun j => raw values (M.nodesBefore m + j)) hinj
    rwa [Finset.card_range] at hd
  · exact (Lagrange.eval_interpolate_at_node (fun j => raw values (M.nodesBefore m + j)) hinj
      (Finset.mem_range.mpr hj)).symm

variable (hW : ∀ p ∈ M.nodes, T.Tables p true)

include hW

omit hT in
/-- Away from the nodes and on them, the interpolation of samples of `P` is `P`. -/
theorem onInterval_eval {values : List K} {m : Nat} (hm : m < M.intervals) {P : K[X]}
    (hP : P.degree < (M.nodesAt m + 1 : Nat))
    (hv : ∀ j, j < M.nodesAt m + 1 → raw values (M.nodesBefore m + j) =
      P.eval (T.nodeTime (M.nodesAt m) true (M.gridAt m) (M.gridAt (m + 1)) j))
    {q : K} (hq : M.Contains m q) (hc : M.ClearAt q) : M.onInterval values m q = P.eval q :=
  FLGR.interpolate_clear (M.nodesAt_pos hm) (hW _ (M.nodesAt_mem hm)) (h.increasing m hm).ne hP hv
    (hc m hq)

end Polynomials

/-! ## Refinement -/

section Refinement

variable [IsStrictOrderedRing K] (hM : M.Ordered) (hN : N.Ordered) (hr : M.Refines N)

include hM hN hr

omit [IsStrictOrderedRing K] in
/-- Every new interval lies in an old one, the last one in the last one. -/
theorem Refines.exists_interval {k : Nat} (hk : k < N.intervals) :
    ∃ i, i < M.intervals ∧ M.gridAt i ≤ N.gridAt k ∧ N.gridAt (k + 1) ≤ M.gridAt (i + 1) ∧
      (k + 1 = N.intervals → i + 1 = M.intervals) := by
  have hlastN : N.gridAt N.intervals = N.tf := N.tf_eq
  have hlastM : M.gridAt M.intervals = M.tf := M.tf_eq
  have hpos : 0 < N.gridAt (k + 1) := by
    rw [← hN.start]
    exact gridAt_lt hN (Nat.succ_pos k) hk
  have htf : N.gridAt (k + 1) ≤ M.tf := by
    rw [← hr.tf, ← hlastN]
    exact gridAt_le hN hk le_rfl
  -- The old interval that ends at or behind the end of the new one, and begins before it.
  obtain ⟨i, hi, hlt, hle⟩ : ∃ i, i < M.intervals ∧ M.gridAt i < N.gridAt (k + 1) ∧
      N.gridAt (k + 1) ≤ M.gridAt (i + 1) := by
    obtain ⟨hi, hl, hle⟩ := intervalOf_contains hM hpos.le
    generalize M.intervalOf (N.gridAt (k + 1)) = i at hi hl hle
    have hle' : N.gridAt (k + 1) ≤ M.gridAt (i + 1) := by
      rcases hle with hle | he
      · exact hle
      · rwa [he, hlastM]
    rcases hl.lt_or_eq with hlt | heq
    · exact ⟨i, hi, hlt, hle'⟩
    · cases i with
      | zero => exact absurd (heq.symm.trans hM.start) hpos.ne'
      | succ i =>
        refine ⟨i, by omega, ?_, heq.symm.le⟩
        rw [← heq]
        exact hM.increasing i (by omega)
  obtain ⟨l, hl, hgl⟩ := hr.grid i hi.le
  refine ⟨i, hi, ?_, hle, fun hlast => ?_⟩
  · rw [← hgl]
    refine gridAt_le hN ?_ hk.le
    by_contra hkl
    have := gridAt_le hN (show k + 1 ≤ l by omega) hl
    rw [hgl] at this
    exact absurd hlt (not_lt.mpr this)
  · by_contra hne
    have hend := gridAt_lt hM (show i + 1 < M.intervals by omega) le_rfl
    rw [hlast, hlastN, hr.tf, ← hlastM] at hle
    exact absurd hend (not_lt.mpr hle)

variable (hTM : ∀ p ∈ M.nodes, T.Nodes0 p) (hTN : ∀ p ∈ N.nodes, T.Nodes0 p)
variable (hWM : ∀ p ∈ M.nodes, T.Tables p true) (hWN : ∀ p ∈ N.nodes, T.Tables p true)

include hTM hTN hWM hWN

/-- The samples on a refined mesh represent the same piecewise polynomial. -/
theorem piecewise_refine (values : List K) (hc : ∀ t ∈ N.getFlatT, M.ClearAt t) {q : K}
    (h0 : 0 ≤ q) (hqM : M.ClearAt q) (hqN : N.ClearAt q) :
    N.piecewise (N.getFlatT.map (M.piecewise values)) q = M.piecewise values q := by
  have hk := intervalOf_contains hN h0
  generalize N.intervalOf q = k at hk
  obtain ⟨i, hi, hl, hle, hlast⟩ := hr.exists_interval hM hN hk.lt
  have hin : ∀ t, N.Contains k t → M.Contains i t := fun t ht =>
    ⟨hi, hl.trans ht.left, ht.right.imp (fun h => h.trans hle) hlast⟩
  obtain ⟨P, hP, hv⟩ := exists_polynomial hM hTM values hi
  have hp := hr.nodes i k hi hk.lt hl hle
  have hPN : P.degree < (N.nodesAt k + 1 : Nat) := by
    refine hP.trans_le ?_
    exact_mod_cast Nat.succ_le_succ hp
  rw [piecewise_eq hM hTM values (hin q hk), onInterval_eval hM hWM hi hP hv (hin q hk) hqM,
    piecewise_eq hN hTN _ hk]
  refine onInterval_eval hN hWN hk.lt hPN (fun j hj => ?_) hk hqN
  have hlen : N.nodesBefore k + j < N.getFlatT.length := by
    have := N.nodesBefore_mono (show k + 1 ≤ N.intervals from hk.lt)
    rw [N.nodesBefore_succ, ← N.nodeCount_nodesBefore] at this
    rw [N.getFlatT_length]
    omega
  have hwin := window_contains hN hTN hk.lt hj
  have hmem : raw N.getFlatT (N.nodesBefore k + j) ∈ N.getFlatT := by
    rw [raw, List.getD_eq_getElem _ _ hlen]
    exact List.getElem_mem hlen
  rw [raw_map _ _ hlen, piecewise_eq hM hTM values (hin _ hwin),
    onInterval_eval hM hWM hi hP hv (hin _ hwin) (hc _ hmem), getFlatT_window hTN hN.start hk.lt hj]

end Refinement

end Mesh

end Moo
