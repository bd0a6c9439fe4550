import Mathlib.Algebra.BigOperators.Group.List.Basic
import Mathlib.Algebra.Field.Defs
import Mathlib.Data.List.Nodup
import Mathlib.Data.Rat.Defs
import Mathlib.Algebra.Field.Rat
import Mathlib.Tactic.Linarith
import Moo.Lib.Loop

/-!
# Simulation.Jacobian

The Jacobian of an ODE on its way to RADAU.

* `getDenseJacobian`: row by row, into the array that RADAU passes, from a dense callback or from
  the nonzeros of a sparse one.
* `ldfy`, `dfy`: the array RADAU expects, column by column, full or banded.
* `HandOver`: nothing is written behind the array, and it holds the matrix as RADAU reads it.
* `handOver_iff`: with the bandwidths of `RadauIntegrator`, both zero, this is so for one state at
  most or for a matrix whose only entry is the first. `handOver_full_iff`: full storage would hold
  the transpose.
* `getDenseJacobian_perm`: the order of the nonzeros has no effect.
-/

namespace Moo
namespace Simulation

open Loop

inductive JacobianFormat where
  | dense
  | coo
  | csc
  deriving Repr, DecidableEq

structure Jacobian where
  jfmt : JacobianFormat
  iRow : Nat → Nat
  jCol : Nat → Nat
  nnz : Nat

/-- A nonzero of a sparse pattern: its number and its place. -/
structure JacEntry where
  nz : Nat
  row : Nat
  col : Nat
  deriving Repr, DecidableEq

section Store

variable {K : Type} [Field K] (xSize : Nat) (pat : Jacobian)

/-- `get_dense_jacobian`, where `value` is what the callback writes. A dense callback gets the array
itself and writes all its derivatives, in the order in which those of a sparse one are stored. -/
def getDenseJacobian (value : Nat → K) (out : Nat → K) : Nat → K :=
  match pat.jfmt with
  | .dense => forRange (xSize * xSize) (fun k out => Function.update out k (value k)) out
  | .coo => forRange pat.nnz
      (fun nz out => Function.update out (pat.iRow nz * xSize + pat.jCol nz) (value nz)) out
  | .csc => forRange xSize (fun col out => forFrom (pat.jCol col) (pat.jCol (col + 1))
      (fun nz out => Function.update out (pat.iRow nz * xSize + col) (value nz)) out) out

/-- The nonzeros in the order in which they are stored. -/
def Jacobian.entries : List JacEntry :=
  match pat.jfmt with
  | .dense => (List.range (xSize * xSize)).map fun k => ⟨k, k / xSize, k % xSize⟩
  | .coo => (List.range pat.nnz).map fun nz => ⟨nz, pat.iRow nz, pat.jCol nz⟩
  | .csc => (List.range xSize).flatMap fun col =>
      (List.range (pat.jCol (col + 1) - pat.jCol col)).map fun nz =>
        ⟨pat.jCol col + nz, pat.iRow (pat.jCol col + nz), col⟩

/-- `df_i / dy_j`. -/
def Jacobian.matrix (value : Nat → K) (i j : Nat) : K :=
  ((pat.entries xSize).map fun e => if (e.row, e.col) = (i, j) then value e.nz else 0).sum

/-- Places in range, none of them twice. -/
structure Jacobian.Ok : Prop where
  range : ∀ e ∈ pat.entries xSize, e.row < xSize ∧ e.col < xSize
  distinct : ((pat.entries xSize).map fun e => (e.row, e.col)).Nodup

end Store

/-! ## The array of RADAU -/

section Radau

variable (n mljac mujac : Nat)

/-- `LDJAC`, the column length of the array. -/
def ldfy : Nat := if mljac < n then mljac + mujac + 1 else n

/-- The place of `DFY` with `df_i / dy_j`, `none` outside of the band. Indices are from zero. -/
def dfy (i j : Nat) : Option Nat :=
  if mljac < n then
    if j ≤ i + mujac ∧ i ≤ j + mljac then some (i + mujac - j + j * ldfy n mljac mujac) else none
  else some (i + j * ldfy n mljac mujac)

variable {K : Type} [Field K] (pat : Jacobian)

structure HandOver (value : Nat → K) : Prop where
  inside : ∀ (out : Nat → K) k, ldfy n mljac mujac * n ≤ k →
    getDenseJacobian n pat value out k = out k
  stored : ∀ i j, i < n → j < n → match dfy n mljac mujac i j with
    | some k => getDenseJacobian n pat value (fun _ => 0) k = pat.matrix n value i j
    | none => pat.matrix n value i j = 0

end Radau

namespace RadauIntegrator

def mljac : Nat := 0
def mujac : Nat := 0

end RadauIntegrator

/-! ## What is stored -/

section Stored

variable {K : Type} [Field K] {n : Nat} {pat : Jacobian} {value : Nat → K}

/-- The nonzeros, one after another. -/
def store (n : Nat) (value : Nat → K) (out : Nat → K) (e : JacEntry) : Nat → K :=
  Function.update out (e.row * n + e.col) (value e.nz)

omit [Field K] in
theorem getDenseJacobian_eq (out : Nat → K) :
    getDenseJacobian n pat value out = (pat.entries n).foldl (store n value) out := by
  unfold getDenseJacobian Jacobian.entries
  cases pat.jfmt with
  | dense =>
    dsimp only
    rw [← forRange_step]
    refine forRange_congr fun k _ t => ?_
    rw [store, Nat.div_add_mod']
  | coo =>
    exact forRange_step pat.nnz (store n value) (fun nz => ⟨nz, pat.iRow nz, pat.jCol nz⟩) out
  | csc =>
    refine forRange_foldl (fun col _ t => ?_) out
    exact forFrom_step _ _ (store n value) (fun nz => ⟨nz, pat.iRow nz, col⟩) t

/-- Places in range are told apart by where they are stored. -/
theorem address_inj {i j i' j' : Nat} (hj : j < n) (hj' : j' < n)
    (h : i * n + j = i' * n + j') : i = i' ∧ j = j' := by
  have hpos : 0 < n := by omega
  have hdiv := congrArg (· / n) h
  have hmod := congrArg (· % n) h
  simpa [Nat.mul_comm _ n, Nat.mul_add_div hpos, Nat.mul_add_mod, Nat.div_eq_of_lt, hj, hj',
    Nat.mod_eq_of_lt] using And.intro hdiv hmod

omit [Field K] in
variable (value) in
/-- The array after the nonzeros `es`: at its place each one, and elsewhere what was there. -/
theorem foldl_store {es : List JacEntry} (hrange : ∀ e ∈ es, e.row < n ∧ e.col < n)
    (hd : (es.map fun e => (e.row, e.col)).Nodup) (out : Nat → K) :
    (∀ e ∈ es, es.foldl (store n value) out (e.row * n + e.col) = value e.nz) ∧
      ∀ k, (∀ e ∈ es, e.row * n + e.col ≠ k) → es.foldl (store n value) out k = out k := by
  induction es using List.reverseRecOn with
  | nil => exact ⟨nofun, fun _ _ => rfl⟩
  | append_singleton es e ih =>
    rw [List.map_append, List.nodup_append] at hd
    obtain ⟨hin, hout⟩ := ih (fun e' hm => hrange e' (List.mem_append_left _ hm)) hd.1
    have he := hrange e (List.mem_append_right _ List.mem_cons_self)
    rw [List.foldl_append, List.foldl_cons, List.foldl_nil, store]
    refine ⟨fun e' hm => ?_, fun k hk => ?_⟩
    · rcases List.mem_append.mp hm with hm | hm
      · have he' := hrange e' (List.mem_append_left _ hm)
        rw [Function.update_of_ne, hin e' hm]
        intro haddr
        obtain ⟨hr, hc⟩ := address_inj he'.2 he.2 haddr
        exact hd.2.2 _ (List.mem_map_of_mem hm) (e.row, e.col) (by simp) (by rw [hr, hc])
      · rw [List.mem_singleton.mp hm, Function.update_self]
    · rw [Function.update_of_ne (hk e (List.mem_append_right _ List.mem_cons_self)).symm]
      exact hout k fun e' hm => hk e' (List.mem_append_left _ hm)

/-- An entry of the matrix is that of the one nonzero at its place. -/
theorem matrix_entry (hP : pat.Ok n) {e : JacEntry} (he : e ∈ pat.entries n) :
    pat.matrix n value e.row e.col = value e.nz := by
  obtain ⟨l, r, hl⟩ := List.append_of_mem he
  have hd := hP.distinct
  rw [hl, List.map_append, List.map_cons, List.nodup_middle, List.nodup_cons, List.mem_append,
    not_or] at hd
  have hzero (es : List JacEntry) (h : (e.row, e.col) ∉ es.map fun e => (e.row, e.col)) :
      (es.map fun e' => if (e'.row, e'.col) = (e.row, e.col) then value e'.nz else 0).sum = 0 := by
    refine List.sum_eq_zero fun v hv => ?_
    obtain ⟨e', hm, rfl⟩ := List.mem_map.mp hv
    refine if_neg fun heq => h ?_
    rw [← heq]
    exact List.mem_map_of_mem hm
  rw [Jacobian.matrix, hl, List.map_append, List.map_cons, List.sum_append, List.sum_cons,
    hzero l hd.1.1, hzero r hd.1.2, if_pos rfl, zero_add, add_zero]

theorem matrix_none {i j : Nat} (h : ∀ e ∈ pat.entries n, (e.row, e.col) ≠ (i, j)) :
    pat.matrix n value i j = 0 := by
  refine List.sum_eq_zero fun v hv => ?_
  obtain ⟨e, hm, rfl⟩ := List.mem_map.mp hv
  exact if_neg (h e hm)

variable (value) in
/-- The matrix stands in the array row by row. -/
theorem getDenseJacobian_row (hP : pat.Ok n) {i j : Nat} (hj : j < n) :
    getDenseJacobian n pat value (fun _ => 0) (i * n + j) = pat.matrix n value i j := by
  obtain ⟨hin, hout⟩ := foldl_store value hP.range hP.distinct fun _ => 0
  rw [getDenseJacobian_eq]
  by_cases h : ∃ e ∈ pat.entries n, (e.row, e.col) = (i, j)
  · obtain ⟨e, he, hij⟩ := h
    obtain ⟨rfl, rfl⟩ := Prod.mk.inj hij
    rw [hin e he, matrix_entry hP he]
  · push Not at h
    rw [matrix_none h, hout _ fun e he haddr => h e he ?_]
    obtain ⟨hr, hc⟩ := address_inj (hP.range e he).2 hj haddr
    rw [hr, hc]

omit [Field K] in
/-- The order of the nonzeros has no effect, and so neither has the format. -/
theorem getDenseJacobian_perm {pat' : Jacobian} {value' : Nat → K} (hP : pat.Ok n)
    (hP' : pat'.Ok n) (h : ((pat.entries n).map fun e => (e.row, e.col, value e.nz)).Perm
      ((pat'.entries n).map fun e => (e.row, e.col, value' e.nz))) (out : Nat → K) :
    getDenseJacobian n pat value out = getDenseJacobian n pat' value' out := by
  obtain ⟨hin, hout⟩ := foldl_store value hP.range hP.distinct out
  obtain ⟨hin', hout'⟩ := foldl_store value' hP'.range hP'.distinct out
  rw [getDenseJacobian_eq, getDenseJacobian_eq]
  funext k
  by_cases hk : ∃ e ∈ pat.entries n, e.row * n + e.col = k
  · obtain ⟨e, he, rfl⟩ := hk
    obtain ⟨e', he', heq⟩ := List.mem_map.mp (h.subset (List.mem_map_of_mem he))
    obtain ⟨hr, hc, hv⟩ : e'.row = e.row ∧ e'.col = e.col ∧ value' e'.nz = value e.nz := by
      simpa using heq
    rw [hin e he, ← hr, ← hc, hin' e' he', hv]
  · push Not at hk
    rw [hout k hk, hout' k fun e' he' haddr => ?_]
    obtain ⟨e, he, heq⟩ := List.mem_map.mp (h.symm.subset (List.mem_map_of_mem he'))
    obtain ⟨hr, hc, -⟩ : e.row = e'.row ∧ e.col = e'.col ∧ value e.nz = value' e'.nz := by
      simpa using heq
    exact hk e he (by rw [hr, hc, haddr])

end Stored

/-! ## The hand-over -/

section HandOver

variable {K : Type} [Field K] {n : Nat} {pat : Jacobian}

/-- One state, or a sparse matrix with no entry but the first. -/
def FirstOnly (n : Nat) (pat : Jacobian) : Prop :=
  n ≤ 1 ∨ pat.jfmt ≠ .dense ∧ ∀ e ∈ pat.entries n, e.row = 0 ∧ e.col = 0

theorem ldfy_band (hn : 0 < n) : ldfy n RadauIntegrator.mljac RadauIntegrator.mujac = 1 :=
  if_pos hn

/-- Only the diagonal has a place. -/
theorem dfy_band (hn : 0 < n) (i j : Nat) :
    dfy n RadauIntegrator.mljac RadauIntegrator.mujac i j = if i = j then some j else none := by
  rw [dfy, if_pos (show RadauIntegrator.mljac < n from hn), ldfy_band hn]
  unfold RadauIntegrator.mljac RadauIntegrator.mujac
  by_cases h : i = j
  · subst h
    simp
  · rw [if_neg h, if_neg (by omega)]

theorem row_zero_of_inside (hP : pat.Ok n) (hn : 0 < n)
    (h : HandOver (K := K) n RadauIntegrator.mljac RadauIntegrator.mujac pat fun _ => 1) :
    ∀ e ∈ pat.entries n, e.row = 0 := by
  intro e he
  by_contra hrow
  have hpos : n ≤ e.row * n + e.col :=
    (Nat.le_mul_of_pos_left n (Nat.pos_of_ne_zero hrow)).trans (Nat.le_add_right _ _)
  have hin := h.inside (fun _ => 0) (e.row * n + e.col) (by rwa [ldfy_band hn, Nat.one_mul])
  rw [getDenseJacobian_row _ hP (hP.range e he).2, matrix_entry hP he] at hin
  exact one_ne_zero hin

theorem firstOnly_of_handOver (hP : pat.Ok n)
    (h : HandOver (K := K) n RadauIntegrator.mljac RadauIntegrator.mujac pat fun _ => 1) :
    FirstOnly n pat := by
  refine or_iff_not_imp_left.mpr fun hn => ?_
  have hrow := row_zero_of_inside hP (by omega) h
  refine ⟨fun hd => ?_, fun e he => ⟨hrow e he, ?_⟩⟩
  · -- the dense callback writes row 1
    have hmem : JacEntry.mk n (n / n) (n % n) ∈ pat.entries n := by
      unfold Jacobian.entries
      rw [hd]
      exact List.mem_map.mpr ⟨n, List.mem_range.mpr (by nlinarith), rfl⟩
    have h1 := hrow _ hmem
    rw [Nat.div_self (by omega)] at h1
    exact Nat.one_ne_zero h1
  · -- the band has no place for the rest of row 0
    by_contra hcol
    have hs := h.stored e.row e.col (hP.range e he).1 (hP.range e he).2
    have hoff : e.row ≠ e.col := by
      rw [hrow e he]
      exact Ne.symm hcol
    rw [dfy_band (by omega), if_neg hoff, matrix_entry hP he] at hs
    exact one_ne_zero hs

theorem handOver_of_firstOnly (hP : pat.Ok n) (h : FirstOnly n pat) (value : Nat → K) :
    HandOver n RadauIntegrator.mljac RadauIntegrator.mujac pat value := by
  rcases Nat.eq_zero_or_pos n with rfl | hn
  · have hnil : pat.entries 0 = [] :=
      List.eq_nil_iff_forall_not_mem.mpr fun e he => Nat.not_lt_zero _ (hP.range e he).1
    refine ⟨fun out k _ => ?_, nofun⟩
    rw [getDenseJacobian_eq, hnil]
    rfl
  have hfirst : ∀ e ∈ pat.entries n, e.row = 0 ∧ e.col = 0 := by
    rcases h with h | h
    · intro e he
      have := hP.range e he
      omega
    · exact h.2
  refine ⟨fun out k hk => ?_, fun i j hi hj => ?_⟩
  · rw [ldfy_band hn, Nat.one_mul] at hk
    rw [getDenseJacobian_eq]
    refine (foldl_store _ hP.range hP.distinct out).2 k fun e he => ?_
    obtain ⟨hr, hc⟩ := hfirst e he
    rw [hr, hc]
    omega
  · rw [dfy_band hn]
    by_cases hij : i = j
    · subst hij
      rw [if_pos rfl]
      dsimp only
      -- cell `i` of the first row; behind the first one both are zero
      have hcell := getDenseJacobian_row value hP (i := 0) hi
      rw [Nat.zero_mul, Nat.zero_add] at hcell
      rw [hcell]
      by_cases h0 : i = 0
      · rw [h0]
      · rw [matrix_none fun e he heq => ?_, matrix_none fun e he heq => ?_] <;>
          obtain ⟨hr, hc⟩ := Prod.mk.inj heq <;>
          exact h0 (hc.symm.trans (hfirst e he).2)
    · rw [if_neg hij]
      refine matrix_none fun e he heq => hij ?_
      obtain ⟨hr, hc⟩ := Prod.mk.inj heq
      rw [← hr, ← hc, (hfirst e he).1, (hfirst e he).2]

/-- RADAU gets the matrix, whatever its values, if and only if there is one state at most or no
entry but the first. -/
theorem handOver_iff (hP : pat.Ok n) :
    (∀ value : Nat → K, HandOver n RadauIntegrator.mljac RadauIntegrator.mujac pat value) ↔
      FirstOnly n pat :=
  ⟨fun h => firstOnly_of_handOver hP (h fun _ => 1), handOver_of_firstOnly hP⟩

/-- With `MLJAC = N` the array would be large enough, and hold the transpose. -/
theorem handOver_full_iff (hP : pat.Ok n) (mujac : Nat) (value : Nat → K) :
    HandOver n n mujac pat value ↔
      ∀ i j, i < n → j < n → pat.matrix n value i j = pat.matrix n value j i := by
  have hl : ldfy n n mujac = n := if_neg (Nat.lt_irrefl n)
  have hd (i j : Nat) : dfy n n mujac i j = some (j * n + i) := by
    rw [dfy, if_neg (Nat.lt_irrefl n), hl, Nat.add_comm]
  constructor
  · intro h i j hi hj
    have hs := h.stored i j hi hj
    rw [hd] at hs
    rw [← hs]
    exact getDenseJacobian_row _ hP hi
  · refine fun h => ⟨fun out k hk => ?_, fun i j hi hj => ?_⟩
    · rw [hl] at hk
      rw [getDenseJacobian_eq]
      refine (foldl_store _ hP.range hP.distinct out).2 k fun e he => ?_
      have hr := hP.range e he
      have hle := Loop.mul_succ_le (c := n) hr.1
      omega
    · rw [hd]
      exact (getDenseJacobian_row _ hP hi).trans (h j i hj hi)

end HandOver

/-! The equations of the test of the repository: two states, the second one driven by the first. -/

section Driven

def driven : Jacobian where
  jfmt := .csc
  iRow := fun nz => [0, 1, 1].getD nz 0
  jCol := fun col => [0, 2, 3].getD col 0
  nnz := 3

theorem driven_ok : driven.Ok 2 := ⟨by decide, by decide⟩

/-- The entries of the second row lie behind the two cells of the array. -/
theorem driven_handOver :
    ¬ ∀ value : Nat → ℚ, HandOver 2 RadauIntegrator.mljac RadauIntegrator.mujac driven value := by
  intro h
  have hrow := row_zero_of_inside driven_ok (by decide) (h fun _ => 1)
  exact absurd hrow (by decide)

theorem handOver_iff_driven :
    (∀ value : Nat → ℚ, HandOver 2 RadauIntegrator.mljac RadauIntegrator.mujac driven value) ↔
      FirstOnly 2 driven := handOver_iff driven_ok

end Driven

end Simulation
end Moo
