import Mathlib.Tactic.FieldSimp
import Mathlib.Tactic.Ring
import Moo.NLP.Solver

/-!
# NLP.ScalingSpec

What a scaling does in the course of a solve, in terms of the nominals it was created from.

* `UserScaling`: what `get_scaling` creates; its functions are the scaling as mathematics.
* `Shape`: sizes and patterns of an NLP. `Built N nom sc`: the scaling vectors of `sc` are still
  empty or those that belong to the shape `N`. Every use keeps this (`Built.scaleGradF`,
  `Built.scaleJac`, `Built.scaleHes_built`) and scales by the nominals.
* `Created N f sc`: the same for a scaling of either kind.
-/

namespace Moo
namespace NLP

open FixedVector

structure Shape where
  numberVars : Nat
  numberConstraints : Nat
  nnzJac : Nat
  nnzHes : Nat
  jac : Pattern
  hes : Pattern

/-- The nominals a `NominalScaling` is created from. -/
structure Nominals (K : Type) where
  x : List K
  g : List K
  f : K

inductive UserScaling (K : Type) where
  | noScaling
  | nominal (nom : Nominals K)

variable {K : Type} [Field K]

def Nominals.scaling (nom : Nominals K) : Scaling K := .nominal (.new nom.x nom.g nom.f)

namespace UserScaling

def create : UserScaling K → Scaling K
  | .noScaling => .noScaling
  | .nominal nom => nom.scaling

def unscaleX (x : Nat → K) (n : Nat) : UserScaling K → List K
  | .noScaling => fill n x
  | .nominal nom => fill n fun i => raw nom.x i * x i

def scaleF (o : K) : UserScaling K → K
  | .noScaling => o
  | .nominal nom => o / nom.f

def scaleG (g : Nat → K) (n : Nat) : UserScaling K → List K
  | .noScaling => fill n g
  | .nominal nom => fill n fun r => g r / raw nom.g r

def scaleGradF (grad : Nat → K) (n : Nat) : UserScaling K → List K
  | .noScaling => fill n grad
  | .nominal nom => fill n fun i => raw nom.x i / nom.f * grad i

def scaleJac (jac : Nat → K) (row col : Nat → Nat) (nnz : Nat) : UserScaling K → List K
  | .noScaling => fill nnz jac
  | .nominal nom => fill nnz fun nz => raw nom.x (col nz) / raw nom.g (row nz) * jac nz

def scaleHes (hes : Nat → K) (row col : Nat → Nat) (nnz : Nat) : UserScaling K → List K
  | .noScaling => fill nnz hes
  | .nominal nom => fill nnz fun nz => raw nom.x (row nz) * raw nom.x (col nz) * hes nz

/-! Only the entries in range are read. -/

section Congr

variable (u : UserScaling K) {v w : Nat → K} {n : Nat} (h : ∀ i, i < n → v i = w i)

include h

theorem unscaleX_congr : u.unscaleX v n = u.unscaleX w n := by
  cases u <;> exact fill_congr fun i hi => by rw [h i hi]

theorem scaleG_congr : u.scaleG v n = u.scaleG w n := by
  cases u <;> exact fill_congr fun i hi => by rw [h i hi]

theorem scaleGradF_congr : u.scaleGradF v n = u.scaleGradF w n := by
  cases u <;> exact fill_congr fun i hi => by rw [h i hi]

theorem scaleJac_congr (row col : Nat → Nat) :
    u.scaleJac v row col n = u.scaleJac w row col n := by
  cases u <;> exact fill_congr fun i hi => by rw [h i hi]

theorem scaleHes_congr (row col : Nat → Nat) :
    u.scaleHes v row col n = u.scaleHes w row col n := by
  cases u <;> exact fill_congr fun i hi => by rw [h i hi]

end Congr

end UserScaling

/-- The reciprocals of the nominals, and vectors that are empty or built. -/
structure Built (N : Shape) (nom : Nominals K) (sc : NominalScaling K) : Prop where
  x : sc.xScaling = nom.x.map fun x => 1 / x
  g : sc.gScaling = nom.g.map fun g => 1 / g
  f : sc.fScaling = 1 / nom.f
  grad : sc.gradScaling = [] ∨ sc = sc.createGradScaling N.numberVars
  jac : sc.jacScaling = [] ∨ sc = sc.createJacScaling N.jac.row N.jac.col N.nnzJac

/-- The same of the vector of the Hessian. -/
def HesBuilt (N : Shape) (sc : NominalScaling K) : Prop :=
  sc.hesScaling = [] ∨ sc = sc.createHesScaling N.hes.row N.hes.col N.nnzHes

variable {N : Shape} {nom : Nominals K} {sc : NominalScaling K}

theorem Built.new (N : Shape) (nom : Nominals K) : Built N nom (.new nom.x nom.g nom.f) :=
  ⟨rfl, rfl, rfl, .inl rfl, .inl rfl⟩

theorem HesBuilt.new (N : Shape) (nom : Nominals K) : HesBuilt N (.new nom.x nom.g nom.f) :=
  .inl rfl

theorem raw_reciprocals (v : List K) (i : Nat) : raw (v.map fun x => 1 / x) i = 1 / raw v i := by
  by_cases hi : i < v.length
  · rw [raw_map _ _ hi]
  · rw [raw_of_le (by rw [List.length_map]; omega), raw_of_le (by omega), div_zero]

/-- An entry of a scaled bound vector. -/
theorem raw_diagmatVecInplace (D : Nat → K) (v : List K) {size i : Nat} (hi : i < size) :
    raw (diagmatVecInplace D false v size) i = raw v i * D i := by
  rw [diagmatVecInplace, edit, raw_fill]
  split
  · rw [if_neg Bool.false_ne_true]
  · rename_i hl
    rw [raw_of_le (Nat.le_of_not_lt hl), zero_mul]

/-! ## The three vectors -/

section Vectors

omit [Field K] in
/-- A vector that is built at its first use: afterwards it is the built one. -/
theorem created_of_isEmpty {v : NominalScaling K → List K}
    {f : NominalScaling K → NominalScaling K}
    (hc : ∀ s, f (f s) = f s) (h : v sc = [] ∨ sc = f sc) :
    (if (v sc).isEmpty then f sc else sc) =
      f (if (v sc).isEmpty then f sc else sc) := by
  by_cases he : (v sc).isEmpty
  · rw [if_pos he, hc]
  · rw [if_neg he]
    refine h.resolve_left fun e => he ?_
    rw [e, List.isEmpty_nil]

variable (h : Built N nom sc)

include h

theorem Built.createGradScaling : Built N nom (sc.createGradScaling N.numberVars) :=
  ⟨h.x, h.g, h.f, .inr rfl, h.jac.imp_right fun e => by rw [e]; rfl⟩

theorem Built.createJacScaling :
    Built N nom (sc.createJacScaling N.jac.row N.jac.col N.nnzJac) :=
  ⟨h.x, h.g, h.f, h.grad.imp_right fun e => by rw [e]; rfl, .inr rfl⟩

theorem Built.createHesScaling (row col : Nat → Nat) (nnz : Nat) :
    Built N nom (sc.createHesScaling row col nnz) :=
  ⟨h.x, h.g, h.f, h.grad.imp_right fun e => by rw [e]; rfl,
    h.jac.imp_right fun e => by rw [e]; rfl⟩

theorem Built.raw_x (i : Nat) : raw sc.xScaling i = 1 / raw nom.x i := by
  rw [h.x, raw_reciprocals]

theorem Built.raw_g (i : Nat) : raw sc.gScaling i = 1 / raw nom.g i := by
  rw [h.g, raw_reciprocals]

theorem Built.unscaleX (x : Nat → K) (n : Nat) :
    sc.unscaleX x n = fill n fun i => raw nom.x i * x i :=
  fill_congr fun i _ => by rw [if_pos rfl, h.raw_x, one_div, div_inv_eq_mul, mul_comm]

theorem Built.scaleG (g : Nat → K) (n : Nat) :
    sc.scaleG g n = fill n fun i => g i / raw nom.g i :=
  fill_congr fun i _ => by
    rw [if_neg (by decide), h.raw_g, one_div, inv_mul_eq_div]

theorem Built.scaleF (o : K) : sc.scaleF o = o / nom.f := by
  rw [NominalScaling.scaleF, h.f, one_div, inv_mul_eq_div]

theorem Built.scaleGradF (grad : Nat → K) : Built N nom (sc.scaleGradF grad N.numberVars).1 ∧
    (sc.scaleGradF grad N.numberVars).2 =
      fill N.numberVars fun i => raw nom.x i / nom.f * grad i := by
  have hc := created_of_isEmpty (v := NominalScaling.gradScaling)
    (f := fun s => s.createGradScaling N.numberVars) (fun _ => rfl) h.grad
  have hb : Built N nom (if sc.gradScaling.isEmpty then sc.createGradScaling N.numberVars
      else sc) := by
    split
    · exact h.createGradScaling
    · exact h
  unfold NominalScaling.scaleGradF
  generalize (if sc.gradScaling.isEmpty then sc.createGradScaling N.numberVars else sc) = s'
    at hc hb
  refine ⟨hb, fill_congr fun i hi => ?_⟩
  rw [if_neg (by decide), hc]
  simp only [NominalScaling.createGradScaling]
  rw [raw_fill_lt _ hi, hb.f, hb.raw_x]
  simp only [one_div, div_inv_eq_mul]
  ring

theorem Built.scaleJac (jac : Nat → K) :
    Built N nom (sc.scaleJac jac N.jac.row N.jac.col N.nnzJac).1 ∧
    (sc.scaleJac jac N.jac.row N.jac.col N.nnzJac).2 = fill N.nnzJac fun nz =>
      raw nom.x (N.jac.col nz) / raw nom.g (N.jac.row nz) * jac nz := by
  have hc := created_of_isEmpty (v := NominalScaling.jacScaling)
    (f := fun s => s.createJacScaling N.jac.row N.jac.col N.nnzJac) (fun _ => rfl) h.jac
  have hb : Built N nom (if sc.jacScaling.isEmpty then
      sc.createJacScaling N.jac.row N.jac.col N.nnzJac else sc) := by
    split
    · exact h.createJacScaling
    · exact h
  unfold NominalScaling.scaleJac
  generalize (if sc.jacScaling.isEmpty then
    sc.createJacScaling N.jac.row N.jac.col N.nnzJac else sc) = s' at hc hb
  refine ⟨hb, fill_congr fun nz hi => ?_⟩
  rw [if_neg (by decide), hc]
  simp only [NominalScaling.createJacScaling]
  rw [raw_fill_lt _ hi, hb.raw_g, hb.raw_x]
  simp only [one_div, div_inv_eq_mul]
  ring

/-- Whatever the coordinates, scaling the Hessian keeps the rest. -/
theorem Built.scaleHes (hes : Nat → K) (row col : Nat → Nat) (nnz : Nat) :
    Built N nom (sc.scaleHes hes row col nnz).1 := by
  unfold NominalScaling.scaleHes
  by_cases he : sc.hesScaling.isEmpty
  · simp only [if_pos he]
    exact h.createHesScaling row col nnz
  · simp only [if_neg he]
    exact h

theorem Built.scaleHes_built (hh : HesBuilt N sc) (hes : Nat → K) :
    HesBuilt N (sc.scaleHes hes N.hes.row N.hes.col N.nnzHes).1 ∧
    (sc.scaleHes hes N.hes.row N.hes.col N.nnzHes).2 = fill N.nnzHes fun nz =>
      raw nom.x (N.hes.row nz) * raw nom.x (N.hes.col nz) * hes nz := by
  have hc := created_of_isEmpty (v := NominalScaling.hesScaling)
    (f := fun s => s.createHesScaling N.hes.row N.hes.col N.nnzHes) (fun _ => rfl) hh
  have hb : Built N nom (if sc.hesScaling.isEmpty then
      sc.createHesScaling N.hes.row N.hes.col N.nnzHes else sc) := by
    split
    · exact h.createHesScaling _ _ _
    · exact h
  unfold NominalScaling.scaleHes
  generalize (if sc.hesScaling.isEmpty then
    sc.createHesScaling N.hes.row N.hes.col N.nnzHes else sc) = s' at hc hb
  refine ⟨.inr hc, fill_congr fun nz hi => ?_⟩
  rw [if_neg (by decide), hc]
  simp only [NominalScaling.createHesScaling]
  rw [raw_fill_lt _ hi, hb.raw_x, hb.raw_x]
  simp only [one_div, mul_inv, inv_inv]

omit h in
theorem HesBuilt.scaleGradF (hh : HesBuilt N sc) (grad : Nat → K) (n : Nat) :
    HesBuilt N (sc.scaleGradF grad n).1 := by
  unfold NominalScaling.scaleGradF
  by_cases he : sc.gradScaling.isEmpty
  · simp only [if_pos he]
    exact hh.imp_right fun e => by rw [e]; rfl
  · simp only [if_neg he]
    exact hh

omit h in
theorem HesBuilt.scaleJac (hh : HesBuilt N sc) (jac : Nat → K) (row col : Nat → Nat) (nnz : Nat) :
    HesBuilt N (sc.scaleJac jac row col nnz).1 := by
  unfold NominalScaling.scaleJac
  by_cases he : sc.jacScaling.isEmpty
  · simp only [if_pos he]
    exact hh.imp_right fun e => by rw [e]; rfl
  · simp only [if_neg he]
    exact hh

end Vectors

/-! ## Scalings of either kind -/

/-- A scaling created by `f`, in the course of a solve. -/
def Created (N : Shape) : UserScaling K → Scaling K → Prop
  | .noScaling, .noScaling => True
  | .nominal nom, .nominal sc => Built N nom sc
  | _, _ => False

def HesCreated (N : Shape) : Scaling K → Prop
  | .noScaling => True
  | .nominal sc => HesBuilt N sc

theorem created_create (N : Shape) (f : UserScaling K) : Created N f f.create := by
  cases f with
  | noScaling => exact trivial
  | nominal nom => exact Built.new N nom

theorem hesCreated_create (N : Shape) (f : UserScaling K) : HesCreated N f.create := by
  cases f with
  | noScaling => exact trivial
  | nominal nom => exact HesBuilt.new N nom

section Created

variable {f : UserScaling K} {scaling : Scaling K} (h : Created N f scaling)

include h

theorem Created.cases : (f = .noScaling ∧ scaling = .noScaling) ∨
    ∃ nom sc, f = .nominal nom ∧ scaling = .nominal sc ∧ Built N nom sc := by
  cases f with
  | noScaling =>
    cases scaling with
    | noScaling => exact .inl ⟨rfl, rfl⟩
    | nominal sc => exact h.elim
  | nominal nom =>
    cases scaling with
    | noScaling => exact h.elim
    | nominal sc => exact .inr ⟨nom, sc, rfl, rfl, h⟩

theorem Created.unscaleX (x : Nat → K) (n : Nat) : scaling.unscaleX x n = f.unscaleX x n := by
  obtain ⟨rfl, rfl⟩ | ⟨nom, sc, rfl, rfl, hb⟩ := h.cases
  · rfl
  · exact hb.unscaleX x n

theorem Created.scaleF (o : K) : scaling.scaleF o = f.scaleF o := by
  obtain ⟨rfl, rfl⟩ | ⟨nom, sc, rfl, rfl, hb⟩ := h.cases
  · rfl
  · exact hb.scaleF o

theorem Created.scaleG (g : Nat → K) (n : Nat) : scaling.scaleG g n = f.scaleG g n := by
  obtain ⟨rfl, rfl⟩ | ⟨nom, sc, rfl, rfl, hb⟩ := h.cases
  · rfl
  · exact hb.scaleG g n

theorem Created.scaleGradF (grad : Nat → K) :
    Created N f (scaling.scaleGradF grad N.numberVars).1 ∧
    (scaling.scaleGradF grad N.numberVars).2 = f.scaleGradF grad N.numberVars := by
  obtain ⟨rfl, rfl⟩ | ⟨nom, sc, rfl, rfl, hb⟩ := h.cases
  · exact ⟨trivial, rfl⟩
  · exact hb.scaleGradF grad

theorem Created.scaleJac (jac : Nat → K) :
    Created N f (scaling.scaleJac jac N.jac.row N.jac.col N.nnzJac).1 ∧
    (scaling.scaleJac jac N.jac.row N.jac.col N.nnzJac).2 =
      f.scaleJac jac N.jac.row N.jac.col N.nnzJac := by
  obtain ⟨rfl, rfl⟩ | ⟨nom, sc, rfl, rfl, hb⟩ := h.cases
  · exact ⟨trivial, rfl⟩
  · exact hb.scaleJac jac

theorem Created.scaleHes (hes : Nat → K) (row col : Nat → Nat) (nnz : Nat) :
    Created N f (scaling.scaleHes hes row col nnz).1 := by
  obtain ⟨rfl, rfl⟩ | ⟨nom, sc, rfl, rfl, hb⟩ := h.cases
  · exact trivial
  · exact hb.scaleHes hes row col nnz

theorem Created.scaleHes_built (hh : HesCreated N scaling) (hes : Nat → K) :
    HesCreated N (scaling.scaleHes hes N.hes.row N.hes.col N.nnzHes).1 ∧
    (scaling.scaleHes hes N.hes.row N.hes.col N.nnzHes).2 =
      f.scaleHes hes N.hes.row N.hes.col N.nnzHes := by
  obtain ⟨rfl, rfl⟩ | ⟨nom, sc, rfl, rfl, hb⟩ := h.cases
  · exact ⟨trivial, rfl⟩
  · exact hb.scaleHes_built hh hes

end Created

theorem HesCreated.scaleGradF {scaling : Scaling K} (hh : HesCreated N scaling) (grad : Nat → K)
    (n : Nat) : HesCreated N (scaling.scaleGradF grad n).1 := by
  cases scaling with
  | noScaling => exact trivial
  | nominal sc => exact HesBuilt.scaleGradF hh grad n

theorem HesCreated.scaleJac {scaling : Scaling K} (hh : HesCreated N scaling) (jac : Nat → K)
    (row col : Nat → Nat) (nnz : Nat) : HesCreated N (scaling.scaleJac jac row col nnz).1 := by
  cases scaling with
  | noScaling => exact trivial
  | nominal sc => exact HesBuilt.scaleJac hh jac row col nnz

/-! ## There and back -/

section Base

/-- The part of a scaling that no use of it changes. -/
def Scaling.base : Scaling K → Scaling K
  | .noScaling => .noScaling
  | .nominal sc => .nominal { sc with gradScaling := [], jacScaling := [], hesScaling := [] }

theorem UserScaling.create_base (u : UserScaling K) : u.create.base = u.create := by
  cases u <;> rfl

variable (scaling : Scaling K)

theorem scaleGradF_base (grad : Nat → K) (n : Nat) :
    (scaling.scaleGradF grad n).1.base = scaling.base := by
  cases scaling with
  | noScaling => rfl
  | nominal sc =>
    simp only [Scaling.scaleGradF, NominalScaling.scaleGradF, Prod.map]
    split <;> rfl

theorem scaleJac_base (jac : Nat → K) (row col : Nat → Nat) (nnz : Nat) :
    (scaling.scaleJac jac row col nnz).1.base = scaling.base := by
  cases scaling with
  | noScaling => rfl
  | nominal sc =>
    simp only [Scaling.scaleJac, NominalScaling.scaleJac, Prod.map]
    split <;> rfl

theorem scaleHes_base (hes : Nat → K) (row col : Nat → Nat) (nnz : Nat) :
    (scaling.scaleHes hes row col nnz).1.base = scaling.base := by
  cases scaling with
  | noScaling => rfl
  | nominal sc =>
    simp only [Scaling.scaleHes, NominalScaling.scaleHes, Prod.map]
    split <;> rfl

variable {scaling scaling' : Scaling K}

theorem base_eq (h : scaling.base = nom.scaling) : ∃ sc, scaling = .nominal sc ∧
    sc.xScaling = nom.x.map (fun x => 1 / x) ∧ sc.gScaling = nom.g.map fun g => 1 / g := by
  cases scaling with
  | noScaling => cases h
  | nominal sc =>
    have h := Scaling.nominal.inj h
    exact ⟨sc, rfl, (congrArg NominalScaling.xScaling h :), (congrArg NominalScaling.gScaling h :)⟩

variable (h : scaling.base = nom.scaling) (h' : scaling'.base = nom.scaling)

include h h'

/-- Unscaled in one solve, scaled in the next. -/
theorem inplaceScaleX_unscaleX (h0 : ∀ v ∈ nom.x, v ≠ 0) (x : Nat → K) :
    scaling'.inplaceScaleX (scaling.unscaleX x nom.x.length) = fill nom.x.length x := by
  obtain ⟨sc, rfl, hx, -⟩ := base_eq h
  obtain ⟨sc', rfl, hx', -⟩ := base_eq h'
  simp only [Scaling.inplaceScaleX, Scaling.unscaleX, NominalScaling.inplaceScaleX,
    NominalScaling.unscaleX, diagmatVecInplace, diagmatVec, edit, fill_length, hx, hx',
    List.length_map]
  refine fill_congr fun i hi => ?_
  have hne := one_div_ne_zero (forall_mem_iff.mp h0 i hi)
  rw [if_pos hi, if_neg (by decide), raw_fill_lt _ hi, if_pos trivial, raw_reciprocals,
    div_mul_cancel₀ _ hne]

theorem unscaleG_scaleG (h0 : ∀ v ∈ nom.g, v ≠ 0) (g : Nat → K) :
    scaling'.unscaleG (raw (scaling.scaleG g nom.g.length)) nom.g.length =
      fill nom.g.length g := by
  obtain ⟨sc, rfl, -, hg⟩ := base_eq h
  obtain ⟨sc', rfl, -, hg'⟩ := base_eq h'
  simp only [Scaling.unscaleG, Scaling.scaleG, NominalScaling.unscaleG, NominalScaling.scaleG,
    diagmatVec, hg, hg']
  refine fill_congr fun i hi => ?_
  have hne := one_div_ne_zero (forall_mem_iff.mp h0 i hi)
  rw [if_pos trivial, raw_fill_lt _ hi, if_neg (by decide), raw_reciprocals,
    mul_div_cancel_left₀ _ hne]

end Base

end NLP
end Moo
