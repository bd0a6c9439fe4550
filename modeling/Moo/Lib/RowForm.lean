import Mathlib.Analysis.Calculus.FDeriv.Add
import Mathlib.Analysis.Calculus.FDeriv.Mul
import Mathlib.Analysis.Calculus.FDeriv.Pi

/-!
# Lib.RowForm

Linear forms on `ℝⁿ` from their coefficients.

A row of a matrix whose columns are numbered by `Nat` is a function `a : Nat → ℝ`; `form n a` is
the linear form it defines on `Fin n → ℝ`. Vectors are read by number with `extend` (zero behind
the last entry), and the derivative of a function built from entries of the vector is the form of
the row built in the same way from indicators (`hasFDerivAt_extend` and the rules below it).
Functions of scaled variables have the scaled derivatives (`hasFDerivAt_diag`,
`hasFDerivAt_fderiv_diag`).
-/

namespace RowForm

variable {n : Nat}

noncomputable def form (n : Nat) (a : Nat → ℝ) : (Fin n → ℝ) →L[ℝ] ℝ :=
  ∑ c : Fin n, a c • ContinuousLinearMap.proj (R := ℝ) (φ := fun _ => ℝ) c

def extend (x : Fin n → ℝ) (k : Nat) : ℝ := if h : k < n then x ⟨k, h⟩ else 0

theorem form_apply (a : Nat → ℝ) (v : Fin n → ℝ) : form n a v = ∑ c : Fin n, a c * v c := by
  simp [form]

theorem form_single (a : Nat → ℝ) (c : Fin n) : form n a (Pi.single c 1) = a c := by
  simp [form_apply, Pi.single_apply]

theorem form_congr {a b : Nat → ℝ} (h : ∀ c, c < n → a c = b c) : form n a = form n b :=
  Finset.sum_congr rfl fun c _ => by rw [h c c.2]

theorem form_add (a b : Nat → ℝ) : form n a + form n b = form n fun c => a c + b c := by
  refine ContinuousLinearMap.ext fun v => ?_
  simp only [add_apply, form_apply, ← Finset.sum_add_distrib, add_mul]

theorem form_smul (r : ℝ) (a : Nat → ℝ) : r • form n a = form n fun c => r * a c := by
  refine ContinuousLinearMap.ext fun v => ?_
  simp only [smul_apply, form_apply, smul_eq_mul, Finset.mul_sum, mul_assoc]

theorem form_sum (s : Finset Nat) (a : Nat → Nat → ℝ) :
    ∑ k ∈ s, form n (a k) = form n fun c => ∑ k ∈ s, a k c := by
  refine ContinuousLinearMap.ext fun v => ?_
  simp only [sum_apply, form_apply, Finset.sum_mul]
  exact Finset.sum_comm

theorem hasFDerivAt_extend (x : Fin n → ℝ) (k : Nat) :
    HasFDerivAt (fun x : Fin n → ℝ => extend x k)
      (form n fun c => if k = c then 1 else 0) x := by
  by_cases hk : k < n
  · have hf : (fun x : Fin n → ℝ => extend x k) = fun x => x ⟨k, hk⟩ := by
      funext x
      simp [extend, hk]
    rw [hf]
    refine (hasFDerivAt_apply (⟨k, hk⟩ : Fin n) x).congr_fderiv ?_
    refine ContinuousLinearMap.ext fun v => ?_
    rw [form_apply, Finset.sum_eq_single (⟨k, hk⟩ : Fin n)]
    · simp
    · intro c _ hc
      rw [if_neg fun h => hc (Fin.ext h.symm), zero_mul]
    · intro h
      exact absurd (Finset.mem_univ _) h
  · have hf : (fun x : Fin n → ℝ => extend x k) = fun _ => 0 := by
      funext x
      simp [extend, hk]
    rw [hf]
    refine (hasFDerivAt_const (0 : ℝ) x).congr_fderiv ?_
    refine ContinuousLinearMap.ext fun v => ?_
    rw [form_apply]
    refine (Finset.sum_eq_zero fun c _ => ?_).symm
    have := c.2
    rw [if_neg (by omega), zero_mul]

section Rules

variable {f g : (Fin n → ℝ) → ℝ} {a b : Nat → ℝ} {x : Fin n → ℝ}

theorem hasFDerivAt_zero : HasFDerivAt (fun _ : Fin n → ℝ => (0 : ℝ)) (form n fun _ => 0) x := by
  refine (hasFDerivAt_const (0 : ℝ) x).congr_fderiv ?_
  refine ContinuousLinearMap.ext fun v => ?_
  simp [form_apply]

theorem hasFDerivAt_add (hf : HasFDerivAt f (form n a) x) (hg : HasFDerivAt g (form n b) x) :
    HasFDerivAt (fun x => f x + g x) (form n fun c => a c + b c) x :=
  (hf.add hg).congr_fderiv (form_add a b)

theorem hasFDerivAt_mul (r : ℝ) (hf : HasFDerivAt f (form n a) x) :
    HasFDerivAt (fun x => r * f x) (form n fun c => r * a c) x :=
  (hf.const_mul r).congr_fderiv (form_smul r a)

theorem hasFDerivAt_sub (hf : HasFDerivAt f (form n a) x) (hg : HasFDerivAt g (form n b) x) :
    HasFDerivAt (fun x => f x - g x) (form n fun c => a c - b c) x := by
  refine (hf.sub hg).congr_fderiv ?_
  refine ContinuousLinearMap.ext fun v => ?_
  simp only [sub_apply, form_apply, ← Finset.sum_sub_distrib, sub_mul]

theorem hasFDerivAt_sum (s : Finset Nat) {F : Nat → (Fin n → ℝ) → ℝ} {A : Nat → Nat → ℝ}
    (h : ∀ k ∈ s, HasFDerivAt (F k) (form n (A k)) x) :
    HasFDerivAt (fun x => ∑ k ∈ s, F k x) (form n fun c => ∑ k ∈ s, A k c) x :=
  (HasFDerivAt.fun_sum h).congr_fderiv (form_sum s A)

/-- A row of differentiable entries has the matrix of their derivatives. -/
theorem hasFDerivAt_form {a : Nat → (Fin n → ℝ) → ℝ} {A : Nat → Nat → ℝ}
    (h : ∀ c, c < n → HasFDerivAt (a c) (form n (A c)) x) :
    ∃ F'' : (Fin n → ℝ) →L[ℝ] (Fin n → ℝ) →L[ℝ] ℝ,
      HasFDerivAt (fun y => form n fun c => a c y) F'' x ∧
      ∀ i j : Fin n, F'' (Pi.single i 1) (Pi.single j 1) = A j i := by
  let e (c : Fin n) : (Fin n → ℝ) →L[ℝ] ℝ := ContinuousLinearMap.proj c
  have hc : ∀ c ∈ (Finset.univ : Finset (Fin n)),
      HasFDerivAt (fun y => a c y • e c) ((form n (A c)).smulRight (e c)) x :=
    fun c _ => (h c c.2).smul_const (e c)
  refine ⟨_, HasFDerivAt.fun_sum hc, fun i j => ?_⟩
  simp [e, form_single, Pi.single_apply]

end Rules

/-! ## Scaled variables -/

section Diag

/-- The diagonal map with the factors `d`. -/
noncomputable def diag (n : Nat) (d : Nat → ℝ) : (Fin n → ℝ) →L[ℝ] (Fin n → ℝ) :=
  ContinuousLinearMap.pi fun c => d c • ContinuousLinearMap.proj (R := ℝ) (φ := fun _ => ℝ) c

@[simp] theorem diag_apply (d : Nat → ℝ) (v : Fin n → ℝ) (c : Fin n) :
    diag n d v c = d c * v c := by
  simp [diag]

theorem diag_single (d : Nat → ℝ) (c : Fin n) :
    diag n d (Pi.single c 1) = d c • Pi.single c 1 := by
  funext c'
  by_cases h : c' = c
  · subst h
    simp
  · simp [h]

theorem form_diag (a d : Nat → ℝ) : (form n a).comp (diag n d) = form n fun c => d c * a c := by
  refine ContinuousLinearMap.ext fun v => ?_
  simp only [ContinuousLinearMap.comp_apply, form_apply, diag_apply]
  exact Finset.sum_congr rfl fun c _ => by ring

/-- First derivative of a function of scaled variables. -/
theorem hasFDerivAt_diag {f : (Fin n → ℝ) → ℝ} {a : Nat → ℝ} (d : Nat → ℝ) {x : Fin n → ℝ}
    (hf : HasFDerivAt f (form n a) (diag n d x)) :
    HasFDerivAt (fun x => f (diag n d x)) (form n fun c => d c * a c) x :=
  (hf.comp x (diag n d).hasFDerivAt).congr_fderiv (form_diag a d)

/-- Second derivative of a function of scaled variables: the entries take both factors. -/
theorem hasFDerivAt_fderiv_diag {f : (Fin n → ℝ) → ℝ} (d : Nat → ℝ) {x : Fin n → ℝ}
    (hd : Differentiable ℝ f) {f'' : (Fin n → ℝ) →L[ℝ] (Fin n → ℝ) →L[ℝ] ℝ}
    (hf : HasFDerivAt (fderiv ℝ f) f'' (diag n d x)) :
    ∃ F'' : (Fin n → ℝ) →L[ℝ] (Fin n → ℝ) →L[ℝ] ℝ,
      HasFDerivAt (fderiv ℝ fun x => f (diag n d x)) F'' x ∧
      ∀ i j : Fin n, F'' (Pi.single i 1) (Pi.single j 1) =
        d i * d j * f'' (Pi.single i 1) (Pi.single j 1) := by
  have e : (fderiv ℝ fun x => f (diag n d x)) =
      fun y => (fderiv ℝ f (diag n d y)).comp (diag n d) := by
    funext y
    exact ((hd _).hasFDerivAt.comp y (diag n d).hasFDerivAt).fderiv
  have h := (hf.comp x (diag n d).hasFDerivAt).clm_comp (hasFDerivAt_const (diag n d) x)
  refine ⟨_, e ▸ h, fun i j => ?_⟩
  simp [diag_single]
  ring

end Diag

end RowForm
