import Mathlib.Logic.Relation

/-!
# Lib.Trace

What a machine answers to a list of calls.

* `trace step s cs`: the answers to the calls, until one of them aborts.
* `Answers R`: two outcomes of a call: both abort, or both give the same answer and lead to states
  in `R`.
* `trace_eq`: machines whose calls correspond in this way give the same answers. The relation may
  depend on the calls to come.
-/

namespace Trace

variable {σ τ γ α : Type*}

def trace (step : σ → γ → Option (σ × α)) : σ → List γ → List α
  | _, [] => []
  | s, c :: cs =>
    match step s c with
    | none => []
    | some (s', a) => a :: trace step s' cs

def Answers (R : σ → τ → Prop) : Option (σ × α) → Option (τ × α) → Prop :=
  Option.Rel fun r r' => r'.2 = r.2 ∧ R r.1 r'.1

/-- Two optional results that correspond, each continued. -/
theorem Answers.map {β β' : Type*} {R : σ → τ → Prop} {Q : β → β' → Prop} {o : Option β}
    {o' : Option β'} {f : β → σ × α} {g : β' → τ × α} (h : Option.Rel Q o o')
    (hf : ∀ b b', Q b b' → (g b').2 = (f b).2 ∧ R (f b).1 (g b').1) :
    Answers R (o.map f) (o'.map g) := by
  cases h with
  | some h => exact .some (hf _ _ h)
  | none => exact .none

theorem Answers.imp {R Q : σ → τ → Prop} {o : Option (σ × α)} {o' : Option (τ × α)}
    (h : Answers R o o')
    (hi : ∀ r r', o = some r → o' = some r' → R r.1 r'.1 → Q r.1 r'.1) : Answers Q o o' := by
  cases h with
  | some h => exact .some ⟨h.1, hi _ _ rfl rfl h.2⟩
  | none => exact .none

theorem trace_eq {step : σ → γ → Option (σ × α)} {step' : τ → γ → Option (τ × α)}
    {R : List γ → σ → τ → Prop}
    (h : ∀ c cs s t, R (c :: cs) s t → Answers (R cs) (step s c) (step' t c)) {cs : List γ}
    {s : σ} {t : τ} (hR : R cs s t) : trace step' t cs = trace step s cs := by
  induction cs generalizing s t with
  | nil => rfl
  | cons c cs ih =>
    have hc := h c cs s t hR
    unfold trace
    revert hc
    generalize step s c = o
    generalize step' t c = o'
    intro hc
    cases hc with
    | none => rfl
    | some hr =>
      obtain ⟨ha, hR'⟩ := hr
      exact congrArg₂ List.cons ha (ih hR')

end Trace
