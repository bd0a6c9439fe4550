import Moo.Lib.Loop

/-!
# Lib.Tape

A writing cursor over an array, the shape of `a[k++] = v` in a loop nest.

A `Tape α` is a position and the content of the cells. `write f` applies `f` to the cell under
the position and steps on (`a[k] = v; k++` is `write fun _ => v`, `a[k++] -= v` is
`write (· - v)`), `edit f` does not step, `skip n` moves past `n` cells.

A program over a tape is a list of cell functions, one for each cell it passes (`Tape.run`).
What such a program leaves behind is known at once: it ends `l.length` further (`run_pos`), the
cell `pos + k` holds the `k`-th function's value of its old content (`run_cells_at`), and the
cells before and behind are untouched (`run_cells_of_lt`, `run_cells_of_ge`).

`Cellwise C F` says less about more programs: `F` may move the cursor anywhere, but it treats
every cell by itself, with a function of the class `C`.
-/

universe u

structure Tape (α : Type u) where
  pos : Nat
  cells : Nat → α

namespace Tape

variable {α : Type u}

def edit (t : Tape α) (f : α → α) : Tape α :=
  { t with cells := Function.update t.cells t.pos (f (t.cells t.pos)) }

def skip (t : Tape α) (n : Nat) : Tape α := { t with pos := t.pos + n }

def write (t : Tape α) (f : α → α) : Tape α := (t.edit f).skip 1

def run (l : List (α → α)) (t : Tape α) : Tape α := l.foldl write t

@[simp] theorem write_pos (t : Tape α) (f : α → α) : (t.write f).pos = t.pos + 1 := rfl

theorem write_cells (t : Tape α) (f : α → α) (k : Nat) :
    (t.write f).cells k = if k = t.pos then f (t.cells k) else t.cells k := by
  by_cases h : k = t.pos
  · subst h
    simp [write, edit, skip]
  · simp [write, edit, skip, h]

@[simp] theorem run_nil (t : Tape α) : run [] t = t := rfl

theorem run_cons (f : α → α) (l : List (α → α)) (t : Tape α) :
    run (f :: l) t = run l (t.write f) := rfl

theorem run_append (l l' : List (α → α)) (t : Tape α) : run (l ++ l') t = run l' (run l t) :=
  List.foldl_append ..

theorem write_id (t : Tape α) : t.write id = t.skip 1 := by
  simp [write, edit]

theorem skip_skip (t : Tape α) (m n : Nat) : (t.skip m).skip n = t.skip (m + n) := by
  simp [skip, Nat.add_assoc]

/-- Skipping cells is the program that leaves them as they are. -/
theorem skip_eq_run (t : Tape α) (n : Nat) : t.skip n = run (List.replicate n id) t := by
  induction n generalizing t with
  | zero => rfl
  | succ n ih => rw [List.replicate_succ, run_cons, write_id, ← ih, skip_skip, Nat.add_comm]

@[simp] theorem run_pos (l : List (α → α)) (t : Tape α) : (run l t).pos = t.pos + l.length := by
  induction l generalizing t with
  | nil => rfl
  | cons f l ih =>
    rw [run_cons, ih, write_pos, List.length_cons]
    omega

/-- Setting the position to where the cursor already is changes nothing. -/
theorem seek_eq {t : Tape α} {n : Nat} (h : n = t.pos) : { t with pos := n } = t := by
  subst h
  rfl

theorem run_cells_of_lt (l : List (α → α)) (t : Tape α) {k : Nat} (hk : k < t.pos) :
    (run l t).cells k = t.cells k := by
  induction l generalizing t with
  | nil => rfl
  | cons f l ih =>
    rw [run_cons, ih _ (by rw [write_pos]; omega), write_cells, if_neg (by omega)]

theorem run_cells_of_ge (l : List (α → α)) (t : Tape α) {k : Nat} (hk : t.pos + l.length ≤ k) :
    (run l t).cells k = t.cells k := by
  induction l generalizing t with
  | nil => rfl
  | cons f l ih =>
    rw [List.length_cons] at hk
    rw [run_cons, ih _ (by rw [write_pos]; omega), write_cells, if_neg (by omega)]

theorem run_cells_at (l : List (α → α)) (t : Tape α) {k : Nat} (hk : k < l.length) :
    (run l t).cells (t.pos + k) = l[k] (t.cells (t.pos + k)) := by
  induction l generalizing t k with
  | nil => simp at hk
  | cons f l ih =>
    rw [run_cons]
    cases k with
    | zero =>
      rw [run_cells_of_lt l _ (by rw [write_pos]; omega), write_cells,
        if_pos (Nat.add_zero _)]
      rfl
    | succ k =>
      have hk' : k < l.length := by simpa using hk
      have e : t.pos + (k + 1) = (t.write f).pos + k := by rw [write_pos]; omega
      rw [e, ih (t.write f) hk', write_cells, if_neg (by rw [write_pos]; omega)]
      rfl

/-! ## Programs that treat every cell by itself -/

/-- A class of cell functions closed under composition. -/
structure CellClass (α : Type u) where
  mem : (α → α) → Prop
  id_mem : mem id
  comp_mem : ∀ {f g : α → α}, mem f → mem g → mem (f ∘ g)

def Cellwise (C : CellClass α) (F : Tape α → Tape α) : Prop :=
  ∀ p, ∃ q, ∃ φ : Nat → α → α, (∀ k, C.mem (φ k)) ∧
    ∀ cells, F ⟨p, cells⟩ = ⟨q, fun k => φ k (cells k)⟩

namespace Cellwise

variable {C : CellClass α} {F G : Tape α → Tape α}

theorem id : Cellwise C fun t => t :=
  fun p => ⟨p, fun _ a => a, fun _ => C.id_mem, fun _ => rfl⟩

theorem comp (hG : Cellwise C G) (hF : Cellwise C F) : Cellwise C fun t => G (F t) := by
  intro p
  obtain ⟨q, φ, hφ, hq⟩ := hF p
  obtain ⟨r, ψ, hψ, hr⟩ := hG q
  exact ⟨r, fun k => ψ k ∘ φ k, fun k => C.comp_mem (hψ k) (hφ k), fun cells =>
    (congrArg G (hq cells)).trans (hr _)⟩

theorem write {f : α → α} (hf : C.mem f) : Cellwise C fun t => t.write f := by
  intro p
  refine ⟨p + 1, fun k a => if k = p then f a else a, fun k => ?_, fun cells => ?_⟩
  · by_cases h : k = p
    · simp only [if_pos h]
      exact hf
    · simp only [if_neg h]
      exact C.id_mem
  · exact congrArg (Tape.mk (p + 1)) (funext fun k => write_cells ⟨p, cells⟩ f k)

theorem seek (n : Nat) : Cellwise C fun t => { t with pos := n } :=
  fun _ => ⟨n, fun _ a => a, fun _ => C.id_mem, fun _ => rfl⟩

theorem forRange {n : Nat} {f : Nat → Tape α → Tape α} (h : ∀ i, Cellwise C (f i)) :
    Cellwise C (Loop.forRange n f) := by
  induction n with
  | zero => exact id
  | succ n ih => exact (h n).comp ih

theorem foldl {β : Type*} {f : Tape α → β → Tape α} (l : List β)
    (h : ∀ a, Cellwise C fun t => f t a) : Cellwise C fun t => l.foldl f t := by
  induction l with
  | nil => exact id
  | cons a l ih => exact ih.comp (h a)

/-- A loop with a variable of its own, which the cells do not influence. -/
theorem forRange_state {σ : Type*} {n : Nat} {f : Nat → Tape α × σ → Tape α × σ}
    {g : Nat → σ → Tape α → Tape α} {v : Nat → σ → σ} (hf : ∀ i t s, f i (t, s) = (g i s t, v i s))
    (h : ∀ i s, Cellwise C (g i s)) (s : σ) :
    Cellwise C fun t => (Loop.forRange n f (t, s)).1 := by
  have key : ∃ F s', Cellwise C F ∧ ∀ t, Loop.forRange n f (t, s) = (F t, s') := by
    induction n with
    | zero => exact ⟨_, s, id, fun _ => rfl⟩
    | succ n ih =>
      obtain ⟨F, s', hF, e⟩ := ih
      refine ⟨_, v n s', (h n s').comp hF, fun t => ?_⟩
      rw [Loop.forRange_succ, e, hf]
  obtain ⟨F, s', hF, e⟩ := key
  simp only [e]
  exact hF

end Cellwise

end Tape
