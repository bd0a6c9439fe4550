import Mathlib.Data.List.AList
import Mathlib.Data.List.TakeWhile
import Mathlib.Algebra.Ring.Nat

/-!
# Lib.Text

Reading a text: lines and cells, places and words, numbers; and dictionaries by key.

* `getlines`: the pieces before a delimiter, where a last empty piece is none. It undoes both ways
  of putting pieces together: each with a delimiter behind it (`getlines_terminated`), or with one
  between any two (`getlines_separated`).
* `find`, `word`, `stoul`: places, words and unsigned numbers, each with the lemma that finds what
  was written.
* `Dict`: a map that creates a value where none is stored. `get_foldl`: a loop over the entries of
  another map changes each key once.
-/

namespace Text

/-! ## Pieces -/

/-- `std::getline`, until it fails. -/
def getlines (d : Char) (s : List Char) : List (List Char) :=
  let pieces := s.splitOn d
  if pieces.getLast? = some [] then pieces.dropLast else pieces

variable {d : Char} {c : List Char} {cs : List (List Char)}

theorem flatMap_terminate (cs : List (List Char)) :
    cs.flatMap (fun c => c ++ [d]) = [d].intercalate (cs ++ [[]]) := by
  induction cs with
  | nil => rfl
  | cons c cs ih =>
    rw [List.flatMap_cons, ih]
    cases cs <;> simp [List.intercalate]

theorem flatMap_separate (c : List Char) (cs : List (List Char)) :
    c ++ cs.flatMap (fun c => d :: c) = [d].intercalate (c :: cs) := by
  induction cs generalizing c with
  | nil => simp [List.intercalate]
  | cons c' cs ih =>
    rw [List.flatMap_cons, List.cons_append, ih]
    simp [List.intercalate]

theorem getlines_terminated (h : ∀ c ∈ cs, d ∉ c) :
    getlines d (cs.flatMap fun c => c ++ [d]) = cs := by
  have hd : ∀ c ∈ cs ++ [[]], d ∉ c := by simpa [or_imp, forall_and] using h
  rw [flatMap_terminate, getlines, List.splitOn_intercalate d hd (by simp)]
  simp

theorem getlines_separated (h : ∀ c' ∈ c :: cs, d ∉ c') (hne : ∀ c' ∈ c :: cs, c' ≠ []) :
    getlines d (c ++ cs.flatMap fun c => d :: c) = c :: cs := by
  rw [flatMap_separate, getlines, List.splitOn_intercalate d h (by simp)]
  refine if_neg fun hlast => ?_
  exact hne [] (List.mem_of_getLast? hlast) rfl

example : getlines ',' "a,,b,".toList = ["a".toList, [], "b".toList] := by decide +kernel

/-! ## Places and words -/

/-- The first `c` from `start` on. -/
def find (c : Char) (start : Nat) (s : List Char) : Option Nat :=
  if c ∈ s.drop start then some (start + (s.drop start).idxOf c) else none

/-- The last `c`. -/
def rfind (c : Char) (s : List Char) : Option Nat :=
  if c ∈ s then some (s.length - 1 - s.reverse.idxOf c) else none

theorem find_eq {c : Char} {start : Nat} {s l r : List Char} (hs : s.drop start = l ++ c :: r)
    (h : c ∉ l) : find c start s = some (start + l.length) := by
  rw [find, hs, if_pos (by simp), List.idxOf_append_of_notMem h, List.idxOf_cons_self, Nat.add_zero]

/-- A first `c` is found, and what follows it is a subsequence of the rest. -/
theorem cons_sublist_iff_find {c : Char} {start : Nat} {s l : List Char} :
    (c :: l).Sublist (s.drop start) ↔
      ∃ i, find c start s = some i ∧ l.Sublist (s.drop (i + 1)) := by
  have key : ∀ t : List Char, (c :: l).Sublist t ↔ c ∈ t ∧ l.Sublist (t.drop (t.idxOf c + 1)) := by
    intro t
    induction t with
    | nil => simp
    | cons x t ih =>
      by_cases hx : x = c
      · subst hx
        simp
      · rw [List.idxOf_cons_ne _ hx, List.drop_succ_cons, List.mem_cons,
          or_iff_right (Ne.symm hx), ← ih]
        constructor
        · intro h
          cases h with
          | cons _ h => exact h
          | cons_cons _ h => exact absurd rfl hx
        · exact List.Sublist.cons x
  rw [key, find]
  by_cases hc : c ∈ s.drop start
  · simp [hc, List.drop_drop, Nat.add_assoc]
  · simp [hc]

theorem drop_find {c : Char} {start i : Nat} {s : List Char} (h : find c start s = some i) :
    s.drop i = c :: s.drop (i + 1) := by
  unfold find at h
  split at h
  · rename_i hc
    cases h
    have hlt := List.idxOf_lt_length_of_mem hc
    have hget : (s.drop start)[(s.drop start).idxOf c] = c := List.getElem_idxOf hlt
    rw [List.getElem_drop] at hget
    rw [List.length_drop] at hlt
    rw [List.drop_eq_getElem_cons (by omega), hget]
  · cases h

def isSpace (c : Char) : Bool := decide (c ∈ [' ', '\t', '\n', '\x0b', '\x0c', '\r'])

/-- The next word, and what follows it. -/
def word (s : List Char) : List Char × List Char :=
  let s := s.dropWhile isSpace
  (s.takeWhile fun c => !isSpace c, s.dropWhile fun c => !isSpace c)

theorem word_eq {w r : List Char} (hne : w ≠ []) (hw : w.all (fun c => !isSpace c) = true) :
    word (' ' :: (w ++ ' ' :: r)) = (w, ' ' :: r) := by
  have hspace : isSpace ' ' = true := rfl
  have hword : ∀ c ∈ w, (!isSpace c) = true := List.all_eq_true.mp hw
  have hskip : (' ' :: (w ++ ' ' :: r)).dropWhile isSpace = w ++ ' ' :: r := by
    obtain ⟨a, w, rfl⟩ := List.exists_cons_of_ne_nil hne
    have ha : isSpace a = false := Bool.not_eq_true' _ |>.mp (hword a List.mem_cons_self)
    rw [List.dropWhile_cons, if_pos hspace, List.cons_append, List.dropWhile_cons,
      if_neg (Bool.not_eq_true _ ▸ ha)]
  rw [word, hskip, List.takeWhile_append_of_pos hword, List.dropWhile_append_of_pos hword]
  simp [hspace]

/-! ## Numbers -/

/-- White space, a sign and digits: whether the sign is a minus, and the digits. -/
def signedDigits (s : List Char) : Bool × List Char :=
  let s := s.dropWhile isSpace
  let unsigned := if s.head? = some '-' ∨ s.head? = some '+' then s.tail else s
  (s.head? = some '-', unsigned.takeWhile Char.isDigit)

/-- `std::stoul`: it throws where there are no digits, and where they say `2 ^ 64` or more. A minus
sign wraps. -/
def stoul (s : List Char) : Option Nat :=
  let (minus, digits) := signedDigits s
  let n := Nat.ofDigitChars 10 digits 0
  if digits = [] ∨ 2 ^ 64 ≤ n then none
  else if minus then some ((2 ^ 64 - n) % 2 ^ 64)
  else some n

example : stoul "-0".toList = some 0 ∧ stoul "-1".toList = some (2 ^ 64 - 1) ∧
    stoul "18446744073709551616".toList = none := by decide +kernel

/-- What stands between digits is none of them. -/
theorem notMem_toDigits {c : Char} (hc : c.isDigit = false) (n : Nat) : c ∉ Nat.toDigits 10 n := by
  intro h
  rw [Nat.isDigit_of_mem_toDigits (by omega) (by omega) h] at hc
  cases hc

theorem signedDigits_toDigits (n : Nat) :
    signedDigits (Nat.toDigits 10 n) = (false, Nat.toDigits 10 n) := by
  have hdigits : ∀ c ∈ Nat.toDigits 10 n, c.isDigit = true := fun _ =>
    Nat.isDigit_of_mem_toDigits (by omega) (by omega)
  have hother : ∀ c, c.isDigit = false → (Nat.toDigits 10 n).head? ≠ some c := fun c hc hhead =>
    notMem_toDigits hc n (List.mem_of_head? hhead)
  have hskip : (Nat.toDigits 10 n).dropWhile isSpace = Nat.toDigits 10 n := by
    refine List.dropWhile_eq_self_iff.mpr fun hlen hspace => ?_
    have hall : [' ', '\t', '\n', '\x0b', '\x0c', '\r'].all (fun c => !c.isDigit) = true := by
      decide
    have hother := List.all_eq_true.mp hall _ (of_decide_eq_true hspace)
    exact notMem_toDigits (Bool.not_eq_true' _ |>.mp hother) n (List.getElem_mem hlen)
  have htake : (Nat.toDigits 10 n).takeWhile Char.isDigit = Nat.toDigits 10 n :=
    List.takeWhile_eq_self_iff.mpr hdigits
  unfold signedDigits
  simp only [hskip, hother '-' (by decide), hother '+' (by decide), or_self, if_false, htake,
    decide_false]

theorem stoul_toDigits {n : Nat} (hn : n < 2 ^ 64) : stoul (Nat.toDigits 10 n) = some n := by
  have hrange : ¬ 2 ^ 64 ≤ n := not_le.mpr hn
  unfold stoul
  simp only [signedDigits_toDigits, Nat.ofDigitChars_ten_toDigits, Nat.toDigits_ne_nil, hrange,
    or_self, if_false, Bool.false_eq_true]

/-- `>>` into an unsigned number: nothing is written at the end of the text, zero where there is no
number, and the largest one where it is out of range. -/
def extract (old : Option Nat) (s : List Char) : Option Nat :=
  if s.all isSpace then old
  else if (signedDigits s).2 = [] then some 0
  else some ((stoul s).getD (2 ^ 64 - 1))

example : extract none " -0".toList = some 0 ∧ extract none "x".toList = some 0 ∧
    extract none "18446744073709551616".toList = some (2 ^ 64 - 1) := by decide +kernel

/-! ## Dictionaries -/

namespace Dict

variable {α β : Type} [DecidableEq α] [Inhabited β]

/-- The value of `operator[]`. -/
def get (m : AList fun _ : α => β) (k : α) : β := (m.lookup k).getD default

/-- A change through `operator[]`. -/
def update (k : α) (f : β → β) (m : AList fun _ : α => β) : AList fun _ : α => β :=
  m.insert k (f (get m k))

variable (m : AList fun _ : α => β)

@[simp] theorem get_empty (k : α) : get (∅ : AList fun _ : α => β) k = default := rfl

@[simp] theorem get_insert (k : α) (v : β) : get (m.insert k v) k = v := by simp [get]

theorem get_insert_of_ne {k k' : α} (h : k' ≠ k) (v : β) : get (m.insert k v) k' = get m k' := by
  simp [get, AList.lookup_insert_ne h]

@[simp] theorem get_update (k : α) (f : β → β) : get (update k f m) k = f (get m k) :=
  get_insert ..

theorem get_update_of_ne {k k' : α} (h : k' ≠ k) (f : β → β) :
    get (update k f m) k' = get m k' := get_insert_of_ne _ h _

/-- A loop that changes key `e.1` in the pass of entry `e`, as `f` says, and no other key. -/
theorem get_foldl {γ : Type} (entries : AList fun _ : α => γ)
    {step : (AList fun _ : α => β) → (Σ _ : α, γ) → AList fun _ : α => β} {f : γ → β → β}
    (hself : ∀ m e, get (step m e) e.1 = f e.2 (get m e.1))
    (hother : ∀ m e k, k ≠ e.1 → get (step m e) k = get m k) (k : α) :
    get (entries.entries.foldl step m) k =
      (entries.lookup k).elim (get m k) fun v => f v (get m k) := by
  obtain ⟨l, hl⟩ := entries
  rw [AList.lookup]
  dsimp only
  induction l generalizing m with
  | nil => rfl
  | cons e l ih =>
    obtain ⟨hnotin, hl⟩ := List.nodupKeys_cons.mp hl
    rw [List.foldl_cons, ih (step m e) hl]
    rcases eq_or_ne k e.1 with rfl | hne
    · rw [List.dlookup_eq_none.mpr hnotin, Option.elim_none, hself,
        show e = ⟨e.1, e.2⟩ from rfl, List.dlookup_cons_eq, Option.elim_some]
    · rw [List.dlookup_cons_ne _ _ hne, hother m e k hne]

end Dict

end Text
