import Mathlib.Algebra.Ring.Nat
import Mathlib.Data.Prod.Lex
import Mathlib.Algebra.Order.BigOperators.Group.Finset
import Moo.Base.FixedVector
import Moo.Lib.IndexSort

/-!
# Base.CscToCoo

The exchange form between compressed columns (CSC) and coordinates sorted by row (COO).

* `fromCsc`: the coordinates are read off column by column, one row is moved to the front on
  request, and an index array is sorted by the coordinates; `cscToCoo` inverts it.
* `Csc`: the matrices that are converted. `fromCsc_sorted`: the result is sorted, holds every entry
  once, and the two index arrays are inverse to each other.
-/

namespace Moo

open Loop FixedVector

structure CscToCoo where
  row : List Nat
  col : List Nat
  cooToCsc : List Nat
  cscToCoo : List Nat
  nnz : Nat
  nnzOffset : Int
  nnzMovedRow : Nat
  deriving Repr, DecidableEq

namespace CscToCoo

/-! ## The conversion -/

/-- What the first loop fills: the entries in the order of the columns. -/
structure Entries where
  row : Nat → Nat
  col : Nat → Nat
  cooToCsc : Nat → Nat
  nz : Nat
  nnzMovedRow : Nat

/-- The row an entry is moved to, and the count of moved entries. -/
def moveRow (moveToFirstRow : Int) (currRow nnzMovedRow : Nat) : Nat × Nat :=
  if 0 ≤ moveToFirstRow then
    if (currRow : Int) = moveToFirstRow then (0, nnzMovedRow + 1)
    else if (currRow : Int) < moveToFirstRow then (currRow + 1, nnzMovedRow)
    else (currRow, nnzMovedRow)
  else (currRow, nnzMovedRow)

def Entries.push (moveToFirstRow : Int) (currCol currRow : Nat) (s : Entries) : Entries :=
  let (currRow, nnzMovedRow) := moveRow moveToFirstRow currRow s.nnzMovedRow
  { row := Function.update s.row s.nz currRow
    col := Function.update s.col s.nz currCol
    cooToCsc := Function.update s.cooToCsc s.nz s.nz
    nz := s.nz + 1
    nnzMovedRow := nnzMovedRow }

def readEntries (leadCol rowCsc : Nat → Nat) (numberCols : Nat) (moveToFirstRow : Int) : Entries :=
  forRange numberCols (fun currCol s =>
    forFrom (leadCol currCol) (leadCol (currCol + 1)) (fun i s =>
      s.push moveToFirstRow currCol (rowCsc i)) s) ⟨fun _ => 0, fun _ => 0, fun _ => 0, 0, 0⟩

/-- The comparison of the sort. -/
def before (row col : Nat → Nat) (a b : Nat) : Bool :=
  if row a ≠ row b then row a < row b else col a < col b

def fromCsc (leadCol rowCsc : Nat → Nat) (numberCols nnz : Nat) (moveToFirstRow nnzOffset : Int) :
    CscToCoo :=
  let entries := readEntries leadCol rowCsc numberCols moveToFirstRow
  let row := raw (fill nnz entries.row)
  let col := raw (fill nnz entries.col)
  let cooToCsc := (fill nnz entries.cooToCsc).mergeSort fun a b => !before row col b a
  { row := fill nnz fun i => row (raw cooToCsc i)
    col := fill nnz fun i => col (raw cooToCsc i)
    cooToCsc := cooToCsc
    cscToCoo := fill nnz (forRange nnz (fun i a => Function.update a (raw cooToCsc i) i) fun _ => 0)
    nnz := nnz
    nnzOffset := nnzOffset
    nnzMovedRow := entries.nnzMovedRow }

/-- The scan of `rowNnz`, which ends at the first row behind `rowIndex`. -/
def countRow (rowIndex : Int) : List Nat → Nat → Nat
  | [], count => count
  | row :: rows, count =>
    if (row : Int) = rowIndex then countRow rowIndex rows (count + 1)
    else if (row : Int) > rowIndex then count
    else countRow rowIndex rows count

def rowNnz (m : CscToCoo) (rowIndex : Int) : Nat := countRow rowIndex m.row 0

/-! ## Matrices in compressed columns -/

/-- Entry `i` belongs to column `c`. -/
def InCol (leadCol : Nat → Nat) (c i : Nat) : Prop := leadCol c ≤ i ∧ i < leadCol (c + 1)

structure Csc (leadCol rowCsc : Nat → Nat) (numberCols nnz : Nat) : Prop where
  first : leadCol 0 = 0
  last : leadCol numberCols = nnz
  mono : ∀ c, c < numberCols → leadCol c ≤ leadCol (c + 1)
  distinct : ∀ c i j, c < numberCols → InCol leadCol c i → InCol leadCol c j →
    rowCsc i = rowCsc j → i = j

/-- Where a row goes when row `r` is moved to the front. -/
def mapRow (moveToFirstRow : Int) (row : Nat) : Nat :=
  if moveToFirstRow < 0 then row
  else if (row : Int) = moveToFirstRow then 0
  else if (row : Int) < moveToFirstRow then row + 1
  else row

theorem mapRow_inj {r : Int} {a b : Nat} (h : mapRow r a = mapRow r b) : a = b := by
  unfold mapRow at h
  split_ifs at h <;> omega

theorem moveRow_eq (r : Int) (row n : Nat) :
    moveRow r row n = (mapRow r row, if (row : Int) = r then n + 1 else n) := by
  unfold moveRow mapRow
  by_cases h : 0 ≤ r
  · rw [if_pos h, if_neg (show ¬ r < 0 by omega)]
    by_cases h1 : (row : Int) = r
    · simp [h1]
    · rw [if_neg h1, if_neg h1, if_neg h1]
      split <;> rfl
  · rw [if_neg h, if_pos (show r < 0 by omega), if_neg (show ¬ (row : Int) = r by omega)]

theorem mapRow_zero {r : Int} (h : 0 ≤ r) (row : Nat) : mapRow r row = 0 ↔ (row : Int) = r := by
  unfold mapRow
  rw [if_neg (by omega)]
  split
  · simp_all
  · split <;> omega

/-! ## The entries as they are read -/

section Entries

variable {leadCol rowCsc : Nat → Nat} {numberCols nnz : Nat} {r : Int}

/-- The first `n` entries have been read. -/
structure Read (leadCol rowCsc : Nat → Nat) (numberCols : Nat) (r : Int) (n : Nat) (s : Entries) :
    Prop where
  nz : s.nz = n
  row : ∀ i, i < n → s.row i = mapRow r (rowCsc i)
  col : ∀ i, i < n → s.col i < numberCols ∧ InCol leadCol (s.col i) i
  cooToCsc : ∀ i, i < n → s.cooToCsc i = i
  moved : s.nnzMovedRow = (List.range n).countP fun i => (rowCsc i : Int) = r

theorem Read.push {n c : Nat} {s : Entries} (h : Read leadCol rowCsc numberCols r n s)
    (hc : c < numberCols) (hi : InCol leadCol c n) :
    Read leadCol rowCsc numberCols r (n + 1) (s.push r c (rowCsc n)) := by
  unfold Entries.push
  rw [moveRow_eq, h.nz]
  constructor
  · rfl
  · intro i hin
    by_cases e : i = n
    · simp [e]
    · simpa [e] using h.row i (by omega)
  · intro i hin
    by_cases e : i = n
    · simpa [e] using ⟨hc, hi⟩
    · simpa [e] using h.col i (by omega)
  · intro i hin
    by_cases e : i = n
    · simp [e]
    · simpa [e] using h.cooToCsc i (by omega)
  · rw [List.range_succ, List.countP_append, ← h.moved]
    by_cases e : (rowCsc n : Int) = r
    · simp [e]
    · simp [e]

theorem Csc.leadCol_mono (h : Csc leadCol rowCsc numberCols nnz) {c c' : Nat} (hc : c ≤ c')
    (hc' : c' ≤ numberCols) : leadCol c ≤ leadCol c' := by
  induction c', hc using Nat.le_induction with
  | base => exact le_rfl
  | succ n hn ih => exact (ih (by omega)).trans (h.mono n (by omega))

/-- Columns do not overlap. -/
theorem Csc.inCol_unique (h : Csc leadCol rowCsc numberCols nnz) {c c' i : Nat}
    (hc : c < numberCols) (hc' : c' < numberCols) (hi : InCol leadCol c i)
    (hi' : InCol leadCol c' i) : c = c' := by
  obtain ⟨h1, h2⟩ := hi
  obtain ⟨h1', h2'⟩ := hi'
  rcases Nat.lt_trichotomy c c' with hlt | rfl | hlt
  · have := h.leadCol_mono (show c + 1 ≤ c' from hlt) (by omega)
    omega
  · rfl
  · have := h.leadCol_mono (show c' + 1 ≤ c from hlt) (by omega)
    omega

theorem readEntries_read (h : Csc leadCol rowCsc numberCols nnz) (r : Int) :
    Read leadCol rowCsc numberCols r nnz (readEntries leadCol rowCsc numberCols r) := by
  have hcols := forRange_inv (n := numberCols)
    (P := fun c s => Read leadCol rowCsc numberCols r (leadCol c) s)
    (f := fun currCol s => forFrom (leadCol currCol) (leadCol (currCol + 1)) (fun i s =>
      s.push r currCol (rowCsc i)) s) (s := ⟨fun _ => 0, fun _ => 0, fun _ => 0, 0, 0⟩) ?_ ?_
  · rw [h.last] at hcols
    exact hcols
  · rw [h.first]
    constructor
    · rfl
    · intro i hi
      omega
    · intro i hi
      omega
    · intro i hi
      omega
    · rfl
  · intro c hc s hs
    have hle := h.mono c hc
    have hrow := forRange_inv (n := leadCol (c + 1) - leadCol c)
      (P := fun k s => Read leadCol rowCsc numberCols r (leadCol c + k) s)
      (f := fun k s => s.push r c (rowCsc (leadCol c + k))) (s := s) hs fun k hk t ht =>
        ht.push hc ⟨by omega, by omega⟩
    rwa [Nat.add_sub_cancel' hle] at hrow

end Entries

/-! ## The sorted entries -/

section Sorted

variable {leadCol rowCsc : Nat → Nat} {numberCols nnz : Nat} {r : Int}

/-- Row, then column. -/
def key (row col : Nat → Nat) (i : Nat) : Nat ×ₗ Nat := toLex (row i, col i)

theorem before_iff (row col : Nat → Nat) (a b : Nat) :
    before row col a b = true ↔ key row col a < key row col b := by
  unfold before key
  rw [Prod.Lex.toLex_lt_toLex]
  split_ifs with h
  · simp only [decide_eq_true_eq]
    omega
  · simp only [decide_eq_true_eq]
    omega

theorem countRow_eq (rowIndex : Int) {rows : List Nat} (h : rows.Pairwise (· ≤ ·)) :
    ∀ count, countRow rowIndex rows count =
      count + rows.countP fun row : Nat => (row : Int) = rowIndex := by
  induction rows with
  | nil =>
    intro count
    rfl
  | cons row rows ih =>
    intro count
    obtain ⟨hrow, hrows⟩ := List.pairwise_cons.mp h
    rw [countRow, List.countP_cons]
    by_cases h1 : (row : Int) = rowIndex
    · rw [if_pos h1, ih hrows]
      simp [h1]
      omega
    · rw [if_neg h1]
      by_cases h2 : (row : Int) > rowIndex
      · have hnone : rows.countP (fun row : Nat => (row : Int) = rowIndex) = 0 := by
          rw [List.countP_eq_zero]
          intro row' hr'
          have := hrow row' hr'
          simp only [decide_eq_true_eq]
          omega
        simp [h1, h2, hnone]
      · rw [if_neg h2, ih hrows]
        simp [h1]

/-- `m` holds the entries sorted by row and column, row `r` moved to the front. -/
structure Sorted (leadCol rowCsc : Nat → Nat) (numberCols nnz : Nat) (r : Int) (m : CscToCoo) :
    Prop where
  row_length : m.row.length = nnz
  col_length : m.col.length = nnz
  cooToCsc_length : m.cooToCsc.length = nnz
  cscToCoo_length : m.cscToCoo.length = nnz
  increasing : ∀ k k', k < k' → k' < nnz → raw m.row k < raw m.row k' ∨
    raw m.row k = raw m.row k' ∧ raw m.col k < raw m.col k'
  cooToCsc_lt : ∀ k, k < nnz → raw m.cooToCsc k < nnz
  cscToCoo_lt : ∀ i, i < nnz → raw m.cscToCoo i < nnz
  csc_coo : ∀ k, k < nnz → raw m.cscToCoo (raw m.cooToCsc k) = k
  coo_csc : ∀ i, i < nnz → raw m.cooToCsc (raw m.cscToCoo i) = i
  row_eq : ∀ k, k < nnz → raw m.row k = mapRow r (rowCsc (raw m.cooToCsc k))
  col_eq : ∀ k, k < nnz → raw m.col k < numberCols ∧
    InCol leadCol (raw m.col k) (raw m.cooToCsc k)
  once : ∀ c i, c < numberCols → InCol leadCol c i →
    ∃! k, k < nnz ∧ raw m.row k = mapRow r (rowCsc i) ∧ raw m.col k = c
  rowNnz_eq : ∀ rowIndex : Int, m.rowNnz rowIndex =
    (List.range nnz).countP fun i => (mapRow r (rowCsc i) : Int) = rowIndex
  moved : 0 ≤ r → m.nnzMovedRow = m.rowNnz 0

section Result

variable (leadCol rowCsc numberCols nnz r)

/-- The rows and columns in the order of the columns. -/
def cscRow : Nat → Nat := raw (fill nnz (readEntries leadCol rowCsc numberCols r).row)
def cscCol : Nat → Nat := raw (fill nnz (readEntries leadCol rowCsc numberCols r).col)

/-- The sorted index array. -/
def cscOrder : List Nat :=
  IndexSort.order (before (cscRow leadCol rowCsc numberCols nnz r)
    (cscCol leadCol rowCsc numberCols nnz r)) nnz

end Result

theorem cscRow_eq (h : Csc leadCol rowCsc numberCols nnz) (r : Int) {i : Nat} (hi : i < nnz) :
    cscRow leadCol rowCsc numberCols nnz r i = mapRow r (rowCsc i) := by
  rw [cscRow, raw_fill_lt _ hi]
  exact (readEntries_read h r).row i hi

theorem cscCol_inCol (h : Csc leadCol rowCsc numberCols nnz) (r : Int) {i : Nat} (hi : i < nnz) :
    cscCol leadCol rowCsc numberCols nnz r i < numberCols ∧
      InCol leadCol (cscCol leadCol rowCsc numberCols nnz r i) i := by
  rw [cscCol, raw_fill_lt _ hi]
  exact (readEntries_read h r).col i hi

/-- No two entries share their coordinates. -/
theorem key_inj (h : Csc leadCol rowCsc numberCols nnz) (r : Int) {a b : Nat} (ha : a < nnz)
    (hb : b < nnz)
    (e : key (cscRow leadCol rowCsc numberCols nnz r) (cscCol leadCol rowCsc numberCols nnz r) a =
      key (cscRow leadCol rowCsc numberCols nnz r) (cscCol leadCol rowCsc numberCols nnz r) b) :
    a = b := by
  have e' := Prod.ext_iff.mp (congrArg ofLex e)
  simp only [key, ofLex_toLex] at e'
  rw [cscRow_eq h r ha, cscRow_eq h r hb] at e'
  obtain ⟨hc, hca⟩ := cscCol_inCol h r ha
  refine h.distinct _ a b hc hca ?_ (mapRow_inj e'.1)
  rw [e'.2]
  exact (cscCol_inCol h r hb).2

theorem cscOrder_lt (h : Csc leadCol rowCsc numberCols nnz) (r : Int) {k k' : Nat} (hk : k < k')
    (hk' : k' < nnz) :
    let p := cscOrder leadCol rowCsc numberCols nnz r
    let row := cscRow leadCol rowCsc numberCols nnz r
    let col := cscCol leadCol rowCsc numberCols nnz r
    row (p.getD k 0) < row (p.getD k' 0) ∨
      row (p.getD k 0) = row (p.getD k' 0) ∧ col (p.getD k 0) < col (p.getD k' 0) := by
  have hlt := IndexSort.order_lt (n := nnz)
    (before_iff (cscRow leadCol rowCsc numberCols nnz r) (cscCol leadCol rowCsc numberCols nnz r))
    (fun a b ha hb => key_inj h r ha hb) hk hk'
  unfold key at hlt
  rw [Prod.Lex.toLex_lt_toLex] at hlt
  exact hlt

theorem fromCsc_eq (h : Csc leadCol rowCsc numberCols nnz) (r nnzOffset : Int) :
    fromCsc leadCol rowCsc numberCols nnz r nnzOffset =
      let p := cscOrder leadCol rowCsc numberCols nnz r
      { row := fill nnz fun i => cscRow leadCol rowCsc numberCols nnz r (p.getD i 0)
        col := fill nnz fun i => cscCol leadCol rowCsc numberCols nnz r (p.getD i 0)
        cooToCsc := p
        cscToCoo := fill nnz (IndexSort.invert p fun _ => 0)
        nnz := nnz
        nnzOffset := nnzOffset
        nnzMovedRow := (readEntries leadCol rowCsc numberCols r).nnzMovedRow } := by
  have hs := readEntries_read h r
  have hrange : fill nnz (readEntries leadCol rowCsc numberCols r).cooToCsc = List.range nnz := by
    rw [fill_congr (g := id) hs.cooToCsc, fill, List.map_id]
  unfold fromCsc
  simp only [hrange]
  have hl : (cscOrder leadCol rowCsc numberCols nnz r).length = nnz := IndexSort.order_length ..
  rw [IndexSort.invert, hl]
  rfl

/-- Entries with distinct coordinates, read in the order of a permutation that sorts them. -/
theorem sorted_of_order (h : Csc leadCol rowCsc numberCols nnz) {p : List Nat} {R C : Nat → Nat}
    (hp : p.Perm (List.range nnz)) (hR : ∀ i, i < nnz → R i = mapRow r (rowCsc i))
    (hC : ∀ i, i < nnz → C i < numberCols ∧ InCol leadCol (C i) i)
    (hlt : ∀ k k', k < k' → k' < nnz → R (p.getD k 0) < R (p.getD k' 0) ∨
      R (p.getD k 0) = R (p.getD k' 0) ∧ C (p.getD k 0) < C (p.getD k' 0))
    {nnzOffset : Int} {moved : Nat}
    (hmoved : moved = (List.range nnz).countP fun i => (rowCsc i : Int) = r) :
    Sorted leadCol rowCsc numberCols nnz r
      { row := fill nnz fun i => R (p.getD i 0)
        col := fill nnz fun i => C (p.getD i 0)
        cooToCsc := p
        cscToCoo := fill nnz (IndexSort.invert p fun _ => 0)
        nnz := nnz
        nnzOffset := nnzOffset
        nnzMovedRow := moved } := by
  have hlen : p.length = nnz := by rw [hp.length_eq, List.length_range]
  have hnodup : p.Nodup := hp.nodup_iff.mpr List.nodup_range
  have hpk : ∀ k, k < nnz → p.getD k 0 < nnz := by
    intro k hk
    rw [List.getD_eq_getElem _ _ (hk.trans_eq hlen.symm)]
    exact List.mem_range.mp (hp.mem_iff.mp (List.getElem_mem _))
  have hinv : ∀ k, k < nnz → IndexSort.invert p (fun _ => 0) (p.getD k 0) = k := fun k hk =>
    IndexSort.invert_apply hnodup _ (hk.trans_eq hlen.symm)
  have honto : ∀ i, i < nnz → ∃ k, k < nnz ∧ p.getD k 0 = i := by
    intro i hi
    obtain ⟨k, hk, e⟩ := List.getElem_of_mem (hp.mem_iff.mpr (List.mem_range.mpr hi))
    exact ⟨k, hk.trans_eq hlen, (List.getD_eq_getElem _ _ hk).trans e⟩
  -- Rows of the result are counted as the rows of the entries are.
  have hcount : ∀ rowIndex : Int, countRow rowIndex (fill nnz fun i => R (p.getD i 0)) 0 =
      (List.range nnz).countP fun i => (mapRow r (rowCsc i) : Int) = rowIndex := by
    intro rowIndex
    have hrows : (fill nnz fun i => R (p.getD i 0)) = p.map R := by
      refine Eq.trans ?_ (congrArg (List.map R) (fill_raw p))
      rw [fill, fill, List.map_map, hlen]
      rfl
    have hle : (fill nnz fun i => R (p.getD i 0)).Pairwise (· ≤ ·) := by
      rw [List.pairwise_iff_getElem]
      intro k k' hk hk' hkk
      rw [fill_length] at hk'
      simp only [fill, List.getElem_map, List.getElem_range]
      rcases hlt k k' hkk hk' with hr | hr
      · exact hr.le
      · exact hr.1.le
    rw [countRow_eq rowIndex hle, Nat.zero_add, hrows, List.countP_map, hp.countP_eq]
    refine List.countP_congr fun i hi => ?_
    simp [hR i (List.mem_range.mp hi)]
  refine ⟨fill_length .., fill_length .., hlen, fill_length .., ?_, hpk, ?_, ?_, ?_, ?_, ?_, ?_,
    hcount, ?_⟩
  · intro k k' hk hk'
    rw [raw_fill_lt _ (hk.trans hk'), raw_fill_lt _ hk', raw_fill_lt _ (hk.trans hk'),
      raw_fill_lt _ hk']
    exact hlt k k' hk hk'
  · intro i hi
    obtain ⟨k, hk, rfl⟩ := honto i hi
    rw [raw_fill_lt _ hi, hinv k hk]
    exact hk
  · intro k hk
    exact (raw_fill_lt _ (hpk k hk)).trans (hinv k hk)
  · intro i hi
    obtain ⟨k, hk, rfl⟩ := honto i hi
    rw [raw_fill_lt _ hi, hinv k hk]
    rfl
  · intro k hk
    rw [raw_fill_lt _ hk]
    exact hR _ (hpk k hk)
  · intro k hk
    rw [raw_fill_lt _ hk]
    exact hC _ (hpk k hk)
  · intro c i hc hi
    have hin : i < nnz := by
      rw [← h.last]
      exact hi.2.trans_le (h.leadCol_mono hc le_rfl)
    obtain ⟨k, hk, rfl⟩ := honto i hin
    refine ⟨k, ⟨hk, ?_, ?_⟩, ?_⟩
    · rw [raw_fill_lt _ hk]
      exact hR _ (hpk k hk)
    · rw [raw_fill_lt _ hk]
      exact h.inCol_unique (hC _ (hpk k hk)).1 hc (hC _ (hpk k hk)).2 hi
    · rintro k' ⟨hk', hr', hc'⟩
      rw [raw_fill_lt _ hk'] at hr' hc'
      have hr := hR _ (hpk k hk)
      have hc := h.inCol_unique (hC _ (hpk k hk)).1 hc (hC _ (hpk k hk)).2 hi
      rcases Nat.lt_trichotomy k' k with hkk | rfl | hkk
      · have := hlt k' k hkk hk
        omega
      · rfl
      · have := hlt k k' hkk hk'
        omega
  · intro hr
    refine hmoved.trans (Eq.trans ?_ (hcount 0).symm)
    refine List.countP_congr fun i _ => ?_
    simp [mapRow_zero hr]

theorem fromCsc_sorted (h : Csc leadCol rowCsc numberCols nnz) (r nnzOffset : Int) :
    Sorted leadCol rowCsc numberCols nnz r (fromCsc leadCol rowCsc numberCols nnz r nnzOffset) := by
  rw [fromCsc_eq h]
  exact sorted_of_order h (IndexSort.order_perm ..) (fun i hi => cscRow_eq h r hi)
    (fun i hi => cscCol_inCol h r hi) (fun k k' hk hk' => cscOrder_lt h r hk hk')
    (readEntries_read h r).moved

end Sorted

end CscToCoo
end Moo
