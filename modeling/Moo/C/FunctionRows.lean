import Moo.Base.CscToCoo
import Moo.C.Layout

/-!
# C.FunctionRows

Functions by their row: `access_fLg_from_row` counts states, objective, path constraints, as the
compressed columns do; `access_Lfg_from_row` counts the objective first, as the coordinates do once
the row of the objective has been moved to the front.
-/

namespace Moo
namespace C

open GDOP CscToCoo

/-- The layout after an edit through the reference `access_fLg_from_row(layout_lfg, row)`. -/
def accessFLgFromRow (layout : FullSweepLayout) (row : Nat) (edit : FunctionLFG → FunctionLFG) :
    FullSweepLayout :=
  let fSize := layout.f.length
  let LSize := if layout.L.isSome then 1 else 0
  if row < fSize then { layout with f := layout.f.modify row edit }
  else if layout.L.isSome && row == fSize then { layout with L := layout.L.map edit }
  else { layout with g := layout.g.modify (row - fSize - LSize) edit }

/-- The moved row of a function is its row in the other order. -/
theorem accessLfgFromRow_mapRow {layout : FullSweepLayout} (hL : layout.L.isSome) (row : Nat) :
    accessLfgFromRow layout (mapRow layout.f.length row) = accessFLgFromRow layout row := by
  funext edit
  unfold accessLfgFromRow accessFLgFromRow mapRow
  rw [if_neg (show ¬ (layout.f.length : Int) < 0 by omega)]
  simp only [hL, if_true, Bool.true_and, beq_iff_eq, Nat.cast_inj, Nat.cast_lt]
  rcases Nat.lt_trichotomy row layout.f.length with hlt | rfl | hlt
  · have hne : row ≠ layout.f.length := by omega
    simp [hne, hlt]
  · simp
  · have hne : row ≠ layout.f.length := by omega
    have h0 : row ≠ 0 := by omega
    have hle : ¬ row < layout.f.length := by omega
    have hle' : ¬ row < layout.f.length + 1 := by omega
    simp [hne, h0, hle, hle']

/-- The conversion sorts and permutes, and functions keep their rows across it. -/
theorem csc_to_coo {leadCol rowCsc : Nat → Nat} {numberCols nnz : Nat}
    (h : Csc leadCol rowCsc numberCols nnz) (moveToFirstRow nnzOffset : Int) :
    Sorted leadCol rowCsc numberCols nnz moveToFirstRow
      (fromCsc leadCol rowCsc numberCols nnz moveToFirstRow nnzOffset) ∧
    ∀ layout : FullSweepLayout, layout.L.isSome → moveToFirstRow = layout.f.length →
      ∀ row, accessLfgFromRow layout (mapRow moveToFirstRow row) = accessFLgFromRow layout row := by
  refine ⟨fromCsc_sorted h moveToFirstRow nnzOffset, ?_⟩
  rintro layout hL rfl row
  exact accessLfgFromRow_mapRow hL row

/-- Two columns of a matrix with the rows of two states and an objective. -/
theorem twoColumns : Csc (fun c => 2 * c) (fun i => [0, 2, 1, 2].getD i 0) 2 4 where
  first := rfl
  last := rfl
  mono c _ := by omega
  distinct := by
    rintro c i j hc ⟨hi, hi'⟩ ⟨hj, hj'⟩ e
    dsimp only at hi hi' hj hj'
    have all : ∀ i < 4, ∀ j < 4, i / 2 = j / 2 →
        [0, 2, 1, 2].getD i 0 = [0, 2, 1, 2].getD j 0 → i = j := by decide
    exact all i (by omega) j (by omega) (by omega) e

theorem csc_to_coo_twoColumns :
    Sorted (fun c => 2 * c) (fun i => [0, 2, 1, 2].getD i 0) 2 4 2
      (fromCsc (fun c => 2 * c) (fun i => [0, 2, 1, 2].getD i 0) 2 4 2 0) ∧
    accessLfgFromRow (newFullSweepLayout true 2 0) 0 =
      accessFLgFromRow (newFullSweepLayout true 2 0) 2 :=
  ⟨(csc_to_coo twoColumns 2 0).1,
    (csc_to_coo twoColumns 2 0).2 (newFullSweepLayout true 2 0) rfl rfl 2⟩

end C
end Moo
