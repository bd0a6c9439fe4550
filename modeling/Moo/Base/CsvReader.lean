import Moo.Base.CsvNumbers
import Moo.Base.TrajectoryCsv

/-!
# Base.CsvReader

Reading a file that need not have been written by the program.

* `Readable`: a line of the header that says where the time is, or that has a quoted name with a
  bracket behind it. `substr` throws on every other line, comments included.
* `Aligned`: every series has an entry for each row of data, which is not a number where the cell
  is missing, empty or unreadable.
* `readsAligned_iff`: the reader returns with such a content if and only if every line of the header
  is readable. `aligned_of_readCsv`: whenever it returns, the content is aligned.
-/

namespace Moo

open Text

/-- The lines before the first one that does not begin with `#`. -/
def headerPart (lines : List (List Char)) : List (List Char) :=
  lines.takeWhile fun line => line.head? = some '#'

/-- The tag is that of the time, or two quotes and a bracket follow one another. -/
def Readable (line : List Char) : Prop :=
  (word (line.drop 1)).1 = "time:".toList ∨ ['"', '"', '['].Sublist line

instance (line : List Char) : Decidable (Readable line) := inferInstanceAs (Decidable (_ ∨ _))

/-! ## The header -/

section Header

theorem fieldOfLine_isSome {line : List Char} :
    (fieldOfLine line).isSome ↔ ['"', '"', '['].Sublist line := by
  have hline : line = line.drop 0 := rfl
  have hbracket {i : Nat} {nameStart : Nat} (h : find '"' nameStart line = some i) :
      (∃ j, find '[' i line = some j) ↔ ['['].Sublist (line.drop (i + 1)) := by
    have hskip : (['['].Sublist (line.drop i)) ↔ ['['].Sublist (line.drop (i + 1)) := by
      rw [drop_find h, List.singleton_sublist, List.singleton_sublist, List.mem_cons,
        or_iff_right (by decide)]
    rw [← hskip, cons_sublist_iff_find]
    simp
  rw [hline, cons_sublist_iff_find, ← hline]
  unfold fieldOfLine
  cases h0 : find '"' 0 line with
  | none => simp [h0]
  | some a =>
    simp only [Option.elim_some, Option.some.injEq, exists_eq_left', cons_sublist_iff_find
      (c := '"')]
    cases h1 : find '"' (a + 1) line with
    | none => simp
    | some b =>
      simp only [Option.some.injEq, exists_eq_left', ← hbracket h1, Option.bind_eq_bind,
        Option.bind_some]
      cases find '[' b line with
      | none => simp
      | some j => simp

theorem parseSchemaLine_isSome {s : Schema} {line : List Char} :
    (parseSchemaLine s line).isSome ↔ Readable line := by
  unfold parseSchemaLine Readable
  dsimp only
  by_cases h : (word (line.drop 1)).1 = "time:".toList
  · rw [if_pos h]
    exact iff_of_true rfl (.inl h)
  · rw [if_neg h, or_iff_right h, Option.isSome_map, fieldOfLine_isSome]

theorem parseSchema_isSome {s : Schema} {lines : List (List Char)} :
    (parseSchema s lines).isSome ↔ ∀ line ∈ headerPart lines, Readable line := by
  induction lines generalizing s with
  | nil => simp [parseSchema, headerPart]
  | cons line lines ih =>
    unfold parseSchema headerPart
    by_cases h : line.head? = some '#'
    · rw [if_pos h, List.takeWhile_cons_of_pos (by simpa using h), List.forall_mem_cons,
        ← parseSchemaLine_isSome (s := s)]
      cases parseSchemaLine s line with
      | none => simp
      | some s => simpa [headerPart] using ih
    · rw [if_neg h, List.takeWhile_cons_of_neg (by simpa using h)]
      simp

end Header

/-! ## The rows -/

section Rows

variable {K : Type} (F : NumberFormat K)

/-- The cells of the lines that hold data. -/
def dataCells (lines : List (List Char)) : List (List (List Char)) :=
  ((lines.filter fun line => ¬ (line = [] ∨ line.head? = some '#')).map (getlines ',')).filter
    fun cells => cells ≠ []

/-- What the cells of `rows` say, in the columns of the schema. -/
structure Aligned (s : Schema) (rows : List (List (List Char))) (content : CsvContent K) :
    Prop where
  t : content.t = rows.map fun cells => s.time.elim F.nan (cellValue F cells)
  dynamics : ∀ name, Dict.get content.dynamics name =
    (Dict.get s.dyn name).map fun idx => rows.map fun cells => cellValue F cells idx

variable {F} {s : Schema} {rows : List (List (List Char))} {content : CsvContent K}

/-- Every series has as many entries as the time. -/
theorem Aligned.length (h : Aligned F s rows content) (name : List Char) :
    ∀ series ∈ Dict.get content.dynamics name, series.length = content.t.length := by
  intro series hm
  rw [h.dynamics] at hm
  obtain ⟨idx, -, rfl⟩ := List.mem_map.mp hm
  rw [h.t, List.length_map, List.length_map]

theorem Aligned.step (h : Aligned F s rows content) (cells : List (List Char)) :
    Aligned F s (rows ++ [cells]) (readCells F s content cells) where
  t := by rw [readCells, h.t, List.map_append, List.map_singleton]
  dynamics := readCells_dynamics h.dynamics cells

theorem dataCells_cons (line : List Char) (lines : List (List Char)) :
    dataCells (line :: lines) =
      if line = [] ∨ line.head? = some '#' then dataCells lines
      else if getlines ',' line = [] then dataCells lines
      else getlines ',' line :: dataCells lines := by
  unfold dataCells
  by_cases hskip : line = [] ∨ line.head? = some '#'
  · rw [if_pos hskip, List.filter_cons_of_neg (by rw [decide_eq_true_eq, not_not]; exact hskip)]
  · rw [if_neg hskip, List.filter_cons_of_pos (by simpa using hskip), List.map_cons]
    by_cases hempty : getlines ',' line = []
    · rw [if_pos hempty, List.filter_cons_of_neg (by simpa using hempty)]
    · rw [if_neg hempty, List.filter_cons_of_pos (by simpa using hempty)]

theorem Aligned.run (h : Aligned F s rows content) (lines : List (List Char)) :
    Aligned F s (rows ++ dataCells lines) (lines.foldl (readLine F s) content) := by
  induction lines generalizing rows content with
  | nil => simpa [dataCells] using h
  | cons line lines ih =>
    rw [List.foldl_cons, dataCells_cons, readLine]
    by_cases hskip : line = [] ∨ line.head? = some '#'
    · rw [if_pos hskip, if_pos hskip]
      exact ih h
    · rw [if_neg hskip, if_neg hskip]
      dsimp only
      by_cases hempty : getlines ',' line = []
      · rw [if_pos hempty, if_pos hempty]
        exact ih h
      · rw [if_neg hempty, if_neg hempty, List.append_cons]
        exact ih (h.step _)

theorem aligned_resize : Aligned F s [] (resizeFields s) :=
  ⟨readUpTo_resize.t, readUpTo_resize.dynamics⟩

theorem aligned_empty : Aligned F {} [] ({} : CsvContent K) := ⟨rfl, fun _ => rfl⟩

end Rows

/-! ## Any file -/

section Files

variable {K : Type} {F : NumberFormat K} {s : Schema} {file : List Char}
variable {lines : List (List Char)} {content : CsvContent K}

/-- The columns that are read, where `lines` are those behind the schema. -/
def columnsOf (s : Schema) (lines : List (List Char)) : Schema :=
  if lines.head? = some [] then {}
  else if s.hasSchema then s else schemaOfNames (lines.head?.getD [])

def rowsOf (lines : List (List Char)) : List (List (List Char)) :=
  if lines.head? = some [] then [] else dataCells lines.tail

/-- The reader returns, and each column has the cell of each row. -/
def ReadsAligned (F : NumberFormat K) (file : List Char) : Prop :=
  ∃ content s lines, readCsv F file = some content ∧
    parseSchema {} (getlines '\n' file) = some (s, lines) ∧
    Aligned F (columnsOf s lines) (rowsOf lines) content ∧
    ∀ name, ∀ series ∈ Dict.get content.dynamics name, series.length = content.t.length

theorem aligned_of_readCsv (hs : parseSchema {} (getlines '\n' file) = some (s, lines))
    (h : readCsv F file = some content) :
    Aligned F (columnsOf s lines) (rowsOf lines) content := by
  have hends : (lines.head?.getD [] = [] ∧ lines ≠ []) ↔ lines.head? = some [] := by
    cases lines <;> simp
  unfold readCsv at h
  rw [hs, Option.map_some] at h
  cases h
  simp only [hends]
  unfold columnsOf rowsOf
  by_cases he : lines.head? = some []
  · rw [if_pos he, if_pos he, if_pos he]
    exact aligned_empty
  · rw [if_neg he, if_neg he, if_neg he]
    simpa using aligned_resize.run lines.tail

/-- The reader returns if and only if the lines of the header are readable; whatever else the file
has, the series are aligned. -/
theorem readsAligned_iff :
    ReadsAligned F file ↔ ∀ line ∈ headerPart (getlines '\n' file), Readable line := by
  rw [← parseSchema_isSome (s := {})]
  constructor
  · rintro ⟨_, s, lines, -, hs, -, -⟩
    rw [hs, Option.isSome_some]
  · intro h
    obtain ⟨⟨s, lines⟩, hs⟩ := Option.isSome_iff_exists.mp h
    have hread : (readCsv F file).isSome := by
      rw [readCsv, hs, Option.map_some, Option.isSome_some]
    obtain ⟨content, hcontent⟩ := Option.isSome_iff_exists.mp hread
    have haligned := aligned_of_readCsv hs hcontent
    exact ⟨content, s, lines, hcontent, hs, haligned, haligned.length⟩

/-- A comment, the name of the time and a row. -/
def commentFirst : List Char := "# a comment\ntime\n0\n".toList

/-- The comment has no bracket: `substr` throws. -/
theorem readCsv_comment :
    readCsv csvNumbers commentFirst = none ∧ ¬ ReadsAligned csvNumbers commentFirst := by
  have hschema : parseSchema {} (getlines '\n' commentFirst) = none := by decide +kernel
  refine ⟨by rw [readCsv, hschema, Option.map_none], ?_⟩
  rintro ⟨_, _, _, -, hs, -, -⟩
  rw [hschema] at hs
  cases hs

end Files

end Moo
