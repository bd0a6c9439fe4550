import Moo.Base.ControlTrajectory
import Moo.Lib.Checked
import Moo.Lib.Text

/-!
# Base.Csv

Trajectories as CSV files with a schema, written and read back.

* `writeCsv`, `readCsv`: the content of the file, character for character. A schema line names a
  field and the columns it has; static values stand in the first row of data only.
* `NumberFormat`: how numbers are printed and parsed. `NumberFormat.Token`: a number that parses to
  itself, with a text that is one cell of a row.
* `read_write`: every field is read back, for any fields with names of their own.

A size (`size_t`) is a `Nat`; `std::stoul` has its range. Writing and reading succeed for a file
that can be opened.
-/

namespace Moo

open FixedVector Text

/-- Printing with all digits, `std::stod` (`none` where it throws) and the value without one. -/
structure NumberFormat (K : Type) where
  print : K → List Char
  stod : List Char → Option K
  nan : K

structure NumberFormat.Token {K : Type} (F : NumberFormat K) (k : K) : Prop where
  stod_print : F.stod (F.print k) = some k
  nonempty : F.print k ≠ []
  comma : ',' ∉ F.print k
  newline : '\n' ∉ F.print k
  hash : (F.print k).head? ≠ some '#'

structure DynamicField (K : Type) where
  name : List Char
  data : List (List K)

structure StaticField (K : Type) where
  name : List Char
  data : List K

/-! ## Writing -/

section Write

variable {K : Type} [Zero K] (F : NumberFormat K)

/-- The columns of a field, with commas between them. -/
def columnIndices (colIndex dim : Nat) : List Char :=
  (List.range dim).flatMap fun varIdx =>
    Nat.toDigits 10 (colIndex + varIdx) ++ if varIdx + 1 < dim then [','] else []

def schemaLine (tag name : List Char) (colIndex dim : Nat) : List Char :=
  "# ".toList ++ tag ++ " \"".toList ++ name ++ "\", [".toList ++ columnIndices colIndex dim ++
    "]".toList

/-- The schema lines of fields with these names and dimensions, from column `colIndex` on. -/
def schemaLines (tag : List Char) : Nat → List (List Char × Nat) → List (List Char)
  | _, [] => []
  | colIndex, (name, dim) :: fields =>
    schemaLine tag name colIndex dim :: schemaLines tag (colIndex + dim) fields

def columnNames (fields : List (List Char × Nat)) : List Char :=
  fields.flatMap fun field => (List.range field.2).flatMap fun varIdx =>
    ',' :: field.1 ++ "_".toList ++ Nat.toDigits 10 varIdx

def dataRow (t : List K) (dynamics : List (DynamicField K)) (statics : List (StaticField K))
    (writeHeader : Bool) (tIdx : Nat) : List Char :=
  F.print (raw t tIdx) ++
    dynamics.flatMap (fun dyn => dyn.data.flatMap fun series => ',' :: F.print (raw series tIdx)) ++
    if tIdx = 0 ∨ writeHeader = false then
      statics.flatMap fun st => st.data.flatMap fun val => ',' :: F.print val
    else []

/-- The names and dimensions of the fields. -/
def dynamicColumns (dynamics : List (DynamicField K)) : List (List Char × Nat) :=
  dynamics.map fun dyn => (dyn.name, dyn.data.length)

def staticColumns (statics : List (StaticField K)) : List (List Char × Nat) :=
  statics.map fun st => (st.name, st.data.length)

def headerLines (dynamics : List (DynamicField K)) (statics : List (StaticField K)) :
    List (List Char) :=
  ("# time: ".toList ++ Nat.toDigits 10 0) ::
    (schemaLines "dynamic:".toList 1 (dynamicColumns dynamics) ++
      schemaLines "static:".toList (1 + ((dynamicColumns dynamics).map Prod.snd).sum)
        (staticColumns statics))

def nameRow (dynamics : List (DynamicField K)) (statics : List (StaticField K)) : List Char :=
  "time".toList ++ columnNames (dynamicColumns dynamics) ++ columnNames (staticColumns statics)

/-- `write_csv`: the content of the file. -/
def writeCsv (t : List K) (dynamics : List (DynamicField K)) (statics : List (StaticField K))
    (writeHeader : Bool) : List Char :=
  ((if writeHeader then headerLines dynamics statics else []) ++ nameRow dynamics statics ::
    (List.range t.length).map (dataRow F t dynamics statics writeHeader)).flatMap
      fun line => line ++ ['\n']

end Write

/-! ## Reading -/

/-- `parse_schema_indices`. An index that is no number empties the list. -/
def parseSchemaIndices (colblockStr : List Char) : List Nat :=
  let colblock := colblockStr.filter fun c => c != ' '
  match find '[' 0 colblock, find ']' 0 colblock with
  | some l, some r =>
    let inside := (colblock.drop (l + 1)).take (sizeSub r (l + 1))
    ((getlines ',' inside).mapM stoul).getD []
  | _, _ => []

/-- The column of the time and the columns of each field. The order of the keys of a map has no
effect. -/
structure Schema where
  hasSchema : Bool := false
  time : Option Nat := none
  dyn : AList (fun _ : List Char => List Nat) := ∅
  stat : AList (fun _ : List Char => List Nat) := ∅

/-- The name of a schema line and its brackets. `substr` throws where there is no bracket behind the
name. -/
def fieldOfLine (line : List Char) : Option (List Char × List Char) := do
  let nameStart := (find '"' 0 line).elim 0 fun i => i + 1
  let nameEnd ← find '"' nameStart line
  let fieldName := (line.drop nameStart).take (nameEnd - nameStart)
  let indicesStart ← find '[' nameEnd line
  let indicesStr := (find ']' indicesStart line).elim (line.drop indicesStart) fun indicesEnd =>
    (line.drop indicesStart).take (indicesEnd - indicesStart + 1)
  some (fieldName, indicesStr)

/-- A line that begins with `#`. -/
def parseSchemaLine (s : Schema) (line : List Char) : Option Schema :=
  let s := { s with hasSchema := true }
  let (tag, strs) := word (line.drop 1)
  if tag = "time:".toList then some { s with time := extract s.time strs }
  else
    (fieldOfLine line).map fun (fieldName, indicesStr) =>
      if tag = "dynamic:".toList then
        { s with dyn := s.dyn.insert fieldName (parseSchemaIndices indicesStr) }
      else if tag = "static:".toList then
        { s with stat := s.stat.insert fieldName (parseSchemaIndices indicesStr) }
      else s

/-- The schema, and the lines from the first one that does not begin with `#`. -/
def parseSchema : Schema → List (List Char) → Option (Schema × List (List Char))
  | s, [] => some (s, [])
  | s, line :: lines =>
    if line.head? = some '#' then (parseSchemaLine s line).bind fun s => parseSchema s lines
    else some (s, line :: lines)

/-- Without a schema: the time, and a dynamic field for each base name of a column. -/
def schemaOfNames (line : List Char) : Schema :=
  ((getlines ',' line).zipIdx).foldl (fun s (cell, colIdx) =>
    let cell := cell.filter fun c => !isSpace c
    if cell = "time".toList then { s with time := some colIdx }
    else
      match rfind '_' cell with
      | some underscore =>
        { s with dyn := Dict.update (cell.take underscore) (fun cols => cols ++ [colIdx]) s.dyn }
      | none => s) {}

structure CsvContent (K : Type) where
  t : List K := []
  dynamics : AList (fun _ : List Char => List (List K)) := ∅
  statics : AList (fun _ : List Char => List K) := ∅
  statRead : Bool := false

section Read

variable {K : Type} (F : NumberFormat K)

def cellValue (cells : List (List Char)) (idx : Nat) : K :=
  match cells[idx]? with
  | some cell => if cell = [] then F.nan else (F.stod cell).getD F.nan
  | none => F.nan

/-- One more entry for each series of a field. -/
def pushRow (cells : List (List Char)) (indices : List Nat) (series : List (List K)) :
    List (List K) :=
  List.zipWith (fun idx rowData => rowData ++ [cellValue F cells idx]) indices series

def readCells (s : Schema) (content : CsvContent K) (cells : List (List Char)) : CsvContent K :=
  let statics :=
    if s.hasSchema && !content.statRead then
      s.stat.entries.foldl (fun m kv =>
        kv.2.foldl (fun m idx => Dict.update kv.1 (fun v => v ++ [cellValue F cells idx]) m) m)
        content.statics
    else content.statics
  { t := content.t ++ [s.time.elim F.nan (cellValue F cells)]
    dynamics := s.dyn.entries.foldl (fun m kv => Dict.update kv.1 (pushRow F cells kv.2) m)
      content.dynamics
    statics
    statRead := content.statRead || s.hasSchema }

def readLine (s : Schema) (content : CsvContent K) (line : List Char) : CsvContent K :=
  if line = [] ∨ line.head? = some '#' then content
  else
    let cells := getlines ',' line
    if cells = [] then content else readCells F s content cells

/-- The series of all fields, empty. -/
def resizeFields (s : Schema) : CsvContent K :=
  { dynamics := s.dyn.entries.foldl (fun m kv =>
      Dict.update kv.1 (fun _ => List.replicate kv.2.length []) m) ∅ }

/-- `read_csv`, into empty maps. The line behind the schema is skipped; an empty one there ends the
reading. -/
def readCsv (file : List Char) : Option (CsvContent K) :=
  (parseSchema {} (getlines '\n' file)).map fun (s, lines) =>
    let names := lines.head?.getD []
    if names = [] ∧ lines ≠ [] then {}
    else
      let s := if s.hasSchema then s else schemaOfNames names
      lines.tail.foldl (readLine F s) (resizeFields s)

end Read

/-! ## Schema lines -/

section Lines

variable (colIndex dim : Nat)

theorem columnIndices_succ : columnIndices colIndex (dim + 1) = Nat.toDigits 10 colIndex ++
    if dim = 0 then [] else ',' :: columnIndices (colIndex + 1) dim := by
  unfold columnIndices
  rw [List.range_succ_eq_map, List.flatMap_cons, List.flatMap_map, Nat.add_zero, List.append_assoc]
  congr 1
  cases dim with
  | zero => rfl
  | succ dim =>
    rw [if_pos (by omega), if_neg (Nat.succ_ne_zero dim), List.singleton_append]
    congr 1
    refine List.flatMap_congr fun varIdx _ => ?_
    rw [show colIndex + varIdx.succ = colIndex + 1 + varIdx by omega]
    congr 1
    exact if_congr (by omega) rfl rfl

theorem columnIndices_eq : columnIndices colIndex (dim + 1) = Nat.toDigits 10 colIndex ++
    ((List.range' (colIndex + 1) dim).map (Nat.toDigits 10)).flatMap fun idx => ',' :: idx := by
  induction dim generalizing colIndex with
  | zero => simp [columnIndices]
  | succ dim ih =>
    rw [columnIndices_succ, if_neg (Nat.succ_ne_zero dim), ih, List.range'_succ, List.map_cons,
      List.flatMap_cons, List.cons_append]

theorem getlines_columnIndices : getlines ',' (columnIndices colIndex dim) =
    (List.range' colIndex dim).map (Nat.toDigits 10) := by
  cases dim with
  | zero => rfl
  | succ dim =>
    have hcells : (List.range' colIndex (dim + 1)).map (Nat.toDigits 10) =
        Nat.toDigits 10 colIndex :: (List.range' (colIndex + 1) dim).map (Nat.toDigits 10) := by
      rw [List.range'_succ, List.map_cons]
    rw [columnIndices_eq, hcells]
    refine getlines_separated (fun c hc => ?_) (fun c hc => ?_) <;> rw [← hcells] at hc <;>
      obtain ⟨idx, -, rfl⟩ := List.mem_map.mp hc
    · exact notMem_toDigits (by decide) _
    · exact Nat.toDigits_ne_nil

theorem notMem_columnIndices {c : Char} (hc : c.isDigit = false) (hcomma : c ≠ ',') :
    c ∉ columnIndices colIndex dim := by
  intro h
  obtain ⟨varIdx, -, h⟩ := List.mem_flatMap.mp h
  rcases List.mem_append.mp h with h | h
  · exact notMem_toDigits hc _ h
  · split at h
    · exact hcomma (List.mem_singleton.mp h)
    · cases h

/-- The columns of a field are read back. -/
theorem parseSchemaIndices_columnIndices (hfit : colIndex + dim ≤ 2 ^ 64) :
    parseSchemaIndices ('[' :: columnIndices colIndex dim ++ [']']) =
      List.range' colIndex dim := by
  have hspace : ('[' :: columnIndices colIndex dim ++ [']']).filter (fun c => c != ' ') =
      '[' :: columnIndices colIndex dim ++ [']'] := by
    refine List.filter_eq_self.mpr fun c hc => ?_
    rw [bne_iff_ne]
    rintro rfl
    simp only [List.cons_append, List.mem_cons, List.mem_append, List.not_mem_nil, or_false] at hc
    rcases hc with hc | hc | hc
    · exact absurd hc (by decide)
    · exact notMem_columnIndices colIndex dim (by decide) (by decide) hc
    · exact absurd hc (by decide)
  have hl : find '[' 0 ('[' :: columnIndices colIndex dim ++ [']']) = some 0 :=
    find_eq (l := []) rfl (by simp)
  have hr : find ']' 0 ('[' :: columnIndices colIndex dim ++ [']']) =
      some (0 + ('[' :: columnIndices colIndex dim).length) :=
    find_eq rfl (by simpa using notMem_columnIndices colIndex dim (by decide) (by decide))
  have hinside : ((('[' :: columnIndices colIndex dim) ++ [']']).drop (0 + 1)).take
      (sizeSub (0 + ('[' :: columnIndices colIndex dim).length) (0 + 1)) =
        columnIndices colIndex dim := by
    simp [sizeSub]
  have hnumbers : (List.range' colIndex dim).mapM (stoul ∘ Nat.toDigits 10) =
      some ((List.range' colIndex dim).map id) := by
    refine Checked.mapM_eq fun idx hidx => stoul_toDigits ?_
    have hlt := (List.mem_range'_1.mp hidx).2
    omega
  unfold parseSchemaIndices
  dsimp only
  rw [hspace, hl, hr]
  dsimp only
  rw [hinside, getlines_columnIndices, List.mapM_map, hnumbers, List.map_id, Option.getD_some]

example : parseSchemaIndices "[-0, 2]".toList = [0, 2] ∧
    parseSchemaIndices "[1,18446744073709551616]".toList = [] := by decide +kernel

/-- A tag is one word, without quotes. -/
structure Tag (tag : List Char) : Prop where
  nonempty : tag ≠ []
  space : tag.all (fun c => !isSpace c) = true
  quote : '"' ∉ tag

theorem tag_dynamic : Tag "dynamic:".toList := ⟨by decide, by decide, by decide⟩
theorem tag_static : Tag "static:".toList := ⟨by decide, by decide, by decide⟩

variable {tag name : List Char}

example : schemaLine "dynamic:".toList "x".toList 1 2 = "# dynamic: \"x\", [1,2]".toList := by
  decide +kernel

/-- A schema line: the tag, the quoted name and the brackets. -/
theorem schemaLine_eq : schemaLine tag name colIndex dim = ('#' :: ' ' :: tag ++ [' ']) ++ '"' ::
    (name ++ (['"', ',', ' '] ++ ('[' :: columnIndices colIndex dim ++ [']']))) := by
  unfold schemaLine
  simp

theorem schemaLine_head : (schemaLine tag name colIndex dim).head? = some '#' := by
  rw [schemaLine_eq]
  rfl

theorem word_schemaLine (ht : Tag tag) :
    (word ((schemaLine tag name colIndex dim).drop 1)).1 = tag := by
  have hline : (schemaLine tag name colIndex dim).drop 1 = ' ' :: (tag ++ ' ' :: ('"' ::
      (name ++ (['"', ',', ' '] ++ ('[' :: columnIndices colIndex dim ++ [']']))))) := by
    simp [schemaLine_eq]
  rw [hline, word_eq ht.nonempty ht.space]

/-- The name and the brackets are found in a schema line. -/
theorem fieldOfLine_schemaLine (ht : Tag tag) (hname : '"' ∉ name) :
    fieldOfLine (schemaLine tag name colIndex dim) =
      some (name, '[' :: columnIndices colIndex dim ++ [']']) := by
  have hline : schemaLine tag name colIndex dim = _ := schemaLine_eq colIndex dim
  generalize schemaLine tag name colIndex dim = line at hline
  -- the line behind the quote, behind the name, and from the bracket
  have hn : line.drop (tag.length + 3 + 1) =
      name ++ (['"', ',', ' '] ++ ('[' :: columnIndices colIndex dim ++ [']'])) := by
    rw [hline, ← List.drop_drop, List.drop_left' (by simp), List.drop_one, List.tail_cons]
  have hb : line.drop (tag.length + 3 + 1 + name.length) =
      ['"', ',', ' '] ++ ('[' :: columnIndices colIndex dim ++ [']']) := by
    rw [← List.drop_drop, hn, List.drop_left]
  have hi : line.drop (tag.length + 3 + 1 + name.length + 3) =
      '[' :: columnIndices colIndex dim ++ [']'] := by
    rw [← List.drop_drop, hb]
    rfl
  have hstart : find '"' 0 line = some (tag.length + 3) := by
    have hdrop : line.drop 0 = ('#' :: ' ' :: tag ++ [' ']) ++ '"' :: (name ++
        (['"', ',', ' '] ++ ('[' :: columnIndices colIndex dim ++ [']']))) := hline
    rw [find_eq hdrop (by simpa using ht.quote)]
    simp
  have hend : find '"' (tag.length + 3 + 1) line = some (tag.length + 3 + 1 + name.length) :=
    find_eq hn hname
  have hopen : find '[' (tag.length + 3 + 1 + name.length) line =
      some (tag.length + 3 + 1 + name.length + 3) :=
    find_eq (l := ['"', ',', ' ']) hb (by decide)
  have hclose : find ']' (tag.length + 3 + 1 + name.length + 3) line =
      some (tag.length + 3 + 1 + name.length + 3 + ('[' :: columnIndices colIndex dim).length) :=
    find_eq hi (by simpa using notMem_columnIndices colIndex dim (by decide) (by decide))
  unfold fieldOfLine
  simp only [hstart, Option.elim_some, hend, hopen, hclose, Option.bind_eq_bind, Option.bind_some,
    hn, hi, Nat.add_sub_cancel_left, List.take_left]
  rw [List.take_of_length_le (by simp)]

theorem parseSchemaLine_dynamic (s : Schema) (hname : '"' ∉ name)
    (hfit : colIndex + dim ≤ 2 ^ 64) :
    parseSchemaLine s (schemaLine "dynamic:".toList name colIndex dim) =
      some { s with hasSchema := true, dyn := s.dyn.insert name (List.range' colIndex dim) } := by
  have hword : (word ((schemaLine "dynamic:".toList name colIndex dim).drop 1)).1 =
      "dynamic:".toList := word_schemaLine _ _ tag_dynamic
  unfold parseSchemaLine
  dsimp only
  rw [hword, fieldOfLine_schemaLine _ _ tag_dynamic hname, if_neg (by decide), Option.map_some,
    if_pos rfl, parseSchemaIndices_columnIndices _ _ hfit]

theorem parseSchemaLine_static (s : Schema) (hname : '"' ∉ name)
    (hfit : colIndex + dim ≤ 2 ^ 64) :
    parseSchemaLine s (schemaLine "static:".toList name colIndex dim) =
      some { s with hasSchema := true, stat := s.stat.insert name (List.range' colIndex dim) } := by
  have hword : (word ((schemaLine "static:".toList name colIndex dim).drop 1)).1 =
      "static:".toList := word_schemaLine _ _ tag_static
  unfold parseSchemaLine
  dsimp only
  rw [hword, fieldOfLine_schemaLine _ _ tag_static hname, if_neg (by decide), Option.map_some,
    if_neg (by decide), if_pos rfl, parseSchemaIndices_columnIndices _ _ hfit]

end Lines

/-- The schema with these fields added, from column `colIndex` on. -/
def declareFields : Nat → List (List Char × Nat) → AList (fun _ : List Char => List Nat) →
    AList (fun _ : List Char => List Nat)
  | _, [], m => m
  | colIndex, (name, dim) :: fields, m =>
    declareFields (colIndex + dim) fields (m.insert name (List.range' colIndex dim))

section Schema

variable {time : Option Nat} {dyn stat : AList fun _ : List Char => List Nat}
variable {fields : List (List Char × Nat)} (hfields : ∀ field ∈ fields, '"' ∉ field.1)
variable (rest : List (List Char))

include hfields

theorem parseSchema_dynamics (colIndex : Nat)
    (hfit : colIndex + (fields.map Prod.snd).sum ≤ 2 ^ 64) :
    parseSchema ⟨true, time, dyn, stat⟩ (schemaLines "dynamic:".toList colIndex fields ++ rest) =
      parseSchema ⟨true, time, declareFields colIndex fields dyn, stat⟩ rest := by
  induction fields generalizing colIndex dyn with
  | nil => rfl
  | cons field fields ih =>
    obtain ⟨name, dim⟩ := field
    rw [List.map_cons, List.sum_cons] at hfit
    rw [schemaLines, List.cons_append, parseSchema, if_pos (schemaLine_head ..),
      parseSchemaLine_dynamic _ _ _ (hfields _ List.mem_cons_self) (by omega), Option.bind_some,
      ih (fun field hf => hfields field (List.mem_cons_of_mem _ hf)) _ (by omega), declareFields]

theorem parseSchema_statics (colIndex : Nat)
    (hfit : colIndex + (fields.map Prod.snd).sum ≤ 2 ^ 64) :
    parseSchema ⟨true, time, dyn, stat⟩ (schemaLines "static:".toList colIndex fields ++ rest) =
      parseSchema ⟨true, time, dyn, declareFields colIndex fields stat⟩ rest := by
  induction fields generalizing colIndex stat with
  | nil => rfl
  | cons field fields ih =>
    obtain ⟨name, dim⟩ := field
    rw [List.map_cons, List.sum_cons] at hfit
    rw [schemaLines, List.cons_append, parseSchema, if_pos (schemaLine_head ..),
      parseSchemaLine_static _ _ _ (hfields _ List.mem_cons_self) (by omega), Option.bind_some,
      ih (fun field hf => hfields field (List.mem_cons_of_mem _ hf)) _ (by omega), declareFields]

omit hfields

theorem parseSchemaLine_time :
    parseSchemaLine {} ("# time: ".toList ++ Nat.toDigits 10 0) = some ⟨true, some 0, ∅, ∅⟩ := rfl

theorem get_declareFields_of_notMem {colIndex : Nat} {name : List Char}
    (h : name ∉ fields.map Prod.fst) :
    Dict.get (declareFields colIndex fields dyn) name = Dict.get dyn name := by
  induction fields generalizing colIndex dyn with
  | nil => rfl
  | cons field fields ih =>
    rw [List.map_cons, List.mem_cons, not_or] at h
    rw [declareFields, ih h.2, Dict.get_insert_of_ne _ h.1]

end Schema

/-! ## Rows -/

section Rows

variable {K : Type} (F : NumberFormat K)

/-- The cells of printed numbers. -/
theorem cellValue_print {vals : List K} (h : ∀ v ∈ vals, F.Token v) (idx : Nat) :
    cellValue F (vals.map F.print) idx = vals.getD idx F.nan := by
  rw [cellValue, List.getElem?_map, List.getD_eq_getElem?_getD]
  cases hv : vals[idx]? with
  | none => rfl
  | some v =>
    have htoken := h v (List.mem_of_getElem? hv)
    simp only [Option.map_some, if_neg htoken.nonempty, htoken.stod_print, Option.getD_some]

/-- A field at its columns. -/
theorem block_values (a b c : List K) (nan : K) :
    (List.range' a.length b.length).map (fun idx => (a ++ (b ++ c)).getD idx nan) = b := by
  refine List.ext_getElem (by simp) fun v h1 h2 => ?_
  simp only [List.getElem_map, List.getElem_range', Nat.one_mul]
  rw [List.getD_append_right _ _ _ _ (Nat.le_add_right _ _), Nat.add_sub_cancel_left,
    List.getD_append _ _ _ _ h2, List.getD_eq_getElem _ _ h2]

/-- The columns of a field in the schema, where the fields stand one behind the other in a row. -/
theorem declareFields_values (nan : K) (blocks : List (List Char × List K))
    (hn : (blocks.map Prod.fst).Nodup) (a c : List K) (m : AList fun _ : List Char => List Nat) :
    ∀ block ∈ blocks,
      (Dict.get (declareFields a.length (blocks.map fun block => (block.1, block.2.length)) m)
        block.1).map (fun idx => (a ++ (blocks.flatMap Prod.snd ++ c)).getD idx nan) = block.2 := by
  induction blocks generalizing a m with
  | nil => simp
  | cons first blocks ih =>
    obtain ⟨hnotin, hn⟩ := List.nodup_cons.mp hn
    intro block hmem
    have hblocks : a ++ ((first :: blocks).flatMap Prod.snd ++ c) =
        (a ++ first.2) ++ (blocks.flatMap Prod.snd ++ c) := by
      simp
    rw [List.map_cons, declareFields]
    rcases List.mem_cons.mp hmem with rfl | hmem
    · rw [get_declareFields_of_notMem (by simpa using hnotin), Dict.get_insert,
        List.flatMap_cons, List.append_assoc]
      exact block_values a _ _ nan
    · rw [hblocks, ← List.length_append]
      exact ih hn (a ++ first.2) _ block hmem

variable {F} {s : Schema}

/-- What has been read of the rows so far. -/
structure ReadUpTo (F : NumberFormat K) (s : Schema) (rows : List (List (List Char)))
    (content : CsvContent K) : Prop where
  t : content.t = rows.map fun cells => s.time.elim F.nan (cellValue F cells)
  dynamics : ∀ name, Dict.get content.dynamics name =
    (Dict.get s.dyn name).map fun idx => rows.map fun cells => cellValue F cells idx
  statics : ∀ name, Dict.get content.statics name =
    rows.head?.elim [] fun cells => (Dict.get s.stat name).map (cellValue F cells)
  statRead : content.statRead = rows.head?.isSome

theorem readUpTo_resize : ReadUpTo F s [] (resizeFields s) := by
  refine ⟨rfl, fun name => ?_, fun name => rfl, rfl⟩
  rw [resizeFields, Dict.get_foldl _ s.dyn (f := fun indices _ => List.replicate indices.length [])
    (fun m kv => Dict.get_update ..) fun m kv k hk => Dict.get_update_of_ne _ hk _]
  unfold Dict.get
  cases s.dyn.lookup name with
  | none => rfl
  | some indices => simp

/-- The statics loop over the columns of one field. -/
theorem get_pushStatics (cells : List (List Char)) (name name' : List Char) (indices : List Nat)
    (m : AList fun _ : List Char => List K) :
    Dict.get (indices.foldl (fun m idx =>
        Dict.update name (fun v => v ++ [cellValue F cells idx]) m) m) name' =
      if name' = name then Dict.get m name ++ indices.map (cellValue F cells)
      else Dict.get m name' := by
  induction indices generalizing m with
  | nil => split <;> simp_all
  | cons idx indices ih =>
    rw [List.foldl_cons, ih]
    split
    · simp
    · rename_i hne
      rw [Dict.get_update_of_ne _ hne]

/-- One more row for every dynamic field. -/
theorem readCells_dynamics {rows : List (List (List Char))} {content : CsvContent K}
    (h : ∀ name, Dict.get content.dynamics name =
      (Dict.get s.dyn name).map fun idx => rows.map fun cells => cellValue F cells idx)
    (cells : List (List Char)) (name : List Char) :
    Dict.get (readCells F s content cells).dynamics name =
      (Dict.get s.dyn name).map fun idx => (rows ++ [cells]).map fun cells =>
        cellValue F cells idx := by
  have hloop := Dict.get_foldl content.dynamics s.dyn (f := pushRow F cells)
    (fun m kv => Dict.get_update ..) (fun m kv k hk => Dict.get_update_of_ne _ hk _) name
  rw [readCells, hloop, h name, Dict.get]
  cases s.dyn.lookup name with
  | none => rfl
  | some indices =>
    simp [pushRow, List.zipWith_map_right, List.zipWith_self]

theorem readUpTo_step (hs : s.hasSchema = true) {rows : List (List (List Char))}
    {content : CsvContent K} (h : ReadUpTo F s rows content) (cells : List (List Char)) :
    ReadUpTo F s (rows ++ [cells]) (readCells F s content cells) := by
  refine ⟨?_, readCells_dynamics h.dynamics cells, fun name => ?_, ?_⟩
  · rw [readCells, h.t, List.map_append, List.map_singleton]
  · rw [readCells, hs, h.statRead]
    cases rows with
    | nil =>
      have hloop := Dict.get_foldl content.statics s.stat
        (f := fun indices v => v ++ indices.map (cellValue F cells))
        (fun m kv => (get_pushStatics cells kv.1 kv.1 kv.2 m).trans (if_pos rfl))
        (fun m kv k hk => (get_pushStatics cells kv.1 k kv.2 m).trans (if_neg hk)) name
      have hempty : Dict.get content.statics name = [] := h.statics name
      simp only [List.head?_nil, Option.isSome_none, Bool.not_false, Bool.true_and, if_true,
        List.nil_append, List.head?_cons, Option.elim_some]
      rw [hloop, hempty]
      unfold Dict.get
      cases s.stat.lookup name with
      | none => rfl
      | some indices => simp
    | cons first rows =>
      simpa using h.statics name
  · rw [readCells, hs, Bool.or_true]
    cases rows <;> simp

theorem readUpTo_run (hs : s.hasSchema = true) (rows : List (List (List Char))) :
    ReadUpTo F s rows (rows.foldl (readCells F s) (resizeFields s)) := by
  induction rows using List.reverseRecOn with
  | nil => exact readUpTo_resize
  | append_singleton rows cells ih =>
    rw [List.foldl_append, List.foldl_cons, List.foldl_nil]
    exact readUpTo_step hs ih cells

end Rows

/-! ## Files -/

section Files

variable {K : Type} [Zero K]

/-- The numbers of a row, behind the time. -/
def fieldValues (dynamics : List (DynamicField K)) (statics : List (StaticField K)) (tIdx : Nat) :
    List K :=
  (dynamics.flatMap fun dyn => dyn.data.map fun series => raw series tIdx) ++
    if tIdx = 0 then statics.flatMap fun st => st.data else []

/-- What can be written: at least one time point, series of its length, numbers that are tokens,
names of their own that can be quoted in a line, and columns that a `size_t` numbers. -/
structure Writable (F : NumberFormat K) (t : List K) (dynamics : List (DynamicField K))
    (statics : List (StaticField K)) : Prop where
  nonempty : t ≠ []
  lengths : ∀ dyn ∈ dynamics, ∀ series ∈ dyn.data, series.length = t.length
  time : ∀ v ∈ t, F.Token v
  series : ∀ dyn ∈ dynamics, ∀ series ∈ dyn.data, ∀ v ∈ series, F.Token v
  values : ∀ st ∈ statics, ∀ v ∈ st.data, F.Token v
  dynamicNames : (dynamics.map fun dyn => dyn.name).Nodup
  staticNames : (statics.map fun st => st.name).Nodup
  dynamicText : ∀ dyn ∈ dynamics, '"' ∉ dyn.name ∧ '\n' ∉ dyn.name
  staticText : ∀ st ∈ statics, '"' ∉ st.name ∧ '\n' ∉ st.name
  columns : 1 + ((dynamicColumns dynamics).map Prod.snd).sum +
    ((staticColumns statics).map Prod.snd).sum ≤ 2 ^ 64

variable {F : NumberFormat K} {t : List K} {dynamics : List (DynamicField K)}
variable {statics : List (StaticField K)}

theorem dataRow_eq (tIdx : Nat) : dataRow F t dynamics statics true tIdx =
    F.print (raw t tIdx) ++
      ((fieldValues dynamics statics tIdx).map F.print).flatMap fun cell => ',' :: cell := by
  unfold dataRow fieldValues
  rw [List.append_assoc]
  congr 1
  simp only [reduceCtorEq, or_false]
  split <;> simp [List.flatMap_map, List.flatMap_assoc, List.map_flatMap]

theorem raw_mem {v : List K} {i : Nat} (hi : i < v.length) : raw v i ∈ v := by
  rw [raw, List.getD_eq_getElem _ _ hi]
  exact List.getElem_mem hi

theorem Writable.token (h : Writable F t dynamics statics) {tIdx : Nat} (ht : tIdx < t.length) :
    ∀ v ∈ raw t tIdx :: fieldValues dynamics statics tIdx, F.Token v := by
  intro v hv
  rcases List.mem_cons.mp hv with rfl | hv
  · exact h.time _ (raw_mem ht)
  · rcases List.mem_append.mp hv with hv | hv
    · obtain ⟨dyn, hdyn, hv⟩ := List.mem_flatMap.mp hv
      obtain ⟨series, hseries, rfl⟩ := List.mem_map.mp hv
      refine h.series dyn hdyn series hseries _ (raw_mem ?_)
      rw [h.lengths dyn hdyn series hseries]
      exact ht
    · split at hv
      · obtain ⟨st, hst, hv⟩ := List.mem_flatMap.mp hv
        exact h.values st hst v hv
      · cases hv

/-- A row is read as its cells. -/
theorem readLine_dataRow (h : Writable F t dynamics statics) (s : Schema) (content : CsvContent K)
    {tIdx : Nat} (ht : tIdx < t.length) :
    readLine F s content (dataRow F t dynamics statics true tIdx) =
      readCells F s content
        ((raw t tIdx :: fieldValues dynamics statics tIdx).map F.print) := by
  have htoken := h.token ht
  have hfirst := htoken _ List.mem_cons_self
  have hcells : getlines ',' (dataRow F t dynamics statics true tIdx) =
      (raw t tIdx :: fieldValues dynamics statics tIdx).map F.print := by
    rw [dataRow_eq]
    refine getlines_separated (fun c hc => ?_) fun c hc => ?_ <;>
      obtain ⟨v, hv, rfl⟩ := List.mem_map.mp
        (show c ∈ (raw t tIdx :: fieldValues dynamics statics tIdx).map F.print from hc)
    · exact (htoken v hv).comma
    · exact (htoken v hv).nonempty
  have hne : dataRow F t dynamics statics true tIdx ≠ [] := by
    rw [dataRow_eq]
    exact fun he => hfirst.nonempty (List.append_eq_nil_iff.mp he).1
  have hhash : (dataRow F t dynamics statics true tIdx).head? ≠ some '#' := by
    rw [dataRow_eq, List.head?_append_of_ne_nil _ hfirst.nonempty]
    exact hfirst.hash
  unfold readLine
  rw [if_neg (not_or.mpr ⟨hne, hhash⟩), hcells]
  exact if_neg (by simp)

/-- The schema of what is written. -/
def schemaOf (dynamics : List (DynamicField K)) (statics : List (StaticField K)) : Schema :=
  ⟨true, some 0, declareFields 1 (dynamicColumns dynamics) ∅,
    declareFields (1 + ((dynamicColumns dynamics).map Prod.snd).sum) (staticColumns statics) ∅⟩

section Names

variable {c : Char} (hd : ∀ dyn ∈ dynamics, c ∉ dyn.name) (hs : ∀ st ∈ statics, c ∉ st.name)

omit [Zero K]

include hd in
theorem notMem_dynamicColumns : ∀ field ∈ dynamicColumns dynamics, c ∉ field.1 := by
  intro field hf
  obtain ⟨dyn, hdyn, rfl⟩ := List.mem_map.mp hf
  exact hd dyn hdyn

include hs in
theorem notMem_staticColumns : ∀ field ∈ staticColumns statics, c ∉ field.1 := by
  intro field hf
  obtain ⟨st, hst, rfl⟩ := List.mem_map.mp hf
  exact hs st hst

end Names

omit [Zero K] in
theorem parseSchema_headerLines (hd : ∀ dyn ∈ dynamics, '"' ∉ dyn.name)
    (hs : ∀ st ∈ statics, '"' ∉ st.name)
    (hfit : 1 + ((dynamicColumns dynamics).map Prod.snd).sum +
      ((staticColumns statics).map Prod.snd).sum ≤ 2 ^ 64) (rest : List (List Char)) :
    parseSchema {} (headerLines dynamics statics ++ rest) =
      parseSchema (schemaOf dynamics statics) rest := by
  rw [headerLines, List.cons_append, List.append_assoc, parseSchema, if_pos (by simp),
    parseSchemaLine_time, Option.bind_some,
    parseSchema_dynamics (notMem_dynamicColumns hd) _ _ (by omega),
    parseSchema_statics (notMem_staticColumns hs) _ _ hfit, schemaOf]

omit [Zero K] in
theorem newline_schemaLines {tag : List Char} (ht : '\n' ∉ tag) (colIndex : Nat)
    {fields : List (List Char × Nat)} (hfields : ∀ field ∈ fields, '\n' ∉ field.1) :
    ∀ line ∈ schemaLines tag colIndex fields, '\n' ∉ line := by
  induction fields generalizing colIndex with
  | nil => simp [schemaLines]
  | cons field fields ih =>
    obtain ⟨name, dim⟩ := field
    intro line hline
    rcases List.mem_cons.mp hline with rfl | hline
    · have hname := hfields _ List.mem_cons_self
      have hindices := notMem_columnIndices (c := '\n') colIndex dim (by decide) (by decide)
      simp [schemaLine_eq, ht, hname, hindices]
    · exact ih _ (fun field hf => hfields field (List.mem_cons_of_mem _ hf)) line hline

omit [Zero K] in
theorem newline_columnNames {fields : List (List Char × Nat)}
    (hfields : ∀ field ∈ fields, '\n' ∉ field.1) : '\n' ∉ columnNames fields := by
  intro h
  obtain ⟨field, hf, h⟩ := List.mem_flatMap.mp h
  obtain ⟨varIdx, -, h⟩ := List.mem_flatMap.mp h
  have hdigits := notMem_toDigits (c := '\n') (by decide) varIdx
  simp [hfields field hf, hdigits] at h

theorem newline_dataRow (h : Writable F t dynamics statics) {tIdx : Nat} (ht : tIdx < t.length) :
    '\n' ∉ dataRow F t dynamics statics true tIdx := by
  have htoken := h.token ht
  rw [dataRow_eq]
  intro hmem
  rcases List.mem_append.mp hmem with hmem | hmem
  · exact (htoken _ List.mem_cons_self).newline hmem
  · obtain ⟨cell, hcell, hmem⟩ := List.mem_flatMap.mp hmem
    obtain ⟨v, hv, rfl⟩ := List.mem_map.mp hcell
    rcases List.mem_cons.mp hmem with hmem | hmem
    · exact absurd hmem (by decide)
    · exact (htoken v (List.mem_cons_of_mem _ hv)).newline hmem

/-- The lines of a file are what was written. -/
theorem getlines_writeCsv (h : Writable F t dynamics statics) :
    getlines '\n' (writeCsv F t dynamics statics true) =
      headerLines dynamics statics ++ nameRow dynamics statics ::
        (List.range t.length).map (dataRow F t dynamics statics true) := by
  have hdyn := notMem_dynamicColumns fun dyn hdyn => (h.dynamicText dyn hdyn).2
  have hstat := notMem_staticColumns fun st hst => (h.staticText st hst).2
  rw [writeCsv, if_pos rfl]
  refine getlines_terminated fun line hline => ?_
  rcases List.mem_append.mp hline with hline | hline
  · rcases List.mem_cons.mp hline with rfl | hline
    · decide
    · rcases List.mem_append.mp hline with hline | hline
      · exact newline_schemaLines (by decide) _ hdyn line hline
      · exact newline_schemaLines (by decide) _ hstat line hline
  · rcases List.mem_cons.mp hline with rfl | hline
    · have hd := newline_columnNames hdyn
      have hs := newline_columnNames hstat
      unfold nameRow
      simp [hd, hs]
    · obtain ⟨tIdx, htIdx, rfl⟩ := List.mem_map.mp hline
      exact newline_dataRow h (List.mem_range.mp htIdx)

variable (dynamics statics) in
omit [Zero K] in
theorem nameRow_head : (nameRow dynamics statics).head? = some 't' := by
  unfold nameRow
  simp

/-- The rows are read with the schema. -/
theorem readCsv_writeCsv (h : Writable F t dynamics statics) :
    readCsv F (writeCsv F t dynamics statics true) = some
      (((List.range t.length).map fun tIdx =>
          (raw t tIdx :: fieldValues dynamics statics tIdx).map F.print).foldl
        (readCells F (schemaOf dynamics statics)) (resizeFields (schemaOf dynamics statics))) := by
  have hhash : ¬ (nameRow dynamics statics).head? = some '#' := by
    rw [nameRow_head]
    decide
  have hne : nameRow dynamics statics ≠ [] := by
    intro hnil
    have hhead := nameRow_head dynamics statics
    rw [hnil] at hhead
    cases hhead
  have hschema : (schemaOf dynamics statics).hasSchema = true := rfl
  unfold readCsv
  rw [getlines_writeCsv h, parseSchema_headerLines (fun dyn hdyn => (h.dynamicText dyn hdyn).1)
    (fun st hst => (h.staticText st hst).1) h.columns, parseSchema, if_neg hhash, Option.map_some]
  dsimp only
  rw [List.head?_cons, Option.getD_some, if_neg (not_and_of_not_left _ hne), if_pos hschema,
    List.tail_cons, List.foldl_map, List.foldl_map]
  congr 1
  refine List.foldl_ext _ _ _ fun content tIdx hmem => ?_
  exact readLine_dataRow h _ content (List.mem_range.mp hmem)

variable {nan : K}

theorem dynamics_values (hn : (dynamics.map fun dyn => dyn.name).Nodup) {dyn : DynamicField K}
    (hdyn : dyn ∈ dynamics) (tIdx : Nat) :
    (Dict.get (schemaOf dynamics statics).dyn dyn.name).map
        (fun idx => (raw t tIdx :: fieldValues dynamics statics tIdx).getD idx nan) =
      dyn.data.map fun series => raw series tIdx := by
  let blocks := dynamics.map fun dyn => (dyn.name, dyn.data.map fun series => raw series tIdx)
  have hcolumns : blocks.map (fun block => (block.1, block.2.length)) =
      dynamicColumns dynamics := by
    simp [blocks, dynamicColumns, Function.comp_def]
  have hvalues : raw t tIdx :: fieldValues dynamics statics tIdx = [raw t tIdx] ++
      (blocks.flatMap Prod.snd ++
        if tIdx = 0 then statics.flatMap fun st => st.data else []) := by
    simp [blocks, fieldValues, List.flatMap_map]
  have h := declareFields_values nan blocks (by simpa [blocks, Function.comp_def] using hn)
    [raw t tIdx] (if tIdx = 0 then statics.flatMap fun st => st.data else []) ∅ _
    (List.mem_map_of_mem hdyn)
  rw [hcolumns, ← hvalues] at h
  exact h

theorem statics_values (hn : (statics.map fun st => st.name).Nodup) {st : StaticField K}
    (hst : st ∈ statics) :
    (Dict.get (schemaOf dynamics statics).stat st.name).map
        (fun idx => (raw t 0 :: fieldValues dynamics statics 0).getD idx nan) = st.data := by
  let blocks := statics.map fun st => (st.name, st.data)
  let before := raw t 0 :: dynamics.flatMap fun dyn => dyn.data.map fun series => raw series 0
  have hcolumns : blocks.map (fun block => (block.1, block.2.length)) = staticColumns statics := by
    simp [blocks, staticColumns, Function.comp_def]
  have hbefore : before.length = 1 + ((dynamicColumns dynamics).map Prod.snd).sum := by
    simp [before, dynamicColumns, List.length_flatMap, Function.comp_def, Nat.add_comm]
  have hvalues : raw t 0 :: fieldValues dynamics statics 0 =
      before ++ (blocks.flatMap Prod.snd ++ []) := by
    simp [blocks, before, fieldValues, List.flatMap_map]
  have h := declareFields_values nan blocks (by simpa [blocks, Function.comp_def] using hn)
    before [] ∅ _ (List.mem_map_of_mem hst)
  rw [hcolumns, hbefore, ← hvalues] at h
  exact h

/-- Series, row by row. -/
theorem series_of_rows {indices : List Nat} {n : Nat} (hn : 0 < n) {data : List (List K)}
    (hlen : ∀ series ∈ data, series.length = n) {value : Nat → Nat → K}
    (h : ∀ k, k < n → indices.map (value k) = data.map fun series => raw series k) :
    (indices.map fun idx => (List.range n).map fun k => value k idx) = data := by
  refine List.ext_getElem (by simpa using congrArg List.length (h 0 hn)) fun v hv hv' => ?_
  rw [List.getElem_map]
  refine List.ext_getElem (by simp [hlen _ (List.getElem_mem hv')]) fun k hk hk' => ?_
  have hrow := List.getElem_of_eq (h k (by simpa using hk)) (i := v) (by simpa using hv)
  simpa [raw, hk'] using hrow

/-- Every field is read back, and nothing else. -/
structure Recovers (t : List K) (dynamics : List (DynamicField K)) (statics : List (StaticField K))
    (content : CsvContent K) : Prop where
  t : content.t = t
  dynamic : ∀ dyn ∈ dynamics, Dict.get content.dynamics dyn.name = dyn.data
  static : ∀ st ∈ statics, Dict.get content.statics st.name = st.data
  noDynamic : ∀ name, name ∉ dynamics.map (fun dyn => dyn.name) →
    Dict.get content.dynamics name = []
  noStatic : ∀ name, name ∉ statics.map (fun st => st.name) → Dict.get content.statics name = []

theorem read_write (h : Writable F t dynamics statics) :
    ∃ content, readCsv F (writeCsv F t dynamics statics true) = some content ∧
      Recovers t dynamics statics content := by
  have hpos : 0 < t.length := List.length_pos_of_ne_nil h.nonempty
  have hread := readUpTo_run (F := F) (s := schemaOf dynamics statics) rfl
    ((List.range t.length).map fun tIdx =>
      (raw t tIdx :: fieldValues dynamics statics tIdx).map F.print)
  have hcell : ∀ k, k < t.length → ∀ idx, cellValue F
      ((raw t k :: fieldValues dynamics statics k).map F.print) idx =
        (raw t k :: fieldValues dynamics statics k).getD idx F.nan :=
    fun k hk => cellValue_print F (h.token hk)
  refine ⟨_, readCsv_writeCsv h, ?_, fun dyn hdyn => ?_, fun st hst => ?_, fun name hname => ?_,
    fun name hname => ?_⟩
  · rw [hread.t, List.map_map]
    refine List.ext_getElem (by simp) fun k hk hk' => ?_
    rw [List.getElem_map, List.getElem_range]
    refine (hcell k hk' 0).trans ?_
    rw [List.getD_cons_zero, raw, List.getD_eq_getElem _ _ hk']
  · rw [hread.dynamics]
    simp only [List.map_map]
    refine series_of_rows hpos (h.lengths dyn hdyn) fun k hk => ?_
    have hvalues : (Dict.get (schemaOf dynamics statics).dyn dyn.name).map
        (fun idx => (raw t k :: fieldValues dynamics statics k).getD idx F.nan) =
          dyn.data.map fun series => raw series k := dynamics_values h.dynamicNames hdyn k
    rw [← hvalues]
    exact List.map_congr_left fun idx _ => hcell k hk idx
  · obtain ⟨n, hn⟩ := Nat.exists_eq_add_of_lt hpos
    have hvalues : (Dict.get (schemaOf dynamics statics).stat st.name).map
        (fun idx => (raw t 0 :: fieldValues dynamics statics 0).getD idx F.nan) = st.data :=
      statics_values h.staticNames hst
    rw [hread.statics, List.head?_map, hn, Nat.zero_add, List.range_succ_eq_map, List.head?_cons,
      Option.map_some, Option.elim_some, ← hvalues]
    exact List.map_congr_left fun idx _ => hcell 0 hpos idx
  · have hnone : Dict.get (schemaOf dynamics statics).dyn name = [] :=
      get_declareFields_of_notMem (by simpa [dynamicColumns, Function.comp_def] using hname)
    rw [hread.dynamics, hnone, List.map_nil]
  · have hnone : Dict.get (schemaOf dynamics statics).stat name = [] :=
      get_declareFields_of_notMem (by simpa [staticColumns, Function.comp_def] using hname)
    rw [hread.statics, hnone]
    cases ((List.range t.length).map fun tIdx =>
      (raw t tIdx :: fieldValues dynamics statics tIdx).map F.print).head? <;> rfl

end Files

end Moo
