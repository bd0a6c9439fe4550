import Moo.Base.Csv

/-!
# Base.TrajectoryCsv

Trajectories in CSV files.

* `toCsv`, `fromCsv` of the three kinds of trajectories: an empty field is not written, and a field
  that is not in the file is empty.
* `csv_round_trip`: primal and dual trajectories are read back, for any mix of empty and non-empty
  fields. The method of a trajectory that was read is the linear one, and it has no mesh.
-/

namespace Moo

open Text

section Fields

variable {K : Type} [Zero K] (F : NumberFormat K)

def presentDynamic (name : List Char) (data : List (List K)) : List (DynamicField K) :=
  if data.isEmpty then [] else [⟨name, data⟩]

def presentStatic (name : List Char) (data : List K) : List (StaticField K) :=
  if data.isEmpty then [] else [⟨name, data⟩]

/-- `to_csv`, with two dynamic fields and a static one. -/
def fieldsToCsv (name₁ name₂ nameStatic : List Char) (t : List K) (data₁ data₂ : List (List K))
    (static : List K) (writeHeader : Bool) : List Char :=
  writeCsv F t (presentDynamic name₁ data₁ ++ presentDynamic name₂ data₂)
    (presentStatic nameStatic static) writeHeader

/-- `from_csv`: the time and the three fields. `count(name) ? map[name] : {}` is `Dict.get`. -/
def fieldsFromCsv (name₁ name₂ nameStatic : List Char) (file : List Char) :
    Option (List K × List (List K) × List (List K) × List K) :=
  (readCsv F file).map fun content => (content.t, Dict.get content.dynamics name₁,
    Dict.get content.dynamics name₂, Dict.get content.statics nameStatic)

/-- At least one time point, series of its length, numbers that are tokens, and columns that a
`size_t` numbers. -/
structure Printable (t : List K) (series : List (List K)) (values : List K) : Prop where
  nonempty : t ≠ []
  lengths : ∀ v ∈ series, v.length = t.length
  columns : 1 + series.length + values.length ≤ 2 ^ 64
  tokens : ∀ k ∈ t ++ series.flatten ++ values, F.Token k

end Fields

section Trajectories

variable {K : Type} [Field K] {T : FLGR K} (F : NumberFormat K)

def Trajectory.toCsv (traj : Trajectory T) (writeHeader : Bool) : List Char :=
  fieldsToCsv F "x".toList "u".toList "p".toList traj.t traj.x traj.u traj.p writeHeader

def Trajectory.fromCsv (file : List Char) : Option (Trajectory T) :=
  (fieldsFromCsv F "x".toList "u".toList "p".toList file).map fun (t, x, u, p) =>
    { t, x, u, p, interpolation := .linear }

def CostateTrajectory.toCsv (traj : CostateTrajectory T) (writeHeader : Bool) : List Char :=
  fieldsToCsv F "λ_f".toList "λ_g".toList "λ_r".toList traj.t traj.costatesF traj.costatesG
    traj.costatesR writeHeader

def CostateTrajectory.fromCsv (file : List Char) : Option (CostateTrajectory T) :=
  (fieldsFromCsv F "λ_f".toList "λ_g".toList "λ_r".toList file).map
    fun (t, costatesF, costatesG, costatesR) =>
      { t, costatesF, costatesG, costatesR, interpolation := .linear }

def ControlTrajectory.toCsv (traj : ControlTrajectory T) (writeHeader : Bool) : List Char :=
  writeCsv F traj.t (presentDynamic "u".toList traj.u) [] writeHeader

def ControlTrajectory.fromCsv (file : List Char) : Option (ControlTrajectory T) :=
  (readCsv F file).map fun content =>
    { t := content.t, u := Dict.get content.dynamics "u".toList, interpolation := .linear }

end Trajectories

/-! ## Fields that are there -/

section Present

variable {K : Type} {name : List Char}

theorem mem_presentDynamic {data : List (List K)} {dyn : DynamicField K} :
    dyn ∈ presentDynamic name data ↔ data ≠ [] ∧ dyn = ⟨name, data⟩ := by
  cases data <;> simp [presentDynamic]

theorem mem_presentStatic {data : List K} {st : StaticField K} :
    st ∈ presentStatic name data ↔ data ≠ [] ∧ st = ⟨name, data⟩ := by
  cases data <;> simp [presentStatic]

theorem sum_presentDynamic (data : List (List K)) :
    ((dynamicColumns (presentDynamic name data)).map Prod.snd).sum = data.length := by
  cases data <;> simp [presentDynamic, dynamicColumns]

theorem dynamicColumns_append (dyns dyns' : List (DynamicField K)) :
    dynamicColumns (dyns ++ dyns') = dynamicColumns dyns ++ dynamicColumns dyns' :=
  List.map_append

theorem sum_presentStatic (data : List K) :
    ((staticColumns (presentStatic name data)).map Prod.snd).sum = data.length := by
  cases data <;> simp [presentStatic, staticColumns]

variable [Zero K] {F : NumberFormat K} {t : List K} {name₁ name₂ nameStatic : List Char}
variable {data₁ data₂ : List (List K)} {static : List K}

/-- A name that can be quoted in a line. -/
def Quotable (name : List Char) : Prop := '"' ∉ name ∧ '\n' ∉ name

omit [Zero K] in
theorem Printable.writable (h : Printable F t (data₁ ++ data₂) static) (hne : name₁ ≠ name₂)
    (h₁ : Quotable name₁) (h₂ : Quotable name₂) (hs : Quotable nameStatic) :
    Writable F t (presentDynamic name₁ data₁ ++ presentDynamic name₂ data₂)
      (presentStatic nameStatic static) := by
  have hdyn : ∀ dyn ∈ presentDynamic name₁ data₁ ++ presentDynamic name₂ data₂,
      Quotable dyn.name ∧ ∀ series ∈ dyn.data, series ∈ data₁ ++ data₂ := by
    intro dyn hdyn
    rcases List.mem_append.mp hdyn with hdyn | hdyn
    · obtain ⟨-, rfl⟩ := mem_presentDynamic.mp hdyn
      exact ⟨h₁, fun _ => List.mem_append_left _⟩
    · obtain ⟨-, rfl⟩ := mem_presentDynamic.mp hdyn
      exact ⟨h₂, fun _ => List.mem_append_right _⟩
  have hst : ∀ st ∈ presentStatic nameStatic static, Quotable st.name ∧ st.data = static := by
    intro st hst
    obtain ⟨-, rfl⟩ := mem_presentStatic.mp hst
    exact ⟨hs, rfl⟩
  refine ⟨h.nonempty, fun dyn hd v hv => h.lengths v ((hdyn dyn hd).2 v hv), fun v hv => ?_,
    fun dyn hd series hseries v hv => ?_, fun st hs v hv => ?_, ?_, ?_,
    fun dyn hd => (hdyn dyn hd).1, fun st hs => (hst st hs).1, ?_⟩
  · exact h.tokens v (by simp [hv])
  · have hmem := List.mem_flatten_of_mem ((hdyn dyn hd).2 series hseries) hv
    exact h.tokens v (List.mem_append_left _ (List.mem_append_right _ hmem))
  · exact h.tokens v (List.mem_append_right _ ((hst st hs).2 ▸ hv))
  · cases data₁ <;> cases data₂ <;> simp [presentDynamic, hne]
  · cases static <;> simp [presentStatic]
  · have hcols := h.columns
    rw [List.length_append] at hcols
    rwa [dynamicColumns_append, List.map_append, List.sum_append, sum_presentDynamic,
      sum_presentDynamic, sum_presentStatic]

omit [Zero K] in
theorem Recovers.present {content : CsvContent K} (hne : name₁ ≠ name₂)
    (h : Recovers t (presentDynamic name₁ data₁ ++ presentDynamic name₂ data₂)
      (presentStatic nameStatic static) content) :
    Dict.get content.dynamics name₁ = data₁ ∧ Dict.get content.dynamics name₂ = data₂ ∧
      Dict.get content.statics nameStatic = static := by
  refine ⟨?_, ?_, ?_⟩
  · cases hd : data₁ with
    | nil =>
      refine h.noDynamic name₁ ?_
      cases data₂ <;> simp [presentDynamic, hd, hne]
    | cons v vs =>
      exact h.dynamic ⟨name₁, v :: vs⟩ (by simp [mem_presentDynamic, hd])
  · cases hd : data₂ with
    | nil =>
      refine h.noDynamic name₂ ?_
      cases data₁ <;> simp [presentDynamic, hd, hne.symm]
    | cons v vs =>
      exact h.dynamic ⟨name₂, v :: vs⟩ (by simp [mem_presentDynamic, hd])
  · cases hd : static with
    | nil =>
      refine h.noStatic nameStatic ?_
      simp [presentStatic, hd]
    | cons v vs =>
      exact h.static ⟨nameStatic, v :: vs⟩ (by simp [mem_presentStatic, hd])

/-- The fields are read back. -/
theorem fieldsFromCsv_fieldsToCsv (h : Printable F t (data₁ ++ data₂) static) (hne : name₁ ≠ name₂)
    (h₁ : Quotable name₁) (h₂ : Quotable name₂) (hs : Quotable nameStatic) :
    fieldsFromCsv F name₁ name₂ nameStatic
      (fieldsToCsv F name₁ name₂ nameStatic t data₁ data₂ static true) =
        some (t, data₁, data₂, static) := by
  obtain ⟨content, hread, hcontent⟩ := read_write (h.writable hne h₁ h₂ hs)
  obtain ⟨hget₁, hget₂, hgetStatic⟩ := hcontent.present hne
  rw [fieldsFromCsv, fieldsToCsv, hread, Option.map_some, hcontent.t, hget₁, hget₂, hgetStatic]

end Present

section RoundTrip

variable {K : Type} [Field K] {T : FLGR K}

theorem ControlTrajectory.fromCsv_toCsv {F : NumberFormat K} {traj : ControlTrajectory T}
    (h : Printable F traj.t traj.u []) : ControlTrajectory.fromCsv F (traj.toCsv F true) = some
      ({ t := traj.t, u := traj.u, interpolation := .linear } : ControlTrajectory T) := by
  have hprint : Printable F traj.t (traj.u ++ []) [] := by rwa [List.append_nil]
  have hquote : Quotable ([] : List Char) := ⟨by decide, by decide⟩
  have hquoteU : Quotable "u".toList := ⟨by decide, by decide⟩
  have hw := hprint.writable (by decide) hquoteU hquote hquote
  obtain ⟨content, hread, hcontent⟩ := read_write hw
  have hget := (hcontent.present (by decide)).1
  have hfields : presentDynamic "u".toList traj.u ++ presentDynamic [] [] =
      presentDynamic "u".toList traj.u := List.append_nil _
  rw [hfields] at hread
  have hread' : readCsv F (traj.toCsv F true) = some content := hread
  rw [ControlTrajectory.fromCsv, hread', Option.map_some, hcontent.t, hget]

/-- A file with a schema has the trajectory that was written. -/
theorem csv_round_trip (F : NumberFormat K) :
    (∀ traj : Trajectory T, Printable F traj.t (traj.x ++ traj.u) traj.p →
      Trajectory.fromCsv F (traj.toCsv F true) =
        some ({ traj with interpolation := .linear, inducingMesh := none } : Trajectory T)) ∧
    (∀ traj : CostateTrajectory T,
      Printable F traj.t (traj.costatesF ++ traj.costatesG) traj.costatesR →
      CostateTrajectory.fromCsv F (traj.toCsv F true) =
        some ({ traj with interpolation := .linear, inducingMesh := none } :
          CostateTrajectory T)) := by
  constructor
  · intro traj h
    rw [Trajectory.fromCsv, Trajectory.toCsv, fieldsFromCsv_fieldsToCsv h (by decide)
      ⟨by decide, by decide⟩ ⟨by decide, by decide⟩ ⟨by decide, by decide⟩, Option.map_some]
  · intro traj h
    rw [CostateTrajectory.fromCsv, CostateTrajectory.toCsv, fieldsFromCsv_fieldsToCsv h (by decide)
      ⟨by decide, by decide⟩ ⟨by decide, by decide⟩ ⟨by decide, by decide⟩, Option.map_some]

/-- The numbers of the source's files, exact for whole numbers: a sign, digits, a point and
seventeen zeros. -/
def wholeNumbers : NumberFormat ℚ where
  print q := (if q < 0 then ['-'] else []) ++ Nat.toDigits 10 q.num.natAbs ++
    '.' :: List.replicate 17 '0'
  stod s :=
    let digits := (if s.head? = some '-' then s.tail else s).takeWhile Char.isDigit
    let value : ℚ := Nat.ofDigitChars 10 digits 0
    if digits = [] then none else some (if s.head? = some '-' then -value else value)
  nan := 0

theorem wholeNumbers_token : ∀ k ∈ [-1, 0, 1, 2, 12], wholeNumbers.Token k := by
  have h : ∀ k ∈ [-1, 0, 1, 2, 12], wholeNumbers.stod (wholeNumbers.print k) = some k ∧
      wholeNumbers.print k ≠ [] ∧ ',' ∉ wholeNumbers.print k ∧ '\n' ∉ wholeNumbers.print k ∧
      (wholeNumbers.print k).head? ≠ some '#' := by decide +kernel
  intro k hk
  obtain ⟨h1, h2, h3, h4, h5⟩ := h k hk
  exact ⟨h1, h2, h3, h4, h5⟩

/-- States and parameters without controls, and costates of path constraints only. -/
theorem csv_round_trip_mixed :
    Trajectory.fromCsv wholeNumbers
        ((⟨[0, 1], [[1, 2], [-1, 12]], [], [2, 1], .linear, none⟩ : Trajectory radauTwo).toCsv
          wholeNumbers true) =
      some (⟨[0, 1], [[1, 2], [-1, 12]], [], [2, 1], .linear, none⟩ : Trajectory radauTwo) ∧
    CostateTrajectory.fromCsv wholeNumbers
        ((⟨[0, 1], [], [[1, 2]], [], .linear, none⟩ : CostateTrajectory radauTwo).toCsv
          wholeNumbers true) =
      some (⟨[0, 1], [], [[1, 2]], [], .linear, none⟩ : CostateTrajectory radauTwo) := by
  have h := csv_round_trip (T := radauTwo) wholeNumbers
  refine ⟨h.1 _ ⟨by simp, by decide, by decide, fun k hk => wholeNumbers_token k ?_⟩,
    h.2 _ ⟨by simp, by decide, by decide, fun k hk => wholeNumbers_token k ?_⟩⟩
  · simp at hk
    grind
  · simp at hk
    grind

end RoundTrip

end Moo
