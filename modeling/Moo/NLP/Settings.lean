import Mathlib.Data.List.Induction
import Moo.Lib.Numeral

/-!
# NLP.Settings

`NLPSolverSettings`: the options of the NLP solver, set on the command line as `--Key=Value`.

A value is stored in the alternative of the variant that the default of its key has, but an
enumerator's is stored as a string. `get_or_default` asks for the enumeration, and falls back to the
default without a word.

* `nlpSolverSettings`: the constructor, `none` where it throws.
* `run_isSome`, `run_spec`: it parses the values of the keys, and the last one of a key is stored.
* `TakesEffect`: what a command line asks for is what the readers get. `takesEffect_iff`: for which
  command lines that holds.

The settings hold a value for every option from the start, so they are a function.
-/

namespace Moo
namespace NLP

open Binary Numeral Text

/-! ## Options -/

inductive HessianOption where
  | exact
  | lbfgs
  | const
deriving DecidableEq

inductive LinearSolverOption where
  | mumps
  | ma27
  | ma57
  | ma77
  | ma86
  | ma97
deriving DecidableEq

inductive NLPSolverOption where
  | ipopt
deriving DecidableEq

/-- `NLP::Option`. -/
inductive Setting where
  | hessian
  | tolerance
  | iterations
  | cpuTime
  | linearSolver
  | nlpSolver
  | ipoptDerivativeTest
  | warmStart
  | qp
deriving DecidableEq

/-- The alternatives of an `OptionValue`. -/
inductive Kind where
  | string
  | f64
  | int
  | bool
  | hessian
  | linearSolver
  | nlpSolver
deriving DecidableEq

abbrev Kind.Carrier : Kind → Type
  | .string => List Char
  | .f64 => Double
  | .int => ℤ
  | .bool => Bool
  | .hessian => HessianOption
  | .linearSolver => LinearSolverOption
  | .nlpSolver => NLPSolverOption

structure OptionValue where
  kind : Kind
  value : kind.Carrier

/-- `std::get_if`, and `std::get` where `none` is its exception. -/
def OptionValue.getIf (k : Kind) (v : OptionValue) : Option k.Carrier :=
  if h : v.kind = k then some (h ▸ v.value) else none

/-- The type of an option. -/
def Setting.kind : Setting → Kind
  | .hessian => .hessian
  | .tolerance => .f64
  | .iterations => .int
  | .cpuTime => .f64
  | .linearSolver => .linearSolver
  | .nlpSolver => .nlpSolver
  | .ipoptDerivativeTest => .bool
  | .warmStart => .bool
  | .qp => .bool

/-- The double a decimal literal stands for. -/
def literal (q : ℚ) : Double := (binary64.ofRat q).elim .nan .finite

def Setting.default : (o : Setting) → o.kind.Carrier
  | .hessian => HessianOption.exact
  | .tolerance => literal (1 / 10 ^ 10)
  | .iterations => (5000 : ℤ)
  | .cpuTime => literal 3600
  | .linearSolver => LinearSolverOption.mumps
  | .nlpSolver => NLPSolverOption.ipopt
  | .ipoptDerivativeTest => false
  | .warmStart => false
  | .qp => false

def defaultSettings (o : Setting) : OptionValue := ⟨o.kind, o.default⟩

/-- `to_string`. -/
def Setting.name : Setting → List Char
  | .hessian => "Hessian".toList
  | .tolerance => "Tolerance".toList
  | .iterations => "Iterations".toList
  | .cpuTime => "CPUTime".toList
  | .linearSolver => "LinearSolver".toList
  | .nlpSolver => "NLPSolver".toList
  | .ipoptDerivativeTest => "IpoptDerivativeTest".toList
  | .warmStart => "WarmStart".toList
  | .qp => "QP".toList

def optionTable : List (List Char × Setting) :=
  [("Hessian".toList, .hessian), ("Tolerance".toList, .tolerance),
    ("Iterations".toList, .iterations), ("CPUTime".toList, .cpuTime),
    ("LinearSolver".toList, .linearSolver), ("NLPSolver".toList, .nlpSolver),
    ("IpoptDerivativeTest".toList, .ipoptDerivativeTest), ("WarmStart".toList, .warmStart),
    ("QP".toList, .qp)]

def optionFromString (name : List Char) : Option Setting :=
  (optionTable.find? fun e => decide (e.1 = name)).map fun e => e.2

/-- A value as `print` shows it. -/
def printValue : (k : Kind) → k.Carrier → List Char
  | .string, s => s
  | .f64, .finite v => (fixed 6 v.val).text
  | .f64, .inf neg => if neg then "-inf".toList else "inf".toList
  | .f64, .nan => "nan".toList
  | .int, (n : ℤ) => (toString n).toList
  | .bool, (b : Bool) => if b then "true".toList else "false".toList
  | .hessian, HessianOption.exact => "Exact".toList
  | .hessian, HessianOption.lbfgs => "LBFGS".toList
  | .hessian, HessianOption.const => "Const".toList
  | .linearSolver, LinearSolverOption.mumps => "MUMPS".toList
  | .linearSolver, LinearSolverOption.ma27 => "MA27".toList
  | .linearSolver, LinearSolverOption.ma57 => "MA57".toList
  | .linearSolver, LinearSolverOption.ma77 => "MA77".toList
  | .linearSolver, LinearSolverOption.ma86 => "MA86".toList
  | .linearSolver, LinearSolverOption.ma97 => "MA97".toList
  | .nlpSolver, NLPSolverOption.ipopt => "Ipopt".toList

/-! ## Settings -/

abbrev Settings : Type := Setting → OptionValue

def Settings.set (s : Settings) (o : Setting) (v : OptionValue) : Settings :=
  Function.update s o v

/-- `get_or_default`, `none` where it throws. -/
def Settings.getOrDefault (s : Settings) (k : Kind) (o : Setting) : Option k.Carrier :=
  ((s o).getIf k).or ((defaultSettings o).getIf k)

def Settings.optionIsTrue (s : Settings) (o : Setting) : Option Bool := s.getOrDefault .bool o

def Settings.optionMatches (s : Settings) (o : Setting) (str : List Char) : Bool :=
  (((s o).getIf .string).map fun val : List Char => decide (val = str)).getD false

/-- The value of an argument, by the alternative that the default holds. -/
def parseValue : Kind → List Char → Option OptionValue
  | .f64, val => (stod binary64 val).map fun x => ⟨.f64, x⟩
  | .int, val => (stoi val).map fun n => ⟨.int, n⟩
  | .bool, val => some ⟨.bool, decide (val = "true".toList ∨ val = "1".toList)⟩
  | _, val => some ⟨.string, val⟩

/-- Key and value of an argument `--Key=Value`. -/
def splitArg (arg : List Char) : Option (Setting × List Char) :=
  if "--".toList.isPrefixOf arg then
    match find '=' 0 arg with
    | some eq =>
      let key := (arg.drop 2).take (eq - 2)
      let val := arg.drop (eq + 1)
      (optionFromString key).map fun o => (o, val)
    | none => none
  else none

/-- A pass over an argument; one without a key changes nothing. -/
def parseArg (s : Settings) (arg : List Char) : Option Settings :=
  match splitArg arg with
  | some (o, val) => (parseValue (defaultSettings o).kind val).map (s.set o)
  | none => some s

/-- `NLPSolverSettings`. -/
def nlpSolverSettings (argv : List (List Char)) : Option Settings :=
  (argv.drop 1).foldlM parseArg defaultSettings

/-! ## Reading the command line -/

/-- `--Key=`. -/
def Setting.flag (o : Setting) : List Char := "--".toList ++ o.name ++ "=".toList

/-- The value of the last argument for a key. -/
def lastValue (args : List (List Char)) (o : Setting) : Option (List Char) :=
  (args.filterMap o.flag.isPrefixOf?).getLast?

theorem optionFromString_eq_some {name : List Char} {o : Setting} :
    optionFromString name = some o ↔ name = o.name := by
  constructor
  · intro h
    have htable : ∀ e ∈ optionTable, e.1 = e.2.name := by decide +kernel
    obtain ⟨e, he, rfl⟩ := Option.map_eq_some_iff.mp h
    have hname : decide (e.1 = name) = true :=
      List.find?_some (p := fun e : List Char × Setting => decide (e.1 = name)) he
    rw [← of_decide_eq_true hname, htable e (List.mem_of_find?_eq_some he)]
  · rintro rfl
    cases o <;> decide +kernel

theorem splitArg_eq_some {arg val : List Char} {o : Setting} :
    splitArg arg = some (o, val) ↔ arg = o.flag ++ val := by
  constructor
  · intro h
    unfold splitArg at h
    split at h
    · rename_i hprefix
      obtain ⟨rest, rfl⟩ := List.isPrefixOf_iff_prefix.mp hprefix
      split at h
      · rename_i eq heq
        obtain ⟨o', ho, hpair⟩ := Option.map_eq_some_iff.mp h
        obtain ⟨rfl, rfl⟩ := Prod.mk.inj hpair
        have hdrop := drop_find heq
        -- the two dashes are no `=`
        obtain ⟨i, rfl⟩ : ∃ i, eq = i + 2 := by
          match eq, hdrop with
          | 0, hdrop => exact absurd (List.cons.inj hdrop).1 (by decide)
          | 1, hdrop => exact absurd (List.cons.inj hdrop).1 (by decide)
          | i + 2, _ => exact ⟨i, rfl⟩
        have hname : rest.take i = o'.name := optionFromString_eq_some.mp ho
        have hval : rest.drop i = '=' :: rest.drop (i + 1) := hdrop
        calc "--".toList ++ rest = "--".toList ++ (rest.take i ++ rest.drop i) := by
              rw [List.take_append_drop]
          _ = o'.flag ++ rest.drop (i + 1) := by simp [hname, hval, Setting.flag]
      · cases h
    · cases h
  · rintro rfl
    have hnotin : '=' ∉ "--".toList ++ o.name := by cases o <;> decide
    have hfind : find '=' 0 (o.flag ++ val) = some (o.name.length + 2) := by
      rw [find_eq (r := val) (by simp [Setting.flag]) hnotin]
      simp
    have hkey : ((o.flag ++ val).drop 2).take (o.name.length + 2 - 2) = o.name := by
      simp [Setting.flag]
    have hval : (o.flag ++ val).drop (o.name.length + 2 + 1) = val := by
      refine List.drop_left' ?_
      simp [Setting.flag]
    have hprefix : "--".toList.isPrefixOf (o.flag ++ val) = true :=
      List.isPrefixOf_iff_prefix.mpr ⟨o.name ++ "=".toList ++ val, by simp [Setting.flag]⟩
    rw [splitArg, if_pos hprefix, hfind]
    simp only [hkey, hval, optionFromString_eq_some.mpr rfl, Option.map_some]

theorem isPrefixOf?_flag {o : Setting} {arg val : List Char} :
    o.flag.isPrefixOf? arg = some val ↔ splitArg arg = some (o, val) := by
  rw [List.isPrefixOf?_eq_some_iff_append_eq, splitArg_eq_some, eq_comm]

theorem lastValue_append (args : List (List Char)) (arg : List Char) (o : Setting) :
    lastValue (args ++ [arg]) o = (o.flag.isPrefixOf? arg).or (lastValue args o) := by
  unfold lastValue
  cases h : o.flag.isPrefixOf? arg <;> simp [h]

section Run

variable {s s' : Settings} {arg : List Char} {args : List (List Char)}

@[simp] theorem set_self (o : Setting) (v : OptionValue) : s.set o v o = v := by simp [Settings.set]

theorem set_of_ne {o o' : Setting} (h : o' ≠ o) (v : OptionValue) : s.set o v o' = s o' := by
  simp [Settings.set, h]

/-- What a pass stores. -/
theorem parseArg_spec (h : parseArg s arg = some s') (o : Setting) :
    (o.flag.isPrefixOf? arg).elim (some (s o)) (parseValue o.kind) = some (s' o) := by
  unfold parseArg at h
  split at h
  · rename_i o' val hsplit
    obtain ⟨v, hv, rfl⟩ := Option.map_eq_some_iff.mp h
    rcases eq_or_ne o o' with rfl | hne
    · rw [isPrefixOf?_flag.mpr hsplit, set_self]
      exact hv
    · have hnone : o.flag.isPrefixOf? arg = none := by
        refine Option.eq_none_iff_forall_ne_some.mpr fun val' hval => hne ?_
        have hsome := isPrefixOf?_flag.mp hval
        rw [hsplit] at hsome
        exact (Prod.mk.inj (Option.some.inj hsome)).1.symm
      rw [hnone, set_of_ne hne]
      rfl
  · rename_i hsplit
    cases h
    have hnone : o.flag.isPrefixOf? arg = none :=
      Option.eq_none_iff_forall_ne_some.mpr fun val' hval => by
        rw [isPrefixOf?_flag.mp hval] at hsplit
        cases hsplit
    rw [hnone]
    rfl

theorem run_spec (h : args.foldlM parseArg s = some s') (o : Setting) :
    (lastValue args o).elim (some (s o)) (parseValue o.kind) = some (s' o) := by
  induction args using List.reverseRecOn generalizing s' with
  | nil =>
    cases h
    rfl
  | append_singleton args arg ih =>
    rw [List.foldlM_append] at h
    obtain ⟨mid, hmid, hlast⟩ := Option.bind_eq_some_iff.mp h
    have hlast : parseArg mid arg = some s' := by simpa using hlast
    have hstep := parseArg_spec hlast o
    rw [lastValue_append]
    cases hval : o.flag.isPrefixOf? arg with
    | some val =>
      rw [hval] at hstep
      exact hstep
    | none =>
      rw [hval] at hstep
      rw [Option.none_or, ih hmid]
      exact hstep

theorem run_isSome : (args.foldlM parseArg s).isSome ↔
    ∀ arg ∈ args, ∀ o val, arg = Setting.flag o ++ val → (parseValue o.kind val).isSome := by
  induction args generalizing s with
  | nil => simp
  | cons arg args ih =>
    rw [List.foldlM_cons, List.forall_mem_cons]
    cases hsplit : splitArg arg with
    | none =>
      have hother : ∀ o val, arg ≠ Setting.flag o ++ val := fun o val heq => by
        rw [splitArg_eq_some.mpr heq] at hsplit
        cases hsplit
      have hpass : parseArg s arg = some s := by rw [parseArg, hsplit]
      rw [hpass]
      exact ih.trans ⟨fun h => ⟨fun o val heq => absurd heq (hother o val), h⟩, fun h => h.2⟩
    | some e =>
      obtain ⟨o, val⟩ := e
      have honly : ∀ o' val', arg = Setting.flag o' ++ val' → o' = o ∧ val' = val :=
        fun o' val' heq => by
          rw [splitArg_eq_some.mpr heq] at hsplit
          exact Prod.mk.inj (Option.some.inj hsplit)
      have hpass : parseArg s arg = (parseValue o.kind val).map (s.set o) := by
        rw [parseArg, hsplit]
        rfl
      rw [hpass]
      cases hv : parseValue o.kind val with
      | none =>
        refine iff_of_false (by simp) fun h => ?_
        have := h.1 o val (splitArg_eq_some.mp hsplit)
        rw [hv] at this
        cases this
      | some v =>
        refine Iff.trans (ih (s := s.set o v)) ⟨fun h => ⟨fun o' val' heq => ?_, h⟩, fun h => h.2⟩
        obtain ⟨rfl, rfl⟩ := honly o' val' heq
        rw [hv]
        rfl

end Run

/-! ## What is asked for, and what is read -/

/-- The enumerations. -/
def Kind.IsEnum (k : Kind) : Prop := k = .hessian ∨ k = .linearSolver ∨ k = .nlpSolver

/-- The texts of an option: decimal numbers, whole numbers in the range of an `int`, words for the
flags, and the names that `print` shows. -/
def InSyntax : Kind → List Char → Prop
  | .f64, val => ∃ n : Decimal, val = n.text
  | .int, val => ∃ n : Integer, val = n.text ∧ -2 ^ 31 ≤ n.value ∧ n.value < 2 ^ 31
  | .bool, val => val ∈ ["true".toList, "false".toList, "1".toList, "0".toList]
  | k, val => ∃ x, val = printValue k x

/-- The value that such a text stands for. -/
def Denotes : (k : Kind) → List Char → k.Carrier → Prop
  | .f64, val, x => ∃ n : Decimal, val = n.text ∧ (binary64.ofRat n.value).map .finite = some x
  | .int, val, x => ∃ n : Integer, val = n.text ∧ x = n.value
  | .bool, val, x => val ∈ if x then ["true".toList, "1".toList] else ["false".toList, "0".toList]
  | k, val, x => val = printValue k x

def WellFormed (argv : List (List Char)) : Prop :=
  ∀ arg ∈ argv.drop 1, ∀ (o : Setting) val, arg = o.flag ++ val → InSyntax o.kind val

/-- No exception, and the readers get what the last argument for their key asks for. -/
def TakesEffect (argv : List (List Char)) : Prop :=
  ∃ s, nlpSolverSettings argv = some s ∧ ∀ o : Setting, ∃ x, s.getOrDefault o.kind o = some x ∧
    match lastValue (argv.drop 1) o with
    | some val => Denotes o.kind val x
    | none => x = o.default

/-- The decimal numbers are in the range of a double, and the enumerators asked for are the
defaults. -/
structure Harmless (argv : List (List Char)) : Prop where
  inRange : ∀ arg ∈ argv.drop 1, ∀ o : Setting, o.kind = .f64 → ∀ n : Decimal,
    arg = o.flag ++ n.text → binary64.InRange n.value
  enumerators : ∀ o : Setting, o.kind.IsEnum → ∀ val, lastValue (argv.drop 1) o = some val →
    val = printValue o.kind o.default

section Read

theorem getIf_self {k : Kind} (x : k.Carrier) : OptionValue.getIf k ⟨k, x⟩ = some x := by
  simp [OptionValue.getIf]

theorem getIf_of_ne {k k' : Kind} (h : k' ≠ k) (x : k'.Carrier) :
    OptionValue.getIf k ⟨k', x⟩ = none := dif_neg h

theorem getOrDefault_eq (s : Settings) (o : Setting) :
    s.getOrDefault o.kind o = ((s o).getIf o.kind).or (some o.default) := by
  rw [Settings.getOrDefault, defaultSettings, getIf_self]

variable {k : Kind} {val : List Char} {v : OptionValue}

/-- Texts of an option are parsed, if a number is in the range of a double. -/
theorem parseValue_isSome (h : InSyntax k val)
    (hrange : k = .f64 → ∀ n : Decimal, val = n.text → binary64.InRange n.value) :
    (parseValue k val).isSome := by
  cases k with
  | f64 =>
    obtain ⟨n, rfl⟩ := h
    have hin := hrange rfl n rfl
    simp [parseValue, stod_text, Format.ofRat, hin]
  | int =>
    obtain ⟨n, rfl, hn⟩ := h
    rw [parseValue, stoi_text, if_pos hn]
    rfl
  | string => rfl
  | bool => rfl
  | hessian => rfl
  | linearSolver => rfl
  | nlpSolver => rfl

theorem inRange_of_parseValue {n : Decimal} (h : (parseValue .f64 n.text).isSome) :
    binary64.InRange n.value := by
  by_contra hn
  simp [parseValue, stod_text, Format.ofRat, hn] at h

/-- A parsed text is stored in the alternative that is asked for, unless it is an enumerator. -/
theorem getIf_parsed (hk : ¬ k.IsEnum) (hsyn : InSyntax k val) (hv : parseValue k val = some v) :
    ∃ x, v.getIf k = some x ∧ Denotes k val x := by
  cases k with
  | string =>
    cases hv
    exact ⟨val, getIf_self _, rfl⟩
  | f64 =>
    obtain ⟨n, rfl⟩ := hsyn
    obtain ⟨x, hx, rfl⟩ := Option.map_eq_some_iff.mp hv
    rw [stod_text] at hx
    exact ⟨x, getIf_self _, n, rfl, hx⟩
  | int =>
    obtain ⟨n, rfl, hn⟩ := hsyn
    obtain ⟨x, hx, rfl⟩ := Option.map_eq_some_iff.mp hv
    rw [stoi_text, if_pos hn] at hx
    cases hx
    exact ⟨n.value, getIf_self _, n, rfl, rfl⟩
  | bool =>
    cases hv
    refine ⟨_, getIf_self _, ?_⟩
    simp only [InSyntax, List.mem_cons, List.not_mem_nil, or_false] at hsyn
    rcases hsyn with rfl | rfl | rfl | rfl <;> simp [Denotes]
  | hessian => exact absurd (.inl rfl) hk
  | linearSolver => exact absurd (.inr (.inl rfl)) hk
  | nlpSolver => exact absurd (.inr (.inr rfl)) hk

/-- An enumerator is stored as a string. -/
theorem parseValue_of_isEnum (hk : k.IsEnum) : parseValue k val = some ⟨.string, val⟩ := by
  rcases hk with rfl | rfl | rfl <;> rfl

theorem denotes_of_isEnum (hk : k.IsEnum) {x : k.Carrier} :
    Denotes k val x ↔ val = printValue k x := by
  rcases hk with rfl | rfl | rfl <;> rfl

theorem getIf_of_isEnum (hk : k.IsEnum) (hv : parseValue k val = some v) : v.getIf k = none := by
  rw [parseValue_of_isEnum hk] at hv
  cases hv
  exact getIf_of_ne (by rcases hk with rfl | rfl | rfl <;> decide) _

/-- `option_matches` finds it there. -/
theorem optionMatches_of_isEnum {s : Settings} {o : Setting} (ho : o.kind.IsEnum)
    (hv : parseValue o.kind val = some (s o)) (str : List Char) :
    s.optionMatches o str = decide (val = str) := by
  rw [parseValue_of_isEnum ho] at hv
  have hstored : s o = ⟨.string, val⟩ := (Option.some.inj hv).symm
  rw [Settings.optionMatches, hstored, getIf_self]
  rfl

/-- What the reader of an option gets is what was asked for, or the option is an enumeration and was
not left at its default. -/
theorem reads_iff {args : List (List Char)} {s : Settings}
    (hs : args.foldlM parseArg defaultSettings = some s) (o : Setting)
    (hsyn : ∀ val, lastValue args o = some val → InSyntax o.kind val) :
    (∃ x, s.getOrDefault o.kind o = some x ∧
      match lastValue args o with
      | some val => Denotes o.kind val x
      | none => x = o.default) ↔
    (o.kind.IsEnum → ∀ val, lastValue args o = some val → val = printValue o.kind o.default) := by
  have hstored := run_spec hs o
  rw [getOrDefault_eq]
  cases hlast : lastValue args o with
  | none =>
    rw [hlast] at hstored
    have hdefault : s o = ⟨o.kind, o.default⟩ := (Option.some.inj hstored).symm
    refine iff_of_true ⟨o.default, ?_, rfl⟩ (by simp)
    rw [hdefault, getIf_self, Option.some_or]
  | some val =>
    rw [hlast] at hstored
    by_cases hk : o.kind.IsEnum
    · rw [getIf_of_isEnum hk hstored, Option.none_or]
      constructor
      · rintro ⟨x, hx, hval⟩ _ _ heq
        cases hx
        cases heq
        exact (denotes_of_isEnum hk).mp hval
      · exact fun hval => ⟨o.default, rfl, (denotes_of_isEnum hk).mpr (hval hk val rfl)⟩
    · obtain ⟨x, hx, hval⟩ := getIf_parsed hk (hsyn val hlast) hstored
      exact iff_of_true ⟨x, by rw [hx, Option.some_or], hval⟩ fun h => absurd h hk

end Read

/-- The settings take effect only where they ask for the default enumerators. -/
theorem takesEffect_iff {argv : List (List Char)} (h : WellFormed argv) :
    TakesEffect argv ↔ Harmless argv := by
  have hsyn : ∀ o : Setting, ∀ val, lastValue (argv.drop 1) o = some val → InSyntax o.kind val := by
    intro o val hlast
    obtain ⟨arg, harg, hval⟩ := List.mem_filterMap.mp (List.mem_of_getLast? hlast)
    exact h arg harg o val (List.isPrefixOf?_eq_some_iff_append_eq.mp hval).symm
  constructor
  · rintro ⟨s, hs, heffect⟩
    refine ⟨fun arg harg o ho n hn => ?_, fun o => (reads_iff hs o (hsyn o)).mp (heffect o)⟩
    have hparsed := run_isSome.mp (Option.isSome_of_eq_some hs) arg harg o n.text hn
    rw [ho] at hparsed
    exact inRange_of_parseValue hparsed
  · intro hharmless
    have hsome : (nlpSolverSettings argv).isSome := run_isSome.mpr fun arg harg o val hval =>
      parseValue_isSome (h arg harg o val hval) fun ho n hn =>
        hharmless.inRange arg harg o ho n (hn ▸ hval)
    obtain ⟨s, hs⟩ := Option.isSome_iff_exists.mp hsome
    exact ⟨s, hs, fun o => (reads_iff hs o (hsyn o)).mpr (hharmless.enumerators o)⟩

theorem wellFormed_iff {argv : List (List Char)} :
    WellFormed argv ↔ ∀ e ∈ (argv.drop 1).filterMap splitArg, InSyntax e.1.kind e.2 := by
  constructor
  · intro h e he
    obtain ⟨arg, harg, hsplit⟩ := List.mem_filterMap.mp he
    exact h arg harg e.1 e.2 (splitArg_eq_some.mp hsplit)
  · intro h arg harg o val hval
    exact h (o, val) (List.mem_filterMap.mpr ⟨arg, harg, splitArg_eq_some.mpr hval⟩)

/-- A key that is not one of the options, and one that is given twice. -/
def repeatedKey : List (List Char) :=
  ["moo".toList, "--Iterations=100".toList, "--Verbose=1".toList, "--Tolerance=1e-8".toList,
    "--LinearSolver=MUMPS".toList, "--Iterations=200".toList]

theorem repeatedKey_split : (repeatedKey.drop 1).filterMap splitArg =
    [(.iterations, "100".toList), (.tolerance, "1e-8".toList), (.linearSolver, "MUMPS".toList),
      (.iterations, "200".toList)] := by decide +kernel

theorem repeatedKey_wellFormed : WellFormed repeatedKey := by
  rw [wellFormed_iff, repeatedKey_split]
  intro e he
  simp only [List.mem_cons, List.not_mem_nil, or_false] at he
  rcases he with rfl | rfl | rfl | rfl
  · exact ⟨⟨.none, "100".toList, List.all_eq_true.mp rfl, by decide⟩, rfl, by decide, by decide⟩
  · refine ⟨⟨.none, "1".toList, none, some ('e', .minus, "8".toList), List.all_eq_true.mp rfl,
      List.all_eq_true.mp rfl, by decide, ?_, ?_⟩, rfl⟩
    · rintro e ⟨⟩
      exact .inl rfl
    · rintro e ⟨⟩
      exact List.all_eq_true.mp rfl
  · exact ⟨.mumps, rfl⟩
  · exact ⟨⟨.none, "200".toList, List.all_eq_true.mp rfl, by decide⟩, rfl, by decide, by decide⟩

theorem repeatedKey_harmless : Harmless repeatedKey where
  inRange := by
    intro arg harg o ho n harg'
    have hmem : (o, n.text) ∈ (repeatedKey.drop 1).filterMap splitArg :=
      List.mem_filterMap.mpr ⟨arg, harg, splitArg_eq_some.mpr harg'⟩
    rw [repeatedKey_split] at hmem
    simp only [List.mem_cons, List.not_mem_nil, or_false, Prod.mk.injEq] at hmem
    refine inRange_of_parseValue ?_
    rcases hmem with ⟨rfl, -⟩ | ⟨-, h⟩ | ⟨rfl, -⟩ | ⟨rfl, -⟩
    · cases ho
    · rw [h]
      decide +kernel
    · cases ho
    · cases ho
  enumerators := by
    rintro o ho val hval
    cases o with
    | linearSolver =>
      have hlast : lastValue (repeatedKey.drop 1) .linearSolver = some "MUMPS".toList := by
        decide +kernel
      exact (Option.some.inj (hlast.symm.trans hval)).symm
    | hessian =>
      have hlast : lastValue (repeatedKey.drop 1) .hessian = none := by decide +kernel
      cases hlast.symm.trans hval
    | nlpSolver =>
      have hlast : lastValue (repeatedKey.drop 1) .nlpSolver = none := by decide +kernel
      cases hlast.symm.trans hval
    | _ => rcases ho with h | h | h <;> cases h

theorem takesEffect_iff_repeatedKey : TakesEffect repeatedKey ∧
    (nlpSolverSettings repeatedKey).bind (fun s => s.getOrDefault .int .iterations) = some 200 :=
  ⟨(takesEffect_iff repeatedKey_wellFormed).mpr repeatedKey_harmless, by decide +kernel⟩

/-- A command line that asks for another linear solver. -/
def ma57 : List (List Char) := ["moo".toList, "--LinearSolver=MA57".toList]

theorem ma57_wellFormed : WellFormed ma57 := by
  have hsplit : (ma57.drop 1).filterMap splitArg = [(.linearSolver, "MA57".toList)] := by
    decide +kernel
  rw [wellFormed_iff, hsplit]
  intro e he
  obtain rfl := List.mem_singleton.mp he
  exact ⟨.ma57, rfl⟩

theorem ma57_without_effect :
    (nlpSolverSettings ma57).bind (fun s => s.getOrDefault .linearSolver .linearSolver) =
        some .mumps ∧
      ¬ ∀ argv, WellFormed argv → TakesEffect argv := by
  have hread : (nlpSolverSettings ma57).bind
      (fun s => s.getOrDefault .linearSolver .linearSolver) = some .mumps := by decide +kernel
  have hlast : lastValue (ma57.drop 1) .linearSolver = some "MA57".toList := by decide +kernel
  refine ⟨hread, fun hall => ?_⟩
  obtain ⟨s, hs, heffect⟩ := hall ma57 ma57_wellFormed
  obtain ⟨x, hx, hval⟩ := heffect .linearSolver
  rw [hs, Option.bind_some] at hread
  obtain rfl : x = LinearSolverOption.mumps := Option.some.inj (hx.symm.trans hread)
  rw [hlast] at hval
  have hname : "MA57".toList = "MUMPS".toList := hval
  exact absurd hname (by decide)

end NLP
end Moo
