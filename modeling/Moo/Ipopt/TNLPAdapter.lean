import Moo.GDOP.Run

/-!
# Ipopt.TNLPAdapter

The adapter of the solver between its vectors and the NLP, and the adapter that passes its calls on.

A vector of the solver has a tag, and a new one whenever it changes: a request names the tags of its
vectors, and `value` holds what they stand for. `TNLPAdapter` keeps the point it resorted last, the
constraints and the Jacobian it was given last, and the tags these are for; a tag that it compares
with is `none` in place of the number `0`, which no vector has.

* `getSpaces`: which variables are fixed, which constraints are equations, and the nonzeros of each
  part.
* `Request`, `answer`: evaluations and starting points, in any order and at any points.
* `openSession`: sizes, bounds and patterns, before anything is requested.
* `finalizeSolution`: what is handed over at the end.

Fixed variables are made parameters, or kept when too few variables would remain; derivatives are
not approximated, and the derivative test is off. Openings that fail are left out: no request
follows them.
-/

namespace Moo
namespace Ipopt

open FixedVector NLP GDOP

abbrev Tag := Nat

/-! ## The adapter of the interface -/

namespace IpoptAdapter

variable {K : Type} [Field K] [LinearOrder K] {T : FLGR K} (cb : Callbacks T) (P : Problem K)
variable (past : Nat → Nat × Nat) (nlp : State T)

def getNlpInfo : State T := nlp.solverGetInfo (virtuals cb P past)

def getBoundsInfo : Option (State T × BoundVectors K) := nlp.solverGetBounds (virtuals cb P past)

def getStartingPoint (initX initZ initLambda : Bool) (arrays : Iterate K) :
    Option (State T × Iterate K) :=
  nlp.solverGetInitialGuess (virtuals cb P past) initX initLambda initZ arrays

def evalF (x : Nat → K) (newX : Bool) : Option (State T × List K) :=
  step cb P past nlp (.evalF newX x)

def evalGradF (x : Nat → K) (newX : Bool) : Option (State T × List K) :=
  step cb P past nlp (.evalGradF newX x)

def evalG (x : Nat → K) (newX : Bool) : Option (State T × List K) :=
  step cb P past nlp (.evalG newX x)

/-- Without `values` it is asked for the pattern. -/
def evalJacG (x : Nat → K) (newX values : Bool) : Option (State T × List K) :=
  if values then step cb P past nlp (.evalJac newX x) else step cb P past nlp .getJacSparsity

def evalH (x : Nat → K) (newX : Bool) (objFactor : K) (lambda : Nat → K) (newLambda values : Bool) :
    Option (State T × List K) :=
  if values then step cb P past nlp (.evalHes newX x newLambda lambda objFactor)
  else step cb P past nlp .getHesSparsity

def finalizeSolution (x zL zU lambda : Nat → K) (objValue : K) : Option (State T × List K) :=
  step cb P past nlp (.finalize objValue x lambda zL zU)

end IpoptAdapter

/-! ## Spaces -/

/-- An entry of `jac_g_` or of the full Hessian, with row and column in the part it belongs to,
counted from `0`. -/
structure Nonzero where
  idx : Nat
  row : Nat
  col : Nat
deriving DecidableEq

/-- `x_fixed_map_`, the positions that `P_x_full_x_`, `P_c_g_` and `P_d_g_` expand to, those of the
variables and of the inequalities with bounds, and the nonzeros of each part: `jac_idx_map_` in its
two parts, `jac_fixed_idx_map_` and `h_idx_map_`, each with its rows and columns. -/
structure Spaces where
  xFixedMap : List Nat
  xPos : List Nat
  xLPos : List Nat
  xUPos : List Nat
  cPos : List Nat
  dPos : List Nat
  dLPos : List Nat
  dUPos : List Nat
  jacC : List Nonzero
  jacD : List Nonzero
  jacFixed : List Nonzero
  h : List Nonzero
deriving DecidableEq

section Spaces

variable {K : Type} [Field K] [LinearOrder K]

/-- `nlp_upper_bound_inf_`. -/
def boundInf : K := ((10 ^ 19 : ℕ) : K)

/-- The entries of a pattern within rows and columns. -/
def nonzeros (nnz : Nat) (p : Pattern) (rows cols : List Nat) : List Nonzero :=
  ((List.range nnz).filter fun k => decide (p.row k ∈ rows) && decide (p.col k ∈ cols)).map
    fun k => ⟨k, rows.idxOf (p.row k), cols.idxOf (p.col k)⟩

/-- With too few degrees of freedom, fixed variables stay variables. -/
def relaxBounds (nXFixed nXVar nC : Nat) : Bool :=
  decide (nXFixed ≠ 0) && decide (nXVar < nC) && decide (nXVar ≠ 0)

/-- `none` where bounds are inconsistent. -/
def getSpaces (n m nnzJac nnzHes : Nat) (bounds : BoundVectors K) (jac hes : Pattern) :
    Option Spaces :=
  let fixed (i : Nat) : Bool := raw bounds.xLb i = raw bounds.xUb i
  let equation (r : Nat) : Bool := raw bounds.gLb r = raw bounds.gUb r
  let hasLower (lb : List K) (i : Nat) : Bool := -boundInf < raw lb i
  let hasUpper (ub : List K) (i : Nat) : Bool := raw ub i < boundInf
  if (List.range n).any (fun i => decide (raw bounds.xUb i < raw bounds.xLb i)) ||
      (List.range m).any fun r => decide (raw bounds.gUb r < raw bounds.gLb r) then none
  else
    let xFixed := (List.range n).filter fixed
    let xVar := (List.range n).filter fun i => !fixed i
    let cMap := (List.range m).filter equation
    let dMap := (List.range m).filter fun r => !equation r
    let relax := relaxBounds xFixed.length xVar.length cMap.length
    let xPos := if relax then List.range n else xVar
    some
      { xFixedMap := if relax then [] else xFixed
        xPos := xPos
        xLPos := xPos.filter fun i => fixed i || hasLower bounds.xLb i
        xUPos := xPos.filter fun i => fixed i || hasUpper bounds.xUb i
        cPos := cMap
        dPos := dMap
        dLPos := dMap.filter (hasLower bounds.gLb)
        dUPos := dMap.filter (hasUpper bounds.gUb)
        jacC := nonzeros nnzJac jac cMap xPos
        jacD := nonzeros nnzJac jac dMap xPos
        jacFixed := ((List.range nnzJac).filter fun k => decide (jac.col k ∉ xPos)).map
          fun k => ⟨k, jac.row k, jac.col k⟩
        h := nonzeros nnzHes hes xPos xPos }

variable (spaces : Spaces)

/-- The entry of `v` for position `i`, where there is one. -/
def resort (pos : List Nat) (v : List K) (full : Nat → K) (i : Nat) : K :=
  if i ∈ pos then raw v (pos.idxOf i) else full i

/-- Fixed variables keep their values. -/
def resortX (x : List K) (fullX : Nat → K) : Nat → K := resort spaces.xPos x fullX

def resortG (c d : List K) (g : Nat → K) : Nat → K :=
  resort spaces.dPos d (resort spaces.cPos c g)

def resortBounds (zL zU : List K) : (Nat → K) × (Nat → K) :=
  (resort spaces.xLPos zL fun _ => 0, resort spaces.xUPos zU fun _ => 0)

end Spaces

/-! ## The adapter of the solver -/

structure TNLPAdapter (K : Type) where
  spaces : Spaces
  cRhs : List K
  fullX : Nat → K
  fullLambda : Nat → K
  fullG : List K
  jacG : List K
  xTagForIterates : Option Tag := none
  yTagsForIterates : Option (Tag × Tag) := none
  xTagForG : Option Tag := none
  xTagForJacG : Option Tag := none

/-- The adapter and the NLP behind the interface. -/
structure Session {K : Type} [Field K] (T : FLGR K) where
  tnlp : TNLPAdapter K
  nlp : State T

/-- What the algorithm asks for once the spaces are there. -/
inductive Request (K : Type) where
  | evalF (x : Tag)
  | evalGradF (x : Tag)
  | evalC (x : Tag)
  | evalD (x : Tag)
  | evalJacC (x : Tag)
  | evalJacD (x : Tag)
  | evalH (x : Tag) (objFactor : K) (yc yd : Tag)
  | startingPoint (needX needY needZ : Bool) (arrays : Iterate K)

section Session

variable {K : Type} [Field K] [LinearOrder K] {T : FLGR K} (cb : Callbacks T) (P : Problem K)
variable (past : Nat → Nat × Nat) (value : Tag → List K)

namespace TNLPAdapter

variable (a : TNLPAdapter K)

def updateLocalX (x : Tag) : Bool × TNLPAdapter K :=
  if a.xTagForIterates = some x then (false, a)
  else
    (true, { a with
      fullX := resortX a.spaces (value x) a.fullX
      xTagForIterates := some x })

def updateLocalLambda (yc yd : Tag) : Bool × TNLPAdapter K :=
  if a.yTagsForIterates = some (yc, yd) then (false, a)
  else
    (true, { a with
      fullLambda := resortG a.spaces (value yc) (value yd) a.fullLambda
      yTagsForIterates := some (yc, yd) })

end TNLPAdapter

def asum (v : List K) : K := (v.map fun x => |x|).sum

variable (s : Session T)

/-- With the point of the iterates, unless the constraints are there. -/
def internalEvalG (newX : Bool) : Option (Session T) :=
  if s.tnlp.xTagForG = s.tnlp.xTagForIterates then some s
  else (IpoptAdapter.evalG cb P past s.nlp s.tnlp.fullX newX).map fun r =>
    { tnlp := { s.tnlp with xTagForG := s.tnlp.xTagForIterates, fullG := r.2 }, nlp := r.1 }

def internalEvalJacG (newX : Bool) : Option (Session T) :=
  if s.tnlp.xTagForJacG = s.tnlp.xTagForIterates then some s
  else (IpoptAdapter.evalJacG cb P past s.nlp s.tnlp.fullX newX true).map fun r =>
    { tnlp := { s.tnlp with xTagForJacG := s.tnlp.xTagForIterates, jacG := r.2 }, nlp := r.1 }

/-- The parts that are needed, one after the other. -/
def getStartingPoint (needX needY needZ : Bool) (arrays : Iterate K) :
    Option (Session T × List K) :=
  let spaces := s.tnlp.spaces
  (IpoptAdapter.getStartingPoint cb P past s.nlp needX needZ needY arrays).map fun r =>
    ({ s with nlp := r.1 },
      (if needX then spaces.xPos.map (raw r.2.x) else []) ++
        (if needY then (spaces.cPos ++ spaces.dPos).map (raw r.2.lambda) else []) ++
        if needZ then spaces.xLPos.map (raw r.2.zLb) ++ spaces.xUPos.map (raw r.2.zUb) else [])

/-- All weights are zero, as in the estimate of multipliers by least squares. -/
def weightless (objFactor : K) (yc yd : Tag) : Bool :=
  decide (objFactor = 0) && decide (asum (value yc) = 0) && decide (asum (value yd) = 0)

def answer : Request K → Option (Session T × List K)
  | .evalF x =>
    let (newX, a) := s.tnlp.updateLocalX value x
    (IpoptAdapter.evalF cb P past s.nlp a.fullX newX).map fun r => ({ tnlp := a, nlp := r.1 }, r.2)
  | .evalGradF x =>
    let (newX, a) := s.tnlp.updateLocalX value x
    (IpoptAdapter.evalGradF cb P past s.nlp a.fullX newX).map fun r =>
      ({ tnlp := a, nlp := r.1 }, a.spaces.xPos.map (raw r.2))
  | .evalC x =>
    let (newX, a) := s.tnlp.updateLocalX value x
    (internalEvalG cb P past { s with tnlp := a } newX).map fun s =>
      (s, List.zipWith (fun r rhs => raw s.tnlp.fullG r - rhs) s.tnlp.spaces.cPos s.tnlp.cRhs)
  | .evalD x =>
    let (newX, a) := s.tnlp.updateLocalX value x
    (internalEvalG cb P past { s with tnlp := a } newX).map fun s =>
      (s, s.tnlp.spaces.dPos.map (raw s.tnlp.fullG))
  | .evalJacC x =>
    let (newX, a) := s.tnlp.updateLocalX value x
    (internalEvalJacG cb P past { s with tnlp := a } newX).map fun s =>
      (s, s.tnlp.spaces.jacC.map fun e => raw s.tnlp.jacG e.idx)
  | .evalJacD x =>
    let (newX, a) := s.tnlp.updateLocalX value x
    (internalEvalJacG cb P past { s with tnlp := a } newX).map fun s =>
      (s, s.tnlp.spaces.jacD.map fun e => raw s.tnlp.jacG e.idx)
  | .evalH x objFactor yc yd =>
    -- nothing is evaluated, and no tag is noted
    if weightless value objFactor yc yd then some (s, s.tnlp.spaces.h.map fun _ => 0)
    else
      let (newX, a) := s.tnlp.updateLocalX value x
      let (newY, a) := a.updateLocalLambda value yc yd
      (IpoptAdapter.evalH cb P past s.nlp a.fullX newX objFactor a.fullLambda newY true).map
        fun r => ({ tnlp := a, nlp := r.1 }, a.spaces.h.map fun e => raw r.2 e.idx)
  | .startingPoint needX needY needZ arrays =>
    getStartingPoint cb P past s needX needY needZ arrays

def answers (s : Session T) : List (Request K) → Option (Session T × List (List K))
  | [] => some (s, [])
  | r :: rs => (answer cb P past value s r).bind fun q =>
    (answers q.1 rs).map fun q' => (q'.1, q.2 :: q'.2)

/-! ## Opening -/

/-- `GetBoundsInformation`: values of fixed variables, right-hand sides, and the bounds. With fixed
variables kept, the loop that would relax their bounds has none to go through. -/
def getBoundsInformation (spaces : Spaces) (bounds : BoundVectors K) :
    (Nat → K) × List K × BoundVectors K :=
  (fun i => if i ∈ spaces.xFixedMap then raw bounds.xLb i else 0,
    spaces.cPos.map (raw bounds.gLb),
    { xLb := spaces.xLPos.map (raw bounds.xLb)
      xUb := spaces.xUPos.map (raw bounds.xUb)
      gLb := spaces.dLPos.map (raw bounds.gLb)
      gUb := spaces.dUPos.map (raw bounds.gUb) })

/-- `none` too where bounds are inconsistent. -/
def openSession (nlp : State T) : Option (Session T × BoundVectors K) := do
  let nlp := IpoptAdapter.getNlpInfo cb P past nlp
  let (nlp, bounds) ← IpoptAdapter.getBoundsInfo cb P past nlp
  let (nlp, _) ← IpoptAdapter.evalJacG cb P past nlp (fun _ => 0) false false
  let (nlp, _) ← IpoptAdapter.evalH cb P past nlp (fun _ => 0) false 0 (fun _ => 0) false false
  let spaces ← getSpaces nlp.numberVars nlp.numberConstraints nlp.nnzJac nlp.nnzHes bounds nlp.jac
    nlp.hes
  let (nlp, bounds) ← IpoptAdapter.getBoundsInfo cb P past nlp
  let (fullX, cRhs, bounds) := getBoundsInformation spaces bounds
  some
    ({ tnlp := { spaces, cRhs, fullX, fullLambda := fun _ => 0, fullG := [], jacG := [] }
       nlp := nlp }, bounds)

/-! ## Closing -/

/-- The gradient of the Lagrangian at fixed variables goes to their bounds. -/
def resortBoundMultipliers (x yc yd : Tag) (zL zU : List K) :
    Option (Session T × (Nat → K) × (Nat → K)) :=
  let spaces := s.tnlp.spaces
  let z := resortBounds spaces zL zU
  if spaces.xFixedMap = [] then some (s, z)
  else
    let (newX, a) := s.tnlp.updateLocalX value x
    (IpoptAdapter.evalGradF cb P past s.nlp a.fullX newX).bind fun r =>
      let s : Session T := { tnlp := a, nlp := r.1 }
      (if spaces.jacFixed = [] then some s else internalEvalJacG cb P past s false).map fun s =>
        let lambda := resortG spaces (value yc) (value yd) fun _ => 0
        let mult := Coo.accum
          (spaces.jacFixed.map fun e => (e.col, lambda e.row * raw s.tnlp.jacG e.idx)) (raw r.2)
        (s, fun i => if i ∈ spaces.xFixedMap then max 0 (mult i) else z.1 i,
          fun i => if i ∈ spaces.xFixedMap then max 0 (-mult i) else z.2 i)

/-- `solved`: the status is one that comes with a solution. -/
def finalizeSolution (solved : Bool) (x yc yd : Tag) (zL zU : List K) (objValue : K) :
    Option (Session T) :=
  let (_, a) := s.tnlp.updateLocalX value x
  let (_, a) := a.updateLocalLambda value yc yd
  let a :=
    { a with
      fullX := resortX a.spaces (value x) a.fullX
      fullLambda := resortG a.spaces (value yc) (value yd) a.fullLambda }
  let s : Session T := { s with tnlp := a }
  (if solved then resortBoundMultipliers cb P past value s x yc yd zL zU
    else some (s, resortBounds a.spaces zL zU)).bind fun (s, zL, zU) =>
      (IpoptAdapter.finalizeSolution cb P past s.nlp s.tnlp.fullX zL zU s.tnlp.fullLambda
        objValue).map fun r => { s with nlp := r.1 }

end Session

end Ipopt
end Moo
