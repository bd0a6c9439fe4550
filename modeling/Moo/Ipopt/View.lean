import Moo.GDOP.SolverView
import Moo.Ipopt.Spaces

/-!
# Ipopt.View

The algorithm behind the adapter of the solver sees one NLP as well, with its fixed variables left
out and its constraints split.

* `Replies`: the answer to a request, from the NLP.
* `Track`: what the adapter and the NLP remember of the requests before, from the requests alone.
* `Settled`: whenever the adapter announces no new point, the NLP was evaluated there last, and with
  the same weights.
* `Linked.request`: while the requests are settled, the stored constraints, Jacobian and tags of the
  adapter agree with the cache of the NLP.
* `Linked.requests`: every request of a settled run is answered from the NLP.
* `openSession_linked`: so it begins.
-/

namespace Moo
namespace Ipopt

open FixedVector NLP GDOP

/-! ## What the algorithm is told -/

def Request.Evaluation {K : Type} : Request K → Prop
  | .startingPoint _ _ _ _ => False
  | _ => True

section Replies

variable {K : Type} [Field K] [LinearOrder K] (N : Functions K) (spaces : Spaces)
variable (value : Tag → List K)

/-- The answer is that of `N`; a starting point may be any. -/
def Replies : Request K → List K → Prop
  | .evalF x, v => v = [N.f (point N spaces (value x))]
  | .evalGradF x, v => v = spaces.xPos.map (N.gradF (point N spaces (value x)))
  | .evalC x, v => v = spaces.cPos.map fun r =>
      N.g (point N spaces (value x)) r - raw N.bounds.gLb r
  | .evalD x, v => v = spaces.dPos.map (N.g (point N spaces (value x)))
  | .evalJacC x, v => v = spaces.jacC.map fun e => N.jacG (point N spaces (value x)) e.idx
  | .evalJacD x, v => v = spaces.jacD.map fun e => N.jacG (point N spaces (value x)) e.idx
  | .evalH x objFactor yc yd, v => v = spaces.h.map fun e =>
      if weightless value objFactor yc yd then 0
      else N.hesL (point N spaces (value x)) (duals spaces (value yc) (value yd)) objFactor e.idx
  | .startingPoint _ _ _ _, _ => True

end Replies

/-! ## Keeping track -/

/-- The tags of the adapter; then the tags and the factor of what the NLP was evaluated with last,
since the last starting point. -/
structure Track (K : Type) where
  iterates : Option Tag := none
  multipliers : Option (Tag × Tag) := none
  g : Option Tag := none
  jac : Option Tag := none
  sentX : Option Tag := none
  sentY : Option (Tag × Tag) := none
  sentFactor : Option K := none

namespace Track

variable {K : Type} [Field K] [LinearOrder K] (value : Tag → List K) (t : Track K)

def evaluate (x : Tag) : Track K :=
  { t with
    iterates := some x
    sentX := some x
    sentFactor := if t.iterates = some x then t.sentFactor else none }

def evaluateG (x : Tag) : Track K :=
  if t.g = some x then { t with iterates := some x } else { t.evaluate x with g := some x }

def evaluateJacG (x : Tag) : Track K :=
  if t.jac = some x then { t with iterates := some x } else { t.evaluate x with jac := some x }

def note : Request K → Track K
  | .evalF x => t.evaluate x
  | .evalGradF x => t.evaluate x
  | .evalC x => t.evaluateG x
  | .evalD x => t.evaluateG x
  | .evalJacC x => t.evaluateJacG x
  | .evalJacD x => t.evaluateJacG x
  | .evalH x objFactor yc yd =>
    if weightless value objFactor yc yd then t
    else
      { t.evaluate x with
        multipliers := some (yc, yd)
        sentY := some (yc, yd)
        sentFactor := some objFactor }
  | .startingPoint _ _ _ _ => { t with sentX := none, sentY := none, sentFactor := none }

/-- A point that is not announced was evaluated last. -/
def Current (x : Tag) : Prop := t.iterates = some x → t.sentX = some x

/-- What is not answered from the stored vectors is at such a point. A Hessian has multipliers to
match, and with point and multipliers the factor of the one before. -/
def Settled : Request K → Prop
  | .evalF x => t.Current x
  | .evalGradF x => t.Current x
  | .evalC x => t.g ≠ some x → t.Current x
  | .evalD x => t.g ≠ some x → t.Current x
  | .evalJacC x => t.jac ≠ some x → t.Current x
  | .evalJacD x => t.jac ≠ some x → t.Current x
  | .evalH x objFactor yc yd => weightless value objFactor yc yd = false → t.Current x ∧
      (t.multipliers = some (yc, yd) → t.sentY = some (yc, yd)) ∧
      (t.iterates = some x → t.multipliers = some (yc, yd) →
        ∀ sigma, t.sentFactor = some sigma → objFactor = sigma)
  | .startingPoint _ _ _ _ => True

def notes (rs : List (Request K)) : Track K := rs.foldl (note value) t

/-- Every request is settled at its turn. -/
def Along : Track K → List (Request K) → Prop
  | _, [] => True
  | t, r :: rs => t.Settled value r ∧ Along (t.note value r) rs

end Track

/-! ## The adapter and the NLP behind it -/

section Linked

variable {K : Type} [Field K] [LinearOrder K] {T : FLGR K} (cb : Callbacks T) (P : Problem K)
variable (past : Nat → Nat × Nat) (m : MeshPtr T) (factory : Option (ScalingFactory T))

def userScaling : UserScaling K :=
  (factory.map fun f => f m.mesh (getSizes P m.mesh)).getD .noScaling

/-- The NLP of a solve: that of the mesh, seen through the scaling. -/
def solveNlp : Functions K := (nlp cb P m past).scaled (userScaling P m factory)

variable (value : Tag → List K) (N : Functions K) (spaces : Spaces)

/-- The NLP is open, and its cache agrees with the ledger. -/
structure Sound (l : Ledger T) (s : State T) : Prop where
  kept : Kept cb P past l s
  ready : l.Ready
  hes : l.hes = 1
  mesh : l.mesh = m
  user : l.user = userScaling P m factory
  factory : l.factory = factory
  nlp : (nlp cb P l.mesh past).scaled l.user = N

/-- The adapter agrees with the track, and the track with the ledger. -/
structure Linked (l : Ledger T) (t : Track K) (s : Session T) : Prop where
  sound : Sound cb P past m factory N l s.nlp
  spaces_eq : s.tnlp.spaces = spaces
  cRhs : s.tnlp.cRhs = spaces.cPos.map (raw N.bounds.gLb)
  iterates : s.tnlp.xTagForIterates = t.iterates
  multipliers : s.tnlp.yTagsForIterates = t.multipliers
  g : s.tnlp.xTagForG = t.g
  jac : s.tnlp.xTagForJacG = t.jac
  /-- `full_x_` keeps the values of fixed variables. -/
  fullX_base : ∀ v, resortX spaces v s.tnlp.fullX = point N spaces v
  fullX : ∀ x, t.iterates = some x → s.tnlp.fullX = point N spaces (value x)
  fullLambda_base : ∀ c d, resortG spaces c d s.tnlp.fullLambda = duals spaces c d
  fullLambda : ∀ y, t.multipliers = some y →
    s.tnlp.fullLambda = duals spaces (value y.1) (value y.2)
  fullG : ∀ x, t.g = some x →
    s.tnlp.fullG = fill N.numberConstraints (N.g (point N spaces (value x)))
  jacG : ∀ x, t.jac = some x → s.tnlp.jacG = fill N.nnzJac (N.jacG (point N spaces (value x)))
  lastX : ∀ x, t.sentX = some x → l.lastX = some (point N spaces (value x))
  lastLambda : ∀ y, t.sentY = some y →
    l.lastLambda = some (duals spaces (value y.1) (value y.2))
  lastSigma : l.lastSigma = t.sentFactor

variable {cb P past m factory value N spaces} {l : Ledger T} {t : Track K} {s : Session T}

/-- An evaluation with its flags as they should be. -/
theorem Sound.forward (hP : HessianLayoutOk P) {nlp : State T}
    (h : Sound cb P past m factory N l nlp) {c : Call T} (hc : c.Evaluation)
    (hx : l.XFlagged P c) (hl : l.LambdaFlagged P c)
    (hs : l.SameSigma c) : ∃ nlp' v, step cb P past nlp c = some (nlp', v) ∧ Told N c v ∧
      Sound cb P past m factory N (l.note P c) nlp' := by
  obtain ⟨nlp', v, hstep, htold⟩ := h.kept.hesInv.told hP h.kept.inv hc hx hl hs
  rw [h.nlp] at htold
  have hk := h.kept.step hx hl hs hstep
  refine ⟨nlp', v, hstep, htold, ?_⟩
  cases c <;> first | exact hc.elim | exact ⟨hk, h.ready, h.hes, h.mesh, h.user, h.factory, h.nlp⟩

def TNLPAdapter.moveTo (a : TNLPAdapter K) (x : Tag) (p : Nat → K) : TNLPAdapter K :=
  { a with fullX := p, xTagForIterates := some x }

def TNLPAdapter.weighTo (a : TNLPAdapter K) (yc yd : Tag) (q : Nat → K) : TNLPAdapter K :=
  { a with fullLambda := q, yTagsForIterates := some (yc, yd) }

section Requests

variable (h : Linked cb P past m factory value N spaces l t s)

include h

omit [LinearOrder K]

theorem Linked.updateLocalX (x : Tag) : s.tnlp.updateLocalX value x =
    (decide (t.iterates ≠ some x), s.tnlp.moveTo x (point N spaces (value x))) := by
  unfold TNLPAdapter.updateLocalX TNLPAdapter.moveTo
  rw [h.iterates]
  by_cases hx : t.iterates = some x
  · rw [if_pos hx, ← h.fullX x hx, ← hx, ← h.iterates]
    simp only [ne_eq, not_true, decide_false]
  · have hp : resortX s.tnlp.spaces (value x) s.tnlp.fullX = point N spaces (value x) := by
      rw [h.spaces_eq, h.fullX_base]
    rw [if_neg hx, hp, decide_eq_true hx]

theorem Linked.updateLocalLambda (yc yd : Tag) : s.tnlp.updateLocalLambda value yc yd =
    (decide (t.multipliers ≠ some (yc, yd)),
      s.tnlp.weighTo yc yd (duals spaces (value yc) (value yd))) := by
  unfold TNLPAdapter.updateLocalLambda TNLPAdapter.weighTo
  rw [h.multipliers]
  by_cases hy : t.multipliers = some (yc, yd)
  · rw [if_pos hy, ← h.fullLambda _ hy, ← hy, ← h.multipliers]
    simp only [ne_eq, not_true, decide_false]
  · have hq : resortG s.tnlp.spaces (value yc) (value yd) s.tnlp.fullLambda =
        duals spaces (value yc) (value yd) := by
      rw [h.spaces_eq, h.fullLambda_base]
    rw [if_neg hy, hq, decide_eq_true hy]

theorem Linked.xFlag {x : Tag} (hx : t.Current x) :
    l.XFlag P (decide (t.iterates ≠ some x)) (point N spaces (value x)) := by
  refine ⟨h.sound.ready, ?_⟩
  by_cases hi : t.iterates = some x
  · exact .inr ⟨_, h.lastX x (hx hi), fun _ _ => rfl⟩
  · exact .inl (decide_eq_true hi)

/-- At another point, without an evaluation. -/
theorem Linked.moveTo (x : Tag) :
    Linked cb P past m factory value N spaces l { t with iterates := some x }
    { s with tnlp := s.tnlp.moveTo x (point N spaces (value x)) } :=
  { h with
    iterates := rfl
    fullX_base := fun v => resort_resort spaces.xPos v (value x) _
    fullX := fun y hy => (by cases hy; rfl) }

/-- With other multipliers, without an evaluation. -/
theorem Linked.weighTo (yc yd : Tag) :
    Linked cb P past m factory value N spaces l { t with multipliers := some (yc, yd) }
      { s with tnlp := s.tnlp.weighTo yc yd (duals spaces (value yc) (value yd)) } :=
  { h with
    multipliers := rfl
    fullLambda_base := fun c d => resortG_resortG ..
    fullLambda := fun y hy => (by cases hy; rfl) }

/-- After an evaluation of first order. -/
theorem Linked.evaluate (x : Tag) {nlp : State T} (hs : Sound cb P past m factory N
      (l.noteX (decide (t.iterates ≠ some x)) (point N spaces (value x))) nlp) :
    Linked cb P past m factory value N spaces
      (l.noteX (decide (t.iterates ≠ some x)) (point N spaces (value x))) (t.evaluate x)
      { tnlp := s.tnlp.moveTo x (point N spaces (value x)), nlp := nlp } :=
  { h.moveTo x with
    sound := hs
    lastX := fun y hy => (by cases hy; rfl)
    lastSigma := by
      dsimp only [Ledger.noteX, Track.evaluate]
      rw [h.lastSigma]
      by_cases hi : t.iterates = some x
      · rw [if_neg (by simpa using hi), if_pos hi]
      · rw [if_pos (by simpa using hi), if_neg hi] }

variable [LinearOrder K] (hP : HessianLayoutOk P)

include hP

theorem Linked.evalF {x : Tag} (hx : t.Current x) : ∃ l' s',
    answer cb P past value s (.evalF x) = some (s', [N.f (point N spaces (value x))]) ∧
      Linked cb P past m factory value N spaces l' (t.evaluate x) s' := by
  obtain ⟨nlp, v, hstep, rfl, hs⟩ := h.sound.forward hP
    (c := .evalF (decide (t.iterates ≠ some x)) (point N spaces (value x))) trivial (h.xFlag hx)
    trivial trivial
  refine ⟨_, _, ?_, h.evaluate x hs⟩
  rw [answer, h.updateLocalX]
  exact congrArg (Option.map _) hstep

theorem Linked.evalGradF (hr : Splits N spaces) {x : Tag} (hx : t.Current x) : ∃ l' s',
    answer cb P past value s (.evalGradF x) =
        some (s', spaces.xPos.map (N.gradF (point N spaces (value x)))) ∧
      Linked cb P past m factory value N spaces l' (t.evaluate x) s' := by
  obtain ⟨nlp, v, hstep, rfl, hs⟩ := h.sound.forward hP
    (c := .evalGradF (decide (t.iterates ≠ some x)) (point N spaces (value x))) trivial (h.xFlag hx)
    trivial trivial
  refine ⟨_, _, ?_, h.evaluate x hs⟩
  rw [answer, h.updateLocalX]
  refine (congrArg (Option.map _) hstep).trans (congrArg (fun v => some (_, v)) ?_)
  dsimp only [TNLPAdapter.moveTo]
  rw [h.spaces_eq]
  exact List.map_congr_left fun i hi => raw_fill_lt _ (hr.lt_of_xPos hi)

/-- The constraints are stored for the point, or evaluated and stored. -/
theorem Linked.internalEvalG {x : Tag} (hx : t.g ≠ some x → t.Current x) : ∃ l' s',
    Ipopt.internalEvalG cb P past { s with tnlp := s.tnlp.moveTo x (point N spaces (value x)) }
        (decide (t.iterates ≠ some x)) = some s' ∧
      Linked cb P past m factory value N spaces l' (t.evaluateG x) s' ∧
      s'.tnlp.fullG = fill N.numberConstraints (N.g (point N spaces (value x))) := by
  unfold Track.evaluateG
  by_cases hg : t.g = some x
  · rw [if_pos hg]
    exact ⟨l, _, if_pos (h.g.trans hg), h.moveTo x, h.fullG x hg⟩
  · obtain ⟨nlp, v, hstep, rfl, hs⟩ := h.sound.forward hP
      (c := .evalG (decide (t.iterates ≠ some x)) (point N spaces (value x))) trivial
      (h.xFlag (hx hg)) trivial trivial
    rw [if_neg hg]
    have hg' : (s.tnlp.moveTo x (point N spaces (value x))).xTagForG ≠ some x := fun e =>
      hg (h.g.symm.trans e)
    have he := h.evaluate x hs
    exact ⟨_, _, (if_neg hg').trans (congrArg (Option.map _) hstep),
      { he with g := rfl, fullG := fun y hy => (by cases hy; rfl) }, rfl⟩

theorem Linked.internalEvalJacG {x : Tag} (hx : t.jac ≠ some x → t.Current x) : ∃ l' s',
    Ipopt.internalEvalJacG cb P past { s with tnlp := s.tnlp.moveTo x (point N spaces (value x)) }
        (decide (t.iterates ≠ some x)) = some s' ∧
      Linked cb P past m factory value N spaces l' (t.evaluateJacG x) s' ∧
      s'.tnlp.jacG = fill N.nnzJac (N.jacG (point N spaces (value x))) := by
  unfold Track.evaluateJacG
  by_cases hj : t.jac = some x
  · rw [if_pos hj]
    exact ⟨l, _, if_pos (h.jac.trans hj), h.moveTo x, h.jacG x hj⟩
  · obtain ⟨nlp, v, hstep, rfl, hs⟩ := h.sound.forward hP
      (c := .evalJac (decide (t.iterates ≠ some x)) (point N spaces (value x))) trivial
      (h.xFlag (hx hj)) trivial trivial
    rw [if_neg hj]
    have hj' : (s.tnlp.moveTo x (point N spaces (value x))).xTagForJacG ≠ some x := fun e =>
      hj (h.jac.symm.trans e)
    have he := h.evaluate x hs
    exact ⟨_, _, (if_neg hj').trans (congrArg (Option.map _) hstep),
      { he with jac := rfl, jacG := fun y hy => (by cases hy; rfl) }, rfl⟩

section InRange

variable (hr : Splits N spaces)

include hr

theorem Linked.evalC {x : Tag} (hx : t.g ≠ some x → t.Current x) : ∃ l' s',
    answer cb P past value s (.evalC x) = some (s', spaces.cPos.map fun r =>
        N.g (point N spaces (value x)) r - raw N.bounds.gLb r) ∧
      Linked cb P past m factory value N spaces l' (t.evaluateG x) s' := by
  obtain ⟨l', s', hs, hl, hg⟩ := h.internalEvalG hP hx
  refine ⟨l', s', ?_, hl⟩
  rw [answer, h.updateLocalX]
  refine (congrArg (Option.map _) hs).trans (congrArg (fun v => some (_, v)) ?_)
  rw [hl.spaces_eq, hl.cRhs, hg, List.zipWith_map_right, List.zipWith_self]
  exact List.map_congr_left fun r hm => congrArg (· - _) (raw_fill_lt _ ((hr.cPos r).mp hm).1)

theorem Linked.evalD {x : Tag} (hx : t.g ≠ some x → t.Current x) : ∃ l' s',
    answer cb P past value s (.evalD x) =
        some (s', spaces.dPos.map (N.g (point N spaces (value x)))) ∧
      Linked cb P past m factory value N spaces l' (t.evaluateG x) s' := by
  obtain ⟨l', s', hs, hl, hg⟩ := h.internalEvalG hP hx
  refine ⟨l', s', ?_, hl⟩
  rw [answer, h.updateLocalX]
  refine (congrArg (Option.map _) hs).trans (congrArg (fun v => some (_, v)) ?_)
  rw [hl.spaces_eq, hg]
  exact List.map_congr_left fun r hm => raw_fill_lt _ ((hr.dPos r).mp hm).1

theorem Linked.evalJacC {x : Tag} (hx : t.jac ≠ some x → t.Current x) : ∃ l' s',
    answer cb P past value s (.evalJacC x) =
        some (s', spaces.jacC.map fun e => N.jacG (point N spaces (value x)) e.idx) ∧
      Linked cb P past m factory value N spaces l' (t.evaluateJacG x) s' := by
  obtain ⟨l', s', hs, hl, hj⟩ := h.internalEvalJacG hP hx
  refine ⟨l', s', ?_, hl⟩
  rw [answer, h.updateLocalX]
  refine (congrArg (Option.map _) hs).trans (congrArg (fun v => some (_, v)) ?_)
  rw [hl.spaces_eq, hj]
  exact List.map_congr_left fun e hm => raw_fill_lt _ (idx_of_mem_nonzeros (hr.jacC ▸ hm))

theorem Linked.evalJacD {x : Tag} (hx : t.jac ≠ some x → t.Current x) : ∃ l' s',
    answer cb P past value s (.evalJacD x) =
        some (s', spaces.jacD.map fun e => N.jacG (point N spaces (value x)) e.idx) ∧
      Linked cb P past m factory value N spaces l' (t.evaluateJacG x) s' := by
  obtain ⟨l', s', hs, hl, hj⟩ := h.internalEvalJacG hP hx
  refine ⟨l', s', ?_, hl⟩
  rw [answer, h.updateLocalX]
  refine (congrArg (Option.map _) hs).trans (congrArg (fun v => some (_, v)) ?_)
  rw [hl.spaces_eq, hj]
  exact List.map_congr_left fun e hm => raw_fill_lt _ (idx_of_mem_nonzeros (hr.jacD ▸ hm))

/-- The multipliers are resorted like the point. -/
theorem Linked.evalH {x : Tag} {objFactor : K} {yc yd : Tag}
    (hw : weightless value objFactor yc yd = false) (hx : t.Current x)
    (hy : t.multipliers = some (yc, yd) → t.sentY = some (yc, yd))
    (hs : t.iterates = some x → t.multipliers = some (yc, yd) →
      ∀ sigma, t.sentFactor = some sigma → objFactor = sigma) : ∃ l' s',
    answer cb P past value s (.evalH x objFactor yc yd) = some (s', spaces.h.map fun e =>
        N.hesL (point N spaces (value x)) (duals spaces (value yc) (value yd)) objFactor e.idx) ∧
      Linked cb P past m factory value N spaces l' (t.note value (.evalH x objFactor yc yd))
        s' := by
  have hlambda : l.LambdaFlagged P (.evalHes (decide (t.iterates ≠ some x))
      (point N spaces (value x)) (decide (t.multipliers ≠ some (yc, yd)))
      (duals spaces (value yc) (value yd)) objFactor) := by
    refine ⟨h.sound.hes, ?_⟩
    by_cases he : t.multipliers = some (yc, yd)
    · exact .inr ⟨_, h.lastLambda _ (hy he), fun _ _ => rfl⟩
    · exact .inl (decide_eq_true he)
  have hsigma : l.SameSigma (.evalHes (decide (t.iterates ≠ some x)) (point N spaces (value x))
      (decide (t.multipliers ≠ some (yc, yd))) (duals spaces (value yc) (value yd)) objFactor) := by
    intro hi he sigma hl
    simp only [ne_eq, decide_eq_false_iff_not, not_not] at hi he
    exact hs hi he sigma (h.lastSigma.symm.trans hl)
  obtain ⟨nlp, v, hstep, rfl, hsound⟩ := h.sound.forward hP
    (c := .evalHes (decide (t.iterates ≠ some x)) (point N spaces (value x))
      (decide (t.multipliers ≠ some (yc, yd))) (duals spaces (value yc) (value yd)) objFactor)
    trivial (h.xFlag hx) hlambda hsigma
  have hanswer : answer cb P past value s (.evalH x objFactor yc yd) =
      some (⟨(s.tnlp.moveTo x (point N spaces (value x))).weighTo yc yd
        (duals spaces (value yc) (value yd)), nlp⟩, spaces.h.map fun e =>
        N.hesL (point N spaces (value x)) (duals spaces (value yc) (value yd)) objFactor
          e.idx) := by
    rw [answer, if_neg (by rw [hw]; decide), h.updateLocalX]
    dsimp only
    rw [(h.moveTo x).updateLocalLambda]
    refine (congrArg (Option.map _) hstep).trans (congrArg (fun v => some (_, v)) ?_)
    dsimp only [TNLPAdapter.moveTo, TNLPAdapter.weighTo]
    rw [h.spaces_eq]
    exact List.map_congr_left fun e hm => raw_fill_lt _ (idx_of_mem_nonzeros (hr.h ▸ hm))
  have hm := (h.moveTo x).weighTo yc yd
  rw [Track.note, if_neg (by rw [hw]; decide)]
  exact ⟨_, _, hanswer,
    { hm with
      sound := hsound
      lastX := fun y hy => (by cases hy; rfl)
      lastLambda := fun y hy => (by cases hy; rfl)
      lastSigma := rfl }⟩

end InRange

omit hP in
/-- A starting point is written over the point of the NLP. -/
theorem Linked.startingPoint {needX needY needZ : Bool} {arrays : Iterate K}
    {q : Session T × List K}
    (hq : answer cb P past value s (.startingPoint needX needY needZ arrays) = some q) :
    Linked cb P past m factory value N spaces l.forget
      (t.note value (.startingPoint needX needY needZ arrays)) q.1 := by
  obtain ⟨r, hr, rfl⟩ := Option.map_eq_some_iff.mp hq
  have hstep : step cb P past s.nlp (.getInitialGuess needX needY needZ arrays) =
      some (r.1, []) := congrArg (Option.map _) hr
  have hx : l.XFlagged P (.getInitialGuess needX needY needZ arrays) := trivial
  have hk := h.sound.kept.step hx trivial trivial hstep
  exact
    { h with
      sound := { h.sound with kept := hk }
      lastX := fun _ hx => (by cases hx)
      lastLambda := fun _ hy => (by cases hy)
      lastSigma := rfl }

variable (hr : Splits N spaces)

include hr

/-- An evaluation that is settled is answered. -/
theorem Linked.evaluation {r : Request K} (he : r.Evaluation) (hs : t.Settled value r) :
    ∃ l' s' v, answer cb P past value s r = some (s', v) ∧
      Linked cb P past m factory value N spaces l' (t.note value r) s' ∧
      Replies N spaces value r v := by
  cases r with
  | evalF x =>
    obtain ⟨l', s', ha, hl⟩ := h.evalF hP hs
    exact ⟨l', s', _, ha, hl, rfl⟩
  | evalGradF x =>
    obtain ⟨l', s', ha, hl⟩ := h.evalGradF hP hr hs
    exact ⟨l', s', _, ha, hl, rfl⟩
  | evalC x =>
    obtain ⟨l', s', ha, hl⟩ := h.evalC hP hr hs
    exact ⟨l', s', _, ha, hl, rfl⟩
  | evalD x =>
    obtain ⟨l', s', ha, hl⟩ := h.evalD hP hr hs
    exact ⟨l', s', _, ha, hl, rfl⟩
  | evalJacC x =>
    obtain ⟨l', s', ha, hl⟩ := h.evalJacC hP hr hs
    exact ⟨l', s', _, ha, hl, rfl⟩
  | evalJacD x =>
    obtain ⟨l', s', ha, hl⟩ := h.evalJacD hP hr hs
    exact ⟨l', s', _, ha, hl, rfl⟩
  | evalH x objFactor yc yd =>
    dsimp only [Replies]
    cases hw : weightless value objFactor yc yd with
    | true =>
      refine ⟨l, s, _, if_pos hw, ?_, ?_⟩
      · rw [Track.note, if_pos hw]
        exact h
      · rw [h.spaces_eq]
        rfl
    | false =>
      obtain ⟨hx, hy, hf⟩ := hs hw
      obtain ⟨l', s', ha, hl⟩ := h.evalH hP hr hw hx hy hf
      exact ⟨l', s', _, ha, hl, rfl⟩
  | startingPoint needX needY needZ arrays => exact he.elim

theorem Linked.request {r : Request K} (hs : t.Settled value r) {q : Session T × List K}
    (hq : answer cb P past value s r = some q) :
    ∃ l', Linked cb P past m factory value N spaces l' (t.note value r) q.1 ∧
      Replies N spaces value r q.2 := by
  have evaluated (he : r.Evaluation) : ∃ l', Linked cb P past m factory value N spaces l'
      (t.note value r) q.1 ∧ Replies N spaces value r q.2 := by
    obtain ⟨l', s', v, ha, hl, hv⟩ := h.evaluation hP hr he hs
    rw [ha, Option.some_inj] at hq
    exact hq ▸ ⟨l', hl, hv⟩
  cases r with
  | startingPoint needX needY needZ arrays => exact ⟨_, h.startingPoint hq, trivial⟩
  | _ => exact evaluated trivial

theorem Linked.requests {rs : List (Request K)} (hs : t.Along value rs)
    {q : Session T × List (List K)} (hq : answers cb P past value s rs = some q) :
    ∃ l', Linked cb P past m factory value N spaces l' (t.notes value rs) q.1 ∧
      List.Forall₂ (Replies N spaces value) rs q.2 := by
  induction rs generalizing l t s q with
  | nil =>
    cases hq
    exact ⟨l, h, .nil⟩
  | cons r rs ih =>
    obtain ⟨q₁, hq₁, hq⟩ := Option.bind_eq_some_iff.mp hq
    obtain ⟨q₂, hq₂, rfl⟩ := Option.map_eq_some_iff.mp hq
    obtain ⟨l₁, hl₁, hv₁⟩ := h.request hP hr hs.1 hq₁
    obtain ⟨l₂, hl₂, hv₂⟩ := ih hl₁ hs.2 hq₂
    exact ⟨l₂, hl₂, .cons hv₁ hv₂⟩

end Requests

/-! ## Opening -/

section Opening

variable {s : State T}

theorem step_getBounds {r : State T × BoundVectors K}
    (hr : s.solverGetBounds (virtuals cb P past) = some r) :
    step cb P past s .getBounds = some (r.1, []) := by
  rw [step, hr]
  rfl

/-- The NLP is queried for its sizes, bounds and patterns, and nothing else happens to it. -/
theorem openSession_eq (h : Kept cb P past l s) (hm : l.mesh = m) (hf : l.factory = factory)
    (hN : solveNlp cb P past m factory = N) :
    ∃ l' s', Sound cb P past m factory N l' s' ∧ l'.lastSigma = none ∧ openSession cb P past s =
        (getSpaces N.numberVars N.numberConstraints N.nnzJac N.nnzHes N.bounds N.jac N.hes).map
          fun spaces =>
            (let (fullX, cRhs, bounds) := getBoundsInformation spaces N.bounds
             ({ tnlp := { spaces, cRhs, fullX, fullLambda := fun _ => 0, fullG := [], jacG := [] }
                nlp := s' }, bounds)) := by
  subst hm hf
  have h₁ := h.step (c := .getInfo) trivial trivial trivial rfl
  obtain ⟨s₂, e₂⟩ := h₁.inv.solverGetBounds rfl (h₁.bounded rfl)
  have h₂ := h₁.step (c := .getBounds) trivial trivial trivial (step_getBounds e₂)
  have h₃ := h₂.step (c := .getJacSparsity) trivial trivial trivial rfl
  have h₄ := h₃.step (c := .getHesSparsity) trivial trivial trivial rfl
  obtain ⟨s₅, e₅⟩ := h₄.inv.solverGetBounds rfl (h₄.bounded rfl)
  let s₄ := ((s₂.solverGetJacSparsity (virtuals cb P past)).1.solverGetHesSparsity
    (virtuals cb P past)).1
  have h₅ := h₄.step (c := .getBounds) trivial trivial trivial (step_getBounds e₅)
  have hz := h₄.inv.sized rfl
  have hv : s₄.numberVars = N.numberVars := hN ▸ hz.numberVars
  have hc : s₄.numberConstraints = N.numberConstraints := hN ▸ hz.numberConstraints
  have hj : s₄.nnzJac = N.nnzJac := hN ▸ hz.nnzJac
  have hh : s₄.nnzHes = N.nnzHes := hN ▸ hz.nnzHes
  have hjac : s₄.jac = N.jac := hN ▸ hz.jac
  have hhes : s₄.hes = N.hes := hN ▸ hz.hes (Nat.le_refl 1)
  refine ⟨_, s₅, ⟨h₅, ⟨rfl, rfl, Nat.one_pos⟩, rfl, rfl, rfl, rfl, hN⟩, rfl, ?_⟩
  have e₂ : IpoptAdapter.getBoundsInfo cb P past (IpoptAdapter.getNlpInfo cb P past s) =
      some (s₂, N.bounds) := hN ▸ e₂
  have e₅ : IpoptAdapter.getBoundsInfo cb P past s₄ = some (s₅, N.bounds) := hN ▸ e₅
  have hsp : openSession cb P past s = (getSpaces s₄.numberVars s₄.numberConstraints s₄.nnzJac
      s₄.nnzHes N.bounds s₄.jac s₄.hes).bind fun spaces =>
        (IpoptAdapter.getBoundsInfo cb P past s₄).bind fun r =>
          (let (fullX, cRhs, bounds) := getBoundsInformation spaces r.2
           some ({ tnlp := { spaces, cRhs, fullX, fullLambda := fun _ => 0, fullG := []
                             jacG := [] }
                   nlp := r.1 }, bounds)) := by
    unfold openSession
    dsimp only
    rw [e₂]
    rfl
  rw [hsp, e₅, hv, hc, hj, hh, hjac, hhes]
  cases getSpaces N.numberVars N.numberConstraints N.nnzJac N.nnzHes N.bounds N.jac N.hes <;> rfl

omit [LinearOrder K] in
theorem solveNlp_xLb : (solveNlp cb P past m factory).bounds.xLb.length =
    (solveNlp cb P past m factory).numberVars :=
  (UserScaling.inplaceScaleX_length _ _).trans (fill_length ..)

variable (value) in
/-- A session that is open is linked, and nothing has been requested. -/
theorem openSession_linked (h : Kept cb P past l s) (hm : l.mesh = m) (hf : l.factory = factory)
    (hN : solveNlp cb P past m factory = N) {q : Session T × BoundVectors K}
    (hq : openSession cb P past s = some q) : Splits N q.1.tnlp.spaces ∧
      ∃ l', Linked cb P past m factory value N q.1.tnlp.spaces l' {} q.1 := by
  obtain ⟨l', s', hs, hsigma, he⟩ := openSession_eq h hm hf hN
  rw [he] at hq
  obtain ⟨spaces, hsp, rfl⟩ := Option.map_eq_some_iff.mp hq
  have hsplits := getSpaces_splits hsp
  refine ⟨hsplits, l', ?_⟩
  exact
    { sound := hs
      spaces_eq := rfl
      cRhs := rfl
      iterates := rfl
      multipliers := rfl
      g := rfl
      jac := rfl
      fullX_base := fun v => by
        funext i
        dsimp only [getBoundsInformation, point, resortX, resort]
        by_cases hi : i ∈ spaces.xPos
        · rw [if_pos hi, if_pos hi]
        · rw [if_neg hi, if_neg hi]
          by_cases hx : i ∈ spaces.xFixedMap
          · rw [if_pos hx]
          · have hn : N.numberVars ≤ i := Nat.not_lt.mp fun hn => hx (hsplits.mem_fixed hn hi)
            rw [if_neg hx, raw_of_le ((hN ▸ solveNlp_xLb).trans_le hn)]
      fullX := fun _ hx => (by cases hx)
      fullLambda_base := fun _ _ => rfl
      fullLambda := fun _ hy => (by cases hy)
      fullG := fun _ hx => (by cases hx)
      jacG := fun _ hx => (by cases hx)
      lastX := fun _ hx => (by cases hx)
      lastLambda := fun _ hy => (by cases hy)
      lastSigma := hsigma }

end Opening

end Linked

end Ipopt
end Moo
