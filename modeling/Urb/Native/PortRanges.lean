import Mathlib.Data.Prod.Lex
import Urb.ForStd.SortedSet
import Urb.Native.Types

/-!
# Port ranges

`PortRangeUtility` adds and subtracts lists of port ranges for `__debit_resources` and
`__credit_resources`. It goes through `ChoppyRange`, a sorted set of tuples `(start, stop, step)`
that do not overlap. A `ChoppyRange` is always made with `force_same_step` here, and without a
backup queue.
-/

namespace Urb

/-- What the functions below raise. The first four are `URBException`s. -/
inductive RangeError where
  /-- The tuple overlaps with an element of the set. -/
  | overlap (start stop step : Int)
  | stepMismatch (step other : Int)
  | notInSync
  | stepChanged (had got : Int)
  | valueError (text : String)
  | zeroDivision
  | keyError
  deriving DecidableEq, Repr

/-! ## Tuples -/

/-- `RangeTuple`; both bounds are inclusive. -/
structure RangeTuple where
  start : Int
  stop : Int
  step : Int
  deriving DecidableEq, Repr

namespace RangeTuple

/-- Tuples are compared lexicographically. -/
def key (t : RangeTuple) : Int ×ₗ Int ×ₗ Int := toLex (t.start, toLex (t.stop, t.step))

theorem key_injective : Function.Injective key := by
  intro t u h
  cases t
  cases u
  simp only [key, EmbeddingLike.apply_eq_iff_eq, Prod.mk.injEq] at h
  obtain ⟨rfl, rfl, rfl⟩ := h
  rfl

instance : LinearOrder RangeTuple := LinearOrder.lift' key key_injective

/-- `ck_same_step` -/
def ckSameStep (t other : RangeTuple) : Except RangeError Unit :=
  if t.step ≠ other.step then .error (.stepMismatch t.step other.step) else .ok ()

/-- `fix_indices`: a `stop` that is never reached is replaced. -/
def fixIndices (t : RangeTuple) : Except RangeError RangeTuple :=
  if t.step = 0 then .error .zeroDivision
  else .ok { t with stop := t.start + (t.stop - t.start).fdiv t.step * t.step }

/-- `_ck_and_fix` -/
def ckAndFix (t other : RangeTuple) : Except RangeError (RangeTuple × RangeTuple) := do
  t.ckSameStep other
  let fself ← t.fixIndices
  let fother ← other.fixIndices
  return (fself, fother)

def intersection (t other : RangeTuple) : Except RangeError (Option RangeTuple) := do
  let (fself, fother) ← t.ckAndFix other
  if fself.stop < fother.start ∨ fother.stop < fself.start then return none
  return some ⟨max fself.start fother.start, min fself.stop fother.stop, fself.step⟩

/-- `test_sync` -/
def testSync (t other : RangeTuple) : Except RangeError Unit := do
  t.ckSameStep other
  if t.step = 0 then throw .zeroDivision
  if (other.start - t.start).fmod t.step ≠ 0 then throw .notInSync

/-- `remove_overlap`: what is left of a range without its overlap with another one. -/
def removeOverlap (t other : RangeTuple) : Except RangeError (List RangeTuple) := do
  let (fself, fother) ← t.ckAndFix other
  match ← fself.intersection fother with
  | none => return [fself]
  | some intersection =>
    fself.testSync fother
    if fself.start < intersection.start then
      let low : RangeTuple := ⟨fself.start, intersection.start - fself.step, fself.step⟩
      if intersection.stop < t.stop then
        return [low, ⟨intersection.stop + fself.step, fself.stop, fself.step⟩]
      else return [low]
    else if intersection.stop < fself.stop then
      return [⟨intersection.stop + fself.step, fself.stop, fself.step⟩]
    else return []

/-- `other in self` -/
def contains (t other : RangeTuple) : Bool := t.start ≤ other.start && t.stop ≥ other.stop

def join (t other : RangeTuple) : List RangeTuple :=
  let low := min t other
  let high := max t other
  if low.stop + low.step = high.start then [⟨low.start, high.stop, low.step⟩] else [low, high]

def union (t other : RangeTuple) : Except RangeError (List RangeTuple) := do
  let (fself, fother) ← t.ckAndFix other
  if fself.contains fother then return [fself]
  if fother.contains fself then return [fother]
  match ← t.intersection fother with
  | none => return fself.join fother
  | some _ =>
    if fother.start < fself.start then return [⟨fother.start, fself.stop, fself.step⟩]
    else return [⟨fself.start, fother.stop, fself.step⟩]

/-- `difference` is the symmetric difference. -/
def difference (t other : RangeTuple) : Except RangeError (List RangeTuple) := do
  let (fself, fother) ← t.ckAndFix other
  match ← t.intersection fother with
  | none => return fself.join fother
  | some i =>
    let low := if fself.start < fother.start then fself.start else fother.start
    let high := if fself.stop > fother.stop then fself.stop else fother.stop
    let ret := (if low < i.start then [⟨low, i.start - fself.step, fself.step⟩] else []) ++
      if i.stop < high then [⟨i.stop + fself.step, high, fself.step⟩] else []
    match ret with
    | [a, b] => return a.join b
    | ret => return ret

end RangeTuple

/-! ## Sets of intervals -/

/-- `IntervalSet` -/
abbrev IntervalSet := SortedSet RangeTuple

namespace IntervalSet

/-- The test of `__contains__` for a neighbour. -/
def overlaps (e n : RangeTuple) : Bool := !(e.stop < n.start || e.start > n.stop)

/-- `__contains__`: the tuple overlaps with one of its neighbours. -/
def contains (s : IntervalSet) (e : RangeTuple) : Bool :=
  let (prev, next) := s.neighbors e
  prev.any (overlaps e) || next.any (overlaps e)

/-- `IntervalSet.add` -/
def insert (s : IntervalSet) (e : RangeTuple) : Except RangeError IntervalSet :=
  if s.contains e then .error (.overlap e.start e.stop e.step) else .ok (s.add e)

/-- `IntervalSet.add` as it acts on the object, which stays as it is when the call raises -/
def addElement (e : RangeTuple) : EStateM RangeError IntervalSet Unit := do
  match (← get).insert e with
  | .ok s => set s
  | .error x => throw x

end IntervalSet

/-- `ChoppyRange`. The step of an empty one is not set. -/
structure ChoppyRange where
  choppyRange : IntervalSet := {}
  ignoreOverlaps : Bool := false
  step : Option Int := none

namespace ChoppyRange

/-- The first part of `_add_tuple`. A step of `0` counts as not set. -/
def checkStep (c : ChoppyRange) (t : RangeTuple) : Except RangeError ChoppyRange :=
  if c.step.getD 0 = 0 then .ok { c with step := some t.step }
  else if c.step ≠ some t.step then .error (.stepChanged (c.step.getD 0) t.step)
  else .ok c

/-- `_add_tuple`, which `insert` calls for a tuple. -/
def insert (c : ChoppyRange) (t : RangeTuple) : Except RangeError ChoppyRange := do
  let c ← c.checkStep t
  match c.choppyRange.insert t with
  | .ok s => return { c with choppyRange := s }
  | .error e => if c.ignoreOverlaps then return c else throw e

/-- `choppyRange.remove` -/
def discard (c : ChoppyRange) (t : RangeTuple) : Except RangeError ChoppyRange :=
  match c.choppyRange.remove? t with
  | none => .error .keyError
  | some s => .ok { c with choppyRange := s }

/-- `_updateTupleOverlap` of `subtract` -/
def updateTupleOverlap (c : ChoppyRange) (old : Option RangeTuple) (overlap : RangeTuple) :
    Except RangeError ChoppyRange :=
  match old with
  | none => .ok c
  | some old => do
    let new ← old.removeOverlap overlap
    if new.head? = some old then return c
    new.foldlM insert (← c.discard old)

/-- One iteration of `subtract`. The neighbours are looked up before either of them is updated. -/
def subtractTuple (c : ChoppyRange) (e : RangeTuple) : Except RangeError ChoppyRange := do
  let (prev, next) := c.choppyRange.neighbors e
  let c ← c.updateTupleOverlap prev e
  c.updateTupleOverlap next e

def subtract (c cr : ChoppyRange) : Except RangeError ChoppyRange :=
  cr.choppyRange.toList.foldlM subtractTuple c

def remove (c : ChoppyRange) (toRemove : RangeTuple) : Except RangeError ChoppyRange := do
  c.subtract (← ({} : ChoppyRange).insert toRemove)

/-- One iteration of `intersection`. Without neighbours the tuple is taken as it is. -/
def intersectTuple (c ret : ChoppyRange) (e : RangeTuple) : Except RangeError ChoppyRange := do
  let (prev, next) := c.choppyRange.neighbors e
  if prev.isNone && next.isNone then ret.insert e
  else
    (prev.toList ++ next.toList).foldlM (fun ret n => do
      match ← n.intersection e with
      | none => return ret
      | some overlap => ret.insert overlap) ret

def intersection (c other : ChoppyRange) : Except RangeError ChoppyRange :=
  other.choppyRange.toList.foldlM c.intersectTuple {}

end ChoppyRange

/-! ## Lists of port ranges -/

/-- The digits of a natural number. -/
def digits? (digits : List Char) : Option Int :=
  if digits ≠ [] ∧ digits.all Char.isDigit then
    some (digits.foldl (fun n c => 10 * n + (c.toNat - '0'.toNat : Nat)) 0)
  else none

/-- The number that a decimal string denotes. -/
def decimal? (text : String) : Option Int :=
  match text.toList with
  | '-' :: digits => (digits? digits).map fun n => -n
  | digits => digits? digits

/-- A bound of a port range, a number or a string. -/
inductive Bound where
  | int (n : Int)
  | str (text : String)
  deriving DecidableEq, Repr

namespace Bound

/-- `isinstance(b, six.string_types)` -/
def isString : Bound → Bool
  | .int _ => false
  | .str _ => true

/-- `int(b)` -/
def toInt : Bound → Except RangeError Int
  | .int n => .ok n
  | .str text =>
    match decimal? text with
    | some n => .ok n
    | none => .error (.valueError text)

end Bound

/-- The `begin` and the `end` of a port range, as they are given. -/
structure PortRangeDict where
  first : Bound
  last : Bound
  deriving DecidableEq, Repr

namespace PortRangeUtility

/-- `to_choppy_range_tuple` -/
def toChoppyRangeTuple (r : PortRangeDict) : Except RangeError RangeTuple := do
  let b := r.first
  let _bInt ← b.toInt
  let e := r.last
  let eInt ← if e.isString then b.toInt else e.toInt
  return ⟨eInt, eInt, 1⟩

/-- `to_port_range` -/
def toPortRange (t : RangeTuple) : PortRange := ⟨t.start, t.stop⟩

/-- The loop of `to_choppy_range`, and of `add` -/
def insertAll (c : ChoppyRange) (l : List PortRangeDict) : Except RangeError ChoppyRange :=
  l.foldlM (fun c r => do c.insert (← toChoppyRangeTuple r)) c

/-- `to_choppy_range` -/
def toChoppyRange (l : List PortRangeDict) : Except RangeError ChoppyRange := insertAll {} l

/-- `to_port_range_list` -/
def toPortRangeList (c : ChoppyRange) : List PortRange :=
  c.choppyRange.toList.map toPortRange

def subtract (l1 l2 : List PortRangeDict) : Except RangeError (List PortRange) := do
  let c ← toChoppyRange l1
  let c ← l2.foldlM (fun c r => do c.remove (← toChoppyRangeTuple r)) c
  return toPortRangeList c

def add (l1 l2 : List PortRangeDict) : Except RangeError (List PortRange) := do
  let c ← toChoppyRange l1
  let c ← insertAll { c with ignoreOverlaps := true } l2
  return toPortRangeList c

end PortRangeUtility

/-- A range whose bounds are numbers, as it is given to `PortRangeUtility`. -/
def PortRange.toDict (r : PortRange) : PortRangeDict := ⟨.int r.first, .int r.last⟩

/-- An operation of `PortRangeUtility` as `__debit_resources` and `__credit_resources` use it. -/
def onPorts (op : List PortRangeDict → List PortRangeDict → Except RangeError (List PortRange))
    (held given : List PortRange) : Except PyError (List PortRange) :=
  match op (held.map PortRange.toDict) (given.map PortRange.toDict) with
  | .ok left => .ok left
  | .error _ => .error .portRange

end Urb
