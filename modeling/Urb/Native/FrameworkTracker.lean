import Mathlib.Data.List.AList
import Urb.ForStd.EStateM

/-!
# The tracker of frameworks

`FrameworkTracker` has a dictionary of the frameworks that are active, from `ObjectTracker`, and
remembers those that were removed: their ids in a deque, which says in which order they are to be
forgotten, and the frameworks in a dictionary. The two are kept in step by `remove`.
-/

namespace Urb

/-- The exceptions of `remove`, which come from `del` and from `popleft`. -/
inductive TrackerError (ι : Type) where
  | keyError (key : ι)
  | indexError
  deriving DecidableEq, Repr

/-- `append` of a deque with a maximal length. -/
def dequeAppend {ι : Type} (maxlen : Nat) (deque : List ι) (x : ι) : List ι :=
  (deque ++ [x]).drop (deque.length + 1 - maxlen)

/-- The objects may be `None`. -/
structure FrameworkTracker (ι α : Type) where
  objectDict : AList (fun _ : ι => Option α) := ∅
  finishedFrameworkIdDeque : List ι := []
  finishedFrameworkDict : AList (fun _ : ι => α) := ∅

namespace FrameworkTracker

def maxNumberOfFinishedFrameworks : Nat := 25

variable {ι α : Type} [DecidableEq ι]

/-- `ObjectTracker.add` -/
def add (s : FrameworkTracker ι α) (id : ι) (object : Option α) : FrameworkTracker ι α :=
  { s with objectDict := s.objectDict.insert id object }

/-- `ObjectTracker.get` -/
def get (s : FrameworkTracker ι α) (id : ι) : Option α := (s.objectDict.lookup id).join

/-- `ObjectTracker.remove` -/
def removeObject (id : ι) :
    EStateM (TrackerError ι) (FrameworkTracker ι α) (Option α) := do
  let s ← MonadState.get
  match s.get id with
  | none => pure none
  | some object => do
    set { s with objectDict := s.objectDict.erase id }
    pure (some object)

/-- The first framework of the deque is forgotten if there are as many as there may be. -/
def forgetFirst : EStateM (TrackerError ι) (FrameworkTracker ι α) Unit := do
  let s ← MonadState.get
  if s.finishedFrameworkIdDeque.length = maxNumberOfFinishedFrameworks then
    match s.finishedFrameworkIdDeque with
    | [] => throw .indexError
    | clearFrameworkId :: rest => do
      set { s with finishedFrameworkIdDeque := rest }
      if clearFrameworkId ∈ s.finishedFrameworkDict then
        modify fun s => { s with
          finishedFrameworkDict := s.finishedFrameworkDict.erase clearFrameworkId }
      else throw (.keyError clearFrameworkId)
  else pure ()

def remove (id : ι) : EStateM (TrackerError ι) (FrameworkTracker ι α) (Option α) := do
  match ← removeObject id with
  | none => pure none
  | some framework => do
    modify fun s => { s with
      finishedFrameworkDict := s.finishedFrameworkDict.insert id framework }
    forgetFirst
    modify fun s => { s with
      finishedFrameworkIdDeque :=
        dequeAppend maxNumberOfFinishedFrameworks s.finishedFrameworkIdDeque id }
    pure (some framework)

end FrameworkTracker

end Urb
