import Mathlib.Logic.Function.Basic
import Urb.Native.Entry

/-!
# The list of queued deletions

`__delete_elements` is one list on the handler object. Handlers of all frameworks append
to it, and whichever queued request is post-processed next carries out all that is in it.
The handlers of HTTP calls and of the monitors append to it as well and are never
post-processed.

Requests are run by greenlets, and a handler may be suspended between any two of its
assignments. A run is therefore a sequence of single operations of any requests, in any
order. The state remembers who queued a deletion, whether `launch_tasks` stored a record
under the same id since, and what was deleted by whom.
-/

namespace Urb

/-- What a handler does to the dictionaries of a framework and to the list. -/
inductive Operation where
  /-- Any assignment to the framework. -/
  | assign (framework : Framework)
  /-- `__add_delete_element` -/
  | queue (element : DeleteElement)
  /-- `launch_tasks`, or a registration, stores the record of a task. -/
  | store (taskId : String) (record : TaskRecord)
  /-- `reconcile_tasks` gives the framework a new dictionary of tasks. The elements of the
      list keep the old dictionary, which is no longer used. -/
  | replaceTaskDict (framework : Framework)

/-- `if de.dict.has_key(de.key)` -/
def DeleteElement.present (de : DeleteElement) (f : Framework) : Bool :=
  match de.dict with
  | .tasks => decide (de.key ∈ f.tasks)
  | .slaves => decide (de.key ∈ f.slaves)
  | .offers => decide (de.key ∈ f.offers)

/-- An element of the list. `renewed` says that a record was stored under the key after the
    deletion had been queued. -/
structure Pending (R F : Type) where
  request : R
  framework : F
  element : DeleteElement
  renewed : Bool := false
  deriving DecidableEq

/-- A deletion that was carried out, and the request that was post-processed. -/
structure Removal (R F : Type) where
  request : R
  deletion : Pending R F
  deriving DecidableEq

/-- The handler object, seen by the requests `R` of the frameworks `F`. -/
structure Deletions (R F : Type) where
  frameworks : F → Framework
  deleteElements : List (Pending R F) := []
  running : R → Bool := fun _ => false
  removed : List (Removal R F) := []

namespace Deletions

variable {R F : Type} [DecidableEq R] [DecidableEq F]

def operate (r : R) (f : F) (s : Deletions R F) : Operation → Deletions R F
  | .assign framework => { s with frameworks := Function.update s.frameworks f framework }
  | .queue element =>
    { s with deleteElements := s.deleteElements ++ [{ request := r, framework := f, element }] }
  | .store taskId record =>
    { s with
      frameworks := Function.update s.frameworks f ((s.frameworks f).setTask taskId record)
      deleteElements := s.deleteElements.map fun p =>
        if p.framework = f ∧ p.element = ⟨.tasks, taskId⟩ then { p with renewed := true } else p }
  | .replaceTaskDict framework =>
    { s with
      frameworks := Function.update s.frameworks f framework
      deleteElements := s.deleteElements.filter fun p =>
        !(decide (p.framework = f) && decide (p.element.dict = .tasks)) }

/-- The elements of the list that belong to a framework. -/
def elementsOf (s : Deletions R F) (f : F) : List DeleteElement :=
  (s.deleteElements.filter fun p => decide (p.framework = f)).map (·.element)

/-- The loop of `__target_postprocessor`, which is not interrupted. -/
def postprocess (r : R) (s : Deletions R F) : Deletions R F :=
  { s with
    frameworks := fun f => deleteAll (s.elementsOf f) (s.frameworks f)
    deleteElements := []
    removed := s.removed ++
      (s.deleteElements.filter fun p => p.element.present (s.frameworks p.framework)).map
        fun p => ⟨r, p⟩ }

end Deletions

/-- A request gets to its handler, the handler does something, the request is post-processed, or
    it ends without that: an HTTP call, a callback of a monitor, or a request whose
    `update_framework_db` raised. -/
inductive DeletionEvent (R F : Type) where
  | receive (r : R)
  | operate (r : R) (f : F) (operation : Operation)
  | postprocess (r : R)
  | finish (r : R)

/-- `queued` are the requests that are read from the queue. -/
def Deletions.step {R F : Type} [DecidableEq R] [DecidableEq F] (queued : R → Bool)
    (s : Deletions R F) : DeletionEvent R F → Deletions R F
  | .receive r => { s with running := Function.update s.running r true }
  | .operate r f operation => if s.running r then s.operate r f operation else s
  | .postprocess r =>
    if queued r && s.running r then
      { s.postprocess r with running := Function.update s.running r false }
    else s
  | .finish r => { s with running := Function.update s.running r false }

end Urb
