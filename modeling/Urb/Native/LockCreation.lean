import Urb.ForStd.Thread

/-!
# How the lock of a framework comes to be

`Urb.Native.Lock` takes `__acquire_framework_lock` for one operation on the one lock of a framework.
Here the function is followed statement by statement: a framework has no lock at first, the first
greenlet that needs one creates it, under the lock `__new_framework_lock` which all frameworks
share. A greenlet may be interrupted between any two statements.

The messages that are logged name the framework by `framework_id['value']`, which raises for a
record that has no `id`.
-/

namespace Urb

open Thread

/-- The locks of the framework records `F`. Lock objects are numbered in the order in which they are
    created; `stored` has the objects that were ever put into the record of a framework. -/
structure LockTable (G F : Type) where
  newFrameworkLock : RLock G := {}
  created : Nat := 0
  locks : Nat → RLock G := fun _ => {}
  hasId : F → Bool
  lock : F → Option Nat := fun _ => none
  lockAcquired : F → Bool := fun _ => false
  stored : F → List Nat := fun _ => []

/-- The next statement of a greenlet in `__acquire_framework_lock` or `__release_framework_lock`,
    with the local variables that are still needed. -/
inductive LockPlace (F : Type) where
  /-- The greenlet has not called any of them, or has come back from the second one. -/
  | idle
  /-- The first `framework_lock = framework.get('lock')`. -/
  | getLock (f : F) (blocking : Bool)
  /-- `self.__new_framework_lock.acquire(blocking)` -/
  | acquireNew (f : F) (blocking : Bool)
  /-- `if not framework.get('lock')` -/
  | check (f : F) (blocking : Bool)
  /-- `framework['lock'] = lock.RLock()` -/
  | create (f : F) (blocking : Bool)
  /-- `self.__new_framework_lock.release()` -/
  | releaseNew (f : F) (blocking : Bool)
  /-- The second `framework_lock = framework.get('lock')`. -/
  | getLockAgain (f : F) (blocking : Bool)
  /-- `framework_lock.acquire(blocking)` -/
  | acquire (f : F) (blocking : Bool) (frameworkLock : Nat)
  /-- `framework['lock_acquired'] = True` -/
  | setLockAcquired (f : F)
  /-- `__acquire_framework_lock` has returned. -/
  | returned (framework : Option F) (result : Bool)
  /-- `framework_lock.release()` -/
  | release (frameworkLock : Nat)
  /-- One of the functions has raised. -/
  | raised
  deriving DecidableEq, Repr

/-- The greenlet is in none of the functions. -/
def LockPlace.atRest {F : Type} : LockPlace F → Bool
  | .idle | .returned _ _ | .raised => true
  | _ => false

namespace LockTable

variable {G F : Type} [DecidableEq G] [DecidableEq F]

/-- From `if not framework_lock` to the acquisition. Both branches log the id of the framework. -/
def testFrameworkLock (s : LockTable G F) (f : F) (blocking : Bool) : LockPlace F :=
  if s.hasId f then
    match s.lock f with
    | none => .returned (some f) false
    | some l => .acquire f blocking l
  else .raised

/-- The call of `__acquire_framework_lock`. -/
def acquireFrameworkLock (framework : Option F) (blocking : Bool) : LockPlace F :=
  match framework with
  | none => .returned none false
  | some f => .getLock f blocking

/-- `__release_framework_lock`, up to `framework_lock.release()`. -/
def releaseFrameworkLock (s : LockTable G F) (framework : Option F) :
    LockTable G F × LockPlace F :=
  match framework with
  | none => (s, .idle)
  | some f =>
    if s.lockAcquired f then
      match s.lock f with
      | none => (s, .idle)
      | some l =>
        if s.hasId f then
          ({ s with lockAcquired := Function.update s.lockAcquired f false }, .release l)
        else (s, .raised)
    else if s.hasId f then (s, .idle)
    else (s, .raised)

/-- One statement of a greenlet. A greenlet that waits for a lock, or that is in none of the
    functions, takes no step. -/
def next (s : LockTable G F) (g : G) : LockPlace F → Option (LockTable G F × LockPlace F)
  | .getLock f blocking =>
    some (s, if (s.lock f).isNone then .acquireNew f blocking else s.testFrameworkLock f blocking)
  | .acquireNew f blocking =>
    (s.newFrameworkLock.acquire g blocking).map fun (result, l) =>
      ({ s with newFrameworkLock := l },
        if result then .check f blocking
        else if s.hasId f then .getLockAgain f blocking
        else .raised)
  | .check f blocking =>
    some (s, if (s.lock f).isNone then .create f blocking else .releaseNew f blocking)
  | .create f blocking =>
    -- `__new_framework_lock` stays locked if the message raises
    some ({ s with
        created := s.created + 1
        locks := Function.update s.locks s.created {}
        lock := Function.update s.lock f (some s.created)
        stored := Function.update s.stored f (s.stored f ++ [s.created]) },
      if s.hasId f then .releaseNew f blocking else .raised)
  | .releaseNew f blocking =>
    match s.newFrameworkLock.release g with
    | none => some (s, .raised)
    | some l => some ({ s with newFrameworkLock := l }, .getLockAgain f blocking)
  | .getLockAgain f blocking => some (s, s.testFrameworkLock f blocking)
  | .acquire f blocking l =>
    ((s.locks l).acquire g blocking).map fun (result, x) =>
      ({ s with locks := Function.update s.locks l x },
        if result then .setLockAcquired f else .returned (some f) false)
  | .setLockAcquired f =>
    some ({ s with lockAcquired := Function.update s.lockAcquired f true },
      .returned (some f) true)
  | .release l =>
    match (s.locks l).release g with
    | none => some (s, .raised)
    | some x => some ({ s with locks := Function.update s.locks l x }, .idle)
  | .idle | .returned _ _ | .raised => none

end LockTable

/-- A greenlet that is at rest calls one of the functions, or a greenlet executes its next
    statement. -/
inductive LockMove (G F : Type) where
  | callAcquire (g : G) (framework : Option F) (blocking : Bool)
  | callRelease (g : G) (framework : Option F)
  | step (g : G)
  deriving DecidableEq, Repr

/-- The greenlets and the locks that they share. -/
abbrev Locking (G F : Type) := Config G (LockPlace F) (LockTable G F)

namespace Locking

variable {G F : Type} [DecidableEq G] [DecidableEq F]

/-- No framework has a lock yet, and no greenlet has asked for one. -/
def start (hasId : F → Bool) : Locking G F := { shared := { hasId }, place := fun _ => .idle }

def step (c : Locking G F) : LockMove G F → Locking G F
  | .callAcquire g framework blocking =>
    if (c.place g).atRest then
      c.move g (some (c.shared, LockTable.acquireFrameworkLock framework blocking))
    else c
  | .callRelease g framework =>
    if (c.place g).atRest then c.move g (some (c.shared.releaseFrameworkLock framework)) else c
  | .step g => c.move g (c.shared.next g (c.place g))

end Locking

end Urb
