import Urb.ForStd.Greenlet

/-!
# The lock of a framework

`MesosHandler` serialises the work on one framework with a re-entrant lock. The
functions `__acquire_framework_lock` and `__release_framework_lock` keep a flag
`lock_acquired` beside it, which all greenlets share. A handler acquires the lock. Who
releases it depends on how the handler was called: `__target_postprocessor` for a queued
request, which finds the framework by the id that the handler stored for the message; the
`http_*` method for an HTTP call; a `finally` clause in the callbacks of the monitors and
in the offer loops.

The entry points are reduced to their lock operations and the statements between them.
What the tracker returns for the framework id is a parameter of each of them.
-/

namespace Urb

open Greenlet

/-! ## Acquiring and releasing -/

/-- The lock of a framework, and what the greenlets `G` remember about their requests.
    `inside` has the greenlets that called `__acquire_framework_lock` and have not called
    `__release_framework_lock` since. -/
structure FrameworkLock (G : Type) where
  owner : Option G := none
  count : Nat := 0
  lockAcquired : Bool := false
  requestFramework : G → Bool := fun _ => false
  inside : G → Bool := fun _ => false

/-- `known` says whether the tracker has the framework, active or finished, when the request
    is post-processed. -/
inductive LockAction where
  | receive
  | storeRequestFrameworkId
  | acquireFrameworkLock
  | releaseFrameworkLock
  | postprocess (known : Bool)
  deriving DecidableEq, Repr

namespace FrameworkLock

variable {G : Type} [DecidableEq G]

/-- `__acquire_framework_lock` of a framework that is there. -/
def acquireFrameworkLock (g : G) (s : FrameworkLock G) : Effect (FrameworkLock G) :=
  let inside := Function.update s.inside g true
  match s.owner with
  | none => .ok { s with owner := some g, count := 1, lockAcquired := true, inside }
  | some h => if h = g then .ok { s with count := s.count + 1, lockAcquired := true, inside }
    else .blocked

/-- `__release_framework_lock` of a framework that is there. The flag is cleared before
    `RLock.release`, which raises in a greenlet that does not own the lock. -/
def releaseFrameworkLock (g : G) (s : FrameworkLock G) : Effect (FrameworkLock G) :=
  let inside := Function.update s.inside g false
  if s.lockAcquired then
    if s.owner = some g then
      .ok { s with
        owner := if s.count = 1 then none else some g, count := s.count - 1,
        lockAcquired := false, inside }
    else .raised { s with lockAcquired := false, inside }
  else .ok { s with inside }

/-- A request gets a new message id, for which no framework is stored. The post-processor
    releases the lock of the framework stored for the message. -/
def exec (g : G) (a : LockAction) (s : FrameworkLock G) : Effect (FrameworkLock G) :=
  match a with
  | .receive => .ok { s with requestFramework := Function.update s.requestFramework g false }
  | .storeRequestFrameworkId =>
    .ok { s with requestFramework := Function.update s.requestFramework g true }
  | .acquireFrameworkLock => s.acquireFrameworkLock g
  | .releaseFrameworkLock => s.releaseFrameworkLock g
  | .postprocess known =>
    if s.requestFramework g && known then s.releaseFrameworkLock g else .ok s

end FrameworkLock

/-! ## Statements -/

/-- The statements between the lock operations, by the place they have in the code. -/
inductive Statement where
  /-- A handler looks at its request, before it has looked up the framework. -/
  | parse
  /-- A handler deals with a request of a framework that is not there. -/
  | refuse
  /-- A message is passed on to a greenlet that waits for it; no lock is taken. -/
  | passOn
  /-- `process_registration` has stored the framework id and answers the framework. -/
  | announce (i : Nat)
  /-- A handler of a queued request works under the lock. -/
  | request (i : Nat)
  /-- `update_framework_db` -/
  | updateDb
  /-- A handler called by an `http_*` method works under the lock. -/
  | body (i : Nat)
  /-- `delete_job` looks for the slaves of the job, before its `try`. -/
  | findSlaves (i : Nat)
  /-- The `try` block of `delete_job`, `__delete_framework` or `http_shutdown`. -/
  | guarded (i : Nat)
  /-- The head of an offer loop. -/
  | prepare (i : Nat)
  /-- An offer loop computes its waiting time, before its `try`. -/
  | readWaitTime (i : Nat)
  /-- `http_generate_offers` yields a heartbeat, before its `try`. -/
  | heartbeat
  /-- An offer loop generates offers in its `try` block. -/
  | generateOffers (i : Nat)
  /-- `http_generate_offers` yields the offers, in its `try` block. -/
  | offers
  /-- An offer loop waits for its event. -/
  | wait (i : Nat)
  /-- `http_generate_offers` yields the event it waited for. -/
  | event
  deriving DecidableEq, Repr

/-- Code that works with the lock. -/
abbrev LockCode := Stmt LockAction Statement

namespace LockCode

/-- The statements `l 0`, ..., `l (n - 1)`. -/
def statements (l : Nat → Statement) (n : Nat) : LockCode :=
  .works ((List.range n).map l)

def acquire : LockCode := .act .acquireFrameworkLock

def release : LockCode := .act .releaseFrameworkLock

/-! ## Handlers -/

/-- `launch_tasks`, `kill_task`, `reconcile_tasks`, `revive_offers`, `status_update`,
    `status_update_acknowledgement`, `register_executor_runner`, `reregister_executor` and
    `register_executor`. `found` is the answer of the tracker. -/
def handler (l : Nat → Statement) (n : Nat) (found : Bool) : LockCode :=
  .seq (.work .parse) <| .seq (.act .storeRequestFrameworkId) <|
    if found then .seq acquire (statements l n) else .work .refuse

/-- `framework_to_executor` and `executor_to_framework`, which take no lock for a framework
    whose channel is `http`. -/
def messageHandler (l : Nat → Statement) (n : Nat) (found http : Bool) : LockCode :=
  .seq (.work .parse) <| .seq (.act .storeRequestFrameworkId) <|
    if found then
      if http then .work .passOn else .seq acquire (statements l n)
    else .work .refuse

/-- `register_framework` and `reregister_framework` -/
def registration (k n : Nat) : LockCode :=
  .seq (.work .parse) <| .seq (.act .storeRequestFrameworkId) <|
    .seq (statements .announce k) <| .seq acquire (statements .request n)

/-- `__delete_framework`, and `unregister_framework` and `delete_channel` which call it.
    `http_teardown` calls `__release_framework_lock` once more at once, which does nothing. -/
def deleteFramework (n : Nat) (found : Bool) : LockCode :=
  if found then .seq acquire (.tryFinally (statements .guarded n) release) else .work .refuse

/-! ## Entry points -/

/-- `MessageHandler.handle`: what the handler or the post-processor raises is logged. -/
def queued (h : LockCode) (known : Bool) : LockCode :=
  .seq (.act .receive) <| .seq (.tryExcept h .skip) <|
    .tryExcept (.seq (.work .updateDb) (.act (.postprocess known))) .skip

/-- `http_accept_launch`, `http_decline`, `http_kill`, `http_reconcile`, `http_acknowledge`,
    `http_update_executor` and `http_subscribe_executor`. -/
def http (n : Nat) (found : Bool) : LockCode :=
  .seq (handler .body n found) (if found then release else .skip)

/-- `http_message` and `http_message_executor` -/
def httpMessage (n : Nat) (found http : Bool) : LockCode :=
  .seq (messageHandler .body n found http) (if found && !http then release else .skip)

/-- `http_shutdown` -/
def httpShutdown (n : Nat) (found : Bool) : LockCode :=
  if found then
    .seq acquire (.tryFinally (.tryExcept (statements .guarded n) .skip) release)
  else .work .refuse

/-- `delete_job` -/
def deleteJob (k n : Nat) (found : Bool) : LockCode :=
  if found then
    .seq acquire <| .seq (statements .findSlaves k) (.tryFinally (statements .guarded n) release)
  else .work .refuse

/-- One iteration of `__generate_offers`, with the numbers of statements before the lock,
    before the `try`, in it, and after it. -/
def offerIteration (k m n p : Nat) : LockCode :=
  .tryExcept
    (.seq (statements .prepare k) <| .seq acquire <| .seq (statements .readWaitTime m) <|
      .seq (.tryFinally (.tryExcept (statements .generateOffers n) .skip) release) <|
        statements .wait p)
    .skip

/-- `__generate_offers`; it leaves its loop at the head of an iteration. -/
def generateOffers (iterations k m n p : Nat) : LockCode :=
  .loop iterations (offerIteration k m n p)

/-- One iteration of `http_generate_offers`. Where there is nothing to yield the code goes
    on, as it does when it is resumed. -/
def httpOfferIteration (k m n p : Nat) : LockCode :=
  .tryExcept
    (.seq (statements .prepare k) <| .seq acquire <| .seq (statements .readWaitTime m) <|
      .seq (.yield .heartbeat) <|
      .seq (.tryFinally
        (.tryExcept (.seq (statements .generateOffers n) (.yield .offers)) .skip) release) <|
      .seq (statements .wait p) (.yield .event))
    .skip

/-- `http_generate_offers`; it leaves its loop at the head of an iteration, or when it is
    closed. -/
def httpGenerateOffers (iterations k m n p : Nat) : LockCode :=
  .loop iterations (httpOfferIteration k m n p)

end LockCode

end Urb
