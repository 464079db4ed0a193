import Urb.Native.Lock

/-!
# The offer loop of a framework

A native framework has a `gevent.event.Event`, its `offer_event`, and a greenlet that runs
`__generate_offers`: it clears the event, generates offers under the lock of the framework and waits
for the event, for some time at most. Handlers that changed the framework set the event.

An event releases those who wait for it when it is set, and lets nobody wait while it is set.
-/

namespace Urb

open Greenlet

/-- What greenlets do to the lock and to the event. `startPass` is the call of
    `__generate_offers_for_framework`. After `wait` comes `resume`, at which a greenlet is held up
    as long as it waits. -/
inductive OfferAction where
  | lock (a : LockAction)
  | set
  | clear
  | wait
  | resume
  | startPass
  deriving DecidableEq, Repr

/-- The lock and the event of a framework, and what was done to them. -/
structure OfferShared (G : Type) where
  lock : FrameworkLock G := {}
  isSet : Bool := false
  waiting : G → Bool := fun _ => false
  history : List OfferAction := []

namespace OfferShared

variable {G : Type} [DecidableEq G]

def record (s : OfferShared G) (a : OfferAction) : OfferShared G :=
  { s with history := s.history ++ [a] }

def exec (g : G) (a : OfferAction) (s : OfferShared G) : Effect (OfferShared G) :=
  match a with
  | .lock b =>
    match s.lock.exec g b with
    | .blocked => .blocked
    | .ok lock => .ok { s.record a with lock }
    | .raised lock => .raised { s.record a with lock }
  | .set => .ok { s.record a with isSet := true, waiting := fun _ => false }
  | .clear => .ok { s.record a with isSet := false }
  | .wait =>
    .ok (if s.isSet then s.record a
      else { s.record a with waiting := Function.update s.waiting g true })
  | .resume => if s.waiting g then .blocked else .ok (s.record a)
  | .startPass => .ok (s.record a)

/-- The time is over for which a greenlet waits. -/
def timeout (s : OfferShared G) (g : G) : OfferShared G :=
  { s with waiting := Function.update s.waiting g false }

end OfferShared

/-- Code that works with the lock and the event. -/
abbrev OfferCode := Stmt OfferAction Statement

namespace OfferCode

def statements (l : Nat → Statement) (n : Nat) : OfferCode :=
  .works ((List.range n).map l)

def lock (a : LockAction) : OfferCode := .act (.lock a)

/-! ## The loop -/

/-- One iteration of `__generate_offers`, with the numbers of statements before the event is
    cleared, before the `try`, in it, and after it. -/
def offerIteration (k m n p : Nat) : OfferCode :=
  .tryExcept
    (.seq (statements .prepare k) <| .seq (.act .clear) <| .seq (lock .acquireFrameworkLock) <|
      .seq (statements .readWaitTime m) <|
      .seq (.tryFinally
        (.tryExcept (.seq (.act .startPass) (statements .generateOffers n)) .skip)
        (lock .releaseFrameworkLock)) <|
      .seq (statements .wait p) <| .seq (.act .wait) (.act .resume))
    .skip

/-- `__generate_offers`; it leaves its loop at the head of an iteration. -/
def generateOffers (iterations k m n p : Nat) : OfferCode :=
  .loop iterations (offerIteration k m n p)

/-! ## Handlers -/

/-- The body of `launch_tasks` (which calls `__process_remaining_offers`), `kill_task`,
    `revive_offers` and `status_update`, where they set the event. -/
def handler (l : Nat → Statement) (k n : Nat) (found : Bool) : OfferCode :=
  .seq (.work .parse) <| .seq (lock .storeRequestFrameworkId) <|
    if found then
      .seq (lock .acquireFrameworkLock) <| .seq (statements l k) <|
        .seq (.act .set) (statements (fun i => l (k + i)) n)
    else .work .refuse

/-- A request from the queue. -/
def queued (k n : Nat) (found known : Bool) : OfferCode :=
  .seq (lock .receive) <| .seq (.tryExcept (handler .request k n found) .skip) <|
    .tryExcept (.seq (.work .updateDb) (lock (.postprocess known))) .skip

end OfferCode

/-- What code other than the loop does to the lock and to the event. -/
def OfferAction.OfHandler : OfferAction → Prop
  | .lock _ => True
  | .set => True
  | _ => False

/-- The code of a handler: it may use the lock, and set the event, wherever it likes. -/
structure OfferHandler where
  stmt : OfferCode
  uses : stmt.Uses OfferAction.OfHandler

/-- The handlers of the service are such ones. -/
def OfferHandler.queued (k n : Nat) (found known : Bool) : OfferHandler where
  stmt := .queued k n found known
  uses := by
    have hworks : ∀ l n, (OfferCode.statements l n).Uses OfferAction.OfHandler :=
      fun l n => Stmt.uses_works _ _
    cases found <;>
      simp [OfferCode.queued, OfferCode.handler, OfferCode.lock, Stmt.Uses, OfferAction.OfHandler,
        hworks]

/-! ## The service -/

/-- The loop, `none`, and the greenlets `G` that handle requests. -/
abbrev OfferSystem (G : Type) :=
  System (Option G) (OfferShared (Option G)) OfferAction Statement

inductive OfferLoopEvent (G : Type) where
  | startLoop (iterations k m n p : Nat)
  | startHandler (g : G) (h : OfferHandler)
  /-- a greenlet takes a step: with `goesOn`, or else the statement raises -/
  | step (g : Option G) (goesOn : Bool)
  | timeout

variable {G : Type} [DecidableEq G]

def offerLoopStep (c : OfferSystem G) : OfferLoopEvent G → OfferSystem G
  | .startLoop iterations k m n p =>
    c.step OfferShared.exec (.start none (OfferCode.generateOffers iterations k m n p).code)
  | .startHandler g h => c.step OfferShared.exec (.start (some g) h.stmt.code)
  | .step g goesOn => c.step OfferShared.exec (.step g goesOn)
  | .timeout => { c with shared := c.shared.timeout none }

namespace OfferSystem

/-- Nothing happened yet. -/
def idle : OfferSystem G := ⟨{}, fun _ => .done .normal⟩

/-- The loop is blocked in `offer_event.wait`. -/
def blockedInWait (c : OfferSystem G) : Bool :=
  match c.code none with
  | .act .resume _ _ => c.shared.waiting none
  | _ => false

end OfferSystem

end Urb
