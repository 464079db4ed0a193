import Urb.Native.Types

/-!
# Events for an HTTP framework

A subscribed HTTP framework gets its events from the generator `http_generate_offers`.
Producers put an event into the `AsyncResult` that the framework has as its
`offer_event`; the generator waits for it, reads it and yields it. The slot has room
for one value: `set` overwrites, and every iteration of the generator starts with a new
slot.

Producers run whenever the generator is suspended: while it waits for the lock of the
framework, while a heartbeat, offers or an event are written to the subscriber, and
while it waits for an event.
-/

namespace Urb

/-- The events that producers post. -/
inductive HttpEvent where
  | update (taskId : String) (state : TaskState)
  | message (data : String)
  | rescind (offerId : String)
  deriving DecidableEq, Repr

/-- Where the generator is. -/
inductive Phase where
  /-- At the head of the loop, before it renews the slot. -/
  | head
  /-- It waits for the lock, or yields a heartbeat or offers. -/
  | busy
  /-- It waits for the slot to be set, or for its time to pass. -/
  | waiting
  /-- It has read the slot and yields what it read. -/
  | yielding
  /-- It has left its loop or was closed. -/
  | ended
  deriving DecidableEq, Repr

/-- The slot (`none` if the framework has none; the inner option says whether it is set, and
    to which event), the generator, and what has been posted and yielded so far. -/
structure Stream where
  offerEvent : Option (Option (Option HttpEvent)) := some none
  phase : Phase := .head
  posted : List HttpEvent := []
  yielded : List HttpEvent := []
  deriving DecidableEq

namespace Stream

/-- `AsyncResult.set`, without a value for an empty one. -/
def set (value : Option HttpEvent) (s : Stream) : Stream :=
  { s with offerEvent := s.offerEvent.map fun _ => some value }

/-- `send_status_update`, `executor_to_framework` and `rescind_offer` -/
def post (e : HttpEvent) (s : Stream) : Stream :=
  { s.set (some e) with posted := s.posted ++ [e] }

/-- `framework['offer_event'].value`, which is `None` if nothing or no value was set. -/
def value (s : Stream) : Option HttpEvent := (s.offerEvent.bind id).bind id

/-- The generator runs until it may be suspended again. Where it has no slot an exception
    takes it back to the head of its loop. -/
def advance (s : Stream) : Stream :=
  match s.phase with
  | .head =>
    match s.offerEvent with
    | some _ => { s with offerEvent := some none, phase := .busy }
    | none => s
  | .busy => { s with phase := .waiting }
  | .waiting =>
    match s.value with
    | some e => { s with yielded := s.yielded ++ [e], phase := .yielding }
    | none => { s with phase := .head }
  | .yielding => { s with phase := .head }
  | .ended => s

/-- An exception in an iteration is logged, and the next iteration starts. -/
def fail (s : Stream) : Stream :=
  match s.phase with
  | .ended => s
  | _ => { s with phase := .head }

/-- A generator is closed when it is suspended at a `yield`. -/
def close (s : Stream) : Stream :=
  match s.phase with
  | .busy => { s with phase := .ended }
  | .yielding => { s with phase := .ended }
  | _ => s

/-- The framework is not active any more, or the service is not the master, which also
    removes the slot. -/
def leave (demoted : Bool) (s : Stream) : Stream :=
  match s.phase with
  | .head =>
    { s with phase := .ended, offerEvent := if demoted then none else s.offerEvent }
  | _ => s

end Stream

/-- What happens to the stream of a framework. -/
inductive StreamEvent where
  | post (e : HttpEvent)
  | setEmpty
  | advance
  | fail
  | close
  | leave (demoted : Bool)
  deriving DecidableEq, Repr

def Stream.step (s : Stream) : StreamEvent → Stream
  | .post e => s.post e
  | .setEmpty => s.set none
  | .advance => s.advance
  | .fail => s.fail
  | .close => s.close
  | .leave demoted => s.leave demoted

/-- What an effect of a handler does to the stream of an HTTP framework. -/
def Effect.streamEvent : Effect → Option StreamEvent
  | .statusUpdate channel task state _ =>
    if channel = "http" then some (.post (.update task state)) else none
  | .setOfferEvent => some .setEmpty
  | _ => none

end Urb
