import Mathlib.Logic.Function.Basic
import Urb.ForStd.Redis

/-!
# The message broker

A queue of `RedisMessageBroker` is a pair of Redis lists: `push` adds a message at the left end of
the queue, a reader moves the message at its right end to the left end of the processing list and
removes it from there by value when it has processed it. `restore_lost_messages` puts what is left
in the processing list back to the right end of the queue.

`text` says how a message is stored in Redis. The messages of the source are strings, stored as
they are (`text = id`); a message that carries more than its string is stored as the string.
-/

namespace Urb

/-- The queue and its `.processing` list. -/
structure Broker (β : Type) where
  queue : List β := []
  processing : List β := []
  deriving DecidableEq

namespace Broker

variable {β : Type}

/-- `push` -/
def push (b : Broker β) (m : β) : Broker β := { b with queue := Redis.lpush b.queue m }

/-- `pop` -/
def pop (b : Broker β) : Option β × Broker β :=
  let r := Redis.rpoplpush b.queue b.processing
  (r.1, { queue := r.2.1, processing := r.2.2 })

/-- `pop_blocking`, when it has got a message or its timeout: it takes an empty message for
    none. -/
def popBlocking (text : β → String) (b : Broker β) : Option β × Broker β :=
  let r := b.pop
  (r.1.filter fun m => text m ≠ "", r.2)

/-- `message_processed` -/
def messageProcessed (text : β → String) (b : Broker β) (m : β) : Broker β :=
  { b with processing := Redis.lrem text (text m) b.processing }

/-- The loop of the script `RESTORE_LOST_MESSAGES`: `LPOP` from the first list until it is empty,
    `RPUSH` to the second one. -/
def restoreLoop : List β → List β → Nat → Nat × Broker β
  | [], queue, i => (i, { queue, processing := [] })
  | value :: processing, queue, i => restoreLoop processing (Redis.rpush queue value) (i + 1)

/-- `restore_lost_messages` -/
def restoreLostMessages (b : Broker β) : Nat × Broker β := restoreLoop b.processing b.queue 0

/-- What the next `pop`s return. -/
def pops : Nat → Broker β → List (Option β)
  | 0, _ => []
  | n + 1, b => b.pop.1 :: pops n b.pop.2

end Broker

/-! ## Readers of a channel -/

/-- A greenlet that runs `__read_callback_wrapper` of a message. -/
structure Reader (β : Type) where
  message : β
  /-- `read_callback` has returned -/
  returned : Bool := false
  deriving DecidableEq

/-- A channel with the greenlets that read from it. `pushed` and `completed` record the messages
    that were pushed and those whose `read_callback` has returned. -/
structure Delivery (ι β : Type) where
  broker : Broker β := {}
  readers : ι → Option (Reader β) := fun _ => none
  pushed : List β := []
  completed : List β := []

/-- What happens on a channel. `crash` is the end of a greenlet before `message_processed`: its
    process has died, or `read_callback` has raised. -/
inductive DeliveryEvent (ι β : Type) where
  | push (m : β)
  | read (id : ι)
  | readBlocking (id : ι)
  | callbackReturned (id : ι)
  | messageProcessed (id : ι)
  | crash (id : ι)
  | restore
  deriving DecidableEq

namespace Delivery

variable {ι β : Type} [DecidableEq ι]

def setReader (d : Delivery ι β) (id : ι) (r : Option (Reader β)) : Delivery ι β :=
  { d with readers := Function.update d.readers id r }

/-- `Channel.read` and `Channel.read_blocking`: a message that was popped is given to a
    greenlet. -/
def spawn (d : Delivery ι β) (id : ι) (r : Option β × Broker β) : Delivery ι β :=
  ({ d with broker := r.2 } : Delivery ι β).setReader id (r.1.map fun m => { message := m })

/-- Only a free greenlet takes a message, and `message_processed` is called when `read_callback`
    has returned. -/
def step (text : β → String) (d : Delivery ι β) : DeliveryEvent ι β → Delivery ι β
  | .push m => { d with broker := d.broker.push m, pushed := d.pushed ++ [m] }
  | .read id => if (d.readers id).isNone then d.spawn id d.broker.pop else d
  | .readBlocking id =>
    if (d.readers id).isNone then d.spawn id (d.broker.popBlocking text) else d
  | .callbackReturned id =>
    match d.readers id with
    | some r =>
      ({ d with completed := r.message :: d.completed } : Delivery ι β).setReader id
        (some { r with returned := true })
    | none => d
  | .messageProcessed id =>
    match d.readers id with
    | some ⟨m, true⟩ =>
      ({ d with broker := d.broker.messageProcessed text m } : Delivery ι β).setReader id none
    | _ => d
  | .crash id => d.setReader id none
  | .restore => { d with broker := d.broker.restoreLostMessages.2 }

end Delivery

end Urb
