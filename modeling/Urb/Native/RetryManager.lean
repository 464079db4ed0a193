import Mathlib
import Urb.ForStd.Redis

/-!
# The retry manager

`RetryManager.retry` writes a message that could not be handled to the retry channel, a sorted set,
with the second in which it is to be delivered again as its score. It reads the clock first, and
Redis executes its command later. A pass of `manage` reads the clock, reads the members of the retry
channel up to this second, removes the range, and writes each message to the main channel unless it
was retried too often. These are separate steps, between which other greenlets run.

The retry channel holds serialised messages, and a `Copy` is stored as its message: `request` only
says on behalf of which request it was written.
-/

namespace Urb

/-- A `Message`: the fields that `RetryManager` writes, and the rest of its content. -/
structure Message (β : Type) where
  body : β
  retryCount : Option Nat := none
  maxRetryCount : Option Nat := none
  retryInterval : Option ℚ≥0 := none
  retryTimestamp : Option ℚ≥0 := none
  deriving DecidableEq

structure RetryManager where
  initialRetryInterval : ℚ≥0
  maxRetryCount : Nat

/-- What `retry` makes of a message at the time `now`. -/
def RetryManager.retry {β : Type} (manager : RetryManager) (now : ℚ≥0) (message : Message β) :
    Message β :=
  let retryCount := message.retryCount.getD 0
  let retryInterval := message.retryInterval.getD manager.initialRetryInterval
  let retryInterval := if retryCount > 0 then retryInterval * 2 else retryInterval
  { message with
    retryCount := some (retryCount + 1)
    maxRetryCount := some manager.maxRetryCount
    retryInterval := some retryInterval
    retryTimestamp := some (now + retryInterval) }

/-- A message that was written on behalf of a request. -/
structure Copy (β : Type) where
  request : Nat
  message : Message β
  deriving DecidableEq

/-- A message that was written to the main channel: as it was written, as its handler sees it
    (`retry` changes the object), how often it was given to `retry`, and when it was written. -/
structure Delivered (β : Type) where
  copy : Copy β
  message : Message β
  retries : Nat := 0
  time : ℚ≥0
  deriving DecidableEq

/-- A call of `retry`: the message that it wrote, and when. -/
structure RetryCall (β : Type) where
  copy : Copy β
  now : ℚ≥0
  deriving DecidableEq

/-- Where `manage` is in a pass that read the time `now`: it has read the clock, the range, or it
    has removed the range and writes what is left of the messages. -/
inductive ManagePc (β : Type) where
  | idle
  | clockRead (now : ℚ≥0)
  | rangeRead (now : ℚ≥0) (messageList : List (Copy β))
  | writing (now : ℚ≥0) (messageList : List (Copy β))

/-- `prepared` are the messages of the calls of `retry` that Redis has not written yet, `exceeded`
    those for which `manage` has logged that their maximal count is exceeded, and `passes` the times
    that its completed passes have read. -/
structure RetryState (β : Type) where
  clock : ℚ≥0
  prepared : List (Copy β) := []
  retryChannel : List (Nat × Copy β) := []
  pc : ManagePc β := .idle
  delivered : List (Delivered β) := []
  calls : List (RetryCall β) := []
  exceeded : List (Copy β) := []
  passes : List ℚ≥0 := []

/-- Time passes, a client writes a request to the main channel, a handler calls `retry` for the
    `i`-th message of the main channel, whose content has become `body`, the command of a call of
    `retry` is executed, or `manage` takes a step. -/
inductive RetryEvent (β : Type) where
  | tick (d : ℚ≥0)
  | request (body : β)
  | retry (i : Nat) (body : β)
  | write (j : Nat)
  | manage

namespace RetryState

variable {β : Type} [DecidableEq β]

/-- A message is written to the main channel. -/
def deliver (s : RetryState β) (copy : Copy β) : RetryState β :=
  { s with delivered := s.delivered ++ [{ copy, message := copy.message, time := s.clock }] }

/-- The handler of the `i`-th message calls `retry`, which reads the clock. -/
def retry (manager : RetryManager) (s : RetryState β) (i : Nat) (body : β) (d : Delivered β) :
    RetryState β :=
  let message := manager.retry s.clock { d.message with body }
  let copy : Copy β := { request := d.copy.request, message }
  { s with
    prepared := s.prepared ++ [copy]
    delivered := s.delivered.set i { d with message, retries := d.retries + 1 }
    calls := s.calls ++ [{ copy, now := s.clock }] }

/-- `write_with_timestamp`: Redis executes the `ZADD` of a call. The score is
    `long(retry_timestamp)`. -/
def write (s : RetryState β) (j : Nat) (copy : Copy β) : RetryState β :=
  { s with
    prepared := s.prepared.eraseIdx j
    retryChannel :=
      Redis.zadd Copy.message s.retryChannel ⌊copy.message.retryTimestamp.getD 0⌋₊ copy }

/-- The next step of `manage`. -/
def manage (manager : RetryManager) (s : RetryState β) : RetryState β :=
  match s.pc with
  | .idle => { s with pc := .clockRead s.clock }
  | .clockRead now =>
    { s with pc := .rangeRead now (Redis.zrangebyscore s.retryChannel ⌊now⌋₊) }
  | .rangeRead now messageList =>
    { s with
      retryChannel := Redis.zremrangebyscore s.retryChannel ⌊now⌋₊
      pc := .writing now messageList }
  | .writing now (copy :: messageList) =>
    if copy.message.retryCount.getD 0 > manager.maxRetryCount then
      { s with pc := .writing now messageList, exceeded := copy :: s.exceeded }
    else { s.deliver copy with pc := .writing now messageList }
  | .writing now [] => { s with pc := .idle, passes := now :: s.passes }

/-- A new request is identified by its place in the main channel. -/
def step (manager : RetryManager) (s : RetryState β) : RetryEvent β → RetryState β
  | .tick d => { s with clock := s.clock + d }
  | .request body => s.deliver { request := s.delivered.length, message := { body } }
  | .retry i body =>
    match s.delivered[i]? with
    | some d => s.retry manager i body d
    | none => s
  | .write j =>
    match s.prepared[j]? with
    | some copy => s.write j copy
    | none => s
  | .manage => s.manage manager

end RetryState

end Urb
