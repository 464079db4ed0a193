/-!
# The read loop of a channel

A `RedisChannel` of `liburb` reads with `BRPOP`. `registerInputCallback` queues the first command,
the event loop takes the queued commands and executes them on the connection, and the handler of
each reply queues the next one. A command is dropped if the connection is not valid when it is to
be queued, or when it is to be executed.
-/

namespace Urb

/-- The commands of one channel, with what it sees of the broker and of the connection. -/
structure RedisChannel where
  isRunning : Bool := true
  isValid : Bool := true
  /-- the channel has a user callback -/
  callback : Bool := false
  /-- the `BRPOP`s of the channel in `commands_` -/
  commands : Nat := 0
  /-- those that were executed and not answered -/
  outstanding : Nat := 0
  /-- the replies that are being handled -/
  handling : Nat := 0
  deriving DecidableEq, Repr

/-- The reply to a `BRPOP`; that of an empty list after the time-out is `nil`. All of them are
    handled, but the user callback is not called with `nil`. -/
inductive RedisReply where
  | message | nil | error
  deriving DecidableEq, Repr

/-- A callback is registered, the event loop executes a queued command, a reply arrives, its handler
    gets to its end, or the connection is lost or renewed. -/
inductive RedisEvent where
  | register
  | execute
  | reply (r : RedisReply)
  | handled
  | lose
  | renew
  deriving DecidableEq, Repr

namespace RedisChannel

/-- `sendMessage`, of a `BRPOP` -/
def sendMessage (c : RedisChannel) : RedisChannel :=
  { c with commands := if c.isValid then c.commands + 1 else c.commands }

def registerInputCallback (c : RedisChannel) : RedisChannel :=
  { c with callback := true }.sendMessage

/-- `async_cb`, for one command -/
def asyncCb (c : RedisChannel) : RedisChannel :=
  { c with
    commands := c.commands - 1
    outstanding := if c.commands ≠ 0 ∧ c.isValid then c.outstanding + 1 else c.outstanding }

/-- The end of `RedisChannelCallback::onInput` -/
def queueNext (c : RedisChannel) : RedisChannel :=
  if c.handling = 0 then c
  else
    let c := { c with handling := c.handling - 1 }
    if c.isRunning && c.callback then c.sendMessage else c

def step (c : RedisChannel) : RedisEvent → RedisChannel
  | .register => c.registerInputCallback
  | .execute => c.asyncCb
  | .reply _ =>
    if c.outstanding = 0 then c
    else { c with outstanding := c.outstanding - 1, handling := c.handling + 1 }
  | .handled => c.queueNext
  | .lose => { c with isValid := false }
  | .renew => { c with isValid := true }

end RedisChannel

end Urb
