import Urb.Native.Timer

/-!
# The heartbeats of a channel

Once a driver is registered, its notify channel sends heartbeats to the service monitor. Each
heartbeat sets the timer for the next one. `setHeartbeatPayload` is called by `registered` and
`reregistered`, and starts the timer if it is not active.
-/

namespace Urb.Heartbeat

open Ev (EvHelper Timer)

/-- The methods that timers call: `sendHeartbeat` of the channel, or something else. -/
inductive Method where
  | sendHeartbeat
  | other
  deriving DecidableEq, Repr

/-- How the write of a heartbeat goes: the message cannot be made, the command raises, which `write`
    catches, or it is sent. -/
inductive Write where
  | messageRaises
  | commandRaises
  | sent
  deriving DecidableEq, Repr

structure RedisChannel where
  heartbeatTimer : Timer := {}
  delaySeconds : Nat := 60
  /-- the payload of the `heartbeatMessage_` -/
  payload : String := ""
  /-- the heartbeats that were written to the service monitor -/
  written : List String := []

/-- A channel, with the timers of its process. -/
structure World where
  ev : EvHelper Method := {}
  channel : RedisChannel := {}
  /-- `setHeartbeatPayload` was called -/
  payloadSet : Bool := false
  destroyed : Bool := false

namespace World

/-- `heartbeatTimer_.delay(Seconds(delaySeconds_), &RedisChannel::sendHeartbeat)` -/
def delayHeartbeat (w : World) : World :=
  let r := w.channel.heartbeatTimer.delay w.ev (w.channel.delaySeconds * 1000000000)
    Method.sendHeartbeat
  { w with channel := { w.channel with heartbeatTimer := r.1 }, ev := r.2 }

/-- `sendHeartbeat`. An exception of `write` is logged, and the timer is not set again. -/
def sendHeartbeat (w : World) (outcome : Write) : World :=
  match outcome with
  | .messageRaises => w
  | .commandRaises => w.delayHeartbeat
  | .sent =>
    { w with channel := { w.channel with written := w.channel.written ++ [w.channel.payload] } }
      |>.delayHeartbeat

def setHeartbeatPayload (w : World) (payload : String) : World :=
  let w := { w with channel := { w.channel with payload }, payloadSet := true }
  if w.channel.heartbeatTimer.active then w else w.delayHeartbeat

/-- The next callback of `timeout_cb`. -/
def execute (w : World) (outcome : Write) : World :=
  let r := w.ev.executeNext
  match r.2 with
  | some .sendHeartbeat => { w with ev := r.1 }.sendHeartbeat outcome
  | _ => { w with ev := r.1 }

/-- The destructor of the channel, and with it the one of the timer. -/
def destroy (w : World) : World :=
  let r := w.channel.heartbeatTimer.cancel w.ev
  { w with channel := { w.channel with heartbeatTimer := r.1 }, ev := r.2, destroyed := true }

end World

/-- What happens to the channel and the timers. A timer of another owner is set, time passes, the
    running `timeout_cb` takes what is due or calls its next callback, and the channel is
    destroyed. -/
inductive Event where
  | setHeartbeatPayload (payload : String)
  | delayOther (ns : Nat)
  | advance (ns : Nat)
  | timeout
  | execute (outcome : Write)
  | destroy
  deriving DecidableEq, Repr

/-- After its destruction nothing is called on the channel. -/
def step (w : World) (e : Event) : World :=
  if w.destroyed then w
  else
    match e with
    | .setHeartbeatPayload payload => w.setHeartbeatPayload payload
    | .delayOther ns => { w with ev := (({} : Timer).delay w.ev ns Method.other).2 }
    | .advance ns => { w with ev := { w.ev with now := w.ev.now + ns } }
    | .timeout => if w.ev.callbacks.isEmpty then { w with ev := w.ev.takeDue } else w
    | .execute outcome => w.execute outcome
    | .destroy => w.destroy

end Urb.Heartbeat
