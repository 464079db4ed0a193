import Urb.Native.TaskUpdates

/-!
# Messages and events for executors

What a framework sends to an executor goes to the channel on which the executor registered, or, for
an executor that subscribed by HTTP, into the `AsyncResult` of its slave. The generator
`http_handle_executor` waits for this slot to be set, reads it, yields the event to the executor and
then puts a new slot into the record of the slave.

Producers run whenever the generator is suspended: while it waits and while the event is written to
the executor. A slot has room for one event, and `set` overwrites.
-/

namespace Urb

/-- The events that are posted to executors. -/
inductive ExecutorEvent where
  | kill (taskId : String)
  | acknowledged (taskId uuid : String)
  | message (data : String)
  | shutdown
  deriving DecidableEq, Repr

/-! ## Producers -/

/-- What becomes of a message for an executor: it is written to a channel, or set as the event of a
    slave, or handed to the retry manager, or nothing, or something raises. -/
inductive ExecutorDelivery where
  | written (channel : String) (event : ExecutorEvent)
  | posted (slaveId : String) (event : ExecutorEvent)
  | retried
  | dropped
  | raised (e : PyError)
  deriving DecidableEq

structure FrameworkToExecutorMessage where
  slaveId : Option String := none
  agentId : Option String := none
  executorId : String
  data : String
  deriving DecidableEq

structure StatusUpdateAcknowledgementMessage where
  slaveId : Option String := none
  agentId : Option String := none
  taskId : String
  uuid : String
  deriving DecidableEq

namespace Framework

/-- The id of a slave, or the one that a place-holder is mapped to. -/
def slaveNamed (f : Framework) (slaveId : String) : Option String :=
  if isPlaceholder slaveId then f.placeholderToSlave.lookup slaveId else some slaveId

end Framework

namespace Slave

/-- The channel of the command executor of a task, or of the executor. -/
def channelFor (slave : Slave) (taskName : String) : Option String :=
  if slave.isCommandExecutor then (slave.commandExecutors.lookup taskName).bind (·.channel)
  else slave.executorChannel

end Slave

/-- `send_framework_message`, which returns whether there is a channel to write to. -/
def sendFrameworkMessage (f : Framework) (m : FrameworkToExecutorMessage) :
    Except PyError (Option String) :=
  match m.slaveId with
  | none => .error (.keyError "slave_id")
  | some slaveId =>
    .ok (((f.slaveNamed slaveId).bind f.slaves.lookup).bind (·.channelFor m.executorId))

/-- `framework_to_executor`. The request of an `http_*` method cannot be retried: it has no
    `to_json`, and the exception is caught inside `retry`. -/
def frameworkToExecutor (s : State) (entry : Entry) (m : FrameworkToExecutorMessage) :
    ExecutorDelivery :=
  if s.tracking ≠ .active then .dropped
  else if s.framework.http then
    match m.agentId with
    | none => .raised (.keyError "agent_id")
    | some agentId =>
      match s.framework.slaveNamed agentId with
      | none => .raised .attributeError
      | some slaveId =>
        -- `slave` or its `async_result` may be `None`
        if ((s.framework.slaves.lookup slaveId).map (·.asyncResult)).getD false then
          .posted slaveId (.message m.data)
        else .raised .attributeError
  else
    match sendFrameworkMessage s.framework m with
    | .error e => .raised e
    | .ok (some channel) => .written channel (.message m.data)
    | .ok none =>
      match entry with
      | .queue => .retried
      | .http => .dropped

/-- `status_update_acknowledgement` -/
def statusUpdateAcknowledgement (s : State) (m : StatusUpdateAcknowledgementMessage) :
    ExecutorDelivery :=
  if s.tracking ≠ .active then .dropped
  else
    match (m.agentId.orElse fun _ => m.slaveId).bind s.framework.slaveNamed with
    | none => .dropped
    | some slaveId =>
      match s.framework.slaves.lookup slaveId with
      | none => .dropped
      | some slave =>
        match slave.channelFor m.taskId with
        | some channel => .written channel (.acknowledged m.taskId m.uuid)
        | none =>
          if slave.asyncResult then .posted slaveId (.acknowledged m.taskId m.uuid) else .dropped

/-! ## The events of an HTTP executor -/

/-- The first statement of `http_handle_executor` that changes anything: the slave gets its
    `async_result`. -/
def startExecutorEvents (agentId : String) (s : State) : State :=
  { s with framework := s.framework.modifySlave agentId ({ · with asyncResult := true }) }

/-- Where the generator is. -/
inductive ExecutorPhase where
  /-- It waits for the slot to be set. -/
  | waiting
  /-- It has read the slot and yields what it read. -/
  | yielding
  /-- It has left its loop or was closed. -/
  | ended
  deriving DecidableEq, Repr

/-- The slot of the slave, the generator of an executor that has subscribed, and what has been
    posted and yielded since. -/
structure ExecutorStream where
  /-- the `async_result` of the slave -/
  slot : Option ExecutorEvent := none
  /-- the object that the generator waits for, if another one has taken its place -/
  awaited : Option (Option ExecutorEvent) := none
  /-- `slave_dict` still has the record of the slave that the generator holds -/
  attached : Bool := true
  phase : ExecutorPhase := .waiting
  posted : List ExecutorEvent := []
  yielded : List ExecutorEvent := []
  deriving DecidableEq

namespace ExecutorStream

/-- A producer sets the slot, which it finds through `slave_dict`. -/
def post (e : ExecutorEvent) (s : ExecutorStream) : ExecutorStream :=
  if s.attached then { s with slot := some e, posted := s.posted ++ [e] } else s

/-- The slot is renewed. If the record of the slave is gone, an exception takes the generator back
    to the head of its loop, with the slot that it has just read. -/
def renew (s : ExecutorStream) : ExecutorStream :=
  if s.attached then { s with slot := none, awaited := none, phase := .waiting }
  else { s with awaited := none, phase := .waiting }

/-- The generator runs until it is suspended again. It wakes up when the object that it waits for is
    set, and reads the slot of the slave. -/
def advance (s : ExecutorStream) : ExecutorStream :=
  match s.phase with
  | .waiting =>
    match s.awaited.getD s.slot with
    | none => s
    | some _ =>
      match s.slot with
      | some e => { s with yielded := s.yielded ++ [e], phase := .yielding }
      | none => s.renew
  | .yielding => s.renew
  | .ended => s

/-- The framework is not active any more, or the service is not the master: the generator leaves its
    loop when it comes to its head. -/
def leave (s : ExecutorStream) : ExecutorStream :=
  match s.phase with
  | .yielding => { s.renew with phase := .ended }
  | _ => s

/-- Another subscription for the slave puts its own slot in place of the one that is there. If the
    record of the slave was detached, then the subscription finds another record, and this stream
    does not notice it. -/
def resubscribe (s : ExecutorStream) : ExecutorStream :=
  if s.attached then
    { s with
      slot := none
      awaited := if s.phase = .waiting then some (s.awaited.getD s.slot) else s.awaited }
  else s

end ExecutorStream

/-- What happens to the stream of an executor. The record of the slave is detached when it is
    removed from `slave_dict` or replaced by a new registration of the runner. -/
inductive ExecutorStreamEvent where
  | post (e : ExecutorEvent)
  | advance
  | leave
  | close
  | detach
  | resubscribe
  deriving DecidableEq, Repr

def ExecutorStream.step (s : ExecutorStream) : ExecutorStreamEvent → ExecutorStream
  | .post e => s.post e
  | .advance => s.advance
  | .leave => s.leave
  | .close => { s with phase := .ended }
  | .detach => { s with attached := false }
  | .resubscribe => s.resubscribe

/-- What a message for an executor does to the stream of the slave. -/
def ExecutorDelivery.streamEvent (slaveId : String) :
    ExecutorDelivery → Option ExecutorStreamEvent
  | .posted k e => if k = slaveId then some (.post e) else none
  | _ => none

/-- What an effect of a handler does to the stream of the slave. -/
def Effect.executorStreamEvent (slaveId : String) : Effect → Option ExecutorStreamEvent
  | .killEvent k task => if k = slaveId then some (.post (.kill task)) else none
  | _ => none

end Urb
