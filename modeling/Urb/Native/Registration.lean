import Urb.Native.ChannelMonitor
import Urb.Native.SchedulerDriver

/-!
# Registration of a framework

How the service comes to the id of a framework that registers. `register_framework`,
`reregister_framework` and `http_subscribe` prepare the arguments of `process_registration`, which
makes up an id if it is given none. `exchange` puts a driver and the service together: the driver
is started and sends its registration when the broker lets it, the service handles the message, and
its answer reaches the driver.
-/

namespace Urb

namespace MessagingUtility

/-- `get_endpoint_id`. The names of channels are `urb.endpoint.<endpoint_id>` and what follows after
    another dot; without a name, `uuid.uuid1().hex` is taken. -/
def getEndpointId (uuid : String) (channelName : Option String) : Option String :=
  match channelName with
  | none => some uuid
  | some name =>
    if name = "" then some uuid
    else if "urb.endpoint.".toList.isPrefixOf name.toList then
      some (String.ofList ((name.toList.drop "urb.endpoint.".toList.length).takeWhile (· ≠ '.')))
    else none

def getNotifyChannelName (replyTo endpointId : Option String) : Option String :=
  replyTo <|> endpointId.map fun endpointId => "urb.endpoint." ++ endpointId ++ ".notify"

end MessagingUtility

/-- A request to register. `frameworkId` is the id in `message['framework']` and `config` what
    `configure_framework` makes of the rest. -/
structure RegistrationRequest where
  sourceId : Option String
  replyTo : Option String := none
  frameworkId : Option String := none
  config : FrameworkConfig

namespace Trackers

/-- `process_registration`, which returns the id in its response. -/
def processRegistrationRequest (s : Trackers) (uuid : String) (request : RegistrationRequest)
    (frameworkId : Option String) : Except PyError (String × Trackers) := do
  let http := request.sourceId.all (· = "")
  let endpointId := MessagingUtility.getEndpointId uuid request.sourceId
  let frameworkId ←
    match frameworkId, endpointId with
    | some frameworkId, _ => pure frameworkId
    | none, some endpointId => pure ("framework-" ++ endpointId)
    | none, none => throw .typeError
  match MessagingUtility.getNotifyChannelName request.replyTo endpointId with
  | some channelName =>
    pure (frameworkId, s.processRegistration frameworkId channelName request.config http)
  | none => throw .typeError

/-- `register_framework` -/
def registerFramework (s : Trackers) (uuid : String) (request : RegistrationRequest) :
    Except PyError (String × Trackers) :=
  s.processRegistrationRequest uuid request none

/-- `reregister_framework` -/
def reregisterFramework (s : Trackers) (uuid : String) (request : RegistrationRequest) :
    Except PyError (String × Trackers) :=
  match request.frameworkId with
  | some frameworkId => s.processRegistrationRequest uuid request (some frameworkId)
  | none => .error (.keyError "id")

/-- `http_subscribe` -/
def httpSubscribe (s : Trackers) (uuid : String) (frameworkId : Option String)
    (config : FrameworkConfig) : Except PyError (String × Trackers) :=
  s.processRegistrationRequest uuid
    { sourceId := none, replyTo := some "http", frameworkId, config }
    none

/-- The service handles a registration that came from a driver, and answers it. -/
def answer (s : Trackers) (uuid : String) (endpointId : Nat) (config : FrameworkConfig) :
    Sched.Message → Option (Except PyError (Sched.Input × Trackers))
  | .registerFramework framework => some do
    let (frameworkId, s) ← s.registerFramework uuid
      { sourceId := some ("urb.endpoint." ++ toString endpointId)
        frameworkId := framework.id
        config }
    pure (.frameworkRegistered frameworkId, s)
  | .reregisterFramework framework _ => some do
    let (frameworkId, s) ← s.reregisterFramework uuid
      { sourceId := some ("urb.endpoint." ++ toString endpointId)
        frameworkId := framework.id
        config }
    pure (.frameworkReregistered frameworkId, s)
  | _ => none

end Trackers

namespace Sched.SchedulerDriver

/-- A driver that is started and, after attempts that failed with or without a channel, sends its
    registration. -/
def startRegistering (uuidGenerate : Nat → String) (d : SchedulerDriver) (failures : List Bool) :
    SchedulerDriver :=
  let attempt (d : SchedulerDriver) (created : Bool) : SchedulerDriver :=
    d.step uuidGenerate (.registrationTimer (if created then .notSent else .noChannel))
  (failures.foldl attempt (d.step uuidGenerate .start)).step uuidGenerate (.registrationTimer .sent)

end Sched.SchedulerDriver

/-- The exchange of a registration: what the service answers, and what becomes of the driver and of
    the service. -/
def exchange (uuidGenerate : Nat → String) (d : Sched.SchedulerDriver) (failures : List Bool)
    (s : Trackers) (uuid : String) (endpointId : Nat) (config : FrameworkConfig) :
    Option (Sched.Input × Sched.SchedulerDriver × Trackers) := do
  let d := d.startRegistering uuidGenerate failures
  let message ← d.sent.getLast?
  match s.answer uuid endpointId config message with
  | some (.ok (answer, s)) => some (answer, d.step uuidGenerate (.input answer), s)
  | _ => none

end Urb
