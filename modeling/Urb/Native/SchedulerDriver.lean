import Urb.Native.Types

/-!
# The scheduler driver

`MesosSchedulerDriver` and the `UrbSchedulerProcess` behind it, in one record: the process is
created when the driver is started for the first time and lives as long as the driver. The calls of
the scheduler, the messages of the service, the timer of the registration and that of the
reconciliation are the events of a step function.

The scheduler is called back from within the handlers. All of them end with the call, save one:
after `statusUpdate` was called, the update is acknowledged, and `launchTasks` goes on with its
other tasks if it was `launchTasks` that made up the update. What is left to be done is kept in
`pending` until the scheduler returns, and everything else may happen before it does.
-/

namespace Urb

namespace Sched

/-- The status of a driver. -/
inductive Status where
  | notStarted | running | aborted | stopped
  deriving DecidableEq, Repr

/-- `FrameworkInfo`, of which the driver looks at the id only. -/
structure FrameworkInfo where
  id : Option String := none
  deriving DecidableEq, Repr

/-- `framework.has_id() && !framework.id().value().empty()` -/
def FrameworkInfo.hasId (framework : FrameworkInfo) : Bool :=
  framework.id.any (· ≠ "")

/-- `framework.id().value()` -/
def FrameworkInfo.idValue (framework : FrameworkInfo) : String :=
  framework.id.getD ""

structure ExecutorInfo where
  executorId : String
  frameworkId : Option String := none
  deriving DecidableEq, Repr

structure TaskInfo where
  taskId : String
  slaveId : String
  executor : Option ExecutorInfo := none
  hasCommand : Bool := false
  labels : Option (List String) := none
  deriving DecidableEq, Repr

structure TaskStatus where
  taskId : String
  state : TaskState
  message : String := ""
  slaveId : Option String := none
  uuid : Option String := none
  deriving DecidableEq, Repr

structure StatusUpdate where
  frameworkId : String
  slaveId : Option String := none
  status : TaskStatus
  uuid : String
  deriving DecidableEq, Repr

/-- The messages to the service. -/
inductive Message where
  | registerFramework (framework : FrameworkInfo)
  | reregisterFramework (framework : FrameworkInfo) (failover : Bool)
  | statusUpdateAcknowledgement (frameworkId slaveId taskId uuid : String)
  | unregisterFramework (frameworkId : String)
  | deactivateFramework (frameworkId : String)
  | killTask (frameworkId taskId : String)
  | resourceRequest (frameworkId : String) (requests : List String)
  | launchTasks (frameworkId : String) (offerIds : List String) (tasks : List TaskInfo)
      (refuseSeconds : Option ℚ)
  | reviveOffers (frameworkId : String)
  | frameworkToExecutor (slaveId frameworkId executorId data : String)
  | reconcileTasks (frameworkId : String) (statuses : List TaskStatus)
  deriving DecidableEq

/-- The calls of the scheduler. -/
inductive Callback where
  | registered (frameworkId : String)
  | reregistered
  | resourceOffers (offers : List Offer)
  | offerRescinded (offerId : String)
  | statusUpdate (status : TaskStatus)
  | slaveLost (slaveId : String)
  | frameworkMessage (executorId slaveId data : String)
  | error (message : String)
  deriving DecidableEq, Repr

/-- The messages that `SchedulerNotifyCallback::onInput` gets, and the loss of the connection to
    the message broker. -/
inductive Input where
  | connectionLost
  | frameworkRegistered (frameworkId : String)
  | frameworkReregistered (frameworkId : String)
  | frameworkError (message : String)
  | lostSlave (slaveId : String)
  | rescindResourceOffer (offerId : String)
  | resourceOffers (offers : List Offer)
  | executorToFramework (slaveId executorId data : String)
  | statusUpdate (update : StatusUpdate)
  | serviceDisconnected
  deriving DecidableEq

/-- A call of `launchTasks` in progress: whether the master was connected when it began, and the
    tasks that are to be sent. -/
structure Launch where
  offerIds : List String
  refuseSeconds : Option ℚ := none
  connected : Bool
  result : List TaskInfo := []
  deriving DecidableEq

/-- A `statusUpdate` of the scheduler that has not returned. For an update that `launchTasks` made
    up, `rest` is what it goes on with. -/
structure Pending where
  update : StatusUpdate
  rest : Option (Launch × List TaskInfo) := none
  deriving DecidableEq

/-- How an attempt to register goes: the message is sent, there is no channel to send it on, or it
    cannot be written. -/
inductive Attempt where
  | sent | noChannel | notSent
  deriving DecidableEq, Repr

/-- What the scheduler asks the driver for while it is running. -/
inductive Call where
  | killTask (taskId : String)
  | launchTasks (offerIds : List String) (tasks : List TaskInfo) (refuseSeconds : Option ℚ)
  | reviveOffers
  | acknowledgeStatusUpdate (status : TaskStatus)
  | sendFrameworkMessage (executorId slaveId data : String)
  | reconcileTasks (statuses : List TaskStatus)
  | requestResources (requests : List String)
  deriving DecidableEq

/-- What happens to a driver. `returned` is the return of the callback with that position in
    `pending`. -/
inductive Event where
  | start
  | stop (failover : Bool)
  | abort
  | call (c : Call)
  | input (m : Input)
  | registrationTimer (attempt : Attempt)
  | reconcileTimer
  | returned (i : Nat)
  deriving DecidableEq

/-- `MesosSchedulerDriver`, with the members of its process. `registrations` counts the timers that
    are to call `doReliableRegistration`. -/
structure SchedulerDriver where
  framework : FrameworkInfo := {}
  master : String
  implicitAcknowledgements : Bool := true
  status : Status := .notStarted
  failover : Bool := false
  connected : Bool := false
  aborted : Bool := false
  channelsCreated : Bool := false
  registrations : Nat := 0
  activeTasks : Dict TaskState := ∅
  pending : List Pending := []
  uuidCount : Nat := 0
  /-- a `CHECK` failed -/
  crashed : Bool := false
  sent : List Message := []
  callbacks : List Callback := []

namespace SchedulerDriver

def sendMessage (d : SchedulerDriver) (message : Message) : SchedulerDriver :=
  { d with sent := d.sent ++ [message] }

def callback (d : SchedulerDriver) (c : Callback) : SchedulerDriver :=
  { d with callbacks := d.callbacks ++ [c] }

def crash (d : SchedulerDriver) : SchedulerDriver := { d with crashed := true }

/-! ## Registration -/

def startRegistration (d : SchedulerDriver) : SchedulerDriver :=
  { d with registrations := d.registrations + 1 }

/-- The message of an attempt to register. -/
def registration (d : SchedulerDriver) : Message :=
  if !d.framework.hasId || d.failover then .registerFramework d.framework
  else .reregisterFramework d.framework d.failover

def doReliableRegistration (d : SchedulerDriver) (attempt : Attempt) : SchedulerDriver :=
  if d.connected || d.master = "" then d
  else if d.aborted then
    -- was aborted, already registered
    { d with aborted := false, connected := true }
  else
    match attempt with
    | .sent => { d with channelsCreated := true }.sendMessage d.registration
    | .noChannel => d.startRegistration
    | .notSent => { d with channelsCreated := true }.startRegistration

def registered (d : SchedulerDriver) (frameworkId : String) : SchedulerDriver :=
  if d.aborted || d.connected then d
  else
    { d with
      framework := { d.framework with id := some frameworkId }
      connected := true
      failover := false }.callback (.registered frameworkId)

def reregistered (d : SchedulerDriver) (frameworkId : String) : SchedulerDriver :=
  if d.aborted || d.connected then d
  else if d.framework.idValue ≠ frameworkId then d.crash
  else { d with connected := true, failover := false }.callback .reregistered

/-! ## Status updates -/

/-- The switch over the states at the end of `statusUpdate`. -/
def trackTask (d : SchedulerDriver) (status : TaskStatus) : SchedulerDriver :=
  match status.state with
  | .finished | .failed | .killed | .lost =>
    { d with activeTasks := d.activeTasks.erase status.taskId }
  | state => { d with activeTasks := d.activeTasks.insert status.taskId state }

def acknowledgement (d : SchedulerDriver) (update : StatusUpdate) : Message :=
  .statusUpdateAcknowledgement d.framework.idValue
    ((update.slaveId <|> update.status.slaveId).getD "") update.status.taskId update.uuid

def statusUpdateAcknowledgement (d : SchedulerDriver) (update : StatusUpdate) : SchedulerDriver :=
  if d.aborted then d else d.sendMessage (d.acknowledgement update)

/-- `statusUpdate`, up to the call of the scheduler. -/
def callStatusUpdate (d : SchedulerDriver) (update : StatusUpdate)
    (rest : Option (Launch × List TaskInfo)) : SchedulerDriver :=
  callback { d with pending := d.pending ++ [{ update, rest }] } (.statusUpdate update.status)

/-- `statusUpdate`, for an update of the service. -/
def statusUpdate (d : SchedulerDriver) (update : StatusUpdate) : SchedulerDriver :=
  if d.aborted then d
  else if d.master ≠ "" ∧ !d.connected then d
  else if d.framework.idValue ≠ update.frameworkId then d.crash
  else d.callStatusUpdate update none

/-! ## Tasks -/

/-- Why `launchTasks` does not send a task. -/
def rejection (d : SchedulerDriver) (connected : Bool) (task : TaskInfo) : Option String :=
  if !connected then some "Master Disconnected"
  else if task.executor.isSome = task.hasCommand then
    some "TaskInfo must have either an 'executor' or a 'command'"
  else
    match task.executor.bind (·.frameworkId) with
    | some frameworkId =>
      if frameworkId ≠ d.framework.idValue then
        some ("ExecutorInfo has an invalid FrameworkID (Actual: " ++ frameworkId ++
          " vs Expected: " ++ d.framework.idValue ++ ")")
      else none
    | none => none

/-- The update that `launchTasks` makes up for a task that it rejects. -/
def lostUpdate (d : SchedulerDriver) (task : TaskInfo) (message uuid : String) : StatusUpdate :=
  { frameworkId := d.framework.idValue
    status := { taskId := task.taskId, state := .lost, message }
    uuid }

/-- The executor is given the id of the framework if it has none, and an empty collection of labels
    is removed. -/
def completeTask (d : SchedulerDriver) (task : TaskInfo) : TaskInfo :=
  { task with
    executor := task.executor.map fun executor =>
      { executor with frameworkId := some (executor.frameworkId.getD d.framework.idValue) }
    labels := task.labels.filter (· ≠ []) }

/-- The loop of `launchTasks`, up to the first call of the scheduler. The updates that it makes up
    are passed to `statusUpdate`, which ignores them if the driver is aborted. -/
def launchLoop (uuidGenerate : Nat → String) (d : SchedulerDriver) (launch : Launch) :
    List TaskInfo → SchedulerDriver
  | [] =>
    if launch.connected then
      d.sendMessage
        (.launchTasks d.framework.idValue launch.offerIds launch.result launch.refuseSeconds)
    else d
  | task :: tasks =>
    match d.rejection launch.connected task with
    | some message =>
      let update := d.lostUpdate task message (uuidGenerate d.uuidCount)
      let d := { d with uuidCount := d.uuidCount + 1 }
      if d.aborted then d.launchLoop uuidGenerate launch tasks
      else d.callStatusUpdate update (some (launch, tasks))
    | none =>
      let result := launch.result ++ [d.completeTask task]
      let d := { d with activeTasks := d.activeTasks.insert task.taskId .staging }
      d.launchLoop uuidGenerate { launch with result } tasks

/-- A callback returns, and `statusUpdate` goes on. -/
def returned (uuidGenerate : Nat → String) (d : SchedulerDriver) (i : Nat) : SchedulerDriver :=
  match d.pending[i]? with
  | none => d
  | some p =>
    let d := ({ d with pending := d.pending.eraseIdx i }.statusUpdateAcknowledgement p.update)
      |>.trackTask p.update.status
    match p.rest with
    | none => d
    | some (launch, tasks) => d.launchLoop uuidGenerate launch tasks

/-! ## Calls of the scheduler -/

/-- What most calls do: a message is sent if the master is connected. -/
def whenConnected (d : SchedulerDriver) (message : Message) : SchedulerDriver :=
  if d.connected then d.sendMessage message else d

def acknowledgeStatusUpdate (d : SchedulerDriver) (status : TaskStatus) : SchedulerDriver :=
  match status.uuid, status.slaveId with
  | some uuid, some slaveId =>
    d.whenConnected
      (.statusUpdateAcknowledgement d.framework.idValue slaveId status.taskId uuid)
  | _, _ => d

def reconcileTasks (d : SchedulerDriver) (statuses : List TaskStatus) : SchedulerDriver :=
  d.whenConnected (.reconcileTasks d.framework.idValue statuses)

def checkReconcile (d : SchedulerDriver) : SchedulerDriver :=
  let statuses := d.activeTasks.entries.filterMap fun e =>
    if e.2 = .staging then some { taskId := e.1, state := .staging } else none
  if statuses.isEmpty then d else d.reconcileTasks statuses

def launchTasks (uuidGenerate : Nat → String) (d : SchedulerDriver) (offerIds : List String)
    (tasks : List TaskInfo) (refuseSeconds : Option ℚ) : SchedulerDriver :=
  d.launchLoop uuidGenerate { offerIds, refuseSeconds, connected := d.connected } tasks

def call (uuidGenerate : Nat → String) (d : SchedulerDriver) (c : Call) : SchedulerDriver :=
  if d.status = .running then
    match c with
    | .killTask taskId => d.whenConnected (.killTask d.framework.idValue taskId)
    | .launchTasks offerIds tasks refuseSeconds =>
      d.launchTasks uuidGenerate offerIds tasks refuseSeconds
    | .reviveOffers => d.whenConnected (.reviveOffers d.framework.idValue)
    | .acknowledgeStatusUpdate status => d.acknowledgeStatusUpdate status
    | .sendFrameworkMessage executorId slaveId data =>
      d.whenConnected (.frameworkToExecutor slaveId d.framework.idValue executorId data)
    | .reconcileTasks statuses => d.reconcileTasks statuses
    | .requestResources requests =>
      d.whenConnected (.resourceRequest d.framework.idValue requests)
  else d

/-- `MesosSchedulerDriver::start`. The constructor of the process sets `failover_`. -/
def start (d : SchedulerDriver) : SchedulerDriver :=
  match d.status with
  | .notStarted =>
    { d with failover := d.framework.hasId, status := .running }.startRegistration
  | .stopped => { d with status := .running }.startRegistration
  | _ => { d with status := .running }

/-- `MesosSchedulerDriver::stop` and `UrbSchedulerProcess::stop` -/
def stop (d : SchedulerDriver) (failover : Bool) : SchedulerDriver :=
  if d.status = .running ∨ d.status = .aborted then
    if d.connected && !failover then
      { d with connected := false, status := .stopped }.sendMessage
        (.unregisterFramework d.framework.idValue)
    else { d with status := .stopped }
  else d

/-- `MesosSchedulerDriver::abort` and `UrbSchedulerProcess::abort` -/
def abort (d : SchedulerDriver) : SchedulerDriver :=
  if d.status = .running then
    if d.connected then
      { d with connected := false, aborted := true, status := .aborted }.sendMessage
        (.deactivateFramework d.framework.idValue)
    else { d with status := .aborted }
  else d

/-! ## Messages of the service -/

/-- What the handlers have in common that pass a message on to the scheduler. -/
def passOn (d : SchedulerDriver) (c : Callback) : SchedulerDriver :=
  if d.aborted then d
  else if !d.connected then d
  else d.callback c

/-- `frameworkMessage`, which does not look at `connected_`. -/
def frameworkMessage (d : SchedulerDriver) (slaveId executorId data : String) : SchedulerDriver :=
  if d.aborted then d else d.callback (.frameworkMessage executorId slaveId data)

def error (d : SchedulerDriver) (message : String) : SchedulerDriver :=
  if d.aborted then d else d.abort.callback (.error message)

def onInput (d : SchedulerDriver) : Input → SchedulerDriver
  | .connectionLost => { d with connected := false }.startRegistration
  | .frameworkRegistered frameworkId => d.registered frameworkId
  | .frameworkReregistered frameworkId => d.reregistered frameworkId
  | .frameworkError message => d.error message
  | .lostSlave slaveId => d.passOn (.slaveLost slaveId)
  | .rescindResourceOffer offerId => d.passOn (.offerRescinded offerId)
  | .resourceOffers offers => d.passOn (.resourceOffers offers)
  | .executorToFramework slaveId executorId data => d.frameworkMessage slaveId executorId data
  | .statusUpdate update => d.statusUpdate update
  -- there is a connection to the broker, so that only a message is sent
  | .serviceDisconnected => d.sendMessage (.reregisterFramework d.framework d.failover)

/-- Messages are received once the channels are there, timers run once they are set. -/
def handle (uuidGenerate : Nat → String) (d : SchedulerDriver) : Event → SchedulerDriver
  | .start => d.start
  | .stop failover => d.stop failover
  | .abort => d.abort
  | .call c => d.call uuidGenerate c
  | .input m => if d.channelsCreated then d.onInput m else d
  | .registrationTimer attempt =>
    if d.registrations = 0 then d
    else { d with registrations := d.registrations - 1 }.doReliableRegistration attempt
  | .reconcileTimer => if d.status = .notStarted then d else d.checkReconcile
  | .returned i => d.returned uuidGenerate i

def step (uuidGenerate : Nat → String) (d : SchedulerDriver) (e : Event) : SchedulerDriver :=
  if d.crashed then d else d.handle uuidGenerate e

end SchedulerDriver

end Sched

end Urb
