import Urb.Native.Entry
import Urb.Native.Lock

/-!
# Monitoring of channels

The service keeps a record for every channel on which it heard something. A heartbeat stores
what its sender says about the channel. `start_channel_monitoring` stores a record too: when a
framework registers, when it asks for a reconciliation and is not known, when an executor runner
registers, and, without any information, for every channel that exists when the service becomes
master. `ChannelMonitor.monitor` goes through the records again and again. It removes those that
were not refreshed for too long and calls `delete_channel` for them, which deletes the framework if
the channel is that of its scheduler.
-/

namespace Urb

/-! ## The trackers -/

inductive EndpointType where
  | framework | executor | executorRunner
  deriving DecidableEq, Repr

/-- A record of `ChannelTracker`. -/
structure ChannelInfo where
  frameworkId : Option String := none
  slaveId : Option String := none
  endpointType : Option EndpointType := none
  timeToLive : ℚ
  deriving DecidableEq

/-- The messages that are written, and the calls that are made, when a channel is validated or
    deleted. -/
inductive ChannelEffect where
  | serviceDisconnected (channel : String)
  | destroyChannel (channel : String)
  | deleteChannelWithDelay (channel : String)
  | shutdownExecutor (channel : String)
  | slaveShutdown (channel : String)
  | unregisterFramework (framework : String)
  | stopJobMonitoring (job : String)
  deriving DecidableEq, Repr

/-- `ChannelTracker` and `FrameworkTracker`. The latter remembers the frameworks that are finished,
    with the order in which they are to be forgotten. `heldLocks` are the frameworks whose lock was
    left held by an HTTP call that raised, and `monitorWaits` says that the monitor waits for one of
    these locks, which nobody releases any more. -/
structure Trackers where
  channels : Dict ChannelInfo := ∅
  frameworks : Dict State := ∅
  finishedFrameworkIds : List String := []
  finishedFrameworks : Dict State := ∅
  effects : List ChannelEffect := []
  clock : ℚ := 0
  heldLocks : List String := []
  monitorWaits : Bool := false

/-- Code that works on the trackers. -/
abbrev TrackerM := EStateM PyError Trackers

namespace Trackers

def emit (e : ChannelEffect) : TrackerM Unit :=
  modify fun s => { s with effects := s.effects ++ [e] }

def maxNumberOfFinishedFrameworks : Nat := 25

/-- A framework that finished becomes the last one in the deque, and the first one is forgotten if
    there are too many. -/
def rememberFinished (frameworkId : String) : TrackerM Unit := do
  let s ← get
  (match s.finishedFrameworkIds with
  | [] => pure ()
  | clearFrameworkId :: rest =>
    if rest.length + 1 = maxNumberOfFinishedFrameworks then do
      modify fun s => { s with finishedFrameworkIds := rest }
      -- a framework that finished twice may be forgotten already
      if clearFrameworkId ∈ s.finishedFrameworks then
        modify fun s => { s with
          finishedFrameworks := s.finishedFrameworks.erase clearFrameworkId }
      else throw (.keyError clearFrameworkId)
    else pure ())
  modify fun s => { s with finishedFrameworkIds := s.finishedFrameworkIds ++ [frameworkId] }

/-- `FrameworkTracker.remove` -/
def removeFramework (frameworkId : String) : TrackerM Unit := do
  let s ← get
  match s.frameworks.lookup frameworkId with
  | none => pure ()
  | some state => do
    modify fun s => { s with
      frameworks := s.frameworks.erase frameworkId
      finishedFrameworks :=
        s.finishedFrameworks.insert frameworkId { state with tracking := .finished } }
    rememberFinished frameworkId

/-! ## Records of channels -/

def channelInitialTtlInSeconds : ℚ := 60

def channelTtlGracePeriodInSeconds : ℚ := 180

/-- A time to live that is over is replaced by the initial one. -/
def initialTimeToLive (now : ℚ) (timeToLive : Option ℚ) : ℚ :=
  match timeToLive with
  | some t => if t < now then now + channelInitialTtlInSeconds else t
  | none => now + channelInitialTtlInSeconds

def startChannelMonitoring (s : Trackers) (channelId : String) (frameworkId slaveId : Option String)
    (timeToLive : Option ℚ) : Trackers :=
  let channelInfo : ChannelInfo :=
    { frameworkId, slaveId, timeToLive := initialTimeToLive s.clock timeToLive }
  { s with channels := s.channels.insert channelId channelInfo }

end Trackers

/-- The `channel_info` of a heartbeat. -/
structure HeartbeatMessage where
  channelId : String
  frameworkId : Option String := none
  endpointType : EndpointType
  slaveId : Option String := none
  timeToLive : Option ℚ := none
  deriving DecidableEq

namespace Trackers

/-- `ServiceMonitorHandler.heartbeat` -/
def heartbeat (s : Trackers) (m : HeartbeatMessage) : Trackers :=
  let channelInfo : ChannelInfo :=
    { frameworkId := m.frameworkId
      slaveId := m.slaveId
      endpointType := some m.endpointType
      timeToLive := m.timeToLive.getD (s.clock + channelInitialTtlInSeconds) }
  { s with channels := s.channels.insert m.channelId channelInfo }

def disconnectChannel (s : Trackers) (channelId : String) : Trackers :=
  { s with effects := s.effects ++ [.serviceDisconnected channelId] }

/-- `send_service_disconnected_message`, to the channels that exist. -/
def sendServiceDisconnectedMessage (s : Trackers) (channelNames : List String) : Trackers :=
  channelNames.foldl (fun s channelName =>
    (s.disconnectChannel channelName).startChannelMonitoring channelName none none none) s

/-- `process_registration`. The channel of an HTTP framework is not monitored. -/
def processRegistration (s : Trackers) (frameworkId channelName : String) (config : FrameworkConfig)
    (http : Bool) : Trackers :=
  let resolvedFramework : State :=
    match s.frameworks.lookup frameworkId with
    | some state =>
      { state with framework := { state.framework with id := frameworkId, channelName, config } }
    | none => { framework := { id := frameworkId, channelName, config } }
  let s := { s with frameworks := s.frameworks.insert frameworkId resolvedFramework }
  if http then s else s.startChannelMonitoring channelName (some frameworkId) none none

/-! ## Deletion of a framework -/

/-- The channels that `shutdown_executor` writes to. -/
def shutdownExecutor (slave : Slave) : List ChannelEffect :=
  let executorChannels :=
    if slave.isCommandExecutor then slave.commandExecutors.entries.filterMap (·.2.channel)
    else slave.executorChannel.toList
  if executorChannels.isEmpty then [.slaveShutdown slave.channel]
  else executorChannels.map .shutdownExecutor

/-- A task that is left when its framework is deleted. -/
def forceTaskState (now : ℚ) (r : TaskRecord) : TaskRecord :=
  { r with
    state := if r.state = .staging then .killed else .finished
    endTime := some now }

/-- Assign to fields of an active framework. -/
def modifyFramework (frameworkId : String) (g : Framework → Framework) : TrackerM Unit :=
  modify fun s =>
    match s.frameworks.lookup frameworkId with
    | some state =>
      { s with frameworks :=
          s.frameworks.insert frameworkId { state with framework := g state.framework } }
    | none => s

/-- One iteration of the loop of `__delete_framework` over `task_dict`. The name of the task is
    written to the log. -/
def forceTask (frameworkId taskId : String) (r : TaskRecord) : TrackerM Unit := do
  if r.state = .finished then pure ()
  else if r.taskInfo.hasName then do
    let s ← get
    modifyFramework frameworkId (·.modifyTask taskId (forceTaskState s.clock))
  else throw (.keyError "name")

def forceTasks (frameworkId : String) :
    List (Sigma fun _ : String => TaskRecord) → TrackerM Unit
  | [] => pure ()
  | ⟨taskId, r⟩ :: rest => do
    forceTask frameworkId taskId r
    forceTasks frameworkId rest

/-- `__delete_framework`, under the lock of the framework. With `raises`, a message or a call of
    the adapter fails before the tasks are looked at. -/
def deleteFramework (frameworkId : String) (raises : Bool) : TrackerM Unit := do
  let s ← get
  match s.frameworks.lookup frameworkId with
  | none => pure ()
  | some state => do
    let f := state.framework
    modify fun s => { s with
      effects := s.effects ++ f.slaves.entries.flatMap fun e => shutdownExecutor e.2 }
    (if raises then throw .adapter else pure ())
    emit (.unregisterFramework frameworkId)
    let taskDict ← orRaise f.taskDict (.keyError "task_dict")
    -- the fields that `reconcile_tasks` left in `task_dict` are no records
    (if f.strayTask.isSome then throw .typeError else pure ())
    forceTasks frameworkId taskDict.entries
    modify fun s => { s with
      effects := s.effects ++ f.jobs.map fun j => .stopJobMonitoring j.1 }
    removeFramework frameworkId
    emit (.deleteChannelWithDelay f.channelName)

/-- How a call of `__delete_framework` ended, with the lock of the framework. -/
structure Deletion (G : Type) where
  returned : Bool
  trackers : Trackers
  lock : FrameworkLock G

/-- `__delete_framework` as greenlet `g` calls it. While another one has the lock there is no
    deletion yet: the greenlet waits, and goes on from the state in which it gets the lock. -/
def lockAndDeleteFramework {G : Type} [DecidableEq G] (g : G) (frameworkId : String)
    (raises : Bool) (s : Trackers) (lock : FrameworkLock G) : Option (Deletion G) :=
  if frameworkId ∈ s.frameworks then
    match lock.acquireFrameworkLock g with
    | .ok lock =>
      let result := deleteFramework frameworkId raises s
      -- the `finally` clause
      match lock.releaseFrameworkLock g with
      | .ok lock => some ⟨result.returned, result.state, lock⟩
      | .raised lock => some ⟨false, result.state, lock⟩
      | .blocked => none
    | .raised lock => some ⟨false, s, lock⟩
    | .blocked => none
  else some ⟨true, s, lock⟩

/-- `delete_channel` -/
def deleteChannel (channelId : String) (info : ChannelInfo) (raises : Bool) : TrackerM Unit := do
  let s ← get
  match info.frameworkId, info.endpointType with
  | some frameworkId, some endpointType =>
    match s.frameworks.lookup frameworkId with
    | none => emit (.destroyChannel channelId)
    | some state =>
      if endpointType = .framework then
        -- it may not be the active channel of the scheduler
        if state.framework.channelName = channelId then
          if frameworkId ∈ s.heldLocks then modify ({ · with monitorWaits := true })
          else deleteFramework frameworkId raises
        else emit (.destroyChannel channelId)
      else pure ()
  | _, _ => emit (.destroyChannel channelId)

/-! ## The monitor -/

/-- Whether `validate_channel` tells the other end that it is not known. -/
def isDisconnected (s : Trackers) (info : ChannelInfo) : Bool :=
  match info.frameworkId.bind s.frameworks.lookup with
  | none => !(info.frameworkId.bind s.finishedFrameworks.lookup).isSome
  | some state =>
    let slave := info.slaveId.bind state.framework.slaves.lookup
    match info.endpointType with
    | some .executorRunner => slave.isNone
    | some .executor => (slave.bind (·.executorChannel)).isNone
    | _ => false

/-- `validate_channel` -/
def validateChannel (s : Trackers) (channelId : String) (info : ChannelInfo) : Trackers :=
  if s.isDisconnected info then s.disconnectChannel channelId else s

/-- A record that was not refreshed for too long. -/
def expired (s : Trackers) (info : ChannelInfo) : Bool :=
  decide (info.timeToLive + channelTtlGracePeriodInSeconds < s.clock)

/-- `__remove_channel_from_tracker`. What `delete_channel` raises is logged. -/
def removeChannelFromTracker (s : Trackers) (channelId : String) (info : ChannelInfo)
    (raises : Bool) : Trackers :=
  (deleteChannel channelId info raises).after { s with channels := s.channels.erase channelId }

/-- One iteration of `monitor`, for one of the channels. -/
def monitor (s : Trackers) (channelId : String) (raises : Bool) : Trackers :=
  if s.monitorWaits then s
  else
    match s.channels.lookup channelId with
    | none => s
    | some info =>
      if s.expired info then s.removeChannelFromTracker channelId info raises
      else s.validateChannel channelId info

end Trackers

/-! ## Runs -/

namespace Event

/-- The event is handled under the lock of the framework. -/
def locks : Event → Bool
  | .queued _ | .http _ | .deleteJob _ => true
  | .postprocessed | .clock _ => false

/-- An HTTP call raises after it acquired the lock of the framework. All handlers acquire it before
    they do anything that may raise; `http_revive` does not get so far. -/
def leavesLock (env : Env) (s : State) : Event → Bool
  | .http .revive => false
  | .http c => !(c.handle env s).returned
  | _ => false

end Event

/-- What happens to the trackers. Other greenlets run between two iterations of the monitor, so that
    each iteration is an event of its own. -/
inductive ChannelEvent where
  | register (frameworkId channelName : String) (config : FrameworkConfig) (http : Bool)
  | heartbeat (m : HeartbeatMessage)
  | serviceDisconnected (channelNames : List String)
  /-- a runner registers, or an unknown framework asks for a reconciliation -/
  | startMonitoring (channelId frameworkId : String) (slaveId : Option String)
  /-- something happens to an active framework -/
  | framework (frameworkId : String) (e : Event)
  | monitor (channelId : String) (raises : Bool)
  | clock (now : ℚ)

namespace Trackers

def step (env : Env) (s : Trackers) : ChannelEvent → Trackers
  | .register frameworkId channelName config http =>
    s.processRegistration frameworkId channelName config http
  | .heartbeat m => s.heartbeat m
  | .serviceDisconnected channelNames => s.sendServiceDisconnectedMessage channelNames
  | .startMonitoring channelId frameworkId slaveId =>
    s.startChannelMonitoring channelId (some frameworkId) slaveId none
  | .framework frameworkId e =>
    match s.frameworks.lookup frameworkId with
    | none => s
    | some state =>
      if e.locks && frameworkId ∈ s.heldLocks then s
      else
        let state := { state with clock := s.clock }
        { s with
          frameworks := s.frameworks.insert frameworkId (Urb.step env state e)
          heldLocks := if e.leavesLock env state then frameworkId :: s.heldLocks else s.heldLocks }
  | .monitor channelId raises => s.monitor channelId raises
  | .clock now => { s with clock := now }

end Trackers

end Urb
