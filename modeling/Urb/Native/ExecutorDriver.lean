import Mathlib.Data.List.DropRight
import Urb.ForStd.LinkedHashMap
import Urb.Native.SchedulerDriver

/-!
# The executor driver

`UrbExecutorProcess`, with the status of the `MesosExecutorDriver` that owns it. The process keeps
the status updates that were not acknowledged, by their uuids, and the tasks that it was asked to
run. When it is to reconnect, it sends both.

A uuid is an array of sixteen bytes, which is passed on as a C string: the string ends before the
first zero byte, be it in the array or somewhere behind it.
-/

namespace Urb.Exec

open Sched (Status)

abbrev Bytes := List UInt8

/-- `uuid_t` -/
abbrev Uuid := Vector UInt8 16

/-- `(char*)uuid` as a string. What follows the array in memory is `after`. -/
def cString (uuid : Uuid) (after : Bytes) : Bytes :=
  (uuid.toList ++ after).takeWhile (· ≠ 0)

/-- The channel of the runner, which `sendMessage` sets as the channel for the reply to a
    registration: what follows the last `:` of the slave id. -/
def executorRunnerChannel (slaveId : String) : Option String :=
  if ':' ∈ slaveId.toList then some (String.ofList (slaveId.toList.rtakeWhile (· ≠ ':'))) else none

structure TaskStatus where
  taskId : String
  state : TaskState
  slaveId : Option String := none
  deriving DecidableEq, Repr

structure StatusUpdate where
  frameworkId : String
  executorId : String
  slaveId : String
  status : TaskStatus
  uuid : Bytes
  deriving DecidableEq, Repr

/-- `StatusUpdate()`: the default of a state is the first one. -/
def StatusUpdate.default : StatusUpdate where
  frameworkId := ""
  executorId := ""
  slaveId := ""
  status := { taskId := "", state := .staging }
  uuid := []

/-- The messages to the service. -/
inductive Message where
  | registerExecutor (frameworkId executorId : String)
  | reregisterExecutor (frameworkId executorId : String) (updates : List StatusUpdate)
      (tasks : List TaskInfo)
  | statusUpdate (update : StatusUpdate)
  | executorToFramework (slaveId frameworkId executorId data : String)
  deriving DecidableEq

/-- The calls of the executor. -/
inductive Callback where
  | registered
  | reregistered
  | launchTask (task : TaskInfo)
  | killTask (taskId : String)
  | frameworkMessage (data : String)
  | shutdown
  | error (message : String)
  deriving DecidableEq

/-- The messages that `ExecutorNotifyCallback::onInput` gets. -/
inductive Input where
  | executorRegistered
  | executorReregistered
  | reconnectExecutor
  | serviceDisconnected
  | runTask (task : TaskInfo)
  | killTask (taskId : String)
  | statusUpdateAcknowledgement (taskId : String) (uuid : Bytes)
  | frameworkToExecutor (data : String)
  | shutdownExecutor
  deriving DecidableEq

/-- What happens to an executor: messages of the service, calls of the executor and the timer of
    the registration. A status update comes with the uuid that is generated for it. -/
inductive Event where
  | input (m : Input)
  | sendStatusUpdate (status : TaskStatus) (uuid : Uuid) (after : Bytes)
  | sendFrameworkMessage (data : String)
  | stop
  | abort
  | registrationTimer

structure UrbExecutorProcess where
  frameworkId : String
  executorId : String
  slaveId : String
  /-- the status of the driver -/
  status : Status := .running
  connected : Bool := false
  aborted : Bool := false
  updates : LinkedHashMap Bytes StatusUpdate := ∅
  tasks : LinkedHashMap String TaskInfo := ∅
  /-- a `CHECK` failed -/
  crashed : Bool := false
  sent : List Message := []
  callbacks : List Callback := []

namespace UrbExecutorProcess

def sendMessage (p : UrbExecutorProcess) (message : Message) : UrbExecutorProcess :=
  { p with sent := p.sent ++ [message] }

def callback (p : UrbExecutorProcess) (c : Callback) : UrbExecutorProcess :=
  { p with callbacks := p.callbacks ++ [c] }

def registered (p : UrbExecutorProcess) : UrbExecutorProcess :=
  if p.aborted then p else { p with connected := true }.callback .registered

def reregistered (p : UrbExecutorProcess) : UrbExecutorProcess :=
  if p.aborted then p else { p with connected := true }.callback .reregistered

def reconnect (p : UrbExecutorProcess) : UrbExecutorProcess :=
  if p.aborted then p
  else
    p.sendMessage (.reregisterExecutor p.frameworkId p.executorId p.updates.values p.tasks.values)

def runTask (p : UrbExecutorProcess) (task : TaskInfo) : UrbExecutorProcess :=
  if p.aborted then p
  else if !p.connected then p
  else if task.taskId ∈ p.tasks then
    -- unexpected duplicate task
    { p with crashed := true }
  else { p with tasks := p.tasks.set task.taskId task }.callback (.launchTask task)

def killTask (p : UrbExecutorProcess) (taskId : String) : UrbExecutorProcess :=
  if p.aborted then p else p.callback (.killTask taskId)

def statusUpdateAcknowledgement (p : UrbExecutorProcess) (taskId : String) (uuid : Bytes) :
    UrbExecutorProcess :=
  if p.aborted then p
  else if !p.connected then p
  else
    let (update, updates) := p.updates.index uuid .default
    { p with
      updates := updates.erase uuid
      -- only tasks that are finished are erased
      tasks := if update.status.state = .finished then p.tasks.erase taskId else p.tasks }

def frameworkMessage (p : UrbExecutorProcess) (data : String) : UrbExecutorProcess :=
  if p.aborted then p
  else if !p.connected then p
  else p.callback (.frameworkMessage data)

def shutdown (p : UrbExecutorProcess) : UrbExecutorProcess :=
  if p.aborted then p else { p with aborted := true }.callback .shutdown

/-- `MesosExecutorDriver::abort` and `UrbExecutorProcess::abort` -/
def abort (p : UrbExecutorProcess) : UrbExecutorProcess :=
  if p.status = .running then { p with aborted := true, status := .aborted } else p

/-- `MesosExecutorDriver::stop`. The process has nothing to do. -/
def stop (p : UrbExecutorProcess) : UrbExecutorProcess :=
  if p.status = .running ∨ p.status = .aborted then { p with status := .stopped } else p

/-- The update that is sent for a status. -/
def statusUpdate (p : UrbExecutorProcess) (status : TaskStatus) (uuid : Bytes) : StatusUpdate where
  frameworkId := p.frameworkId
  executorId := p.executorId
  slaveId := p.slaveId
  status := { status with slaveId := some p.slaveId }
  uuid

/-- `sendStatusUpdate`, which the driver calls while it is running. -/
def sendStatusUpdate (p : UrbExecutorProcess) (status : TaskStatus) (uuid : Uuid) (after : Bytes) :
    UrbExecutorProcess :=
  if p.status ≠ .running then p
  else if status.state = .staging then
    p.abort.callback (.error "Attempted to send TASK_STAGING status update")
  else
    let update := p.statusUpdate status (cString uuid after)
    { p with updates := p.updates.set update.uuid update }.sendMessage (.statusUpdate update)

def sendFrameworkMessage (p : UrbExecutorProcess) (data : String) : UrbExecutorProcess :=
  if p.status ≠ .running then p
  else p.sendMessage (.executorToFramework p.slaveId p.frameworkId p.executorId data)

def onInput (p : UrbExecutorProcess) : Input → UrbExecutorProcess
  | .executorRegistered => p.registered
  | .executorReregistered => p.reregistered
  | .reconnectExecutor => p.reconnect
  | .serviceDisconnected => p.reconnect
  | .runTask task => p.runTask task
  | .killTask taskId => p.killTask taskId
  | .statusUpdateAcknowledgement taskId uuid => p.statusUpdateAcknowledgement taskId uuid
  | .frameworkToExecutor data => p.frameworkMessage data
  | .shutdownExecutor => p.shutdown

def handle (p : UrbExecutorProcess) : Event → UrbExecutorProcess
  | .input m => p.onInput m
  | .sendStatusUpdate status uuid after => p.sendStatusUpdate status uuid after
  | .sendFrameworkMessage data => p.sendFrameworkMessage data
  | .stop => p.stop
  | .abort => p.abort
  | .registrationTimer => p.sendMessage (.registerExecutor p.frameworkId p.executorId)

def step (p : UrbExecutorProcess) (e : Event) : UrbExecutorProcess :=
  if p.crashed then p else p.handle e

end UrbExecutorProcess

end Urb.Exec
