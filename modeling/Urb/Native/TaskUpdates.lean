import Urb.Native.LaunchTasks

/-!
# Killing tasks and status updates

The two handlers that end a task and give its resources back to its slave:
`kill_task`, which a framework asks for, and `status_update`, which reports what
the executor did. Both leave the removal of the task's record to the
post-processor.
-/

namespace Urb

/-! ## Killing a task -/

/-- `task['task_info']['agent_id'] if 'agent_id' in ... else task['task_info'].get('slave_id')` -/
def TaskInfo.killSlave (t : TaskInfo) : Option String := t.agentId.orElse fun _ => t.slaveId

/-- `send_kill_task` -/
def sendKillTask (slaveId taskId : String) : Handler Bool := do
  let s ← get
  let slave ← orRaise (s.framework.slaves.lookup slaveId) (.keyError slaveId)
  let channel :=
    if slave.isCommandExecutor then (slave.commandExecutors.lookup taskId).bind (·.channel)
    else slave.executorChannel
  match channel with
  | some ch => do
    emit (.killTask ch taskId)
    pure true
  | none =>
    if slave.asyncResult then do
      emit (.killEvent slaveId taskId)
      pure true
    else pure false

/-- A task without a slave is possibly pending: its job is deleted via the adapter. -/
def deletePendingJob (task : TaskRecord) : Handler Unit :=
  match task.jobId with
  | some jobId => if jobId = "" then pure () else emit (.deleteJob jobId)
  | none => pure ()

/-- A slave that runs a custom executor gets the resources of the task back. -/
def creditUnlessCommand (env : Env) (slaveId : String) (task : TaskInfo) : Handler Unit := do
  let s ← get
  let slave ← orRaise (s.framework.slaves.lookup slaveId) (.keyError slaveId)
  if slave.isCommandExecutor then pure () else creditSlave env slaveId task

/-- The part of `__kill_task` for a task whose record was found. -/
def killKnownTask (env : Env) (taskId : String) (task : TaskRecord) : Handler Bool := do
  let now := (← get).clock
  modifyFramework (·.modifyTask taskId ({ · with state := .killed, endTime := some now }))
  addDeleteElement .tasks taskId
  sendStatusUpdate taskId .killed task.taskInfo.killSlave
  let f := (← get).framework
  match task.taskInfo.killSlave.bind f.resolveSlave with
  | some slaveId => do
    creditUnlessCommand env slaveId task.taskInfo
    if ← sendKillTask slaveId taskId then do
      setOfferEvent
      pure true
    else pure false
  | none => do
    deletePendingJob task
    setOfferEvent
    pure true

/-- `__kill_task`. The result says whether the request is done with. -/
def killTaskOf (env : Env) (taskId : String) : Handler Bool := do
  let f := (← get).framework
  match f.tasks.lookup taskId with
  | some task => killKnownTask env taskId task
  | none => pure true

def killTask (env : Env) (entry : Entry) (taskId : String) : Handler Unit := do
  if (← get).tracking = .active then do
    if ← killTaskOf env taskId then pure () else retry entry (.killTask taskId)
  else retry entry (.killTask taskId)

/-! ## Status updates -/

/-- The slave a status update is about: the one it names, else the one of the task. -/
def StatusUpdate.slave (u : StatusUpdate) (t : TaskInfo) : Option String :=
  u.slaveId.orElse fun _ => u.agentId.orElse fun _ => t.slaveId.orElse fun _ => t.agentId

/-- The states in which `handle_status_update` releases a task. -/
def TaskState.releases (s : TaskState) : Bool := s == .finished || s == .failed

/-- The record of a task after an update. -/
def recordState (u : StatusUpdate) (now : ℚ) (r : TaskRecord) : TaskRecord :=
  { r with
    state := u.state
    startTime := if u.state = .running then some (r.startTime.getD now) else r.startTime }

/-- The resources of a finished task go back to a slave with a custom executor. -/
def releaseCustom (env : Env) (slaveId : String) (task : TaskInfo) : Handler Unit := do
  creditSlave env slaveId task
  if (← get).framework.offerEvent then emit .setOfferEvent else pure ()

/-- The command executor of a finished task is done. The slave is deleted with the last. -/
def releaseCommand (slaveId taskId : String) (slave : Slave) : Handler Unit := do
  let executor ← orRaise (slave.commandExecutors.lookup taskId) (.keyError taskId)
  let _ ← orRaise executor.channel (.keyError "channel")
  let executors := slave.commandExecutors.insert taskId { executor with active := false }
  modifyFramework (·.modifySlave slaveId ({ · with commandExecutors := executors }))
  if executors.entries.all (!·.2.active) then addDeleteElement .slaves slaveId else pure ()

/-- The part of `handle_status_update` for a finished or failed task on a known slave. -/
def releaseTask (env : Env) (slaveId taskId : String) (slave : Slave) (task : TaskInfo) :
    Handler Unit := do
  (if slave.isCommandExecutor then releaseCommand slaveId taskId slave
  else releaseCustom env slaveId task)
  let now := (← get).clock
  modifyFramework (·.modifyTask taskId ({ · with endTime := some now }))
  addDeleteElement .tasks taskId

/-- The part of `handle_status_update` that looks for the slave of the update. -/
def updateOnSlave (env : Env) (u : StatusUpdate) (slaveId : String) (task : TaskInfo) :
    Handler Unit := do
  sendStatusUpdate u.taskId u.state (some slaveId)
  let f := (← get).framework
  let slaves ← orRaise f.slaveDict (.keyError "slave_dict")
  match slaves.lookup slaveId with
  | some slave => if u.state.releases then releaseTask env slaveId u.taskId slave task else pure ()
  | none => pure ()

/-- `handle_status_update` for a framework that is tracked. -/
def handleStatusUpdate (env : Env) (u : StatusUpdate) : Handler Unit := do
  let s ← get
  match s.framework.tasks.lookup u.taskId with
  | none => sendStatusUpdate u.taskId u.state none
  | some task => do
    modifyFramework (·.modifyTask u.taskId (recordState u s.clock))
    match u.slave task.taskInfo with
    | some slaveId => updateOnSlave env u slaveId task.taskInfo
    | none => sendStatusUpdate u.taskId u.state none

def statusUpdate (env : Env) (entry : Entry) (u : StatusUpdate) : Handler Unit := do
  if (← get).tracking = .active then handleStatusUpdate env u
  else retry entry (.statusUpdate u)

end Urb
