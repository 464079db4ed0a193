import Urb.Native.TaskUpdates

/-!
# Executor runners and executors

A job that the service submitted starts an executor runner, which registers as a
slave of the framework (`register_executor_runner`); the executors it starts
register afterwards (`register_executor`). After a restart of the service the
runners register again with the tasks they know, and the executors re-register
with their tasks and the updates that were not acknowledged
(`reregister_executor`). A job that ended is removed by `delete_job`.
-/

namespace Urb

/-- The record that a registering runner, or a re-registering executor, gives a task. -/
def rebuiltRecord (jobId : String) (t : TaskInfo) : TaskRecord :=
  { taskInfo := t, state := .running, jobId := some jobId }

/-! ## Registration of an executor runner -/

/-- The slave record of a registering runner. -/
def newSlave (config : FrameworkConfig) (m : RegisterExecutorRunnerMessage) : Slave :=
  initializeSlaveResources config
    { hostname := m.host, channel := m.channel, cpus := 0, mem := 0, disk := 0, offerable := false }

/-- Add the job of a runner to `job_ids` if it is not there. -/
def ensureJobId (env : Env) (jobId : String) (f : Framework) : Framework :=
  { f with
    jobIds := some (if f.jobs.any (·.1 == jobId) then f.jobs
      else f.jobs ++ [env.getJobIdTuple jobId]) }

/-- The tasks that a registering runner reports as running. -/
def rebuildTasks (env : Env) (slaveId jobId : String) : List TaskInfo → Handler Unit
  | [] => pure ()
  | t :: rest => do
    storeTask t.taskId (rebuiltRecord jobId t)
    debitSlave env slaveId t
    rebuildTasks env slaveId jobId rest

/-- The local variables of the loop over pending tasks. -/
structure PendingVars where
  tasks : List String := []
  executorInDocker : Bool := false
  taskInDocker : Bool := false

/-- The slave takes over the task of a place-holder. -/
def adoptTask (placeholder : String) (t : TaskInfo) (taskId : String) (s : Slave) : Slave :=
  match t.executor with
  | some executor => { s with placeholder := some placeholder, executor := some executor }
  | none =>
    { s with
      placeholder := some placeholder
      commandExecutors :=
        s.commandExecutors.insert taskId { executor := some { executorId := t.taskId } }
      isCommandExecutor := true }

/-- A pending task of the job of the runner that named a place-holder. -/
def adoptPending (slaveId placeholder taskId : String) (t : TaskInfo) (v : PendingVars) :
    Handler PendingVars := do
  modifyFramework fun f =>
    { f with placeholderToSlave := f.placeholderToSlave.insert placeholder slaveId }
  modifyFramework (·.modifySlave slaveId (adoptTask placeholder t taskId))
  pure
    { tasks := v.tasks ++ [t.taskId]
      executorInDocker := v.executorInDocker || t.executor.bind (·.container) == some .docker
      taskInDocker := v.taskInDocker || t.container == some .docker }

/-- One iteration of the loop over `task_dict` of `register_executor_runner`. -/
def pendingTask (env : Env) (m : RegisterExecutorRunnerMessage) (taskId : String)
    (task : TaskRecord) (v : PendingVars) : Handler PendingVars := do
  if task.state = .staging ∧ task.jobId = some m.jobId then do
    let taskSlaveId ← orRaise task.taskInfo.slave (.keyError "agent_id")
    let v ←
      (if isPlaceholder taskSlaveId then
        adoptPending m.slaveId taskSlaveId taskId task.taskInfo v
      else pure v)
    debitSlave env m.slaveId task.taskInfo
    pure v
  else pure v

def pendingTasks (env : Env) (m : RegisterExecutorRunnerMessage) :
    List (Sigma fun _ : String => TaskRecord) → PendingVars → Handler PendingVars
  | [], v => pure v
  | ⟨taskId, task⟩ :: rest, v => do
    let v ← pendingTask env m taskId task v
    pendingTasks env m rest v

/-- Iterating over `task_dict` reads `task['state']` or `task.get('state')`, which fails on the
    fields of a record that `reconcile_tasks` left there. The two errors are not told apart, and
    the fields, whose place in the dictionary is not fixed, are taken to come before the records. -/
def taskEntries : Handler (List (Sigma fun _ : String => TaskRecord)) := do
  let f := (← get).framework
  match f.strayTask with
  | some _ => throw .typeError
  | none => pure f.tasks.entries

/-- A runner that reports no tasks takes over the pending tasks of its job. -/
def startPending (env : Env) (m : RegisterExecutorRunnerMessage) : Handler Unit := do
  let entries ← taskEntries
  let v ← pendingTasks env m entries {}
  (if v.tasks.isEmpty then pure ()
  else do
    emit (.launchTasks m.channel v.tasks)
    (if v.executorInDocker || v.taskInDocker then pure ()
    else do
      let _ ← scaleUp env none
      pure ()))
  modifyFramework (·.modifySlave m.slaveId ({ · with offerable := true }))

/-- A runner whose framework is not active. -/
def refuseRunner (entry : Entry) (m : RegisterExecutorRunnerMessage) : Handler Unit := do
  if (← get).tracking = .finished then sendSlaveShutdownMessage m.channel
  else if 0 < m.retryCount then
    if m.retryCount < m.maxRetryCount then retry entry (.registerExecutorRunner m)
    else sendSlaveShutdownMessage m.channel
  else pure ()

/-- The record of the slave and its job are stored before the tasks are looked at. -/
def addSlave (env : Env) (m : RegisterExecutorRunnerMessage) : Handler Unit := do
  modifyFramework fun f => f.setSlave m.slaveId (newSlave f.config m)
  emit (.initialized m.slaveId)
  modifyFramework (ensureJobId env m.jobId)

def registerExecutorRunner (env : Env) (entry : Entry) (m : RegisterExecutorRunnerMessage) :
    Handler Unit := do
  if (← get).tracking = .active then do
    addSlave env m
    match m.tasks with
    | [] => startPending env m
    | t :: rest => do
      modifyFramework (·.modifySlave m.slaveId ({ · with executor := t.executor }))
      rebuildTasks env m.slaveId m.jobId (t :: rest)
  else refuseRunner entry m

/-! ## Re-registration of an executor -/

/-- What a reported task tells about the executor of the slave. -/
def rebuildExecutor (channel : String) (t : TaskInfo) (s : Slave) : Slave :=
  match t.executor with
  | some executor => { s with executor := some executor }
  | none =>
    { s with
      commandExecutors := s.commandExecutors.insert t.taskId
        { executor := some { executorId := t.taskId }, channel := some channel }
      isCommandExecutor := true }

/-- One iteration of the loop over the tasks of a re-registering executor. -/
def reregisterTask (env : Env) (slaveId jobId channel : String) (t : TaskInfo) : Handler Unit := do
  modifyFramework (·.modifySlave slaveId (rebuildExecutor channel t))
  storeTask t.taskId (rebuiltRecord jobId t)
  debitSlave env slaveId t

def reregisterTasks (env : Env) (slaveId jobId channel : String) : List TaskInfo → Handler Unit
  | [] => pure ()
  | t :: rest => do
    reregisterTask env slaveId jobId channel t
    reregisterTasks env slaveId jobId channel rest

/-- The order in which unacknowledged updates are handled: the sort key is the negated
    timestamp and the name of the state, in reverse. -/
def StatusUpdate.before (a b : StatusUpdate) : Prop :=
  a.timestamp < b.timestamp ∨ (a.timestamp = b.timestamp ∧ b.state.name ≤ a.state.name)

instance (a b : StatusUpdate) : Decidable (a.before b) :=
  inferInstanceAs (Decidable (_ ∨ (_ ∧ _)))

def sortedUpdates (updates : List StatusUpdate) : List StatusUpdate :=
  updates.insertionSort StatusUpdate.before

def handleUpdates (env : Env) : List StatusUpdate → Handler Unit
  | [] => pure ()
  | u :: rest => do
    handleStatusUpdate env u
    handleUpdates env rest

/-- The slave whose channel is the given one. -/
def Framework.slaveOnChannel (f : Framework) (channel : String) : Option String :=
  (f.slaves.entries.find? (·.2.channel == channel)).map (·.1)

def reregisterExecutor (env : Env) (m : ReregisterExecutorMessage) : Handler Unit := do
  let s ← get
  match (if s.tracking = .active then s.framework.slaveOnChannel m.replyTo else none) with
  | none => pure ()
  | some slaveId => do
    modifyFramework (·.modifySlave slaveId ({ · with executorChannel := some m.channel }))
    match NamingUtility.getJobIdFromSlaveId slaveId with
    | none => pure ()
    | some jobId => do
      reregisterTasks env slaveId jobId m.channel m.tasks
      handleUpdates env (sortedUpdates m.updates)
      emit (.executorReregistered m.channel)
      modifyFramework (·.modifySlave slaveId ({ · with offerable := true }))

/-! ## Registration of an executor -/

/-- The slave that a registering executor belongs to. A native executor is known by the
    channel of its runner, an HTTP one by its own id. Where the record of a slave has an executor
    that is `None`, the source raises an `AttributeError`. -/
def Framework.slaveOfExecutor (f : Framework) (entry : Entry) (m : RegisterExecutorMessage) :
    Option (Sigma fun _ : String => Slave) :=
  f.slaves.entries.find? fun e =>
    match entry with
    | .queue => e.2.channel == m.replyTo
    | .http => (e.2.executor.map (·.executorId)) == some m.executorId

/-- One iteration of the first loop over `task_dict` of `register_executor`. -/
def startTask (entry : Entry) (m : RegisterExecutorMessage) (slaveId jobId : String)
    (isCommandExecutor : Bool) (task : TaskRecord) : Handler Unit := do
  if task.state = .staging ∧ task.jobId.getD "0" = jobId then do
    if task.taskInfo.hasTaskId then do
      let taskId := task.taskInfo.taskId
      if isCommandExecutor then
        if m.executorId = taskId then
          match entry with
          | .http => throw .attributeError -- `executor_channel` is not bound
          | .queue => do
            modifyFramework (·.modifySlave slaveId fun s =>
              match s.commandExecutors.lookup taskId with
              | some e => { s with commandExecutors :=
                  s.commandExecutors.insert taskId { e with channel := some m.channel } }
              | none => s)
            runTask m.channel taskId
        else pure ()
      else
        match entry with
        | .http => pure ()
        | .queue => runTask m.channel taskId
    else throw (.keyError "task_id")
  else pure ()

def startTasks (entry : Entry) (m : RegisterExecutorMessage) (slaveId jobId : String)
    (isCommandExecutor : Bool) : List (Sigma fun _ : String => TaskRecord) → Handler Unit
  | [] => pure ()
  | ⟨_, task⟩ :: rest => do
    startTask entry m slaveId jobId isCommandExecutor task
    startTasks entry m slaveId jobId isCommandExecutor rest

/-- The second loop over `task_dict` of `register_executor`: does a task of the slave run
    in docker? -/
def taskInDocker (slaveId : String) :
    List (Sigma fun _ : String => TaskRecord) → Handler Bool
  | [] => pure false
  | ⟨_, task⟩ :: rest =>
    if task.taskInfo.container = some .docker then do
      let taskSlaveId ← orRaise task.taskInfo.slaveId (.keyError "slave_id")
      let others ← taskInDocker slaveId rest
      pure (decide (taskSlaveId = slaveId) || others)
    else taskInDocker slaveId rest

/-- The part of `register_executor` after the slave was found. -/
def registerOnSlave (env : Env) (entry : Entry) (m : RegisterExecutorMessage)
    (slaveId : String) (slave : Slave) : Handler Unit := do
  (match entry with
  | .queue => do
    modifyFramework (·.modifySlave slaveId ({ · with executorChannel := some m.channel }))
    emit (.executorRegistered m.channel)
  | .http => pure ())
  let s ← get
  let _ ← orRaise s.framework.taskDict .attributeError
  let entries ← taskEntries
  (match NamingUtility.getJobIdFromSlaveId slaveId with
  | some jobId => startTasks entry m slaveId jobId slave.isCommandExecutor entries
  | none => pure ())
  let inDocker ← taskInDocker slaveId entries
  if slave.executor.bind (·.container) = some .docker ∨ inDocker ∨ slave.isCommandExecutor then
    pure ()
  else do
    let _ ← scaleUp env none
    pure ()

def registerExecutor (env : Env) (entry : Entry) (m : RegisterExecutorMessage) :
    Handler Unit := do
  let s ← get
  if s.tracking = .active then do
    let _ ← orRaise s.framework.slaveDict (.keyError "slave_dict")
    match s.framework.slaveOfExecutor entry m with
    | none => retry entry (.registerExecutor m)
    | some ⟨slaveId, slave⟩ =>
      if slave.isCommandExecutor ∧ m.executorId ∉ slave.commandExecutors then
        retry entry (.registerExecutor m)
      else registerOnSlave env entry m slaveId slave
  else pure ()

/-! ## The end of a job -/

/-- Remove the last tuple of the job from `job_ids`. -/
def removeJobId (jobId : String) (jobs : List JobIdTuple) : List JobIdTuple :=
  match (jobs.filter (·.1 == jobId)).getLast? with
  | some j => jobs.erase j
  | none => jobs

def deleteSlaves : List String → Handler Unit
  | [] => pure ()
  | slaveId :: rest => do
    deleteSlave slaveId
    deleteSlaves rest

/-- Report the tasks of a job lost. All records are taken to have the key `'task_id'`, without which
    `__process_task_lost_status_update` raises and `delete_job` ends. -/
def loseTasks (jobId : String) : List (Sigma fun _ : String => TaskRecord) → Handler Unit
  | [] => pure ()
  | ⟨_, task⟩ :: rest => do
    (if task.jobId = some jobId then
      processTaskLostStatusUpdate task.taskInfo.taskId task.taskInfo.slaveId
    else pure ())
    loseTasks jobId rest

/-- The keys of the slaves that `delete_job` looks for. -/
def Framework.slavesOfJob (f : Framework) (jobId : String) : List String :=
  f.slaves.keys.filter fun k =>
    (NamingUtility.createSlaveId jobId "undefined" "").toList.isPrefixOf k.toList

/-- `delete_job`, the callback of the job monitor. -/
def deleteJob (jobId : String) : Handler Unit := do
  let s ← get
  if s.tracking = .unknown then pure ()
  else do
    deleteSlaves (s.framework.slavesOfJob jobId)
    match s.framework.jobIds with
    | none => pure ()
    | some jobs => do
      modifyFramework ({ · with jobIds := some (removeJobId jobId jobs) })
      let entries ← taskEntries
      loseTasks jobId entries

end Urb
