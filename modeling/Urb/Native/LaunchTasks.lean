import Mathlib.Data.List.Dedup
import Mathlib.Data.List.Sort
import Urb.Native.Handler

/-!
# Launching tasks

`launch_tasks` stores a record for every task of the message. A task for a
place-holder offer makes the service submit executor runners (`scale_up`); a task
for a running executor runner is forwarded to it and debited there. The offers of
the message that no task used are then treated as refused.
-/

namespace Urb

/-! ## Submitting executor runners -/

/-- `submit_executor_runner`: what the adapter raises is logged. -/
def submitExecutorRunner (env : Env) (concurrentTasks : Nat) : Handler (List JobIdTuple) := do
  let s ← get
  match env.registerFramework s.effects s.framework.config.maxTasks concurrentTasks with
  | .ok jobs => do
    emit (.submitJobs jobs)
    pure jobs
  | .error _ => pure []

/-- The number of runners `scale_up` asks for before it looks at the headroom. -/
def effectiveScaleCount (config : FrameworkConfig) (scaleCount : Option Nat) : Nat :=
  if scaleCount.getD 0 = 0 then config.scaleCount.getD 1 else scaleCount.getD 0

/-- `max_tasks - len(framework.get("job_id",[]))` -/
def jobHeadroom (f : Framework) : Nat :=
  f.config.maxTasks - (f.jobId.getD []).length

/-- `framework['job_ids'] = list(set(framework_job_ids).union(job_ids))` -/
def addJobIds (jobs : List JobIdTuple) (f : Framework) : Framework :=
  { f with jobIds := some (f.jobs ++ jobs).dedup }

def scaleUp (env : Env) (scaleCount : Option Nat) : Handler (List JobIdTuple) := do
  let f := (← get).framework
  let count := effectiveScaleCount f.config scaleCount
  if count = 0 ∨ jobHeadroom f = 0 then pure []
  else do
    let jobs ← submitExecutorRunner env (min count (jobHeadroom f))
    modifyFramework (addJobIds jobs)
    pure jobs

/-- `sorted(job_id)[0][0]`: the least tuple has the least id. -/
def firstJobId (jobs : List JobIdTuple) : Option String :=
  ((jobs.map Prod.fst).insertionSort (· ≤ ·)).head?

/-! ## Lost tasks -/

/-- The record of a task reported lost. Times that are not set yet get the current one. -/
def markLost (now : ℚ) (r : TaskRecord) : TaskRecord :=
  { r with
    state := .lost
    endTime := some (r.endTime.getD now)
    startTime := some (r.startTime.getD now) }

/-- `__process_task_lost_status_update` -/
def processTaskLostStatusUpdate (taskId : String) (slaveId : Option String) : Handler Unit := do
  sendStatusUpdate taskId .lost slaveId
  let s ← get
  if taskId ∈ s.framework.tasks then do
    modifyFramework (·.modifyTask taskId (markLost s.clock))
    addDeleteElement .tasks taskId
  else throw (.keyError taskId)

/-! ## The offers that no task used -/

/-- `if not reoffer_time or x < reoffer_time: reoffer_time = x` -/
def earlier (reofferTime : Option ℚ) (x : ℚ) : Option ℚ :=
  match reofferTime with
  | none => some x
  | some t => if t = 0 ∨ x < t then some x else some t

/-- `del framework['placeholder_to_slave'][slave['placeholder']]` -/
def Framework.forgetPlaceholder (slaveId : String) (f : Framework) : Framework :=
  match (f.slaves.lookup slaveId).bind (·.placeholder) with
  | some p => { f with placeholderToSlave := f.placeholderToSlave.erase p }
  | none => f

/-- `__delete_slave` -/
def deleteSlave (slaveId : String) : Handler Unit := do
  addDeleteElement .slaves slaveId
  modifyFramework (·.modifySlave slaveId ({ · with offerable := false }))
  modifyFramework (·.forgetPlaceholder slaveId)

/-- `send_slave_shutdown_message` -/
def sendSlaveShutdownMessage (channel : String) : Handler Unit :=
  emit (.slaveShutdown channel)

/-- The part of `__process_remaining_offers` for the offer of a place-holder. -/
def refusePlaceholder (refuseSeconds : Option ℚ) (offerId : String) (reofferTime : Option ℚ) :
    Handler (Option ℚ) := do
  let after := (← get).clock + refuseSeconds.getD 0
  if 0 < refuseSeconds.getD 0 then do
    modifyFramework ({ · with placeholderOfferableAfter := after })
    pure (earlier reofferTime after)
  else do
    addDeleteElement .offers offerId
    pure reofferTime

/-- A refusal counts against the slave, which is not offered again for a while. -/
def countRefusal (offerableAfter : ℚ) (s : Slave) : Slave :=
  { s with offerable := true, refusedCount := s.refusedCount + 1, offerableAfter }

/-- The part of `__process_remaining_offers` for the offer of a slave. -/
def refuseSlave (maxRejectedOffers : Nat) (refuseSeconds : Option ℚ) (offerId slaveId : String)
    (slave : Slave) (reofferTime : Option ℚ) : Handler (Option ℚ) := do
  if 0 < slave.taskCount then do
    addDeleteElement .offers offerId
    modifyFramework (·.modifySlave slaveId ({ · with offerable := false }))
    pure reofferTime
  else do
    let now := (← get).clock
    -- `FRAMEWORK_OFFER_MIN_WAIT_IN_SECONDS` is one second
    let after := if 0 < refuseSeconds.getD 0 then now + refuseSeconds.getD 0 else now + 1
    modifyFramework (·.modifySlave slaveId (countRefusal after))
    (if 0 < refuseSeconds.getD 0 then pure () else addDeleteElement .offers offerId)
    (if maxRejectedOffers < slave.refusedCount + 1 then do
      sendSlaveShutdownMessage slave.channel
      deleteSlave slaveId
    else pure ())
    pure (earlier reofferTime after)

/-- One iteration of the loop of `__process_remaining_offers`. -/
def refuseOffer (maxRejectedOffers : Nat) (refuseSeconds : Option ℚ) (offerId : String)
    (reofferTime : Option ℚ) : Handler (Option ℚ) := do
  let f := (← get).framework
  match f.offers.lookup offerId with
  | none => pure reofferTime
  | some offer =>
    match f.slaves.lookup offer.slaveId with
    | some slave =>
      refuseSlave maxRejectedOffers refuseSeconds offerId offer.slaveId slave reofferTime
    | none =>
      if isPlaceholder offer.slaveId then refusePlaceholder refuseSeconds offerId reofferTime
      else pure reofferTime

def refuseOffers (maxRejectedOffers : Nat) (refuseSeconds : Option ℚ) :
    List String → Option ℚ → Handler (Option ℚ)
  | [], reofferTime => pure reofferTime
  | offerId :: rest, reofferTime => do
    let reofferTime ← refuseOffer maxRejectedOffers refuseSeconds offerId reofferTime
    refuseOffers maxRejectedOffers refuseSeconds rest reofferTime

/-- The end of `__process_remaining_offers`: trigger a run of the offer thread. -/
def scheduleOffers (reofferTime : Option ℚ) : Handler Unit :=
  if reofferTime.getD 0 = 0 then pure ()
  else do
    modifyFramework ({ · with nextOfferTime := reofferTime.getD 0 + 1 / 4 })
    setOfferEvent

/-- `__process_remaining_offers` -/
def processRemainingOffers (refuseSeconds : Option ℚ) (remainingOffers : List String) :
    Handler Unit := do
  let f := (← get).framework
  let maxRejectedOffers ← orRaise f.config.maxRejectedOffers (.keyError "max_rejected_offers")
  let reofferTime ← refuseOffers maxRejectedOffers refuseSeconds remainingOffers none
  scheduleOffers reofferTime

/-! ## Launching -/

/-- `t['slave_id'] if 'slave_id' in t else t['agent_id']` -/
def TaskInfo.slave (t : TaskInfo) : Option String := t.slaveId.orElse fun _ => t.agentId

/-- The record that `launch_tasks` stores for a task. -/
def stagingRecord (m : LaunchTasksMessage) (now : ℚ) (t : TaskInfo) : TaskRecord :=
  { taskInfo := t, state := .staging, queueTime := some now, offerIds := some m.offerIds }

/-- The local variables of the loop of `launch_tasks`: the jobs submitted for the
    place-holders of the message, and the offers used by tasks on running slaves. -/
structure LaunchVars where
  placeholderToJobid : Dict String := ∅
  usedOffers : List String := []

/-- The branches that forward the message to the executor runner differ in what they
    record about the executor of the slave. -/
def recordExecutor (t : TaskInfo) (s : Slave) : Slave :=
  let commandExecutors :=
    s.commandExecutors.insert t.taskId { executor := some { executorId := t.taskId } }
  if s.executor.isNone && s.commandExecutors.keys.isEmpty then
    if t.executor.isSome then { s with executor := t.executor }
    else { s with commandExecutors, isCommandExecutor := true }
  else if !s.commandExecutors.keys.isEmpty then
    if t.taskId ∈ s.commandExecutors then s else { s with commandExecutors }
  else s

/-- `run_task` removes the agent id and the data from the task it sends, which is the
    task of the record. -/
def runTask (channel taskId : String) : Handler Unit := do
  emit (.runTask channel taskId)
  modifyFramework (·.modifyTask taskId fun r =>
    { r with taskInfo := { r.taskInfo with agentId := none, data := none } })

/-- Run the task if its executor has registered. -/
def runIfRegistered (slaveId taskId : String) : Handler Unit := do
  let s ← get
  let slave ← orRaise (s.framework.slaves.lookup slaveId) (.keyError slaveId)
  let channel ←
    (if slave.isCommandExecutor then do
      let executor ← orRaise (slave.commandExecutors.lookup taskId) (.keyError taskId)
      pure executor.channel
    else pure slave.executorChannel)
  match channel with
  | some ch => runTask ch taskId
  | none => pure ()

/-- The task of a place-holder offer whose job is known. With `send_task_lost` it is
    reported lost, and the framework is expected to send it again. -/
def assignJob (t : TaskInfo) (slaveId jobId : String) : Handler Unit := do
  modifyFramework (·.modifyTask t.taskId ({ · with jobId := some jobId }))
  let f := (← get).framework
  if f.config.sendTaskLost.getD true then processTaskLostStatusUpdate t.taskId (some slaveId)
  else pure ()

/-- A task that answers a place-holder offer. -/
def launchOnPlaceholder (env : Env) (t : TaskInfo) (slaveId : String) (v : LaunchVars) :
    Handler LaunchVars := do
  match (v.placeholderToJobid.lookup slaveId).filter (· ≠ "") with
  | some jobId => do
    assignJob t slaveId jobId
    pure v
  | none => do
    let f := (← get).framework
    let jobs ← scaleUp env (some (f.config.concurrentTasks.getD 1))
    match firstJobId jobs with
    | none => do
      processTaskLostStatusUpdate t.taskId (some slaveId)
      pure v
    | some jobId => do
      assignJob t slaveId jobId
      pure { v with placeholderToJobid := v.placeholderToJobid.insert slaveId jobId }

/-- The offer of the slave is marked as used if the message names it. -/
def LaunchVars.useOffer (v : LaunchVars) (m : LaunchTasksMessage) (slave : Slave) : LaunchVars :=
  match slave.offer with
  | some offer =>
    if offer.id ∈ m.offerIds then { v with usedOffers := offer.id :: v.usedOffers } else v
  | none => v

/-- A task for an executor runner that is up. The result is `none` where `launch_tasks`
    returns early because the slave id names no job. -/
def launchOnSlave (env : Env) (m : LaunchTasksMessage) (t : TaskInfo) (slaveId : String)
    (v : LaunchVars) : Handler (Option LaunchVars) := do
  let f := (← get).framework
  match f.slaves.lookup slaveId with
  | none => pure (some v)
  | some slave =>
    match NamingUtility.getJobIdFromSlaveId slaveId with
    | none => pure none
    | some jobId => do
      modifyFramework (·.modifyTask t.taskId ({ · with jobId := some jobId }))
      emit (.launchTasks slave.channel (m.tasks.map (·.taskId)))
      modifyFramework (·.modifySlave slaveId (recordExecutor t))
      debitSlave env slaveId t
      modifyFramework (·.modifySlave slaveId ({ · with offerable := true }))
      runIfRegistered slaveId t.taskId
      pure (some (v.useOffer m slave))

/-- One iteration of the loop of `launch_tasks`. -/
def launchTask (env : Env) (m : LaunchTasksMessage) (t : TaskInfo) (v : LaunchVars) :
    Handler (Option LaunchVars) := do
  let slaveId ← orRaise t.slave (.keyError "agent_id")
  let now := (← get).clock
  storeTask t.taskId (stagingRecord m now t)
  if isPlaceholder slaveId then do
    let v ← launchOnPlaceholder env t slaveId v
    pure (some v)
  else launchOnSlave env m t slaveId v

def launchLoop (env : Env) (m : LaunchTasksMessage) :
    List TaskInfo → LaunchVars → Handler (Option LaunchVars)
  | [], v => pure (some v)
  | t :: rest, v => do
    match ← launchTask env m t v with
    | none => pure none
    | some v => launchLoop env m rest v

/-- The offers of the message that no task used. -/
def LaunchVars.remainingOffers (v : LaunchVars) (m : LaunchTasksMessage) : List String :=
  m.offerIds.dedup.filter (· ∉ v.usedOffers)

def launchTasks (env : Env) (entry : Entry) (m : LaunchTasksMessage) : Handler Unit := do
  if (← get).tracking = .active then do
    modifyFramework fun f => { f with taskDict := some f.tasks }
    match ← launchLoop env m m.tasks {} with
    | none => pure ()
    | some v => processRemainingOffers m.refuseSeconds (v.remainingOffers m)
  else retry entry (.launchTasks m)

end Urb
