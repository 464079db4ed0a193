import Urb.ForStd.AList
import Urb.Native.Executors

/-!
# Reconciliation and revived offers

`reconcile_tasks` tells a framework the states of the tasks it asks about, or of
all its tasks. For a task it has no record of it keeps a list of candidates, and
after a grace period reports the task lost; the record it makes up for the lost
task then *becomes* the dictionary of tasks.
-/

namespace Urb

/-- The slave id that a status of the request, or else the record, gives. -/
def ReconcileStatus.slave (s : ReconcileStatus) (t : Option TaskRecord) : Option String :=
  (s.slaveId.orElse fun _ => s.agentId).orElse fun _ => t.bind (·.taskInfo.slave)

/-- `slave_id['value'] = slave_id_value` on the slave id of the record. -/
def replaceSlave (slaveId : String) (r : TaskRecord) : TaskRecord :=
  { r with taskInfo :=
      if r.taskInfo.slaveId.isSome then { r.taskInfo with slaveId := some slaveId }
      else { r.taskInfo with agentId := some slaveId } }

/-- Replace a place-holder by its slave. The id is an object that the record shares, unless
    the status of the request has one of its own. -/
def resolveReconcileSlave (s : ReconcileStatus) (slaveId : Option String) :
    Handler (Option String) := do
  let f := (← get).framework
  match slaveId.filter isPlaceholder >>= f.placeholderToSlave.lookup with
  | none => pure slaveId
  | some real => do
    (if (s.slaveId.orElse fun _ => s.agentId).isSome then pure ()
    else modifyFramework (·.modifyTask s.taskId (replaceSlave real)))
    pure (some real)

/-- What the first part of the loop body decides about a task. -/
inductive Verdict where
  | skip
  | report (state : TaskState)
  | determine
  deriving DecidableEq, Repr

/-- A staging task is looked up when the adapter can tell and enough time has passed. -/
def stagingVerdict (env : Env) (now : ℚ) (t : TaskRecord) (slaveId : Option String) :
    Except PyError Verdict :=
  let (smartAdapter, updateTime) := env.reconcileTasks
  if smartAdapter then
    if 0 < updateTime then
      match t.queueTime.filter (· ≠ 0) with
      | none => if slaveId.isNone then .ok .skip else
          -- `time.time() - queue_time` with `None`; a stored zero is a number
          if t.queueTime.isNone then .error .typeError
          else if now < updateTime then .ok (.report .staging) else .ok .determine
      | some queueTime =>
        if now - queueTime < updateTime then
          if slaveId.isNone then .ok .skip else .ok (.report .staging)
        else .ok .determine
    else .ok .determine
  else .ok (.report .staging)

/-- The state of a task according to the job that its slave id names. -/
def stateFromJob (env : Env) (log : List Effect) (slaveId : String) (t : Option TaskRecord) :
    TaskState :=
  match (NamingUtility.getJobIdFromSlaveId slaveId).orElse fun _ => t.bind (·.jobId) with
  | none => .lost
  | some jobId =>
    match env.getJobStatus log jobId with
    | .running => .running
    | .unknownJob => .lost
    | .completedJob => .finished
    | .pendingJob => .staging
    | .otherError => .lost

/-- The record that stands for a task given up. -/
def lostRecord (entry : Entry) (taskId : String) : TaskRecord :=
  { taskInfo :=
      match entry with
      | .queue => { taskId, hasTaskId := false, hasName := false, slaveId := some "NotValid" }
      | .http => { taskId, hasTaskId := false, hasName := false, agentId := some "NotValid" }
    state := .lost }

/-- `t[task_id] = task_record; framework['task_dict'] = t`, where `t` is the record of the
    task, or a new dictionary. Deletions queued for the old dictionary no longer matter. -/
def replaceTaskDict (entry : Entry) (taskId : String) (t : Option TaskRecord) : Handler Unit := do
  modify fun s =>
    { s with
      framework := { s.framework with
        taskDict := some ((∅ : Dict TaskRecord).insert taskId (lostRecord entry taskId))
        strayTask := t
        lostCandidate := s.framework.lostCandidate.erase taskId }
      deleteElements := s.deleteElements.filter (·.dict ≠ .tasks) }
  emit (.stored taskId)

/-- The time since when a task without a slave is waited for; `none` to wait longer. -/
def waitingSince (taskId : String) (t : Option TaskRecord) : Handler (Option ℚ) := do
  let s ← get
  match t with
  | some r => pure (r.queueTime.filter (· ≠ 0))
  | none =>
    match s.framework.lostCandidate.lookup taskId with
    | some queueTime => pure (some queueTime)
    | none => do
      modifyFramework fun f => { f with lostCandidate := f.lostCandidate.insert taskId s.clock }
      pure none

/-- A task without a slave is given up after `SLAVE_GRACE_PERIOD`, two minutes. -/
def giveUp (entry : Entry) (taskId : String) (t : Option TaskRecord) :
    Handler (Option (TaskState × Option String)) := do
  match ← waitingSince taskId t with
  | none => pure none
  | some queueTime => do
    if (← get).clock - queueTime > 120 then do
      replaceTaskDict entry taskId t
      pure (some (.lost, some "NotValid"))
    else pure none

/-- The state to report for a task that has none that can be reported as it is. -/
def determineState (env : Env) (entry : Entry) (taskId : String) (t : Option TaskRecord)
    (slaveId : Option String) : Handler (Option (TaskState × Option String)) := do
  match slaveId with
  | some id => do
    let s ← get
    pure (some (stateFromJob env s.effects id t, some id))
  | none => giveUp entry taskId t

/-- What the loop body does with a task before it determines a state. -/
def verdict (env : Env) (now : ℚ) (t : Option TaskRecord) (slaveId : Option String) :
    Except PyError Verdict :=
  match t with
  | none => .ok .determine
  | some r =>
    if r.state = .staging then stagingVerdict env now r slaveId else .ok (.report r.state)

/-- One iteration of the loop of an explicit reconciliation. -/
def reconcileTask (env : Env) (entry : Entry) (s : ReconcileStatus) : Handler Unit := do
  let st ← get
  let t := st.framework.tasks.lookup s.taskId
  let slaveId ← resolveReconcileSlave s (s.slave t)
  match verdict env st.clock t slaveId with
  | .error e => throw e
  | .ok .skip => pure ()
  | .ok (.report state) => sendStatusUpdate s.taskId state slaveId
  | .ok .determine => do
    match ← determineState env entry s.taskId t slaveId with
    | none => pure ()
    | some (state, id) => sendStatusUpdate s.taskId state id

def reconcileExplicit (env : Env) (entry : Entry) : List ReconcileStatus → Handler Unit
  | [] => pure ()
  | s :: rest => do
    reconcileTask env entry s
    reconcileExplicit env entry rest

/-- Implicit reconciliation: all running and staging tasks. -/
def reconcileImplicit : List (Sigma fun _ : String => TaskRecord) → Handler Unit
  | [] => pure ()
  | ⟨_, t⟩ :: rest => do
    (if t.state = .running ∨ t.state = .staging then
      if t.taskInfo.hasTaskId then sendStatusUpdate t.taskInfo.taskId t.state none
      else throw (.keyError "task_id")
    else pure ())
    reconcileImplicit rest

def reconcileTasks (env : Env) (entry : Entry) (statuses : List ReconcileStatus) :
    Handler Unit := do
  if (← get).tracking = .active then
    match statuses with
    | [] => do
      let entries ← taskEntries
      reconcileImplicit entries
    | s :: rest => reconcileExplicit env entry (s :: rest)
  else retry entry (.reconcileTasks statuses)

/-! ## Reviving offers -/

/-- All slaves, and the place-holder, may be offered at once. -/
def resetOffers (f : Framework) : Framework :=
  { f with
    slaveDict := f.slaveDict.map
      (·.mapVal fun s => { s with offerable := true, offerableAfter := 0 })
    placeholderOfferableAfter := 0 }

def reviveOffers : Handler Unit := do
  if (← get).tracking = .active then do
    modifyFramework resetOffers
    setOfferEvent
  else pure ()

end Urb
