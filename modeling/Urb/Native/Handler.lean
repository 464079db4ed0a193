import Urb.ForStd.EStateM
import Urb.Native.Types

/-!
# Primitive steps of the Mesos handler

The handler's code mutates the framework record in place and may raise at almost
every statement, so it is modelled in `EStateM PyError State`. This file has the
steps that all handlers share: reading and writing the framework's dictionaries,
writing messages, queueing deletions (`__add_delete_element`) and requests
(`RetryManager.retry`), and the arithmetic of slave resources.
-/

namespace Urb

/-- Code of `MesosHandler`. -/
abbrev Handler := EStateM PyError State

/-- `slave_id.startswith("place-holder")` -/
def isPlaceholder (slaveId : String) : Bool :=
  "place-holder".toList.isPrefixOf slaveId.toList

namespace NamingUtility

def createSlaveId (jobId taskId channelName : String) : String :=
  "slave-" ++ jobId ++ "." ++ taskId ++ ":" ++ channelName

/-- The text between the first `-` and the first `.` after it. -/
def getJobIdFromSlaveId (slaveId : String) : Option String :=
  match slaveId.toList.dropWhile (· ≠ '-') with
  | [] => none
  | _ :: rest =>
    if '.' ∈ rest then some (String.ofList (rest.takeWhile (· ≠ '.'))) else none

end NamingUtility

/-! ## Dictionaries of the framework -/

namespace Framework

/-- `framework['task_dict'][task_id] = record` -/
def setTask (f : Framework) (taskId : String) (r : TaskRecord) : Framework :=
  { f with taskDict := some (f.tasks.insert taskId r) }

/-- Assign to fields of the record of a task, if there is one. -/
def modifyTask (f : Framework) (taskId : String) (g : TaskRecord → TaskRecord) : Framework :=
  match f.tasks.lookup taskId with
  | some r => f.setTask taskId (g r)
  | none => f

/-- `framework['slave_dict'][slave_id] = slave` -/
def setSlave (f : Framework) (slaveId : String) (s : Slave) : Framework :=
  { f with slaveDict := some (f.slaves.insert slaveId s) }

/-- Assign to fields of a slave, if there is one under the id. -/
def modifySlave (f : Framework) (slaveId : String) (g : Slave → Slave) : Framework :=
  match f.slaves.lookup slaveId with
  | some s => f.setSlave slaveId (g s)
  | none => f

/-- The slave an id stands for: the id itself, or the slave a place-holder was mapped to. -/
def resolveSlave (f : Framework) (slaveId : String) : Option String :=
  if slaveId ∈ f.slaves then some slaveId
  else if isPlaceholder slaveId then
    match f.placeholderToSlave.lookup slaveId with
    | some s => if s ∈ f.slaves then some s else none
    | none => none
  else none

end Framework

/-! ## Steps that all handlers share -/

/-- `d[key]` for a key that may be missing. -/
def orRaise {σ α : Type} (o : Option α) (e : PyError) : EStateM PyError σ α :=
  match o with
  | some a => pure a
  | none => throw e

def emit (e : Effect) : Handler Unit :=
  modify fun s => { s with effects := s.effects ++ [e] }

def modifyFramework (g : Framework → Framework) : Handler Unit :=
  modify fun s => { s with framework := g s.framework }

/-- `task_dict[task_id] = task_record` -/
def storeTask (taskId : String) (r : TaskRecord) : Handler Unit := do
  modifyFramework (·.setTask taskId r)
  emit (.stored taskId)

/-- `__add_delete_element` -/
def addDeleteElement (d : DictRef) (key : String) : Handler Unit :=
  modify fun s => { s with deleteElements := s.deleteElements ++ [⟨d, key⟩] }

/-- How a request reached its handler: from the message queue, or through an `http_*` method. -/
inductive Entry where
  | queue | http
  deriving DecidableEq, Repr

/-- `RetryManager.retry`. A queued request is a `Message` and is written to the retry
    channel. An `http_*` method passes a plain dictionary, which has no `to_json`: the
    `AttributeError` is caught and logged inside `retry`. -/
def retry (entry : Entry) (r : Request) : Handler Unit :=
  match entry with
  | .queue => modify fun s => { s with retryQueue := s.retryQueue ++ [r] }
  | .http => pure ()

/-- `send_status_update`. An HTTP framework gets the update through its `offer_event`; if
    it has none the update is only logged. -/
def sendStatusUpdate (taskId : String) (state : TaskState) (slaveId : Option String) :
    Handler Unit := do
  let f := (← get).framework
  if f.http && !f.offerEvent then pure ()
  else emit (.statusUpdate f.channelName taskId state slaveId)

/-- `offer_event.set()` on the value of `framework.get('offer_event')`. -/
def setOfferEvent : Handler Unit := do
  if (← get).framework.offerEvent then emit .setOfferEvent else throw .attributeError

/-! ## Slave resources -/

/-- Code that works on one slave record. -/
abbrev SlaveM := EStateM PyError Slave

/-- The resources that a slave keeps under a key of its own. -/
def isBuiltin (name : String) : Bool :=
  name == "cpus" || name == "gpus" || name == "mem" || name == "disk"

/-- `slave[name] += delta` for one of the built-in names. -/
def adjustBuiltin (name : String) (delta : ℚ) : SlaveM Unit := do
  let s ← get
  if name = "cpus" then set { s with cpus := s.cpus + delta }
  else if name = "mem" then set { s with mem := s.mem + delta }
  else if name = "disk" then set { s with disk := s.disk + delta }
  else
    match s.gpus with
    | some g => set { s with gpus := some (g + delta) }
    | none => throw (.keyError "gpus")

/-- `slave['custom_resources'][name] += delta` -/
def adjustCustom (name : String) (delta : ℚ) : SlaveM Unit := do
  let s ← get
  match s.customResources with
  | none => throw (.keyError "custom_resources")
  | some custom =>
    match custom.lookup name with
    | none => throw (.keyError name)
    | some (.ranges _) => throw .typeError
    | some (.scalar v) =>
      set { s with customResources := some (custom.insert name (.scalar (v + delta))) }

/-- One iteration of the loops of `__debit_resources` and `__credit_resources`, which
    differ in the sign of the amounts and in the operation on port ranges. -/
def adjustResource (ports : List PortRange → List PortRange → Except PyError (List PortRange))
    (sign : ℚ) (r : Resource) : SlaveM Unit := do
  if r.name = "ports" then
    let ranges ← orRaise r.ranges (.keyError "ranges")
    let s ← get
    match ports s.ports ranges with
    | .ok left => set { s with ports := left }
    | .error e => throw e
  else if isBuiltin r.name then
    let value ← orRaise r.scalar (.keyError "scalar")
    adjustBuiltin r.name (sign * value)
  else if r.type = .scalar then
    let value ← orRaise r.scalar (.keyError "scalar")
    adjustCustom r.name (sign * value)
  else pure ()

def adjustResources (ports : List PortRange → List PortRange → Except PyError (List PortRange))
    (sign : ℚ) : List Resource → SlaveM Unit
  | [] => pure ()
  | r :: rs => do
    adjustResource ports sign r
    adjustResources ports sign rs

/-- `__debit_resources` -/
def debitResources (env : Env) (task : TaskInfo) : SlaveM Unit := do
  let resources ← orRaise task.resources (.keyError "resources")
  adjustResources env.portSubtract (-1) resources
  modify fun s => { s with taskCount := s.taskCount + 1 }

/-- `__credit_resources` -/
def creditResources (env : Env) (task : TaskInfo) : SlaveM Unit := do
  adjustResources env.portAdd 1 (task.resources.getD [])
  modify fun s => { s with taskCount := s.taskCount - 1 }

/-- `__initialize_slave_resources` -/
def initializeSlaveResources (config : FrameworkConfig) (s : Slave) : Slave :=
  { s with
    cpus := config.cpus
    mem := config.mem
    disk := config.disk
    ports := config.ports
    gpus := match config.gpus with
      | some g => some (g : ℚ)
      | none => s.gpus
    customResources := match config.customResources with
      | some c => some c
      | none => s.customResources }

/-- Run code on the record of a slave. What it assigned stays when it raises. -/
def onSlave {α : Type} (slaveId : String) (m : SlaveM α) : Handler α := fun s =>
  match s.framework.slaves.lookup slaveId with
  | none => .error (.keyError slaveId) s
  | some slave =>
    match m slave with
    | .ok a slave' => .ok a { s with framework := s.framework.setSlave slaveId slave' }
    | .error e slave' => .error e { s with framework := s.framework.setSlave slaveId slave' }

/-- `__debit_resources(slave, task)`, noted as an effect when it completes. -/
def debitSlave (env : Env) (slaveId : String) (task : TaskInfo) : Handler Unit := do
  onSlave slaveId (debitResources env task)
  emit (.debited slaveId task.taskId (task.resources.getD []))

/-- `__credit_resources(slave, task)`, noted as an effect when it is called. -/
def creditSlave (env : Env) (slaveId : String) (task : TaskInfo) : Handler Unit := do
  emit (.credited slaveId task.taskId (task.resources.getD []))
  onSlave slaveId (creditResources env task)

end Urb
