import Mathlib.Data.List.AList
import Mathlib.Data.Rat.Defs

/-!
# Data model of the Mesos handler

The records that `MesosHandler` keeps for one framework: its tasks, its slaves
(executor runners), the offers made to it and its configuration, together with
the messages it receives and the effects it has on the outside.

A Python dictionary with string keys is an association list without duplicate
keys (`Dict`). A key that the source may find missing is an `Option` field; the
accessors `Framework.tasks` and `Framework.slaves` are `framework.get(key, {})`.
Scalar resource amounts are exact rationals.
-/

namespace Urb

/-- A Python dictionary with string keys. -/
abbrev Dict (β : Type) := AList (fun _ : String => β)

/-- The exceptions that the modelled statements raise. -/
inductive PyError where
  | keyError (key : String)
  | typeError
  | unicodeError
  | attributeError
  | portRange
  | adapter
  deriving DecidableEq, Repr

/-- The task states of Mesos 1.4. -/
inductive TaskState where
  | staging | starting | running | killing
  | finished | failed | killed | lost | error
  | dropped | unreachable | gone | goneByOperator | unknown
  deriving DecidableEq, Repr

/-- The string that stands for a state in the messages. -/
def TaskState.name : TaskState → String
  | .staging => "TASK_STAGING"
  | .starting => "TASK_STARTING"
  | .running => "TASK_RUNNING"
  | .killing => "TASK_KILLING"
  | .finished => "TASK_FINISHED"
  | .failed => "TASK_FAILED"
  | .killed => "TASK_KILLED"
  | .lost => "TASK_LOST"
  | .error => "TASK_ERROR"
  | .dropped => "TASK_DROPPED"
  | .unreachable => "TASK_UNREACHABLE"
  | .gone => "TASK_GONE"
  | .goneByOperator => "TASK_GONE_BY_OPERATOR"
  | .unknown => "TASK_UNKNOWN"

/-- The states in which a task has ended. -/
def TaskState.terminal : TaskState → Bool
  | .finished | .failed | .killed | .lost | .error => true
  | _ => false

/-! ## Resources -/

/-- The `begin` and the `end` of a range of ports, both inclusive. -/
structure PortRange where
  first : Int
  last : Int
  deriving DecidableEq, Repr

inductive ResourceType where
  | scalar | ranges | set | text
  deriving DecidableEq, Repr

/-- A resource of a task, as the framework sends it. -/
structure Resource where
  name : String
  type : ResourceType
  scalar : Option ℚ := none
  ranges : Option (List PortRange) := none
  deriving DecidableEq

/-- A custom resource of a slave: `configure_framework` keeps numbers and lists of ranges. -/
inductive CustomResource where
  | scalar (value : ℚ)
  | ranges (list : List PortRange)
  deriving DecidableEq

/-! ## Tasks -/

inductive ContainerType where
  | docker | mesos
  deriving DecidableEq, Repr

structure ExecutorInfo where
  executorId : String
  container : Option ContainerType := none
  deriving DecidableEq, Repr

/-- `TaskInfo`. A native framework names the slave in `slave_id`, an HTTP one in `agent_id`.
    The info that `reconcile_tasks` makes up for a lost task has no keys `task_id` and `name`. -/
structure TaskInfo where
  taskId : String
  hasTaskId : Bool := true
  hasName : Bool := true
  slaveId : Option String := none
  agentId : Option String := none
  resources : Option (List Resource) := none
  executor : Option ExecutorInfo := none
  container : Option ContainerType := none
  data : Option String := none
  deriving DecidableEq

/-- A record of `task_dict`. The times are `none` where the source stores `""` or no key. -/
structure TaskRecord where
  taskInfo : TaskInfo
  state : TaskState
  queueTime : Option ℚ := none
  startTime : Option ℚ := none
  endTime : Option ℚ := none
  offerIds : Option (List String) := none
  jobId : Option String := none
  deriving DecidableEq

/-! ## Slaves, offers and the framework -/

/-- An entry of `command_executors`, keyed by task id. -/
structure CommandExecutor where
  executor : Option ExecutorInfo
  channel : Option String := none
  active : Bool := true
  deriving DecidableEq

/-- An offer, with the slave (or place-holder) it was made for. -/
structure Offer where
  id : String
  slaveId : String
  deriving DecidableEq, Repr

/-- A record of `slave_dict`. The slave's own id is its key there. -/
structure Slave where
  hostname : String := ""
  channel : String
  cpus : ℚ
  mem : ℚ
  disk : ℚ
  gpus : Option ℚ := none
  ports : List PortRange := []
  customResources : Option (Dict CustomResource) := none
  taskCount : Int := 0
  offerable : Bool := true
  offerableAfter : ℚ := 0
  refusedCount : Nat := 0
  offer : Option Offer := none
  placeholder : Option String := none
  executor : Option ExecutorInfo := none
  executorChannel : Option String := none
  asyncResult : Bool := false
  isCommandExecutor : Bool := false
  commandExecutors : Dict CommandExecutor := ∅
  deriving DecidableEq

/-- A job id as the adapters return it: the id, and the bounds of a job array. -/
abbrev JobIdTuple := String × Option String × Option String

/-- `framework['config']`, after `configure_framework`. -/
structure FrameworkConfig where
  cpus : Int
  mem : Int
  disk : Int
  gpus : Option Int := none
  ports : List PortRange := []
  customResources : Option (Dict CustomResource) := none
  maxTasks : Nat
  maxRejectedOffers : Option Nat := none
  sendTaskLost : Option Bool := none
  scaleCount : Option Nat := none
  concurrentTasks : Option Nat := none
  deriving DecidableEq

/-- A framework record. `jobId` is the key `"job_id"`, which no statement of the source
    writes. `strayTask` holds the fields of a task record that `reconcile_tasks` made
    keys of `task_dict` itself. -/
structure Framework where
  id : String
  channelName : String
  config : FrameworkConfig
  slaveDict : Option (Dict Slave) := none
  taskDict : Option (Dict TaskRecord) := none
  strayTask : Option TaskRecord := none
  offers : Dict Offer := ∅
  jobIds : Option (List JobIdTuple) := none
  jobId : Option (List JobIdTuple) := none
  placeholderToSlave : Dict String := ∅
  placeholderOfferableAfter : ℚ := 0
  nextOfferTime : ℚ := 0
  offerEvent : Bool := true
  lostCandidate : Dict ℚ := ∅
  deriving DecidableEq

namespace Framework

/-- `framework.get('task_dict', {})` -/
def tasks (f : Framework) : Dict TaskRecord := f.taskDict.getD ∅

/-- `framework.get('slave_dict', {})` -/
def slaves (f : Framework) : Dict Slave := f.slaveDict.getD ∅

/-- `framework.get('job_ids', [])` -/
def jobs (f : Framework) : List JobIdTuple := f.jobIds.getD []

/-- `framework['channel_name'] == "http"` -/
def http (f : Framework) : Bool := f.channelName == "http"

end Framework

/-! ## Messages -/

/-- `LaunchTasksMessage`, with the `refuse_seconds` of its filters. -/
structure LaunchTasksMessage where
  offerIds : List String := []
  refuseSeconds : Option ℚ := none
  tasks : List TaskInfo := []
  deriving DecidableEq

/-- A status update of an executor. -/
structure StatusUpdate where
  taskId : String
  state : TaskState
  slaveId : Option String := none
  agentId : Option String := none
  timestamp : Int := 0
  deriving DecidableEq, Repr

/-- A status of an explicit `ReconcileTasksMessage`. -/
structure ReconcileStatus where
  taskId : String
  slaveId : Option String := none
  agentId : Option String := none
  deriving DecidableEq, Repr

structure RegisterExecutorRunnerMessage where
  slaveId : String
  host : String := ""
  channel : String
  jobId : String
  tasks : List TaskInfo := []
  retryCount : Nat := 0
  maxRetryCount : Nat := 0
  deriving DecidableEq

/-- `replyTo` names the channel of the executor runner, `channel` that of the executor. -/
structure ReregisterExecutorMessage where
  replyTo : String
  channel : String
  tasks : List TaskInfo := []
  updates : List StatusUpdate := []
  deriving DecidableEq

structure RegisterExecutorMessage where
  executorId : String
  replyTo : String
  channel : String
  deriving DecidableEq, Repr

/-- The requests that the handler dispatches. -/
inductive Request where
  | launchTasks (message : LaunchTasksMessage)
  | killTask (taskId : String)
  | reconcileTasks (statuses : List ReconcileStatus)
  | reviveOffers
  | statusUpdate (update : StatusUpdate)
  | registerExecutorRunner (message : RegisterExecutorRunnerMessage)
  | reregisterExecutor (message : ReregisterExecutorMessage)
  | registerExecutor (message : RegisterExecutorMessage)
  deriving DecidableEq

/-! ## Effects and the state of the handler -/

/-- What the handler does, in the order in which it does it: the messages it writes
    (named by their channel), the calls of the adapter, and the book-keeping steps
    that the properties below count. -/
inductive Effect where
  | initialized (slave : String)
  | stored (task : String)
  | debited (slave task : String) (resources : List Resource)
  | credited (slave task : String) (resources : List Resource)
  | statusUpdate (channel task : String) (state : TaskState) (slaveId : Option String)
  | setOfferEvent
  | launchTasks (channel : String) (tasks : List String)
  | runTask (channel task : String)
  | killTask (channel task : String)
  | killEvent (slave task : String)
  | executorRegistered (channel : String)
  | executorReregistered (channel : String)
  | slaveShutdown (channel : String)
  | submitJobs (jobs : List JobIdTuple)
  | deleteJob (job : String)
  deriving DecidableEq

/-- A dictionary of the framework from which elements are deleted with a delay. -/
inductive DictRef where
  | tasks | slaves | offers
  deriving DecidableEq, Repr

/-- `DeleteElement` -/
structure DeleteElement where
  dict : DictRef
  key : String
  deriving DecidableEq, Repr

/-- Where `FrameworkTracker` has the framework: among the active ones, in the history of
    finished ones, or nowhere. -/
inductive Tracking where
  | active | finished | unknown
  deriving DecidableEq, Repr

/-- The state of the handler, seen from one framework. -/
structure State where
  framework : Framework
  tracking : Tracking := .active
  deleteElements : List DeleteElement := []
  retryQueue : List Request := []
  effects : List Effect := []
  clock : ℚ := 0
  deriving DecidableEq

/-- The answer of `adapter.get_job_status`. -/
inductive JobStatus where
  | running | unknownJob | completedJob | pendingJob | otherError
  deriving DecidableEq, Repr

/-- The code that the handler calls and that is not modelled: the adapter, whose answers
    may depend on everything done so far, and the arithmetic of port ranges. -/
structure Env where
  registerFramework : List Effect → Nat → Nat → Except PyError (List JobIdTuple)
  getJobStatus : List Effect → String → JobStatus
  getJobIdTuple : String → JobIdTuple
  reconcileTasks : Bool × ℚ
  portSubtract : List PortRange → List PortRange → Except PyError (List PortRange)
  portAdd : List PortRange → List PortRange → Except PyError (List PortRange)

end Urb
