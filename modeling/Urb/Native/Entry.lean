import Urb.Native.Reconcile

/-!
# Entry points

A queued request is handled by its target executor, whatever that raises is
caught, and the post-processor then carries out all deletions that were queued.
An `http_*` method calls the same handler and nothing deletes afterwards. The list of
queued deletions belongs to the handler object: it is shared by all frameworks,
so that the post-processing of another framework's request empties it as well.
-/

namespace Urb

/-! ## Post-processing -/

/-- `del de.dict[de.key]`, if the key is there. -/
def DeleteElement.delete (de : DeleteElement) (f : Framework) : Framework :=
  match de.dict with
  | .tasks => { f with taskDict := f.taskDict.map (·.erase de.key) }
  | .slaves => { f with slaveDict := f.slaveDict.map (·.erase de.key) }
  | .offers => { f with offers := f.offers.erase de.key }

/-- The loop of `__target_postprocessor` over `__delete_elements`. -/
def deleteAll (des : List DeleteElement) (f : Framework) : Framework :=
  des.foldl (fun f de => de.delete f) f

/-- The deletions of `__target_postprocessor`. -/
def targetPostprocessor (s : State) : State :=
  { s with framework := deleteAll s.deleteElements s.framework, deleteElements := [] }

/-! ## Handlers -/

/-- The handler of a request. -/
def handle (env : Env) (entry : Entry) : Request → Handler Unit
  | .launchTasks m => launchTasks env entry m
  | .killTask taskId => killTask env entry taskId
  | .reconcileTasks statuses => reconcileTasks env entry statuses
  | .reviveOffers => reviveOffers
  | .statusUpdate u => statusUpdate env entry u
  | .registerExecutorRunner m => registerExecutorRunner env entry m
  | .reregisterExecutor m => reregisterExecutor env m
  | .registerExecutor m => registerExecutor env entry m

/-- A request that `MessageHandler.handle` reads from the queue. -/
def handleQueued (env : Env) (r : Request) (s : State) : State :=
  targetPostprocessor ((handle env .queue r).after s)

/-- The calls that the HTTP services make. -/
inductive HttpCall where
  | acceptLaunch (offerIds : List String) (refuseSeconds : Option ℚ) (taskInfos : List TaskInfo)
  | decline (offerIds : List String) (refuseSeconds : Option ℚ)
  | kill (taskId : String)
  | reconcile (tasks : List ReconcileStatus)
  | revive
  | updateExecutor (update : StatusUpdate)
  | subscribeExecutor (executorId : String)
  deriving DecidableEq

/-- The request that an `http_*` method builds. -/
def HttpCall.request : HttpCall → Request
  | .acceptLaunch offerIds refuseSeconds tasks => .launchTasks { offerIds, refuseSeconds, tasks }
  | .decline offerIds refuseSeconds => .launchTasks { offerIds, refuseSeconds }
  | .kill taskId => .killTask taskId
  | .reconcile tasks => .reconcileTasks tasks
  | .revive => .reviveOffers
  | .updateExecutor u => .statusUpdate u
  | .subscribeExecutor executorId =>
    .registerExecutor { executorId, replyTo := "http", channel := "" }

/-- The `http_*` methods. `http_revive` is defined without `self`, so that calling it on the
    handler raises before it does anything. -/
def HttpCall.handle (env : Env) : HttpCall → Handler Unit
  | .revive => throw .typeError
  | c => Urb.handle env .http c.request

def handleHttp (env : Env) (c : HttpCall) (s : State) : State :=
  (c.handle env).after s

/-! ## Runs -/

/-- What can happen to a framework: a request is read from the queue, an HTTP call is made,
    the job monitor gives a job up, a request of another framework is post-processed, or
    time passes. -/
inductive Event where
  | queued (r : Request)
  | http (c : HttpCall)
  | deleteJob (jobId : String)
  | postprocessed
  | clock (now : ℚ)
  deriving DecidableEq

def step (env : Env) (s : State) : Event → State
  | .queued r => handleQueued env r s
  | .http c => handleHttp env c s
  | .deleteJob jobId => (deleteJob jobId).after s
  | .postprocessed => targetPostprocessor s
  | .clock now => { s with clock := now }

/-- The state after a run. -/
def run (env : Env) (s : State) (events : List Event) : State :=
  events.foldl (step env) s

/-! ## A small service

An adapter that numbers its jobs and an HTTP framework with slaves of four CPUs, on which
the behaviour of the handlers can be evaluated. -/

namespace Sample

/-- The ids of the jobs are made from the length of the log, so that none comes twice. -/
def env : Env where
  registerFramework log _ n :=
    .ok ((List.range n).map fun i => (toString log.length ++ "_" ++ toString i, none, none))
  getJobStatus _ _ := .running
  getJobIdTuple jobId := (jobId, none, none)
  reconcileTasks := (true, 0)
  portSubtract held _ := .ok held
  portAdd held _ := .ok held

def config : FrameworkConfig where
  cpus := 4
  mem := 1024
  disk := 1024
  maxTasks := 2
  maxRejectedOffers := some 5

def start : State where
  framework := { id := "framework", channelName := "http", config }

/-- The record of a slave when its runner registers. -/
def freshSlave : Slave :=
  initializeSlaveResources config { channel := "runner", cpus := 0, mem := 0, disk := 0 }

/-- The slave of job 1. -/
def slaveId : String := NamingUtility.createSlaveId "1" "undefined" ""

def runner : RegisterExecutorRunnerMessage where
  slaveId
  channel := "runner"
  jobId := "1"

/-- A task for the slave that takes one of its CPUs. -/
def task (taskId : String) : TaskInfo where
  taskId
  slaveId := some slaveId
  resources := some [{ name := "cpus", type := .scalar, scalar := some 1 }]
  executor := some { executorId := "executor" }

/-- The slave registers and gets a task. -/
def launched : List Event :=
  [.queued (.registerExecutorRunner runner), .queued (.launchTasks { tasks := [task "t"] })]

def finished : StatusUpdate := { taskId := "t", state := .finished, slaveId := some slaveId }

end Sample

end Urb
