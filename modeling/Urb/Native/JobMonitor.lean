import Mathlib.Data.List.Infix
import Urb.Native.Types

/-!
# Monitoring of jobs

`JobMonitor.monitor` asks the adapter again and again for the status of the jobs that
`JobTracker` has. A job that is pending is left alone. When the status cannot be retrieved for
another reason, the accounting of the job is retrieved: a job that has some is done, and one
that has none is given up after too many errors. Jobs that are no longer to be monitored are
treated alike.

`K8SAdapter` reads the status of a Kubernetes job and of its pod. Its accounting is a dummy.
-/

namespace Urb

/-- The exceptions that the monitor and the adapter tell apart. -/
inductive JobError where
  | pendingJob | unknownJob | completedJob | other
  deriving DecidableEq, Repr

/-! ## The Kubernetes adapter -/

/-- An attribute of a response object: it may be missing, or be `None`. -/
inductive Attr (α : Type) where
  | missing
  | none
  | value (a : α)
  deriving DecidableEq, Repr

namespace K8SAdapter

/-- The `status` of `read_namespaced_job_status`. -/
structure JobStatusResponse where
  active : Option Int
  succeeded : Option Int
  failed : Option Int
  deriving DecidableEq, Repr

inductive PodPhase where
  | pending | running | succeeded | failed | unknown | other
  deriving DecidableEq, Repr

structure ContainerTerminated where
  reason : Attr String
  deriving DecidableEq, Repr

structure ContainerWaiting where
  reason : Attr String := .missing
  message : Attr String := .missing
  deriving DecidableEq, Repr

structure ContainerState where
  running : Bool := false
  terminated : Attr ContainerTerminated := .missing
  waiting : Attr ContainerWaiting := .missing
  deriving DecidableEq, Repr

/-- The `status` of `read_namespaced_pod_status`. Only the number of conditions is read, and the
    state of the first container. -/
structure PodStatusResponse where
  phase : PodPhase
  conditions : Attr Nat := .missing
  containerStatuses : Attr (List (Attr ContainerState)) := .missing
  deriving DecidableEq, Repr

/-- The reasons for which a pod that waits will not run. -/
def waitingReasons : List String :=
  ["ImagePullBackOff", "ImageInspectError", "ErrImagePull", "ErrImageNeverPull",
    "RegistryUnavailable", "InvalidImageName"]

def waitingMessages : List String := ["not found", "fail", "can't"]

/-- `m in message` -/
def contains (message m : String) : Bool := decide (m.toList <:+: message.toList)

/-- The part of `get_job_status` for a container that waits. -/
def checkWaiting (waiting : ContainerWaiting) : Except JobError Unit := do
  match waiting.reason with
  | .value reason => if reason ∈ waitingReasons then throw .unknownJob else pure ()
  | _ => pure ()
  match waiting.message with
  | .value message =>
    if waitingMessages.any (contains message) then throw .unknownJob else pure ()
  | _ => pure ()

/-- The part of `get_job_status` for the state of the container of a pod that runs. -/
def checkContainer (state : ContainerState) : Except JobError Unit :=
  if state.running then pure ()
  else
    match state.terminated with
    | .value terminated =>
      match terminated.reason with
      | .missing => pure ()
      | .value "Completed" => throw .completedJob
      | _ => throw .unknownJob
    | _ =>
      match state.waiting with
      | .value waiting => checkWaiting waiting
      | _ => pure ()

/-- The part of `get_job_status` for the pod. -/
def checkPod (status : PodStatusResponse) : Except JobError Unit :=
  match status.phase with
  | .unknown | .failed => throw .unknownJob
  | .pending =>
    match status.conditions with
    -- `len(None)`
    | .none => throw .other
    | _ => throw .pendingJob
  | .running =>
    match status.containerStatuses with
    | .missing => pure ()
    -- `None[0]`, `[][0]`
    | .none | .value [] => throw .other
    | .value (containerStatus :: _) =>
      match containerStatus with
      | .value state => checkContainer state
      | _ => pure ()
  | .succeeded | .other => pure ()

/-- `get_job_status`. A request to Kubernetes that raises has no response. -/
def getJobStatus (job : Option JobStatusResponse) (pod : Option PodStatusResponse) :
    Except JobError Unit :=
  match job with
  | none => throw .other
  | some job =>
    if job.active.getD 0 = 0 ∧ 0 < job.failed.getD 0 then throw .unknownJob
    else if job.succeeded.getD 0 ≠ 0 then throw .completedJob
    else
      match pod with
      | none => throw .other
      | some pod => checkPod pod

/-- `get_job_accounting` -/
def getJobAccounting : List (String × String) := [("k8s_accounting", "dummy")]

end K8SAdapter

/-! ## The job monitor -/

/-- A record of `JobTracker`. -/
structure JobInfo where
  frameworkId : String
  monitorJob : Bool := true
  accountingRetrievalCount : Nat := 0
  statusRetrievalErrorCount : Nat := 0
  deriving DecidableEq, Repr

/-- What `get_job_accounting` returns or raises, and what the callbacks raise that are called with
    it. An accounting that has no length is `none`. The accounting and what the delete callback
    raises are formatted for the log, which raises in turn if the accounting is a tuple of a length
    other than one, or if the exception has a text that is not ASCII. -/
structure AccountingCalls where
  getJobAccounting : Except JobError (Option (List (String × String)))
  accountingFormats : Bool := true
  updateJobAccounting : Except JobError Unit
  deleteJob : Except JobError Unit
  deleteErrorFormats : Bool := true

/-- What the calls of one iteration return or raise. The accounting may be retrieved in the body of
    the `try` statement and once more in its exception handler. The exception handlers format what
    they have caught for the log. -/
structure JobCalls where
  getJobStatus : Except JobError Unit
  updateJobStatus : Except JobError Unit
  body : AccountingCalls
  errorFormats : Bool := true
  handler : AccountingCalls

/-- `JobTracker`, with the calls of the delete callback so far. -/
structure JobTracker where
  jobs : Dict JobInfo := ∅
  deleted : List (String × String) := []

abbrev JobM := EStateM JobError JobTracker

namespace JobTracker

/-- A call that may raise. -/
def call {α : Type} (outcome : Except JobError α) : JobM α :=
  match outcome with
  | .ok a => pure a
  | .error e => throw e

/-- The text of a message is formatted. -/
def format (formats : Bool) : JobM Unit :=
  if formats then pure () else throw .other

/-- Assign to fields of the record of a job. -/
def modifyJob (jobId : String) (g : JobInfo → JobInfo) : JobM Unit :=
  modify fun s =>
    match s.jobs.lookup jobId with
    | some info => { s with jobs := s.jobs.insert jobId (g info) }
    | none => s

def startJobMonitoring (s : JobTracker) (jobId frameworkId : String) : JobTracker :=
  { s with jobs := s.jobs.insert jobId { frameworkId } }

def stopJobMonitoring (s : JobTracker) (jobId : String) : JobTracker :=
  match s.jobs.lookup jobId with
  | some info => { s with jobs := s.jobs.insert jobId { info with monitorJob := false } }
  | none => s

/-- `__remove_job_from_tracker`. What the callback raises is logged. -/
def removeJobFromTracker (jobId frameworkId : String) (calls : AccountingCalls) : JobM Unit := do
  modify fun s =>
    { s with jobs := s.jobs.erase jobId, deleted := s.deleted ++ [(jobId, frameworkId)] }
  match calls.deleteJob with
  | .ok _ => pure ()
  | .error _ => format calls.deleteErrorFormats

/-- The common part of the two methods below. -/
def retrieveJobAccounting (maxCount : Int) (count : Nat) (jobId frameworkId : String)
    (calls : AccountingCalls) : JobM Unit := do
  let jobAccounting ← call calls.getJobAccounting
  format calls.accountingFormats
  call calls.updateJobAccounting
  match jobAccounting with
  | none => throw .other
  | some accounting =>
    if 0 < accounting.length then removeJobFromTracker jobId frameworkId calls
    else if maxCount < count then removeJobFromTracker jobId frameworkId calls
    else pure ()

/-- `__retrieve_job_accounting_and_remove_job_from_tracker` -/
def retrieveJobAccountingAndRemoveJobFromTracker (maxCount : Int) (jobId : String)
    (jobInfo : JobInfo) (calls : AccountingCalls) : JobM Unit := do
  let count := jobInfo.accountingRetrievalCount + 1
  modifyJob jobId ({ · with accountingRetrievalCount := count })
  retrieveJobAccounting maxCount count jobId jobInfo.frameworkId calls

/-- `__handle_job_status_retrieval_error` -/
def handleJobStatusRetrievalError (maxCount : Int) (jobId : String) (jobInfo : JobInfo)
    (calls : AccountingCalls) : JobM Unit := do
  let count := jobInfo.statusRetrievalErrorCount + 1
  modifyJob jobId ({ · with statusRetrievalErrorCount := count })
  retrieveJobAccounting maxCount count jobId jobInfo.frameworkId calls

/-- The body of the `try` statement, for a job that is tracked. -/
def pollJob (maxCount : Int) (jobId : String) (jobInfo : JobInfo) (calls : JobCalls) :
    JobM Unit :=
  if jobInfo.monitorJob then do
    call calls.getJobStatus
    call calls.updateJobStatus
  else retrieveJobAccountingAndRemoveJobFromTracker maxCount jobId jobInfo calls.body

/-- One iteration of the loop over the jobs. What the exception handlers raise is not caught. -/
def monitorJob (maxCount : Int) (jobId : String) (calls : JobCalls) : JobM Unit := fun s =>
  match s.jobs.lookup jobId with
  | none => .ok () s
  | some jobInfo =>
    match pollJob maxCount jobId jobInfo calls s with
    | .ok _ s => .ok () s
    | .error e s =>
      if !calls.errorFormats then .error .other s
      else
        match e with
        | .pendingJob => .ok () s
        | _ => handleJobStatusRetrievalError maxCount jobId jobInfo calls.handler s

end JobTracker

namespace K8SAdapter

/-- What the callbacks raise that are called with the accounting of a job. -/
structure Callbacks where
  updateJobAccounting : Except JobError Unit := .ok ()
  deleteJob : Except JobError Unit := .ok ()

def accountingCalls (callbacks : Callbacks) : AccountingCalls where
  getJobAccounting := .ok (some getJobAccounting)
  updateJobAccounting := callbacks.updateJobAccounting
  deleteJob := callbacks.deleteJob

/-- The calls of an iteration with this adapter. -/
def calls (job : Option JobStatusResponse) (pod : Option PodStatusResponse)
    (updateJobStatus : Except JobError Unit) (body handler : Callbacks) : JobCalls where
  getJobStatus := getJobStatus job pod
  updateJobStatus
  body := accountingCalls body
  handler := accountingCalls handler

end K8SAdapter

/-! ## The loop -/

/-- Where the loop is: before the check of `__monitor`, in a pass with jobs that are left, at its
    end, or ended by an exception. -/
inductive MonitorPc where
  | check
  | polling (rest : List String)
  | exited
  | crashed
  deriving DecidableEq, Repr

/-- The monitor. `pass` are the jobs tracked at the start of the latest pass, and `attempted` those
    to which the pass came. -/
structure JobMonitor where
  tracker : JobTracker := {}
  monitor : Bool := true
  pc : MonitorPc := .check
  pass : List String := []
  attempted : List String := []

/-- What happens to the monitor. -/
inductive MonitorEvent where
  /-- the loop starts its next iteration -/
  | check
  /-- the loop over the jobs comes to the next job, or waits if there is none left -/
  | poll (calls : JobCalls)
  | stop
  | startJobMonitoring (jobId frameworkId : String)
  | stopJobMonitoring (jobId : String)

namespace JobMonitor

def step (maxCount : Int) (m : JobMonitor) : MonitorEvent → JobMonitor
  | .check =>
    match m.pc with
    | .check =>
      if m.monitor then
        { m with
          pc := .polling m.tracker.jobs.keys
          pass := m.tracker.jobs.keys
          attempted := [] }
      else { m with pc := .exited }
    | _ => m
  | .poll calls =>
    match m.pc with
    | .polling [] => { m with pc := .check }
    | .polling (jobId :: rest) =>
      let attempted := m.attempted ++ [jobId]
      match JobTracker.monitorJob maxCount jobId calls m.tracker with
      | .ok _ tracker => { m with tracker, attempted, pc := .polling rest }
      | .error _ tracker => { m with tracker, attempted, pc := .crashed }
    | _ => m
  | .stop => { m with monitor := false }
  | .startJobMonitoring jobId frameworkId =>
    { m with tracker := m.tracker.startJobMonitoring jobId frameworkId }
  | .stopJobMonitoring jobId => { m with tracker := m.tracker.stopJobMonitoring jobId }

end JobMonitor

end Urb
