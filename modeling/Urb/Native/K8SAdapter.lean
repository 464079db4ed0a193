import Mathlib
import Urb.ForStd.PyString
import Urb.Native.LaunchTasks

/-!
# The Kubernetes adapter

`K8SAdapter.submit_jobs` creates one Kubernetes job for each executor runner that the service
wants. The name of a job is made from the name in the job template, the name of the framework,
the name or the id of a task, the number of the job and a suffix. In a second loop, the adapter
asks for the pods of the jobs: the name of the pod is the job id that the service works with. It
asks once more, a second later, for the pods that were missing.

An `Api` says how the calls to Kubernetes end. A job is known by its number in the call, which
stands for the uid that Kubernetes gives it, and a `Cluster` has the jobs that the call created.
-/

namespace Urb.K8SAdapter

open PyString (sliceTo)

/-- `JOB_NAME_MAX_SIZE` -/
def jobNameMaxSize : Nat := 63

/-- `UUID_SIZE` -/
def uuidSize : Nat := 8

/-- `metadata.name` in `urb-executor-runner.yaml`. -/
def templateName : List Char := "urb-exec".toList

/-- `job_name_template_size`: the name in the template, the suffix and two dashes. -/
def jobNameTemplateSize : Nat := templateName.length + uuidSize + 2

/-! ## Names of jobs -/

/-- The characters in the class of the regular expression. The backslash is not one of them: it
    escapes the bracket after it. -/
def scrubbedChars : List Char :=
  [' ', '\t', '\n', '\r', '\x0b', '\x0c', '|', '(', ')', ':', ',', '.', '^', '$', '+', '?',
    '\x7b', '\x7d', '[', ']']

/-- `re.sub('[...]+', '', text)` -/
def scrub (text : List Char) : List Char := text.filter (· ∉ scrubbedChars)

/-- `str(n)` -/
def decimal (n : Nat) : List Char := Nat.toDigits 10 n

/-- A task, as far as the adapter looks at it. -/
structure JobTask where
  name : Option (List Char) := none
  taskId : Option (List Char) := none
  resources : Option (List Resource) := none

/-- The name of the task if it has one, and else its id. -/
def JobTask.part (task : JobTask) : Option (List Char) :=
  match task.name with
  | some (c :: cs) => some (c :: cs)
  | _ => task.taskId

/-- The requests of a container for memory and CPUs. -/
structure Requests where
  memory : Option (List Char) := none
  cpu : Option (List Char) := none

/-- A call of `submit_jobs`. The suffix comes from a uuid. `lower` is the lower case of a
    character, and `requests` is what `__from_tasks` makes of the resources of a task with the
    resource mapping of the framework, which raises if a resource has no value. -/
structure Submission where
  frameworkName : List Char
  maxTasks : Nat
  concurrentTasks : Nat
  tasks : Option (List JobTask) := none
  suffix : List Char
  suffix_length : suffix.length = uuidSize
  lower : Char → Char := Char.toLower
  requests : Option (List Resource) → Except PyError (Option Requests) := fun _ => .ok none

namespace Submission

variable (call : Submission)

/-- `__append_job_name` -/
def appendJobName (jobName append : List Char) : List Char :=
  let append := (scrub append).map call.lower
  let left : Int := jobNameMaxSize - jobNameTemplateSize - jobName.length
  let left :=
    if call.concurrentTasks > 1 then left - ((decimal call.concurrentTasks).length + 1) else left
  if append.length > left then jobName ++ '-' :: sliceTo append left
  else jobName ++ '-' :: append

/-- `tasks[indx]`: the last task stands for those after it. -/
def taskAt (i : Nat) : Option JobTask :=
  let tasks := call.tasks.getD []
  tasks[if i < tasks.length then i else tasks.length - 1]?

/-- `__from_tasks`: the name of a job without its suffix, and the requests of its container. -/
def fromTasks (i : Nat) (jobName : List Char) : Except PyError (List Char × Option Requests) :=
  match call.taskAt i with
  | some task => do
    let reqKey ← call.requests task.resources
    let jn := match task.part with
      | some part => call.appendJobName jobName part
      | none => jobName
    pure (if call.concurrentTasks > 1 then jn ++ '-' :: decimal i else jn, reqKey)
  | none =>
    pure (if call.concurrentTasks > 1 then jobName ++ '-' :: decimal i else jobName, none)

end Submission

/-! ## Jobs on the cluster -/

/-- How a call of `create_namespaced_job` ends. It may raise although the job was created. -/
inductive CreateOutcome where
  | created | refused | unanswered
  deriving DecidableEq

/-- How the calls to Kubernetes end: the creation of each job, and the two look-ups of its pods.
    Pods of different jobs have different names. -/
structure Api where
  create : Nat → CreateOutcome
  listNamespacedPod : Nat → Nat → Except PyError (List String)
  distinct : ∀ {round round' job job' pods pods' pod},
    listNamespacedPod round job = .ok pods → listNamespacedPod round' job' = .ok pods' →
      pod ∈ pods → pod ∈ pods' → job = job'

/-- What is passed to `create_namespaced_job`. -/
structure JobBody where
  name : List Char
  resources : Option Requests

/-- The requests in the copy of the template, which stay for the next job, the bodies that were
    passed, and the jobs that exist. -/
structure Cluster where
  resources : Option Requests := none
  bodies : List JobBody := []
  jobs : List Nat := []

abbrev ClusterM := EStateM PyError Cluster

def createNamespacedJob (api : Api) (job : Nat) (body : JobBody) : ClusterM Unit := do
  modify fun s => { s with bodies := s.bodies ++ [body] }
  match api.create job with
  | .created => modify fun s => { s with jobs := s.jobs ++ [job] }
  | .refused => throw .adapter
  | .unanswered =>
    modify fun s => { s with jobs := s.jobs ++ [job] }
    throw .adapter

/-- The iterations of `for i in range(0,concurrent_tasks)` from `i` on. -/
def createJobs (call : Submission) (api : Api) (jobName : List Char) :
    Nat → Nat → ClusterM (List Nat)
  | _, 0 => pure []
  | i, left + 1 => do
    if call.maxTasks ≤ i then pure []
    else
      let (jn, reqKey) ← MonadExcept.ofExcept (call.fromTasks i jobName)
      if reqKey.isSome then modify fun s => { s with resources := reqKey }
      let resources := (← get).resources
      createNamespacedJob api i { name := jn ++ '-' :: call.suffix, resources }
      let labelSelectors ← createJobs call api jobName (i + 1) left
      pure (i :: labelSelectors)

/-- `__retrieve_pod_name` -/
def retrievePodName (api : Api) (round job : Nat) : Except PyError (Option String) := do
  match ← api.listNamespacedPod round job with
  | [name] => pure (some name)
  | _ => pure none

/-- `__get_job_ids` -/
def getJobIds (api : Api) (round : Nat) : List Nat → Except PyError (List JobIdTuple × List Nat)
  | [] => pure ([], [])
  | job :: jobs => do
    let podName ← retrievePodName api round job
    let (jobIds, retry) ← getJobIds api round jobs
    -- `if not pod_name`
    if podName.getD "" = "" then pure (jobIds, job :: retry)
    else pure ((podName.getD "", none, none) :: jobIds, retry)

/-- `submit_jobs`. The list that `range` makes has less than `2 ^ 63` elements. -/
def submitJobs (call : Submission) (api : Api) : ClusterM (List JobIdTuple) := do
  let jobName := call.appendJobName templateName (call.frameworkName.map call.lower)
  if 2 ^ 63 ≤ call.concurrentTasks then throw .adapter
  else
    let labelSelectors ← createJobs call api jobName 0 call.concurrentTasks
    let (jobIds, retry) ← MonadExcept.ofExcept (getJobIds api 0 labelSelectors)
    if retry = [] then pure jobIds
    else
      let (jids, _) ← MonadExcept.ofExcept (getJobIds api 1 retry)
      pure (jobIds ++ jids)

/-- What `submit_executor_runner` returns to `scale_up`: what the adapter raises is logged. -/
def jobIdsOf : EStateM.Result PyError Cluster (List JobIdTuple) → List JobIdTuple
  | .ok jobIds _ => jobIds
  | .error _ _ => []

end Urb.K8SAdapter
