import Urb.Native.Handler

/-!
# The executor runner

`ExecutorHandler` runs on the host of a slave. For every task that the service sends it keeps the
task in the `TaskTracker` and starts the executor of the task, unless the `ExecutorTracker` has it
already. The executor of a task with a command is a command executor that is made up for the task.

Executors inherit `os.environ`, which `launch_tasks` changes in place. An assignment to it calls
`putenv`, and in Python 2 this raises for text of a message that is not ASCII. The configuration of
the runner and the environment in which it is started are taken to be ASCII.
-/

namespace Urb.Runner

/-! ## Tasks and executors -/

structure Uri where
  value : Option String := none
  /-- the key is there -/
  executable : Bool := false
  extract : Option Bool := none
  deriving DecidableEq

/-- An environment variable of a command. -/
structure Variable where
  name : Option String := none
  value : Option String := none
  deriving DecidableEq

structure Environment where
  /-- the `variables` -/
  variableList : Option (List Variable) := none
  deriving DecidableEq

structure CommandInfo where
  value : Option String := none
  uris : Option (List Uri) := none
  environment : Option Environment := none
  shell : Option Bool := none
  arguments : Option (List String) := none
  user : Option String := none
  deriving DecidableEq

structure ExecutorInfo where
  executorId : String
  command : Option CommandInfo := none
  data : Option String := none
  deriving DecidableEq

structure TaskInfo where
  taskId : String
  command : Option CommandInfo := none
  executor : Option ExecutorInfo := none
  deriving DecidableEq

/-- The entry of an executor in the `ExecutorTracker`. -/
structure TrackedExecutor where
  executorId : String
  frameworkId : String
  command : CommandInfo
  data : Option String
  deriving DecidableEq

/-! ## The runner -/

/-- An item of the `MESOS_FETCHER_INFO`. -/
structure FetchItem where
  value : String
  executable : Bool
  extract : Bool
  deriving DecidableEq

/-- What the runner does to the outside: it runs the fetcher, and forks an executor with its command
    and environment. -/
inductive Effect where
  | fetch (user : String) (items : List FetchItem)
  | fork (executorId command : String) (environ : Dict String)

/-- The configuration of the handler and its `executor_runner`. -/
structure Config where
  urbLibPath : String
  commandExecutorPath : String
  ldLibraryPath : String
  mesosWorkDir : String
  frameworkId : String
  slaveId : String
  /-- `pwd.getpwuid(os.getuid())[0]` -/
  user : String

structure ExecutorHandler where
  environ : Dict String := ∅
  taskTracker : Dict TaskInfo := ∅
  executorTracker : Dict TrackedExecutor := ∅
  shutdown : Bool := false
  effects : List Effect := []

abbrev RunnerM := EStateM PyError ExecutorHandler

def emit (e : Effect) : RunnerM Unit := modify fun s => { s with effects := s.effects ++ [e] }

def setEnviron (g : Dict String → Dict String) : RunnerM Unit :=
  modify fun s => { s with environ := g s.environ }

/-- An empty dictionary is false. -/
def CommandInfo.isEmpty (c : CommandInfo) : Bool := c == {}

/-- `task_command = t.get('command')` where it is true. -/
def TaskInfo.taskCommand (t : TaskInfo) : Option CommandInfo := t.command.filter (!·.isEmpty)

/-- `__build_command_executor`. The command of the executor is the one of the task, whose value is
    overwritten. -/
def buildCommandExecutor (config : Config) (t : TaskInfo) (c : CommandInfo) :
    RunnerM ExecutorInfo := do
  let command := { c with value := some config.commandExecutorPath }
  modify fun s =>
    { s with taskTracker := s.taskTracker.insert t.taskId { t with command := some command } }
  pure { executorId := t.taskId, command := some command }

def fetchItem (u : Uri) : RunnerM FetchItem := do
  let value ← orRaise u.value (.keyError "value")
  pure { value, executable := u.executable, extract := u.extract.getD true }

def fetchItems : List Uri → RunnerM (List FetchItem)
  | [] => pure []
  | u :: uris => do
    let item ← fetchItem u
    let items ← fetchItems uris
    pure (item :: items)

/-- `__fetch_uris` -/
def fetchUris (uris : List Uri) (user : String) : RunnerM Unit := do
  let items ← fetchItems uris
  emit (.fetch user items)

/-! ## The environment of an executor -/

/-- `if key not in exec_env: exec_env[key] = value` -/
def setMissing (key value : String) (env : Dict String) : Dict String :=
  if key ∈ env then env else env.insert key value

/-- The text can be stored in the environment: it is ASCII, and has no null character. -/
def puttable (text : String) : Bool := text.toList.all fun c => 0 < c.toNat && c.toNat < 128

/-- `exec_env[key] = value`, with text of a message. -/
def putenv (key value : String) : RunnerM Unit :=
  if puttable key && puttable value then setEnviron (·.insert key value) else throw .unicodeError

/-- What `launch_tasks` changes before it stores the id of the executor. -/
def runnerEnv (config : Config) (env : Dict String) : Dict String :=
  let env := ["_", "SHLVL", "PWD", "LS_COLORS"].foldl (fun env key => env.erase key) env
  let env := env.insert "URB_SLAVE_ID" config.slaveId
  env.insert "URB_FRAMEWORK_ID" config.frameworkId

/-- `if "MESOS_AGENT_ENDPOINT" in exec_env` -/
def setSlavePid (env : Dict String) : Dict String :=
  match env.lookup "MESOS_AGENT_ENDPOINT" with
  | some endpoint => env.insert "MESOS_SLAVE_PID" ("@" ++ endpoint)
  | none => env

/-- `if "LD_LIBRARY_PATH" in exec_env` -/
def setLibraryPath (config : Config) (env : Dict String) : Dict String :=
  match env.lookup "LD_LIBRARY_PATH" with
  | some path =>
    if path ≠ config.ldLibraryPath then
      env.insert "LD_LIBRARY_PATH" (path ++ ":" ++ config.ldLibraryPath)
    else env.insert "LD_LIBRARY_PATH" config.ldLibraryPath
  | none => env.insert "LD_LIBRARY_PATH" config.ldLibraryPath

/-- The variables that `launch_tasks` sets for every executor. -/
def execEnv (config : Config) (executorId : String) (env : Dict String) : Dict String :=
  let env := (runnerEnv config env).insert "URB_EXECUTOR_ID" executorId
  let env := setMissing "MESOS_NATIVE_LIBRARY" config.urbLibPath env
  let env := setMissing "MESOS_NATIVE_JAVA_LIBRARY" config.urbLibPath env
  let env := env.insert "MESOS_DIRECTORY" config.mesosWorkDir
  let env := env.insert "MESOS_FRAMEWORK_ID" config.frameworkId
  let env := env.insert "MESOS_EXECUTOR_ID" executorId
  let env := setSlavePid env
  let env := setMissing "MESOS_EXECUTOR_SHUTDOWN_GRACE_PERIOD" "60secs" env
  let env := env.insert "MESOS_SLAVE_ID" config.slaveId
  let env := setLibraryPath config env
  let env := env.insert "USER" config.user
  setMissing "GLOG_log_dir" config.mesosWorkDir env

/-- The variables are set up to the id of the executor, or all of them. -/
def setExecEnv (config : Config) (executorId : String) : RunnerM Unit :=
  if puttable executorId then setEnviron (execEnv config executorId)
  else do
    setEnviron (runnerEnv config)
    throw .unicodeError

/-- `for v in executor_command['environment']['variables']` -/
def setVariables : List Variable → RunnerM Unit
  | [] => pure ()
  | v :: vs => do
    let name ← orRaise v.name (.keyError "name")
    let value ← orRaise v.value (.keyError "value")
    putenv name value
    setVariables vs

/-! ## Launching -/

/-- `if executor_command.has_key('uris')` -/
def fetchCommand (config : Config) (c : CommandInfo) : RunnerM Unit :=
  match c.uris with
  | some uris => fetchUris uris config.user
  | none => pure ()

/-- `if executor_command.has_key('environment')` -/
def setCommandEnv (c : CommandInfo) : RunnerM Unit :=
  match c.environment with
  | some environment => do
    let vs ← orRaise environment.variableList (.keyError "variables")
    setVariables vs
  | none => pure ()

/-- From the fetching of URIs to the fork. -/
def forkExecutor (config : Config) (executorId : String) (c : CommandInfo) : RunnerM Unit := do
  fetchCommand config c
  let value ← orRaise c.value (.keyError "value")
  setExecEnv config executorId
  setCommandEnv c
  let s ← get
  emit (.fork executorId value s.environ)

/-- The executor of a task: one that is made up for its command, or the one that was passed. -/
def taskExecutor (config : Config) (t : TaskInfo) : RunnerM ExecutorInfo :=
  match t.taskCommand with
  | some c => buildCommandExecutor config t c
  | none => orRaise t.executor (.keyError "executor")

/-- The executor is started unless it is running or has no command. -/
def startExecutor (config : Config) (e : ExecutorInfo) : RunnerM Bool := do
  if e.executorId ∈ (← get).executorTracker then pure false
  else
    match e.command with
    | none => pure false
    | some command => do
      let executor : TrackedExecutor :=
        { executorId := e.executorId, frameworkId := config.frameworkId, command, data := e.data }
      modify fun s =>
        { s with executorTracker := s.executorTracker.insert e.executorId executor }
      forkExecutor config e.executorId command
      pure true

/-- One iteration of the loop of `launch_tasks`. The result is `false` where it returns. -/
def launchTask (config : Config) (t : TaskInfo) : RunnerM Bool := do
  modify fun s => { s with taskTracker := s.taskTracker.insert t.taskId t }
  let e ← taskExecutor config t
  startExecutor config e

def launchLoop (config : Config) : List TaskInfo → RunnerM Unit
  | [] => pure ()
  | t :: ts => do
    if ← launchTask config t then launchLoop config ts
    else pure ()

/-- `launch_tasks`. A message without tasks ends the process. -/
def launchTasks (config : Config) (tasks : Option (List TaskInfo)) : RunnerM Unit :=
  match tasks with
  | none => modify fun s => { s with shutdown := true }
  | some ts => launchLoop config ts

end Urb.Runner
