import Urb.ForStd.EStateM

/-!
# The handler of messages

`MessageHandler.handle` is the read callback of a channel. It gets a pair of the name of the channel
and a text, makes a request of the text, and passes the request to the pre-processor, the executor
and the post-processor of its target. What these three do is not known: each returns or raises, and
may change the request. `MesosHandler` looks its executors up in a dictionary and has one
post-processor for all targets, which flushes the deferred deletions and releases the lock.

Logging does not raise, but a text that is logged has to be formatted.
-/

namespace Urb.Handling

/-! ## Requests -/

/-- What `json.loads` returns. -/
inductive Json where
  | null
  | bool (b : Bool)
  | num (text : String)
  | str (s : String)
  | arr (elements : List Json)
  | obj (fields : List (String × Json))

/-- The exceptions of the service, and all others. -/
inductive PyException where
  | urb (errorMessage : String) (errorCode : Nat) (className : String)
  | other (text : String)
  deriving DecidableEq, Repr

/-- The items of a request, of which the last one with a key counts. -/
abbrev MessageData := List (Json × Json)

namespace Json

def hashable : Json → Bool
  | .arr _ => false
  | .obj _ => false
  | _ => true

/-- An element of a sequence that a dictionary is updated with. A dictionary stands for its keys. -/
def asPair : Json → Except PyException (Json × Json)
  | .arr [k, v] => if k.hashable then .ok (k, v) else .error (.other "unhashable type")
  | .obj [k, v] => .ok (.str k.1, .str v.1)
  | .str s =>
    match s.toList with
    | [k, v] => .ok (.str (.singleton k), .str (.singleton v))
    | _ => .error (.other "dictionary update sequence element has a wrong length")
  | .arr _ => .error (.other "dictionary update sequence element has a wrong length")
  | .obj _ => .error (.other "dictionary update sequence element has a wrong length")
  | _ => .error (.other "cannot convert dictionary update sequence element to a sequence")

/-- `{}.update(v)` -/
def asDict : Json → Except PyException MessageData
  | .obj fields => .ok (fields.map fun e => (.str e.1, e.2))
  | .arr elements => elements.mapM asPair
  | .str s => (s.toList.map fun c => Json.str (.singleton c)).mapM asPair
  | _ => .error (.other "object is not iterable")

def isKey (key : String) : Json → Bool
  | .str s => s == key
  | _ => false

end Json

/-- `request.get(key)`, with `null` for `None`. -/
def MessageData.get (data : MessageData) (key : String) : Json :=
  ((data.reverse.find? fun e => e.1.isKey key).map Prod.snd).getD .null

/-- `request[key] = v` -/
def MessageData.set (data : MessageData) (key : String) (v : Json) : MessageData :=
  data ++ [(.str key, v)]

/-- `Message(message_dict=v)` -/
def message : Json → Except PyException MessageData
  | .null => .ok [(.str "payload", .obj []), (.str "payload_type", .str "json")]
  | v => v.asDict

/-- `get_response_channel_name` -/
def getResponseChannelName (request : MessageData) : Except PyException (Option Json) :=
  match request.get "reply_to" with
  | .null =>
    match request.get "source_id" with
    | .null => .ok none
    | .str sourceId =>
      match sourceId.splitOn "." with
      | [_, _, id] => .ok (some (.str ("urb.endpoint." ++ id ++ ".notify")))
      | _ => .ok (some (.str sourceId))
    | _ => .error (.other "object has no attribute 'split'")
  | name => .ok (some name)

/-! ## Responses -/

/-- A response that is not `None`. It is `traceable` if it can be formatted alone, and `reportable`
    if it can be formatted in the report that it was not sent. -/
structure Response where
  toJson : Except PyException String
  traceable : Bool := true
  reportable : Bool := true

/-- What an executor returns: a pair of something and a response, or what cannot be unpacked. -/
inductive Returned where
  | pair (response : Option Response)
  | other

def Returned.unpack : Returned → Except PyException (Option Response)
  | .pair response => .ok response
  | .other => .error (.other "cannot unpack")

/-- The payloads of the responses that `handle` makes. -/
inductive ErrorPayload where
  | dict (errorMessage : String) (errorCode : Nat) (className : String)
  | error (text : String)
  deriving DecidableEq, Repr

def PyException.payload : PyException → ErrorPayload
  | .urb errorMessage errorCode className => .dict errorMessage errorCode className
  | .other text => .error text

def invalidCommand (errorMessage : String) : PyException := .urb errorMessage 3 "InvalidCommand"

/-! ## The handler -/

/-- What a call did: how it ended, what it made of the request, and what else it did. -/
structure Ran (E α : Type) where
  outcome : Except PyException α
  data : MessageData
  events : List E

abbrev Hook (E α : Type) := MessageData → Ran E α

/-- The methods of a handler, and what it uses. -/
structure MessageHandler (E : Type) where
  loads : String → Except PyException Json
  dumps : ErrorPayload → Except PyException String
  str : Json → String
  uuid : String
  createChannel : Json → Except PyException Unit
  write : Json → String → Except PyException Unit
  getTargetPreprocessor : Json → Except PyException (Option (Hook E Unit))
  getTargetExecutor : Json → Except PyException (Option (Hook E Returned))
  getTargetPostprocessor : Json → Except PyException (Option (Hook E Unit))

/-- What `handle` calls, with the request object, and what the calls do. -/
inductive Call (E : Type) where
  | preprocess (request : Nat)
  | execute (request : Nat)
  | postprocess (request : Nat)
  | event (e : E)
  deriving DecidableEq

structure HandleState (E : Type) where
  data : MessageData := []
  calls : List (Call E) := []

abbrev HandleM (E : Type) := EStateM PyException (HandleState E)

variable {E α : Type}

/-- Return or raise. -/
def outcome (x : Except PyException α) : HandleM E α :=
  match x with
  | .ok a => pure a
  | .error e => throw e

/-- Call something with the request. -/
def call (c : Call E) (hook : Hook E α) : HandleM E α := do
  let s ← get
  set { data := (hook s.data).data, calls := s.calls ++ c :: (hook s.data).events.map .event :
    HandleState E }
  outcome (hook s.data).outcome

/-- `text % args` for a text with so many places. -/
def format (places : Nat) (args : List String) : Except PyException Unit :=
  if args.length = places then .ok ()
  else .error (.other "not all arguments converted during string formatting")

namespace MessageHandler

variable (h : MessageHandler E)

def fromJson (text : String) : Except PyException MessageData :=
  h.loads text >>= message

def errorResponse (ex : PyException) : Response where
  toJson := h.dumps ex.payload

/-- The `try` block of `send_response`. -/
def trySend (data : MessageData) (response : Response) : Except PyException Unit := do
  match ← getResponseChannelName data with
  | none => pure ()
  | some channelName => do
    h.createChannel channelName
    let text ← response.toJson
    h.write channelName text

def sendResponse (response : Option Response) : HandleM E Unit := do
  match response with
  | none => pure ()
  | some response => do
    let s ← get
    tryCatch (outcome (h.trySend s.data response)) fun _ =>
      if response.reportable then pure () else throw (.other "response cannot be formatted")

def preprocess (request : Nat) (target : Json) : HandleM E Unit :=
  tryCatch
    (do
      match ← outcome (h.getTargetPreprocessor target) with
      | none => pure ()
      | some preprocessor => call (.preprocess request) preprocessor)
    fun _ => pure ()

/-- The executor is called, and what it raises becomes the response. -/
def execute (request : Nat) (executor : Hook E Returned) : HandleM E (Option Response) :=
  tryCatch
    (do
      let returned ← call (.execute request) executor
      let response ← outcome returned.unpack
      if response.all (·.traceable) then pure response
      else throw (.other "response cannot be formatted"))
    fun ex => pure (some (h.errorResponse ex))

def process (request : Nat) (target : Json) : HandleM E Unit := do
  match ← outcome (h.getTargetExecutor target) with
  | none =>
    h.sendResponse (some (h.errorResponse
      (invalidCommand ("Unsupported target: " ++ h.str target))))
  | some executor => do
    let response ← h.execute request executor
    h.sendResponse response

def postprocess (request : Nat) (target : Json) : HandleM E Unit :=
  tryCatch
    (do
      match ← outcome (h.getTargetPostprocessor target) with
      | none => pure ()
      | some postprocessor => call (.postprocess request) postprocessor)
    fun _ => pure ()

/-- The `try` block of `handle`. -/
def tryHandle (request : Nat) (text : String) : HandleM E Unit := do
  let data ← outcome (h.fromJson text)
  modify fun s => { s with data := data.set "message_id" (.str h.uuid) }
  h.preprocess request (data.get "target")
  h.process request (data.get "target")
  h.postprocess request (data.get "target")

/-- `handle`. The request that it makes is the object `request`. -/
def handle (request : Nat) (message : String × String) : HandleM E Unit :=
  tryCatch (h.tryHandle request message.2) fun _ => do
    outcome (format 1 [message.2])
    -- the whole message is a tuple, whose items are the arguments
    outcome (format 1 [message.1, message.2])

end MessageHandler

/-! ## The handler of the service -/

def supportedTargets : List String :=
  ["AuthenticateMessage", "DeactivateFrameworkMessage", "ExitedExecutorMessage",
    "FrameworkToExecutorMessage", "ExecutorToFrameworkMessage", "KillTaskMessage",
    "LaunchTasksMessage", "ReconcileTasksMessage", "RegisterExecutorMessage",
    "ReregisterExecutorMessage", "RegisterExecutorRunnerMessage", "RegisterFrameworkMessage",
    "RegisterSlaveMessage", "ReregisterFrameworkMessage", "ReregisterSlaveMessage",
    "ResourceRequestMessage", "ReviveOffersMessage", "StatusUpdateAcknowledgementMessage",
    "StatusUpdateMessage", "SubmitSchedulerRequest", "UnregisterFrameworkMessage",
    "UnregisterSlaveMessage"]

/-- The parts of the post-processor that have to be reached. -/
inductive Stage where
  | flush
  | releaseFrameworkLock
  deriving DecidableEq, Repr

/-- A call that does nothing that has to be known. -/
abbrev PlainHook (α : Type) := MessageData → Except PyException α × MessageData

def PlainHook.hook {α : Type} (hook : PlainHook α) : Hook E α := fun data =>
  ⟨(hook data).1, (hook data).2, []⟩

structure MesosHandler where
  loads : String → Except PyException Json
  dumps : ErrorPayload → Except PyException String
  str : Json → String
  uuid : String
  createChannel : Json → Except PyException Unit
  write : Json → String → Except PyException Unit
  /-- `update_event_db`, if there is an event database -/
  updateEventDb : Except PyException (Option (PlainHook Unit))
  /-- the handlers of the supported targets -/
  executor : String → PlainHook Returned
  updateFrameworkDb : PlainHook Unit
  releaseFrameworkLock : MessageData → Except PyException Unit

namespace MesosHandler

variable (m : MesosHandler)

/-- `__target_postprocessor` -/
def targetPostprocessor : Hook Stage Unit := fun data =>
  match m.updateFrameworkDb data with
  | (.error e, data) => ⟨.error e, data, []⟩
  | (.ok _, data) => ⟨m.releaseFrameworkLock data, data, [.flush, .releaseFrameworkLock]⟩

/-- A look-up in a dictionary. -/
def getTargetExecutor (target : Json) : Except PyException (Option (Hook Stage Returned)) :=
  if target.hashable then
    match target with
    | .str name =>
      if name ∈ supportedTargets then .ok (some (m.executor name).hook) else .ok none
    | _ => .ok none
  else .error (.other "unhashable type")

def messageHandler : MessageHandler Stage where
  loads := m.loads
  dumps := m.dumps
  str := m.str
  uuid := m.uuid
  createChannel := m.createChannel
  write := m.write
  getTargetPreprocessor _ := m.updateEventDb.map (Option.map PlainHook.hook)
  getTargetExecutor := m.getTargetExecutor
  getTargetPostprocessor _ := .ok (some m.targetPostprocessor)

end MesosHandler

end Urb.Handling
