import Mathlib.Logic.Basic
import Urb.Native.MessageHandler

/-!
# Requests that are post-processed

What the pre-processor, the executor and the post-processor raise is caught where they are called,
and so is what is raised when a response is sent. What is raised elsewhere ends `handle`: if the
text is no request, if the target cannot be looked up, or if a response that could not be sent
cannot be reported either. The last resort is an `except` clause that raises itself, since it
formats a pair as if it were one argument.
-/

namespace Urb.Handling

open EStateM

variable {E α : Type} {s : HandleState E}

/-! ## Calls -/

/-- The request is post-processed once, after it was executed, and nothing else is. -/
def PostprocessedOnce (request : Nat) (calls : List (Call E)) : Prop :=
  ∃ before later : List (Call E), calls = before ++ Call.postprocess request :: later ∧
    Call.execute request ∈ before ∧ ∀ r, Call.postprocess r ∉ before ∧ Call.postprocess r ∉ later

theorem outcome_ok (a : α) : (outcome (.ok a) : HandleM E α) s = .ok a s := rfl

theorem outcome_error (e : PyException) : (outcome (.error e) : HandleM E α) s = .error e s := rfl

/-- The state that a call leaves. -/
def HandleState.called (s : HandleState E) (c : Call E) (hook : Hook E α) : HandleState E where
  data := (hook s.data).data
  calls := s.calls ++ c :: (hook s.data).events.map .event

theorem call_apply (c : Call E) (hook : Hook E α) : call c hook s = match (hook s.data).outcome with
      | .ok a => .ok a (s.called c hook)
      | .error e => .error e (s.called c hook) := by
  simp only [call, bind_apply, get_apply, set_apply]
  cases (hook s.data).outcome <;> rfl

namespace MessageHandler

variable (h : MessageHandler E) (request : Nat) (target : Json)

variable {message : String × String} {data : MessageData} {postprocessor : Hook E Unit}

/-- What the pre-processor makes of the request. -/
def preprocessed (data : MessageData) : MessageData :=
  match h.getTargetPreprocessor target with
  | .ok (some preprocessor) => (preprocessor data).data
  | _ => data

/-- What is called for it. -/
def preprocessCalls (data : MessageData) : List (Call E) :=
  match h.getTargetPreprocessor target with
  | .ok (some preprocessor) =>
    .preprocess request :: (preprocessor data).events.map .event
  | _ => []

theorem notMem_preprocessCalls (data : MessageData) (r : Nat) :
    Call.execute r ∉ h.preprocessCalls request target data ∧
      Call.postprocess r ∉ h.preprocessCalls request target data := by
  unfold preprocessCalls
  split <;> simp

theorem preprocess_apply (s : HandleState E) : h.preprocess request target s =
      .ok ⟨⟩
        { data := h.preprocessed target s.data
          calls := s.calls ++ h.preprocessCalls request target s.data } := by
  simp only [preprocess, preprocessed, preprocessCalls, tryCatch_apply, bind_apply]
  cases h.getTargetPreprocessor target with
  | error e => simp [outcome_error, pure_apply]
  | ok hook =>
    cases hook with
    | none => simp [outcome_ok, pure_apply]
    | some preprocessor =>
      simp only [outcome_ok, call_apply]
      cases (preprocessor s.data).outcome <;> rfl

/-- The response that follows from what the executor did. -/
def response : Except PyException Returned → Option Response
  | .ok (.pair response) =>
    if response.all (·.traceable) then response
    else some (h.errorResponse (.other "response cannot be formatted"))
  | .ok .other => some (h.errorResponse (.other "cannot unpack"))
  | .error ex => some (h.errorResponse ex)

theorem execute_apply (executor : Hook E Returned) (s : HandleState E) :
    h.execute request executor s =
      .ok (h.response (executor s.data).outcome) (s.called (.execute request) executor) := by
  simp only [execute, tryCatch_apply, bind_apply, call_apply]
  cases (executor s.data).outcome with
  | error e => rfl
  | ok returned =>
    cases returned with
    | other => rfl
    | pair r =>
      simp only [Returned.unpack, outcome_ok, response]
      split
      · rename_i a s' heq
        split at heq
        · cases heq; rename_i htrace; simp [htrace]
        · cases heq
      · rename_i e s' heq
        split at heq
        · cases heq
        · cases heq; rename_i htrace; simp [htrace, pure_apply]

/-- Nothing is raised when the response is sent, or reported. -/
def Sendable (data : MessageData) (response : Option Response) : Prop :=
  ∀ x, response = some x → x.reportable = true ∨ (h.trySend data x).isOk = true

theorem sendResponse_of_sendable {response : Option Response} (hs : h.Sendable s.data response) :
    h.sendResponse response s = .ok ⟨⟩ s := by
  cases response with
  | none => rfl
  | some x =>
    specialize hs x rfl
    simp only [sendResponse, bind_apply, get_apply, tryCatch_apply]
    cases hsend : h.trySend s.data x with
    | ok _ => rfl
    | error e =>
      simp only [hsend, Except.isOk, Except.toBool, Bool.false_eq_true, or_false] at hs
      simp [outcome_error, hs, pure_apply]

theorem sendResponse_of_not_sendable {response : Option Response}
    (hs : ¬h.Sendable s.data response) : ∃ e, h.sendResponse response s = .error e s := by
  simp only [Sendable, not_forall, not_or] at hs
  obtain ⟨x, rfl, hreport, hsend⟩ := hs
  simp only [sendResponse, bind_apply, get_apply, tryCatch_apply]
  cases hrun : h.trySend s.data x with
  | ok _ => simp [hrun, Except.isOk, Except.toBool] at hsend
  | error e => simp [outcome_error, hreport, throw_apply]

/-- If the response of the executor is one that cannot be reported, it is sent. -/
def Reports (executor : Hook E Returned) (data : MessageData) : Prop :=
  ∀ x, (executor data).outcome = .ok (.pair (some x)) → x.traceable = true →
    x.reportable = true ∨ (h.trySend (executor data).data x).isOk = true

theorem sendable_response_iff (executor : Hook E Returned) (data : MessageData) :
    h.Sendable (executor data).data (h.response (executor data).outcome) ↔
      h.Reports executor data := by
  unfold Reports
  generalize (executor data).data = data'
  cases (executor data).outcome with
  | error e => simp [Sendable, response, errorResponse]
  | ok returned =>
    cases returned with
    | other => simp [Sendable, response, errorResponse]
    | pair r =>
      cases r with
      | none => simp [Sendable, response]
      | some x =>
        by_cases htrace : x.traceable = true
        · simp [Sendable, response, htrace]
        · simp [Sendable, response, htrace, errorResponse]

/-- The target can be looked up, and nothing is raised because of the response. -/
def Processable (data : MessageData) : Prop :=
  ∃ found, h.getTargetExecutor target = .ok found ∧
    ∀ executor, found = some executor → h.Reports executor data

theorem process_of_unsupported (hfound : h.getTargetExecutor target = .ok none) :
    h.process request target s = .ok ⟨⟩ s := by
  simp only [process, bind_apply, hfound, outcome_ok]
  apply h.sendResponse_of_sendable
  intro x hx
  cases hx
  exact .inl rfl

theorem process_of_reports {executor : Hook E Returned}
    (hfound : h.getTargetExecutor target = .ok (some executor))
    (hreports : h.Reports executor s.data) :
    h.process request target s = .ok ⟨⟩ (s.called (.execute request) executor) := by
  simp only [process, bind_apply, hfound, outcome_ok, execute_apply]
  apply h.sendResponse_of_sendable
  exact (h.sendable_response_iff executor s.data).mpr hreports

theorem process_of_not_processable (hnot : ¬h.Processable target s.data) :
    ∃ e s', h.process request target s = .error e s' := by
  simp only [process, bind_apply]
  cases hfound : h.getTargetExecutor target with
  | error e => exact ⟨e, s, rfl⟩
  | ok found =>
    cases found with
    | none => exact absurd ⟨none, hfound, nofun⟩ hnot
    | some executor =>
      simp only [outcome_ok]
      rw [bind_apply, execute_apply]
      have hs : ¬h.Sendable (s.called (.execute request) executor).data
          (h.response (executor s.data).outcome) := by
        intro hs
        apply hnot
        refine ⟨some executor, hfound, ?_⟩
        intro executor' heq
        cases heq
        exact (h.sendable_response_iff executor s.data).mp hs
      obtain ⟨e, he⟩ := h.sendResponse_of_not_sendable hs
      exact ⟨e, _, he⟩

theorem postprocess_returned (s : HandleState E) :
    (h.postprocess request target s).returned = true := by
  simp only [postprocess, tryCatch_apply, bind_apply]
  cases h.getTargetPostprocessor target with
  | error e => rfl
  | ok hook =>
    cases hook with
    | none => rfl
    | some postprocessor =>
      simp only [outcome_ok, call_apply]
      cases (postprocessor s.data).outcome <;> rfl

theorem postprocess_calls (s : HandleState E) :
    ∃ calls, ((h.postprocess request target).after s).calls = s.calls ++ calls ∧
      ∀ r, Call.execute r ∉ calls := by
  simp only [after_eq_state, postprocess, tryCatch_apply, bind_apply]
  cases h.getTargetPostprocessor target with
  | error e => exact ⟨[], by simp [outcome_error, pure_apply, Result.state], by simp⟩
  | ok hook =>
    cases hook with
    | none => exact ⟨[], by simp [outcome_ok, pure_apply, Result.state], by simp⟩
    | some postprocessor =>
      refine ⟨.postprocess request :: (postprocessor s.data).events.map .event, ?_, by simp⟩
      simp only [outcome_ok, call_apply]
      cases (postprocessor s.data).outcome <;> rfl

theorem postprocess_apply (hpost : h.getTargetPostprocessor target = .ok (some postprocessor)) :
    h.postprocess request target s = .ok ⟨⟩ (s.called (.postprocess request) postprocessor) := by
  simp only [postprocess, tryCatch_apply, bind_apply, hpost, outcome_ok, call_apply]
  cases (postprocessor s.data).outcome <;> rfl

/-! ## Handling -/

/-- The request as the executor gets it. -/
def prepared (data : MessageData) : MessageData :=
  h.preprocessed (data.get "target") (data.set "message_id" (.str h.uuid))

/-- The text is a request that can be processed. -/
def Accepts (text : String) : Prop :=
  ∃ data, h.fromJson text = .ok data ∧ h.Processable (data.get "target") (h.prepared data)

/-- The state in which a request is processed. -/
def preparedState (data : MessageData) : HandleState E where
  data := h.prepared data
  calls := h.preprocessCalls request (data.get "target") (data.set "message_id" (.str h.uuid))

theorem tryHandle_apply {text : String} {data : MessageData} (hdata : h.fromJson text = .ok data) :
    h.tryHandle request text {} =
      (do
        h.process request (data.get "target")
        h.postprocess request (data.get "target") : HandleM E Unit)
        (h.preparedState request data) := by
  simp only [tryHandle, bind_apply, hdata, outcome_ok, modify_apply, preprocess_apply,
    List.nil_append, preparedState, prepared]

theorem handle_of_error {e : PyException} {s' : HandleState E}
    (herror : h.tryHandle request message.2 s = .error e s') :
    (h.handle request message s).returned = false := by
  simp only [handle, tryCatch_apply, herror]
  rfl

theorem handle_of_ok {s' : HandleState E} (hok : h.tryHandle request message.2 s = .ok ⟨⟩ s') :
    h.handle request message s = .ok ⟨⟩ s' := by
  simp only [handle, tryCatch_apply, hok]

theorem handle_of_not_accepts (hnot : ¬h.Accepts message.2) :
    (h.handle request message {}).returned = false := by
  cases hdata : h.fromJson message.2 with
  | error e =>
    have hrun : h.tryHandle request message.2 {} = .error e {} := by
      simp only [tryHandle, bind_apply, hdata, outcome_error]
    exact h.handle_of_error request hrun
  | ok data =>
    have hprocess : ¬h.Processable (data.get "target") (h.preparedState request data).data :=
      fun hprocess => hnot ⟨data, hdata, hprocess⟩
    obtain ⟨e, s', herror⟩ := h.process_of_not_processable request (data.get "target") hprocess
    apply h.handle_of_error
    rw [h.tryHandle_apply request hdata, bind_apply, herror]

theorem handle_of_accepts (haccepts : h.Accepts message.2) :
    (h.handle request message {}).returned = true := by
  obtain ⟨data, hdata, found, hfound, hreports⟩ := haccepts
  have hprocess : ∃ s', h.process request (data.get "target") (h.preparedState request data) =
      .ok ⟨⟩ s' := by
    cases found with
    | none => exact ⟨_, h.process_of_unsupported request _ hfound⟩
    | some executor =>
      exact ⟨_, h.process_of_reports request _ hfound (hreports executor rfl)⟩
  obtain ⟨s', hprocess⟩ := hprocess
  have hrun : h.tryHandle request message.2 {} =
      .ok ⟨⟩ ((h.postprocess request (data.get "target")).after s') := by
    rw [h.tryHandle_apply request hdata, bind_apply, hprocess]
    exact eq_ok_of_returned (h.postprocess_returned request (data.get "target") s')
  rw [h.handle_of_ok request hrun]
  rfl

/-- When `handle` returns. -/
theorem handle_returned_iff (message : String × String) :
    (h.handle request message {}).returned = true ↔ h.Accepts message.2 := by
  constructor
  · intro hreturned
    apply Classical.byContradiction
    intro hnot
    rw [h.handle_of_not_accepts request hnot] at hreturned
    cases hreturned
  · exact h.handle_of_accepts request

theorem handle_calls {executor : Hook E Returned}
    {postprocessor : Hook E Unit} (hdata : h.fromJson message.2 = .ok data)
    (hfound : h.getTargetExecutor (data.get "target") = .ok (some executor))
    (hreports : h.Reports executor (h.prepared data))
    (hpost : h.getTargetPostprocessor (data.get "target") = .ok (some postprocessor)) :
    (h.handle request message {}).state.calls =
      (h.preparedState request data).calls ++
        .execute request :: (executor (h.prepared data)).events.map .event ++
        .postprocess request ::
          (postprocessor (executor (h.prepared data)).data).events.map .event := by
  have hrun : h.tryHandle request message.2 {} = .ok ⟨⟩
      (((h.preparedState request data).called (.execute request) executor).called
        (.postprocess request) postprocessor) := by
    rw [h.tryHandle_apply request hdata, bind_apply,
      h.process_of_reports request _ hfound hreports]
    exact h.postprocess_apply request _ hpost
  rw [h.handle_of_ok request hrun]
  rfl

theorem handle_of_unsupported (hdata : h.fromJson message.2 = .ok data)
    (hfound : h.getTargetExecutor (data.get "target") = .ok none) (r : Nat) :
    Call.execute r ∉ (h.handle request message {}).state.calls := by
  have hpost := eq_ok_of_returned
    (h.postprocess_returned request (data.get "target") (h.preparedState request data))
  have hrun : h.tryHandle request message.2 {} = .ok ⟨⟩
      ((h.postprocess request (data.get "target")).after (h.preparedState request data)) := by
    rw [h.tryHandle_apply request hdata, bind_apply, h.process_of_unsupported request _ hfound]
    exact hpost
  obtain ⟨calls, hcalls, hno⟩ :=
    h.postprocess_calls request (data.get "target") (h.preparedState request data)
  rw [h.handle_of_ok request hrun]
  simp only [Result.state, hcalls, List.mem_append, not_or]
  exact ⟨(h.notMem_preprocessCalls request _ _ r).1, hno r⟩

/-- `handle` returns and, if the target has a post-processor, post-processes what it executed. -/
def Handles (message : String × String) : Prop :=
  (h.handle request message {}).returned = true ∧
    ∀ data postprocessor, h.fromJson message.2 = .ok data →
      h.getTargetPostprocessor (data.get "target") = .ok (some postprocessor) →
      Call.execute request ∈ (h.handle request message {}).state.calls →
      PostprocessedOnce request (h.handle request message {}).state.calls

theorem postprocessedOnce_of_accepts (haccepts : h.Accepts message.2)
    (hdata : h.fromJson message.2 = .ok data)
    (hpost : h.getTargetPostprocessor (data.get "target") = .ok (some postprocessor))
    (hexecute : Call.execute request ∈ (h.handle request message {}).state.calls) :
    PostprocessedOnce request (h.handle request message {}).state.calls := by
  obtain ⟨data', hdata', found, hfound, hreports⟩ := haccepts
  obtain rfl : data = data' := Except.ok.inj (hdata.symm.trans hdata')
  cases found with
  | none => exact absurd hexecute (h.handle_of_unsupported request hdata hfound request)
  | some executor =>
    refine ⟨_, _, h.handle_calls request hdata hfound (hreports executor rfl) hpost, by simp,
      fun r => ⟨?_, by simp⟩⟩
    have hpre := (h.notMem_preprocessCalls request (data.get "target")
      (data.set "message_id" (.str h.uuid)) r).2
    simp [preparedState, hpre]

theorem handles_iff (message : String × String) :
    h.Handles request message ↔ h.Accepts message.2 := by
  constructor
  · intro ⟨hreturned, _⟩
    exact (h.handle_returned_iff request message).mp hreturned
  · intro haccepts
    refine ⟨h.handle_of_accepts request haccepts, ?_⟩
    intro data postprocessor hdata hpost hexecute
    exact h.postprocessedOnce_of_accepts request haccepts hdata hpost hexecute

end MessageHandler

/-! ## The handler of the service -/

namespace MesosHandler

variable (m : MesosHandler) (request : Nat)

theorem getTargetExecutor_eq_ok {target : Json} {found : Option (Hook Stage Returned)} :
    m.getTargetExecutor target = .ok found ↔
      target.hashable = true ∧
        found = match target with
          | .str name => if name ∈ supportedTargets then some (m.executor name).hook else none
          | _ => none := by
  unfold getTargetExecutor
  cases target <;> simp [Json.hashable, eq_comm]
  split <;> simp

theorem stages_targetPostprocessor (data : MessageData) : (m.targetPostprocessor data).events =
      if (m.updateFrameworkDb data).1.isOk then [.flush, .releaseFrameworkLock] else [] := by
  unfold targetPostprocessor
  cases hrun : m.updateFrameworkDb data with
  | mk outcome data' => cases outcome <;> simp [Except.isOk, Except.toBool]

/-- `handle` returns, and a request that reached its handler is post-processed, with the deferred
    deletions and the lock. -/
def Handles (message : String × String) : Prop :=
  (m.messageHandler.handle request message {}).returned = true ∧
    (Call.execute request ∈ (m.messageHandler.handle request message {}).state.calls →
      PostprocessedOnce request (m.messageHandler.handle request message {}).state.calls ∧
      Call.event .flush ∈ (m.messageHandler.handle request message {}).state.calls ∧
      Call.event .releaseFrameworkLock ∈ (m.messageHandler.handle request message {}).state.calls)

/-- The request reaches its handler, its response is no obstacle, and the database can be updated.
    -/
def Finishes (data : MessageData) (name : String) : Prop :=
  m.messageHandler.Reports (m.executor name).hook (m.messageHandler.prepared data) ∧
    (m.updateFrameworkDb (m.executor name (m.messageHandler.prepared data)).2).1.isOk = true

theorem handle_supported {message : String × String} {data : MessageData} {name : String}
    (hdata : m.messageHandler.fromJson message.2 = .ok data)
    (htarget : data.get "target" = .str name) (hname : name ∈ supportedTargets)
    (hreports : m.messageHandler.Reports (m.executor name).hook (m.messageHandler.prepared data)) :
    (m.messageHandler.handle request message {}).state.calls =
      (m.messageHandler.preparedState request data).calls ++
        [Call.execute request, Call.postprocess request] ++
        if (m.updateFrameworkDb (m.executor name (m.messageHandler.prepared data)).2).1.isOk then
          [.event .flush, .event .releaseFrameworkLock]
        else [] := by
  have hfound : m.messageHandler.getTargetExecutor (data.get "target") =
      .ok (some (m.executor name).hook) :=
    m.getTargetExecutor_eq_ok.mpr ⟨by rw [htarget]; rfl, by simp [htarget, hname]⟩
  rw [m.messageHandler.handle_calls request hdata hfound hreports rfl, stages_targetPostprocessor]
  simp only [PlainHook.hook, List.map_nil]
  by_cases hdb :
      (m.updateFrameworkDb (m.executor name (m.messageHandler.prepared data)).2).1.isOk = true
  · simp [hdb]
  · simp [hdb]

theorem notMem_preparedState (data : MessageData) (e : Stage) :
    Call.event e ∉ (m.messageHandler.preparedState request data).calls := by
  simp only [MessageHandler.preparedState, MessageHandler.preprocessCalls]
  split
  · rename_i preprocessor heq
    have hevents : (preprocessor (data.set "message_id" (.str m.uuid))).events = [] := by
      simp only [messageHandler] at heq
      cases hdb : m.updateEventDb with
      | error ex => rw [hdb] at heq; cases heq
      | ok hook =>
        cases hook with
        | none => rw [hdb] at heq; cases heq
        | some hook => rw [hdb] at heq; cases heq; rfl
    have huuid : m.messageHandler.uuid = m.uuid := rfl
    simp [huuid, hevents]
  · exact List.not_mem_nil

theorem exists_supported {message : String × String} {data : MessageData}
    (hdata : m.messageHandler.fromJson message.2 = .ok data)
    (hhashable : (data.get "target").hashable = true)
    (hexecute : Call.execute request ∈ (m.messageHandler.handle request message {}).state.calls) :
    ∃ name ∈ supportedTargets, data.get "target" = .str name := by
  apply Classical.byContradiction
  intro hnot
  have hfound : m.messageHandler.getTargetExecutor (data.get "target") = .ok none := by
    refine m.getTargetExecutor_eq_ok.mpr ⟨hhashable, ?_⟩
    split
    · rename_i name htarget
      rw [if_neg fun hname => hnot ⟨name, hname, htarget⟩]
    · rfl
  exact m.messageHandler.handle_of_unsupported request hdata hfound request hexecute

theorem accepts_iff (text : String) : m.messageHandler.Accepts text ↔
      ∃ data, m.messageHandler.fromJson text = .ok data ∧ (data.get "target").hashable = true ∧
        ∀ name ∈ supportedTargets, data.get "target" = .str name →
          m.messageHandler.Reports (m.executor name).hook (m.messageHandler.prepared data) := by
  apply exists_congr
  intro data
  apply and_congr_right
  intro _
  constructor
  · intro ⟨found, hfound, hreports⟩
    obtain ⟨hhashable, hfound⟩ := m.getTargetExecutor_eq_ok.mp hfound
    refine ⟨hhashable, fun name hname htarget => hreports _ ?_⟩
    rw [hfound, htarget]
    simp [hname]
  · intro ⟨hhashable, hreports⟩
    refine ⟨_, m.getTargetExecutor_eq_ok.mpr ⟨hhashable, rfl⟩, fun executor hexecutor => ?_⟩
    split at hexecutor
    · rename_i name htarget
      split at hexecutor
      · rename_i hname
        cases hexecutor
        exact hreports name hname htarget
      · cases hexecutor
    · cases hexecutor

theorem handles_iff (message : String × String) : m.Handles request message ↔
      ∃ data, m.messageHandler.fromJson message.2 = .ok data ∧
        (data.get "target").hashable = true ∧
        ∀ name ∈ supportedTargets, data.get "target" = .str name → m.Finishes data name := by
  constructor
  · intro ⟨hreturned, hfinished⟩
    have haccepts := (m.messageHandler.handle_returned_iff request message).mp hreturned
    obtain ⟨data, hdata, hhashable, hreports⟩ := (m.accepts_iff message.2).mp haccepts
    refine ⟨data, hdata, hhashable, fun name hname htarget => ⟨hreports name hname htarget, ?_⟩⟩
    -- otherwise the deletions would not have been flushed
    rw [m.handle_supported request hdata htarget hname (hreports name hname htarget)] at hfinished
    have hflush := (hfinished (by simp)).2.1
    simp only [List.mem_append, m.notMem_preparedState request data .flush, false_or] at hflush
    apply Classical.byContradiction
    intro hdb
    simp [hdb] at hflush
  · intro ⟨data, hdata, hhashable, hfinishes⟩
    have haccepts : m.messageHandler.Accepts message.2 := (m.accepts_iff message.2).mpr
      ⟨data, hdata, hhashable, fun name hname htarget => (hfinishes name hname htarget).1⟩
    refine ⟨m.messageHandler.handle_of_accepts request haccepts, fun hexecute => ⟨?_, ?_⟩⟩
    · exact m.messageHandler.postprocessedOnce_of_accepts request haccepts hdata rfl hexecute
    · obtain ⟨name, hname, htarget⟩ := m.exists_supported request hdata hhashable hexecute
      obtain ⟨hreports, hdb⟩ := hfinishes name hname htarget
      rw [m.handle_supported request hdata htarget hname hreports]
      simp [hdb]

end MesosHandler

/-- A service that reads the same text from every message. -/
def sampleHandler (text : Except PyException Json) (response : Option Response)
    (write updateDb : Except PyException Unit) : MesosHandler where
  loads _ := text
  dumps _ := .ok ""
  str _ := ""
  uuid := "uuid"
  createChannel _ := .ok ()
  write _ _ := write
  updateEventDb := .ok none
  executor _ data := (.ok (.pair response), data)
  updateFrameworkDb data := (updateDb, data)
  releaseFrameworkLock _ := .ok ()

/-- A request to kill a task. -/
def killTaskRequest : Json :=
  .obj [("target", .str "KillTaskMessage"), ("reply_to", .str "scheduler")]

end Urb.Handling
