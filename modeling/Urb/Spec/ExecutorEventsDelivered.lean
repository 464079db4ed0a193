import Urb.ForStd.Run
import Urb.Native.Entry
import Urb.Native.ExecutorEvents

/-!
# Delivery to executors

An HTTP executor gets every event that is posted for it, once and in order, exactly if no event is
posted while the last one has not been read or is being written to the executor, and the record and
the slot of the slave stay the generator's own as long as events are posted.

A message of a framework is routed by the API of the framework only, although the executor may use
the other one.
-/

namespace Urb

namespace ExecutorStream

variable {s : ExecutorStream}

/-- The event that the generator yields next. -/
def unread (s : ExecutorStream) : List ExecutorEvent :=
  if s.phase = .waiting ∧ (s.awaited.getD s.slot).isSome then s.slot.toList else []

/-- What was posted is what was yielded and what is still to be yielded, in this order, and the
    generator yields all of it if it is left to run. -/
structure Delivers (s : ExecutorStream) : Prop where
  inOrder : s.posted = s.yielded ++ s.unread
  complete : ∃ n, (advance^[n] s).yielded = s.posted

/-- The condition on an event and the stream before it. -/
def Orderly (s : ExecutorStream) : ExecutorStreamEvent → Prop
  | .post _ => s.attached = true → s.unread = [] ∧ s.phase = .waiting ∧ s.awaited ≠ some none
  | .advance => s.phase = .yielding → s.attached = true ∨ s.slot = none
  | .close => s.unread = []
  | .resubscribe => s.attached = true → s.unread = []
  | _ => True

theorem unread_of_not_waiting (h : s.phase ≠ .waiting) : s.unread = [] := by simp [unread, h]

/-! ## Single steps -/

theorem advance_waiting (h : s.phase = .waiting) :
    s.advance.posted = s.posted ∧ s.advance.yielded = s.yielded ++ s.unread ∧
      s.advance.unread = [] := by
  cases hawaited : s.awaited.getD s.slot with
  | none =>
    have hunread : s.unread = [] := by simp [unread, hawaited]
    have hstays : s.advance = s := by simp [advance, h, hawaited]
    simp [hstays, hunread]
  | some v =>
    -- the generator wakes up and reads the slot, which need not be what woke it
    cases hslot : s.slot with
    | none =>
      have hunread : s.unread = [] := by simp [unread, hslot]
      have hrenewed : s.advance = s.renew := by
        rw [hslot] at hawaited
        simp [advance, h, hslot, hawaited]
      rw [hrenewed, hunread]
      simp only [renew]
      split <;> simp [unread, hslot]
    | some e =>
      rw [hslot] at hawaited
      have hunread : s.unread = [e] := by simp [unread, h, hslot, hawaited]
      have hread : s.advance = { s with yielded := s.yielded ++ [e], phase := .yielding } := by
        simp [advance, h, hslot, hawaited]
      rw [hread, hunread]
      exact ⟨rfl, rfl, unread_of_not_waiting (by simp)⟩

theorem complete_of_inOrder (h : s.posted = s.yielded ++ s.unread) :
    ∃ n, (advance^[n] s).yielded = s.posted := by
  by_cases hphase : s.phase = .waiting
  · exact ⟨1, by rw [h]; exact (advance_waiting hphase).2.1⟩
  · exact ⟨0, by rw [h, unread_of_not_waiting hphase, List.append_nil]; rfl⟩

theorem delivers_iff : s.Delivers ↔ s.posted = s.yielded ++ s.unread :=
  ⟨fun h => h.inOrder, fun h => ⟨h, complete_of_inOrder h⟩⟩

theorem delivers_iff_unread {s' : ExecutorStream} (h : s.posted = s.yielded ++ s.unread)
    (hposted : s'.posted = s.posted) (hyielded : s'.yielded = s.yielded) :
    s'.Delivers ↔ s'.unread = s.unread := by
  rw [delivers_iff, hposted, hyielded, h, List.append_cancel_left_eq]
  exact eq_comm

theorem unread_post (e : ExecutorEvent) (hattached : s.attached = true) :
    (s.post e).unread = if s.phase = .waiting ∧ s.awaited ≠ some none then [e] else [] := by
  simp only [post, hattached, if_true, unread]
  rcases s.awaited with _ | _ | _ <;> simp

theorem delivers_post_iff (h : s.posted = s.yielded ++ s.unread) (e : ExecutorEvent) :
    (s.post e).Delivers ↔ s.Orderly (.post e) := by
  cases hattached : s.attached with
  | false =>
    have hsame : s.post e = s := by simp [post, hattached]
    rw [hsame]
    exact iff_of_true (delivers_iff.mpr h) (by simp [Orderly, hattached])
  | true =>
    have hposted : (s.post e).posted = s.posted ++ [e] := by simp [post, hattached]
    have hyielded : (s.post e).yielded = s.yielded := by simp [post, hattached]
    rw [delivers_iff, hposted, hyielded, unread_post e hattached, h, List.append_assoc,
      List.append_cancel_left_eq]
    simp only [Orderly, hattached, forall_const]
    split
    · rename_i hready
      simp [hready]
    · rename_i hbusy
      simp [hbusy]

/-- After a yield the slot is emptied if the record is still there. Else the generator finds the
    event in it that it has just yielded. -/
theorem delivers_advance_iff (h : s.posted = s.yielded ++ s.unread) :
    s.advance.Delivers ↔ s.Orderly .advance := by
  cases hphase : s.phase with
  | waiting =>
    obtain ⟨hposted, hyielded, hunread⟩ := advance_waiting hphase
    refine iff_of_true ?_ (by simp [Orderly, hphase])
    rw [delivers_iff, hposted, hyielded, hunread, List.append_nil]
    exact h
  | ended =>
    have hsame : s.advance = s := by simp [advance, hphase]
    rw [hsame]
    exact iff_of_true (delivers_iff.mpr h) (by simp [Orderly, hphase])
  | yielding =>
    have hrenewed : s.advance = s.renew := by simp [advance, hphase]
    have hnone : s.unread = [] := unread_of_not_waiting (by simp [hphase])
    have hkept : s.renew.posted = s.posted ∧ s.renew.yielded = s.yielded := by
      simp only [renew]
      split <;> exact ⟨rfl, rfl⟩
    rw [hrenewed, delivers_iff_unread h hkept.1 hkept.2, hnone]
    simp only [Orderly, hphase, forall_const, renew]
    cases hattached : s.attached with
    | true => simp [unread]
    | false => cases hslot : s.slot <;> simp [unread]

theorem delivers_leave (h : s.posted = s.yielded ++ s.unread) : s.leave.Delivers := by
  rw [delivers_iff]
  cases hphase : s.phase with
  | yielding =>
    have hnone : s.unread = [] := unread_of_not_waiting (by simp [hphase])
    rw [hnone] at h
    simp only [leave, hphase, renew]
    split <;> exact h
  | waiting => simpa only [leave, hphase] using h
  | ended => simpa only [leave, hphase] using h

theorem delivers_resubscribe_iff (h : s.posted = s.yielded ++ s.unread) :
    s.resubscribe.Delivers ↔ s.Orderly .resubscribe := by
  cases hattached : s.attached with
  | false =>
    have hsame : s.resubscribe = s := by simp [resubscribe, hattached]
    rw [hsame]
    exact iff_of_true (delivers_iff.mpr h) (by simp [Orderly, hattached])
  | true =>
    have hempty : s.resubscribe.unread = [] := by simp [resubscribe, hattached, unread]
    have hkept : s.resubscribe.posted = s.posted ∧ s.resubscribe.yielded = s.yielded := by
      simp [resubscribe, hattached]
    rw [delivers_iff_unread h hkept.1 hkept.2, hempty]
    simp only [Orderly, hattached, forall_const]
    exact eq_comm

theorem delivers_step_iff (h : s.Delivers) (e : ExecutorStreamEvent) :
    (s.step e).Delivers ↔ s.Orderly e := by
  have horder := h.inOrder
  cases e with
  | post e => exact delivers_post_iff horder e
  | advance => exact delivers_advance_iff horder
  | leave => exact iff_of_true (delivers_leave horder) trivial
  | close =>
    -- a closed generator reads nothing any more
    have hiff : (s.step .close).Delivers ↔ (s.step .close).unread = s.unread :=
      delivers_iff_unread horder rfl rfl
    rw [hiff, unread_of_not_waiting (by simp [step])]
    exact eq_comm
  | detach => exact iff_of_true (delivers_iff.mpr horder) trivial
  | resubscribe => exact delivers_resubscribe_iff horder

/-! ## Runs -/

/-- Every event that is posted for an executor after its subscription is yielded to it, once and in
    order, exactly if all steps are orderly. -/
theorem executor_events_delivered_iff (events : List ExecutorStreamEvent) :
    Run.Meets step (fun s e => (s.step e).Delivers) {} events ↔
      Run.Meets step Orderly {} events := by
  have hstep : ∀ s e, s.Delivers → ((step s e).Delivers ↔ Orderly s e) :=
    fun _ e hs => delivers_step_iff hs e
  have hstart : ({} : ExecutorStream).Delivers := delivers_iff.mpr rfl
  exact Run.meets_iff_self hstep hstart

end ExecutorStream

namespace Sample

/-- The slave has a task, and its executor has subscribed by HTTP. -/
def subscribed : State :=
  startExecutorEvents slaveId
    (run env start (launched ++ [.http (.subscribeExecutor "executor")]))

def acknowledgement : StatusUpdateAcknowledgementMessage where
  slaveId := some slaveId
  taskId := "t"
  uuid := "uuid"

end Sample

/-- The task is killed, and while the event is written to the executor, the framework acknowledges
    an update. The slot is renewed with the acknowledgement in it. -/
theorem acknowledgement_lost :
    let s := Sample.subscribed
    let killed := step Sample.env s (.queued (.killTask "t"))
    let kill := (killed.effects.drop s.effects.length).filterMap
      (Effect.executorStreamEvent Sample.slaveId)
    let acknowledge := (statusUpdateAcknowledgement killed Sample.acknowledgement).streamEvent
      Sample.slaveId
    let events : List ExecutorStreamEvent := kill ++ .advance :: acknowledge.toList ++ [.advance]
    let stream := events.foldl ExecutorStream.step {}
    stream.posted = [.kill "t", .acknowledged "t" "uuid"] ∧
      (∀ n, (ExecutorStream.advance^[n] stream).yielded = [.kill "t"]) ∧ ¬stream.Delivers := by
  intro s killed kill acknowledge events stream
  have hstream : stream =
      { posted := [.kill "t", .acknowledged "t" "uuid"], yielded := [.kill "t"] } := by
    decide +kernel
  have hyielded : ∀ n, (ExecutorStream.advance^[n] stream).yielded = [.kill "t"] := by
    intro n
    -- the slot is empty, and the generator waits
    have hstays : ExecutorStream.advance stream = stream := by rw [hstream]; rfl
    rw [Function.iterate_fixed hstays, hstream]
  refine ⟨by rw [hstream], hyielded, fun h => ?_⟩
  obtain ⟨n, hn⟩ := h.complete
  rw [hyielded, hstream] at hn
  exact absurd hn (by decide)

/-! ## Messages of a framework -/

/-- The ways in which a slave has an executor for a message: the channel on which it registered and
    the slot of an HTTP executor, each with what the delivery there looks like. -/
def Slave.endpoints (slave : Slave) (slaveId : String) (m : FrameworkToExecutorMessage) :
    List ExecutorDelivery :=
  ((slave.channelFor m.executorId).map (.written · (.message m.data))).toList ++
    if slave.asyncResult then [.posted slaveId (.message m.data)] else []

/-- The message names the slave, by its id or by a place-holder that is mapped to it. -/
def FrameworkToExecutorMessage.Names (m : FrameworkToExecutorMessage) (f : Framework)
    (slaveId : String) : Prop :=
  (m.slaveId.isSome ∨ m.agentId.isSome) ∧
    (∀ id ∈ m.slaveId, f.slaveNamed id = some slaveId) ∧
    ∀ id ∈ m.agentId, f.slaveNamed id = some slaveId

/-- The message goes to an executor of the slave, and to the retry manager if there is none. -/
def Routed (slaveId : String) (slave : Slave) (m : FrameworkToExecutorMessage)
    (outcome : ExecutorDelivery) : Prop :=
  if slave.endpoints slaveId m = [] then outcome = .retried else outcome ∈ slave.endpoints slaveId m

/-- The slave is named in the field that is read for the API of the framework, and the executor
    uses the same API; only for a native framework it may still be missing. -/
def Routable (f : Framework) (entry : Entry) (slave : Slave) (m : FrameworkToExecutorMessage) :
    Prop :=
  if f.http then m.agentId.isSome ∧ slave.asyncResult = true
  else m.slaveId.isSome ∧
    ((slave.channelFor m.executorId).isSome ∨ slave.asyncResult = false ∧ entry = .queue)

section Routing

variable {s : State} {slaveId : String} {slave : Slave} {entry : Entry}
  {m : FrameworkToExecutorMessage}

theorem Routed.of_mem {outcome : ExecutorDelivery} (h : outcome ∈ slave.endpoints slaveId m) :
    Routed slaveId slave m outcome := by
  rw [Routed, if_neg (List.ne_nil_of_mem h)]
  exact h

theorem not_routed_raised (e : PyError) : ¬Routed slaveId slave m (.raised e) := by
  unfold Routed Slave.endpoints
  cases slave.channelFor m.executorId <;> cases slave.asyncResult <;> simp

theorem not_routed_dropped : ¬Routed slaveId slave m .dropped := by
  unfold Routed Slave.endpoints
  cases slave.channelFor m.executorId <;> cases slave.asyncResult <;> simp

theorem routed_retried_iff : Routed slaveId slave m .retried ↔
      slave.channelFor m.executorId = none ∧ slave.asyncResult = false := by
  unfold Routed Slave.endpoints
  cases slave.channelFor m.executorId <;> cases slave.asyncResult <;> simp

theorem routed_http_iff (hactive : s.tracking = .active) (hhttp : s.framework.http = true)
    (hslave : s.framework.slaves.lookup slaveId = some slave)
    (hagent : ∀ id ∈ m.agentId, s.framework.slaveNamed id = some slaveId) :
    Routed slaveId slave m (frameworkToExecutor s entry m) ↔
      m.agentId.isSome ∧ slave.asyncResult = true := by
  cases hid : m.agentId with
  | none =>
    simp [frameworkToExecutor, hactive, hhttp, hid, not_routed_raised]
  | some id =>
    have hnamed := hagent id hid
    cases hslot : slave.asyncResult with
    | false =>
      simp [frameworkToExecutor, hactive, hhttp, hid, hnamed, hslave, hslot, not_routed_raised]
    | true =>
      refine iff_of_true (.of_mem ?_) (by simp)
      simp [frameworkToExecutor, hactive, hhttp, hid, hnamed, hslave, hslot, Slave.endpoints]

theorem routed_native_iff (hactive : s.tracking = .active) (hnative : s.framework.http = false)
    (hslave : s.framework.slaves.lookup slaveId = some slave)
    (hnames : ∀ id ∈ m.slaveId, s.framework.slaveNamed id = some slaveId) :
    Routed slaveId slave m (frameworkToExecutor s entry m) ↔
      m.slaveId.isSome ∧
        ((slave.channelFor m.executorId).isSome ∨ slave.asyncResult = false ∧ entry = .queue) := by
  cases hid : m.slaveId with
  | none =>
    simp [frameworkToExecutor, hactive, hnative, sendFrameworkMessage, hid, not_routed_raised]
  | some id =>
    have hsent : sendFrameworkMessage s.framework m = .ok (slave.channelFor m.executorId) := by
      simp [sendFrameworkMessage, hid, hnames id hid, hslave]
    cases hchannel : slave.channelFor m.executorId with
    | some channel =>
      refine iff_of_true (.of_mem ?_) (by simp)
      simp [frameworkToExecutor, hactive, hnative, hsent, hchannel, Slave.endpoints]
    | none =>
      -- whether the slave has an HTTP executor is not asked
      cases entry with
      | queue =>
        simp [frameworkToExecutor, hactive, hnative, hsent, hchannel, routed_retried_iff]
      | http =>
        simp [frameworkToExecutor, hactive, hnative, hsent, hchannel, not_routed_dropped]

end Routing

namespace Sample

/-- The same service with a framework of the native API. -/
def nativeStart : State :=
  { start with framework := { start.framework with channelName := "driver" } }

/-- The slave has a task, and its executor has registered on a channel. -/
def registered (s : State) : State :=
  run env s (launched ++
    [.queued (.registerExecutor
      { executorId := "executor", replyTo := "runner", channel := "executor" })])

/-- A message with the slave in both fields. -/
def message : FrameworkToExecutorMessage where
  slaveId := some slaveId
  agentId := some slaveId
  executorId := "executor"
  data := "data"

end Sample

end Urb
