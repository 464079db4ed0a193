import Mathlib.Data.List.Induction
import Urb.Spec.FrameworkDeleted

/-!
# Frameworks whose scheduler is lost

`delete_channel` deletes a framework only if the record of the channel says that its other end is a
framework, and which one. A heartbeat of the scheduler stores such a record. The record that
`start_channel_monitoring` stores has no `endpoint_type`, so that a framework that registers and
sends no heartbeat, or whose channel is told that the service was disconnected after its last
heartbeat, outlives its channel. `__delete_framework` in turn needs the `task_dict` that
`launch_tasks` creates.
-/

namespace Urb

variable {info : ChannelInfo} {channelId frameworkId : String} {e : ChannelEvent}

/-! ## The records of a channel -/

namespace ChannelEvent

/-- The event stores a record of the channel. -/
def stores (channelId : String) : ChannelEvent → Bool
  | .register _ channelName _ http => !http && channelName == channelId
  | .heartbeat m => m.channelId == channelId
  | .serviceDisconnected channelNames => decide (channelId ∈ channelNames)
  | .startMonitoring id _ _ => id == channelId
  | _ => false

/-- The event is a heartbeat that the scheduler of the framework sends. -/
def isSchedulerHeartbeat (frameworkId : String) : ChannelEvent → Bool
  | .heartbeat m => m.endpointType == .framework && m.frameworkId == some frameworkId
  | _ => false

end ChannelEvent

/-- The last event that stored a record of the channel is a heartbeat of the scheduler. -/
def heardLast (channelId frameworkId : String) (events : List ChannelEvent) : Bool :=
  (events.filter (·.stores channelId)).getLast?.any (·.isSchedulerHeartbeat frameworkId)

theorem heardLast_concat (channelId frameworkId : String) (events : List ChannelEvent)
    (e : ChannelEvent) :
    heardLast channelId frameworkId (events ++ [e]) =
      if e.stores channelId then e.isSchedulerHeartbeat frameworkId
      else heardLast channelId frameworkId events := by
  simp only [heardLast, List.filter_append]
  cases h : e.stores channelId with
  | true => simp [h]
  | false => simp [h]

/-- The record is that of the scheduler of the framework. -/
def ChannelInfo.ofScheduler (frameworkId : String) (info : ChannelInfo) : Bool :=
  info.endpointType == some .framework && info.frameworkId == some frameworkId

namespace Trackers

open EStateM

variable {env : Env} {s : Trackers}

/-! ### What a deletion leaves alone -/

theorem leaves_removeFramework (frameworkId : String) :
    Leaves channels (removeFramework frameworkId) := by
  apply Leaves.bind .get
  intro s
  split
  · exact .pure _
  · apply Leaves.bind (.modify fun _ => by rfl)
    exact fun _ => leaves_rememberFinished channels _ fun _ _ _ => rfl

theorem leaves_deleteFramework (frameworkId : String) (raises : Bool) :
    Leaves channels (deleteFramework frameworkId raises) := by
  intro s
  cases hstate : s.frameworks.lookup frameworkId with
  | none =>
    simp only [deleteFramework, after_bind, get_apply, hstate]
    rfl
  | some state =>
    by_cases h : Deletable state raises
    · obtain ⟨s1, hprepared, -, hrun⟩ := deleteFramework_of_deletable hstate h
      have hemit (e : ChannelEffect) : Leaves channels (emit e) := .modify fun _ => rfl
      rw [after_eq_state, hrun, ← after_eq_state, ← hprepared.channels]
      exact Leaves.bind (leaves_removeFramework frameworkId) (fun _ => hemit _) s1
    · obtain ⟨e, s1, hrun, hprepared⟩ := deleteFramework_of_not_deletable hstate h
      rw [after_of_error hrun, hprepared.channels]

theorem leaves_deleteChannel (channelId : String) (info : ChannelInfo) (raises : Bool) :
    Leaves channels (deleteChannel channelId info raises) := by
  apply Leaves.bind .get
  intro s
  split
  · split
    · exact .modify fun _ => rfl
    · refine .ite (.ite (.ite (.modify fun _ => by rfl) (leaves_deleteFramework _ _)) ?_) (.pure _)
      exact .modify fun _ => by rfl
  · exact .modify fun _ => rfl

/-! ### What an event stores -/

theorem lookup_startChannelMonitoring (s : Trackers) (channelId id : String)
    (frameworkId slaveId : Option String) (timeToLive : Option ℚ) :
    (s.startChannelMonitoring id frameworkId slaveId timeToLive).channels.lookup channelId =
      if id = channelId then
        some { frameworkId, slaveId, timeToLive := initialTimeToLive s.clock timeToLive }
      else s.channels.lookup channelId := by
  unfold startChannelMonitoring
  by_cases h : id = channelId
  · simp [h]
  · simp [h, AList.lookup_insert_ne (Ne.symm h)]

theorem lookup_sendServiceDisconnectedMessage (channelId : String) (names : List String)
    (s : Trackers) :
    if channelId ∈ names then
      ∃ info, (s.sendServiceDisconnectedMessage names).channels.lookup channelId = some info ∧
        info.endpointType = none
    else (s.sendServiceDisconnectedMessage names).channels.lookup channelId =
      s.channels.lookup channelId := by
  unfold sendServiceDisconnectedMessage
  -- the last channel name decides, so the induction is from the right
  induction names using List.reverseRec with
  | nil => simp
  | append_singleton names name ih =>
    rw [List.foldl_append, List.foldl_cons, List.foldl_nil, lookup_startChannelMonitoring]
    by_cases hname : name = channelId
    · simp [hname]
    · have hname' : ¬channelId = name := Ne.symm hname
      simpa [hname, hname', disconnectChannel] using ih

theorem channels_monitor (channelId : String) (raises : Bool) (s : Trackers) {id : String}
    (h : (s.monitor channelId raises).channels.lookup id = some info) :
    s.channels.lookup id = some info := by
  unfold monitor at h
  split at h
  · exact h
  split at h
  · exact h
  · rename_i info' _
    split at h
    · have hleaves := leaves_deleteChannel channelId info' raises
        { s with channels := s.channels.erase channelId }
      rw [removeChannelFromTracker, hleaves] at h
      by_cases hid : id = channelId
      · subst hid
        rw [AList.lookup_erase] at h
        cases h
      · rwa [AList.lookup_erase_ne hid] at h
    · unfold validateChannel disconnectChannel at h
      split at h
      · exact h
      · exact h

theorem ofScheduler_step_of_stores (h : e.stores channelId = true)
    (hinfo : (s.step env e).channels.lookup channelId = some info) :
    info.ofScheduler frameworkId = e.isSchedulerHeartbeat frameworkId := by
  cases e with
  | register id channelName config http =>
    obtain ⟨hhttp, hname⟩ := Bool.and_eq_true_iff.mp h
    have hhttp : http = false := by simpa using hhttp
    have hname : channelName = channelId := eq_of_beq hname
    simp only [step, processRegistration, hhttp, Bool.false_eq_true, if_false,
      lookup_startChannelMonitoring, hname, if_true, Option.some.injEq] at hinfo
    subst hinfo
    rfl
  | heartbeat m =>
    have hname : m.channelId = channelId := eq_of_beq h
    simp only [step, heartbeat, hname, AList.lookup_insert, Option.some.injEq] at hinfo
    subst hinfo
    simp only [ChannelInfo.ofScheduler, ChannelEvent.isSchedulerHeartbeat]
    cases m.endpointType <;> rfl
  | serviceDisconnected names =>
    have hsend := lookup_sendServiceDisconnectedMessage channelId names s
    rw [if_pos (of_decide_eq_true h)] at hsend
    obtain ⟨info', hlookup, htype⟩ := hsend
    rw [step, hlookup] at hinfo
    cases hinfo
    simp [ChannelInfo.ofScheduler, htype, ChannelEvent.isSchedulerHeartbeat]
  | startMonitoring id frameworkId slaveId =>
    have hname : id = channelId := eq_of_beq h
    simp only [step, lookup_startChannelMonitoring, hname, if_true, Option.some.injEq] at hinfo
    subst hinfo
    rfl
  | framework id e => cases h
  | monitor id raises => cases h
  | clock now => cases h

theorem lookup_step_of_not_stores (h : e.stores channelId = false)
    (hinfo : (s.step env e).channels.lookup channelId = some info) :
    s.channels.lookup channelId = some info := by
  cases e with
  | register id channelName config http =>
    unfold step processRegistration at hinfo
    cases http with
    | true => exact hinfo
    | false =>
      have hname : ¬channelName = channelId := by simpa [ChannelEvent.stores] using h
      simpa only [Bool.false_eq_true, if_false, lookup_startChannelMonitoring, hname] using hinfo
  | heartbeat m =>
    have hname : ¬channelId = m.channelId := fun heq => by simp [ChannelEvent.stores, heq] at h
    simpa only [step, heartbeat, AList.lookup_insert_ne hname] using hinfo
  | serviceDisconnected names =>
    have hsend := lookup_sendServiceDisconnectedMessage channelId names s
    rw [if_neg (of_decide_eq_false h)] at hsend
    rwa [step, hsend] at hinfo
  | startMonitoring id frameworkId slaveId =>
    have hname : ¬id = channelId := by simpa [ChannelEvent.stores] using h
    simpa only [step, lookup_startChannelMonitoring, hname, if_false] using hinfo
  | framework id e =>
    simp only [step] at hinfo
    split at hinfo
    · exact hinfo
    · split at hinfo
      · exact hinfo
      · exact hinfo
  | monitor id raises => exact channels_monitor id raises s hinfo
  | clock now => exact hinfo

theorem ofScheduler_run (hs : s.channels = ∅) (events : List ChannelEvent)
    (channelId frameworkId : String)
    (hinfo : (events.foldl (step env) s).channels.lookup channelId = some info) :
    info.ofScheduler frameworkId = heardLast channelId frameworkId events := by
  induction events using List.reverseRec with
  | nil =>
    rw [List.foldl_nil, hs] at hinfo
    cases hinfo
  | append_singleton events e ih =>
    rw [List.foldl_append] at hinfo
    rw [heardLast_concat]
    cases h : e.stores channelId with
    | true => exact ofScheduler_step_of_stores h hinfo
    | false => exact ih (lookup_step_of_not_stores h hinfo)

/-! ### The deletion of the framework -/

/-- `delete_channel` for the active channel of a framework removes the framework if the record of
    the channel is that of its scheduler and the lock is not held, and no other framework else. -/
theorem notMem_deleteChannel {state : State} (hstate : s.frameworks.lookup frameworkId = some state)
    (hactive : state.framework.channelName = channelId) (info : ChannelInfo) (raises : Bool) :
    frameworkId ∉ ((deleteChannel channelId info raises).after s).frameworks ↔
      info.ofScheduler frameworkId = true ∧ frameworkId ∉ s.heldLocks ∧ Deletable state raises := by
  have hmem : frameworkId ∈ s.frameworks := AList.lookup_isSome.mp (by rw [hstate]; rfl)
  have hdestroy : frameworkId ∈ ((emit (.destroyChannel channelId)).after s).frameworks := hmem
  simp only [deleteChannel, after_bind, get_apply, ChannelInfo.ofScheduler, Bool.and_eq_true,
    beq_iff_eq]
  cases hid : info.frameworkId with
  | none => simpa using hdestroy
  | some id =>
    cases htype : info.endpointType with
    | none => simpa using hdestroy
    | some endpointType =>
      simp only [Option.some.injEq]
      by_cases heq : id = frameworkId
      · subst heq
        simp only [hstate, hactive, if_true, and_true]
        by_cases hframework : endpointType = .framework
        · by_cases hheld : id ∈ s.heldLocks
          · simp only [hframework, hheld, if_true, not_true, false_and, and_false, iff_false, not_not]
            exact hmem
          · simp only [hframework, hheld, if_true, if_false, true_and, not_false_eq_true]
            rw [mem_deleteFramework hstate]
            simp [hmem]
        · simp only [hframework, if_false, false_and, iff_false, not_not]
          exact hmem
      · -- another framework may be deleted
        simp only [heq, and_false, false_and, iff_false, not_not]
        cases hother : s.frameworks.lookup id with
        | none => exact hmem
        | some other =>
          dsimp only
          split
          · split
            · split
              · exact hmem
              · exact (mem_deleteFramework hother raises frameworkId).mpr
                  ⟨hmem, fun h => heq h.1.symm⟩
            · exact hmem
          · exact hmem

def schedulerHeartbeat : ChannelEvent :=
  .heartbeat
    { channelId := "scheduler", frameworkId := some "framework", endpointType := .framework }

/-- Nothing is heard for long. -/
def silence : ChannelEvent := .clock 1000

def expire : ChannelEvent := .monitor "scheduler" false

/-- The channel of the scheduler expires after these events, and the framework stays. -/
def Outlives (events : List ChannelEvent) : Prop :=
  let s := events.foldl (step Sample.env) {}
  "scheduler" ∈ s.channels ∧ "scheduler" ∉ (s.step Sample.env expire).channels ∧
    "framework" ∈ (s.step Sample.env expire).frameworks

end Trackers

end Urb
