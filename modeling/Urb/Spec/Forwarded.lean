import Mathlib
import Urb.Native.Offers
import Urb.Spec.RunOnce

/-!
# What is forwarded to the executor runners

For a task on a running slave `launch_tasks` forwards its message to the executor runner of the
slave: the whole message, with all tasks, once for every task that names the slave. The offers that
it treats as refused are those that are not the present offer of such a slave.
-/

namespace Urb

open EStateM (Leaves after_of_error after_of_ok bind_apply bind_eq_ok get_apply pure_apply
  throw_apply)

variable (s : State) (env : Env) (entry : Entry) (m : LaunchTasksMessage) (t : TaskInfo)
  (slaveId : String) {g : Slave → Slave} {p ts : List TaskInfo}

/-! ## Messages and slaves -/

/-- What `launch_tasks` has to know about a slave to forward a message and to mark an offer. -/
structure Berth where
  channel : String
  offer : Option Offer

def Slave.berth (x : Slave) : Berth := ⟨x.channel, x.offer⟩

/-- The messages that were forwarded, and the slaves. -/
structure Relay where
  forwarded : List (String × List String)
  berths : String → Option Berth

def State.relay (s : State) : Relay where
  forwarded := s.forwarded
  berths k := (s.framework.slaves.lookup k).map Slave.berth

open State (relay)

section Leaves

variable (k taskId : String)

theorem relay_log {e : Effect} (he : e.forwards = none) (s : State) :
    (s.log e).relay = s.relay := by
  have hforwarded : (s.log e).forwarded = s.forwarded := by simp [State.forwarded, he]
  simp only [relay, hforwarded]

theorem relay_emit {e : Effect} (he : e.forwards = none) : Leaves relay (emit e) :=
  .modify (relay_log he)

theorem relay_modifyFramework {g : Framework → Framework} (hg : ∀ f, (g f).slaves = f.slaves) :
    Leaves relay (modifyFramework g) := by
  apply Leaves.modify
  intro s
  simp only [relay, hg]
  rfl

theorem relay_setSlave (hg : ∀ x, (g x).berth = x.berth)
    (s : State) : relay { s with framework := s.framework.modifySlave k g } = s.relay := by
  have hberths : ∀ k', ((s.framework.modifySlave k g).slaves.lookup k').map Slave.berth =
      (s.framework.slaves.lookup k').map Slave.berth := by
    intro k'
    rw [Framework.lookup_modifySlave]
    split
    · rename_i heq
      rw [Option.map_map, heq]
      exact Option.map_congr fun x _ => hg x
    · rfl
  simp only [relay, hberths]
  rfl

theorem relay_modifySlave (hg : ∀ x, (g x).berth = x.berth) :
    Leaves relay (modifyFramework (·.modifySlave k g)) := .modify (relay_setSlave k hg)

theorem relay_withSlave {s : State} {k : String} {x y : Slave}
    (hx : s.framework.slaves.lookup k = some x) (hy : y.berth = x.berth) :
    (s.withSlave k y).relay = s.relay := by
  have hberths : ∀ k', ((s.framework.setSlave k y).slaves.lookup k').map Slave.berth =
      (s.framework.slaves.lookup k').map Slave.berth := by
    intro k'
    rw [Framework.slaves_setSlave]
    by_cases hk : k' = k
    · subst hk
      simp [hx, hy]
    · rw [AList.lookup_insert_ne hk]
  simp only [relay, hberths]
  rfl

theorem relay_storeTask (r : TaskRecord) : Leaves relay (storeTask taskId r) :=
  .bind (relay_modifyFramework fun _ => rfl) fun _ => relay_emit rfl

theorem relay_launchOnPlaceholder (v : LaunchVars) :
    Leaves relay (launchOnPlaceholder env t slaveId v) := by
  intro s
  obtain ⟨hslaves, -, hforwarded⟩ := ground_inj (ground_launchOnPlaceholder env t slaveId v s)
  simp only [relay, hslaves, hforwarded]

theorem relay_debitSlave (t : TaskInfo) : Leaves relay (debitSlave env slaveId t) := by
  intro s
  have h := debitSlave_spec env slaveId t s s rfl
  simp only [EStateM.after]
  cases hr : debitSlave env slaveId t s with
  | ok a s' =>
    simp only [hr] at h ⊢
    obtain ⟨x, x1, hx, hmoved, -, rfl⟩ := h
    rw [relay_log rfl]
    exact relay_withSlave hx (by rw [hmoved.rest]; rfl)
  | error e s' =>
    simp only [hr] at h ⊢
    obtain rfl | ⟨x, x', done, hx, -, hmoved, rfl⟩ := h
    · rfl
    · exact relay_withSlave hx (by rw [hmoved.rest]; rfl)

theorem relay_runIfRegistered : Leaves relay (runIfRegistered slaveId taskId) := by
  intro s
  rcases runIfRegistered_after slaveId taskId s with h | ⟨ch, h⟩
  · rw [h]
  · rw [h]
    exact (relay_modifyFramework (fun f => f.slaves_modifyTask _ _)
      (s.log (.runTask ch taskId))).trans
      (relay_log rfl s)

theorem relay_finishOnSlave (v : LaunchVars) :
    Leaves relay (finishOnSlave slaveId taskId v) :=
  .bind (relay_modifySlave _ fun _ => rfl) fun _ => .bind (relay_runIfRegistered _ _) fun _ =>
    .pure _

/-! ### Offers that are refused -/

theorem relay_of_refusal {s s' : State} (h : Refusal s s') : s'.relay = s.relay := by
  cases h with
  | emit e he =>
    refine relay_log ?_ s
    obtain rfl | ⟨channel, rfl⟩ := he <;> rfl
  | modifySlave k g hg =>
    refine relay_setSlave k (fun x => ?_) s
    rw [Slave.berth, (hg x).2.1, (hg x).2.2]
    rfl
  | delete d k => rfl
  | framework f ht hs =>
    simp only [relay, hs]
    rfl

theorem relay_processRemainingOffers (refuseSeconds : Option ℚ) (ids : List String) :
    Leaves relay (processRemainingOffers refuseSeconds ids) :=
  (Refusing.processRemainingOffers refuseSeconds ids).of_steps (fun _ => rfl)
    (fun _ _ _ h h' => h'.trans h) fun _ _ => relay_of_refusal

theorem relay_retry (r : Request) : Leaves relay (retry entry r) := by
  cases entry with
  | queue => exact .modify fun _ => rfl
  | http => exact .pure _

end Leaves

/-! ## One task -/

/-- What is forwarded for a task: all tasks of the message, to the runner of a slave with a job. -/
def Relay.message (r : Relay) (m : LaunchTasksMessage) (t : TaskInfo) :
    Option (String × List String) :=
  t.slave.bind fun k =>
    if isPlaceholder k || (NamingUtility.getJobIdFromSlaveId k).isNone then none
    else (r.berths k).map fun berth => (berth.channel, m.tasks.map (·.taskId))

/-- The messages that are forwarded for several tasks. -/
def Relay.messages (r : Relay) (m : LaunchTasksMessage) (ts : List TaskInfo) :
    List (String × List String) := ts.filterMap (r.message m)

def Relay.send (r : Relay) (messages : List (String × List String)) : Relay :=
  { r with forwarded := r.forwarded ++ messages }

theorem relay_stage : (s.stage m t).relay = s.relay := relay_storeTask t.taskId _ s

theorem offer_recordExecutor (x : Slave) : (recordExecutor t x).offer = x.offer := by
  unfold recordExecutor
  split_ifs <;> rfl

theorem relay_forward (x : Slave) (jobId : String) : (s.forward m t slaveId x jobId).relay =
      s.relay.send [(x.channel, m.tasks.map (·.taskId))] := by
  let s1 := s.log (.launchTasks x.channel (m.tasks.map (·.taskId)))
  have hlog : s1.relay = s.relay.send [(x.channel, m.tasks.map (·.taskId))] := by
    simp [s1, relay, State.forwarded, Relay.send, Effect.forwards]
  have htask := relay_modifyFramework
    (fun f => f.slaves_modifyTask t.taskId ({ · with jobId := some jobId })) s1
  have hslave := relay_setSlave slaveId (g := recordExecutor t)
    (fun y => by rw [Slave.berth, channel_recordExecutor, offer_recordExecutor]; rfl)
    ((modifyFramework (·.modifyTask t.taskId ({ · with jobId := some jobId }))).after s1)
  exact hslave.trans (htask.trans hlog)

theorem launchTask_relay (v : LaunchVars) (s : State) :
    ((launchTask env m t v).after s).relay = s.relay.send (s.relay.message m t).toList := by
  cases hslave : t.slave with
  | none =>
    have hafter : (launchTask env m t v).after s = s := by
      simp [EStateM.after, launchTask, hslave, orRaise, bind_apply, throw_apply]
    simp [hafter, Relay.message, hslave, Relay.send]
  | some k =>
    rw [EStateM.after, launchTask_of_slave hslave, ← EStateM.after]
    cases hplace : isPlaceholder k with
    | true =>
      have hrelay := (relay_launchOnPlaceholder env t k v).bind
        (fun v' => Leaves.pure (some v')) (s.stage m t)
      rw [if_pos rfl, hrelay, relay_stage]
      simp [Relay.message, hslave, hplace, Relay.send]
    | false =>
      rw [if_neg Bool.false_ne_true]
      have hberth : s.relay.berths k =
          ((s.stage m t).framework.slaves.lookup k).map Slave.berth := rfl
      cases hx : (s.stage m t).framework.slaves.lookup k with
      | none =>
        have hafter : (launchOnSlave env m t k v).after (s.stage m t) = s.stage m t := by
          simp only [EStateM.after, launchOnSlave, bind_apply, get_apply, hx,
            pure_apply]
        simp [hafter, relay_stage, Relay.message, hslave, hplace, hberth, hx, Relay.send]
      | some x =>
        cases hjob : NamingUtility.getJobIdFromSlaveId k with
        | none =>
          have hafter : (launchOnSlave env m t k v).after (s.stage m t) = s.stage m t := by
            simp only [EStateM.after, launchOnSlave, bind_apply, get_apply, hx,
              hjob, pure_apply]
          simp [hafter, relay_stage, Relay.message, hslave, hplace, hjob, Relay.send]
        | some jobId =>
          have hrelay := (relay_debitSlave env k t).bind
            (fun _ => relay_finishOnSlave k t.taskId (v.useOffer m x))
            ((s.stage m t).forward m t k x jobId)
          rw [EStateM.after, launchOnSlave_forward env m t v hx hjob, ← EStateM.after, hrelay,
            relay_forward, relay_stage]
          simp [Relay.message, hslave, hplace, hberth, hx, hjob, Slave.berth]

/-! ## The loop over the tasks -/

@[simp]
theorem Relay.message_send (r : Relay) (messages : List (String × List String)) :
    (r.send messages).message = r.message := rfl

theorem Relay.send_send (r : Relay) (ms ms' : List (String × List String)) :
    (r.send ms).send ms' = r.send (ms ++ ms') := by simp [Relay.send]

theorem launchLoop_of_ok {env : Env} {m : LaunchTasksMessage} {t : TaskInfo}
    {v v1 : LaunchVars} {s s1 : State} (hrun : launchTask env m t v s = .ok (some v1) s1) :
    (launchLoop env m (t :: ts) v).after s = (launchLoop env m ts v1).after s1 := by
  simp only [EStateM.after, launchLoop, bind_apply, hrun]

theorem launchLoop_relay (ts : List TaskInfo) (v : LaunchVars) (s : State) :
    ∃ p, p <+: ts ∧ (ts ≠ [] → p ≠ []) ∧
      ((launchLoop env m ts v).after s).relay = s.relay.send (s.relay.messages m p) := by
  induction ts generalizing v s with
  | nil =>
    refine ⟨[], List.nil_prefix, fun h => absurd rfl h, ?_⟩
    simp [Relay.messages, Relay.send, launchLoop]
    rfl
  | cons t ts ih =>
    have hone := launchTask_relay env m t v s
    have hhead : s.relay.messages m [t] = (s.relay.message m t).toList := by
      cases h : s.relay.message m t <;> simp [Relay.messages, h]
    cases hrun : launchTask env m t v s with
    | error e s1 =>
      rw [after_of_error hrun, ← hhead] at hone
      refine ⟨[t], by simp, by simp, ?_⟩
      rw [← hone]
      simp only [launchLoop, EStateM.after, bind_apply, hrun]
    | ok r s1 =>
      rw [after_of_ok hrun] at hone
      cases r with
      | none =>
        refine ⟨[t], by simp, by simp, ?_⟩
        rw [hhead, ← hone]
        simp only [launchLoop, EStateM.after, bind_apply, hrun, pure_apply]
      | some v1 =>
        obtain ⟨p, hinit, -, hrelay⟩ := ih v1 s1
        refine ⟨t :: p, (List.prefix_cons_inj t).mpr hinit, by simp, ?_⟩
        rw [launchLoop_of_ok hrun, hrelay, hone, Relay.send_send]
        congr 1
        cases h : s.relay.message m t <;> simp [Relay.messages, h]

/-! ## Tasks that raise -/

section Launchable

variable {env : Env} {t : TaskInfo} {x : Slave} {k jobId : String}

/-- The slave can be debited for the task, and the executor that is to run it is found: a slave
    that is marked as running command executors has one for the task. -/
structure Launchable (env : Env) (t : TaskInfo) (x : Slave) : Prop where
  resources : t.resources.isSome
  adjustable : Adjustable env.portSubtract x (t.resources.getD [])
  executor : x.isCommandExecutor = true → x.commandExecutors.keys = [] →
    x.executor = none ∧ t.executor = none

theorem recordExecutor_found : ((recordExecutor t x).isCommandExecutor = true →
      t.taskId ∈ (recordExecutor t x).commandExecutors) ↔
    (x.isCommandExecutor = true → x.commandExecutors.keys = [] →
      x.executor = none ∧ t.executor = none) := by
  have hmem : x.commandExecutors.keys = [] → t.taskId ∉ x.commandExecutors := by
    intro h hm
    rw [AList.mem_keys, h] at hm
    cases hm
  by_cases hkeys : x.commandExecutors.keys = []
  · have hempty : x.commandExecutors.keys.isEmpty = true := by rw [hkeys]; rfl
    unfold recordExecutor
    cases hx : x.executor <;> cases ht : t.executor <;> simp [hkeys, hmem hkeys]
  · have hempty : x.commandExecutors.keys.isEmpty = false := by simp [hkeys]
    unfold recordExecutor
    by_cases ht : t.taskId ∈ x.commandExecutors <;> simp [hempty, hkeys, ht]

theorem debitSlave_raises {s : State} (hx : s.framework.slaves.lookup k = some x)
    (h : ¬(t.resources.isSome ∧ Adjustable env.portSubtract x (t.resources.getD []))) :
    ∃ e s', debitSlave env k t s = .error e s' := by
  have hspec := debitSlave_spec env k t s s rfl
  cases hrun : debitSlave env k t s with
  | error e s' => exact ⟨e, s', rfl⟩
  | ok a s' =>
    simp only [hrun] at hspec
    obtain ⟨y, -, hy, -, hadjust, -⟩ := hspec
    obtain rfl : x = y := Option.some.inj (hx.symm.trans hy)
    cases hrs : t.resources with
    | some rs => exact absurd ⟨by rw [hrs]; rfl, hadjust⟩ h
    | none =>
      simp only [debitSlave, bind_apply, onSlave, hx, debitResources, hrs, orRaise,
        throw_apply] at hrun
      cases hrun

theorem runIfRegistered_ok_or_raises {s : State} (hx : s.framework.slaves.lookup k = some x)
    (taskId : String) :
    if x.isCommandExecutor = true → taskId ∈ x.commandExecutors then
      ∃ s', runIfRegistered k taskId s = .ok ⟨⟩ s'
    else runIfRegistered k taskId s = .error (.keyError taskId) s := by
  simp only [runIfRegistered, bind_apply, get_apply, hx, orRaise,
    pure_apply]
  cases hcommand : x.isCommandExecutor with
  | false =>
    rw [if_pos (fun h => absurd h Bool.false_ne_true)]
    cases x.executorChannel with
    | none => exact ⟨s, rfl⟩
    | some ch => exact ⟨_, rfl⟩
  | true =>
    cases hexecutor : x.commandExecutors.lookup taskId with
    | none =>
      have hnot : taskId ∉ x.commandExecutors := AList.lookup_eq_none.mp hexecutor
      simp [hnot, bind_apply, throw_apply]
    | some executor =>
      have hmem : taskId ∈ x.commandExecutors :=
        AList.lookup_isSome.mp (Option.isSome_of_eq_some hexecutor)
      rw [if_pos (fun _ => hmem)]
      simp only [if_true, bind_apply, pure_apply]
      cases executor.channel with
      | none => exact ⟨s, rfl⟩
      | some ch => exact ⟨_, rfl⟩

theorem finishOnSlave_raises_iff {s : State} (v : LaunchVars)
    (hx : s.framework.slaves.lookup k = some x) (taskId : String) :
    (∃ e s', finishOnSlave k taskId v s = .error e s') ↔
      ¬(x.isCommandExecutor = true → taskId ∈ x.commandExecutors) := by
  let s1 : State := { s with framework := s.framework.modifySlave k ({ · with offerable := true }) }
  have hx1 : s1.framework.slaves.lookup k = some { x with offerable := true } := by
    show (s.framework.modifySlave k _).slaves.lookup k = _
    rw [Framework.lookup_modifySlave, if_pos rfl, hx]
    rfl
  have hfinish : finishOnSlave k taskId v s =
      (do runIfRegistered k taskId; pure (some v) : Handler (Option LaunchVars)) s1 := rfl
  have hrun := runIfRegistered_ok_or_raises hx1 taskId
  rw [hfinish, bind_apply]
  by_cases hfound : x.isCommandExecutor = true → taskId ∈ x.commandExecutors
  · rw [if_pos hfound] at hrun
    obtain ⟨s', hs'⟩ := hrun
    simp only [hs', pure_apply]
    exact iff_of_false (fun ⟨_, _, h⟩ => nomatch h) (not_not_intro hfound)
  · rw [if_neg hfound] at hrun
    simp only [hrun]
    exact iff_of_true ⟨_, _, rfl⟩ hfound

theorem launchTask_raises_iff {m : LaunchTasksMessage} (v : LaunchVars) {s : State}
    (hslave : t.slave = some k) (hplace : isPlaceholder k = false)
    (hx : s.framework.slaves.lookup k = some x)
    (hjob : NamingUtility.getJobIdFromSlaveId k = some jobId) :
    (∃ e s', launchTask env m t v s = .error e s') ↔ ¬Launchable env t x := by
  have hx1 : (s.stage m t).framework.slaves.lookup k = some x := hx
  have hx2 : ((s.stage m t).forward m t k x jobId).framework.slaves.lookup k =
      some (recordExecutor t x) := by
    simp [State.forward, Framework.lookup_modifySlave, hx1]
  rw [launchTask_of_slave hslave, hplace, if_neg Bool.false_ne_true,
    launchOnSlave_forward env m t v hx1 hjob, bind_apply]
  generalize (s.stage m t).forward m t k x jobId = s2 at hx2 ⊢
  by_cases hdebit : t.resources.isSome ∧ Adjustable env.portSubtract x (t.resources.getD [])
  · obtain ⟨x3, hrun, -, hhost⟩ := debitSlave_ok_append hx2 hdebit.1
      (by rw [List.append_nil]; exact adjustable_recordExecutor.mpr hdebit.2)
    have hx3 : ((s2.withSlave k x3).log
        (.debited k t.taskId (t.resources.getD []))).framework.slaves.lookup k = some x3 :=
      AList.lookup_insert _
    have hcommand : x3.isCommandExecutor = (recordExecutor t x).isCommandExecutor :=
      congrArg Host.isCommandExecutor hhost
    have hcommands : x3.commandExecutors = (recordExecutor t x).commandExecutors :=
      congrArg Host.commandExecutors hhost
    simp only [hrun]
    rw [finishOnSlave_raises_iff (v.useOffer m x) hx3, hcommand, hcommands, recordExecutor_found]
    exact not_congr ⟨fun h => ⟨hdebit.1, hdebit.2, h⟩, fun h => h.executor⟩
  · obtain ⟨e, s3, hrun⟩ := debitSlave_raises hx2
      (fun h => hdebit ⟨h.1, adjustable_recordExecutor.mp h.2⟩)
    simp only [hrun]
    exact iff_of_true ⟨e, s3, rfl⟩ fun h => hdebit ⟨h.resources, h.adjustable⟩

end Launchable

/-! ## The whole message -/

theorem relay_launchActive (s : State) :
    ((launchActive env m).after s).relay = ((launchLoop env m m.tasks {}).after s).relay := by
  rw [launchActive, EStateM.after_bind]
  cases hrun : launchLoop env m m.tasks {} s with
  | error e s' => rw [after_of_error hrun]
  | ok r s' =>
    rw [after_of_ok hrun]
    cases r with
    | none => rfl
    | some v => exact relay_processRemainingOffers _ _ s'

theorem relay_launchTasks_of_active {s : State} (hactive : s.tracking = .active) :
    ((launchTasks env entry m).after s).relay =
      ((launchLoop env m m.tasks {}).after s.withTaskDict).relay := by
  rw [after_launchTasks env entry m hactive, relay_launchActive]

theorem relay_launchTasks_of_not_active {s : State} (hactive : s.tracking ≠ .active) :
    ((launchTasks env entry m).after s).relay = s.relay := by
  have hafter : (launchTasks env entry m).after s = (retry entry (.launchTasks m)).after s := by
    simp only [EStateM.after, launchTasks, bind_apply, get_apply, if_neg hactive]
  rw [hafter, relay_retry]

/-- The tasks of the messages that were written to a channel. -/
def received (messages : List (String × List String)) (channel : String) : List String :=
  (messages.filter (·.1 = channel)).flatMap (·.2)

/-- The tasks that were sent to a channel between two states. -/
def State.sentTo (s s' : State) (channel : String) : List String :=
  received (s'.forwarded.drop s.forwarded.length) channel

/-- The tasks of a message that name a slave. -/
def LaunchTasksMessage.tasksOn (m : LaunchTasksMessage) (slaveId : String) : List String :=
  (m.tasks.filter (·.slave = some slaveId)).map (·.taskId)

/-- Every slave was sent the tasks that name it, each of them once, and nothing else. -/
def TasksToOwnSlave (m : LaunchTasksMessage) (s s' : State) : Prop :=
  ∀ k x, s.framework.slaves.lookup k = some x → isPlaceholder k = false →
    (s.sentTo s' x.channel).Perm (m.tasksOn k)

section OwnTasks

variable {env : Env} {m : LaunchTasksMessage} {s s' : State} {k : String} {x : Slave}

theorem sentTo_of_relay {messages : List (String × List String)}
    (h : s'.relay = s.relay.send messages) (channel : String) :
    s.sentTo s' channel = received messages channel := by
  have hforwarded : s'.forwarded = s.forwarded ++ messages := congrArg Relay.forwarded h
  rw [State.sentTo, hforwarded, List.drop_left]

theorem message_of_slave {t : TaskInfo} (hslave : t.slave = some k)
    (hplace : isPlaceholder k = false) (hx : s.framework.slaves.lookup k = some x)
    (hjob : (NamingUtility.getJobIdFromSlaveId k).isSome) :
    s.relay.message m t = some (x.channel, m.tasks.map (·.taskId)) := by
  obtain ⟨jobId, hjob⟩ := Option.isSome_iff_exists.mp hjob
  simp [Relay.message, hslave, hplace, relay, hx, hjob, Slave.berth]

theorem slave_of_message {t : TaskInfo} {message : String × List String}
    (h : s.relay.message m t = some message) :
    message.2 = m.tasks.map (·.taskId) ∧
      ∃ k x, t.slave = some k ∧ isPlaceholder k = false ∧
        s.framework.slaves.lookup k = some x ∧
        (NamingUtility.getJobIdFromSlaveId k).isSome ∧ message.1 = x.channel := by
  obtain ⟨k, hslave, h⟩ := Option.bind_eq_some_iff.mp h
  split at h
  · cases h
  · rename_i hlive
    simp only [Bool.or_eq_true, not_or, Bool.not_eq_true, Option.isNone_eq_false_iff] at hlive
    obtain ⟨berth, hberth, rfl⟩ := Option.map_eq_some_iff.mp h
    obtain ⟨x, hx, rfl⟩ := Option.map_eq_some_iff.mp hberth
    exact ⟨rfl, k, x, hslave, hlive.1, hx, hlive.2, rfl⟩

theorem length_received (s : State) (m : LaunchTasksMessage) (p : List TaskInfo)
    (channel : String) :
    (received (s.relay.messages m p) channel).length =
      ((s.relay.messages m p).filter (·.1 = channel)).length * m.tasks.length := by
  rw [received, List.length_flatMap, List.map_eq_replicate_iff (b := m.tasks.length) |>.mpr ?_]
  · simp
  · intro message hmessage
    obtain ⟨t, -, ht⟩ := List.mem_filterMap.mp (List.mem_of_mem_filter hmessage)
    rw [(slave_of_message ht).1, List.length_map]

/-- The tasks of the message are all for one slave with a job and a channel of its own, and the
    message is forwarded once: there is one task, or the first one raises. -/
structure ForwardedOnce (env : Env) (m : LaunchTasksMessage) (s : State) (k : String) (x : Slave) :
    Prop where
  tracked : s.tracking = .active
  slave : s.framework.slaves.lookup k = some x
  running : isPlaceholder k = false
  tasks : ∀ t ∈ m.tasks, t.slave = some k
  job : (NamingUtility.getJobIdFromSlaveId k).isSome
  alone : ∀ k' x', s.framework.slaves.lookup k' = some x' → isPlaceholder k' = false →
    x'.channel = x.channel → k' = k
  once : m.tasks.length = 1 ∨ ∃ t ∈ m.tasks.head?, ¬Launchable env t x

theorem all_on_slave (hown : (received (s.relay.messages m p) x.channel).Perm
    (m.tasksOn k)) (hne : m.tasksOn k ≠ []) :
    ((s.relay.messages m p).filter (·.1 = x.channel)).length = 1 ∧
      ∀ t ∈ m.tasks, t.slave = some k := by
  have hlength := hown.length_eq
  rw [length_received, LaunchTasksMessage.tasksOn, List.length_map] at hlength
  have hpos : 0 < (m.tasks.filter (·.slave = some k)).length := by
    apply List.length_pos_of_ne_nil
    rintro hnil
    exact hne (by rw [LaunchTasksMessage.tasksOn, hnil]; rfl)
  have hle := List.length_filter_le (·.slave = some k) m.tasks
  have hone : ((s.relay.messages m p).filter (·.1 = x.channel)).length = 1 := by
    generalize ((s.relay.messages m p).filter (·.1 = x.channel)).length = c at hlength ⊢
    -- more than one message would have more tasks than there are
    rcases c with _ | _ | c
    · omega
    · rfl
    · have hmul : 2 * m.tasks.length ≤ (c + 1 + 1) * m.tasks.length :=
        Nat.mul_le_mul_right _ (by omega)
      omega
  refine ⟨hone, fun t ht => ?_⟩
  rw [hone, one_mul] at hlength
  simpa using List.length_filter_eq_length_iff.mp hlength.symm t ht

theorem messages_of_all (hplace : isPlaceholder k = false)
    (hx : s.framework.slaves.lookup k = some x)
    (hjob : (NamingUtility.getJobIdFromSlaveId k).isSome)
    (hall : ∀ t ∈ p, t.slave = some k) :
    s.relay.messages m p = List.replicate p.length (x.channel, m.tasks.map (·.taskId)) := by
  induction p with
  | nil => rfl
  | cons t p ih =>
    have ht := message_of_slave (m := m) (hall t List.mem_cons_self) hplace hx hjob
    rw [Relay.messages, List.filterMap_cons_some ht, List.length_cons, List.replicate_succ,
      ← ih fun t' ht' => hall t' (List.mem_cons_of_mem _ ht')]
    rfl

theorem launchTasks_relay (env : Env) (entry : Entry) (m : LaunchTasksMessage) (s : State) :
    ∃ p, p <+: m.tasks ∧ (s.tracking = .active → m.tasks ≠ [] → p ≠ []) ∧
      (p ≠ [] → s.tracking = .active) ∧
      ((launchTasks env entry m).after s).relay = s.relay.send (s.relay.messages m p) := by
  by_cases hactive : s.tracking = .active
  · obtain ⟨p, hinit, hne, hrelay⟩ := launchLoop_relay env m m.tasks {} s.withTaskDict
    refine ⟨p, hinit, fun _ => hne, fun _ => hactive, ?_⟩
    rw [relay_launchTasks_of_active env entry m hactive]
    exact hrelay
  · refine ⟨[], List.nil_prefix, fun h => absurd h hactive, fun h => absurd rfl h, ?_⟩
    rw [relay_launchTasks_of_not_active env entry m hactive]
    simp [Relay.messages, Relay.send]

/-- With several tasks for the slave, the message is forwarded again unless the first one
    raises. -/
theorem forwarded_once_iff (entry : Entry) (hactive : s.tracking = .active)
    (hplace : isPlaceholder k = false) (hx : s.framework.slaves.lookup k = some x)
    (hjob : (NamingUtility.getJobIdFromSlaveId k).isSome) (hall : ∀ t ∈ m.tasks, t.slave = some k)
    {t : TaskInfo} {rest : List TaskInfo} (htasks : m.tasks = t :: rest) (hrest : rest ≠ []) :
    ((launchTasks env entry m).after s).relay =
      s.relay.send [(x.channel, m.tasks.map (·.taskId))] ↔ ¬Launchable env t x := by
  have hslave : t.slave = some k := hall t (by rw [htasks]; exact List.mem_cons_self)
  have hx' : s.withTaskDict.framework.slaves.lookup k = some x := hx
  obtain ⟨jobId, hjobId⟩ := Option.isSome_iff_exists.mp hjob
  have hone := launchTask_relay env m t {} s.withTaskDict
  rw [message_of_slave hslave hplace hx' hjob] at hone
  rw [← launchTask_raises_iff (m := m) {} hslave hplace hx' hjobId,
    relay_launchTasks_of_active env entry m hactive, htasks, ← htasks]
  have hlaunched := launchTask_launched env m t {} s.withTaskDict
  cases hrun : launchTask env m t {} s.withTaskDict with
  | error e s1 =>
    rw [after_of_error hrun] at hone
    have hloop : (launchLoop env m (t :: rest) {}).after s.withTaskDict = s1 := by
      simp only [EStateM.after, launchLoop, bind_apply, hrun]
    exact iff_of_true (by rw [htasks, hloop, hone, ← htasks]; rfl) ⟨e, s1, rfl⟩
  | ok r s1 =>
    rw [after_of_ok hrun] at hone
    cases r with
    | none =>
      -- the loop ends early only at a slave without a job
      rw [hrun] at hlaunched
      cases hlaunched with
      | started hslave' _ h =>
        obtain rfl : _ = k := Option.some.inj (hslave'.symm.trans hslave)
        cases h with
        | jobless _ h => rw [hjobId] at h; cases h
    | some v1 =>
      obtain ⟨p, hinit, hne, hrelay⟩ := launchLoop_relay env m rest v1 s1
      refine iff_of_false (fun h => ?_) (by rintro ⟨_, _, ⟨⟩⟩)
      have hmessages : s1.relay.messages m p = s.relay.messages m p := by rw [hone]; rfl
      have hp := messages_of_all (m := m) hplace hx hjob (p := p) fun t' ht' => hall t' (by
        rw [htasks]
        exact List.mem_cons_of_mem _ (hinit.subset ht'))
      have hsame : s.withTaskDict.relay = s.relay := rfl
      rw [htasks, launchLoop_of_ok hrun, hrelay, hmessages, hone, Relay.send_send, ← htasks, hp,
        hsame] at h
      have hforwarded := congrArg (fun r : Relay => r.forwarded.length) h
      have hlength := List.length_pos_iff.mpr (hne hrest)
      simp only [Relay.send, List.length_append, List.length_replicate, Option.toList_some,
        List.length_singleton] at hforwarded
      omega

theorem forwardedOnce_of_own {entry : Entry}
    (hown : TasksToOwnSlave m s ((launchTasks env entry m).after s))
    (hx : s.framework.slaves.lookup k = some x) (hrunning : isPlaceholder k = false)
    (htasksOn : m.tasksOn k ≠ []) : ForwardedOnce env m s k x := by
  obtain ⟨p, hinit, -, htracked, hrelay⟩ := launchTasks_relay env entry m s
  have hsent := sentTo_of_relay hrelay
  have hperm := hown k x hx hrunning
  rw [hsent] at hperm
  obtain ⟨hone, hall⟩ := all_on_slave hperm htasksOn
  have hp : ∀ t ∈ p, t.slave = some k := fun t ht => hall t (hinit.subset ht)
  -- the one message is for a task on the slave, which has a job
  obtain ⟨message, hmessage⟩ := List.exists_mem_of_length_pos (hone ▸ Nat.one_pos)
  obtain ⟨t, ht, htask⟩ := List.mem_filterMap.mp (List.mem_of_mem_filter hmessage)
  have hjob : (NamingUtility.getJobIdFromSlaveId k).isSome := by
    obtain ⟨-, k', -, hslave', -, -, hjob, -⟩ := slave_of_message htask
    rwa [Option.some.inj ((hp t ht).symm.trans hslave')]
  have hactive := htracked (List.ne_nil_of_mem ht)
  have hmessages := messages_of_all (m := m) hrunning hx hjob hp
  have hlength : p.length = 1 := by simpa [hmessages] using hone
  rw [hmessages, hlength] at hrelay
  refine ⟨hactive, hx, hrunning, hall, hjob, fun k' x' hx' hrunning' hchannel => ?_, ?_⟩
  · -- a slave with the same channel got the same tasks, which name the first slave
    have hperm' := hown k' x' hx' hrunning'
    rw [hsent, hchannel] at hperm'
    have hne' : m.tasksOn k' ≠ [] := fun h =>
      htasksOn ((hperm.symm.trans hperm').trans (h ▸ .refl _)).eq_nil
    have hall' := (all_on_slave (x := x) hperm' hne').2 t (hinit.subset ht)
    exact Option.some.inj (hall'.symm.trans (hp t ht))
  · cases htasks : m.tasks with
    | nil => simp [LaunchTasksMessage.tasksOn, htasks] at htasksOn
    | cons t1 rest =>
      by_cases hrest : rest = []
      · exact .inl (by rw [hrest]; rfl)
      · refine .inr ⟨t1, rfl, ?_⟩
        exact (forwarded_once_iff entry hactive hrunning hx hjob hall htasks hrest).mp hrelay

theorem ForwardedOnce.relay (h : ForwardedOnce env m s k x) (entry : Entry) :
    ((launchTasks env entry m).after s).relay =
      s.relay.send [(x.channel, m.tasks.map (·.taskId))] := by
  obtain ⟨p, hinit, hne, -, hrelay⟩ := launchTasks_relay env entry m s
  have hmessages := messages_of_all (m := m) h.running h.slave h.job (p := p)
    fun t ht => h.tasks t (hinit.subset ht)
  by_cases hone : m.tasks.length = 1
  · have hlength : p.length = 1 := by
      have hle := hinit.length_le
      have hpos := List.length_pos_iff.mpr
        (hne h.tracked (List.ne_nil_of_length_pos (by omega)))
      omega
    rw [hrelay, hmessages, hlength]
    rfl
  · obtain ⟨t, ht, hraises⟩ := h.once.resolve_left hone
    obtain ⟨rest, htasks⟩ := List.head?_eq_some_iff.mp ht
    have hrest : rest ≠ [] := by
      rintro rfl
      exact hone (by rw [htasks]; rfl)
    exact (forwarded_once_iff entry h.tracked h.running h.slave h.job h.tasks htasks hrest).mpr
      hraises

theorem ForwardedOnce.own (h : ForwardedOnce env m s k x) (entry : Entry) :
    TasksToOwnSlave m s ((launchTasks env entry m).after s) := by
  intro k' x' hx' hrunning'
  rw [sentTo_of_relay (h.relay entry)]
  by_cases hk : k' = k
  · subst hk
    obtain rfl : x' = x := Option.some.inj (hx'.symm.trans h.slave)
    have hfilter : m.tasks.filter (·.slave = some k') = m.tasks :=
      List.filter_eq_self.mpr fun t ht => by simpa using h.tasks t ht
    rw [LaunchTasksMessage.tasksOn, hfilter]
    simp [received]
  · have hchannel : x.channel ≠ x'.channel := fun heq =>
      hk (h.alone k' x' hx' hrunning' heq.symm)
    have hfilter : m.tasks.filter (·.slave = some k') = [] :=
      List.filter_eq_nil_iff.mpr fun t ht => by simpa [h.tasks t ht] using Ne.symm hk
    rw [LaunchTasksMessage.tasksOn, hfilter]
    simp [received, hchannel]

theorem own_of_placeholders {entry : Entry}
    (h : ∀ t ∈ m.tasks, ∀ k, t.slave = some k → isPlaceholder k = true) :
    TasksToOwnSlave m s ((launchTasks env entry m).after s) := by
  intro k x hx hrunning
  obtain ⟨p, hinit, -, -, hrelay⟩ := launchTasks_relay env entry m s
  have hmessages : s.relay.messages m p = [] := by
    apply List.filterMap_eq_nil_iff.mpr
    intro t ht
    cases hmessage : s.relay.message m t with
    | none => rfl
    | some message =>
      obtain ⟨-, k', -, hslave, hrunning', -⟩ := slave_of_message hmessage
      have hplace := h t (hinit.subset ht) k' hslave
      rw [hrunning'] at hplace
      cases hplace
  have hfilter : m.tasks.filter (·.slave = some k) = [] := by
    apply List.filter_eq_nil_iff.mpr
    intro t ht hslave
    have hplace := h t ht k (by simpa using hslave)
    rw [hrunning] at hplace
    cases hplace
  rw [sentTo_of_relay hrelay, hmessages, LaunchTasksMessage.tasksOn, hfilter]
  exact .refl _

end OwnTasks

/-- Of a message with tasks for slaves, the slaves are sent their own tasks once each only if all
    tasks are for one slave and the message is forwarded once, since every message that is
    forwarded has all tasks. -/
theorem tasks_to_own_slave_iff (env : Env) (entry : Entry) (m : LaunchTasksMessage) (s : State)
    (hnamed : ∀ t ∈ m.tasks, ∃ k, t.slave = some k ∧
      (isPlaceholder k = true ∨ k ∈ s.framework.slaves)) :
    TasksToOwnSlave m s ((launchTasks env entry m).after s) ↔
      (∀ t ∈ m.tasks, ∀ k, t.slave = some k → isPlaceholder k = true) ∨
        ∃ k x, ForwardedOnce env m s k x := by
  constructor
  · intro hown
    by_cases hplaces : ∀ t ∈ m.tasks, ∀ k, t.slave = some k → isPlaceholder k = true
    · exact .inl hplaces
    · push Not at hplaces
      obtain ⟨t, ht, k, hslave, hrunning⟩ := hplaces
      obtain ⟨k', hslave', hk'⟩ := hnamed t ht
      obtain rfl : k' = k := Option.some.inj (hslave'.symm.trans hslave)
      obtain ⟨x, hx⟩ := Option.isSome_iff_exists.mp
        (AList.lookup_isSome.mpr (hk'.resolve_left hrunning))
      have htasksOn : m.tasksOn k' ≠ [] :=
        List.ne_nil_of_mem (List.mem_map_of_mem (List.mem_filter.mpr ⟨ht, by simpa using hslave⟩))
      exact .inr ⟨k', x, forwardedOnce_of_own hown hx (by simpa using hrunning) htasksOn⟩
  · rintro (hplaces | ⟨k, x, h⟩)
    · exact own_of_placeholders hplaces
    · exact h.own entry

/-- A message with one task. -/
theorem tasks_to_own_slave_one_task :
    TasksToOwnSlave { tasks := [Sample.task "t"] } Site.sampleState
      ((launchTasks Sample.env .queue { tasks := [Sample.task "t"] }).after Site.sampleState) := by
  obtain ⟨x, hx⟩ := Option.isSome_iff_exists.mp
    (show (Site.sampleState.framework.slaves.lookup Sample.slaveId).isSome by decide)
  refine (tasks_to_own_slave_iff Sample.env .queue _ Site.sampleState ?_).mpr
    (.inr ⟨Sample.slaveId, x, by decide, hx, by decide, by decide, by decide, ?_, .inl rfl⟩)
  · intro t ht
    rw [List.mem_singleton.mp ht]
    exact ⟨Sample.slaveId, rfl, by decide⟩
  · intro k' x' hx' _ _
    have hkeys : Site.sampleState.framework.slaves.keys = [Sample.slaveId] := by decide
    have hmem := AList.lookup_isSome.mp (Option.isSome_of_eq_some hx')
    rw [AList.mem_keys, hkeys] at hmem
    exact List.mem_singleton.mp hmem

/-- A task for a place-holder is sent to the runner of another task's slave, and of two tasks for
    one slave each is sent twice. -/
theorem tasks_to_other_slave :
    let mixed : LaunchTasksMessage :=
      { tasks := [Sample.task "t", { taskId := "u", slaveId := some "place-holder" }] }
    let both : LaunchTasksMessage := { tasks := [Sample.task "t", Sample.task "u"] }
    let after m := (launchTasks Sample.env .queue m).after Site.sampleState
    Site.sampleState.sentTo (after mixed) "runner" = ["t", "u"] ∧
      ¬TasksToOwnSlave mixed Site.sampleState (after mixed) ∧
      Site.sampleState.sentTo (after both) "runner" = ["t", "u", "t", "u"] ∧
      ¬TasksToOwnSlave both Site.sampleState (after both) := by
  intro mixed both after
  have hmixed : Site.sampleState.sentTo (after mixed) "runner" = ["t", "u"] := by decide +kernel
  have hboth : Site.sampleState.sentTo (after both) "runner" = ["t", "u", "t", "u"] := by
    decide +kernel
  obtain ⟨x, hx, hchannel⟩ := Option.map_eq_some_iff.mp
    (show (Site.sampleState.framework.slaves.lookup Sample.slaveId).map (·.channel) = some "runner"
      by decide +kernel)
  refine ⟨hmixed, fun h => ?_, hboth, fun h => ?_⟩
  · have hown := h Sample.slaveId x hx (by decide)
    rw [hchannel, hmixed] at hown
    exact absurd hown.length_eq (by decide +kernel)
  · have hown := h Sample.slaveId x hx (by decide)
    rw [hchannel, hboth] at hown
    exact absurd hown.length_eq (by decide +kernel)

/-! ## The offers that are left -/

section Offers

variable {env : Env} {m : LaunchTasksMessage} {t : TaskInfo} {v v' : LaunchVars} {s s' : State}

/-- The offer that a task marks as used: the present offer of the slave that it names, if the
    message has it. -/
def Relay.uses (r : Relay) (m : LaunchTasksMessage) (t : TaskInfo) : Option String :=
  t.slave.bind fun k =>
    if isPlaceholder k then none
    else (((r.berths k).bind (·.offer)).map (·.id)).filter (· ∈ m.offerIds)

theorem usedOffers_useOffer (v : LaunchVars) (m : LaunchTasksMessage) (x : Slave) :
    (v.useOffer m x).usedOffers =
      ((x.offer.map (·.id)).filter (· ∈ m.offerIds)).toList ++ v.usedOffers := by
  unfold LaunchVars.useOffer
  cases x.offer with
  | none => rfl
  | some offer =>
    by_cases hoffer : offer.id ∈ m.offerIds <;> simp [hoffer, Option.filter]

theorem usedOffers_launchTask (h : launchTask env m t v s = .ok (some v') s') :
    v'.usedOffers = (s.relay.uses m t).toList ++ v.usedOffers := by
  cases hslave : t.slave with
  | none =>
    simp only [launchTask, hslave, orRaise, bind_apply, throw_apply] at h
    cases h
  | some k =>
    have hberth : s.relay.berths k =
        ((s.stage m t).framework.slaves.lookup k).map Slave.berth := rfl
    rw [launchTask_of_slave hslave] at h
    cases hplace : isPlaceholder k with
    | true =>
      rw [hplace, if_pos rfl] at h
      obtain ⟨v1, _, hrun, h⟩ := bind_eq_ok.mp h
      cases h
      simp [usedOffers_launchOnPlaceholder hrun, Relay.uses, hslave, hplace]
    | false =>
      rw [hplace, if_neg Bool.false_ne_true] at h
      have hstarted := launchOnSlave_started env m t k v (s.stage m t)
      rw [h] at hstarted
      cases hstarted with
      | unknown hx => simp [Relay.uses, hslave, hplace, hberth, hx]
      | running hx =>
        simp [Relay.uses, hslave, hplace, hberth, hx, usedOffers_useOffer, Slave.berth]

theorem mem_usedOffers_launchLoop
    (h : launchLoop env m ts v s = .ok (some v') s') (offerId : String) :
    offerId ∈ v'.usedOffers ↔
      offerId ∈ v.usedOffers ∨ ∃ t ∈ ts, s.relay.uses m t = some offerId := by
  induction ts generalizing v s with
  | nil =>
    cases h
    simp
  | cons t ts ih =>
    obtain ⟨r, s1, hrun, h⟩ := bind_eq_ok.mp h
    cases r with
    | none => cases h
    | some v1 =>
      have hrelay := launchTask_relay env m t v s
      rw [after_of_ok hrun] at hrelay
      have huses : s1.relay.uses m = s.relay.uses m := by rw [hrelay]; rfl
      rw [ih h, huses, usedOffers_launchTask hrun]
      simp only [List.mem_append, Option.mem_toList, List.mem_cons, exists_eq_or_imp]
      tauto

end Offers

/-- The offers that `launch_tasks` passes to `__process_remaining_offers`, if it gets there. -/
def refusedOffers (env : Env) (m : LaunchTasksMessage) (s : State) : Option (List String) :=
  if s.tracking = .active then
    match launchLoop env m m.tasks {} s.withTaskDict with
    | .ok (some v) _ => some (v.remainingOffers m)
    | _ => none
  else none

/-- A task of the message names the slave. -/
def LaunchTasksMessage.Names (m : LaunchTasksMessage) (slaveId : String) : Prop :=
  ∃ t ∈ m.tasks, t.slave = some slaveId

/-- The offer is the present one of a running slave that a task names. -/
def PresentOffer (m : LaunchTasksMessage) (s : State) (offerId : String) : Prop :=
  ∃ k x offer, m.Names k ∧ isPlaceholder k = false ∧ s.framework.slaves.lookup k = some x ∧
    x.offer = some offer ∧ offer.id = offerId

/-- The offers that are refused are those of the message that were made for slaves or place-holders
    that no task names. -/
def RefusesUnused (m : LaunchTasksMessage) (s : State) (ids : List String) : Prop :=
  ∀ offerId, offerId ∈ ids ↔ offerId ∈ m.offerIds ∧
    ∃ offer, s.framework.offers.lookup offerId = some offer ∧ ¬m.Names offer.slaveId

/-- What the framework has of the offers of a message fits to the slaves: an offer for a slave or
    place-holder that a task names is the present offer of a running slave that a task names, and so
    is an offer that is not recorded; an offer for another slave is not. -/
structure OffersFit (m : LaunchTasksMessage) (s : State) : Prop where
  recorded : ∀ id ∈ m.offerIds, s.framework.offers.lookup id = none → PresentOffer m s id
  named : ∀ id ∈ m.offerIds, ∀ offer, s.framework.offers.lookup id = some offer →
    m.Names offer.slaveId → PresentOffer m s id
  unnamed : ∀ id ∈ m.offerIds, ∀ offer, s.framework.offers.lookup id = some offer →
    PresentOffer m s id → m.Names offer.slaveId

theorem uses_iff_presentOffer (s : State) {offerId : String} (hoffer : offerId ∈ m.offerIds) :
    (∃ t ∈ m.tasks, s.relay.uses m t = some offerId) ↔ PresentOffer m s offerId := by
  constructor
  · rintro ⟨t, ht, huses⟩
    obtain ⟨k, hslave, huses⟩ := Option.bind_eq_some_iff.mp huses
    split at huses
    · cases huses
    · rename_i hrunning
      obtain ⟨huses, -⟩ := Option.filter_eq_some_iff.mp huses
      obtain ⟨offer, hoffer, hid⟩ := Option.map_eq_some_iff.mp huses
      obtain ⟨berth, hberth, hoffer⟩ := Option.bind_eq_some_iff.mp hoffer
      obtain ⟨x, hx, rfl⟩ := Option.map_eq_some_iff.mp hberth
      exact ⟨k, x, offer, ⟨t, ht, hslave⟩, by simpa using hrunning, hx, hoffer, hid⟩
  · rintro ⟨k, x, offer, ⟨t, ht, hslave⟩, hrunning, hx, hpresent, rfl⟩
    refine ⟨t, ht, ?_⟩
    simp [Relay.uses, hslave, hrunning, relay, hx, Slave.berth, hpresent, hoffer]

theorem mem_refusedOffers {env : Env} {m : LaunchTasksMessage} {s : State} {ids : List String}
    (h : refusedOffers env m s = some ids) (id : String) :
    id ∈ ids ↔ id ∈ m.offerIds ∧ ¬PresentOffer m s id := by
  unfold refusedOffers at h
  split at h
  · cases hrun : launchLoop env m m.tasks {} s.withTaskDict with
    | error e s1 => simp only [hrun] at h; cases h
    | ok r s1 =>
      cases r with
      | none => simp only [hrun] at h; cases h
      | some v =>
        simp only [hrun, Option.some.injEq] at h
        have hused := mem_usedOffers_launchLoop hrun id
        have hrelay : s.withTaskDict.relay = s.relay := rfl
        rw [hrelay] at hused
        rw [← h, LaunchVars.remainingOffers, List.mem_filter, List.mem_dedup]
        refine and_congr_right fun hid => ?_
        rw [← uses_iff_presentOffer m s hid, decide_eq_true_iff, hused]
        simp
  · cases h

/-- The offers that no task uses, and only those, are refused exactly if the offers of the message
    are the present ones of their slaves and no task names the place-holder of an offer. -/
theorem unused_offers_refused_iff (env : Env) (m : LaunchTasksMessage) (s : State)
    (ids : List String) (h : refusedOffers env m s = some ids) :
    RefusesUnused m s ids ↔ OffersFit m s := by
  have hids := mem_refusedOffers h
  constructor
  · intro hrefuses
    have hiff : ∀ id ∈ m.offerIds, (¬PresentOffer m s id ↔
        ∃ offer, s.framework.offers.lookup id = some offer ∧ ¬m.Names offer.slaveId) := by
      intro id hid
      have heq := (hids id).symm.trans (hrefuses id)
      simpa [hid] using heq
    refine ⟨fun id hid hnone => ?_, fun id hid offer hoffer hnames => ?_,
      fun id hid offer hoffer hpresent => ?_⟩
    · by_contra hpresent
      obtain ⟨offer, hoffer, -⟩ := (hiff id hid).mp hpresent
      rw [hnone] at hoffer
      cases hoffer
    · by_contra hpresent
      obtain ⟨offer', hoffer', hunnamed⟩ := (hiff id hid).mp hpresent
      obtain rfl : offer' = offer := Option.some.inj (hoffer'.symm.trans hoffer)
      exact hunnamed hnames
    · by_contra hunnamed
      exact (hiff id hid).mpr ⟨offer, hoffer, hunnamed⟩ hpresent
  · intro hfit id
    rw [hids id]
    refine and_congr_right fun hid => ?_
    constructor
    · intro hpresent
      cases hoffer : s.framework.offers.lookup id with
      | none => exact absurd (hfit.recorded id hid hoffer) hpresent
      | some offer =>
        exact ⟨offer, rfl, fun hnames => hpresent (hfit.named id hid offer hoffer hnames)⟩
    · rintro ⟨offer, hoffer, hunnamed⟩ hpresent
      exact hunnamed (hfit.unnamed id hid offer hoffer hpresent)

namespace Sample

/-- The framework has an offer of the slave. -/
def slaveOffered : State :=
  ([.event (.queued (.registerExecutorRunner runner)), .event (.clock 1),
    .generate 1 true].foldl (OfferService.step Sample.env) { state := start }).state

/-- The framework has an offer of a place-holder. -/
def placeholderOffered : State :=
  ([.event (.clock 1), .generate 1 true].foldl (OfferService.step Sample.env)
    { state := start }).state

end Sample

/-- The offer of the slave is accepted. -/
theorem unused_offers_refused_accepted :
    RefusesUnused { tasks := [Sample.task "t"], offerIds := ["offer-framework-1"] }
      Sample.slaveOffered [] := by
  refine (unused_offers_refused_iff Sample.env _ Sample.slaveOffered []
    (by decide +kernel)).mpr ?_
  have hnames : LaunchTasksMessage.Names
      { tasks := [Sample.task "t"], offerIds := ["offer-framework-1"] } Sample.slaveId :=
    ⟨Sample.task "t", List.mem_singleton_self _, rfl⟩
  have hpresent : PresentOffer
      { tasks := [Sample.task "t"], offerIds := ["offer-framework-1"] } Sample.slaveOffered
      "offer-framework-1" := by
    obtain ⟨offer, hoffer, hid⟩ := Option.map_eq_some_iff.mp
      (show ((Sample.slaveOffered.framework.slaves.lookup Sample.slaveId).bind (·.offer)).map
        (·.id) = some "offer-framework-1" by decide +kernel)
    obtain ⟨x, hx, hoffer⟩ := Option.bind_eq_some_iff.mp hoffer
    exact ⟨Sample.slaveId, x, offer, hnames, by decide, hx, hoffer, hid⟩
  refine ⟨?_, ?_, ?_⟩
  · intro id hid _
    rwa [List.mem_singleton.mp hid]
  · intro id hid _ _ _
    rwa [List.mem_singleton.mp hid]
  · intro id hid offer hoffer _
    have hslave : (Sample.slaveOffered.framework.offers.lookup id).map (·.slaveId) =
        some Sample.slaveId := by
      rw [List.mem_singleton.mp hid]
      decide +kernel
    rw [hoffer] at hslave
    have heq : offer.slaveId = Sample.slaveId := Option.some.inj hslave
    rwa [heq]

/-- The offer of a place-holder is accepted, and it is treated as refused. -/
theorem accepted_placeholder_refused :
    let m : LaunchTasksMessage :=
      { tasks := [{ taskId := "t", slaveId := some "place-holder-1" }]
        offerIds := ["offer-framework-1"] }
    (Sample.placeholderOffered.framework.offers.lookup "offer-framework-1").map (·.slaveId) =
        some "place-holder-1" ∧
      refusedOffers Sample.env m Sample.placeholderOffered = some ["offer-framework-1"] ∧
      ¬RefusesUnused m Sample.placeholderOffered ["offer-framework-1"] := by
  intro m
  have hslave : (Sample.placeholderOffered.framework.offers.lookup "offer-framework-1").map
      (·.slaveId) = some "place-holder-1" := by decide +kernel
  refine ⟨hslave, by decide +kernel, fun h => ?_⟩
  obtain ⟨-, offer, hoffer, hunnamed⟩ := (h "offer-framework-1").mp (List.mem_singleton_self _)
  rw [hoffer] at hslave
  exact hunnamed ⟨_, List.mem_singleton_self _, hslave.symm⟩

end Urb
