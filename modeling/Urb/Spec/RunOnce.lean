import Urb.ForStd.Run
import Urb.Spec.Launch
import Urb.Spec.Postprocess

/-!
# Where tasks are run

A task for a slave with executors of its own is to be sent to its executor once, when both the
task was launched and the executor has registered. The slave has one `executor_channel`, which is
that of the executor that registered last, whatever its id; and an executor that registers gets all
tasks of the slave that are staging, also those of other executors and those that were sent before.
-/

namespace Urb

open EStateM (Keeps Leaves Triple after_bind after_bind_of_ok bind_apply get_apply pure_apply)

variable {rest : List Resource} {s : State} {x : Slave} {g : Slave → Slave} {slaveId : String}
    {t : TaskInfo}

/-! ## What the messages depend on -/

/-- The channel on which the effect runs a task. -/
def Effect.runs (taskId : String) : Effect → Option String
  | .runTask channel task => if task = taskId then some channel else none
  | _ => none

/-- The channels on which a task was run. -/
def State.runs (s : State) (taskId : String) : List String :=
  s.effects.filterMap (Effect.runs taskId)

/-- What a slave is to its executors. -/
structure Host where
  channel : String
  isCommandExecutor : Bool
  commandExecutors : Dict CommandExecutor
  executorChannel : Option String
  taskCount : Int
  deriving DecidableEq

def Slave.host (x : Slave) : Host where
  channel := x.channel
  isCommandExecutor := x.isCommandExecutor
  commandExecutors := x.commandExecutors
  executorChannel := x.executorChannel
  taskCount := x.taskCount

/-- What a record tells an executor that registers. -/
structure Errand where
  taskId : String
  hasTaskId : Bool
  state : TaskState
  jobId : Option String

def TaskRecord.errand (r : TaskRecord) : Errand where
  taskId := r.taskInfo.taskId
  hasTaskId := r.taskInfo.hasTaskId
  state := r.state
  jobId := r.jobId

/-- The deletion is one of a task or of the slave. -/
def DeleteElement.hits (slaveId : String) (de : DeleteElement) : Bool :=
  de.dict == .tasks || de == ⟨.slaves, slaveId⟩

/-- What the messages to the executors of a slave depend on. -/
structure Desk where
  tracking : Tracking
  strayTask : Option TaskRecord
  hosts : String → Option Host
  errands : String → Option Errand
  hit : List DeleteElement
  runs : String → List String

def State.desk (slaveId : String) (s : State) : Desk where
  tracking := s.tracking
  strayTask := s.framework.strayTask
  hosts k := (s.framework.slaves.lookup k).map Slave.host
  errands k := (s.framework.tasks.lookup k).map TaskRecord.errand
  hit := s.deleteElements.filter (·.hits slaveId)
  runs := s.runs

open State (desk)

/-! ## Code that leaves the desk alone -/

section Leaves

variable {slaveId : String}

variable (k : String) (maxRejectedOffers : Nat) (refuseSeconds : Option ℚ)

theorem desk_log {e : Effect} (he : ∀ k, e.runs k = none) (s : State) :
    (s.log e).desk slaveId = s.desk slaveId := by
  have hruns : (s.log e).runs = s.runs := by
    funext k
    simp [State.runs, he]
  simp only [desk, hruns]

theorem desk_emit {e : Effect} (he : ∀ k, e.runs k = none) :
    Leaves (desk slaveId) (emit e) := .modify (desk_log he)

theorem desk_mapHost (g : Slave → Slave) (s : State) :
    desk slaveId { s with framework := s.framework.modifySlave k g } =
      { s.desk slaveId with
        hosts := fun k' =>
          if k' = k then (s.framework.slaves.lookup k).map fun x => (g x).host
          else (s.desk slaveId).hosts k' } := by
  have hhosts : (fun k' => ((s.framework.modifySlave k g).slaves.lookup k').map Slave.host) =
      fun k' => if k' = k then (s.framework.slaves.lookup k).map fun x => (g x).host
        else (s.framework.slaves.lookup k').map Slave.host := by
    funext k'
    rw [Framework.lookup_modifySlave]
    split
    · rw [Option.map_map]
      rfl
    · rfl
  simp only [desk, hhosts, Framework.tasks_modifySlave]
  obtain ⟨d, hd⟩ := s.framework.exists_modifySlave k g
  rw [hd]
  rfl

theorem desk_setHost {k : String}
    (hg : ∀ x, s.framework.slaves.lookup k = some x → (g x).host = x.host) :
    desk slaveId { s with framework := s.framework.modifySlave k g } = s.desk slaveId := by
  rw [desk_mapHost]
  have hhosts : (fun k' => if k' = k then (s.framework.slaves.lookup k).map fun x => (g x).host
      else (s.desk slaveId).hosts k') = (s.desk slaveId).hosts := by
    funext k'
    split
    · rename_i heq
      subst heq
      exact Option.map_congr hg
    · rfl
  rw [hhosts]

theorem desk_modifySlave (hg : ∀ x, (g x).host = x.host) :
    Leaves (desk slaveId) (modifyFramework (·.modifySlave k g)) :=
  .modify fun _ => desk_setHost fun x _ => hg x

theorem desk_withSlave (x : Slave) (s : State) : (s.withSlave k x).desk slaveId =
      { s.desk slaveId with
        hosts := fun k' => if k' = k then some x.host else (s.desk slaveId).hosts k' } := by
  have hhosts : (fun k' => ((s.framework.setSlave k x).slaves.lookup k').map Slave.host) =
      fun k' => if k' = k then some x.host else (s.framework.slaves.lookup k').map Slave.host := by
    funext k'
    rw [Framework.slaves_setSlave]
    split
    · rename_i heq
      rw [heq, AList.lookup_insert]
      rfl
    · rename_i hne
      rw [AList.lookup_insert_ne hne]
  simp only [desk, hhosts]
  rfl

theorem desk_setErrand (g : TaskRecord → TaskRecord) (s : State) :
    desk slaveId { s with framework := s.framework.modifyTask k g } =
      { s.desk slaveId with
        errands := fun k' =>
          if k' = k then (s.framework.tasks.lookup k).map fun r => (g r).errand
          else (s.desk slaveId).errands k' } := by
  have herrands : (fun k' => ((s.framework.modifyTask k g).tasks.lookup k').map TaskRecord.errand) =
      fun k' => if k' = k then (s.framework.tasks.lookup k).map fun r => (g r).errand
        else (s.framework.tasks.lookup k').map TaskRecord.errand := by
    funext k'
    rw [Framework.lookup_modifyTask]
    split
    · rw [Option.map_map]
      rfl
    · rfl
  simp only [desk, herrands, Framework.slaves_modifyTask]
  obtain ⟨d, hd⟩ := s.framework.exists_modifyTask k g
  rw [hd]
  rfl

theorem desk_modifyFramework {g : Framework → Framework}
    (hg : ∀ f, (g f).tasks = f.tasks ∧ (g f).slaves = f.slaves ∧ (g f).strayTask = f.strayTask) :
    Leaves (desk slaveId) (modifyFramework g) := by
  apply Leaves.modify
  intro s
  obtain ⟨ht, hs, hstray⟩ := hg s.framework
  simp only [desk, ht, hs, hstray]
  rfl

theorem desk_addDeleteElement {d : DictRef} {k : String}
    (h : DeleteElement.hits slaveId ⟨d, k⟩ = false) :
    Leaves (desk slaveId) (addDeleteElement d k) := by
  apply Leaves.modify
  intro s
  simp only [desk, List.filter_append, List.filter_cons, h]
  simp
  rfl

theorem desk_deleteSlave {k : String} (hk : k ≠ slaveId) :
    Leaves (desk slaveId) (deleteSlave k) := by
  refine .bind (desk_addDeleteElement (by simp [DeleteElement.hits, hk])) fun _ =>
    .bind (desk_modifySlave _ fun _ => rfl) fun _ => desk_modifyFramework fun f => ?_
  unfold Framework.forgetPlaceholder
  split
  · exact ⟨rfl, rfl, rfl⟩
  · exact ⟨rfl, rfl, rfl⟩

theorem desk_scaleUp (env : Env) (scaleCount : Option Nat) :
    Leaves (desk slaveId) (scaleUp env scaleCount) := by
  refine .bind .get fun _ => .ite (.pure _) (.bind ?_ fun _ =>
    .bind (desk_modifyFramework fun _ => ⟨rfl, rfl, rfl⟩) fun _ => .pure _)
  refine .bind .get fun s => ?_
  split
  · exact .bind (desk_emit fun _ => rfl) fun _ => .pure _
  · exact .pure _

theorem desk_taskInDocker (entries : List (Sigma fun _ : String => TaskRecord)) :
    Leaves (desk slaveId) (taskInDocker k entries) := by
  induction entries with
  | nil => exact .pure _
  | cons e rest ih =>
    refine .ite (.bind ?_ fun _ => .bind ih fun _ => .pure _) ih
    cases e.2.taskInfo.slaveId with
    | none => exact .throw _
    | some id => exact .pure id

/-! ### Offers that are refused -/

theorem desk_refuseSlave (offerId k : String) (hx : k = slaveId → 0 < x.taskCount) (t : Option ℚ) :
    Leaves (desk slaveId) (refuseSlave maxRejectedOffers refuseSeconds offerId k x t) := by
  unfold refuseSlave
  have hoffer : Leaves (desk slaveId) (addDeleteElement .offers offerId) :=
    desk_addDeleteElement rfl
  split
  · exact .bind hoffer fun _ => .bind (desk_modifySlave _ fun _ => rfl) fun _ => .pure _
  · rename_i hcount
    have hk : k ≠ slaveId := fun heq => hcount (hx heq)
    exact .bind .get fun _ => .bind (desk_modifySlave _ fun _ => rfl) fun _ =>
      .bind (.ite (.pure _) hoffer) fun _ =>
      .bind (.ite (.bind (desk_emit fun _ => rfl) fun _ => desk_deleteSlave hk) (.pure _)) fun _ =>
      .pure _

/-- The slave has tasks. -/
def Desk.Busy (slaveId : String) (d : Desk) : Prop :=
  ∀ h, d.hosts slaveId = some h → 0 < h.taskCount

/-- If the slave has tasks, the desk is left alone. -/
def SparesDesk (slaveId : String) (s s' : State) : Prop :=
  (s.desk slaveId).Busy slaveId → s'.desk slaveId = s.desk slaveId

theorem SparesDesk.trans {s' s'' : State} (h : SparesDesk slaveId s s')
    (h' : SparesDesk slaveId s' s'') :
    SparesDesk slaveId s s'' := by
  intro hbusy
  have heq := h hbusy
  exact (h' (heq ▸ hbusy)).trans heq

instance SparesDesk.isPreorder : IsPreorder State (SparesDesk slaveId) where
  refl _ _ := rfl
  trans _ _ _ := trans

theorem SparesDesk.of_leaves {α : Type} {x : Handler α} (hx : Leaves (desk slaveId) x) :
    Keeps (SparesDesk slaveId) x := fun s _ => hx s

theorem sparesDesk_refuseOffer (offerId : String) (t : Option ℚ) :
    Keeps (SparesDesk slaveId) (refuseOffer maxRejectedOffers refuseSeconds offerId t) := by
  apply Keeps.get_bind
  intro s hbusy
  dsimp only
  split
  · rfl
  · rename_i offer _
    split
    · rename_i x hx
      refine desk_refuseSlave _ _ _ _ (fun heq => ?_) _ s
      exact hbusy x.host (by simp [desk, ← heq, hx])
    · split
      · refine (Leaves.bind .get fun _ => ?_ : Leaves (desk slaveId)
          (refusePlaceholder refuseSeconds offerId t)) s
        exact .ite (.bind (desk_modifyFramework fun _ => ⟨rfl, rfl, rfl⟩) fun _ => .pure _)
          (.bind (desk_addDeleteElement rfl) fun _ => .pure _)
      · rfl

theorem sparesDesk_refuseOffers (ids : List String) (t : Option ℚ) :
    Keeps (SparesDesk slaveId) (refuseOffers maxRejectedOffers refuseSeconds ids t) := by
  induction ids generalizing t with
  | nil => exact .pure _
  | cons id ids ih => exact .bind (sparesDesk_refuseOffer _ _ _ _) fun t => ih t

theorem sparesDesk_processRemainingOffers (ids : List String) :
    Keeps (SparesDesk slaveId) (processRemainingOffers refuseSeconds ids) := by
  refine .bind .get fun s => .bind (.orRaise _ _) fun n =>
    .bind (sparesDesk_refuseOffers _ _ _ _) fun t => SparesDesk.of_leaves (.ite (.pure _) ?_)
  exact .bind (desk_modifyFramework fun _ => ⟨rfl, rfl, rfl⟩) fun _ =>
    .bind .get fun _ => .ite (desk_emit fun _ => rfl) (.throw _)

end Leaves

/-! ## Debits that do not raise -/

section Debit

theorem adjustResources_append
    (ports : List PortRange → List PortRange → Except PyError (List PortRange)) (sign : ℚ)
    (rs rs' : List Resource) :
    adjustResources ports sign (rs ++ rs') =
      (do adjustResources ports sign rs; adjustResources ports sign rs') := by
  induction rs with
  | nil => rfl
  | cons r rs ih => simp only [List.cons_append, adjustResources, ih, bind_assoc]

theorem debitResources_ok {env : Env} (hresources : t.resources.isSome)
    (h : Adjustable env.portSubtract x (t.resources.getD [] ++ rest)) :
    ∃ x', debitResources env t x = .ok ⟨⟩ x' ∧ Adjustable env.portSubtract x' rest ∧
      x'.host = { x.host with taskCount := x.taskCount + 1 } := by
  obtain ⟨rs, hrs⟩ := Option.isSome_iff_exists.mp hresources
  rw [hrs, Option.getD_some] at h
  have hall : Triple (· = x) (adjustResources env.portSubtract (-1) (rs ++ rest)) _ _ :=
    adjustResources_spec (rs ++ rest) x
  have hfirst : Triple (· = x) (adjustResources env.portSubtract (-1) rs) _ _ :=
    adjustResources_spec rs x
  have hall := hall x rfl
  have hfirst := hfirst x rfl
  rw [adjustResources_append, bind_apply] at hall
  cases hrun : adjustResources env.portSubtract (-1) rs x with
  | error e x1 =>
    simp only [hrun] at hall
    exact absurd h hall.2
  | ok _ x1 =>
    simp only [hrun] at hall hfirst
    have hrest : Triple (· = x1) (adjustResources env.portSubtract (-1) rest) _ _ :=
      adjustResources_spec rest x1
    have hrest := hrest x1 rfl
    cases hrun' : adjustResources env.portSubtract (-1) rest x1 with
    | error e x2 =>
      simp only [hrun'] at hall
      exact absurd h hall.2
    | ok _ x2 =>
      simp only [hrun'] at hrest
      refine ⟨{ x1 with taskCount := x1.taskCount + 1 }, ?_, ⟨hrest.2.fits, hrest.2.portsOk⟩, ?_⟩
      · simp [debitResources, hrs, orRaise, bind_apply, pure_apply, hrun,
          EStateM.modify_apply]
      · have hsame := hfirst.1.rest
        rw [hsame]
        rfl

theorem debitSlave_ok_append {env : Env} (hx : s.framework.slaves.lookup slaveId = some x)
    (hresources : t.resources.isSome)
    (h : Adjustable env.portSubtract x (t.resources.getD [] ++ rest)) :
    ∃ x', debitSlave env slaveId t s = .ok ⟨⟩ ((s.withSlave slaveId x').log
        (.debited slaveId t.taskId (t.resources.getD []))) ∧
      Adjustable env.portSubtract x' rest ∧
      x'.host = { x.host with taskCount := x.taskCount + 1 } := by
  obtain ⟨x', hrun, hrest, hhost⟩ := debitResources_ok hresources h
  refine ⟨x', ?_, hrest, hhost⟩
  simp only [debitSlave, bind_apply, onSlave, hx, hrun]
  rfl

end Debit

/-! ## A task that is launched -/

/-- What the desk is after a task was launched on the slave. -/
def Desk.launch (slaveId jobId : String) (d : Desk) (t : TaskInfo) : Desk :=
  { d with
    hosts := fun k =>
      if k = slaveId then (d.hosts k).map fun h => { h with taskCount := h.taskCount + 1 }
      else d.hosts k
    errands := fun k =>
      if k = t.taskId then
        some
          { taskId := t.taskId, hasTaskId := t.hasTaskId, state := .staging, jobId := some jobId }
      else d.errands k
    runs := fun k =>
      if k = t.taskId then d.runs k ++ ((d.hosts slaveId).bind (·.executorChannel)).toList
      else d.runs k }

namespace Desk

variable {slaveId jobId : String} {ts : List TaskInfo}

theorem launches_rest (d : Desk) : (ts.foldl (launch slaveId jobId) d).tracking = d.tracking ∧
      (ts.foldl (launch slaveId jobId) d).strayTask = d.strayTask ∧
      (ts.foldl (launch slaveId jobId) d).hit = d.hit := by
  induction ts generalizing d with
  | nil => exact ⟨rfl, rfl, rfl⟩
  | cons t ts ih => exact ih (d.launch slaveId jobId t)

theorem launches_hosts (d : Desk) (k : String) : (ts.foldl (launch slaveId jobId) d).hosts k =
      if k = slaveId then
        (d.hosts k).map fun h => { h with taskCount := h.taskCount + ts.length }
      else d.hosts k := by
  induction ts generalizing d with
  | nil => simp
  | cons t ts ih =>
    rw [List.foldl_cons, ih]
    by_cases hk : k = slaveId
    · simp only [hk, launch, if_true, Option.map_map]
      congr 1
      funext h
      simp only [Function.comp_apply, List.length_cons, Nat.cast_add, Nat.cast_one, Host.mk.injEq,
        true_and]
      omega
    · simp [hk, launch]

theorem launches_errands (hids : ∀ t ∈ ts, t.hasTaskId = true) (d : Desk) (k : String) :
    (ts.foldl (launch slaveId jobId) d).errands k =
      if k ∈ ts.map (·.taskId) then
        some { taskId := k, hasTaskId := true, state := .staging, jobId := some jobId }
      else d.errands k := by
  induction ts generalizing d with
  | nil => simp
  | cons t ts ih =>
    rw [List.foldl_cons, ih fun t' ht' => hids t' (List.mem_cons_of_mem _ ht')]
    have ht := hids t List.mem_cons_self
    by_cases hk : k = t.taskId
    · simp [hk, launch, ht]
    · simp [hk, launch]

theorem launches_runs (hnodup : (ts.map (·.taskId)).Nodup) (d : Desk) (k : String) :
    (ts.foldl (launch slaveId jobId) d).runs k =
      d.runs k ++ if k ∈ ts.map (·.taskId) then
        ((d.hosts slaveId).bind (·.executorChannel)).toList else [] := by
  induction ts generalizing d with
  | nil => simp
  | cons t ts ih =>
    rw [List.map_cons, List.nodup_cons] at hnodup
    have hchannel : ((d.launch slaveId jobId t).hosts slaveId).bind (·.executorChannel) =
        (d.hosts slaveId).bind (·.executorChannel) := by
      simp only [launch, if_true]
      cases d.hosts slaveId <;> rfl
    rw [List.foldl_cons, ih hnodup.2, hchannel]
    by_cases hk : k = t.taskId
    · -- the task does not come again
      subst hk
      simp [launch, hnodup.1]
    · simp [launch, hk]

end Desk

section Launch

variable {env : Env} {m : LaunchTasksMessage} {t : TaskInfo} {slaveId jobId : String} {s : State}
  {x : Slave}

theorem host_recordExecutor (ht : t.executor.isSome) (hx : x.commandExecutors = ∅) :
    (recordExecutor t x).host = x.host := by
  have hkeys : x.commandExecutors.keys.isEmpty = true := by
    rw [hx]
    rfl
  unfold recordExecutor
  simp only [hkeys, ht, Bool.and_true, Bool.not_true, if_true]
  split
  · rfl
  · rfl

theorem adjustable_recordExecutor {ports} {rs : List Resource} :
    Adjustable ports (recordExecutor t x) rs ↔ Adjustable ports x rs := by
  have hsame : ∀ y : Slave, y.ports = x.ports → (∀ r : Resource, r.Fits y ↔ r.Fits x) →
      (Adjustable ports y rs ↔ Adjustable ports x rs) := by
    intro y hports hfits
    constructor
    · exact fun h => ⟨fun r hr => (hfits r).mp (h.fits r hr), hports ▸ h.portsOk⟩
    · exact fun h => ⟨fun r hr => (hfits r).mpr (h.fits r hr), hports ▸ h.portsOk⟩
  unfold recordExecutor
  dsimp only
  split_ifs <;> exact hsame _ rfl fun _ => Iff.rfl

theorem desk_forward (m : LaunchTasksMessage) (jobId : String)
    (hx : s.framework.slaves.lookup slaveId = some x) (ht : t.executor.isSome)
    (hcommand : x.commandExecutors = ∅) :
    ((s.stage m t).forward m t slaveId x jobId).desk slaveId =
      { s.desk slaveId with
        errands := fun k =>
          if k = t.taskId then
            some { taskId := t.taskId, hasTaskId := t.hasTaskId, state := .staging,
                   jobId := some jobId }
          else (s.desk slaveId).errands k } := by
  let s1 : State :=
    { s.stage m t with
      framework := (s.stage m t).framework.modifyTask t.taskId ({ · with jobId := some jobId }) }
  have hforward : ((s.stage m t).forward m t slaveId x jobId).desk slaveId = s1.desk slaveId := by
    have hhost : ∀ x', s1.framework.slaves.lookup slaveId = some x' →
        (recordExecutor t x').host = x'.host := by
      intro x' hx'
      rw [Framework.slaves_modifyTask] at hx'
      cases hx.symm.trans hx'
      exact host_recordExecutor ht hcommand
    exact (desk_log (fun _ => rfl) _).trans (desk_setHost hhost)
  have hstage : (s.stage m t).desk slaveId =
      { s.desk slaveId with
        errands := fun k =>
          if k = t.taskId then some (stagingRecord m s.clock t).errand
          else (s.desk slaveId).errands k } := by
    have herrands : (fun k => ((s.stage m t).framework.tasks.lookup k).map TaskRecord.errand) =
        fun k => if k = t.taskId then some (stagingRecord m s.clock t).errand
          else (s.framework.tasks.lookup k).map TaskRecord.errand := by
      funext k
      split
      · rename_i heq
        rw [heq, State.lookup_stage]
        rfl
      · rename_i hne
        rw [(WorksOn.stage s m t).others k hne]
    have hruns : (s.stage m t).runs = s.runs := by
      funext k
      simp [State.runs, State.stage, Effect.runs]
    simp only [desk, herrands, hruns]
    rfl
  rw [hforward, desk_setErrand, State.lookup_stage, hstage]
  dsimp only
  congr 1
  funext k
  split
  · rfl
  · rfl

theorem runTask_desk (slaveId channel taskId : String) (s : State) :
    ∃ s', runTask channel taskId s = .ok ⟨⟩ s' ∧ s'.framework.slaves = s.framework.slaves ∧
      s'.desk slaveId =
        { s.desk slaveId with
          runs := fun k =>
            if k = taskId then (s.desk slaveId).runs k ++ [channel]
            else (s.desk slaveId).runs k } := by
  refine ⟨_, rfl, Framework.slaves_modifyTask _ _ _, ?_⟩
  have hruns : (s.log (.runTask channel taskId)).runs =
      fun k => if k = taskId then s.runs k ++ [channel] else s.runs k := by
    funext k
    by_cases hk : k = taskId
    · simp [State.runs, Effect.runs, hk]
    · simp [State.runs, Effect.runs, hk, Ne.symm hk]
  refine (desk_setErrand taskId TaskRecord.sent (s.log (.runTask channel taskId))).trans ?_
  have herrands : (fun k => if k = taskId then
      (s.framework.tasks.lookup taskId).map fun r => r.sent.errand
      else (s.framework.tasks.lookup k).map TaskRecord.errand) =
      fun k => (s.framework.tasks.lookup k).map TaskRecord.errand := by
    funext k
    split
    · rename_i heq
      rw [heq]
      rfl
    · rfl
  simp only [desk, hruns, herrands]

theorem finishOnSlave_desk (v : LaunchVars) (hx : s.framework.slaves.lookup slaveId = some x)
    (hcommand : x.isCommandExecutor = false) :
    ∃ s', finishOnSlave slaveId t.taskId v s = .ok (some v) s' ∧
      s'.framework.slaves.lookup slaveId = some { x with offerable := true } ∧
      s'.desk slaveId =
        { s.desk slaveId with
          runs := fun k =>
            if k = t.taskId then (s.desk slaveId).runs k ++ x.executorChannel.toList
            else (s.desk slaveId).runs k } := by
  let s1 : State :=
    { s with framework := s.framework.modifySlave slaveId ({ · with offerable := true }) }
  have hdesk : s1.desk slaveId = s.desk slaveId := desk_setHost fun _ _ => rfl
  have hx1 : s1.framework.slaves.lookup slaveId = some { x with offerable := true } := by
    show (s.framework.modifySlave slaveId _).slaves.lookup slaveId = _
    rw [Framework.lookup_modifySlave, if_pos rfl, hx]
    rfl
  have hfinish : finishOnSlave slaveId t.taskId v s =
      (do runIfRegistered slaveId t.taskId; pure (some v) : Handler (Option LaunchVars)) s1 := rfl
  have hnone (hchannel : x.executorChannel = none) :
      runIfRegistered slaveId t.taskId s1 = .ok () s1 := by
    simp only [runIfRegistered, bind_apply, get_apply, hx1, orRaise, pure_apply, hcommand, hchannel]
    rfl
  have hsome {channel} (hchannel : x.executorChannel = some channel) :
      runIfRegistered slaveId t.taskId s1 = runTask channel t.taskId s1 := by
    simp only [runIfRegistered, bind_apply, get_apply, hx1, orRaise, pure_apply, hcommand, hchannel]
    rfl
  rw [hfinish, bind_apply]
  generalize { x with offerable := true } = x' at hx1 ⊢
  cases hchannel : x.executorChannel with
  | none =>
    rw [hnone hchannel]
    refine ⟨s1, rfl, hx1, ?_⟩
    rw [hdesk]
    simp
  | some channel =>
    obtain ⟨s2, hok, hslaves, hdesk2⟩ := runTask_desk slaveId channel t.taskId s1
    refine ⟨s2, ?_, hslaves ▸ hx1, ?_⟩
    · rw [hsome hchannel, hok]
      rfl
    · rw [hdesk2, hdesk]
      rfl

theorem launchTask_desk (m : LaunchTasksMessage) (v : LaunchVars)
    (hplace : isPlaceholder slaveId = false)
    (hjob : NamingUtility.getJobIdFromSlaveId slaveId = some jobId)
    (hslave : t.slave = some slaveId) (hexecutor : t.executor.isSome)
    (hresources : t.resources.isSome) (hx : s.framework.slaves.lookup slaveId = some x)
    (hcommand : x.isCommandExecutor = false) (hcommands : x.commandExecutors = ∅)
    (hadjust : Adjustable env.portSubtract x (t.resources.getD [] ++ rest)) :
    ∃ v' s' x', launchTask env m t v s = .ok (some v') s' ∧
      s'.framework.slaves.lookup slaveId = some x' ∧
      x'.host = { x.host with taskCount := x.taskCount + 1 } ∧
      Adjustable env.portSubtract x' rest ∧
      s'.desk slaveId = (s.desk slaveId).launch slaveId jobId t := by
  rw [launchTask_of_slave hslave, hplace]
  simp only [Bool.false_eq_true, if_false]
  have hx1 : (s.stage m t).framework.slaves.lookup slaveId = some x := hx
  rw [launchOnSlave_forward env m t v hx1 hjob, bind_apply]
  have hdesk := desk_forward m jobId hx hexecutor hcommands
  have hx2 : ((s.stage m t).forward m t slaveId x jobId).framework.slaves.lookup slaveId =
      some (recordExecutor t x) := by
    simp [State.forward, Framework.lookup_modifySlave, hx1]
  generalize (s.stage m t).forward m t slaveId x jobId = s2 at hdesk hx2 ⊢
  obtain ⟨x3, hdebit, hrest, hhost⟩ := debitSlave_ok_append hx2 hresources
    (adjustable_recordExecutor.mpr hadjust)
  have hx3 : ((s2.withSlave slaveId x3).log
      (.debited slaveId t.taskId (t.resources.getD []))).framework.slaves.lookup slaveId =
      some x3 := AList.lookup_insert _
  have hhost3 : x3.host = { x.host with taskCount := x.taskCount + 1 } := by
    have hrecord := host_recordExecutor hexecutor hcommands
    rw [hhost, hrecord]
    exact congrArg (fun n => { x.host with taskCount := n + 1 }) (congrArg Host.taskCount hrecord)
  have hcommand3 : x3.isCommandExecutor = false :=
    (congrArg Host.isCommandExecutor hhost3).trans hcommand
  have hchannel3 : x3.executorChannel = x.executorChannel :=
    congrArg Host.executorChannel hhost3
  obtain ⟨s4, hfinish, hx4, hdesk4⟩ := finishOnSlave_desk (t := t) (v.useOffer m x) hx3 hcommand3
  refine ⟨v.useOffer m x, s4, _, ?_, hx4, hhost3, ⟨hrest.fits, hrest.portsOk⟩, ?_⟩
  · simp only [hdebit]
    exact hfinish
  · have hhosts : (s.desk slaveId).hosts slaveId = some x.host := by simp [desk, hx]
    rw [hdesk4, desk_log (fun _ => rfl), desk_withSlave, hdesk, hchannel3, hhost3]
    simp only [Desk.launch, Desk.mk.injEq, true_and]
    refine ⟨?_, ?_⟩
    · funext k
      split
      · rename_i heq
        rw [heq, hhosts]
        rfl
      · rfl
    · rw [hhosts]
      rfl

theorem launchLoop_desk {ts : List TaskInfo} (v : LaunchVars)
    (hplace : isPlaceholder slaveId = false)
    (hjob : NamingUtility.getJobIdFromSlaveId slaveId = some jobId)
    (htasks : ∀ t ∈ ts, t.slave = some slaveId ∧ t.executor.isSome ∧ t.resources.isSome)
    (hx : s.framework.slaves.lookup slaveId = some x)
    (hcommand : x.isCommandExecutor = false) (hcommands : x.commandExecutors = ∅)
    (hadjust : Adjustable env.portSubtract x (ts.flatMap fun t => t.resources.getD [])) :
    ∃ v' s', launchLoop env m ts v s = .ok (some v') s' ∧
      s'.desk slaveId = ts.foldl (Desk.launch slaveId jobId) (s.desk slaveId) := by
  induction ts generalizing s x v with
  | nil => exact ⟨v, s, rfl, rfl⟩
  | cons t ts ih =>
    obtain ⟨hslave, hexecutor, hresources⟩ := htasks t List.mem_cons_self
    obtain ⟨v1, s1, x1, hrun, hx1, hhost, hadjust1, hdesk⟩ :=
      launchTask_desk m v hplace hjob hslave hexecutor hresources hx hcommand hcommands hadjust
    obtain ⟨v2, s2, hrun2, hdesk2⟩ := ih v1 (fun t' ht' => htasks t' (List.mem_cons_of_mem _ ht'))
      hx1 ((congrArg Host.isCommandExecutor hhost).trans hcommand)
      ((congrArg Host.commandExecutors hhost).trans hcommands) hadjust1
    refine ⟨v2, s2, ?_, ?_⟩
    · simp only [launchLoop, bind_apply, hrun]
      exact hrun2
    · rw [hdesk2, hdesk]
      rfl

/-- A whole message. The slave has tasks when the offers that are left are refused, so that it is
    not given up. -/
theorem launchTasks_desk (hactive : s.tracking = .active) (hplace : isPlaceholder slaveId = false)
    (hjob : NamingUtility.getJobIdFromSlaveId slaveId = some jobId) (hne : m.tasks ≠ [])
    (htasks : ∀ t ∈ m.tasks, t.slave = some slaveId ∧ t.executor.isSome ∧ t.resources.isSome)
    (hx : s.framework.slaves.lookup slaveId = some x) (hcount : 0 ≤ x.taskCount)
    (hcommand : x.isCommandExecutor = false) (hcommands : x.commandExecutors = ∅)
    (hadjust : Adjustable env.portSubtract x (m.tasks.flatMap fun t => t.resources.getD [])) :
    ((launchTasks env .queue m).after s).desk slaveId =
      m.tasks.foldl (Desk.launch slaveId jobId) (s.desk slaveId) := by
  have hdict : s.withTaskDict.desk slaveId = s.desk slaveId := rfl
  have hx' : s.withTaskDict.framework.slaves.lookup slaveId = some x := hx
  obtain ⟨v, s1, hrun, hdesk⟩ := launchLoop_desk (m := m) {} hplace hjob htasks hx' hcommand
    hcommands hadjust
  rw [hdict] at hdesk
  have hbusy : (s1.desk slaveId).Busy slaveId := by
    intro h hh
    rw [hdesk, Desk.launches_hosts, if_pos rfl] at hh
    simp only [desk, hx, Option.map_some, Option.some.injEq] at hh
    rw [← hh]
    have hlength := List.length_pos_iff.mpr hne
    simp only [Slave.host]
    omega
  have hafter : (launchTasks env .queue m).after s =
      (processRemainingOffers m.refuseSeconds (v.remainingOffers m)).after s1 := by
    rw [after_launchTasks env .queue m hactive, launchActive, after_bind, hrun]
  rw [hafter, ← hdesk]
  exact sparesDesk_processRemainingOffers _ _ s1 hbusy

end Launch

/-! ## An executor that registers -/

/-- The task is sent to an executor of the job that registers. -/
def Errand.waits (jobId : String) (e : Errand) : Bool :=
  decide (e.state = .staging ∧ e.jobId.getD "0" = jobId)

/-- What the desk is after an executor registered on the slave. -/
def Desk.register (slaveId jobId channel : String) (d : Desk) : Desk :=
  { d with
    hosts := fun k =>
      if k = slaveId then (d.hosts k).map fun h => { h with executorChannel := some channel }
      else d.hosts k
    runs := fun k => d.runs k ++ if (d.errands k).any (·.waits jobId) then [channel] else [] }

section Register

variable {env : Env} {slaveId jobId : String} {m : RegisterExecutorMessage} {s : State} {x : Slave}

theorem startTasks_desk (slaveId : String) (m : RegisterExecutorMessage) (s : State)
    {entries : List (Sigma fun _ : String => TaskRecord)}
    (hkeys : entries.NodupKeys)
    (hids : ∀ e ∈ entries, e.2.errand.waits jobId = true →
      e.2.taskInfo.hasTaskId = true ∧ e.2.taskInfo.taskId = e.1) :
    ∃ s', startTasks .queue m slaveId jobId false entries s = .ok ⟨⟩ s' ∧
      s'.desk slaveId =
        { s.desk slaveId with
          runs := fun k => (s.desk slaveId).runs k ++
            if (entries.dlookup k).any (·.errand.waits jobId) then [m.channel] else [] } := by
  induction entries generalizing s with
  | nil => exact ⟨s, rfl, by simp⟩
  | cons e rest ih =>
    obtain ⟨k0, r⟩ := e
    rw [List.nodupKeys_cons] at hkeys
    obtain ⟨hnew, hkeys⟩ := hkeys
    have ih := fun s => @ih s hkeys fun e he => hids e (List.mem_cons_of_mem _ he)
    have hlookup : ∀ k, List.dlookup k (⟨k0, r⟩ :: rest) =
        if k = k0 then some r else rest.dlookup k := by
      intro k
      by_cases hk : k = k0
      · subst hk
        simp
      · rw [List.dlookup_cons_ne _ _ hk, if_neg hk]
    have hrest : rest.dlookup k0 = none := List.dlookup_eq_none.mpr hnew
    by_cases hwaits : r.errand.waits jobId = true
    · obtain ⟨hid, hkey⟩ := hids _ List.mem_cons_self hwaits
      dsimp only at hid hkey
      obtain ⟨s1, hrun, _, hdesk1⟩ := runTask_desk slaveId m.channel k0 s
      obtain ⟨s2, hrun2, hdesk2⟩ := ih s1
      refine ⟨s2, ?_, ?_⟩
      · have hcond : r.state = .staging ∧ r.jobId.getD "0" = jobId := of_decide_eq_true hwaits
        simp only [startTasks, startTask, hcond, and_self, if_true, hid, hkey, Bool.false_eq_true,
          if_false, bind_apply, hrun]
        exact hrun2
      · rw [hdesk2, hdesk1]
        simp only [Desk.mk.injEq, true_and]
        funext k
        rw [hlookup]
        by_cases hk : k = k0
        · -- the task is not in the rest of the list
          subst hk
          simp [hrest, hwaits]
        · simp [hk]
    · obtain ⟨s2, hrun2, hdesk2⟩ := ih s
      refine ⟨s2, ?_, ?_⟩
      · have hcond : ¬(r.state = .staging ∧ r.jobId.getD "0" = jobId) := fun hcond =>
          hwaits (decide_eq_true hcond)
        simp only [startTasks, startTask, hcond, if_false, bind_apply, pure_apply]
        exact hrun2
      · rw [hdesk2]
        simp only [Desk.mk.injEq, true_and]
        funext k
        rw [hlookup]
        by_cases hk : k = k0
        · subst hk
          simp [hrest, hwaits]
        · simp [hk]

theorem slaveOfExecutor_eq (hx : s.framework.slaves.lookup slaveId = some x)
    (hchannel : x.channel = m.replyTo)
    (honly : ∀ k x, s.framework.slaves.lookup k = some x → x.channel = m.replyTo → k = slaveId) :
    s.framework.slaveOfExecutor .queue m = some ⟨slaveId, x⟩ := by
  unfold Framework.slaveOfExecutor
  dsimp only
  cases hfind : s.framework.slaves.entries.find? fun e => e.2.channel == m.replyTo with
  | none =>
    have := List.find?_eq_none.mp hfind ⟨slaveId, x⟩ (AList.mem_lookup_iff.mp hx)
    simp [hchannel] at this
  | some e =>
    have hmem := AList.mem_lookup_iff.mpr (List.mem_of_find?_eq_some hfind)
    have heq : e.1 = slaveId := honly e.1 e.2 hmem (by simpa using List.find?_some hfind)
    obtain ⟨k, y⟩ := e
    dsimp only at heq hmem
    subst heq
    rw [Option.some.inj (hx.symm.trans hmem)]

/-- The part of `register_executor` after the executor was told that it is registered. -/
def startOnSlave (env : Env) (m : RegisterExecutorMessage) (slaveId jobId : String) (x : Slave) :
    Handler Unit := do
  let s ← get
  let _ ← orRaise s.framework.taskDict .attributeError
  let entries ← taskEntries
  startTasks .queue m slaveId jobId x.isCommandExecutor entries
  let inDocker ← taskInDocker slaveId entries
  if x.executor.bind (·.container) = some .docker ∨ inDocker ∨ x.isCommandExecutor then pure ()
  else do
    let _ ← scaleUp env none
    pure ()

theorem startOnSlave_desk (hcommand : x.isCommandExecutor = false)
    (hstray : s.framework.strayTask = none)
    (hids : ∀ k e, (s.desk slaveId).errands k = some e → e.waits jobId = true →
      e.hasTaskId = true ∧ e.taskId = k) :
    ((startOnSlave env m slaveId jobId x).after s).desk slaveId =
      { s.desk slaveId with
        runs := fun k => (s.desk slaveId).runs k ++
          if ((s.desk slaveId).errands k).any (·.waits jobId) then [m.channel] else [] } := by
  rw [startOnSlave, after_bind_of_ok (get_apply s)]
  cases hdict : s.framework.taskDict with
  | none =>
    -- there is no task that could be sent
    have hnone : ∀ k, (s.desk slaveId).errands k = none := by
      intro k
      simp [desk, Framework.tasks, hdict]
    simp [orRaise, after_bind, EStateM.throw_apply, hnone]
  | some d =>
    have hentries : taskEntries s = .ok s.framework.tasks.entries s := by
      simp only [taskEntries, bind_apply, get_apply, hstray]
      rfl
    have hids' : ∀ e ∈ s.framework.tasks.entries, e.2.errand.waits jobId = true →
        e.2.taskInfo.hasTaskId = true ∧ e.2.taskInfo.taskId = e.1 := by
      intro e he
      have hlookup : s.framework.tasks.lookup e.1 = some e.2 := AList.mem_lookup_iff.mpr he
      exact hids e.1 e.2.errand (by simp [desk, hlookup])
    obtain ⟨s1, hrun, hdesk⟩ := startTasks_desk slaveId m s s.framework.tasks.nodupKeys hids'
    have hread : (orRaise (some d) .attributeError : Handler (Dict TaskRecord)) s = .ok d s := rfl
    rw [after_bind_of_ok hread, after_bind_of_ok hentries, hcommand,
      after_bind_of_ok hrun]
    refine Eq.trans (Leaves.bind (desk_taskInDocker _ _) (fun _ => ?_) s1) (hdesk.trans ?_)
    · exact .ite (.pure _) (.bind (desk_scaleUp _ _) fun _ => .pure _)
    · have hany : ∀ k, (s.framework.tasks.entries.dlookup k).any (·.errand.waits jobId) =
          ((s.desk slaveId).errands k).any (·.waits jobId) := by
        intro k
        show (s.framework.tasks.lookup k).any _ = ((s.framework.tasks.lookup k).map _).any _
        rw [Option.any_map]
      simp only [hany]

theorem registerOnSlave_desk (hjob : NamingUtility.getJobIdFromSlaveId slaveId = some jobId)
    (hcommand : x.isCommandExecutor = false) (hstray : s.framework.strayTask = none)
    (hids : ∀ k e, (s.desk slaveId).errands k = some e → e.waits jobId = true →
      e.hasTaskId = true ∧ e.taskId = k) :
    ((registerOnSlave env .queue m slaveId x).after s).desk slaveId =
      (s.desk slaveId).register slaveId jobId m.channel := by
  let s1 : State := State.log
    { s with
      framework := s.framework.modifySlave slaveId ({ · with executorChannel := some m.channel }) }
    (.executorRegistered m.channel)
  have hdesk1 : s1.desk slaveId =
      { s.desk slaveId with
        hosts := fun k =>
          if k = slaveId then ((s.desk slaveId).hosts k).map fun h =>
            { h with executorChannel := some m.channel }
          else (s.desk slaveId).hosts k } := by
    rw [desk_log (fun _ => rfl), desk_mapHost]
    simp only [Desk.mk.injEq, true_and]
    refine ⟨?_, trivial⟩
    funext k
    split
    · rename_i heq
      rw [heq]
      simp only [desk, Option.map_map]
      rfl
    · rfl
  have hafter : (registerOnSlave env .queue m slaveId x).after s =
      (startOnSlave env m slaveId jobId x).after s1 := by
    simp only [registerOnSlave, hjob]
    rfl
  have hstray1 : s1.framework.strayTask = none := (congrArg Desk.strayTask hdesk1).trans hstray
  have hids1 : ∀ k e, (s1.desk slaveId).errands k = some e → e.waits jobId = true →
      e.hasTaskId = true ∧ e.taskId = k := by
    rw [hdesk1]
    exact hids
  rw [hafter, startOnSlave_desk hcommand hstray1 hids1, hdesk1]
  rfl

theorem registerExecutor_desk (hactive : s.tracking = .active)
    (hjob : NamingUtility.getJobIdFromSlaveId slaveId = some jobId)
    (hx : s.framework.slaves.lookup slaveId = some x) (hchannel : x.channel = m.replyTo)
    (honly : ∀ k x, s.framework.slaves.lookup k = some x → x.channel = m.replyTo → k = slaveId)
    (hcommand : x.isCommandExecutor = false) (hstray : s.framework.strayTask = none)
    (hids : ∀ k e, (s.desk slaveId).errands k = some e → e.waits jobId = true →
      e.hasTaskId = true ∧ e.taskId = k) :
    ((registerExecutor env .queue m).after s).desk slaveId =
      (s.desk slaveId).register slaveId jobId m.channel := by
  have hdict : ∃ d, s.framework.slaveDict = some d := by
    cases hd : s.framework.slaveDict with
    | some d => exact ⟨d, rfl⟩
    | none => simp [Framework.slaves, hd] at hx
  obtain ⟨d, hd⟩ := hdict
  have hafter : (registerExecutor env .queue m).after s =
      (registerOnSlave env .queue m slaveId x).after s := by
    simp only [registerExecutor, after_bind, get_apply, hactive,
      if_true, hd, orRaise,
      pure_apply, slaveOfExecutor_eq hx hchannel honly, hcommand, Bool.false_eq_true,
      false_and, if_false]
  rw [hafter]
  exact registerOnSlave_desk hjob hcommand hstray hids

end Register

/-! ## Post-processing -/

theorem strayTask_deleteAll (des : List DeleteElement) (f : Framework) :
    (deleteAll des f).strayTask = f.strayTask := by
  induction des generalizing f with
  | nil => rfl
  | cons de des ih =>
    refine (ih (de.delete f)).trans ?_
    obtain ⟨d, k⟩ := de
    cases d <;> rfl

theorem postprocessor_desk (hhit : (s.desk slaveId).hit = []) :
    ∃ gone : String → Bool, gone slaveId = false ∧
      (targetPostprocessor s).desk slaveId =
        { s.desk slaveId with
          hosts := fun k => if gone k then none else (s.desk slaveId).hosts k } := by
  have hnone : ∀ de ∈ s.deleteElements, de.hits slaveId = false := by
    intro de hde
    have := List.filter_eq_nil_iff.mp hhit de hde
    simpa using this
  have htasks : ∀ k, ⟨.tasks, k⟩ ∉ s.deleteElements := fun k hk => absurd (hnone _ hk) (by
    simp [DeleteElement.hits])
  refine ⟨fun k => decide (⟨.slaves, k⟩ ∈ s.deleteElements), ?_, ?_⟩
  · rw [decide_eq_false_iff_not]
    intro hmem
    exact absurd (hnone _ hmem) (by simp [DeleteElement.hits])
  · have hhosts : (fun k => ((deleteAll s.deleteElements s.framework).slaves.lookup k).map
        Slave.host) = fun k => if decide (⟨.slaves, k⟩ ∈ s.deleteElements) = true then none
          else (s.framework.slaves.lookup k).map Slave.host := by
      funext k
      rw [lookup_slaves_deleteAll]
      simp only [decide_eq_true_eq]
      split
      · rfl
      · rfl
    have herrands : (fun k => ((deleteAll s.deleteElements s.framework).tasks.lookup k).map
        TaskRecord.errand) = fun k => (s.framework.tasks.lookup k).map TaskRecord.errand := by
      funext k
      rw [lookup_tasks_deleteAll, if_neg (htasks k)]
    simp only [desk, targetPostprocessor, strayTask_deleteAll, hhosts, herrands,
      Desk.mk.injEq, true_and]
    exact ⟨hhit.symm, rfl⟩

/-! ## Runs -/

/-- A slave that has executors of its own: its id, the channel of its runner, its job, and the
    channel of each of its executors. -/
structure Site where
  slaveId : String
  channel : String
  jobId : String
  executorChannel : String → String
  job : NamingUtility.getJobIdFromSlaveId slaveId = some jobId
  real : isPlaceholder slaveId = false

/-- What happens to the slave. A registration may be delivered any number of times. -/
inductive SiteEvent where
  | launch (m : LaunchTasksMessage)
  | register (executorId : String)

/-- The service, the tasks that were launched on the slave and the executors that registered. -/
structure RunWatch where
  state : State
  launched : List TaskInfo := []
  registered : List String := []

namespace Site

variable (site : Site) (env : Env)

/-- The message that is read from the queue. -/
def request : SiteEvent → Request
  | .launch m => .launchTasks m
  | .register executorId =>
    .registerExecutor
      { executorId, replyTo := site.channel, channel := site.executorChannel executorId }

def step (w : RunWatch) (e : SiteEvent) : RunWatch :=
  let state := handleQueued env (site.request e) w.state
  match e with
  | .launch m => { w with state, launched := w.launched ++ m.tasks }
  | .register executorId => { w with state, registered := w.registered ++ [executorId] }

/-- Every task was sent once, to its own executor, if that has registered, and else not yet. -/
def RunsOnce (w : RunWatch) : Prop :=
  ∀ t ∈ w.launched, ∀ e ∈ t.executor, w.state.runs t.taskId =
    if e.executorId ∈ w.registered then [site.executorChannel e.executorId] else []

/-- The message launches new tasks with executors on the slave, which has the resources for them. -/
def Proper (w : RunWatch) : SiteEvent → Prop
  | .launch m =>
    m.tasks ≠ [] ∧ (m.tasks.map (·.taskId)).Nodup ∧
      (∀ x, w.state.framework.slaves.lookup site.slaveId = some x →
        Adjustable env.portSubtract x (m.tasks.flatMap fun t => t.resources.getD [])) ∧
      ∀ t ∈ m.tasks, t.hasTaskId = true ∧ t.slave = some site.slaveId ∧ t.executor.isSome ∧
        t.resources.isSome ∧ t.taskId ∉ w.launched.map (·.taskId) ∧ w.state.runs t.taskId = []
  | .register _ => True

/-- A task is launched for the executor that registered last, if any did. An executor that
    registers does so for the first time, and all tasks are for it, or there are none. -/
def OneExecutor (w : RunWatch) : SiteEvent → Prop
  | .launch m =>
    ∀ last ∈ w.registered.getLast?, ∀ t ∈ m.tasks, ∀ e ∈ t.executor,
      e.executorId ∈ w.registered ∧
        site.executorChannel e.executorId = site.executorChannel last
  | .register executorId =>
    ∀ t ∈ w.launched, ∀ e ∈ t.executor, e.executorId = executorId ∧ executorId ∉ w.registered

end Site

/-- The slave is there and has executors of its own, of which the one that registered last is
    known, and the tasks of its job that are staging are those that were launched. -/
structure Desk.Serves (site : Site) (launched : List TaskInfo) (registered : List String)
    (d : Desk) : Prop where
  active : d.tracking = .active
  strayTask : d.strayTask = none
  hit : d.hit = []
  host : ∃ h, d.hosts site.slaveId = some h ∧ h.channel = site.channel ∧
    h.isCommandExecutor = false ∧ h.commandExecutors = ∅ ∧ 0 ≤ h.taskCount ∧
    h.executorChannel = registered.getLast?.map site.executorChannel
  alone : ∀ k h, d.hosts k = some h → h.channel = site.channel → k = site.slaveId
  staging : ∀ k e, d.errands k = some e → e.waits site.jobId = true →
    e.hasTaskId = true ∧ e.taskId = k ∧ k ∈ launched.map (·.taskId)
  launched : ∀ k ∈ launched.map (·.taskId), (d.errands k).any (·.waits site.jobId) = true

namespace Desk.Serves

variable {site : Site} {launched ts : List TaskInfo} {registered : List String} {d : Desk}

theorem launches (h : d.Serves site launched registered) (hids : ∀ t ∈ ts, t.hasTaskId = true) :
    (ts.foldl (launch site.slaveId site.jobId) d).Serves site (launched ++ ts) registered where
  active := (launches_rest d).1.trans h.active
  strayTask := (launches_rest d).2.1.trans h.strayTask
  hit := (launches_rest d).2.2.trans h.hit
  host := by
    obtain ⟨host, hhost, hchannel, hcommand, hcommands, hcount, hexecutor⟩ := h.host
    refine ⟨{ host with taskCount := host.taskCount + ts.length }, ?_, hchannel, hcommand,
      hcommands, ?_, hexecutor⟩
    · rw [launches_hosts, if_pos rfl, hhost]
      rfl
    · show 0 ≤ host.taskCount + ts.length
      omega
  alone := by
    intro k host hhost hchannel
    rw [launches_hosts] at hhost
    split at hhost
    · assumption
    · exact h.alone k host hhost hchannel
  staging := by
    intro k e he hwaits
    rw [launches_errands hids] at he
    rw [List.map_append, List.mem_append]
    split at he
    · rename_i hk
      cases he
      exact ⟨rfl, rfl, Or.inr hk⟩
    · obtain ⟨hid, hkey, hmem⟩ := h.staging k e he hwaits
      exact ⟨hid, hkey, Or.inl hmem⟩
  launched := by
    intro k hk
    rw [launches_errands hids]
    rw [List.map_append, List.mem_append] at hk
    split
    · simp [Errand.waits]
    · rename_i hnot
      exact h.launched k (hk.resolve_right hnot)

theorem register (h : d.Serves site launched registered) (executorId : String) :
    (d.register site.slaveId site.jobId (site.executorChannel executorId)).Serves site launched
      (registered ++ [executorId]) where
  active := h.active
  strayTask := h.strayTask
  hit := h.hit
  host := by
    obtain ⟨host, hhost, hchannel, hcommand, hcommands, hcount, _⟩ := h.host
    refine ⟨{ host with executorChannel := some (site.executorChannel executorId) }, ?_, hchannel,
      hcommand, hcommands, hcount, ?_⟩
    · simp [Desk.register, hhost]
    · simp
  alone := by
    intro k host hhost hchannel
    simp only [Desk.register] at hhost
    split at hhost
    · assumption
    · exact h.alone k host hhost hchannel
  staging := h.staging
  launched := h.launched

theorem hosts_gone (h : d.Serves site launched registered) {gone : String → Bool}
    (hgone : gone site.slaveId = false) :
    Desk.Serves site launched registered
      { d with hosts := fun k => if gone k then none else d.hosts k } where
  active := h.active
  strayTask := h.strayTask
  hit := h.hit
  host := by
    obtain ⟨host, hhost, hrest⟩ := h.host
    exact ⟨host, by simp [hgone, hhost], hrest⟩
  alone := by
    intro k host hhost hchannel
    dsimp only at hhost
    split at hhost
    · cases hhost
    · exact h.alone k host hhost hchannel
  staging := h.staging
  launched := h.launched

end Desk.Serves

namespace Site

variable {site : Site} {env : Env} {w : RunWatch}

variable {m : LaunchTasksMessage}

/-- The slave is at work. -/
def Serves (site : Site) (w : RunWatch) : Prop :=
  (w.state.desk site.slaveId).Serves site w.launched w.registered

theorem Serves.slave (h : site.Serves w) :
    ∃ x, w.state.framework.slaves.lookup site.slaveId = some x ∧ x.channel = site.channel ∧
      x.isCommandExecutor = false ∧ x.commandExecutors = ∅ ∧ 0 ≤ x.taskCount := by
  obtain ⟨host, hhost, hchannel, hcommand, hcommands, hcount, _⟩ := h.host
  obtain ⟨x, hx, rfl⟩ := Option.map_eq_some_iff.mp hhost
  exact ⟨x, hx, hchannel, hcommand, hcommands, hcount⟩

theorem desk_launch (h : site.Serves w) (hproper : site.Proper env w (.launch m)) :
    ∃ gone : String → Bool, gone site.slaveId = false ∧
      (site.step env w (.launch m)).state.desk site.slaveId =
        let d := m.tasks.foldl (Desk.launch site.slaveId site.jobId) (w.state.desk site.slaveId)
        { d with hosts := fun k => if gone k then none else d.hosts k } := by
  obtain ⟨hne, hnodup, hadjust, htasks⟩ := hproper
  obtain ⟨x, hx, _, hcommand, hcommands, hcount⟩ := h.slave
  have hdesk := launchTasks_desk h.active site.real site.job hne
    (fun t ht => ⟨(htasks t ht).2.1, (htasks t ht).2.2.1, (htasks t ht).2.2.2.1⟩) hx hcount hcommand
    hcommands (hadjust x hx)
  have hhit : (((launchTasks env .queue m).after w.state).desk site.slaveId).hit = [] := by
    rw [hdesk]
    exact (Desk.launches_rest _).2.2.trans h.hit
  obtain ⟨gone, hgone, hpost⟩ := postprocessor_desk hhit
  refine ⟨gone, hgone, ?_⟩
  rw [hdesk] at hpost
  exact hpost

theorem desk_register (env : Env) (h : site.Serves w) (executorId : String) :
    ∃ gone : String → Bool, gone site.slaveId = false ∧
      (site.step env w (.register executorId)).state.desk site.slaveId =
        let d := (w.state.desk site.slaveId).register site.slaveId site.jobId
          (site.executorChannel executorId)
        { d with hosts := fun k => if gone k then none else d.hosts k } := by
  obtain ⟨x, hx, hchannel, hcommand, _⟩ := h.slave
  let m : RegisterExecutorMessage :=
    { executorId, replyTo := site.channel, channel := site.executorChannel executorId }
  have hdesk : ((registerExecutor env .queue m).after w.state).desk site.slaveId =
      (w.state.desk site.slaveId).register site.slaveId site.jobId
        (site.executorChannel executorId) := by
    refine registerExecutor_desk h.active site.job hx hchannel ?_ hcommand h.strayTask ?_
    · intro k x hx hchannel
      exact h.alone k x.host (by simp [desk, hx]) hchannel
    · intro k e he hwaits
      obtain ⟨hid, hkey, _⟩ := h.staging k e he hwaits
      exact ⟨hid, hkey⟩
  have hhit : (((registerExecutor env .queue m).after w.state).desk site.slaveId).hit = [] := by
    rw [hdesk]
    exact h.hit
  obtain ⟨gone, hgone, hpost⟩ := postprocessor_desk hhit
  refine ⟨gone, hgone, ?_⟩
  rw [hdesk] at hpost
  exact hpost

theorem serves_step (h : site.Serves w) {e : SiteEvent} (hproper : site.Proper env w e) :
    site.Serves (site.step env w e) := by
  cases e with
  | launch m =>
    obtain ⟨gone, hgone, hdesk⟩ := desk_launch h hproper
    unfold Serves
    rw [hdesk]
    exact (Desk.Serves.launches h fun t ht => (hproper.2.2.2 t ht).1).hosts_gone hgone
  | register executorId =>
    obtain ⟨gone, hgone, hdesk⟩ := desk_register env h executorId
    unfold Serves
    rw [hdesk]
    exact (Desk.Serves.register h executorId).hosts_gone hgone

/-- The `RunTask` messages that a launch writes. -/
theorem runs_launch (h : site.Serves w) (hproper : site.Proper env w (.launch m)) (k : String) :
    (site.step env w (.launch m)).state.runs k = w.state.runs k ++
      if k ∈ m.tasks.map (·.taskId) then (w.registered.getLast?.map site.executorChannel).toList
      else [] := by
  obtain ⟨gone, _, hdesk⟩ := desk_launch h hproper
  obtain ⟨host, hhost, _, _, _, _, hchannel⟩ := h.host
  have hruns := congrFun (congrArg Desk.runs hdesk) k
  refine hruns.trans ((Desk.launches_runs hproper.2.1 _ k).trans ?_)
  rw [hhost, Option.bind_some, hchannel]
  rfl

/-- The `RunTask` messages that a registration writes. -/
theorem runs_register (h : site.Serves w) (executorId k : String) :
    (site.step env w (.register executorId)).state.runs k = w.state.runs k ++
      if k ∈ w.launched.map (·.taskId) then [site.executorChannel executorId] else [] := by
  obtain ⟨gone, _, hdesk⟩ := desk_register env h executorId
  have hruns := congrFun (congrArg Desk.runs hdesk) k
  refine hruns.trans ?_
  show w.state.runs k ++ _ = _
  congr 1
  by_cases hk : k ∈ w.launched.map (·.taskId)
  · rw [if_pos hk, if_pos (h.launched k hk)]
  · rw [if_neg hk, if_neg]
    intro hany
    obtain ⟨e, he, hwaits⟩ := (Option.any_eq_true _ _).mp hany
    exact hk (h.staging k e he hwaits).2.2

theorem runsOnce_launch_iff (h : site.Serves w)
    (hproper : site.Proper env w (.launch m)) (hruns : site.RunsOnce w) :
    site.RunsOnce (site.step env w (.launch m)) ↔ site.OneExecutor w (.launch m) := by
  have hafter := runs_launch h hproper
  have hnew : ∀ t ∈ m.tasks, ∀ e ∈ t.executor, (site.step env w (.launch m)).state.runs t.taskId =
      (w.registered.getLast?.map site.executorChannel).toList := by
    intro t ht e _
    rw [hafter, (hproper.2.2.2 t ht).2.2.2.2.2, if_pos (List.mem_map_of_mem ht), List.nil_append]
  constructor
  · intro honce last hlast t ht e he
    have hrun := honce t (List.mem_append_right _ ht) e he
    rw [hnew t ht e he, hlast] at hrun
    change [site.executorChannel last] = if e.executorId ∈ w.registered then _ else _ at hrun
    split at hrun
    · rename_i hmem
      exact ⟨hmem, (List.cons.inj hrun).1.symm⟩
    · cases hrun
  · intro hone t ht e he
    change _ = if e.executorId ∈ w.registered then _ else _
    cases List.mem_append.mp ht with
    | inl ht =>
      -- a task that was launched before does not come again
      have hold : t.taskId ∉ m.tasks.map (·.taskId) := by
        intro hmem
        obtain ⟨t', ht', heq⟩ := List.mem_map.mp hmem
        exact (hproper.2.2.2 t' ht').2.2.2.2.1 (heq ▸ List.mem_map_of_mem ht)
      rw [hafter, if_neg hold, List.append_nil]
      exact hruns t ht e he
    | inr ht =>
      rw [hnew t ht e he]
      cases hlast : w.registered.getLast? with
      | none =>
        rw [List.getLast?_eq_none_iff.mp hlast]
        rfl
      | some last =>
        obtain ⟨hmem, hchannel⟩ := hone last hlast t ht e he
        rw [if_pos hmem, hchannel]
        rfl

theorem runsOnce_register_iff (env : Env) (h : site.Serves w) (hruns : site.RunsOnce w)
    (executorId : String) :
    site.RunsOnce (site.step env w (.register executorId)) ↔
      site.OneExecutor w (.register executorId) := by
  have hafter : ∀ t ∈ w.launched, ∀ e ∈ t.executor,
      (site.step env w (.register executorId)).state.runs t.taskId =
        (if e.executorId ∈ w.registered then [site.executorChannel e.executorId] else []) ++
          [site.executorChannel executorId] := by
    intro t ht e he
    rw [runs_register h, if_pos (List.mem_map_of_mem ht), hruns t ht e he]
  apply forall₂_congr
  intro t ht
  apply forall₂_congr
  intro e he
  rw [hafter t ht e he]
  show _ = (if e.executorId ∈ w.registered ++ [executorId] then _ else _) ↔ _
  by_cases hmem : e.executorId ∈ w.registered
  · -- the task was sent before
    rw [if_pos hmem, if_pos (List.mem_append_left _ hmem)]
    apply iff_of_false
    · simp
    · intro ⟨heq, hnot⟩
      exact hnot (heq ▸ hmem)
  · rw [if_neg hmem, List.nil_append]
    by_cases heq : e.executorId = executorId
    · rw [if_pos (by simp [heq]), heq]
      exact iff_of_true rfl ⟨rfl, heq ▸ hmem⟩
    · rw [if_neg (by simp [heq, hmem])]
      exact iff_of_false (by simp) fun hone => heq hone.1

/-- In every run of launches on a slave and registrations of its executors, every task is always
    sent once, to its own executor, exactly if each executor that registers does so once and is the
    one that all tasks are for. -/
theorem tasks_run_once_iff (site : Site) (env : Env) (s : State) (events : List SiteEvent)
    (hserves : site.Serves { state := s })
    (hproper : Run.Meets (site.step env) (site.Proper env) { state := s } events) :
    Run.Meets (site.step env) (fun w e => site.RunsOnce (site.step env w e)) { state := s } events ↔
      Run.Meets (site.step env) site.OneExecutor { state := s } events := by
  have hinv : ∀ w e, site.Serves w → site.Proper env w e → site.Serves (site.step env w e) :=
    fun _ _ h hproper => serves_step h hproper
  have hstep : ∀ w e, site.Serves w → site.Proper env w e → site.RunsOnce w →
      (site.RunsOnce (site.step env w e) ↔ site.OneExecutor w e) := by
    intro w e h hproper hruns
    cases e with
    | launch m => exact runsOnce_launch_iff h hproper hruns
    | register executorId => exact runsOnce_register_iff env h hruns executorId
  exact Run.meets_iff_of hinv hstep hserves (fun _ ht => by cases ht) hproper

instance (site : Site) (w : RunWatch) (e : SiteEvent) : Decidable (site.OneExecutor w e) := by
  unfold OneExecutor
  split <;> infer_instance

/-- The slave of the sample. -/
def sample : Site where
  slaveId := Sample.slaveId
  channel := "runner"
  jobId := "1"
  executorChannel executorId := "executor." ++ executorId
  job := by decide
  real := by decide

/-- The slave has registered. -/
def sampleState : State :=
  run Sample.env Sample.start [.queued (.registerExecutorRunner Sample.runner)]

theorem serves_sample : sample.Serves { state := sampleState } where
  active := by decide
  strayTask := by decide
  hit := by decide
  host := by
    refine ⟨{ channel := "runner", isCommandExecutor := false, commandExecutors := ∅,
              executorChannel := none, taskCount := 0 }, rfl, rfl, rfl, rfl, le_rfl, rfl⟩
  alone := by
    intro k h hh _
    have hkeys : sampleState.framework.slaves.keys = [Sample.slaveId] := by decide
    obtain ⟨x, hx, _⟩ := Option.map_eq_some_iff.mp hh
    have hmem := AList.lookup_isSome.mp (Option.isSome_of_eq_some hx)
    rw [AList.mem_keys, hkeys] at hmem
    exact List.mem_singleton.mp hmem
  staging := by
    intro k e he _
    have hkeys : sampleState.framework.tasks.keys = [] := by decide
    have he : (sampleState.framework.tasks.lookup k).map TaskRecord.errand = some e := he
    obtain ⟨r, hr, _⟩ := Option.map_eq_some_iff.mp he
    have hmem := AList.lookup_isSome.mp (Option.isSome_of_eq_some hr)
    rw [AList.mem_keys, hkeys] at hmem
    cases hmem
  launched := nofun

theorem adjustable_sample (x : Slave) (taskId : String) :
    Adjustable Sample.env.portSubtract x ((Sample.task taskId).resources.getD []) where
  fits := by
    intro r hr
    rw [List.mem_singleton.mp hr]
    exact fun _ => ⟨rfl, rfl⟩
  portsOk := ⟨x.ports, rfl, trivial⟩

/-- Tasks are launched before and after the executor registers. -/
theorem tasks_run_once_one_executor : Run.Meets (sample.step Sample.env)
      (fun w e => sample.RunsOnce (sample.step Sample.env w e)) { state := sampleState }
      [.launch { tasks := [Sample.task "t"] }, .register "executor",
        .launch { tasks := [Sample.task "u"] }] := by
  refine (tasks_run_once_iff sample Sample.env sampleState _ serves_sample ?_).mpr ?_
  · refine ⟨⟨by decide, by decide, ?_, by decide +kernel⟩, trivial,
      ⟨by decide, by decide, ?_, by decide +kernel⟩, trivial⟩
    · exact fun x _ => adjustable_sample x "t"
    · exact fun x _ => adjustable_sample x "u"
  · decide +kernel

/-- A registration that is delivered twice, and a task that is launched for another executor than
    the one that registered. -/
theorem tasks_run_twice_or_astray :
    let twice := [.launch { tasks := [Sample.task "t"] }, .register "executor",
      .register "executor"].foldl (sample.step Sample.env) { state := sampleState }
    let astray := [.register "other", .launch { tasks := [Sample.task "t"] }].foldl
      (sample.step Sample.env) { state := sampleState }
    twice.state.runs "t" = ["executor.executor", "executor.executor"] ∧ ¬sample.RunsOnce twice ∧
      astray.state.runs "t" = ["executor.other"] ∧ ¬sample.RunsOnce astray := by
  intro twice astray
  have htwice : twice.state.runs "t" = ["executor.executor", "executor.executor"] := by
    decide +kernel
  have hastray : astray.state.runs "t" = ["executor.other"] := by decide +kernel
  refine ⟨htwice, fun h => ?_, hastray, fun h => ?_⟩
  · have hrun := h (Sample.task "t") (by decide +kernel) _ rfl
    exact absurd (htwice.symm.trans hrun) (by decide +kernel)
  · have hrun := h (Sample.task "t") (by decide +kernel) _ rfl
    exact absurd (hastray.symm.trans hrun) (by decide +kernel)

end Site

end Urb
