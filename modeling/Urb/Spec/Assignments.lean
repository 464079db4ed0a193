import Urb.Spec.Books

/-!
# The assignments of the handlers

Everything that a handler does to the state is a sequence of quiet assignments, entries in
the log, assignments to the record of a slave, records stored for a task, and the
replacement of the dictionary of tasks in `reconcile_tasks`. `Assignment` lists these, and
`handle_assigns` says that every handler is made of them, whether it returns or raises. Most
handlers never touch `job_ids`: theirs are `JobFree`.
-/

namespace Urb

open EStateM (Keeps)

variable (env : Env) (entry : Entry) (k taskId : String) (t : TaskInfo)
  (m : RegisterExecutorRunnerMessage)

/-- One assignment of a handler. -/
inductive Assignment : State → State → Prop
  | quiet {s s' : State} (h : Quiet s s') : Assignment s s'
  | log (s : State) (e : Effect) : Assignment s (s.log e)
  | slave (s : State) (k : String) (x : Slave) : Assignment s (s.withSlave k x)
  | store (s : State) (taskId : String) (r : TaskRecord) :
      Assignment s { s with framework := s.framework.setTask taskId r }
  | replace (s : State) (entry : Entry) (taskId : String) (t : Option TaskRecord) :
      Assignment s ((replaceTaskDict entry taskId t).after s)

/-- One assignment that leaves `job_ids` alone. -/
inductive JobFree : State → State → Prop
  | silent {s s' : State} (h : Silent s s') : JobFree s s'
  | log (s : State) (e : Effect) : JobFree s (s.log e)
  | slave (s : State) (k : String) (x : Slave) : JobFree s (s.withSlave k x)
  | store (s : State) (taskId : String) (r : TaskRecord) :
      JobFree s { s with framework := s.framework.setTask taskId r }
  | replace (s : State) (entry : Entry) (taskId : String) (t : Option TaskRecord) :
      JobFree s ((replaceTaskDict entry taskId t).after s)

theorem JobFree.assignment {s s' : State} (h : JobFree s s') : Assignment s s' := by
  cases h with
  | silent h => exact .quiet (.silent h)
  | log e => exact .log _ e
  | slave k x => exact .slave _ k x
  | store taskId r => exact .store _ taskId r
  | replace entry taskId t => exact .replace _ entry taskId t

/-- The computation is a sequence of assignments. -/
def Assigns {α : Type} (m : Handler α) : Prop :=
  Keeps (Relation.ReflTransGen Assignment) m

/-- The computation is a sequence of assignments that leave `job_ids` alone. -/
def JobFreely {α : Type} (m : Handler α) : Prop :=
  Keeps (Relation.ReflTransGen JobFree) m

theorem Quietly.assigns {α : Type} {m : Handler α} (h : Quietly m) : Assigns m :=
  fun s => (h s).lift id fun _ _ => .quiet

theorem JobFreely.assigns {α : Type} {m : Handler α} (h : JobFreely m) : Assigns m :=
  fun s => (h s).lift id fun _ _ => JobFree.assignment

theorem Silently.jobFreely {α : Type} {m : Handler α} (h : Silently m) : JobFreely m :=
  fun s => (h s).lift id fun _ _ => .silent

namespace JobFreely

variable {α β : Type}

theorem emit (e : Effect) : JobFreely (Urb.emit e) := fun s => .single (.log s e)

theorem modifyTask (g : TaskRecord → TaskRecord)
    (hg : ∀ r, (g r).bill = r.bill) : JobFreely (Urb.modifyFramework (·.modifyTask taskId g)) :=
  (Silently.modifyTask taskId g hg).jobFreely

theorem modifySlave (g : Slave → Slave) : JobFreely (Urb.modifyFramework (·.modifySlave k g)) := by
  intro s
  show Relation.ReflTransGen JobFree s { s with framework := s.framework.modifySlave k g }
  unfold Framework.modifySlave
  split
  · exact .single (.slave s k _)
  · exact .refl

theorem onSlave (k : String) (m : SlaveM α) : JobFreely (Urb.onSlave k m) := by
  intro s
  rw [EStateM.after_eq_state, Urb.onSlave]
  cases s.framework.slaves.lookup k with
  | none => exact .refl
  | some x =>
    dsimp only
    cases m x with
    | ok a x' => exact .single (.slave s k x')
    | error e x' => exact .single (.slave s k x')

theorem debitSlave : JobFreely (Urb.debitSlave env k t) :=
  .bind (onSlave _ _) fun _ => emit _

theorem creditSlave : JobFreely (Urb.creditSlave env k t) :=
  .bind (emit _) fun _ => onSlave _ _

theorem storeTask (r : TaskRecord) : JobFreely (Urb.storeTask taskId r) :=
  .bind (fun s => .single (.store s taskId r)) fun _ => emit _

theorem launchOnSlave (m : LaunchTasksMessage) (t : TaskInfo) (k : String)
    (v : LaunchVars) : JobFreely (Urb.launchOnSlave env m t k v) := by
  refine .bind .get fun s => ?_
  dsimp only
  split
  · exact .pure _
  · split
    · exact .pure _
    · exact .bind (modifyTask _ _ fun _ => by rfl) fun _ => .bind (emit _) fun _ =>
        .bind (modifySlave _ _) fun _ => .bind (debitSlave _ _ _) fun _ =>
        .bind (modifySlave _ _) fun _ =>
          .bind (Mutely.runIfRegistered _ _).silently.jobFreely fun _ => .pure _

/-! ## `kill_task` and `status_update` -/

theorem creditUnlessCommand : JobFreely (Urb.creditUnlessCommand env k t) :=
  .bind .get fun _ => .bind (.orRaise _ _) fun _ => .ite (.pure _) (creditSlave _ _ _)

theorem killKnownTask (task : TaskRecord) : JobFreely (Urb.killKnownTask env taskId task) := by
  refine .bind .get fun _ => .bind (modifyTask _ _ fun _ => by rfl) fun _ =>
    .bind (Silently.addDeleteElement _ _).jobFreely fun _ =>
    .bind (Silently.sendStatusUpdate _ _ _).jobFreely fun _ => .bind .get fun _ => ?_
  dsimp only
  split
  · exact .bind (creditUnlessCommand _ _ _) fun _ =>
      .bind (Mutely.sendKillTask _ _).silently.jobFreely fun _ =>
      .ite (.bind Mutely.setOfferEvent.silently.jobFreely fun _ => .pure _) (.pure _)
  · exact .bind (Mutely.deletePendingJob _).silently.jobFreely fun _ =>
      .bind Mutely.setOfferEvent.silently.jobFreely fun _ => .pure _

theorem killTask : JobFreely (Urb.killTask env entry taskId) := by
  have hretry : JobFreely (Urb.retry entry (.killTask taskId)) := (Silently.retry _ _).jobFreely
  refine .bind .get fun _ => .ite (.bind (.bind .get fun s => ?_) fun _ => .ite (.pure _) hretry)
    hretry
  dsimp only
  split
  · exact killKnownTask _ _ _
  · exact .pure _

theorem releaseTask (x : Slave) (t : TaskInfo) : JobFreely (Urb.releaseTask env k taskId x t) := by
  refine .bind (.ite (Mutely.releaseCommand _ _ _).silently.jobFreely ?_) fun _ =>
    .bind .get fun _ =>
    .bind (modifyTask _ _ fun _ => by rfl) fun _ =>
    (Silently.addDeleteElement _ _).jobFreely
  exact .bind (creditSlave _ _ _) fun _ => .bind .get fun _ => .ite (emit _) (.pure _)

theorem handleStatusUpdate (u : StatusUpdate) : JobFreely (Urb.handleStatusUpdate env u) := by
  have hsend : ∀ k, JobFreely (Urb.sendStatusUpdate u.taskId u.state k) := fun k =>
    (Silently.sendStatusUpdate _ _ _).jobFreely
  refine .bind .get fun s => ?_
  split
  · exact hsend none
  · refine .bind (modifyTask _ _ fun _ => by rfl) fun _ => ?_
    split
    · refine .bind (hsend _) fun _ => .bind .get fun _ => .bind (.orRaise _ _) fun _ => ?_
      split
      · exact .ite (releaseTask _ _ _ _ _) (.pure _)
      · exact .pure _
    · exact hsend none

theorem statusUpdate (u : StatusUpdate) : JobFreely (Urb.statusUpdate env entry u) :=
  .bind .get fun _ => .ite (handleStatusUpdate _ _) (Silently.retry _ _).jobFreely

/-! ## Registrations -/

theorem rebuildTasks (jobId : String) (ts : List TaskInfo) :
    JobFreely (Urb.rebuildTasks env k jobId ts) := by
  induction ts with
  | nil => exact .pure _
  | cons t rest ih => exact .bind (storeTask _ _) fun _ => .bind (debitSlave _ _ _) fun _ => ih

theorem pendingTasks (ts : List (Sigma fun _ : String => TaskRecord)) (v : PendingVars) :
    JobFreely (Urb.pendingTasks env m ts v) := by
  induction ts generalizing v with
  | nil => exact .pure _
  | cons t rest ih =>
    refine .bind (.ite (.bind (.orRaise _ _) fun _ => .bind ?_ fun _ =>
      .bind (debitSlave _ _ _) fun _ => .pure _) (.pure _)) fun v => ih v
    exact .ite (Mutely.adoptPending _ _ _ _ _).silently.jobFreely (.pure _)

theorem reregisterTasks (jobId channel : String) (ts : List TaskInfo) :
    JobFreely (Urb.reregisterTasks env k jobId channel ts) := by
  induction ts with
  | nil => exact .pure _
  | cons t rest ih =>
    exact .bind (.bind (modifySlave _ _) fun _ => .bind (storeTask _ _) fun _ => debitSlave _ _ _)
      fun _ => ih

theorem handleUpdates (us : List StatusUpdate) : JobFreely (Urb.handleUpdates env us) := by
  induction us with
  | nil => exact .pure _
  | cons u rest ih => exact .bind (handleStatusUpdate _ _) fun _ => ih

theorem reregisterExecutor (m : ReregisterExecutorMessage) :
    JobFreely (Urb.reregisterExecutor env m) := by
  refine .bind .get fun s => ?_
  split
  · exact .pure _
  · refine .bind (modifySlave _ _) fun _ => ?_
    split
    · exact .pure _
    · exact .bind (reregisterTasks _ _ _ _ _) fun _ => .bind (handleUpdates _ _) fun _ =>
        .bind (emit _) fun _ => modifySlave _ _

/-! ## `reconcile_tasks` -/

theorem reconcileTask (st : ReconcileStatus) : JobFreely (Urb.reconcileTask env entry st) := by
  have hsend : ∀ state k, JobFreely (Urb.sendStatusUpdate st.taskId state k) := fun _ _ =>
    (Silently.sendStatusUpdate _ _ _).jobFreely
  refine .bind .get fun s => .bind (Mutely.resolveReconcileSlave _ _).silently.jobFreely fun k => ?_
  split
  · exact .throw _
  · exact .pure _
  · exact hsend _ _
  · refine .bind ?_ fun o => ?_
    · cases k with
      | some k => exact .bind .get fun _ => .pure _
      | none =>
        refine .bind (Mutely.waitingSince _ _).silently.jobFreely fun since => ?_
        cases since with
        | none => exact .pure _
        | some q =>
          exact .bind .get fun _ => .ite
            (.bind (fun s => .single (.replace s _ _ _)) fun _ => .pure _)
            (.pure _)
    · cases o with
      | none => exact .pure _
      | some p => exact hsend _ _

theorem reconcileExplicit (sts : List ReconcileStatus) :
    JobFreely (Urb.reconcileExplicit env entry sts) := by
  induction sts with
  | nil => exact .pure _
  | cons st rest ih => exact .bind (reconcileTask _ _ _) fun _ => ih

theorem reconcileTasks (statuses : List ReconcileStatus) :
    JobFreely (Urb.reconcileTasks env entry statuses) := by
  refine .bind .get fun _ => .ite ?_ (Silently.retry _ _).jobFreely
  cases statuses with
  | nil => exact .bind Mutely.taskEntries.silently.jobFreely fun _ =>
      (Silently.reconcileImplicit _).jobFreely
  | cons st rest => exact reconcileExplicit _ _ _

end JobFreely

/-! ## The handlers that submit jobs -/

namespace Assigns

variable {α β : Type}

theorem emit (e : Effect) : Assigns (Urb.emit e) := fun s => .single (.log s e)

theorem launchTask (m : LaunchTasksMessage) (t : TaskInfo) (v : LaunchVars) :
    Assigns (Urb.launchTask env m t v) :=
  .bind (.orRaise _ _) fun _ => .bind .get fun _ =>
    .bind (JobFreely.storeTask _ _).assigns fun _ =>
    .ite (.bind (Quietly.launchOnPlaceholder _ _ _ _).assigns fun _ => .pure _)
      (JobFreely.launchOnSlave _ _ _ _ _).assigns

theorem launchLoop (m : LaunchTasksMessage) (ts : List TaskInfo) (v : LaunchVars) :
    Assigns (Urb.launchLoop env m ts v) := by
  induction ts generalizing v with
  | nil => exact .pure _
  | cons t rest ih =>
    refine .bind (launchTask _ _ _ _) fun o => ?_
    cases o with
    | none => exact .pure _
    | some v => exact ih v

theorem launchTasks (m : LaunchTasksMessage) : Assigns (Urb.launchTasks env entry m) := by
  refine .bind .get fun _ => .ite ?_ (Silently.retry _ _).jobFreely.assigns
  refine .bind (Mutely.modifyFramework _ fun _ =>
    ⟨by rfl, by rfl, by rfl, by rfl, by rfl⟩).silently.jobFreely.assigns fun _ =>
    .bind (launchLoop _ _ _ _) fun o => ?_
  cases o with
  | none => exact .pure _
  | some v => exact (Idly.processRemainingOffers _ _).silently.jobFreely.assigns

theorem addSlave : Assigns (Urb.addSlave env m) :=
  .bind (fun s => .single (.slave s m.slaveId (newSlave s.framework.config m))) fun _ =>
    .bind (emit _) fun _ s => .single (.quiet (.jobs s _))

theorem startPending : Assigns (Urb.startPending env m) :=
  .bind Mutely.taskEntries.silently.jobFreely.assigns fun _ =>
    .bind (JobFreely.pendingTasks _ _ _ _).assigns fun _ =>
    .bind (.ite (.pure _) (.bind (emit _) fun _ => .ite (.pure _)
      (.bind (Quietly.scaleUp _ _).assigns fun _ => .pure _))) fun _ =>
        (JobFreely.modifySlave _ _).assigns

theorem registerExecutorRunner : Assigns (Urb.registerExecutorRunner env entry m) := by
  refine .bind .get fun _ => .ite (.bind (addSlave _ _) fun _ => ?_) ?_
  · split
    · exact startPending _ _
    · exact .bind (JobFreely.modifySlave _ _).assigns fun _ =>
        (JobFreely.rebuildTasks _ _ _ _).assigns
  · exact .bind .get fun _ => .ite (emit _)
      (.ite (.ite (Silently.retry _ _).jobFreely.assigns (emit _)) (.pure _))

end Assigns

theorem handle_assigns (r : Request) : Assigns (handle env entry r) := by
  cases r with
  | launchTasks m => exact .launchTasks env entry m
  | killTask taskId => exact (JobFreely.killTask env entry taskId).assigns
  | reconcileTasks statuses => exact (JobFreely.reconcileTasks env entry statuses).assigns
  | reviveOffers => exact Idly.reviveOffers.silently.jobFreely.assigns
  | statusUpdate u => exact (JobFreely.statusUpdate env entry u).assigns
  | registerExecutorRunner m => exact .registerExecutorRunner env entry m
  | reregisterExecutor m => exact (JobFreely.reregisterExecutor env m).assigns
  | registerExecutor m => exact (Quietly.registerExecutor env entry m).assigns

end Urb
