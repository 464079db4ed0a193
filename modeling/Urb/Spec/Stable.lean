import Urb.Spec.Books

/-!
# Invariants of the books

An invariant is `Stable` when it survives the assignments that change the books,
credits apart: storing a record, debiting a task whose record is stored,
registering a slave, the reconciliation that replaces the dictionary of tasks, and
post-processing. Every handler that never credits keeps a stable invariant, and
the handlers that do keep it if the credit does.
-/

namespace Urb

variable {α : Type} {s : State}

open EStateM (Triple)

/-- The record of the task is stored, with the resources that the task asks for. -/
def Holds (t : TaskInfo) (s : State) : Prop :=
  (s.framework.tasks.lookup t.taskId).map (·.bill) = some (t.taskId, t.resources)

/-- An invariant that all assignments but credits keep. `N` is what the tasks of the
    messages have to satisfy. -/
structure Stable (env : Env) (N : List Resource → Prop) (Inv : State → Prop) : Prop where
  keyed : ∀ {s k r}, Inv s → s.framework.tasks.lookup k = some r → r.taskInfo.taskId = k
  sameBooks : ∀ {s s'}, SameBooks s s' → Inv s → Inv s'
  store : ∀ s r, N (r.taskInfo.resources.getD []) → Inv s →
    Inv ((storeTask r.taskInfo.taskId r).after s)
  debit : ∀ s slaveId t, Holds t s → Inv s → Inv ((debitSlave env slaveId t).after s)
  addSlave : ∀ s m, Inv s → Inv ((addSlave env m).after s)
  replaceTaskDict : ∀ s entry taskId, N [] → Inv s →
    ∀ t, Inv ((replaceTaskDict entry taskId t).after s)
  postprocess : ∀ s, Inv s → Inv (targetPostprocessor s)

/-- The tasks that a request brings. -/
def Request.tasks : Request → List TaskInfo
  | .launchTasks m => m.tasks
  | .registerExecutorRunner m => m.tasks
  | .reregisterExecutor m => m.tasks
  | _ => []

/-- The requests whose handlers never credit a task. -/
def Request.endsNoTask : Request → Bool
  | .killTask _ => false
  | .statusUpdate _ => false
  | .reregisterExecutor _ => false
  | _ => true

/-- The request that an event has the handler work on, and how it got there. -/
def Event.request : Event → Option (Entry × Request)
  | .queued r => some (.queue, r)
  | .http .revive => none
  | .http c => some (.http, c.request)
  | _ => none

/-! ## Computations that keep a property -/

theorem Quietly.keeps {m : Handler α} (h : Quietly m) {P : State → Prop}
    (hP : ∀ s s', SameBooks s s' → P s → P s') : Triple P m (fun _ => P) P :=
  .of_after fun s hs => hP _ _ (h.sameBooks s) hs

theorem SameBooks.holds {s' : State} (h : SameBooks s s') {t : TaskInfo} (ht : Holds t s) :
    Holds t s' := by
  rw [Holds, h.bills]
  exact ht

theorem tasks_debitSlave (env : Env) (slaveId : String) (t : TaskInfo) (s : State) :
    ((debitSlave env slaveId t).after s).framework.tasks = s.framework.tasks := by
  have h := debitSlave_spec env slaveId t s s rfl
  simp only [EStateM.after]
  cases hr : debitSlave env slaveId t s with
  | ok a s' =>
    simp only [hr] at h ⊢
    obtain ⟨x, x1, _, _, _, rfl⟩ := h
    rfl
  | error e s' =>
    simp only [hr] at h ⊢
    obtain rfl | ⟨x, x', done, _, _, _, rfl⟩ := h
    · rfl
    · rfl

theorem Holds.debitSlave {env : Env} {slaveId : String} {t t' : TaskInfo}
    (h : Holds t s) : Holds t ((debitSlave env slaveId t').after s) := by
  rw [Holds, tasks_debitSlave]
  exact h

theorem holds_storeTask (r : TaskRecord) (s : State) :
    Holds r.taskInfo ((storeTask r.taskInfo.taskId r).after s) := by
  simp [Holds, storeTask, EStateM.after, EStateM.bind_apply, modifyFramework, emit,
    EStateM.modify_apply, TaskRecord.bill]

namespace Stable

variable {env : Env} {N : List Resource → Prop} {Inv : State → Prop} (h : Stable env N Inv)
    {m : Handler α}

include h

theorem quiet (hm : Quietly m) : Triple Inv m (fun _ => Inv) Inv :=
  hm.keeps fun _ _ => h.sameBooks

theorem quiet_holds (hm : Quietly m) (t : TaskInfo) :
    Triple (fun s => Inv s ∧ Holds t s) m (fun _ s => Inv s ∧ Holds t s) Inv :=
  (hm.keeps fun _ _ hb hs => ⟨h.sameBooks hb hs.1, hb.holds hs.2⟩).weaken
    (fun _ hs => hs) (fun _ _ hs => hs) fun _ hs => hs.1

theorem store_holds (r : TaskRecord) (hr : N (r.taskInfo.resources.getD [])) :
    Triple Inv (storeTask r.taskInfo.taskId r) (fun _ s => Inv s ∧ Holds r.taskInfo s) Inv := by
  refine (Triple.of_after fun s hs => ?_).weaken (fun _ hs => hs) (fun _ _ hs => hs)
    fun _ hs => hs.1
  exact ⟨h.store s r hr hs, holds_storeTask r s⟩

theorem debit_holds (slaveId : String) (t : TaskInfo) :
    Triple (fun s => Inv s ∧ Holds t s) (debitSlave env slaveId t) (fun _ => Inv) Inv :=
  Triple.of_after fun s hs => h.debit s slaveId t hs.2 hs.1

/-! ## Handlers that never credit -/

theorem launchOnSlave (m : LaunchTasksMessage) (t : TaskInfo) (slaveId : String) (v : LaunchVars) :
    Triple (fun s => Inv s ∧ Holds t s) (launchOnSlave env m t slaveId v) (fun _ => Inv) Inv := by
  refine .bind (h.quiet_holds .get t) fun s => ?_
  dsimp only
  split
  · exact .pure fun _ hs => hs.1
  · split
    · exact .pure fun _ hs => hs.1
    · refine .bind (h.quiet_holds (Silently.quietly (.modifyTask _ _ fun _ => by rfl)) t) fun _ =>
        .bind (h.quiet_holds (Silently.quietly (.emit _ rfl)) t) fun _ =>
        .bind (h.quiet_holds (Silently.quietly (.modifySlave _ _ fun x => ?_)) t) fun _ =>
        .bind (h.debit_holds slaveId t) fun _ =>
        .bind (h.quiet (Silently.quietly (.modifySlave _ _ fun _ => ⟨by rfl, by rfl⟩))) fun _ =>
        .bind (h.quiet (Mutely.runIfRegistered _ _).silently.quietly) fun _ => .pure fun _ hs => hs
      unfold recordExecutor
      split_ifs <;> exact ⟨rfl, rfl⟩

theorem launchTask (m : LaunchTasksMessage) (t : TaskInfo) (ht : N (t.resources.getD []))
    (v : LaunchVars) : Triple Inv (launchTask env m t v) (fun _ => Inv) Inv := by
  refine .bind (h.quiet (.orRaise _ _)) fun slaveId =>
    .bind (h.quiet .get) fun st =>
    .bind (h.store_holds (stagingRecord m st.clock t) ht) fun _ => .ite (fun _ => ?_) fun _ => ?_
  · exact .bind ((h.quiet (Quietly.launchOnPlaceholder _ _ _ _)).weaken (fun _ hs => hs.1)
      (fun _ _ hs => hs) fun _ hs => hs) fun _ => .pure fun _ hs => hs
  · exact h.launchOnSlave m t slaveId v

theorem launchLoop (m : LaunchTasksMessage) (ts : List TaskInfo)
    (hts : ∀ t ∈ ts, N (t.resources.getD [])) (v : LaunchVars) :
    Triple Inv (launchLoop env m ts v) (fun _ => Inv) Inv := by
  induction ts generalizing v with
  | nil => exact .pure fun _ hs => hs
  | cons t ts ih =>
    refine .bind (h.launchTask m t (hts t (by simp)) v) fun r => ?_
    cases r with
    | none => exact .pure fun _ hs => hs
    | some v' => exact ih (fun t' ht' => hts t' (by simp [ht'])) v'

theorem launchTasks (entry : Entry) (m : LaunchTasksMessage)
    (hm : ∀ t ∈ m.tasks, N (t.resources.getD [])) :
    Triple Inv (launchTasks env entry m) (fun _ => Inv) Inv := by
  refine .bind (h.quiet .get) fun _ => .ite (fun _ => ?_) fun _ =>
    h.quiet (Silently.retry _ _).quietly
  refine .bind (h.quiet (Mutely.silently
    (.modifyFramework _ fun _ => ⟨by rfl, by rfl, by rfl, by rfl, by rfl⟩)).quietly)
    fun _ => .bind (h.launchLoop m m.tasks hm {}) fun r => ?_
  cases r with
  | none => exact .pure fun _ hs => hs
  | some v => exact h.quiet (Idly.processRemainingOffers _ _).silently.quietly

theorem rebuildTasks (slaveId jobId : String) (ts : List TaskInfo)
    (hts : ∀ t ∈ ts, N (t.resources.getD [])) :
    Triple Inv (rebuildTasks env slaveId jobId ts) (fun _ => Inv) Inv := by
  induction ts with
  | nil => exact .pure fun _ hs => hs
  | cons t ts ih =>
    exact .bind (h.store_holds (rebuiltRecord jobId t) (hts t (by simp))) fun _ =>
      .bind (h.debit_holds slaveId t) fun _ => ih fun t' ht' => hts t' (by simp [ht'])

theorem pendingTasks (m : RegisterExecutorRunnerMessage)
    (es : List (Sigma fun _ : String => TaskRecord)) (v : PendingVars) :
    Triple (fun s => Inv s ∧ ∀ e ∈ es, Holds e.2.taskInfo s) (pendingTasks env m es v)
      (fun _ => Inv) Inv := by
  induction es generalizing v with
  | nil => exact .pure fun _ hs => hs.1
  | cons e es ih =>
    have hquiet : ∀ {α : Type} {c : Handler α}, Quietly c →
        Triple (fun s => Inv s ∧ ∀ e' ∈ e :: es, Holds e'.2.taskInfo s) c
          (fun _ s => Inv s ∧ ∀ e' ∈ e :: es, Holds e'.2.taskInfo s) Inv := fun hc =>
      (hc.keeps fun _ _ hb hs => ⟨h.sameBooks hb hs.1, fun e' he' => hb.holds (hs.2 e' he')⟩).weaken
        (fun _ hs => hs) (fun _ _ hs => hs) fun _ hs => hs.1
    refine .bind (R := fun _ s => Inv s ∧ ∀ e' ∈ es, Holds e'.2.taskInfo s) ?_ fun v' => ih v'
    refine .ite (fun _ => ?_) fun _ => .pure fun _ hs =>
      ⟨hs.1, fun e' he' => hs.2 e' (by simp [he'])⟩
    refine .bind (hquiet (.orRaise _ _)) fun sid => .bind
      (hquiet (.ite (Mutely.adoptPending _ _ _ _ _).silently.quietly (.pure _))) fun v' => ?_
    refine .bind (R := fun _ s => Inv s ∧ ∀ e' ∈ es, Holds e'.2.taskInfo s) ?_
      fun _ => .pure fun _ hs => hs
    refine (Triple.of_after fun s hs => ?_).weaken (fun _ hs => hs)
      (fun _ _ hs => hs) fun _ hs => hs.1
    exact ⟨h.debit s m.slaveId e.2.taskInfo (hs.2 e (by simp)) hs.1,
      fun e' he' => (hs.2 e' (by simp [he'])).debitSlave⟩

theorem taskEntries_holds :
    Triple Inv taskEntries (fun es s => Inv s ∧ ∀ e ∈ es, Holds e.2.taskInfo s) Inv := by
  refine .get_bind fun s hs => ?_
  dsimp only
  split
  · exact .throw fun _ hs' => hs' ▸ hs
  · refine .pure fun s' hs' => ?_
    subst hs'
    refine ⟨hs, fun e he => ?_⟩
    have hlookup := AList.mem_lookup_iff.mpr he
    rw [Option.mem_def] at hlookup
    rw [Holds, h.keyed hs hlookup, hlookup]
    rw [Option.map_some, TaskRecord.bill, h.keyed hs hlookup]

theorem startPending (m : RegisterExecutorRunnerMessage) :
    Triple Inv (startPending env m) (fun _ => Inv) Inv := by
  refine .bind h.taskEntries_holds fun es => .bind (h.pendingTasks m es {}) fun v =>
    .bind (h.quiet (.ite (.pure _) ?_)) fun _ =>
    h.quiet (Silently.quietly (.modifySlave _ _ fun _ => ⟨by rfl, by rfl⟩))
  exact .bind (Silently.emit _ rfl).quietly fun _ =>
    .ite (.pure _) (.bind (Quietly.scaleUp _ _) fun _ => .pure _)

theorem registerExecutorRunner (entry : Entry) (m : RegisterExecutorRunnerMessage)
    (hm : ∀ t ∈ m.tasks, N (t.resources.getD [])) :
    Triple Inv (registerExecutorRunner env entry m) (fun _ => Inv) Inv := by
  refine .bind (h.quiet .get) fun _ => .ite (fun _ => ?_) fun _ => ?_
  · refine .bind (Triple.of_after fun s hs => h.addSlave s m hs) fun _ => ?_
    split
    · exact h.startPending m
    · rename_i t rest heq
      exact .bind (h.quiet (Silently.quietly (.modifySlave _ _ fun _ => ⟨by rfl, by rfl⟩))) fun _ =>
        h.rebuildTasks _ _ _ fun t' ht' => hm t' (heq ▸ ht')
  · refine h.quiet (.bind .get fun _ =>
      .ite (Silently.emit _ rfl).quietly (.ite (.ite ?_ ?_) (.pure _)))
    · exact (Silently.retry _ _).quietly
    · exact (Silently.emit _ rfl).quietly

theorem reregisterTasks (slaveId jobId channel : String) (ts : List TaskInfo)
    (hts : ∀ t ∈ ts, N (t.resources.getD [])) :
    Triple Inv (reregisterTasks env slaveId jobId channel ts) (fun _ => Inv) Inv := by
  induction ts with
  | nil => exact .pure fun _ hs => hs
  | cons t ts ih =>
    refine .bind (.bind (h.quiet (Silently.quietly (.modifySlave _ _ fun x => ?_))) fun _ =>
      .bind (h.store_holds (rebuiltRecord jobId t) (hts t (by simp))) fun _ =>
      h.debit_holds slaveId t) fun _ => ih fun t' ht' => hts t' (by simp [ht'])
    unfold rebuildExecutor
    split <;> exact ⟨rfl, rfl⟩

theorem reconcileTask (hN : N []) (entry : Entry) (st : ReconcileStatus) :
    Triple Inv (reconcileTask env entry st) (fun _ => Inv) Inv := by
  refine .bind (h.quiet .get) fun s =>
    .bind (h.quiet (Mutely.resolveReconcileSlave _ _).silently.quietly) fun slaveId => ?_
  split
  · exact .throw fun _ hs => hs
  · exact .pure fun _ hs => hs
  · exact h.quiet (Silently.sendStatusUpdate _ _ _).quietly
  · refine .bind (R := fun _ => Inv) ?_ fun r => ?_
    · cases slaveId with
      | some id => exact .bind (h.quiet .get) fun _ => .pure fun _ hs => hs
      | none =>
        refine .bind (h.quiet (Mutely.waitingSince _ _).silently.quietly) fun since => ?_
        cases since with
        | none => exact .pure fun _ hs => hs
        | some t =>
          refine .bind (h.quiet .get) fun _ => .ite (fun _ => ?_) fun _ => .pure fun _ hs => hs
          exact .bind (Triple.of_after fun s hs => h.replaceTaskDict s entry _ hN hs _) fun _ =>
            .pure fun _ hs => hs
    · cases r with
      | none => exact .pure fun _ hs => hs
      | some r => exact h.quiet (Silently.sendStatusUpdate _ _ _).quietly

theorem reconcileTasks (hN : N []) (entry : Entry) (statuses : List ReconcileStatus) :
    Triple Inv (reconcileTasks env entry statuses) (fun _ => Inv) Inv := by
  have hexplicit : Triple Inv (reconcileExplicit env entry statuses) (fun _ => Inv) Inv := by
    induction statuses with
    | nil => exact .pure fun _ hs => hs
    | cons st rest ih => exact .bind (h.reconcileTask hN entry st) fun _ => ih
  refine .bind (h.quiet .get) fun _ => .ite (fun _ => ?_) fun _ =>
    h.quiet (Silently.retry _ _).quietly
  cases statuses with
  | nil =>
    exact .bind (h.quiet Mutely.taskEntries.silently.quietly) fun _ =>
      h.quiet (Silently.reconcileImplicit _).quietly
  | cons st rest => exact hexplicit

/-! ## Requests and events -/

theorem handle_of_endsNoTask (hN : N []) (entry : Entry) (r : Request) (hr : r.endsNoTask)
    (htasks : ∀ t ∈ r.tasks, N (t.resources.getD [])) :
    Triple Inv (handle env entry r) (fun _ => Inv) Inv := by
  cases r with
  | launchTasks m => exact h.launchTasks entry m htasks
  | reconcileTasks statuses => exact h.reconcileTasks hN entry statuses
  | reviveOffers => exact h.quiet Idly.reviveOffers.silently.quietly
  | registerExecutorRunner m => exact h.registerExecutorRunner entry m htasks
  | registerExecutor m => exact h.quiet (Quietly.registerExecutor env entry m)
  | killTask taskId => cases hr
  | statusUpdate u => cases hr
  | reregisterExecutor m => cases hr

theorem step_of_handle {e : Event} (hs : Inv s)
    (hhandle : ∀ entry r, e.request = some (entry, r) → Inv ((handle env entry r).after s)) :
    Inv (step env s e) := by
  cases e with
  | queued r => exact h.postprocess _ (hhandle .queue r rfl)
  | http c =>
    cases c with
    | revive => exact hs
    | acceptLaunch offerIds refuseSeconds tasks => exact hhandle .http _ rfl
    | decline offerIds refuseSeconds => exact hhandle .http _ rfl
    | kill taskId => exact hhandle .http _ rfl
    | reconcile tasks => exact hhandle .http _ rfl
    | updateExecutor u => exact hhandle .http _ rfl
    | subscribeExecutor executorId => exact hhandle .http _ rfl
  | deleteJob jobId => exact h.sameBooks ((Quietly.deleteJob jobId).sameBooks s) hs
  | postprocessed => exact h.postprocess s hs
  | clock now => exact h.sameBooks (.of_clock s now) hs

end Stable

end Urb
