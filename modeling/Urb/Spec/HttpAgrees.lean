import Urb.Spec.Reconciled

/-!
# HTTP calls and queued requests

An HTTP call runs the handler of the corresponding queued request, but nothing carries out
the deletions that the handler queues, a request that the handler puts back is dropped,
and `http_revive` cannot be called at all. This file determines, for each of the calls of
an HTTP scheduler or executor, the states in which the call leaves the same framework as
the queued request: those in which the handler has nothing to delete and nothing to put
back.
-/

namespace Urb

open Sample (env launched)
open Sample (finished start)

open EStateM (Keeps after_bind bind_apply get_apply)

variable {s : State} {de : DeleteElement} {taskId : String}

/-! ## States that agree -/

/-- The framework is the same, up to the field in which records name their slaves, and the same
    requests are to be retried. -/
structure Agree (s1 s2 : State) : Prop where
  framework : s1.framework.named = s2.framework.named
  retryQueue : s1.retryQueue = s2.retryQueue

theorem Framework.has_named (f : Framework) (de : DeleteElement) : f.named.Has de ↔ f.Has de := by
  obtain ⟨d, k⟩ := de
  cases d with
  | tasks =>
    show k ∈ f.named.tasks ↔ k ∈ f.tasks
    rw [Framework.tasks_named, AList.mem_mapVal]
  | slaves => exact Iff.rfl
  | offers => exact Iff.rfl

theorem Agree.has {s1 s2 : State} (h : Agree s1 s2)
    (hde : s1.framework.Has de) : s2.framework.Has de := by
  rw [← Framework.has_named, ← h.framework, Framework.has_named]
  exact hde

theorem not_agree_of_queued {s1 s2 : State} (hde : de ∈ s2.deleteElements)
    (hhas : s1.framework.Has de) : ¬Agree s1 (targetPostprocessor s2) :=
  fun h => not_has_deleteAll hde s2.framework (h.has hhas)

/-- For states that agree, post-processing one of them makes no difference exactly if there is
    nothing to delete. -/
theorem agree_postprocessor_iff {s1 s2 : State} (h : Agree s1 s2) :
    Agree s1 (targetPostprocessor s2) ↔ Swept s2 := by
  constructor
  · intro hagree de hde hhas
    have hhas1 : s1.framework.Has de := by
      rw [← Framework.has_named, h.framework, Framework.has_named]
      exact hhas
    exact not_agree_of_queued hde hhas1 hagree
  · intro hswept
    have hself : (targetPostprocessor s2).framework = s2.framework := deleteAll_eq_self hswept
    exact ⟨by rw [hself]; exact h.framework, h.retryQueue⟩

theorem Agree.refl (s : State) : Agree s s := ⟨rfl, rfl⟩

theorem not_agree_of_retried {m : Entry → Handler Unit} {r : Request}
    (hrun : ∀ entry, (m entry).after s = (retry entry r).after s) :
    ¬Agree ((m .http).after s) (targetPostprocessor ((m .queue).after s)) := by
  intro h
  rw [hrun, hrun] at h
  have hlength : s.retryQueue.length = (s.retryQueue ++ [r]).length :=
    congrArg List.length h.retryQueue
  simp at hlength

/-! ## Launching and declining -/

theorem agree_launchTasks_iff (env : Env) (m : LaunchTasksMessage) (s : State) :
    Agree ((launchTasks env .http m).after s)
        (targetPostprocessor ((launchTasks env .queue m).after s)) ↔
      s.tracking = .active ∧ Swept s ∧ LaunchKept env m s.withTaskDict := by
  by_cases hactive : s.tracking = .active
  · have hsame : (launchTasks env .http m).after s = (launchTasks env .queue m).after s := by
      simp only [launchTasks, after_bind, get_apply, hactive, if_true]
    rw [hsame, agree_postprocessor_iff (.refl _), swept_launchTasks env .queue m hactive]
    simp only [hactive, true_and]
  · have hrun : ∀ entry, (launchTasks env entry m).after s =
        (retry entry (.launchTasks m)).after s := by
      intro entry
      simp only [launchTasks, after_bind, get_apply, hactive, if_false]
    exact iff_of_false (not_agree_of_retried hrun) fun h => hactive h.1

/-! ## Status updates -/

theorem agree_statusUpdate_iff (env : Env) (u : StatusUpdate) (s : State) :
    Agree ((statusUpdate env .http u).after s)
        (targetPostprocessor ((statusUpdate env .queue u).after s)) ↔
      s.tracking = .active ∧ Swept s ∧ UpdateKept env u s := by
  by_cases hactive : s.tracking = .active
  · have hrun : ∀ entry, (statusUpdate env entry u).after s =
        (handleStatusUpdate env u).after s := by
      intro entry
      simp only [statusUpdate, after_bind, get_apply, hactive, if_true]
    rw [hrun, hrun, agree_postprocessor_iff (.refl _), swept_handleStatusUpdate]
    simp only [hactive, true_and]
  · have hrun : ∀ entry, (statusUpdate env entry u).after s =
        (retry entry (.statusUpdate u)).after s := by
      intro entry
      simp only [statusUpdate, after_bind, get_apply, hactive, if_false]
    exact iff_of_false (not_agree_of_retried hrun) fun h => hactive h.1

/-! ## Killing -/

instance Grows.isPreorder : IsPreorder State Grows where
  refl := .refl
  trans _ _ _ := .trans

theorem creditUnlessCommand_grows (env : Env) (k : String) (t : TaskInfo) :
    Keeps Grows (creditUnlessCommand env k t) := by
  refine .bind .get fun _ => .bind (.orRaise _ _) fun x => .ite (.pure _) fun s => ?_
  exact (creditSlave_sameKeys env k t s).grows

theorem killKnownTask_queues (env : Env) (task : TaskRecord) (hmem : taskId ∈ s.framework.tasks) :
    ⟨.tasks, taskId⟩ ∈ ((killKnownTask env taskId task).after s).deleteElements ∧
      ((killKnownTask env taskId task).after s).framework.Has ⟨.tasks, taskId⟩ := by
  let s1 : State := (modifyFramework
    (·.modifyTask taskId ({ · with state := .killed, endTime := some s.clock }))).after s
  have hgrows : Grows { s1 with deleteElements := s1.deleteElements ++ [⟨.tasks, taskId⟩] }
      ((killKnownTask env taskId task).after s) := by
    rw [killKnownTask, after_bind, get_apply]
    dsimp only
    rw [after_bind]
    show Grows _ (EStateM.after (addDeleteElement .tasks taskId >>= _) s1)
    rw [after_bind]
    refine Keeps.bind (Silently.sendStatusUpdate _ _ _).quietly.grows (fun _ =>
      .bind .get fun f => ?_) _
    split
    · exact .bind (creditUnlessCommand_grows _ _ _) fun _ => Quietly.grows <|
        .bind (Mutely.sendKillTask _ _).silently.quietly fun _ =>
          .ite (.bind Mutely.setOfferEvent.silently.quietly fun _ => .pure _) (.pure _)
    · exact Quietly.grows <| .bind (Mutely.deletePendingJob _).silently.quietly fun _ =>
        .bind Mutely.setOfferEvent.silently.quietly fun _ => .pure _
  have hmem1 : s1.framework.Has ⟨.tasks, taskId⟩ :=
    (Framework.mem_modifyTask s.framework taskId taskId _).mpr hmem
  exact ⟨hgrows.pending (by simp), hgrows.has _ hmem1⟩

theorem killTask_queues (env : Env) (entry : Entry)
    (hactive : s.tracking = .active) (hmem : taskId ∈ s.framework.tasks) :
    ⟨.tasks, taskId⟩ ∈ ((killTask env entry taskId).after s).deleteElements ∧
      ((killTask env entry taskId).after s).framework.Has ⟨.tasks, taskId⟩ := by
  obtain ⟨task, htask⟩ := Option.isSome_iff_exists.mp (AList.lookup_isSome.mpr hmem)
  have hof : killTaskOf env taskId s = killKnownTask env taskId task s := by
    simp only [killTaskOf, bind_apply, get_apply, htask]
  obtain ⟨hqueued, hhas⟩ := killKnownTask_queues env task hmem
  have hgrows : Grows ((killKnownTask env taskId task).after s)
      ((killTask env entry taskId).after s) := by
    simp only [killTask, after_bind, get_apply, hactive, if_true, hof]
    rw [EStateM.after_eq_state]
    cases killKnownTask env taskId task s with
    | error e s' => exact .refl s'
    | ok done s' =>
      have hrest : Quietly (if done = true then pure () else retry entry (.killTask taskId)) :=
        .ite (.pure _) (Silently.retry _ _).quietly
      exact hrest.grows s'
  exact ⟨hgrows.pending hqueued, hgrows.has _ hhas⟩

theorem agree_killTask_iff (env : Env) (taskId : String) (s : State) :
    Agree ((killTask env .http taskId).after s)
        (targetPostprocessor ((killTask env .queue taskId).after s)) ↔
      s.tracking = .active ∧ Swept s ∧ taskId ∉ s.framework.tasks := by
  by_cases hactive : s.tracking = .active
  · by_cases hmem : taskId ∈ s.framework.tasks
    · have hhas := (killTask_queues env .http hactive hmem).2
      have hqueued := (killTask_queues env .queue hactive hmem).1
      exact iff_of_false (not_agree_of_queued hqueued hhas) fun h => h.2.2 hmem
    · have hrun : ∀ entry, (killTask env entry taskId).after s = s := by
        intro entry
        simp only [killTask, killTaskOf, after_bind, bind_apply, get_apply,
          hactive, if_true, AList.lookup_eq_none.mpr hmem]
        rfl
      rw [hrun, hrun, agree_postprocessor_iff (.refl _)]
      simp only [hactive, true_and, hmem, not_false_eq_true, and_true]
  · have hrun : ∀ entry, (killTask env entry taskId).after s =
        (retry entry (.killTask taskId)).after s := by
      intro entry
      simp only [killTask, after_bind, get_apply, hactive, if_false]
    exact iff_of_false (not_agree_of_retried hrun) fun h => hactive h.1

/-! ## Reconciling -/

instance SameKeys.isPreorder : IsPreorder State SameKeys where
  refl := .refl
  trans _ _ _ := .trans

theorem reconcileImplicit_sameKeys (tasks : List (Sigma fun _ : String => TaskRecord))
    (s : State) : SameKeys s ((reconcileImplicit tasks).after s) := by
  induction tasks generalizing s with
  | nil => exact .refl s
  | cons t rest ih =>
    have htail : Keeps SameKeys (reconcileImplicit rest) := ih
    exact Keeps.bind (.ite (.ite (sendStatusUpdate_sameKeys _ _ _) (.throw _)) (.pure _))
      (fun _ => htail) s

theorem agree_reconcileTasks_iff (env : Env) (statuses : List ReconcileStatus) (s : State) :
    Agree ((reconcileTasks env .http statuses).after s)
        (targetPostprocessor ((reconcileTasks env .queue statuses).after s)) ↔
      s.tracking = .active ∧ SweptOthers s ∧ (SweptTasks s ∨ GivesUp env statuses s) := by
  by_cases hactive : s.tracking = .active
  · simp only [hactive, true_and]
    cases statuses with
    | nil =>
      have hrun : ∀ entry, (reconcileTasks env entry []).after s =
          (do reconcileImplicit (← taskEntries) : Handler Unit).after s := by
        intro entry
        simp only [reconcileTasks, after_bind, get_apply, hactive, if_true]
      have hkeys : SameKeys s ((do reconcileImplicit (← taskEntries) : Handler Unit).after s) := by
        simp only [taskEntries, after_bind, bind_apply, get_apply]
        cases s.framework.strayTask with
        | some t => exact .refl s
        | none => exact reconcileImplicit_sameKeys _ s
      rw [hrun, hrun, agree_postprocessor_iff (.refl _), hkeys.swept_iff, GivesUp, or_false,
        swept_iff]
    | cons st rest =>
      have hrun : ∀ entry, (reconcileTasks env entry (st :: rest)).after s =
          (reconcileExplicit env entry (st :: rest)).after s := by
        intro entry
        simp only [reconcileTasks, after_bind, get_apply, hactive, if_true]
      have halike := (reconcileExplicit_alike env .http .queue (st :: rest)).after
        (rfl : s.named = s.named)
      obtain ⟨hframework, -, -, hretry, -⟩ := State.named_eq_iff.mp halike
      rw [hrun, hrun, agree_postprocessor_iff ⟨hframework, hretry⟩, swept_reconcileExplicit]
  · have hrun : ∀ entry, (reconcileTasks env entry statuses).after s =
        (retry entry (.reconcileTasks statuses)).after s := by
      intro entry
      simp only [reconcileTasks, after_bind, get_apply, hactive, if_false]
    exact iff_of_false (not_agree_of_retried hrun) fun h => hactive h.1

/-! ## Reviving offers -/

/-- Everything may be offered at once, so that reviving the offers changes nothing. -/
def AllOffered (f : Framework) : Prop :=
  f.placeholderOfferableAfter = 0 ∧
    ∀ k x, f.slaves.lookup k = some x → x.offerable = true ∧ x.offerableAfter = 0

theorem named_resetOffers_iff (f : Framework) : f.named = (resetOffers f).named ↔ AllOffered f := by
  have hslaves : f.slaveDict = f.slaveDict.map
      (·.mapVal fun x => { x with offerable := true, offerableAfter := 0 }) ↔
      ∀ k x, f.slaves.lookup k = some x → x.offerable = true ∧ x.offerableAfter = 0 := by
    have hreset : ∀ x : Slave, { x with offerable := true, offerableAfter := 0 } = x ↔
        x.offerable = true ∧ x.offerableAfter = 0 := by
      intro x
      constructor
      · intro h
        rw [← h]
        exact ⟨rfl, rfl⟩
      · intro h
        rw [← h.1, ← h.2]
    unfold Framework.slaves
    cases f.slaveDict with
    | none => simp
    | some d =>
      rw [Option.map_some, Option.some.injEq, eq_comm, AList.mapVal_eq_self_iff]
      simp only [hreset, Option.getD_some]
  simp only [Framework.named, resetOffers, Framework.mk.injEq, true_and, and_true, AllOffered]
  rw [hslaves, and_comm]

theorem reviveOffers_after (hactive : s.tracking = .active) :
    (reviveOffers.after s).framework = resetOffers s.framework ∧
      (reviveOffers.after s).deleteElements = s.deleteElements ∧
      (reviveOffers.after s).retryQueue = s.retryQueue := by
  simp only [reviveOffers, setOfferEvent, modifyFramework, after_bind, get_apply,
    hactive, if_true, EStateM.modify_apply]
  split
  · exact ⟨rfl, rfl, rfl⟩
  · exact ⟨rfl, rfl, rfl⟩

theorem agree_reviveOffers_iff (s : State) : Agree s (targetPostprocessor (reviveOffers.after s)) ↔
      Swept s ∧ (s.tracking = .active → AllOffered s.framework) := by
  by_cases hactive : s.tracking = .active
  · obtain ⟨hframework, hpending, hretry⟩ := reviveOffers_after hactive
    have hkeys : ∀ de, (resetOffers s.framework).Has de ↔ s.framework.Has de := by
      have hslaves : ∀ k, ((resetOffers s.framework).slaves.lookup k).isSome =
          (s.framework.slaves.lookup k).isSome := fun k => by
        simpa using congrArg Option.isSome (account_resetOffers s.framework k)
      exact has_of_lookups (fun _ => rfl) hslaves rfl
    have hpost : Swept s → (targetPostprocessor (reviveOffers.after s)).framework =
        resetOffers s.framework := by
      intro hs
      have hself : deleteAll s.deleteElements (resetOffers s.framework) =
          resetOffers s.framework := deleteAll_eq_self fun de hde => by rw [hkeys]; exact hs de hde
      rw [targetPostprocessor, hframework, hpending, hself]
    simp only [hactive, true_imp_iff]
    constructor
    · intro h
      have hs : Swept s := fun de hde hhas =>
        not_agree_of_queued (by rw [hpending]; exact hde) hhas h
      refine ⟨hs, (named_resetOffers_iff _).mp ?_⟩
      rw [h.framework, hpost hs]
    · rintro ⟨hs, hall⟩
      exact ⟨by rw [hpost hs]; exact (named_resetOffers_iff _).mpr hall, hretry.symm⟩
  · have hrun : reviveOffers.after s = s := by
      simp only [reviveOffers, after_bind, get_apply, hactive, if_false]
      rfl
    rw [hrun, agree_postprocessor_iff (.refl _)]
    simp only [hactive, false_imp_iff, and_true]

/-! ## All calls -/

/-- The states in which an HTTP call of a scheduler or of an executor does what the queued
    request does. -/
def HttpAgrees (env : Env) (s : State) : HttpCall → Prop
  | .acceptLaunch offerIds refuseSeconds tasks =>
    s.tracking = .active ∧ Swept s ∧
      LaunchKept env { offerIds, refuseSeconds, tasks } s.withTaskDict
  | .decline offerIds refuseSeconds =>
    s.tracking = .active ∧ Swept s ∧ LaunchKept env { offerIds, refuseSeconds } s.withTaskDict
  | .kill taskId => s.tracking = .active ∧ Swept s ∧ taskId ∉ s.framework.tasks
  | .reconcile statuses =>
    s.tracking = .active ∧ SweptOthers s ∧ (SweptTasks s ∨ GivesUp env statuses s)
  | .revive => Swept s ∧ (s.tracking = .active → AllOffered s.framework)
  | .updateExecutor u => s.tracking = .active ∧ Swept s ∧ UpdateKept env u s
  | .subscribeExecutor _ => True

/-- For every state and every call but the subscription of an executor, the call leaves the
    same framework as the queued request exactly in the states of `HttpAgrees`. -/
theorem http_agrees_iff (env : Env) (s : State) (c : HttpCall)
    (hc : ∀ executorId, c ≠ .subscribeExecutor executorId) :
    Agree (handleHttp env c s) (handleQueued env c.request s) ↔ HttpAgrees env s c := by
  cases c with
  | acceptLaunch offerIds refuseSeconds tasks => exact agree_launchTasks_iff env _ s
  | decline offerIds refuseSeconds => exact agree_launchTasks_iff env _ s
  | kill taskId => exact agree_killTask_iff env taskId s
  | reconcile statuses => exact agree_reconcileTasks_iff env statuses s
  | revive => exact agree_reviveOffers_iff s
  | updateExecutor u => exact agree_statusUpdate_iff env u s
  | subscribeExecutor executorId => exact (hc executorId rfl).elim

/-- The executor of a launched task reports it running: the two entry points agree. -/
theorem http_agrees_running : Agree
      (handleHttp env (.updateExecutor { finished with state := .running })
        (run env start launched))
      (handleQueued env (.statusUpdate { finished with state := .running })
        (run env start launched)) := by
  have hnil : (run env start launched).deleteElements = [] := by
    decide +kernel
  have hactive : (run env start launched).tracking = .active := by
    decide +kernel
  refine (http_agrees_iff env (run env start launched)
    (.updateExecutor { finished with state := .running }) (by simp)).mpr
    ⟨hactive, ?_, ?_⟩
  · intro de hde
    rw [hnil] at hde
    cases hde
  · intro task k x hrel
    cases hrel.state

/-- A task that is running is killed: through HTTP its record stays, where the queued request
    removes it. -/
theorem http_kill_disagrees : "t" ∈ (handleHttp env (.kill "t")
        (run env start launched)).framework.tasks ∧
      "t" ∉ (handleQueued env (.killTask "t")
        (run env start launched)).framework.tasks ∧
      ¬Agree
        (handleHttp env (.kill "t") (run env start launched))
        (handleQueued env (.killTask "t")
          (run env start launched)) := by
  have hhttp : "t" ∈ (handleHttp env (.kill "t")
      (run env start launched)).framework.tasks := by decide +kernel
  have hqueued : "t" ∉ (handleQueued env (.killTask "t")
      (run env start launched)).framework.tasks := by decide +kernel
  refine ⟨hhttp, hqueued, fun h => hqueued ?_⟩
  have hhas : Framework.Has _ ⟨.tasks, "t"⟩ := hhttp
  exact h.has hhas

end Urb
