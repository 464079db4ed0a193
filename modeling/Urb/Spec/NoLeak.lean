import Urb.Spec.Filed

/-!
# What a terminal update gives back

An executor that reports the end of a task expects the service to forget the task
and to give its resources back to the slave. `handle_status_update` does both in one
branch only: for the states `TASK_FINISHED` and `TASK_FAILED`, for a slave that is found
under the id as it is given, and if the port ranges of the task can be added to those of
the slave. This file shows that the branch is also sufficient, at every state that a
run of queued requests reaches.
-/

namespace Urb

open Sample (finished launched start)

open EStateM (Keeps Triple after bind_apply get_apply modify_apply)

/-! ## Runs of queued requests -/

/-- The events of a service that gets its requests from the message queue. -/
def Event.fromQueue : Event → Bool
  | .queued _ => true
  | .postprocessed => true
  | .clock _ => true
  | _ => false

theorem deleteElements_step_fromQueue {env : Env} {s : State} {e : Event} (he : e.fromQueue)
    (hs : s.deleteElements = []) : (step env s e).deleteElements = [] := by
  cases e with
  | queued r => rfl
  | postprocessed => rfl
  | clock now => exact hs
  | http c => cases he
  | deleteJob jobId => cases he

theorem deleteElements_run_fromQueue {env : Env} {s : State} {events : List Event}
    (he : ∀ e ∈ events, e.fromQueue) (hs : s.deleteElements = []) :
    (run env s events).deleteElements = [] := by
  induction events generalizing s with
  | nil => exact hs
  | cons e events ih =>
    have hstep : (step env s e).deleteElements = [] :=
      deleteElements_step_fromQueue (he e (by simp)) hs
    exact ih (fun e' he' => he e' (by simp [he'])) hstep

/-! ## The property and its condition -/

/-- The task is gone, its scalar resources are back and the slave counts one task less. -/
structure Released (s s' : State) (taskId slaveId : String) (rs : List Resource) : Prop where
  gone : s'.framework.tasks.lookup taskId = none
  credited : ∃ x y, s.framework.slaves.lookup slaveId = some x ∧
    s'.framework.slaves.lookup slaveId = some y ∧
    (∀ n, y.scalar n = x.scalar n + amountOf rs n) ∧ y.taskCount = x.taskCount - 1

/-- The update is one that releases the task on the slave. -/
structure Settles (env : Env) (u : StatusUpdate) (s : State) (r : TaskRecord) (slaveId : String)
    (x : Slave) : Prop where
  active : s.tracking = .active
  state : u.state = .finished ∨ u.state = .failed
  names : u.slave r.taskInfo = some slaveId
  ports : PortsOk env.portAdd x.ports (r.taskInfo.resources.getD [])

theorem TaskState.releases_iff {st : TaskState} : st.releases ↔ st = .finished ∨ st = .failed := by
  simp [TaskState.releases]

/-! ## Releasing a task -/

section Release

variable {env : Env} {s : State} {k : String} {x : Slave} {t : TaskInfo} (taskId : String)

theorem releaseTask_custom (hx : s.framework.slaves.lookup k = some x)
    (hcustom : x.isCommandExecutor = false)
    (hadj : Adjustable env.portAdd x (t.resources.getD [])) :
    ∃ x1, Moved x x1 (fun n => amountOf (t.resources.getD []) n) ∧
      ((releaseTask env k taskId x t).after s).framework.slaves =
        s.framework.slaves.insert k { x1 with taskCount := x.taskCount - 1 } ∧
      ((releaseTask env k taskId x t).after s).deleteElements =
        s.deleteElements ++ [⟨.tasks, taskId⟩] := by
  obtain ⟨x1, hmoved, hrun⟩ := creditSlave_ok hx hadj
  refine ⟨x1, hmoved, ?_⟩
  -- whether or not there is an offer event, the rest of the handler only adds the deletion
  by_cases hevent : s.framework.offerEvent
  all_goals
    have hevent' : (s.framework.setSlave k { x1 with taskCount := x.taskCount - 1 }).offerEvent =
        s.framework.offerEvent := rfl
    simp only [after, releaseTask, releaseCustom, hcustom, Bool.false_eq_true, if_false,
      bind_apply, hrun, get_apply, hevent', hevent, if_true, emit, modifyFramework,
      addDeleteElement, modify_apply, EStateM.pure_apply, Framework.slaves_modifyTask,
      Framework.slaves_setSlave, and_self]

theorem releaseTask_stuck (hx : s.framework.slaves.lookup k = some x)
    (hcustom : x.isCommandExecutor = false)
    (hadj : ¬Adjustable env.portAdd x (t.resources.getD [])) :
    ((releaseTask env k taskId x t).after s).framework.tasks = s.framework.tasks ∧
      ((releaseTask env k taskId x t).after s).deleteElements = s.deleteElements := by
  obtain ⟨e, s1, hrun, htasks, hdes⟩ := creditSlave_error hx hadj
  simp only [after, releaseTask, releaseCustom, hcustom, Bool.false_eq_true, if_false,
    bind_apply, hrun]
  exact ⟨htasks, hdes⟩

theorem slaves_releaseTask_ne {other : String} (hne : other ≠ k) :
    ((releaseTask env k taskId x t).after s).framework.slaves.lookup other =
      s.framework.slaves.lookup other := by
  let R : State → State → Prop := fun s s' =>
    s'.framework.slaves.lookup other = s.framework.slaves.lookup other
  have : IsPreorder State R :=
    { refl := fun _ => rfl, trans := fun _ _ _ hab hbc => hbc.trans hab }
  have hmodify : ∀ g : Slave → Slave, Keeps R (modifyFramework (·.modifySlave k g)) := by
    intro g
    refine .modify fun s => ?_
    simp only [R, Framework.lookup_modifySlave, if_neg hne]
  have hcredit : Keeps R (creditSlave env k t) := by
    intro s
    refine Triple.after (P := (· = s)) ?_ rfl
    refine (creditSlave_spec env k t s).weaken (fun _ h => h) (fun _ s' h => ?_) fun s' h => ?_
    · obtain ⟨_, _, _, _, _, rfl⟩ := h
      simp only [R, Framework.slaves_setSlave, AList.lookup_insert_ne hne]
    · rcases h with ⟨-, rfl⟩ | ⟨_, _, _, _, _, _, _, rfl⟩
      · rfl
      · simp only [R, Framework.slaves_setSlave, AList.lookup_insert_ne hne]
  have hcommand : Keeps R (releaseCommand k taskId x) :=
    .bind (.orRaise _ _) fun _ => .bind (.orRaise _ _) fun _ =>
    .bind (hmodify _) fun _ => .ite (.modify fun _ => rfl) (.pure _)
  have hcustom : Keeps R (releaseCustom env k t) :=
    .bind hcredit fun _ => .bind .get fun _ =>
    .ite (.modify fun _ => rfl) (.pure _)
  have hend : ∀ g : TaskRecord → TaskRecord,
      Keeps R (modifyFramework (·.modifyTask taskId g)) := by
    intro g
    refine .modify fun s => ?_
    simp only [R, Framework.slaves_modifyTask]
  have hall : Keeps R (releaseTask env k taskId x t) :=
    .bind (.ite hcommand hcustom) fun _ => .bind .get fun _ =>
    .bind (hend _) fun _ => .modify fun _ => rfl
  exact hall s

end Release

/-! ## Updates of a debited task -/

section Update

variable {env : Env} {s : State} {u : StatusUpdate} {r : TaskRecord} {slaveId : String}
  {rs : List Resource} {x : Slave}

theorem released_of_settles (hf : Filed s) (hq : s.deleteElements = [])
    (hc : Charged s u.taskId r slaveId rs) (hx : s.framework.slaves.lookup slaveId = some x)
    (hcustom : x.isCommandExecutor = false) (h : Settles env u s r slaveId x) :
    Released s (handleQueued env (.statusUpdate u) s) u.taskId slaveId rs := by
  have hbill : rs = r.taskInfo.resources.getD [] := hf.bill hc
  have hadj : Adjustable env.portAdd x (r.taskInfo.resources.getD []) :=
    ⟨hbill ▸ hf.fits hc hx, h.ports⟩
  have hhandle : handle env .queue (.statusUpdate u) s = handleStatusUpdate env u s := by
    simp only [handle, statusUpdate, bind_apply, get_apply, h.active, if_true]
  have hrelease : Releases u s r slaveId x :=
    ⟨TaskState.releases_iff.mpr h.state, hc.lookup, h.names, hx⟩
  rcases handleStatusUpdate_cases env u s with ⟨r', k, x', s1, hr', hu, hrun⟩ | ⟨hnot, -⟩
  · obtain rfl : r' = r := Option.some.inj (hr'.record.symm.trans hc.lookup)
    obtain rfl : k = slaveId := Option.some.inj (hr'.names.symm.trans h.names)
    obtain rfl : x' = x := Option.some.inj (hr'.slave.symm.trans hx)
    have hx1 : s1.framework.slaves.lookup k = some x' := by rw [hu.slaves]; exact hx
    obtain ⟨x1, hmoved, hslaves, hdes⟩ := releaseTask_custom u.taskId hx1 hcustom hadj
    rw [hu.pending, hq, List.nil_append] at hdes
    have hafter : (handle env .queue (.statusUpdate u)).after s =
        (releaseTask env k u.taskId x' r'.taskInfo).after s1 := by
      rw [after, hhandle, hrun, after]
    constructor
    · rw [handleQueued, hafter, targetPostprocessor, lookup_tasks_deleteAll, hdes]
      simp
    · refine ⟨x', { x1 with taskCount := x'.taskCount - 1 }, hx, ?_, fun n => ?_, rfl⟩
      · rw [handleQueued, hafter, targetPostprocessor, lookup_slaves_deleteAll, hdes, hslaves,
          AList.lookup_insert]
        simp
      · rw [hbill]
        exact hmoved.scalar n
  · exact (hnot r slaveId x hrelease).elim

theorem not_released_of_kept {s' : State} (hq : s'.deleteElements = [])
    (hr : s'.framework.tasks.lookup u.taskId ≠ none) :
    ¬Released s (targetPostprocessor s') u.taskId slaveId rs := by
  intro h
  have hgone := h.gone
  rw [targetPostprocessor, lookup_tasks_deleteAll, hq, if_neg (List.not_mem_nil)] at hgone
  exact hr hgone

theorem settles_of_released (hf : Filed s) (hq : s.deleteElements = [])
    (hc : Charged s u.taskId r slaveId rs) (hx : s.framework.slaves.lookup slaveId = some x)
    (hcustom : x.isCommandExecutor = false)
    (h : Released s (handleQueued env (.statusUpdate u) s) u.taskId slaveId rs) :
    Settles env u s r slaveId x := by
  have hbill : rs = r.taskInfo.resources.getD [] := hf.bill hc
  by_cases hactive : s.tracking = .active
  case neg =>
    -- the request is only put back
    have hretry : (handle env .queue (.statusUpdate u)).after s =
        { s with retryQueue := s.retryQueue ++ [.statusUpdate u] } := by
      simp only [handle, statusUpdate, after, bind_apply, get_apply,
        hactive, if_false, retry, modify_apply]
    rw [handleQueued, hretry] at h
    refine absurd h (not_released_of_kept hq ?_)
    rw [hc.lookup]
    simp
  have hafter : (handle env .queue (.statusUpdate u)).after s =
      (handleStatusUpdate env u).after s := by
    simp only [handle, statusUpdate, after, bind_apply, get_apply,
      hactive, if_true]
  have hkept : ∀ {s1}, Updated u s s1 → s1.framework.tasks.lookup u.taskId ≠ none := by
    intro s1 hu
    rw [hu.framework, Framework.lookup_modifyTask, if_pos rfl, hc.lookup]
    simp
  rw [handleQueued, hafter] at h
  rcases handleStatusUpdate_cases env u s with ⟨r', k, x', s1, hr', hu, hrun⟩ | ⟨-, hu⟩
  case inr =>
    -- the task is not released on any slave
    exact absurd h (not_released_of_kept (hu.pending.trans hq) (hkept hu))
  obtain rfl : r' = r := Option.some.inj (hr'.record.symm.trans hc.lookup)
  have hrelease : (handleStatusUpdate env u).after s =
      (releaseTask env k u.taskId x' r'.taskInfo).after s1 := by
    rw [after, hrun, after]
  rw [hrelease] at h
  by_cases hk : slaveId = k
  · obtain rfl := hk
    obtain rfl : x' = x := Option.some.inj (hr'.slave.symm.trans hx)
    refine ⟨hactive, TaskState.releases_iff.mp hr'.state, hr'.names, ?_⟩
    by_contra hports
    have hx1 : s1.framework.slaves.lookup slaveId = some x' := by rw [hu.slaves]; exact hx
    obtain ⟨htasks, hdes⟩ := releaseTask_stuck u.taskId hx1 hcustom
      (fun hadj : Adjustable env.portAdd x' (r'.taskInfo.resources.getD []) => hports hadj.portsOk)
    refine not_released_of_kept (hdes.trans (hu.pending.trans hq)) ?_ h
    rw [htasks]
    exact hkept hu
  · -- the task goes, but the slave that was debited gets nothing back
    obtain ⟨x0, y, hx0, hy, -, hcount⟩ := h.credited
    have hy' := lookup_slaves_postprocessor hy
    rw [slaves_releaseTask_ne _ hk, hu.slaves, hx0] at hy'
    cases hy'
    omega

end Update

/-- In every state that queued requests lead to, an update of a task that was debited on a
    live slave with a custom executor gives everything back exactly if it settles the task. -/
theorem released_iff_settles (env : Env) (s : State) (hs : Fresh s) (hq : s.deleteElements = [])
    (events : List Event) (he : ∀ e ∈ events, e.fromQueue) (u : StatusUpdate) (r : TaskRecord)
    (slaveId : String) (rs : List Resource) (x : Slave)
    (hc : Charged (run env s events) u.taskId r slaveId rs)
    (hx : (run env s events).framework.slaves.lookup slaveId = some x)
    (hcustom : x.isCommandExecutor = false) :
    Released (run env s events) (run env s (events ++ [.queued (.statusUpdate u)])) u.taskId
        slaveId rs ↔
      Settles env u (run env s events) r slaveId x := by
  have hf : Filed (run env s events) := (Filed.of_fresh hs).run env events
  have hnil : (run env s events).deleteElements = [] := deleteElements_run_fromQueue he hq
  have hrun : run env s (events ++ [.queued (.statusUpdate u)]) =
      handleQueued env (.statusUpdate u) (run env s events) := by
    simp only [run, List.foldl_append, List.foldl_cons, List.foldl_nil, step]
  rw [hrun]
  constructor
  · intro h
    exact settles_of_released hf hnil hc hx hcustom h
  · intro h
    exact released_of_settles hf hnil hc hx hcustom h

/-- A task that finishes gives its CPU back. -/
theorem released_finished : Released (run Sample.env start launched)
      (run Sample.env start (launched ++ [.queued (.statusUpdate finished)]))
      "t" Sample.slaveId (((Sample.task "t").resources).getD []) := by
  obtain ⟨r, hr, hinfo⟩ : ∃ r : TaskRecord,
      (run Sample.env start launched).framework.tasks.lookup "t" = some r ∧
        r.taskInfo = Sample.task "t" := Option.map_eq_some_iff.mp (by decide +kernel)
  obtain ⟨x, hx, hcustom⟩ : ∃ x : Slave,
      (run Sample.env start launched).framework.slaves.lookup Sample.slaveId =
        some x ∧ x.isCommandExecutor = false := Option.map_eq_some_iff.mp (by decide +kernel)
  refine (released_iff_settles Sample.env start ⟨rfl, rfl, rfl⟩ rfl launched
    (by decide) finished r Sample.slaveId _ x ⟨hr, by decide +kernel⟩ hx hcustom).mpr ?_
  refine ⟨by decide +kernel, Or.inl rfl, rfl, ?_⟩
  rw [hinfo]
  exact ⟨x.ports, rfl, trivial⟩

/-- A task that its executor reports as killed stays in `task_dict`, and the slave stays
    short of its CPU with the task counted. -/
theorem killed_task_leaks :
    let s := run Sample.env start launched
    let s' := run Sample.env start
      (launched ++ [.queued (.statusUpdate { finished with state := .killed })])
    chargedOn "t" s.effects = some (Sample.slaveId, (Sample.task "t").resources.getD []) ∧
    (s'.framework.tasks.lookup "t").map (·.state) = some .killed ∧
    (s'.framework.slaves.lookup Sample.slaveId).map
      (fun x => (x.isCommandExecutor, x.cpus, x.taskCount)) = some (false, 3, 1) ∧
    ¬Released s s' "t" Sample.slaveId ((Sample.task "t").resources.getD []) := by
  refine ⟨by decide +kernel, by decide +kernel, by decide +kernel, fun h => ?_⟩
  have hgone := congrArg Option.isSome h.gone
  revert hgone
  decide +kernel

end Urb
