import Urb.ForStd.AList
import Urb.Spec.Filed
import Urb.Spec.Forwarded
import Urb.Spec.JobCap
import Urb.Spec.LaunchAccounts

/-!
# The jobs of place-holders

A task that names a place-holder waits for a job: `launch_tasks` submits jobs for the first task of
a message that names the place-holder, and gives the first one of them to all tasks that do. The
runner of the job, once it registers, is sent the tasks that wait for it.
-/

namespace Urb

open EStateM (Leaves after after_bind after_of_error after_of_ok bind_apply)

variable {s : State} {j jobId p : String} {v : LaunchVars}

variable {log : List Effect} (entry : Entry) (env : Env) (m : RegisterExecutorRunnerMessage)

/-! ## Job ids -/

/-- The ids of the jobs that an effect submits. -/
def Effect.submittedIds : Effect → List String
  | .submitJobs jobs => jobs.map Prod.fst
  | _ => []

/-- The adapter returned fresh job ids: none is in two of its answers, and none is empty. -/
structure FreshJobs (log : List Effect) : Prop where
  disjoint : log.Pairwise fun e e' => ∀ id ∈ e.submittedIds, id ∉ e'.submittedIds
  nonempty : ∀ e ∈ log, "" ∉ e.submittedIds

theorem FreshJobs.of_append {new : List Effect} (h : FreshJobs (log ++ new)) : FreshJobs log where
  disjoint := (List.pairwise_append.mp h.disjoint).1
  nonempty e he := h.nonempty e (List.mem_append_left _ he)

theorem FreshJobs.ne_empty (h : FreshJobs log) (hjob : Submitted log jobId) : jobId ≠ "" := by
  obtain ⟨jobs, hjobs, hmem⟩ := hjob
  rintro rfl
  exact h.nonempty _ hjobs hmem

theorem FreshJobs.not_submitted {jobs : List JobIdTuple}
    (h : FreshJobs (log ++ [.submitJobs jobs])) (hmem : jobId ∈ jobs.map Prod.fst) :
    ¬Submitted log jobId := by
  rintro ⟨jobs', hjobs', hmem'⟩
  have hdisjoint := (List.pairwise_append.mp h.disjoint).2.2 _ hjobs' _ (List.mem_singleton_self _)
  exact hdisjoint _ hmem' hmem

/-! ## What an iteration of `launch_tasks` leaves alone -/

section Iteration

variable {env : Env} {m : LaunchTasksMessage} {t : TaskInfo} {v : LaunchVars} {s : State}

theorem launchTask_works (env : Env) (m : LaunchTasksMessage) (t : TaskInfo) (v : LaunchVars)
    (s : State) :
    ∃ s1, WorksOn t.taskId s s1 ∧ ((launchTask env m t v).after s = s1 ∨
      ∃ k, (launchTask env m t v).after s = s1.lose t.taskId k) := by
  have hlaunched := launchTask_launched env m t v s
  cases hrun : launchTask env m t v s with
  | ok o s' =>
    rw [hrun] at hlaunched
    rw [EStateM.after_of_ok hrun]
    cases hlaunched with
    | placed _ _ h =>
      cases h with
      | lost _ hworks _ _ => exact ⟨_, (WorksOn.stage s m t).trans hworks, .inr ⟨_, rfl⟩⟩
      | waits _ hworks _ _ _ => exact ⟨s', (WorksOn.stage s m t).trans hworks, .inl rfl⟩
    | started _ _ h => exact ⟨s', (WorksOn.stage s m t).trans h.worksOn, .inl rfl⟩
  | error e s' =>
    rw [hrun] at hlaunched
    rw [EStateM.after_of_error hrun]
    cases hlaunched with
    | unnamed _ => exact ⟨s, .refl s, .inl rfl⟩
    | started _ _ h => exact ⟨s', (WorksOn.stage s m t).trans h.worksOn, .inl rfl⟩

theorem config_launchTask (env : Env) (m : LaunchTasksMessage) (t : TaskInfo) (v : LaunchVars)
    (s : State) : ((launchTask env m t v).after s).framework.config = s.framework.config := by
  obtain ⟨s1, hworks, hafter | ⟨k, hafter⟩⟩ := launchTask_works env m t v s
  · rw [hafter, hworks.config]
  · rw [hafter, ← hworks.config]
    exact Framework.config_modifyTask _ _ _

theorem aside_after_launchTask (env : Env) (m : LaunchTasksMessage) (t : TaskInfo)
    (v : LaunchVars) (s : State) {taskId : String} (hne : taskId ≠ t.taskId) :
    Aside taskId s ((launchTask env m t v).after s) := by
  obtain ⟨s1, hworks, hafter | ⟨k, hafter⟩⟩ := launchTask_works env m t v s
  · rw [hafter]
    exact .of_worksOn hworks hne
  · rw [hafter]
    exact (Aside.of_worksOn hworks hne).trans (.lose _ _ hne)

theorem log_after_launchTask (env : Env) (m : LaunchTasksMessage) (t : TaskInfo) (v : LaunchVars)
    (s : State) : ∃ new, ((launchTask env m t v).after s).effects = s.effects ++ new := by
  obtain ⟨s1, hworks, hafter | ⟨k, hafter⟩⟩ := launchTask_works env m t v s
  · obtain ⟨new, hlog, -⟩ := hworks.log
    exact ⟨new, by rw [hafter, hlog]⟩
  · obtain ⟨new, hlog, -⟩ := hworks.log
    exact ⟨_, by rw [hafter, effects_lose, hlog, List.append_assoc]⟩

end Iteration

/-! ## Tasks and the jobs of their place-holders -/

/-- The job that the record of a task carries. -/
def State.jobOf (s : State) (t : TaskInfo) : Option String :=
  (s.framework.tasks.lookup t.taskId).bind (·.jobId)

/-- `__process_task_lost_status_update` was called for the task: its record says so. -/
def State.ReportedLost (s : State) (t : TaskInfo) : Prop :=
  (s.framework.tasks.lookup t.taskId).map (·.state) = some .lost

instance (s : State) (t : TaskInfo) : Decidable (s.ReportedLost t) :=
  inferInstanceAs (Decidable (_ = _))

/-- Tasks that name place-holders and were not reported lost carry jobs, the same one if they name
    the same place-holder and different ones if not. -/
def FollowPlaceholders (ts : List TaskInfo) (s : State) : Prop :=
  ∀ t ∈ ts, ∀ u ∈ ts, ∀ p q, t.slave = some p → u.slave = some q → isPlaceholder p = true →
    isPlaceholder q = true → ¬s.ReportedLost t → ¬s.ReportedLost u →
    ∃ j j', s.jobOf t = some j ∧ s.jobOf u = some j' ∧ (j = j' ↔ p = q)

theorem FollowPlaceholders.jobOf_eq {ts : List TaskInfo}
    (h : FollowPlaceholders ts s) {t u : TaskInfo} (ht : t ∈ ts) (hu : u ∈ ts)
    (hp : t.slave = some p) (hq : u.slave = some p) (hplace : isPlaceholder p = true)
    (hlost : ¬s.ReportedLost t) (hlost' : ¬s.ReportedLost u) : s.jobOf t = s.jobOf u := by
  obtain ⟨j, j', hj, hj', hiff⟩ := h t ht u hu p p hp hq hplace hplace hlost hlost'
  rw [hj, hj', hiff.mpr rfl]

/-- The invariant of the loop of `launch_tasks`: the tasks that it is done with carry the jobs that
    it has noted for their place-holders, and no job is noted for two place-holders. -/
structure Placing (done : List TaskInfo) (jobs : Dict String) (s : State) : Prop where
  assigned : ∀ t ∈ done, ∀ p, t.slave = some p → isPlaceholder p = true →
    s.ReportedLost t ∨ ∃ j, jobs.lookup p = some j ∧ s.jobOf t = some j
  injective : ∀ p q j, jobs.lookup p = some j → jobs.lookup q = some j → p = q
  submitted : ∀ p j, jobs.lookup p = some j → Submitted s.effects j

namespace Placing

variable {env : Env} {m : LaunchTasksMessage} {done : List TaskInfo} {jobs : Dict String}
  {t : TaskInfo} {v : LaunchVars} {s s' : State}

theorem follow (h : Placing done jobs s) : FollowPlaceholders done s := by
  intro t ht u hu p q hp hq hplace hplace' hlost hlost'
  obtain ⟨j, hj, hjob⟩ := (h.assigned t ht p hp hplace).resolve_left hlost
  obtain ⟨j', hj', hjob'⟩ := (h.assigned u hu q hq hplace').resolve_left hlost'
  refine ⟨j, j', hjob, hjob', fun heq => h.injective p q j hj (heq ▸ hj'), fun heq => ?_⟩
  subst heq
  exact Option.some.inj (hj.symm.trans hj')

theorem aside (h : Placing done jobs s)
    (hrecord : ∀ t ∈ done, s'.framework.tasks.lookup t.taskId = s.framework.tasks.lookup t.taskId)
    (hlog : ∃ new, s'.effects = s.effects ++ new) : Placing done jobs s' where
  assigned t ht p hp hplace := by
    rw [State.ReportedLost, State.jobOf, hrecord t ht]
    exact h.assigned t ht p hp hplace
  injective := h.injective
  submitted p j hj := by
    obtain ⟨new, hlog⟩ := hlog
    rw [hlog]
    exact (h.submitted p j hj).append

theorem concat (h : Placing done jobs s)
    (hnot : ∀ p, t.slave = some p → isPlaceholder p = false) : Placing (done ++ [t]) jobs s where
  assigned u hu p hp hplace := by
    rcases List.mem_append.mp hu with hu | hu
    · exact h.assigned u hu p hp hplace
    · rw [List.mem_singleton.mp hu] at hp
      rw [hnot p hp] at hplace
      cases hplace
  injective := h.injective
  submitted := h.submitted

theorem concat_lost (h : Placing done jobs s) (hlost : s.ReportedLost t) :
    Placing (done ++ [t]) jobs s where
  assigned u hu p hp hplace := by
    rcases List.mem_append.mp hu with hu | hu
    · exact h.assigned u hu p hp hplace
    · rw [List.mem_singleton.mp hu]
      exact .inl hlost
  injective := h.injective
  submitted := h.submitted

theorem concat_job (h : Placing done jobs s) (hp : t.slave = some p)
    (hj : jobs.lookup p = some j) (hjob : s.jobOf t = some j) : Placing (done ++ [t]) jobs s where
  assigned u hu q hq hplace := by
    rcases List.mem_append.mp hu with hu | hu
    · exact h.assigned u hu q hq hplace
    · rw [List.mem_singleton.mp hu] at hq ⊢
      rw [← Option.some.inj (hp.symm.trans hq)]
      exact .inr ⟨j, hj, hjob⟩
  injective := h.injective
  submitted := h.submitted

theorem insert (h : Placing done jobs s) (hnone : jobs.lookup p = none)
    (hfresh : ∀ q, jobs.lookup q ≠ some j) (hj : Submitted s.effects j) :
    Placing done (jobs.insert p j) s where
  assigned u hu q hq hplace := by
    refine (h.assigned u hu q hq hplace).imp_right fun ⟨j', hj', hjob⟩ => ⟨j', ?_, hjob⟩
    have hne : q ≠ p := by
      rintro rfl
      rw [hnone] at hj'
      cases hj'
    rw [AList.lookup_insert_ne hne]
    exact hj'
  injective q q' j' hq hq' := by
    rcases AList.eq_or_lookup_of_insert hq with ⟨rfl, rfl⟩ | hold
    · rcases AList.eq_or_lookup_of_insert hq' with ⟨rfl, -⟩ | hold'
      · rfl
      · exact (hfresh q' hold').elim
    · rcases AList.eq_or_lookup_of_insert hq' with ⟨rfl, rfl⟩ | hold'
      · exact (hfresh q hold).elim
      · exact h.injective q q' j' hold hold'
  submitted q j' hq := by
    rcases AList.eq_or_lookup_of_insert hq with ⟨rfl, rfl⟩ | hold
    · exact hj
    · exact h.submitted q j' hold

theorem launchTask_placeholder (h : Placing done v.placeholderToJobid s) {k : String}
    (hslave : t.slave = some k) (hplace : isPlaceholder k = true)
    (hlost : s.framework.config.sendTaskLost = some false)
    (hnew : ∀ u ∈ done, u.taskId ≠ t.taskId)
    (hfresh : FreshJobs ((launchTask env m t v).after s).effects) :
    ∃ v' s', launchTask env m t v s = .ok (some v') s' ∧
      Placing (done ++ [t]) v'.placeholderToJobid s' := by
  have hkept : Placing done v.placeholderToJobid ((launchTask env m t v).after s) :=
    h.aside (fun u hu => (aside_after_launchTask env m t v s (hnew u hu)).record)
      (log_after_launchTask env m t v s)
  have hbranch : launchTask env m t v s = _ := launchTask_of_slave hslave s
  simp only [hplace, if_true, EStateM.bind_apply] at hbranch
  rcases launchOnPlaceholder_cases env t k v (State.mem_stage s m t) with
    ⟨s', _, _, hworks, _, hrun⟩ | ⟨jobId, v', s', _, hfound, hworks, hrecord, hrun⟩
  · rw [hrun] at hbranch
    have hreported : (s'.lose t.taskId (some k)).ReportedLost t := by
      obtain ⟨r, hr⟩ := Option.isSome_iff_exists.mp
        (AList.lookup_isSome.mpr (hworks.kept (State.mem_stage s m t)))
      show ((s'.framework.modifyTask t.taskId (markLost s'.clock)).tasks.lookup t.taskId).map _ = _
      rw [Framework.lookup_modifyTask, if_pos rfl, hr]
      rfl
    rw [EStateM.after_of_ok hbranch] at hkept
    exact ⟨v, _, hbranch, hkept.concat_lost hreported⟩
  · have hstaged : (s.stage m t).framework.config.sendTaskLost = some false := hlost
    rw [hrun, if_pos hstaged] at hbranch
    have hjob : s'.jobOf t = some jobId := by
      rw [State.jobOf, hrecord, State.lookup_stage]
      rfl
    rw [EStateM.after_of_ok hbranch] at hkept hfresh
    refine ⟨v', s', hbranch, ?_⟩
    -- the log of the state shows whether the job was submitted now
    generalize hlog : s'.effects = log at hfound hfresh
    cases hfound with
    | known hknown => exact hkept.concat_job hslave (Option.filter_eq_some_iff.mp hknown).1 hjob
    | @submitted jobs hnone hfirst =>
      have hmem := mem_of_firstJobId hfirst
      have hnever : v.placeholderToJobid.lookup k = none := by
        cases hk : v.placeholderToJobid.lookup k with
        | none => rfl
        | some j =>
          rw [hk, Option.filter_some_eq_none] at hnone
          have hne := hfresh.of_append.of_append.ne_empty (h.submitted k j hk)
          simp [hne] at hnone
      have hother : ∀ q, v.placeholderToJobid.lookup q ≠ some jobId := by
        intro q hq
        have hbefore : Submitted (s.stage m t).effects jobId := (h.submitted q jobId hq).append
        exact hfresh.not_submitted hmem hbefore
      have hsubmitted : Submitted s'.effects jobId := ⟨jobs, by simp [hlog], hmem⟩
      exact (hkept.insert hnever hother hsubmitted).concat_job hslave (AList.lookup_insert _) hjob

theorem launchTask_slave (h : Placing done v.placeholderToJobid s)
    (hnot : ∀ p, t.slave = some p → isPlaceholder p = false)
    (hnew : ∀ u ∈ done, u.taskId ≠ t.taskId) :
    Placing (done ++ [t]) v.placeholderToJobid ((launchTask env m t v).after s) ∧
      ∀ v' s', launchTask env m t v s = .ok (some v') s' →
        v'.placeholderToJobid = v.placeholderToJobid := by
  have hkept : Placing done v.placeholderToJobid ((launchTask env m t v).after s) :=
    h.aside (fun u hu => (aside_after_launchTask env m t v s (hnew u hu)).record)
      (log_after_launchTask env m t v s)
  refine ⟨hkept.concat hnot, fun v' s' hrun => ?_⟩
  have hlaunched := launchTask_launched env m t v s
  rw [hrun] at hlaunched
  cases hlaunched with
  | placed hslave hplace _ =>
    rw [hnot _ hslave] at hplace
    cases hplace
  | started _ _ hstarted => exact hstarted.placeholderToJobid

theorem launchTask (h : Placing done v.placeholderToJobid s)
    (hlost : s.framework.config.sendTaskLost = some false)
    (hnew : ∀ u ∈ done, u.taskId ≠ t.taskId)
    (hfresh : FreshJobs ((launchTask env m t v).after s).effects) :
    ∃ jobs, Placing (done ++ [t]) jobs ((Urb.launchTask env m t v).after s) ∧
      ∀ v' s', Urb.launchTask env m t v s = .ok (some v') s' → v'.placeholderToJobid = jobs := by
  by_cases hplace : ∃ k, t.slave = some k ∧ isPlaceholder k = true
  · obtain ⟨k, hslave, hplace⟩ := hplace
    obtain ⟨v1, s1, hrun, hdone⟩ := h.launchTask_placeholder hslave hplace hlost hnew hfresh
    refine ⟨v1.placeholderToJobid, by rwa [EStateM.after_of_ok hrun], fun v' s' hrun' => ?_⟩
    rw [hrun] at hrun'
    cases hrun'
    rfl
  · have hnot : ∀ p, t.slave = some p → isPlaceholder p = false := fun p hp =>
      Bool.eq_false_iff.mpr fun htrue => hplace ⟨p, hp, htrue⟩
    exact ⟨_, h.launchTask_slave hnot hnew⟩

end Placing

/-- The tasks of a message that the loop of `launch_tasks` gets to: it ends at one whose slave has
    no job, and at one that raises. -/
def reachedTasks (env : Env) (m : LaunchTasksMessage) :
    List TaskInfo → LaunchVars → State → List TaskInfo
  | [], _, _ => []
  | t :: rest, v, s =>
    t :: match launchTask env m t v s with
      | .ok (some v') s' => reachedTasks env m rest v' s'
      | _ => []

section Loop

variable {env : Env} {m : LaunchTasksMessage}

theorem after_launchLoop_cons (t : TaskInfo) (rest : List TaskInfo) (v : LaunchVars) (s : State) :
    (launchLoop env m (t :: rest) v).after s =
      match launchTask env m t v s with
      | .ok (some v') s' => (launchLoop env m rest v').after s'
      | .ok none s' => s'
      | .error _ s' => s' := by
  rw [launchLoop, EStateM.after_bind]
  cases launchTask env m t v s with
  | ok o s' => cases o <;> rfl
  | error e s' => rfl

theorem log_after_launchLoop (env : Env) (m : LaunchTasksMessage) (ts : List TaskInfo)
    (v : LaunchVars) (s : State) :
    ∃ new, ((launchLoop env m ts v).after s).effects = s.effects ++ new := by
  induction ts generalizing v s with
  | nil => exact ⟨[], (List.append_nil _).symm⟩
  | cons t rest ih =>
    have htask := log_after_launchTask env m t v s
    rw [after_launchLoop_cons]
    cases hrun : launchTask env m t v s with
    | ok o s1 =>
      rw [EStateM.after_of_ok hrun] at htask
      cases o with
      | none => exact htask
      | some v1 =>
        obtain ⟨new, hlog⟩ := htask
        obtain ⟨new', hlog'⟩ := ih v1 s1
        exact ⟨new ++ new', by rw [hlog', hlog, List.append_assoc]⟩
    | error e s1 => rwa [EStateM.after_of_error hrun] at htask

theorem FreshJobs.launchTask {t : TaskInfo} {rest : List TaskInfo}
    (h : FreshJobs ((launchLoop env m (t :: rest) v).after s).effects) :
    FreshJobs ((launchTask env m t v).after s).effects := by
  rw [after_launchLoop_cons] at h
  cases hrun : Urb.launchTask env m t v s with
  | ok o s1 =>
    rw [hrun] at h
    rw [EStateM.after_of_ok hrun]
    cases o with
    | none => exact h
    | some v1 =>
      obtain ⟨new, hlog⟩ := log_after_launchLoop env m rest v1 s1
      exact FreshJobs.of_append (hlog ▸ h)
  | error e s1 =>
    rw [hrun] at h
    rwa [EStateM.after_of_error hrun]

/-- One job for each place-holder, and different ones for different place-holders. -/
theorem Placing.launchLoop {ts done : List TaskInfo} (h : Placing done v.placeholderToJobid s)
    (hlost : s.framework.config.sendTaskLost = some false)
    (hids : ((done ++ ts).map (·.taskId)).Nodup)
    (hfresh : FreshJobs ((launchLoop env m ts v).after s).effects) :
    ∃ jobs, Placing (done ++ reachedTasks env m ts v s) jobs
      ((Urb.launchLoop env m ts v).after s) := by
  induction ts generalizing done v s with
  | nil =>
    rw [reachedTasks, List.append_nil]
    exact ⟨v.placeholderToJobid, h⟩
  | cons t rest ih =>
    have hnew : ∀ u ∈ done, u.taskId ≠ t.taskId := by
      intro u hu heq
      rw [List.map_append, List.nodup_append] at hids
      exact hids.2.2 _ (List.mem_map_of_mem hu) _ (by simp) heq
    have hconfig := config_launchTask env m t v s
    obtain ⟨jobs, hdone, hnoted⟩ := h.launchTask hlost hnew hfresh.launchTask
    rw [after_launchLoop_cons] at hfresh ⊢
    rw [reachedTasks]
    cases hrun : Urb.launchTask env m t v s with
    | ok o s1 =>
      rw [EStateM.after_of_ok hrun] at hdone hconfig
      rw [hrun] at hfresh
      cases o with
      | none => exact ⟨jobs, hdone⟩
      | some v1 =>
        rw [← hnoted v1 s1 hrun] at hdone
        have hids' : ((done ++ [t] ++ rest).map (·.taskId)).Nodup := by simpa using hids
        obtain ⟨jobs', hall⟩ := ih hdone (hconfig ▸ hlost) hids' hfresh
        exact ⟨jobs', by simpa using hall⟩
    | error e s1 =>
      rw [EStateM.after_of_error hrun] at hdone
      exact ⟨jobs, hdone⟩

theorem aside_launchActive (taskId : String) (s : State) :
    Aside taskId ((launchLoop env m m.tasks {}).after s) ((launchActive env m).after s) := by
  rw [launchActive, EStateM.after_bind]
  cases hrun : launchLoop env m m.tasks {} s with
  | ok o s1 =>
    rw [EStateM.after_of_ok hrun]
    cases o with
    | none => exact .refl _
    | some v => exact Aside.processRemainingOffers m.refuseSeconds (v.remainingOffers m) s1
  | error e s1 =>
    rw [EStateM.after_of_error hrun]
    exact .refl _

end Loop

/-- The tasks of a message that `launch_tasks` gets to. -/
def LaunchTasksMessage.reached (env : Env) (m : LaunchTasksMessage) (s : State) : List TaskInfo :=
  if s.tracking = .active then reachedTasks env m m.tasks {} s.withTaskDict else []

theorem follow_launchTasks {env : Env} (entry : Entry) {m : LaunchTasksMessage}
    (hlost : s.framework.config.sendTaskLost = some false)
    (hids : (m.tasks.map (·.taskId)).Nodup)
    (hfresh : FreshJobs ((launchTasks env entry m).after s).effects) :
    FollowPlaceholders (m.reached env s) ((launchTasks env entry m).after s) := by
  by_cases hactive : s.tracking = .active
  · rw [after_launchTasks env entry m hactive] at hfresh ⊢
    rw [LaunchTasksMessage.reached, if_pos hactive]
    have hstart : Placing [] ({} : LaunchVars).placeholderToJobid s.withTaskDict :=
      ⟨nofun, fun _ _ _ h => (nomatch h), fun _ _ h => (nomatch h)⟩
    have haside : ∀ taskId, Aside taskId ((launchLoop env m m.tasks {}).after s.withTaskDict)
        ((launchActive env m).after s.withTaskDict) := fun taskId => aside_launchActive taskId _
    obtain ⟨new, hlog, -⟩ := (haside "").log
    obtain ⟨jobs, hdone⟩ := hstart.launchLoop hlost hids (FreshJobs.of_append (hlog ▸ hfresh))
    exact (hdone.aside (fun t _ => (haside t.taskId).record) ⟨new, hlog⟩).follow
  · intro t ht
    rw [LaunchTasksMessage.reached, if_neg hactive] at ht
    cases ht

/-! ## What a registering runner is sent -/

/-- The records of the tasks and the `LaunchTasks` messages. -/
def State.dispatch (s : State) : Dict TaskRecord × List (String × List String) :=
  (s.framework.tasks, s.forwarded)

section Leaves

theorem dispatch_emit {e : Effect} (he : e.forwards = none) : Leaves State.dispatch (emit e) :=
  .modify fun s => by simp [State.dispatch, State.forwarded, he]

theorem dispatch_modifyFramework {g : Framework → Framework} (hg : ∀ f, (g f).tasks = f.tasks) :
    Leaves State.dispatch (modifyFramework g) :=
  .modify fun s => by simp [State.dispatch, State.forwarded, hg]

theorem dispatch_modifySlave (k : String) (g : Slave → Slave) :
    Leaves State.dispatch (modifyFramework (·.modifySlave k g)) :=
  dispatch_modifyFramework fun f => f.tasks_modifySlave k g

theorem dispatch_onSlave {α : Type} (k : String) (m : SlaveM α) :
    Leaves State.dispatch (onSlave k m) := by
  intro s
  simp only [after, onSlave]
  cases s.framework.slaves.lookup k with
  | none => rfl
  | some x =>
    dsimp only
    cases m x <;> rfl

theorem dispatch_debitSlave (k : String) (t : TaskInfo) :
    Leaves State.dispatch (debitSlave env k t) :=
  .bind (dispatch_onSlave k _) fun _ => dispatch_emit rfl

theorem dispatch_scaleUp (scaleCount : Option Nat) :
    Leaves State.dispatch (scaleUp env scaleCount) := by
  refine .bind .get fun s => .ite (.pure _) (.bind (.bind .get fun s => ?_) fun _ =>
    .bind (dispatch_modifyFramework fun _ => rfl) fun _ => .pure _)
  split
  · exact .bind (dispatch_emit rfl) fun _ => .pure _
  · exact .pure _

theorem dispatch_pendingTask (taskId : String) (task : TaskRecord) (v : PendingVars) :
    Leaves State.dispatch (pendingTask env m taskId task v) := by
  refine .ite (.bind ?_ fun k => .bind (.ite ?_ (.pure _)) fun _ =>
    .bind (dispatch_debitSlave env _ _) fun _ => .pure _) (.pure _)
  · cases task.taskInfo.slave with
    | none => exact .throw _
    | some k => exact .pure _
  · exact .bind (dispatch_modifyFramework fun _ => rfl) fun _ =>
      .bind (dispatch_modifySlave _ _) fun _ => .pure _

theorem dispatch_pendingTasks
    (entries : List (Sigma fun _ : String => TaskRecord)) (v : PendingVars) :
    Leaves State.dispatch (pendingTasks env m entries v) := by
  induction entries generalizing v with
  | nil => exact .pure _
  | cons e rest ih => exact .bind (dispatch_pendingTask env m e.1 e.2 v) fun v => ih v

theorem dispatch_addSlave : Leaves State.dispatch (addSlave env m) :=
  .bind (dispatch_modifyFramework fun _ => rfl) fun _ =>
    .bind (dispatch_emit rfl) fun _ => dispatch_modifyFramework fun _ => rfl

theorem dispatch_refuseRunner : Leaves State.dispatch (refuseRunner entry m) := by
  have hretry : Leaves State.dispatch (retry entry (.registerExecutorRunner m)) := by
    cases entry with
    | queue => exact .modify fun _ => rfl
    | http => exact .pure _
  exact .bind .get fun _ => .ite (dispatch_emit rfl)
    (.ite (.ite hretry (dispatch_emit rfl)) (.pure _))

end Leaves

section Runner

variable {env : Env} {m : RegisterExecutorRunnerMessage} {s : State}

theorem dispatch_sendPending (v : PendingVars) (s : State) :
    ((sendPending env m v).after s).dispatch = (s.framework.tasks,
      s.forwarded ++ if v.tasks.isEmpty then [] else [(m.channel, v.tasks)]) := by
  have hfinish : Leaves State.dispatch (modifyFramework (·.modifySlave m.slaveId
      ({ · with offerable := true }))) := dispatch_modifySlave _ _
  rw [sendPending]
  cases v.tasks.isEmpty with
  | true =>
    have hnone : (s.framework.tasks, s.forwarded ++ if true = true then []
        else [(m.channel, v.tasks)]) = s.dispatch := by simp [State.dispatch]
    rw [hnone]
    exact hfinish s
  | false =>
    -- the message is followed by what sends none
    have hrest : Leaves State.dispatch (do
        (if v.executorInDocker || v.taskInDocker then pure ()
          else do
            let _ ← scaleUp env none
            pure ())
        modifyFramework (·.modifySlave m.slaveId ({ · with offerable := true })) : Handler Unit) :=
      .bind (.ite (.pure _) (.bind (dispatch_scaleUp env none) fun _ => .pure _)) fun _ => hfinish
    have hafter := hrest (s.log (.launchTasks m.channel v.tasks))
    have hlog : (s.log (.launchTasks m.channel v.tasks)).dispatch =
        (s.framework.tasks, s.forwarded ++ [(m.channel, v.tasks)]) := by
      simp [State.dispatch, State.forwarded, Effect.forwards]
    exact hafter.trans hlog

/-- The tasks that wait for the job of a runner, in the order of `task_dict`. -/
def Framework.waiting (f : Framework) (jobId : String) : List String :=
  (f.tasks.entries.filter (·.2.waitsFor jobId)).map (·.2.taskInfo.taskId)

/-- The records are as they were, and the runner was sent the tasks that wait for its job, in one
    message, or nothing. -/
def SentWaiting (m : RegisterExecutorRunnerMessage) (s s' : State) : Prop :=
  s'.dispatch = s.dispatch ∨ s'.dispatch =
    (s.framework.tasks, s.forwarded ++ [(m.channel, s.framework.waiting m.jobId)])

theorem sentWaiting_startPending (env : Env) (m : RegisterExecutorRunnerMessage) (s : State) :
    SentWaiting m s ((startPending env m).after s) := by
  rw [startPending_eq]
  apply EStateM.after_bind_cases
  · intro entries s1 hentries
    obtain ⟨rfl, rfl⟩ := taskEntries_eq_ok hentries
    have hpending := dispatch_pendingTasks env m s1.framework.tasks.entries {} s1
    apply EStateM.after_bind_cases
    · intro v s2 hrun
      rw [after_of_ok hrun] at hpending
      have htasks : v.tasks = s1.framework.waiting m.jobId := tasks_pendingTasks hrun
      have hsame : s2.framework.tasks = s1.framework.tasks ∧ s2.forwarded = s1.forwarded :=
        Prod.mk.inj hpending
      rw [SentWaiting, dispatch_sendPending, hsame.1, hsame.2, htasks]
      by_cases hempty : (s1.framework.waiting m.jobId).isEmpty = true
      · rw [if_pos hempty, List.append_nil]
        exact .inl rfl
      · rw [if_neg hempty]
        exact .inr rfl
    · intro e s2 hrun
      rw [after_of_error hrun] at hpending
      exact .inl hpending
  · intro e s1 hrun
    have hsame : s1 = s := by
      simp only [taskEntries, bind_apply, EStateM.get_apply] at hrun
      cases hstray : s.framework.strayTask with
      | none =>
        rw [hstray] at hrun
        cases hrun
      | some r =>
        rw [hstray] at hrun
        cases hrun
        rfl
    rw [hsame]
    exact .inl rfl

theorem waiting_spec (hs : Filed s) (jobId : String) :
    (s.framework.waiting jobId).Nodup ∧ ∀ id ∈ s.framework.waiting jobId,
      ∃ r, s.framework.tasks.lookup id = some r ∧ r.state = .staging ∧ r.jobId = some jobId := by
  -- the records are filed under the ids of their tasks
  have hkeyed : ∀ e ∈ s.framework.tasks.entries, e.2.taskInfo.taskId = e.1 := fun e he =>
    hs.keyed (AList.mem_lookup_iff.mpr he)
  constructor
  · have hkeys : s.framework.waiting jobId =
        (s.framework.tasks.entries.filter (·.2.waitsFor jobId)).map Sigma.fst :=
      List.map_congr_left fun e he => hkeyed e (List.mem_of_mem_filter he)
    rw [hkeys]
    exact (List.filter_sublist.map _).nodup s.framework.tasks.nodupKeys
  · intro id hid
    obtain ⟨e, he, rfl⟩ := List.mem_map.mp hid
    obtain ⟨he, hwaits⟩ := List.mem_filter.mp he
    simp only [TaskRecord.waitsFor, Bool.and_eq_true, decide_eq_true_eq] at hwaits
    rw [hkeyed e he]
    exact ⟨e.2, AList.mem_lookup_iff.mpr he, hwaits.1⟩

/-- Between two states a registering runner was sent at most one `LaunchTasks` message, of tasks
    that are staging and have its job, each once. -/
def SentOwnTasks (m : RegisterExecutorRunnerMessage) (s s' : State) : Prop :=
  s'.forwarded = s.forwarded ∨ ∃ ids, s'.forwarded = s.forwarded ++ [(m.channel, ids)] ∧ ids.Nodup ∧
    ∀ id ∈ ids, ∃ r, s'.framework.tasks.lookup id = some r ∧ r.state = .staging ∧
      r.jobId = some m.jobId

/-- What a registering runner is sent. -/
theorem sentOwnTasks_registerExecutorRunner (hs : Filed s) (entry : Entry) (htasks : m.tasks = []) :
    SentOwnTasks m s ((registerExecutorRunner env entry m).after s) := by
  by_cases hactive : s.tracking = .active
  · have hadd := Prod.mk.inj (dispatch_addSlave env m s)
    rw [after_registerExecutorRunner env entry m hactive, htasks]
    rcases sentWaiting_startPending env m ((addSlave env m).after s) with h | h
    · exact .inl ((Prod.mk.inj h).2.trans hadd.2)
    · obtain ⟨hrecords, hsent⟩ := Prod.mk.inj h
      obtain ⟨hnodup, hown⟩ := waiting_spec (hs.addSlave env m) m.jobId
      refine .inr ⟨_, ?_, hnodup, fun id hid => ?_⟩
      · rw [hsent, hadd.2]
      · rw [hrecords]
        exact hown id hid
  · rw [after_registerExecutorRunner_inactive env entry m hactive]
    exact .inl (Prod.mk.inj (dispatch_refuseRunner entry m s)).2

end Runner

/-! ## Runs -/

/-- A `LaunchTasks` message of a framework that does not have losses reported, with distinct task
    ids and fresh job ids, gives the tasks of its place-holders their jobs; a runner that registers
    without tasks is sent tasks of its job. -/
def FollowsJobs (env : Env) (s : State) (e : Event) : Prop :=
  ∀ entry r, e.request = some (entry, r) →
    match r with
    | .launchTasks m =>
      s.framework.config.sendTaskLost = some false → (m.tasks.map (·.taskId)).Nodup →
        FreshJobs ((handle env entry r).after s).effects →
        FollowPlaceholders (m.reached env s) ((handle env entry r).after s)
    | .registerExecutorRunner m => m.tasks = [] → SentOwnTasks m s ((handle env entry r).after s)
    | _ => True

theorem Filed.followsJobs {env : Env} (hs : Filed s) (e : Event) : FollowsJobs env s e := by
  intro entry r _
  cases r with
  | launchTasks m => exact fun hlost hids hfresh => follow_launchTasks entry hlost hids hfresh
  | registerExecutorRunner m => exact fun htasks =>
      sentOwnTasks_registerExecutorRunner hs entry htasks
  | _ => trivial

/-- In every run of a framework, the tasks of place-holders follow their jobs. -/
theorem placeholder_tasks_follow_job (env : Env) (s : State) (hs : Fresh s) (events : List Event) :
    Run.Meets (step env) (FollowsJobs env) s events := by
  have hstep : ∀ s e, Filed s → True → Filed (step env s e) ∧ FollowsJobs env s e :=
    fun _ e hfiled _ => ⟨hfiled.step env e, hfiled.followsJobs e⟩
  exact Run.meets_of_invariant (C := fun _ _ => True) hstep (.of_fresh hs)
    (Run.meets_of_forall (fun _ _ => trivial) s events)

namespace Sample

/-- A framework with `send_task_lost` set to `False`. -/
def unreported : State :=
  { start with
    framework := { start.framework with config := { config with sendTaskLost := some false } } }

def waitingTask (taskId placeholder : String) : TaskInfo where
  taskId
  slaveId := some placeholder
  resources := some [{ name := "cpus", type := .scalar, scalar := some 1 }]
  executor := some { executorId := "executor" }

/-- A task that the slave has no resources for. -/
def gpuTask (taskId : String) : TaskInfo :=
  { task taskId with resources := some [{ name := "gpus", type := .scalar, scalar := some 1 }] }

/-- An adapter whose first job has an empty id. -/
def emptyIdEnv : Env :=
  { Sample.env with
    registerFramework := fun log _ _ =>
      .ok [(if log.any (·.submittedIds ≠ []) then toString log.length else "", none, none)] }

/-- Two tasks of one place-holder and one of another. -/
def placeholderMessage : LaunchTasksMessage where
  tasks := [waitingTask "t" "place-holder-1", waitingTask "u" "place-holder-2",
    waitingTask "v" "place-holder-1"]

end Sample

/-- Three tasks of two place-holders, and the runner of the first job. -/
theorem placeholder_tasks_follow_job_two :
    let s := Sample.unreported
    let s' := step Sample.env s (.queued (.launchTasks Sample.placeholderMessage))
    let runner := { Sample.runner with jobId := "1_0" }
    Run.Meets (step Sample.env) (FollowsJobs Sample.env) s
        [.queued (.launchTasks Sample.placeholderMessage),
          .queued (.registerExecutorRunner runner)] ∧
      Sample.placeholderMessage.reached Sample.env s = Sample.placeholderMessage.tasks ∧
      Sample.placeholderMessage.tasks.map s'.jobOf = [some "1_0", some "3_0", some "1_0"] ∧
      (step Sample.env s' (.queued (.registerExecutorRunner runner))).forwarded =
        [("runner", ["v", "t"])] := by
  intro s s' runner
  refine ⟨placeholder_tasks_follow_job Sample.env s ⟨rfl, rfl, rfl⟩ _, ?_, ?_, ?_⟩
  · decide +kernel
  · decide +kernel
  · decide +kernel

/-- A task raises, and the next one of a place-holder is never looked at; and with an empty job id
    two tasks of one place-holder get different jobs. -/
theorem placeholder_tasks_without_job :
    (let s := step Sample.env Sample.unreported (.queued (.registerExecutorRunner Sample.runner))
      let m : LaunchTasksMessage := { tasks := [Sample.waitingTask "t" "place-holder-1",
        Sample.gpuTask "u", Sample.waitingTask "v" "place-holder-1"] }
      let s' := (launchTasks Sample.env .queue m).after s
      (m.tasks.map (·.taskId)).Nodup ∧ FreshJobs s'.effects ∧
        m.tasks.map s'.jobOf = [some "2_0", some "1", none] ∧ ¬FollowPlaceholders m.tasks s') ∧
    (let m : LaunchTasksMessage := { tasks := [Sample.waitingTask "t" "place-holder-1",
        Sample.waitingTask "v" "place-holder-1"] }
      let s' := (launchTasks Sample.emptyIdEnv .queue m).after Sample.unreported
      (s'.effects.Pairwise fun e e' => ∀ id ∈ e.submittedIds, id ∉ e'.submittedIds) ∧
        m.tasks.map s'.jobOf = [some "", some "3"] ∧ ¬FollowPlaceholders m.tasks s') := by
  refine ⟨⟨by decide, ⟨by decide +kernel, by decide +kernel⟩, by decide +kernel, fun h => ?_⟩,
    by decide +kernel, by decide +kernel, fun h => ?_⟩
  · have heq := h.jobOf_eq (t := Sample.waitingTask "t" "place-holder-1")
      (u := Sample.waitingTask "v" "place-holder-1") (by simp) (by simp) rfl rfl (by decide)
      (by decide +kernel) (by decide +kernel)
    revert heq
    decide +kernel
  · have heq := h.jobOf_eq (t := Sample.waitingTask "t" "place-holder-1")
      (u := Sample.waitingTask "v" "place-holder-1") (by simp) (by simp) rfl rfl (by decide)
      (by decide +kernel) (by decide +kernel)
    revert heq
    decide +kernel

end Urb
