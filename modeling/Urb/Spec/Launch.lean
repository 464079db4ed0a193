import Urb.Spec.Stable

/-!
# What `launch_tasks` does with one task

One iteration of the loop of `launch_tasks` works on one task: it stores a record under
the id of the task, and from then on touches the records of no other task
(`WorksOn`). `Launched` lists how the iteration can end: the task is reported lost, it
waits for the job of a place-holder, it runs on a slave, it is left alone because its
slave is unknown or has no job, or the iteration raises.
-/

namespace Urb

open EStateM (Leaves Result after_of_error after_of_ok bind_apply bind_eq_ok get_apply modify_apply
  pure_apply)

variable {jobId k taskId : String} {jobs : List JobIdTuple} {x : Slave}

variable (env : Env) (s : State) (m : LaunchTasksMessage) (t : TaskInfo) (slaveId : String)
  (v : LaunchVars)

/-! ## What an iteration leaves alone -/

/-- The task that an effect debits or reports lost. -/
def Effect.settles : Effect → Option String
  | .debited _ task _ => some task
  | .statusUpdate _ task .lost _ => some task
  | _ => none

/-- The effect debits no other task, and reports none lost. -/
def Effect.concerns (taskId : String) : Effect → Bool
  | .debited _ task _ => task == taskId
  | .statusUpdate _ _ .lost _ => false
  | _ => true

theorem Effect.settles_of_concerns {e : Effect}
    (h : e.concerns taskId = true) (hk : e.settles = some k) : k = taskId := by
  unfold Effect.concerns at h
  unfold Effect.settles at hk
  split at hk
  · rw [← Option.some.inj hk]
    exact beq_iff_eq.mp h
  · cases h
  · cases hk

/-- Code that works on one task and reports nothing lost: it changes at most the record of
    the task and the accounts of slaves, and queues no deletion. -/
structure WorksOn (taskId : String) (s s' : State) : Prop where
  others : ∀ k, k ≠ taskId → s'.framework.tasks.lookup k = s.framework.tasks.lookup k
  kept : taskId ∈ s.framework.tasks → taskId ∈ s'.framework.tasks
  channels : ∀ k, (s'.framework.slaves.lookup k).map (·.channel) =
    (s.framework.slaves.lookup k).map (·.channel)
  offers : s'.framework.offers = s.framework.offers
  config : s'.framework.config = s.framework.config
  channelName : s'.framework.channelName = s.framework.channelName
  offerEvent : s'.framework.offerEvent = s.framework.offerEvent
  log : ∃ new, s'.effects = s.effects ++ new ∧ ∀ e ∈ new, e.concerns taskId = true
  pending : s'.deleteElements = s.deleteElements

/-- What `run_task` leaves of the info of a task. -/
def TaskRecord.sent (r : TaskRecord) : TaskRecord :=
  { r with taskInfo := { r.taskInfo with agentId := none, data := none } }

theorem runIfRegistered_after (k taskId : String) (s : State) :
    (runIfRegistered k taskId).after s = s ∨
    ∃ ch, (runIfRegistered k taskId).after s =
      { s with
        effects := s.effects ++ [.runTask ch taskId]
        framework := s.framework.modifyTask taskId TaskRecord.sent } := by
  simp only [runIfRegistered, EStateM.after_bind, get_apply, orRaise]
  cases s.framework.slaves.lookup k with
  | none => exact Or.inl rfl
  | some x =>
    simp only [pure_apply]
    cases x.isCommandExecutor with
    | false =>
      cases x.executorChannel with
      | none => exact Or.inl rfl
      | some ch => exact Or.inr ⟨ch, rfl⟩
    | true =>
      simp only [if_true, bind_apply]
      cases x.commandExecutors.lookup taskId with
      | none => exact Or.inl rfl
      | some c =>
        simp only [pure_apply]
        cases c.channel with
        | none => exact Or.inl rfl
        | some ch => exact Or.inr ⟨ch, rfl⟩

namespace WorksOn

variable {taskId : String}

theorem refl (s : State) : WorksOn taskId s s :=
  ⟨fun _ _ => rfl, id, fun _ => rfl, rfl, rfl, rfl, rfl, ⟨[], by simp, by simp⟩, rfl⟩

theorem trans {s1 s2 s3 : State} (h : WorksOn taskId s1 s2) (h' : WorksOn taskId s2 s3) :
    WorksOn taskId s1 s3 where
  others k hk := (h'.others k hk).trans (h.others k hk)
  kept hmem := h'.kept (h.kept hmem)
  channels k := (h'.channels k).trans (h.channels k)
  offers := h'.offers.trans h.offers
  config := h'.config.trans h.config
  channelName := h'.channelName.trans h.channelName
  offerEvent := h'.offerEvent.trans h.offerEvent
  log := exists_append_trans h.log h'.log
  pending := h'.pending.trans h.pending

theorem slave {s s' : State} (h : WorksOn taskId s s') (hx : s.framework.slaves.lookup k = some x) :
    ∃ x', s'.framework.slaves.lookup k = some x' ∧ x'.channel = x.channel := by
  have := h.channels k
  rw [hx] at this
  exact Option.map_eq_some_iff.mp this

/-! ### Assignments -/

theorem emit (s : State) (e : Effect) (he : e.concerns taskId = true) :
    WorksOn taskId s { s with effects := s.effects ++ [e] } :=
  ⟨fun _ _ => rfl, id, fun _ => rfl, rfl, rfl, rfl, rfl, ⟨[e], rfl, by simpa using he⟩, rfl⟩

theorem modifyTask (s : State) (g : TaskRecord → TaskRecord) :
    WorksOn taskId s { s with framework := s.framework.modifyTask taskId g } := by
  have hothers : ∀ k, k ≠ taskId →
      (s.framework.modifyTask taskId g).tasks.lookup k = s.framework.tasks.lookup k := by
    intro k hk
    rw [Framework.lookup_modifyTask, if_neg hk]
  have hkept := (Framework.mem_modifyTask s.framework taskId taskId g).mpr
  have hslaves := Framework.slaves_modifyTask s.framework taskId g
  obtain ⟨d, hd⟩ := s.framework.exists_modifyTask taskId g
  rw [hd] at hothers hkept hslaves ⊢
  exact ⟨hothers, hkept, fun _ => rfl, rfl, rfl, rfl, rfl, ⟨[], by simp, by simp⟩, rfl⟩

theorem modifySlave (s : State) (k : String) (g : Slave → Slave)
    (hg : ∀ x, (g x).channel = x.channel) :
    WorksOn taskId s { s with framework := s.framework.modifySlave k g } := by
  have hchannels := fun k' => Framework.map_lookup_modifySlave s.framework k k' g hg
  obtain ⟨d, hd⟩ := s.framework.exists_modifySlave k g
  rw [hd] at hchannels ⊢
  exact ⟨fun _ _ => rfl, id, hchannels, rfl, rfl, rfl, rfl, ⟨[], by simp, by simp⟩, rfl⟩

theorem jobIds (s : State) (jobIds : Option (List JobIdTuple)) :
    WorksOn taskId s { s with framework := { s.framework with jobIds } } :=
  ⟨fun _ _ => rfl, id, fun _ => rfl, rfl, rfl, rfl, rfl, ⟨[], by simp, by simp⟩, rfl⟩

theorem stored (s : State) (r : TaskRecord) : WorksOn taskId s ((storeTask taskId r).after s) := by
  refine ⟨fun k hk => ?_, fun _ => ?_, fun _ => rfl, rfl, rfl, rfl, rfl,
    ⟨[.stored taskId], rfl, by simp [Effect.concerns]⟩, rfl⟩
  · exact AList.lookup_insert_ne hk
  · exact (AList.mem_insert _).mpr (Or.inl rfl)

theorem withSlave (s : State) (k : String) {y : Slave}
    (hx : s.framework.slaves.lookup k = some x) (hy : y.channel = x.channel) :
    WorksOn taskId s (s.withSlave k y) := by
  refine ⟨fun _ _ => rfl, id, fun k' => ?_, rfl, rfl, rfl, rfl, ⟨[], by simp, by simp⟩, rfl⟩
  simp only [Framework.slaves_setSlave]
  by_cases h : k' = k
  · subst h; simp [hx, hy]
  · rw [AList.lookup_insert_ne h]

/-! ### Computations -/

theorem debitSlave (k : String) (t : TaskInfo) :
    WorksOn t.taskId s ((debitSlave env k t).after s) := by
  have h := debitSlave_spec env k t s s rfl
  simp only [EStateM.after]
  cases hr : Urb.debitSlave env k t s with
  | ok a s' =>
    simp only [hr] at h ⊢
    obtain ⟨x, x1, hx, hmoved, -, rfl⟩ := h
    exact (withSlave s k hx (by rw [hmoved.rest])).trans (emit _ _ (beq_self_eq_true t.taskId))
  | error e s' =>
    simp only [hr] at h ⊢
    obtain rfl | ⟨x, x', done, hx, -, hmoved, rfl⟩ := h
    · exact refl _
    · exact withSlave s k hx (by rw [hmoved.rest])

theorem runIfRegistered (s : State) (k : String) :
    WorksOn taskId s ((Urb.runIfRegistered k taskId).after s) := by
  rcases runIfRegistered_after k taskId s with h | ⟨ch, h⟩
  · rw [h]
    exact refl s
  · rw [h]
    exact (emit s _ rfl).trans (modifyTask _ _)

end WorksOn

/-! ## The jobs that `scale_up` submits -/

/-- The jobs that `scale_up` gets from the adapter, which is asked for no more runners than
    there is headroom for. -/
def submittedJobs (env : Env) (f : Framework) (log : List Effect) (scaleCount : Option Nat) :
    List JobIdTuple :=
  if effectiveScaleCount f.config scaleCount = 0 ∨ jobHeadroom f = 0 then []
  else
    match env.registerFramework log f.config.maxTasks
      (min (effectiveScaleCount f.config scaleCount) (jobHeadroom f)) with
    | .ok jobs => jobs
    | .error _ => []

/-- A job that the log shows to have been submitted. -/
def Submitted (log : List Effect) (jobId : String) : Prop :=
  ∃ jobs, .submitJobs jobs ∈ log ∧ jobId ∈ jobs.map Prod.fst

/-- The jobs that `scale_up` submits. -/
theorem scaleUp_spec (scaleCount : Option Nat) (s : State) (taskId : String) :
    ∃ s', scaleUp env scaleCount s =
        .ok (submittedJobs env s.framework s.effects scaleCount) s' ∧
      WorksOn taskId s s' ∧ s'.framework.tasks = s.framework.tasks ∧
      (∃ new, s'.effects = s.effects ++ new ∧ ∀ e ∈ new, e.settles = none) ∧
      (submittedJobs env s.framework s.effects scaleCount ≠ [] → s'.effects =
        s.effects ++ [.submitJobs (submittedJobs env s.framework s.effects scaleCount)]) := by
  simp only [scaleUp, bind_apply, get_apply, submittedJobs]
  by_cases hc : effectiveScaleCount s.framework.config scaleCount = 0 ∨ jobHeadroom s.framework = 0
  · simp only [hc, if_true, pure_apply]
    exact ⟨s, rfl, .refl s, rfl, ⟨[], by simp, by simp⟩, by simp⟩
  · simp only [hc, if_false, submitExecutorRunner, bind_apply, get_apply]
    cases hreg : env.registerFramework s.effects s.framework.config.maxTasks
        (min (effectiveScaleCount s.framework.config scaleCount) (jobHeadroom s.framework)) with
    | ok jobs =>
      simp only [emit, modifyFramework, bind_apply, modify_apply,
        pure_apply]
      exact ⟨_, rfl, (WorksOn.emit s (.submitJobs jobs) rfl).trans (.jobIds _ _), rfl,
        ⟨[.submitJobs jobs], rfl, by simp [Effect.settles]⟩, by simp⟩
    | error e =>
      simp only [modifyFramework, modify_apply, pure_apply]
      exact ⟨_, rfl, .jobIds _ _, rfl, ⟨[], by simp, by simp⟩, by simp⟩

theorem firstJobId_eq_none : firstJobId jobs = none ↔ jobs = [] := by
  rw [firstJobId, List.head?_eq_none_iff, ← List.length_eq_zero_iff, List.length_insertionSort,
    List.length_map, List.length_eq_zero_iff]

theorem mem_of_firstJobId (h : firstJobId jobs = some jobId) : jobId ∈ jobs.map Prod.fst :=
  (List.mem_insertionSort _).mp (List.mem_of_mem_head? h)

/-! ## Tasks reported lost -/

/-- The framework can be told about its tasks: a native one by a message, an HTTP one through
    its `offer_event`. -/
def Framework.reachable (f : Framework) : Bool := !f.http || f.offerEvent

/-- The state that `__process_task_lost_status_update` leaves. -/
def State.lose (s : State) (taskId : String) (slaveId : Option String) : State :=
  { s with
    framework := s.framework.modifyTask taskId (markLost s.clock)
    deleteElements := s.deleteElements ++ [⟨.tasks, taskId⟩]
    effects :=
      if s.framework.reachable then
        s.effects ++ [.statusUpdate s.framework.channelName taskId .lost slaveId]
      else s.effects }

theorem processTaskLostStatusUpdate_of_mem {slaveId : Option String} {s : State}
    (h : taskId ∈ s.framework.tasks) :
    processTaskLostStatusUpdate taskId slaveId s = .ok () (s.lose taskId slaveId) := by
  have hcond : (s.framework.http && !s.framework.offerEvent) = !s.framework.reachable := by
    simp [Framework.reachable]
  simp only [processTaskLostStatusUpdate, sendStatusUpdate, bind_apply, get_apply,
    hcond, State.lose]
  cases hr : s.framework.reachable with
  | false =>
    simp only [pure_apply, h, if_true, modifyFramework, addDeleteElement,
      bind_apply, modify_apply, Bool.not_false, Bool.false_eq_true, if_false]
  | true =>
    simp only [emit, h, if_true, modifyFramework, addDeleteElement, bind_apply,
      modify_apply, Bool.not_true, Bool.false_eq_true, if_false]

/-! ## The ways in which an iteration ends -/

/-- The task of a place-holder keeps its record: losses are not reported, and a job is known
    for the place-holder or can be submitted. -/
def PlaceholderKept (env : Env) (slaveId : String) (v : LaunchVars) (f : Framework)
    (log : List Effect) : Prop :=
  f.config.sendTaskLost = some false ∧
    (((v.placeholderToJobid.lookup slaveId).filter (· ≠ "")).isSome ∨
      submittedJobs env f log (some (f.config.concurrentTasks.getD 1)) ≠ [])

/-- The jobs that an iteration knows are those it knew before and those it submitted. -/
def LaunchVars.Extends (v v' : LaunchVars) (log : List Effect) : Prop :=
  ∀ k jobId, v'.placeholderToJobid.lookup k = some jobId →
    v.placeholderToJobid.lookup k = some jobId ∨ Submitted log jobId

/-- How the part for a place-holder ends: the task is lost, or it waits for a job. -/
inductive Placed (env : Env) (t : TaskInfo) (slaveId : String) (v : LaunchVars) (s : State) :
    Result PyError State LaunchVars → Prop
  | lost {v' : LaunchVars} {s' : State}
      (hnot : ¬PlaceholderKept env slaveId v s.framework s.effects)
      (hworks : WorksOn t.taskId s s')
      (hlog : ∃ new, s'.effects = s.effects ++ new ∧ ∀ e ∈ new, e.settles = none)
      (hvars : v.Extends v' s'.effects) :
      Placed env t slaveId v s (.ok v' (s'.lose t.taskId (some slaveId)))
  | waits {jobId : String} {v' : LaunchVars} {s' : State}
      (hkept : PlaceholderKept env slaveId v s.framework s.effects)
      (hworks : WorksOn t.taskId s s')
      (hrecord : s'.framework.tasks.lookup t.taskId =
        (s.framework.tasks.lookup t.taskId).map ({ · with jobId := some jobId }))
      (hjob : v.placeholderToJobid.lookup slaveId = some jobId ∨ Submitted s'.effects jobId)
      (hvars : v.Extends v' s'.effects) :
      Placed env t slaveId v s (.ok v' s')

theorem LaunchVars.Extends.refl (log : List Effect) : v.Extends v log :=
  fun _ _ h => Or.inl h

theorem LaunchVars.Extends.insert {log : List Effect} (h : Submitted log jobId) (k : String) :
    v.Extends { v with placeholderToJobid := v.placeholderToJobid.insert k jobId } log := by
  intro k' jobId' hk'
  by_cases hk : k' = k
  · subst hk
    rw [AList.lookup_insert] at hk'
    exact Or.inr (Option.some.inj hk' ▸ h)
  · rw [AList.lookup_insert_ne hk] at hk'
    exact Or.inl hk'

theorem assignJob_cases (jobId : String) {s : State} (hmem : t.taskId ∈ s.framework.tasks) :
    ∃ s', WorksOn t.taskId s s' ∧ s'.effects = s.effects ∧
      s'.framework.tasks.lookup t.taskId =
        (s.framework.tasks.lookup t.taskId).map ({ · with jobId := some jobId }) ∧
      assignJob t slaveId jobId s =
        .ok () (if s.framework.config.sendTaskLost = some false then s'
          else s'.lose t.taskId (some slaveId)) := by
  refine ⟨{ s with framework := s.framework.modifyTask t.taskId ({ · with jobId := some jobId }) },
    .modifyTask _ _, rfl, by simp only [Framework.lookup_modifyTask, if_true], ?_⟩
  have hmem' := (Framework.mem_modifyTask s.framework t.taskId t.taskId
    ({ · with jobId := some jobId })).mpr hmem
  have hlost : s.framework.config.sendTaskLost.getD true = true ↔
      ¬s.framework.config.sendTaskLost = some false := by
    cases s.framework.config.sendTaskLost with
    | none => simp
    | some b => cases b <;> simp
  simp only [assignJob, modifyFramework, bind_apply, modify_apply,
    get_apply, Framework.config_modifyTask, hlost]
  by_cases hc : s.framework.config.sendTaskLost = some false
  · simp only [hc, not_true_eq_false, if_false, if_true, pure_apply]
  · simp only [hc, not_false_eq_true, if_true, if_false]
    exact processTaskLostStatusUpdate_of_mem hmem'

/-- Where the job of a place-holder comes from: it was submitted for an earlier task of the message,
    or it is the first one of those that are submitted now. -/
inductive JobFound (slaveId : String) (v : LaunchVars) (log : List Effect) (jobId : String) :
    LaunchVars → List Effect → Prop
  | known (hjob : (v.placeholderToJobid.lookup slaveId).filter (· ≠ "") = some jobId) :
      JobFound slaveId v log jobId v log
  | submitted {jobs : List JobIdTuple}
      (hnone : (v.placeholderToJobid.lookup slaveId).filter (· ≠ "") = none)
      (hfirst : firstJobId jobs = some jobId) :
      JobFound slaveId v log jobId
        { v with placeholderToJobid := v.placeholderToJobid.insert slaveId jobId }
        (log ++ [.submitJobs jobs])

theorem JobFound.extends {slaveId : String} {v v' : LaunchVars} {log log' : List Effect}
    (h : JobFound slaveId v log jobId v' log') :
    (v.placeholderToJobid.lookup slaveId = some jobId ∨ Submitted log' jobId) ∧
      v.Extends v' log' := by
  cases h with
  | known hjob => exact ⟨Or.inl (Option.filter_eq_some_iff.mp hjob).1, .refl _ _⟩
  | @submitted jobs _ hfirst =>
    have hsubmitted : Submitted (log ++ [.submitJobs jobs]) jobId :=
      ⟨jobs, by simp, mem_of_firstJobId hfirst⟩
    exact ⟨Or.inr hsubmitted, .insert v hsubmitted slaveId⟩

theorem JobFound.log {slaveId : String} {v v' : LaunchVars} {log log' : List Effect}
    (h : JobFound slaveId v log jobId v' log') :
    ∃ new, log' = log ++ new ∧ ∀ e ∈ new, e.settles = none := by
  cases h with
  | known => exact ⟨[], by simp, by simp⟩
  | submitted => exact ⟨_, rfl, by simp [Effect.settles]⟩

/-- The part for a place-holder: no job is known and none can be submitted, and the task is lost;
    or it gets the job that was found, and is lost only if losses are reported. -/
theorem launchOnPlaceholder_cases {s : State} (hmem : t.taskId ∈ s.framework.tasks) :
    (∃ s', (v.placeholderToJobid.lookup slaveId).filter (· ≠ "") = none ∧
      submittedJobs env s.framework s.effects (some (s.framework.config.concurrentTasks.getD 1)) =
        [] ∧
      WorksOn t.taskId s s' ∧ (∃ new, s'.effects = s.effects ++ new ∧ ∀ e ∈ new, e.settles = none) ∧
      launchOnPlaceholder env t slaveId v s = .ok v (s'.lose t.taskId (some slaveId))) ∨
    ∃ jobId v' s',
      (((v.placeholderToJobid.lookup slaveId).filter (· ≠ "")).isSome ∨ submittedJobs env
        s.framework s.effects (some (s.framework.config.concurrentTasks.getD 1)) ≠ []) ∧
      JobFound slaveId v s.effects jobId v' s'.effects ∧ WorksOn t.taskId s s' ∧
      s'.framework.tasks.lookup t.taskId =
        (s.framework.tasks.lookup t.taskId).map ({ · with jobId := some jobId }) ∧
      launchOnPlaceholder env t slaveId v s =
        .ok v' (if s.framework.config.sendTaskLost = some false then s'
          else s'.lose t.taskId (some slaveId)) := by
  unfold launchOnPlaceholder
  cases hjob : (v.placeholderToJobid.lookup slaveId).filter (· ≠ "") with
  | some jobId =>
    obtain ⟨s', hworks, hlog, hrecord, hrun⟩ := assignJob_cases t slaveId jobId hmem
    refine .inr ⟨jobId, v, s', .inl rfl, ?_, hworks, hrecord, ?_⟩
    · rw [hlog]
      exact .known hjob
    · simp only [bind_apply, hrun, pure_apply]
  | none =>
    obtain ⟨s1, hscale, hworks1, htasks, hlog1, hsub⟩ :=
      scaleUp_spec env (some (s.framework.config.concurrentTasks.getD 1)) s t.taskId
    have hmem1 : t.taskId ∈ s1.framework.tasks := by rw [htasks]; exact hmem
    simp only [bind_apply, get_apply, hscale]
    cases hfirst : firstJobId (submittedJobs env s.framework s.effects
        (some (s.framework.config.concurrentTasks.getD 1))) with
    | none =>
      have hnil := firstJobId_eq_none.mp hfirst
      refine .inl ⟨s1, trivial, hnil, hworks1, hlog1, ?_⟩
      simp only [bind_apply, processTaskLostStatusUpdate_of_mem hmem1, pure_apply]
    | some jobId =>
      have hne : submittedJobs env s.framework s.effects
          (some (s.framework.config.concurrentTasks.getD 1)) ≠ [] := by
        intro h
        rw [firstJobId_eq_none.mpr h] at hfirst
        cases hfirst
      obtain ⟨s', hworks, hlog, hrecord, hrun⟩ := assignJob_cases t slaveId jobId hmem1
      rw [hworks1.config] at hrun
      refine .inr ⟨jobId,
        { v with placeholderToJobid := v.placeholderToJobid.insert slaveId jobId },
        s', .inr hne, ?_,
        hworks1.trans hworks, by rw [hrecord, htasks], ?_⟩
      · rw [hlog, hsub hne]
        exact .submitted hjob hfirst
      · simp only [bind_apply, hrun, pure_apply]

theorem launchOnPlaceholder_placed {s : State} (hmem : t.taskId ∈ s.framework.tasks) :
    Placed env t slaveId v s (launchOnPlaceholder env t slaveId v s) := by
  rcases launchOnPlaceholder_cases env t slaveId v hmem with
    ⟨s', hnone, hnil, hworks, hlog, hrun⟩ |
    ⟨jobId, v', s', hfindable, hfound, hworks, hrecord, hrun⟩
  · rw [hrun]
    refine .lost (fun h => ?_) hworks hlog (.refl _ _)
    rcases h.2 with h | h
    · rw [hnone] at h; cases h
    · exact h hnil
  · rw [hrun]
    by_cases hc : s.framework.config.sendTaskLost = some false
    · rw [if_pos hc]
      exact .waits ⟨hc, hfindable⟩ hworks hrecord hfound.extends.1 hfound.extends.2
    · rw [if_neg hc]
      exact .lost (fun h => hc h.1) hworks hfound.log hfound.extends.2

theorem usedOffers_launchOnPlaceholder {env : Env} {t : TaskInfo} {slaveId : String}
    {v v' : LaunchVars} {s s' : State} (h : launchOnPlaceholder env t slaveId v s = .ok v' s') :
    v'.usedOffers = v.usedOffers := by
  unfold launchOnPlaceholder at h
  generalize (v.placeholderToJobid.lookup slaveId).filter (· ≠ "") = known at h
  cases known with
  | some jobId =>
    obtain ⟨_, _, _, h⟩ := bind_eq_ok.mp h
    cases h
    rfl
  | none =>
    obtain ⟨_, _, _, h⟩ := bind_eq_ok.mp h
    obtain ⟨jobs, _, _, h⟩ := bind_eq_ok.mp h
    generalize firstJobId jobs = first at h
    cases first with
    | none =>
      obtain ⟨_, _, _, h⟩ := bind_eq_ok.mp h
      cases h
      rfl
    | some jobId =>
      obtain ⟨_, _, _, h⟩ := bind_eq_ok.mp h
      cases h
      rfl

/-- How the part for a running slave ends: the task is ignored because the slave is unknown or
    has no job, it runs, or something raises on the way. -/
inductive Started (env : Env) (m : LaunchTasksMessage) (t : TaskInfo) (slaveId : String)
    (v : LaunchVars) (s : State) : Result PyError State (Option LaunchVars) → Prop
  | unknown (hslave : s.framework.slaves.lookup slaveId = none) :
      Started env m t slaveId v s (.ok (some v) s)
  | jobless {x : Slave} (hslave : s.framework.slaves.lookup slaveId = some x)
      (hjob : NamingUtility.getJobIdFromSlaveId slaveId = none) :
      Started env m t slaveId v s (.ok none s)
  | running {x : Slave} {jobId : String} {new : List Effect} {s' : State}
      (hslave : s.framework.slaves.lookup slaveId = some x)
      (hjob : NamingUtility.getJobIdFromSlaveId slaveId = some jobId)
      (hworks : WorksOn t.taskId s s')
      (hlog : s'.effects = s.effects ++ new)
      (hsent : .launchTasks x.channel (m.tasks.map (·.taskId)) ∈ new)
      (hdebit : .debited slaveId t.taskId (t.resources.getD []) ∈ new)
      (hrecord : (s'.framework.tasks.lookup t.taskId).map (·.jobId) =
        (s.framework.tasks.lookup t.taskId).map fun _ => some jobId) :
      Started env m t slaveId v s (.ok (some (v.useOffer m x)) s')
  | raised {x : Slave} {jobId : String} {e : PyError} {s' : State}
      (hslave : s.framework.slaves.lookup slaveId = some x)
      (hjob : NamingUtility.getJobIdFromSlaveId slaveId = some jobId)
      (hworks : WorksOn t.taskId s s') :
      Started env m t slaveId v s (.error e s')

theorem Started.placeholderToJobid {env : Env} {m : LaunchTasksMessage} {t : TaskInfo}
    {slaveId : String} {v v' : LaunchVars} {s s' : State}
    (h : Started env m t slaveId v s (.ok (some v') s')) :
    v'.placeholderToJobid = v.placeholderToJobid := by
  cases h with
  | unknown _ => rfl
  | running _ _ _ _ _ _ _ =>
    unfold LaunchVars.useOffer
    split
    · split <;> rfl
    · rfl

theorem Started.worksOn {env : Env} {m : LaunchTasksMessage} {t : TaskInfo} {slaveId : String}
    {v : LaunchVars} {s : State} {r : Result PyError State (Option LaunchVars)}
    (h : Started env m t slaveId v s r) : WorksOn t.taskId s r.state := by
  cases h with
  | unknown _ => exact .refl s
  | jobless _ _ => exact .refl s
  | running _ _ hworks _ _ _ _ => exact hworks
  | raised _ _ hworks => exact hworks

/-- The state in which `launch_tasks` debits a task: its record has the job of the slave and
    the message was written. -/
def State.forward (s : State) (m : LaunchTasksMessage) (t : TaskInfo) (slaveId : String)
    (x : Slave) (jobId : String) : State :=
  { s with
    effects := s.effects ++ [.launchTasks x.channel (m.tasks.map (·.taskId))]
    framework := (s.framework.modifyTask t.taskId ({ · with jobId := some jobId })).modifySlave
      slaveId (recordExecutor t) }

theorem channel_recordExecutor (x : Slave) : (recordExecutor t x).channel = x.channel := by
  unfold recordExecutor
  split_ifs <;> rfl

theorem WorksOn.forward
    (x : Slave) (jobId : String) : WorksOn t.taskId s (s.forward m t slaveId x jobId) :=
  ((WorksOn.modifyTask s ({ · with jobId := some jobId })).trans (.emit _ _ rfl)).trans
    (.modifySlave _ slaveId _ (channel_recordExecutor t))

/-- The end of the part for a running slave, after the debit. -/
def finishOnSlave (slaveId taskId : String) (v : LaunchVars) : Handler (Option LaunchVars) := do
  modifyFramework (·.modifySlave slaveId ({ · with offerable := true }))
  runIfRegistered slaveId taskId
  pure (some v)

theorem launchOnSlave_forward {slaveId : String} (v : LaunchVars) {s : State}
    (hx : s.framework.slaves.lookup slaveId = some x)
    (hjob : NamingUtility.getJobIdFromSlaveId slaveId = some jobId) :
    launchOnSlave env m t slaveId v s =
      (do
        debitSlave env slaveId t
        finishOnSlave slaveId t.taskId (v.useOffer m x) : Handler (Option LaunchVars))
        (s.forward m t slaveId x jobId) := by
  simp only [launchOnSlave, bind_apply, get_apply, hx, hjob]
  rfl

theorem finishOnSlave_spec (taskId : String) (v : LaunchVars) (s : State) :
    WorksOn taskId s ((finishOnSlave slaveId taskId v).after s) ∧
    (((finishOnSlave slaveId taskId v).after s).framework.tasks.lookup taskId).map (·.jobId) =
      (s.framework.tasks.lookup taskId).map (·.jobId) ∧
    ∀ r s', finishOnSlave slaveId taskId v s = .ok r s' → r = some v := by
  have hoffer : WorksOn taskId s
      ((modifyFramework (·.modifySlave slaveId ({ · with offerable := true }))).after s) :=
    .modifySlave _ _ _ fun _ => rfl
  have htasks : ((modifyFramework
      (·.modifySlave slaveId ({ · with offerable := true }))).after s).framework.tasks =
      s.framework.tasks := Framework.tasks_modifySlave _ _ _
  have hafter : (finishOnSlave slaveId taskId v).after s =
      (runIfRegistered slaveId taskId).after
        ((modifyFramework (·.modifySlave slaveId ({ · with offerable := true }))).after s) :=
    EStateM.after_bind_pure _ _ _
  refine ⟨?_, ?_, fun r s' h => ?_⟩
  · rw [hafter]
    exact hoffer.trans (.runIfRegistered _ _)
  · rw [hafter, ← htasks]
    generalize (modifyFramework (·.modifySlave slaveId ({ · with offerable := true }))).after s = s1
    rcases runIfRegistered_after slaveId taskId s1 with h | ⟨ch, h⟩
    · rw [h]
    · simp only [h, Framework.lookup_modifyTask, if_true, Option.map_map]
      rfl
  · simp only [finishOnSlave, bind_eq_ok, pure_apply] at h
    obtain ⟨_, _, -, _, _, -, h⟩ := h
    cases h
    rfl

theorem launchOnSlave_started (s : State) :
    Started env m t slaveId v s (launchOnSlave env m t slaveId v s) := by
  cases hx : s.framework.slaves.lookup slaveId with
  | none =>
    simp only [launchOnSlave, bind_apply, get_apply, hx, pure_apply]
    exact .unknown hx
  | some x =>
    cases hjob : NamingUtility.getJobIdFromSlaveId slaveId with
    | none =>
      simp only [launchOnSlave, bind_apply, get_apply, hx, hjob, pure_apply]
      exact .jobless hx hjob
    | some jobId =>
      rw [launchOnSlave_forward env m t v hx hjob]
      have hrecord : ((s.forward m t slaveId x jobId).framework.tasks.lookup t.taskId).map
          (·.jobId) = (s.framework.tasks.lookup t.taskId).map fun _ => some jobId := by
        simp only [State.forward, Framework.tasks_modifySlave, Framework.lookup_modifyTask, if_true,
          Option.map_map, Function.comp_def]
      have hworks := WorksOn.forward s m t slaveId x jobId
      have hlog : (s.forward m t slaveId x jobId).effects =
        s.effects ++ [.launchTasks x.channel (m.tasks.map (·.taskId))] := rfl
      generalize s.forward m t slaveId x jobId = s1 at *
      have hdebited : WorksOn t.taskId s1 _ := WorksOn.debitSlave env s1 slaveId t
      have hspec := debitSlave_spec env slaveId t s1 _ rfl
      simp only [bind_apply]
      cases hrun : debitSlave env slaveId t s1 with
      | error e s2 =>
        rw [after_of_error hrun] at hdebited
        exact .raised hx hjob (hworks.trans hdebited)
      | ok a s2 =>
        rw [after_of_ok hrun] at hdebited
        simp only [hrun] at hspec ⊢
        obtain ⟨htasks2, hlog2⟩ : s2.framework.tasks = s1.framework.tasks ∧
            s2.effects = s1.effects ++ [.debited slaveId t.taskId (t.resources.getD [])] := by
          obtain ⟨_, _, _, _, _, rfl⟩ := hspec
          exact ⟨rfl, rfl⟩
        obtain ⟨hfinish, hrecord2, hresult⟩ :=
          finishOnSlave_spec slaveId t.taskId (v.useOffer m x) s2
        cases hreg : finishOnSlave slaveId t.taskId (v.useOffer m x) s2 with
        | error e s3 =>
          rw [after_of_error hreg] at hfinish
          exact .raised hx hjob ((hworks.trans hdebited).trans hfinish)
        | ok r s3 =>
          rw [after_of_ok hreg] at hfinish hrecord2
          obtain rfl := hresult r s3 hreg
          obtain ⟨new, hlog3, -⟩ := hfinish.log
          rw [hlog2, hlog, List.append_assoc, List.append_assoc] at hlog3
          exact .running hx hjob ((hworks.trans hdebited).trans hfinish) hlog3 (by simp) (by simp)
            (by rw [hrecord2, htasks2, hrecord])

/-- The state in which the record of a task was stored. -/
def State.stage (s : State) (m : LaunchTasksMessage) (t : TaskInfo) : State :=
  { s with
    framework := s.framework.setTask t.taskId (stagingRecord m s.clock t)
    effects := s.effects ++ [.stored t.taskId] }

theorem State.lookup_stage :
    (s.stage m t).framework.tasks.lookup t.taskId = some (stagingRecord m s.clock t) :=
  AList.lookup_insert _

theorem State.mem_stage : t.taskId ∈ (s.stage m t).framework.tasks :=
  (AList.mem_insert _).mpr (Or.inl rfl)

theorem WorksOn.stage : WorksOn t.taskId s (s.stage m t) := WorksOn.stored s _

/-- How an iteration of the loop ends. -/
inductive Launched (env : Env) (m : LaunchTasksMessage) (t : TaskInfo) (v : LaunchVars)
    (s : State) : Result PyError State (Option LaunchVars) → Prop
  | unnamed (hslave : t.slave = none) : Launched env m t v s (.error (.keyError "agent_id") s)
  | placed {k : String} {v' : LaunchVars} {s' : State} (hslave : t.slave = some k)
      (hplace : isPlaceholder k = true) (h : Placed env t k v (s.stage m t) (.ok v' s')) :
      Launched env m t v s (.ok (some v') s')
  | started {k : String} {r : Result PyError State (Option LaunchVars)}
      (hslave : t.slave = some k) (hplace : isPlaceholder k = false)
      (h : Started env m t k v (s.stage m t) r) : Launched env m t v s r

theorem launchTask_of_slave {env : Env} {m : LaunchTasksMessage} {t : TaskInfo} {v : LaunchVars}
    (hslave : t.slave = some k) (s : State) :
    launchTask env m t v s =
      (if isPlaceholder k then (do
        let v ← launchOnPlaceholder env t k v
        pure (some v)) else launchOnSlave env m t k v : Handler (Option LaunchVars))
        (s.stage m t) := by
  simp only [launchTask, hslave]
  rfl

/-- The ways in which an iteration ends. -/
theorem launchTask_launched (s : State) : Launched env m t v s (launchTask env m t v s) := by
  cases hslave : t.slave with
  | none =>
    simp only [launchTask, hslave, orRaise, bind_apply, EStateM.throw_apply]
    exact .unnamed hslave
  | some k =>
    rw [launchTask_of_slave hslave]
    cases hplace : isPlaceholder k with
    | true =>
      have h := launchOnPlaceholder_placed env t k v (State.mem_stage s m t)
      simp only [if_true, bind_apply]
      cases hr : launchOnPlaceholder env t k v (s.stage m t) with
      | error e s' => rw [hr] at h; cases h
      | ok v' s' => rw [hr] at h; exact .placed hslave hplace h
    | false =>
      exact .started hslave hplace (launchOnSlave_started env m t k v (s.stage m t))

/-! ## The whole call -/

/-- `framework['task_dict'] = task_dict`, for a framework that had none. -/
def State.withTaskDict (s : State) : State :=
  { s with framework := { s.framework with taskDict := some s.framework.tasks } }

/-- `launch_tasks` once the framework has its `task_dict`: the loop over the tasks and, if it came
    to its end, the offers that are left. -/
def launchActive (env : Env) (m : LaunchTasksMessage) : Handler Unit := do
  match ← launchLoop env m m.tasks {} with
  | none => pure ()
  | some v => processRemainingOffers m.refuseSeconds (v.remainingOffers m)

theorem launchTasks_of_active (entry : Entry) (m : LaunchTasksMessage) {s : State}
    (hactive : s.tracking = .active) :
    launchTasks env entry m s = launchActive env m s.withTaskDict := by
  simp only [launchTasks, bind_apply, get_apply, hactive, if_true]
  rfl

theorem after_launchTasks (entry : Entry) (m : LaunchTasksMessage) {s : State}
    (hactive : s.tracking = .active) :
    (launchTasks env entry m).after s = (launchActive env m).after s.withTaskDict := by
  rw [EStateM.after, launchTasks_of_active env entry m hactive, EStateM.after]

/-! ## What a task on a place-holder leaves alone -/

/-- The channel and the tasks of a `LaunchTasks` message that is written. -/
def Effect.forwards : Effect → Option (String × List String)
  | .launchTasks channel tasks => some (channel, tasks)
  | _ => none

/-- The `LaunchTasks` messages that were written. -/
def State.forwarded (s : State) : List (String × List String) :=
  s.effects.filterMap Effect.forwards

/-- The slaves, the configuration and the messages that were written. -/
def State.ground (s : State) : Dict Slave × FrameworkConfig × List (String × List String) :=
  (s.framework.slaves, s.framework.config, s.forwarded)

theorem ground_inj {s s' : State} (h : s'.ground = s.ground) :
    s'.framework.slaves = s.framework.slaves ∧ s'.framework.config = s.framework.config ∧
      s'.forwarded = s.forwarded := by
  simpa only [State.ground, Prod.mk.injEq] using h

theorem ground_emit {e : Effect} (he : e.forwards = none) : Leaves State.ground (emit e) :=
  .modify fun s => by simp [State.ground, State.forwarded, he]

theorem ground_modifyTask (taskId : String) (g : TaskRecord → TaskRecord) :
    Leaves State.ground (modifyFramework (·.modifyTask taskId g)) :=
  .modify fun s => by simp [State.ground, State.forwarded]

theorem ground_processTaskLostStatusUpdate (taskId : String) (slaveId : Option String) :
    Leaves State.ground (processTaskLostStatusUpdate taskId slaveId) :=
  .bind (.bind .get fun _ => .ite (.pure _) (ground_emit rfl)) fun _ => .bind .get fun _ =>
    .ite (.bind (ground_modifyTask _ _) fun _ => .modify fun _ => rfl) (.throw _)

theorem ground_assignJob (jobId : String) : Leaves State.ground (assignJob t slaveId jobId) :=
  .bind (ground_modifyTask _ _) fun _ => .bind .get fun _ =>
    .ite (ground_processTaskLostStatusUpdate _ _) (.pure _)

theorem ground_scaleUp (scaleCount : Option Nat) :
    Leaves State.ground (scaleUp env scaleCount) := by
  refine .bind .get fun _ => .ite (.pure _) (.bind (.bind .get fun s => ?_) fun _ =>
    .bind (.modify fun _ => rfl) fun _ => .pure _)
  split
  · exact .bind (ground_emit rfl) fun _ => .pure _
  · exact .pure _

theorem ground_launchOnPlaceholder :
    Leaves State.ground (launchOnPlaceholder env t slaveId v) := by
  unfold launchOnPlaceholder
  split
  · exact .bind (ground_assignJob _ _ _) fun _ => .pure _
  · refine .bind .get fun _ => .bind (ground_scaleUp _ _) fun jobs => ?_
    split
    · exact .bind (ground_processTaskLostStatusUpdate _ _) fun _ => .pure _
    · exact .bind (ground_assignJob _ _ _) fun _ => .pure _

end Urb
