import Mathlib.Data.Finset.Card
import Mathlib.Data.Finset.Dedup
import Urb.ForStd.Run
import Urb.Spec.Assignments
import Urb.Spec.Launch
import Urb.Spec.Postprocess

/-!
# The cap on the jobs of a framework

`max_tasks` is the maximum number of pending and running jobs of a framework, and `job_ids`
lists them. `scale_up` computes the headroom from the key `"job_id"`, which nothing writes, so
that every call may submit up to `max_tasks` jobs, however many there are. This file says how
many jobs a request can add to `job_ids` at most, and that the cap holds in a run in which
there is room for them before every request.
-/

namespace Urb

open EStateM (Keeps Triple after_bind after_bind_cases after_eq_state after_of_error after_of_ok
  bind_apply bind_eq_ok get_apply modify_apply pure_apply)

variable {m : RegisterExecutorRunnerMessage} {s s' : State} {t : TaskInfo}

variable {α : Type} {env : Env}

/-! ## Adding jobs -/

/-- The code adds at most `n` entries to `job_ids`. -/
structure Hires (n : Nat) (s s' : State) : Prop where
  jobs : s'.framework.jobs.length ≤ s.framework.jobs.length + n
  config : s'.framework.config = s.framework.config

namespace Hires

variable {a b n : Nat} {s s' s'' : State}

theorem refl (s : State) : Hires 0 s s := ⟨Nat.le_refl _, rfl⟩

theorem mono (h : Hires a s s') (hab : a ≤ b) : Hires b s s' :=
  ⟨by have := h.jobs; omega, h.config⟩

theorem trans (h : Hires a s s') (h' : Hires b s' s'') : Hires (a + b) s s'' :=
  ⟨by have := h.jobs; have := h'.jobs; omega, h'.config.trans h.config⟩

theorem of_jobIds (hj : s'.framework.jobIds = s.framework.jobIds)
    (hc : s'.framework.config = s.framework.config) : Hires 0 s s' :=
  ⟨by rw [Framework.jobs, Framework.jobs, hj]; omega, hc⟩

end Hires

theorem Silent.hires (h : Silent s s') : Hires 0 s s' := by
  cases h with
  | emit e he => exact .of_jobIds rfl rfl
  | modifyTask taskId g hg => exact .of_jobIds (by simp) (by simp)
  | modifySlave slaveId g hg => exact .of_jobIds (by simp) (by simp)
  | delete d k => exact .of_jobIds rfl rfl
  | retry r => exact .of_jobIds rfl rfl
  | revive => exact .of_jobIds rfl rfl
  | framework f ht hs ho hc hj => exact .of_jobIds hj hc

theorem JobFree.hires (h : JobFree s s') : Hires 0 s s' := by
  cases h with
  | silent h => exact h.hires
  | log e => exact .of_jobIds rfl rfl
  | slave k x => exact .of_jobIds rfl rfl
  | store taskId r => exact .of_jobIds rfl rfl
  | replace entry taskId t => exact .of_jobIds rfl rfl

theorem JobFreely.hires {m : Handler α} (h : JobFreely m) : Keeps (Hires 0) m :=
  h.of_steps .refl (fun _ _ _ => .trans) fun _ _ hstep => hstep.hires

theorem JobFreely.triple {m : Handler α} (h : JobFreely m) (n : Nat) (s : State) :
    Triple (Hires n s) m (fun _ => Hires n s) (Hires n s) :=
  .of_after fun s' hs => hs.trans (h.hires s')

/-! ## `scale_up` -/

/-- The number of jobs a call of `scale_up` submits at most. -/
def FrameworkConfig.hired (config : FrameworkConfig) (scaleCount : Option Nat) : Nat :=
  min (effectiveScaleCount config scaleCount) config.maxTasks

/-- The adapter submits no more jobs than it was asked for, and every job has an id. -/
structure Env.Submits (env : Env) : Prop where
  count : ∀ log max n jobs, env.registerFramework log max n = .ok jobs → jobs.length ≤ n
  named : ∀ log max n jobs, env.registerFramework log max n = .ok jobs → ∀ j ∈ jobs, j.1 ≠ ""

theorem length_addJobIds (jobs : List JobIdTuple) (f : Framework) :
    (addJobIds jobs f).jobs.length ≤ f.jobs.length + jobs.length := by
  rw [← List.length_append]
  exact (List.dedup_sublist _).length_le

theorem submittedJobs_spec (henv : env.Submits) (f : Framework) (log : List Effect)
    (scaleCount : Option Nat) :
    (submittedJobs env f log scaleCount).length ≤ f.config.hired scaleCount ∧
      ∀ j ∈ submittedJobs env f log scaleCount, j.1 ≠ "" := by
  unfold submittedJobs FrameworkConfig.hired
  split
  · exact ⟨Nat.zero_le _, by simp⟩
  · cases hreg : env.registerFramework log f.config.maxTasks
        (min (effectiveScaleCount f.config scaleCount) (jobHeadroom f)) with
    | ok jobs =>
      have hcount := henv.count _ _ _ _ hreg
      have hroom : jobHeadroom f ≤ f.config.maxTasks := Nat.sub_le _ _
      exact ⟨by dsimp only; omega, henv.named _ _ _ _ hreg⟩
    | error e => exact ⟨Nat.zero_le _, by simp⟩

theorem scaleUp_hires (env : Env) (scaleCount : Option Nat) (s : State) :
    ∃ s', scaleUp env scaleCount s =
        .ok (submittedJobs env s.framework s.effects scaleCount) s' ∧
      Hires (submittedJobs env s.framework s.effects scaleCount).length s s' := by
  simp only [scaleUp, bind_apply, get_apply, submittedJobs]
  by_cases hc : effectiveScaleCount s.framework.config scaleCount = 0 ∨ jobHeadroom s.framework = 0
  · simp only [hc, if_true, pure_apply]
    exact ⟨s, rfl, .refl s⟩
  · simp only [hc, if_false, submitExecutorRunner, bind_apply, get_apply]
    cases env.registerFramework s.effects s.framework.config.maxTasks
        (min (effectiveScaleCount s.framework.config scaleCount) (jobHeadroom s.framework)) with
    | ok jobs =>
      simp only [emit, modifyFramework, bind_apply, modify_apply,
        pure_apply]
      exact ⟨_, rfl, length_addJobIds jobs s.framework, rfl⟩
    | error e =>
      simp only [modifyFramework, modify_apply, pure_apply]
      exact ⟨_, rfl, length_addJobIds [] s.framework, rfl⟩

theorem scaleUp_keeps_hires (henv : env.Submits) (scaleCount : Option Nat) (s : State) :
    Hires (s.framework.config.hired scaleCount) s ((scaleUp env scaleCount).after s) := by
  obtain ⟨s', hrun, hhires⟩ := scaleUp_hires env scaleCount s
  rw [after_of_ok hrun]
  exact hhires.mono (submittedJobs_spec henv _ _ _).1

/-! ## `launch_tasks` -/

/-- The place-holders that tasks name. -/
def placeholders (ts : List TaskInfo) : Finset String :=
  ((ts.filterMap TaskInfo.slave).filter isPlaceholder).toFinset

/-- A job was submitted for the place-holder by an earlier iteration. -/
def LaunchVars.knows (v : LaunchVars) (k : String) : Bool :=
  ((v.placeholderToJobid.lookup k).filter (· ≠ "")).isSome

/-- The place-holders for which jobs are still to be submitted. -/
def LaunchVars.unknown (v : LaunchVars) (ts : List TaskInfo) : Finset String :=
  (placeholders ts).filter (v.knows · = false)

theorem mem_unknown {v : LaunchVars} {ts : List TaskInfo} {k : String} :
    k ∈ v.unknown ts ↔ (∃ t ∈ ts, t.slave = some k) ∧ isPlaceholder k = true ∧
      v.knows k = false := by
  simp only [LaunchVars.unknown, placeholders, Finset.mem_filter, List.mem_toFinset,
    List.mem_filter, List.mem_filterMap, and_assoc]

theorem unknown_mono {v v' : LaunchVars} {rest : List TaskInfo}
    (h : v'.placeholderToJobid = v.placeholderToJobid) :
    v'.unknown rest ⊆ v.unknown (t :: rest) := by
  intro k hk
  simp only [mem_unknown, LaunchVars.knows, h] at hk ⊢
  obtain ⟨⟨t', ht', hslave⟩, hrest⟩ := hk
  exact ⟨⟨t', List.mem_cons_of_mem _ ht', hslave⟩, hrest⟩

/-- How the part for a place-holder ends: no job was added and the known jobs are the same, or
    jobs were added and one of them is known for the place-holder. -/
inductive Hired (c : Nat) (k : String) (v v' : LaunchVars) (s s' : State) : Prop
  | known (hv : v'.placeholderToJobid = v.placeholderToJobid) (h : Hires 0 s s')
  | submitted (hk : v.knows k = false) (hv : ∃ jobId ≠ "", v'.placeholderToJobid =
      v.placeholderToJobid.insert k jobId) (h : Hires c s s')

theorem launchOnPlaceholder_hires (henv : env.Submits) (t : TaskInfo) (k : String)
    (v : LaunchVars) (s : State) {c : Nat}
    (hc : s.framework.config.hired (some (s.framework.config.concurrentTasks.getD 1)) = c) :
    Triple (· = s) (launchOnPlaceholder env t k v) (fun v' s' => Hired c k v v' s s')
      (Hires c s) := by
  unfold launchOnPlaceholder
  split
  case h_1 jobId hjob =>
    have hassign : JobFreely (assignJob t k jobId) := (Silently.assignJob _ _ _).jobFreely
    refine .bind ((hassign.triple 0 s).weaken (fun s' hs => hs ▸ .refl s) (fun _ _ h => h)
      fun _ h => h.mono (Nat.zero_le c)) fun _ => .pure fun s' h => .known rfl h
  case h_2 hunknown =>
    have hknows : v.knows k = false := by rw [LaunchVars.knows, hunknown]; rfl
    refine .get_bind fun s0 hs0 => ?_
    subst hs0
    obtain ⟨s1, hrun, hhires⟩ :=
      scaleUp_hires env (some (s0.framework.config.concurrentTasks.getD 1)) s0
    obtain ⟨hcount, hnamed⟩ := submittedJobs_spec henv s0.framework s0.effects
      (some (s0.framework.config.concurrentTasks.getD 1))
    rw [hc] at hcount
    refine .bind (R := fun jobs s' => jobs.length ≤ c ∧ (∀ j ∈ jobs, j.1 ≠ "") ∧
      Hires jobs.length s0 s') ?_ fun jobs => ?_
    · intro s' hs'
      rw [hs', hrun]
      exact ⟨hcount, hnamed, hhires⟩
    · cases hfirst : firstJobId jobs with
      | none =>
        -- nothing was submitted, and the task is reported lost
        have hnil : jobs = [] := firstJobId_eq_none.mp hfirst
        have hlost : JobFreely (processTaskLostStatusUpdate t.taskId (some k)) :=
          (Silently.processTaskLostStatusUpdate _ _).jobFreely
        refine .bind ((hlost.triple 0 s0).weaken (fun s' hs => ?_) (fun _ _ h => h)
          fun _ h => h.mono (Nat.zero_le c)) fun _ => .pure fun s' h => .known rfl h
        rw [hnil] at hs
        exact hs.2.2
      | some jobId =>
        have hassign : JobFreely (assignJob t k jobId) := (Silently.assignJob _ _ _).jobFreely
        refine .bind (R := fun _ s' => jobId ≠ "" ∧ Hires c s0 s') (fun s' hs => ?_) fun _ =>
          .pure fun s' h => .submitted hknows ⟨jobId, h.1, rfl⟩ h.2
        obtain ⟨j, hj, hid⟩ := List.mem_map.mp (mem_of_firstJobId hfirst)
        have hne : jobId ≠ "" := hid ▸ hs.2.1 j hj
        have hassigned := hassign.triple c s0 s' (hs.2.2.mono hs.1)
        cases hrun : assignJob t k jobId s' with
        | ok a s'' =>
          rw [hrun] at hassigned
          exact ⟨hne, hassigned⟩
        | error e s'' =>
          rw [hrun] at hassigned
          exact hassigned

theorem card_unknown_insert {v v' : LaunchVars} {k jobId : String}
    (rest : List TaskInfo) (hslave : t.slave = some k) (hplace : isPlaceholder k = true)
    (hk : v.knows k = false) (hne : jobId ≠ "")
    (hv : v'.placeholderToJobid = v.placeholderToJobid.insert k jobId) :
    (v'.unknown rest).card + 1 ≤ (v.unknown (t :: rest)).card := by
  have hmem : k ∈ v.unknown (t :: rest) := mem_unknown.mpr ⟨⟨t, by simp, hslave⟩, hplace, hk⟩
  have hsub : v'.unknown rest ⊆ (v.unknown (t :: rest)).erase k := by
    intro k' hk'
    obtain ⟨⟨t', ht', hslave'⟩, hplace', hknows⟩ := mem_unknown.mp hk'
    have hne' : k' ≠ k := by
      intro heq
      rw [heq, LaunchVars.knows, hv, AList.lookup_insert] at hknows
      simp [hne] at hknows
    rw [LaunchVars.knows, hv, AList.lookup_insert_ne hne'] at hknows
    exact Finset.mem_erase.mpr ⟨hne', mem_unknown.mpr
      ⟨⟨t', List.mem_cons_of_mem _ ht', hslave'⟩, hplace', hknows⟩⟩
  have hcard := Finset.card_le_card hsub
  rw [Finset.card_erase_of_mem hmem] at hcard
  have hpos := Finset.card_pos.mpr ⟨k, hmem⟩
  omega

section Launch

variable {env : Env} {m : LaunchTasksMessage} {t : TaskInfo} {v v' : LaunchVars} {s s' : State}
  {c : Nat}

theorem launchTask_hires (henv : env.Submits)
    (hc : s.framework.config.hired (some (s.framework.config.concurrentTasks.getD 1)) = c)
    (hrun : launchTask env m t v s = .ok (some v') s') (rest : List TaskInfo) :
    ∃ n, Hires n s s' ∧ n + (v'.unknown rest).card * c ≤ (v.unknown (t :: rest)).card * c := by
  have hstage : Hires 0 s (s.stage m t) := .of_jobIds rfl rfl
  have hsame : v'.placeholderToJobid = v.placeholderToJobid →
      (v'.unknown rest).card * c ≤ (v.unknown (t :: rest)).card * c := fun hv =>
    Nat.mul_le_mul_right c (Finset.card_le_card (unknown_mono hv))
  have hlaunched := launchTask_launched env m t v s
  rw [hrun] at hlaunched
  cases hlaunched with
  | @started k _ hslave hplace hp =>
    have hfree := (JobFreely.launchOnSlave env m t k v).hires (s.stage m t)
    rw [launchTask_of_slave hslave, hplace, if_neg Bool.false_ne_true] at hrun
    rw [after_of_ok hrun] at hfree
    exact ⟨0, hstage.trans hfree, by rw [Nat.zero_add]; exact hsame hp.placeholderToJobid⟩
  | @placed k _ _ hslave hplace hp =>
    rw [launchTask_of_slave hslave, hplace, if_pos rfl, bind_eq_ok] at hrun
    obtain ⟨v1, s1, hrun, hpure⟩ := hrun
    cases hpure
    have hhired := launchOnPlaceholder_hires henv t k v (s.stage m t) hc _ rfl
    rw [hrun] at hhired
    cases hhired with
    | known hv h => exact ⟨0, hstage.trans h, by rw [Nat.zero_add]; exact hsame hv⟩
    | submitted hk hv h =>
      obtain ⟨jobId, hne, hv⟩ := hv
      have hcard := card_unknown_insert rest hslave hplace hk hne hv
      have hmul := Nat.mul_le_mul_right c hcard
      rw [Nat.add_mul, Nat.one_mul] at hmul
      exact ⟨0 + c, hstage.trans h, by omega⟩

theorem launchTask_stops_hires (hstop : ∀ v' s', launchTask env m t v s ≠ .ok (some v') s') :
    Hires 0 s ((launchTask env m t v).after s) := by
  rw [after_eq_state]
  have hlaunched := launchTask_launched env m t v s
  generalize hr : launchTask env m t v s = r at hlaunched hstop
  cases hlaunched with
  | unnamed hslave => exact .refl s
  | placed hslave hplace hp => exact (hstop _ _ rfl).elim
  | @started k _ hslave hplace hp =>
    have hstage : Hires 0 s (s.stage m t) := .of_jobIds rfl rfl
    have hfree := (JobFreely.launchOnSlave env m t k v).hires (s.stage m t)
    rw [launchTask_of_slave hslave, hplace, if_neg Bool.false_ne_true] at hr
    rw [after_eq_state, hr] at hfree
    exact hstage.trans hfree

theorem launchLoop_hires (henv : env.Submits) (ts : List TaskInfo) (v : LaunchVars) (s : State)
    (hc : s.framework.config.hired (some (s.framework.config.concurrentTasks.getD 1)) = c) :
    Hires ((v.unknown ts).card * c) s ((launchLoop env m ts v).after s) := by
  induction ts generalizing v s with
  | nil => exact (Hires.refl s).mono (Nat.zero_le _)
  | cons t rest ih =>
    have hstop : (∀ v' s', launchTask env m t v s ≠ .ok (some v') s') →
        Hires 0 s ((launchTask env m t v).after s) := launchTask_stops_hires
    rw [launchLoop]
    apply after_bind_cases
    · intro o s' hrun
      cases o with
      | none =>
        rw [after_of_ok hrun] at hstop
        exact (hstop fun v' s' h => by rw [hrun] at h; cases h).mono (Nat.zero_le _)
      | some v' =>
        obtain ⟨n, hn, hle⟩ := launchTask_hires henv hc hrun rest
        have hrest := ih v' s' (by rw [hn.config]; exact hc)
        exact (hn.trans hrest).mono hle
    · intro e s' hrun
      rw [after_of_error hrun] at hstop
      exact (hstop fun v' s' h => by rw [hrun] at h; cases h).mono (Nat.zero_le _)

theorem launchTasks_hires (henv : env.Submits) (entry : Entry) (hactive : s.tracking = .active) :
    Hires ((placeholders m.tasks).card *
        s.framework.config.hired (some (s.framework.config.concurrentTasks.getD 1))) s
      ((launchTasks env entry m).after s) := by
  have hle : (LaunchVars.unknown {} m.tasks).card ≤ (placeholders m.tasks).card :=
    Finset.card_le_card (Finset.filter_subset _ _)
  have hloop : Hires ((placeholders m.tasks).card *
      s.framework.config.hired (some (s.framework.config.concurrentTasks.getD 1))) s
      ((launchLoop env m m.tasks {}).after s.withTaskDict) := by
    have hstart : Hires 0 s s.withTaskDict := .of_jobIds rfl rfl
    apply (hstart.trans (launchLoop_hires henv m.tasks {} s.withTaskDict rfl)).mono
    rw [Nat.zero_add]
    exact Nat.mul_le_mul_right _ hle
  rw [after_launchTasks env entry m hactive, launchActive]
  apply after_bind_cases
  · intro o s1 hrun
    rw [after_of_ok hrun] at hloop
    cases o with
    | none => exact hloop.trans (.refl s1)
    | some v =>
      have hidly := Idly.processRemainingOffers m.refuseSeconds (v.remainingOffers m)
      exact hloop.trans (hidly.silently.jobFreely.hires s1)
  · intro e s1 hrun
    rw [after_of_error hrun] at hloop
    exact hloop

end Launch

/-! ## Registrations -/

/-- A task that named a place-holder waits for the job. -/
def TaskRecord.waitsFor (jobId : String) (r : TaskRecord) : Bool :=
  r.state = .staging && r.jobId = some jobId && r.taskInfo.slave.any isPlaceholder

theorem tasks_pendingTask {taskId : String} {task : TaskRecord} {v v' : PendingVars}
    (hrun : pendingTask env m taskId task v s = .ok v' s') :
    v'.tasks = v.tasks ++ if task.waitsFor m.jobId then [task.taskInfo.taskId] else [] := by
  unfold pendingTask at hrun
  split at hrun
  case isFalse h =>
    cases hrun
    have hnot : task.waitsFor m.jobId = false := by
      simp only [TaskRecord.waitsFor, Bool.and_eq_false_iff, decide_eq_false_iff_not]
      exact .inl (not_and_or.mp h)
    rw [hnot, if_neg Bool.false_ne_true, List.append_nil]
  case isTrue h =>
    rw [bind_eq_ok] at hrun
    obtain ⟨k, s1, hslave, hrun⟩ := hrun
    cases hk : task.taskInfo.slave with
    | none =>
      rw [hk] at hslave
      cases hslave
    | some k' =>
      rw [hk] at hslave
      cases hslave
      have hwaits : task.waitsFor m.jobId = isPlaceholder k := by
        simp [TaskRecord.waitsFor, h.1, h.2, hk]
      obtain ⟨v1, s2, hadopt, hrun⟩ := bind_eq_ok.mp hrun
      obtain ⟨_, s3, _, hpure⟩ := bind_eq_ok.mp hrun
      cases hpure
      rw [hwaits]
      cases hplace : isPlaceholder k with
      | true =>
        rw [hplace, if_pos rfl] at hadopt
        cases hadopt
        rfl
      | false =>
        rw [hplace, if_neg Bool.false_ne_true] at hadopt
        cases hadopt
        rw [if_neg Bool.false_ne_true, List.append_nil]

theorem tasks_pendingTasks
    {entries : List (Sigma fun _ : String => TaskRecord)} {v v' : PendingVars}
    (hrun : pendingTasks env m entries v s = .ok v' s') :
    v'.tasks = v.tasks ++
      (entries.filter (·.2.waitsFor m.jobId)).map (·.2.taskInfo.taskId) := by
  induction entries generalizing v s with
  | nil =>
    cases hrun
    rw [List.filter_nil, List.map_nil, List.append_nil]
  | cons e rest ih =>
    rw [pendingTasks, bind_eq_ok] at hrun
    obtain ⟨v1, s1, htask, hrest⟩ := hrun
    rw [ih hrest, tasks_pendingTask htask, List.append_assoc, List.filter_cons]
    split <;> simp

/-- The number of jobs that a registering runner adds at most: its own, and those for the
    tasks that may follow the pending ones. -/
def RegisterExecutorRunnerMessage.hired (m : RegisterExecutorRunnerMessage) (f : Framework) : Nat :=
  (if f.jobs.any (·.1 == m.jobId) then 0 else 1) +
    if m.tasks.isEmpty && f.tasks.entries.any (·.2.waitsFor m.jobId) then f.config.hired none else 0

/-- What `register_executor_runner` does after the loop over the pending tasks. -/
def sendPending (env : Env) (m : RegisterExecutorRunnerMessage) (v : PendingVars) :
    Handler Unit := do
  (if v.tasks.isEmpty then pure ()
  else do
    emit (.launchTasks m.channel v.tasks)
    (if v.executorInDocker || v.taskInDocker then pure ()
    else do
      let _ ← scaleUp env none
      pure ()))
  modifyFramework (·.modifySlave m.slaveId ({ · with offerable := true }))

theorem startPending_eq (env : Env) (m : RegisterExecutorRunnerMessage) : startPending env m =
      (do let entries ← taskEntries
          let v ← pendingTasks env m entries {}
          sendPending env m v) := rfl

section Runner

variable {env : Env} {m : RegisterExecutorRunnerMessage} {s : State}

theorem sendPending_hires (henv : env.Submits) (v : PendingVars) (s : State) :
    Hires (if v.tasks.isEmpty then 0 else s.framework.config.hired none) s
      ((sendPending env m v).after s) := by
  have hfinish : Keeps (Hires 0) (modifyFramework (·.modifySlave m.slaveId
      ({ · with offerable := true }))) := (JobFreely.modifySlave _ _).hires
  rw [sendPending]
  cases v.tasks.isEmpty with
  | true => exact hfinish s
  | false =>
    let s1 := s.log (.launchTasks m.channel v.tasks)
    have hlog : Hires 0 s s1 := .of_jobIds rfl rfl
    have hscale : Hires (s.framework.config.hired none) s
        ((if v.executorInDocker || v.taskInDocker then pure ()
          else do
            let _ ← scaleUp env none
            pure () : Handler Unit).after s1) := by
      split
      · exact hlog.mono (Nat.zero_le _)
      · rw [EStateM.after_bind_pure]
        exact (hlog.trans (scaleUp_keeps_hires henv none s1)).mono (Nat.le_of_eq (Nat.zero_add _))
    show Hires _ s ((do
      (if v.executorInDocker || v.taskInDocker then pure ()
        else do
          let _ ← scaleUp env none
          pure ())
      modifyFramework (·.modifySlave m.slaveId ({ · with offerable := true })) :
        Handler Unit).after s1)
    apply after_bind_cases
    · intro _ s2 hrun
      rw [after_of_ok hrun] at hscale
      exact hscale.trans (hfinish s2)
    · intro e s2 hrun
      rw [after_of_error hrun] at hscale
      exact hscale

theorem startPending_hires (henv : env.Submits) :
    Hires (if s.framework.tasks.entries.any (·.2.waitsFor m.jobId) then
      s.framework.config.hired none else 0) s ((startPending env m).after s) := by
  rw [startPending_eq]
  apply after_bind_cases
  · intro entries s1 hentries
    obtain ⟨rfl, rfl⟩ := taskEntries_eq_ok hentries
    apply after_bind_cases
    · intro v s2 hrun
      have hfree := (JobFreely.pendingTasks env m s1.framework.tasks.entries {}).hires s1
      rw [after_of_ok hrun] at hfree
      have hsend := hfree.trans (sendPending_hires (m := m) henv v s2)
      rw [hfree.config] at hsend
      refine hsend.mono ?_
      cases hany : s1.framework.tasks.entries.any (·.2.waitsFor m.jobId) with
      | true => split <;> simp
      | false =>
        have hnone : ∀ e ∈ s1.framework.tasks.entries, e.2.waitsFor m.jobId = false := by
          simpa using hany
        have hempty : v.tasks = [] := by
          rw [tasks_pendingTasks hrun, List.filter_eq_nil_iff.mpr (by simpa using hnone)]
          rfl
        rw [hempty]
        exact Nat.le_refl _
    · intro e s2 hrun
      have hfree := (JobFreely.pendingTasks env m s1.framework.tasks.entries {}).hires s1
      rw [after_of_error hrun] at hfree
      exact hfree.mono (Nat.zero_le _)
  · intro e s' hrun
    have hfree := Mutely.taskEntries.silently.jobFreely.hires s
    rw [after_of_error hrun] at hfree
    exact hfree.mono (Nat.zero_le _)

theorem addSlave_hires (env : Env) (m : RegisterExecutorRunnerMessage) (s : State) :
    Hires (if s.framework.jobs.any (·.1 == m.jobId) then 0 else 1) s ((addSlave env m).after s) ∧
      ((addSlave env m).after s).framework.tasks = s.framework.tasks := by
  have hafter : ((addSlave env m).after s).framework = ensureJobId env m.jobId
      (s.framework.setSlave m.slaveId (newSlave s.framework.config m)) := rfl
  refine ⟨⟨?_, by rw [hafter]; rfl⟩, by rw [hafter]; rfl⟩
  rw [hafter]
  show (if s.framework.jobs.any (·.1 == m.jobId) then s.framework.jobs
    else s.framework.jobs ++ [env.getJobIdTuple m.jobId]).length ≤ _
  split
  · exact Nat.le_refl _
  · rw [List.length_append, List.length_singleton]

theorem registerExecutorRunner_hires (henv : env.Submits) (entry : Entry)
    (hactive : s.tracking = .active) :
    Hires (m.hired s.framework) s ((registerExecutorRunner env entry m).after s) := by
  obtain ⟨hadd, htasks⟩ := addSlave_hires env m s
  let s1 := (addSlave env m).after s
  rw [after_registerExecutorRunner env entry m hactive, RegisterExecutorRunnerMessage.hired]
  cases htask : m.tasks with
  | nil =>
    have hstart : Hires _ s1 ((startPending env m).after s1) := startPending_hires henv
    rw [show s1.framework.tasks = s.framework.tasks from htasks,
      show s1.framework.config = s.framework.config from hadd.config] at hstart
    exact hadd.trans hstart
  | cons t rest =>
    have hrebuild : JobFreely (do
        modifyFramework (·.modifySlave m.slaveId ({ · with executor := t.executor }))
        rebuildTasks env m.slaveId m.jobId (t :: rest) : Handler Unit) :=
      (JobFreely.modifySlave _ _).bind fun _ => JobFreely.rebuildTasks _ _ _ _
    exact (hadd.trans (hrebuild.hires s1)).mono (by simp)

end Runner

/-- The number of jobs that a registering executor adds at most. -/
def RegisterExecutorMessage.hired (m : RegisterExecutorMessage) (entry : Entry) (f : Framework) :
    Nat :=
  match f.slaveOfExecutor entry m with
  | none => 0
  | some ⟨_, slave⟩ =>
    if slave.executor.bind (·.container) = some .docker ∨ slave.isCommandExecutor then 0
    else f.config.hired none

/-- What the code adds at most is determined by the configuration. -/
def HiresUpTo (g : FrameworkConfig → Nat) (s s' : State) : Prop :=
  Hires (g s.framework.config) s s'

theorem HiresUpTo.after_jobFreely {β : Type} {g : FrameworkConfig → Nat} {x : Handler α}
    {f : α → Handler β} (hx : JobFreely x) (hf : ∀ a, Keeps (HiresUpTo g) (f a)) :
    Keeps (HiresUpTo g) (x >>= f) := by
  refine Keeps.seq (fun s s' s'' (h : Hires 0 s s') (h' : HiresUpTo g s' s'') => ?_)
    (fun _ _ h => h.mono (Nat.zero_le _)) hx.hires hf
  rw [HiresUpTo, h.config] at h'
  exact (h.trans h').mono (Nat.le_of_eq (Nat.zero_add _))

theorem JobFreely.hiresUpTo {m : Handler α} (h : JobFreely m)
    (g : FrameworkConfig → Nat) : Keeps (HiresUpTo g) m :=
  fun s => (h.hires s).mono (Nat.zero_le _)

theorem registerOnSlave_hires (henv : env.Submits) (entry : Entry)
    (m : RegisterExecutorMessage) (k : String) (x : Slave) :
    Keeps (HiresUpTo fun config =>
      if x.executor.bind (·.container) = some .docker ∨ x.isCommandExecutor then 0
      else config.hired none) (registerOnSlave env entry m k x) := by
  unfold registerOnSlave
  refine .after_jobFreely ?_ fun _ => .after_jobFreely .get fun _ =>
    .after_jobFreely (.orRaise _ _) fun _ =>
    .after_jobFreely Mutely.taskEntries.silently.jobFreely fun _ => .after_jobFreely ?_ fun _ =>
    .after_jobFreely (Mutely.taskInDocker _ _).silently.jobFreely fun inDocker => ?_
  · cases entry with
    | queue => exact (JobFreely.modifySlave _ _).bind fun _ => JobFreely.emit _
    | http => exact .pure _
  · split
    · exact (Mutely.startTasks _ _ _ _ _ _).silently.jobFreely
    · exact .pure _
  · by_cases hdocker : x.executor.bind (·.container) = some .docker ∨ inDocker ∨
        x.isCommandExecutor
    · rw [if_pos hdocker]
      exact JobFreely.hiresUpTo (.pure _) _
    · intro s
      rw [if_neg hdocker, EStateM.after_bind_pure, HiresUpTo,
        if_neg fun h => hdocker (h.imp_right Or.inr)]
      exact scaleUp_keeps_hires henv none s

theorem registerExecutor_hires (henv : env.Submits) (entry : Entry)
    (m : RegisterExecutorMessage) (hactive : s.tracking = .active) :
    Hires (m.hired entry s.framework) s ((registerExecutor env entry m).after s) := by
  have hretry := (Silently.retry entry (.registerExecutor m)).jobFreely.hires s
  rw [RegisterExecutorMessage.hired]
  simp only [registerExecutor, after_bind, get_apply, hactive, if_true]
  cases s.framework.slaveDict with
  | none => exact (Hires.refl s).mono (Nat.zero_le _)
  | some d =>
    simp only [orRaise, pure_apply]
    cases s.framework.slaveOfExecutor entry m with
    | none => exact hretry
    | some e =>
      by_cases hcommand : e.2.isCommandExecutor ∧ m.executorId ∉ e.2.commandExecutors
      · simp only [hcommand, not_false_eq_true, and_self, if_true]
        exact hretry.mono (Nat.zero_le _)
      · simp only [hcommand, if_false]
        exact registerOnSlave_hires henv entry m e.1 e.2 s

/-! ## Runs -/

theorem length_removeJobId (jobId : String) (jobs : List JobIdTuple) :
    (removeJobId jobId jobs).length ≤ jobs.length := by
  unfold removeJobId
  split
  · exact List.erase_sublist.length_le
  · exact Nat.le_refl _

theorem deleteJob_hires (jobId : String) (s : State) : Hires 0 s ((deleteJob jobId).after s) := by
  simp only [deleteJob, after_bind, get_apply]
  split
  · exact .refl s
  · have hslaves := (Mutely.deleteSlaves (s.framework.slavesOfJob jobId)).silently.jobFreely.hires s
    apply after_bind_cases
    · intro _ s1 hrun
      rw [after_of_ok hrun] at hslaves
      cases hjobs : s.framework.jobIds with
      | none => exact hslaves
      | some jobs =>
        have hjobs' : s.framework.jobs = jobs := by rw [Framework.jobs, hjobs]; rfl
        have hremoved : Hires 0 s ((modifyFramework
            ({ · with jobIds := some (removeJobId jobId jobs) })).after s1) :=
          ⟨hjobs' ▸ length_removeJobId jobId jobs, hslaves.config⟩
        have hlose : JobFreely (do let entries ← taskEntries; loseTasks jobId entries) :=
          Mutely.taskEntries.silently.jobFreely.bind fun _ => (Silently.loseTasks _ _).jobFreely
        exact hremoved.trans (hlose.hires _)
    · intro e s1 hrun
      rw [after_of_error hrun] at hslaves
      exact hslaves

/-- The number of jobs that the handler of a request adds at most. -/
def Request.hired (entry : Entry) (s : State) (r : Request) : Nat :=
  if s.tracking = .active then
    match r with
    | .launchTasks m => (placeholders m.tasks).card *
        s.framework.config.hired (some (s.framework.config.concurrentTasks.getD 1))
    | .registerExecutorRunner m => m.hired s.framework
    | .registerExecutor m => m.hired entry s.framework
    | _ => 0
  else 0

theorem handle_hires_inactive (env : Env) (entry : Entry) (r : Request)
    (hinactive : s.tracking ≠ .active) : Hires 0 s ((handle env entry r).after s) := by
  have hretry := (Silently.retry entry r).jobFreely.hires s
  cases r with
  | launchTasks m =>
    simp only [handle, launchTasks, after_bind, get_apply, hinactive, if_false]
    exact hretry
  | registerExecutorRunner m =>
    rw [handle, after_registerExecutorRunner_inactive env entry m hinactive]
    have hrefuse : JobFreely (refuseRunner entry m) :=
      .bind .get fun _ => .ite (JobFreely.emit _)
        (.ite (.ite (Silently.retry _ _).jobFreely (JobFreely.emit _)) (.pure _))
    exact hrefuse.hires s
  | registerExecutor m =>
    simp only [handle, registerExecutor, after_bind, get_apply, hinactive, if_false]
    exact .refl s
  | killTask taskId => exact (JobFreely.killTask env entry taskId).hires s
  | reconcileTasks statuses => exact (JobFreely.reconcileTasks env entry statuses).hires s
  | reviveOffers => exact Idly.reviveOffers.silently.jobFreely.hires s
  | statusUpdate u => exact (JobFreely.statusUpdate env entry u).hires s
  | reregisterExecutor m => exact (JobFreely.reregisterExecutor env m).hires s

theorem handle_hires (henv : env.Submits) (entry : Entry) (r : Request) (s : State) :
    Hires (r.hired entry s) s ((handle env entry r).after s) := by
  unfold Request.hired
  by_cases hactive : s.tracking = .active
  · rw [if_pos hactive]
    cases r with
    | launchTasks m => exact launchTasks_hires henv entry hactive
    | registerExecutorRunner m => exact registerExecutorRunner_hires henv entry hactive
    | registerExecutor m => exact registerExecutor_hires henv entry m hactive
    | killTask taskId => exact (JobFreely.killTask env entry taskId).hires s
    | reconcileTasks statuses => exact (JobFreely.reconcileTasks env entry statuses).hires s
    | reviveOffers => exact Idly.reviveOffers.silently.jobFreely.hires s
    | statusUpdate u => exact (JobFreely.statusUpdate env entry u).hires s
    | reregisterExecutor m => exact (JobFreely.reregisterExecutor env m).hires s
  · rw [if_neg hactive]
    exact handle_hires_inactive env entry r hactive

/-- What can happen to the jobs of a framework: one of the events of the service, or a call of
    `scale_up` by itself. -/
inductive JobEvent where
  | event (e : Event)
  | scaleUp (scaleCount : Option Nat)

def jobStep (env : Env) (s : State) : JobEvent → State
  | .event e => step env s e
  | .scaleUp scaleCount => (scaleUp env scaleCount).after s

/-- The number of jobs that an event adds at most. -/
def JobEvent.hired (s : State) : JobEvent → Nat
  | .event (.queued r) => r.hired .queue s
  | .event (.http c) => c.request.hired .http s
  | .event _ => 0
  | .scaleUp scaleCount => s.framework.config.hired scaleCount

theorem targetPostprocessor_hires (s : State) : Hires 0 s (targetPostprocessor s) :=
  .of_jobIds (jobIds_deleteAll _ _) (config_deleteAll _ _)

theorem httpCall_hires (henv : env.Submits) (c : HttpCall) (s : State) :
    Hires (c.request.hired .http s) s (handleHttp env c s) := by
  have hhandle : ∀ r : Request, Hires (r.hired .http s) s ((handle env .http r).after s) :=
    fun r => handle_hires henv .http r s
  cases c with
  | revive => exact (Hires.refl s).mono (Nat.zero_le _)
  | acceptLaunch offerIds refuseSeconds tasks => exact hhandle (.launchTasks _)
  | decline offerIds refuseSeconds => exact hhandle (.launchTasks _)
  | kill taskId => exact hhandle (.killTask taskId)
  | reconcile tasks => exact hhandle (.reconcileTasks tasks)
  | updateExecutor u => exact hhandle (.statusUpdate u)
  | subscribeExecutor executorId => exact hhandle (.registerExecutor _)

/-- How many jobs an event adds at most. -/
theorem jobStep_hires (henv : env.Submits) (s : State) (e : JobEvent) :
    Hires (e.hired s) s (jobStep env s e) := by
  cases e with
  | scaleUp scaleCount => exact scaleUp_keeps_hires henv scaleCount s
  | event e =>
    cases e with
    | queued r => exact (handle_hires henv .queue r s).trans (targetPostprocessor_hires _)
    | http c => exact httpCall_hires henv c s
    | deleteJob jobId => exact deleteJob_hires jobId s
    | postprocessed => exact targetPostprocessor_hires s
    | clock now => exact .of_jobIds rfl rfl

/-- The entries of `job_ids` are within the cap. -/
def Capped (s : State) : Prop := s.framework.jobs.length ≤ s.framework.config.maxTasks

/-- There is room in `job_ids` for the jobs that the event may add. -/
def HasRoom (s : State) (e : JobEvent) : Prop :=
  s.framework.jobs.length + e.hired s ≤ s.framework.config.maxTasks

instance (s : State) : Decidable (Capped s) := Nat.decLe _ _

instance (s : State) (e : JobEvent) : Decidable (HasRoom s e) := Nat.decLe _ _

/-- The cap holds at the end of every run in which there is room before every event. -/
theorem job_cap (env : Env) (henv : env.Submits) (s : State) (hstart : Capped s)
    (events : List JobEvent) (hroom : Run.Meets (jobStep env) HasRoom s events) :
    Capped (events.foldl (jobStep env) s) := by
  have hstep : ∀ s e, Capped s → HasRoom s e → Capped (jobStep env s e) := by
    intro s e _ hroom
    have hhires := jobStep_hires henv s e
    rw [Capped, hhires.config]
    exact Nat.le_trans hhires.jobs hroom
  exact Run.invariant hstep hstart hroom

namespace Sample

/-- A task for a place-holder. -/
def placeholderTask (taskId : String) : TaskInfo where
  taskId
  slaveId := some "place-holder"

def launchOnPlaceholder (taskId : String) : JobEvent :=
  .event (.queued (.launchTasks { tasks := [placeholderTask taskId] }))

theorem env_submits : Sample.env.Submits := by
  have hjobs : ∀ log max n jobs, Sample.env.registerFramework log max n = .ok jobs →
      jobs = (List.range n).map fun i =>
        (toString log.length ++ "_" ++ toString i, none, none) := by
    intro log max n jobs h
    exact (Except.ok.inj h).symm
  refine ⟨?_, ?_⟩
  · intro log max n jobs h
    rw [hjobs log max n jobs h, List.length_map, List.length_range]
  · intro log max n jobs h j hj
    rw [hjobs log max n jobs h, List.mem_map] at hj
    obtain ⟨i, -, rfl⟩ := hj
    intro hnil
    have hlength := congrArg String.length hnil
    simp only [String.length_append] at hlength
    have : "_".length = 1 := rfl
    have : "".length = 0 := rfl
    omega

end Sample

/-- Two place-holders in turn, with a cap of two jobs. -/
theorem job_cap_two : Capped ([Sample.launchOnPlaceholder "a", Sample.launchOnPlaceholder "b"].foldl
      (jobStep Sample.env) Sample.start) :=
  job_cap Sample.env Sample.env_submits Sample.start (Nat.zero_le _) _
    ⟨by decide +kernel, by decide +kernel, trivial⟩

/-- Three place-holders in turn: each launch submits one job, all ids are fresh, and nothing
    counts the jobs that are there. -/
theorem job_cap_exceeded :
    let s := [Sample.launchOnPlaceholder "a", Sample.launchOnPlaceholder "b",
      Sample.launchOnPlaceholder "c"].foldl (jobStep Sample.env) Sample.start
    s.framework.config.maxTasks = 2 ∧
      s.framework.jobs.map (·.1) = ["1_0", "4_0", "7_0"] ∧ ¬Capped s := by
  intro s
  decide +kernel

end Urb
