import Urb.Spec.ImplicitReconcile
import Urb.Spec.Postprocess

/-!
# The end of a job

When the job monitor finds that a job is gone it calls `delete_job`, which queues the slaves of the
job for deletion, takes the job out of `job_ids` and reports its tasks lost. The slaves are looked
up by the prefix that `create_slave_id` makes of the job and the task `undefined`, while the
executor runner makes its slave id with the task `SGE_TASK_ID`, or `1` if there is none.
-/

namespace Urb

open NamingUtility (getJobIdFromSlaveId createSlaveId)
open EStateM (after_bind bind_apply get_apply)

/-! ## What `delete_job` does -/

/-- The records of the tasks of a job. -/
def Framework.entriesOfJob (f : Framework) (jobId : String) :
    List (Sigma fun _ : String => TaskRecord) :=
  f.tasks.entries.filter (·.2.jobId = some jobId)

/-- The report of a lost task. -/
def Framework.loss (f : Framework) (e : Sigma fun _ : String => TaskRecord) : Effect :=
  .statusUpdate f.channelName e.1 .lost e.2.taskInfo.slaveId

/-- `delete_job` gets to the tasks of the job. -/
def Framework.losesTasks (f : Framework) : Bool := f.jobIds.isSome && f.strayTask.isNone

/-- What has become of a framework after `delete_job`. -/
structure JobDeleted (jobId : String) (s s' : State) : Prop where
  jobIds : s'.framework.jobIds = s.framework.jobIds.map (removeJobId jobId)
  slaves : ∀ k ∉ s.framework.slavesOfJob jobId,
    s'.framework.slaves.lookup k = s.framework.slaves.lookup k
  tasks : ∀ k, (s.framework.losesTasks = true → k ∉ (s.framework.entriesOfJob jobId).map (·.1)) →
    s'.framework.tasks.lookup k = s.framework.tasks.lookup k
  pending : s'.deleteElements = s.deleteElements ++
    (s.framework.slavesOfJob jobId).map (⟨.slaves, ·⟩) ++
    (if s.framework.losesTasks then (s.framework.entriesOfJob jobId).map (⟨.tasks, ·.1⟩) else [])
  effects : s'.effects = s.effects ++ (if s.framework.losesTasks && s.framework.hears then
    (s.framework.entriesOfJob jobId).map s.framework.loss else [])

/-- Queueing slaves for deletion touches no other ones, and no tasks. -/
structure SlavesQueued (ids : List String) (s s' : State) : Prop where
  slaves : ∀ k ∉ ids, s'.framework.slaves.lookup k = s.framework.slaves.lookup k
  tasks : s'.framework.tasks = s.framework.tasks
  stray : s'.framework.strayTask = s.framework.strayTask
  jobIds : s'.framework.jobIds = s.framework.jobIds
  channelName : s'.framework.channelName = s.framework.channelName
  offerEvent : s'.framework.offerEvent = s.framework.offerEvent
  pending : s'.deleteElements = s.deleteElements ++ ids.map (⟨.slaves, ·⟩)
  effects : s'.effects = s.effects

theorem deleteSlave_queued (slaveId : String) (s : State) :
    ∃ s', deleteSlave slaveId s = .ok () s' ∧ SlavesQueued [slaveId] s s' := by
  refine ⟨_, rfl, ?_⟩
  have hforget : ∀ f : Framework, ∃ p, f.forgetPlaceholder slaveId =
      { f with placeholderToSlave := p } := by
    intro f
    unfold Framework.forgetPlaceholder
    split
    · exact ⟨_, rfl⟩
    · exact ⟨f.placeholderToSlave, rfl⟩
  have hlookup := fun k => Framework.lookup_modifySlave s.framework slaveId k
    ({ · with offerable := false })
  obtain ⟨slaveDict, hmodify⟩ := Framework.exists_modifySlave s.framework slaveId
    ({ · with offerable := false })
  rw [hmodify] at hlookup
  simp only [hmodify]
  obtain ⟨p, hp⟩ := hforget { s.framework with slaveDict }
  refine ⟨fun k hk => ?_, ?_, ?_, ?_, ?_, ?_, rfl, rfl⟩ <;> simp only [hp]
  · refine (hlookup k).trans (if_neg ?_)
    simpa using hk
  · rfl

theorem SlavesQueued.trans {ids ids' : List String} {s s1 s2 : State} (h : SlavesQueued ids s s1)
    (h' : SlavesQueued ids' s1 s2) : SlavesQueued (ids ++ ids') s s2 where
  slaves k hk := by
    rw [List.mem_append, not_or] at hk
    exact (h'.slaves k hk.2).trans (h.slaves k hk.1)
  tasks := h'.tasks.trans h.tasks
  stray := h'.stray.trans h.stray
  jobIds := h'.jobIds.trans h.jobIds
  channelName := h'.channelName.trans h.channelName
  offerEvent := h'.offerEvent.trans h.offerEvent
  pending := by rw [h'.pending, h.pending, List.map_append, List.append_assoc]
  effects := h'.effects.trans h.effects

theorem deleteSlaves_queued (ids : List String) (s : State) :
    ∃ s', deleteSlaves ids s = .ok () s' ∧ SlavesQueued ids s s' := by
  induction ids generalizing s with
  | nil => exact ⟨s, rfl, fun _ _ => rfl, rfl, rfl, rfl, rfl, rfl, (List.append_nil _).symm, rfl⟩
  | cons k ids ih =>
    obtain ⟨s1, hrun1, h1⟩ := deleteSlave_queued k s
    obtain ⟨s2, hrun2, h2⟩ := ih s1
    refine ⟨s2, ?_, h1.trans h2⟩
    simp only [deleteSlaves, bind_apply, hrun1]
    exact hrun2

/-- Reporting tasks lost touches no other ones, and no slaves. -/
structure TasksLost (es : List (Sigma fun _ : String => TaskRecord)) (s s' : State) : Prop where
  tasks : ∀ k ∉ es.map (·.1), s'.framework.tasks.lookup k = s.framework.tasks.lookup k
  keys : ∀ k, k ∈ s'.framework.tasks ↔ k ∈ s.framework.tasks
  slaves : s'.framework.slaves = s.framework.slaves
  jobIds : s'.framework.jobIds = s.framework.jobIds
  channelName : s'.framework.channelName = s.framework.channelName
  offerEvent : s'.framework.offerEvent = s.framework.offerEvent
  pending : s'.deleteElements = s.deleteElements ++ es.map (⟨.tasks, ·.1⟩)
  effects : s'.effects = s.effects ++
    if s.framework.hears then es.map s.framework.loss else []

theorem processTaskLostStatusUpdate_lost (e : Sigma fun _ : String => TaskRecord) (s : State)
    (hmem : e.1 ∈ s.framework.tasks) :
    ∃ s', processTaskLostStatusUpdate e.1 e.2.taskInfo.slaveId s = .ok () s' ∧
      TasksLost [e] s s' := by
  simp only [processTaskLostStatusUpdate, bind_apply, sendStatusUpdate_eq,
    get_apply]
  rw [if_pos (show e.1 ∈ (s.append _).framework.tasks from hmem)]
  refine ⟨_, rfl, ?_⟩
  obtain ⟨taskDict, hmodify⟩ := Framework.exists_modifyTask s.framework e.1 (markLost s.clock)
  have hlookup := fun k => Framework.lookup_modifyTask s.framework e.1 k (markLost s.clock)
  have hkeys := fun k => Framework.mem_modifyTask s.framework e.1 k (markLost s.clock)
  rw [hmodify] at hlookup hkeys
  simp only [State.append, hmodify]
  refine ⟨fun k hk => ?_, hkeys, rfl, rfl, rfl, rfl, rfl, rfl⟩
  refine (hlookup k).trans (if_neg ?_)
  simpa using hk

theorem TasksLost.hears {es : List (Sigma fun _ : String => TaskRecord)} {s s' : State}
    (h : TasksLost es s s') : s'.framework.hears = s.framework.hears := by
  simp only [Framework.hears, Framework.http, h.channelName, h.offerEvent]

theorem TasksLost.trans {es es' : List (Sigma fun _ : String => TaskRecord)} {s s1 s2 : State}
    (h : TasksLost es s s1) (h' : TasksLost es' s1 s2) : TasksLost (es ++ es') s s2 where
  tasks k hk := by
    rw [List.map_append, List.mem_append, not_or] at hk
    exact (h'.tasks k hk.2).trans (h.tasks k hk.1)
  keys k := (h'.keys k).trans (h.keys k)
  slaves := h'.slaves.trans h.slaves
  jobIds := h'.jobIds.trans h.jobIds
  channelName := h'.channelName.trans h.channelName
  offerEvent := h'.offerEvent.trans h.offerEvent
  pending := by rw [h'.pending, h.pending, List.map_append, List.append_assoc]
  effects := by
    have hloss : s1.framework.loss = s.framework.loss := by
      funext e
      simp only [Framework.loss, h.channelName]
    rw [h'.effects, h.effects, h.hears, hloss]
    cases s.framework.hears <;> simp

theorem loseTasks_lost (jobId : String) (es : List (Sigma fun _ : String => TaskRecord)) (s : State)
    (hmem : ∀ e ∈ es, e.1 ∈ s.framework.tasks) (hkeyed : ∀ e ∈ es, e.2.taskInfo.taskId = e.1) :
    ∃ s', loseTasks jobId es s = .ok () s' ∧
      TasksLost (es.filter (·.2.jobId = some jobId)) s s' := by
  induction es generalizing s with
  | nil =>
    refine ⟨s, rfl, fun _ _ => rfl, fun _ => Iff.rfl, rfl, rfl, rfl, rfl, ?_, ?_⟩ <;> simp
  | cons e es ih =>
    rw [List.forall_mem_cons] at hmem hkeyed
    obtain ⟨k, r⟩ := e
    simp only [loseTasks, bind_apply]
    by_cases hjob : r.jobId = some jobId
    · obtain ⟨s1, hrun1, h1⟩ := processTaskLostStatusUpdate_lost ⟨k, r⟩ s hmem.1
      obtain ⟨s2, hrun2, h2⟩ := ih s1 (fun e he => (h1.keys e.1).mpr (hmem.2 e he)) hkeyed.2
      have hk : r.taskInfo.taskId = k := hkeyed.1
      rw [if_pos hjob, hk, hrun1, List.filter_cons_of_pos (by simpa using hjob)]
      exact ⟨s2, hrun2, h1.trans h2⟩
    · rw [if_neg hjob, List.filter_cons_of_neg (by simpa using hjob)]
      exact ih s hmem.2 hkeyed.2

/-- What `delete_job` does to a framework. -/
theorem deleteJob_deleted (jobId : String) {s : State} (htracked : s.tracking ≠ .unknown)
    (hkeyed : ∀ k r, s.framework.tasks.lookup k = some r → r.taskInfo.taskId = k) :
    JobDeleted jobId s ((deleteJob jobId).after s) := by
  obtain ⟨s1, hrun1, h1⟩ := deleteSlaves_queued (s.framework.slavesOfJob jobId) s
  simp only [deleteJob, after_bind, get_apply, htracked, if_false, hrun1]
  cases hjobs : s.framework.jobIds with
  | none =>
    have hloses : s.framework.losesTasks = false := by simp [Framework.losesTasks, hjobs]
    show JobDeleted jobId s s1
    refine ⟨by rw [h1.jobIds, hjobs]; rfl, h1.slaves, fun k _ => by rw [h1.tasks], ?_, ?_⟩
    · simp [h1.pending, hloses]
    · simp [h1.effects, hloses]
  | some jobs =>
    let s2 : State :=
      { s1 with framework := { s1.framework with jobIds := some (removeJobId jobId jobs) } }
    show JobDeleted jobId s ((taskEntries >>= loseTasks jobId).after s2)
    have hjobIds : s2.framework.jobIds = s.framework.jobIds.map (removeJobId jobId) := by
      rw [hjobs]
      rfl
    have htasks : s2.framework.tasks = s.framework.tasks := h1.tasks
    cases hstray : s.framework.strayTask with
    | some t =>
      -- the fields of a record among the keys: the tasks are not looked at
      have hloses : s.framework.losesTasks = false := by simp [Framework.losesTasks, hstray]
      have hrun : taskEntries s2 = .error .typeError s2 := by
        simp only [taskEntries, bind_apply, get_apply]
        rw [show s2.framework.strayTask = some t from h1.stray.trans hstray]
        rfl
      rw [after_bind, hrun]
      refine ⟨hjobIds, h1.slaves, fun k _ => by rw [htasks], ?_, ?_⟩
      · simpa [hloses] using h1.pending
      · simpa [hloses] using h1.effects
    | none =>
      have hloses : s.framework.losesTasks = true := by simp [Framework.losesTasks, hstray, hjobs]
      have hrun : taskEntries s2 = .ok s.framework.tasks.entries s2 := by
        simp only [taskEntries, bind_apply, get_apply]
        rw [show s2.framework.strayTask = none from h1.stray.trans hstray, htasks]
        rfl
      obtain ⟨s3, hrun3, h3⟩ := loseTasks_lost jobId s.framework.tasks.entries s2
        (fun e he => by rw [htasks]; exact AList.mem_keys.mpr (List.mem_map_of_mem he))
        (entries_forall_iff.mpr hkeyed)
      rw [after_bind, hrun]
      dsimp only
      rw [EStateM.after_of_ok hrun3]
      have hhears : s2.framework.hears = s.framework.hears := by
        simp only [s2, Framework.hears, Framework.http, h1.channelName, h1.offerEvent]
      have hloss : s2.framework.loss = s.framework.loss := by
        funext e
        simp only [s2, Framework.loss, h1.channelName]
      refine ⟨h3.jobIds.trans hjobIds, fun k hk => ?_, fun k hk => ?_, ?_, ?_⟩
      · rw [h3.slaves]
        exact h1.slaves k hk
      · rw [h3.tasks k (hk hloses), htasks]
      · rw [h3.pending, if_pos hloses]
        exact congrArg (· ++ _) h1.pending
      · rw [h3.effects, hhears, hloss, hloses, Bool.true_and]
        exact congrArg (· ++ _) h1.effects

/-! ## After the deletions -/

/-- A dictionary entry is queued for deletion. -/
def State.queued (s : State) (d : DictRef) (k : String) : Prop := ⟨d, k⟩ ∈ s.deleteElements

instance (s : State) (d : DictRef) (k : String) : Decidable (s.queued d k) :=
  inferInstanceAs (Decidable (_ ∈ _))

theorem mem_slavesOfJob {f : Framework} {jobId k : String} : k ∈ f.slavesOfJob jobId ↔
    k ∈ f.slaves ∧ (createSlaveId jobId "undefined" "").toList <+: k.toList := by
  unfold Framework.slavesOfJob
  rw [List.mem_filter, List.isPrefixOf_iff_prefix]
  rfl

theorem mem_entriesOfJob {f : Framework} {jobId k : String} : k ∈ (f.entriesOfJob jobId).map (·.1) ↔
      ∃ r, f.tasks.lookup k = some r ∧ r.jobId = some jobId := by
  unfold Framework.entriesOfJob
  constructor
  · intro h
    obtain ⟨e, he, rfl⟩ := List.mem_map.mp h
    obtain ⟨hmem, hjob⟩ := List.mem_filter.mp he
    exact ⟨e.2, AList.mem_lookup_iff.mpr hmem, by simpa using hjob⟩
  · intro ⟨r, hr, hjob⟩
    exact List.mem_map.mpr ⟨⟨k, r⟩,
      List.mem_filter.mpr ⟨AList.mem_lookup_iff.mp hr, by simpa using hjob⟩, rfl⟩

theorem removeJobId_removes_iff (jobId : String) (jobs : List JobIdTuple) :
    (∀ j ∈ removeJobId jobId jobs, j.1 ≠ jobId) ↔ jobs.countP (·.1 == jobId) ≤ 1 := by
  have hzero : ∀ l : List JobIdTuple, (∀ j ∈ l, j.1 ≠ jobId) ↔ l.countP (·.1 == jobId) = 0 := by
    intro l
    simp [List.countP_eq_zero]
  rw [hzero]
  unfold removeJobId
  cases hlast : (jobs.filter (·.1 == jobId)).getLast? with
  | none =>
    have hnil : jobs.filter (·.1 == jobId) = [] := List.getLast?_eq_none_iff.mp hlast
    have hcount : jobs.countP (·.1 == jobId) = 0 := by
      rw [List.countP_eq_length_filter, hnil, List.length_nil]
    simp [hcount]
  | some j =>
    obtain ⟨hmem, hj⟩ := List.mem_filter.mp (List.mem_of_getLast? hlast)
    have hcount : (jobs.erase j).countP (·.1 == jobId) = jobs.countP (·.1 == jobId) - 1 := by
      rw [List.countP_erase, if_pos ⟨hmem, hj⟩]
    rw [hcount]
    omega

namespace JobDeleted

variable {jobId : String} {s s' : State} (h : JobDeleted jobId s s')

include h

theorem lookup_slaves (k : String) : (targetPostprocessor s').framework.slaves.lookup k =
    if s.queued .slaves k ∨ k ∈ s.framework.slavesOfJob jobId then none
    else s.framework.slaves.lookup k := by
  have hmem : (⟨.slaves, k⟩ : DeleteElement) ∈ s'.deleteElements ↔
      s.queued .slaves k ∨ k ∈ s.framework.slavesOfJob jobId := by
    rw [h.pending]
    split <;> simp [State.queued]
  rw [targetPostprocessor, lookup_slaves_deleteAll]
  simp only [hmem]
  split
  · rfl
  · next hnot => exact h.slaves k fun hk => hnot (.inr hk)

theorem lookup_tasks (k : String) : (targetPostprocessor s').framework.tasks.lookup k =
    if s.queued .tasks k ∨ (s.framework.losesTasks = true ∧
      k ∈ (s.framework.entriesOfJob jobId).map Sigma.fst) then none
    else s.framework.tasks.lookup k := by
  have hmem : (⟨.tasks, k⟩ : DeleteElement) ∈ s'.deleteElements ↔ s.queued .tasks k ∨
      (s.framework.losesTasks = true ∧ k ∈ (s.framework.entriesOfJob jobId).map (·.1)) := by
    rw [h.pending]
    split
    · next hloses => simp [State.queued, hloses]
    · next hloses => simp [State.queued, hloses]
  rw [targetPostprocessor, lookup_tasks_deleteAll]
  simp only [hmem]
  split
  · rfl
  · next hnot => exact h.tasks k fun hloses hk => hnot (.inr ⟨hloses, hk⟩)

theorem jobIds_flushed : (targetPostprocessor s').framework.jobIds =
    s.framework.jobIds.map (removeJobId jobId) :=
  (jobIds_deleteAll _ _).trans h.jobIds

end JobDeleted

/-! ## All of the job and nothing else -/

/-- An update that tells that the task is lost. -/
def Effect.lost (taskId : String) : Effect → Bool
  | .statusUpdate _ k .lost _ => k == taskId
  | _ => false

/-- All of the job is gone, its tasks that had not ended were reported lost once, and slaves and
    tasks of other jobs are as they are if only the deletions queued before are carried out. -/
structure JobRemoved (terminal : TaskState → Bool) (jobId : String) (s s' : State) : Prop where
  slaves : ∀ k ∈ s'.framework.slaves, getJobIdFromSlaveId k ≠ some jobId
  tasks : ∀ k r, s'.framework.tasks.lookup k = some r → r.jobId ≠ some jobId
  jobIds : ∀ j ∈ s'.framework.jobIds.getD [], j.1 ≠ jobId
  told : ∀ k r, s.framework.tasks.lookup k = some r → r.jobId = some jobId →
    terminal r.state = false → (s'.effects.drop s.effects.length).countP (Effect.lost k) = 1
  otherSlaves : ∀ k, getJobIdFromSlaveId k ≠ some jobId →
    s'.framework.slaves.lookup k = (targetPostprocessor s).framework.slaves.lookup k
  otherTasks : ∀ k, (∀ r, s.framework.tasks.lookup k = some r → r.jobId ≠ some jobId) →
    s'.framework.tasks.lookup k = (targetPostprocessor s).framework.tasks.lookup k

/-- The slaves of the job are those that the prefix finds, the job is listed at most once, its tasks
    are looked at, and those that have not ended can be reported. What is queued for deletion anyway
    does not matter. -/
structure Removable (terminal : TaskState → Bool) (jobId : String) (s : State) : Prop where
  slaves : ∀ k ∈ s.framework.slaves, ¬s.queued .slaves k →
    (getJobIdFromSlaveId k = some jobId ↔
      (createSlaveId jobId "undefined" "").toList <+: k.toList)
  once : (s.framework.jobIds.getD []).countP (·.1 == jobId) ≤ 1
  tasks : ∀ k r, s.framework.tasks.lookup k = some r → r.jobId = some jobId →
    ¬s.queued .tasks k → s.framework.losesTasks = true
  told : ∀ k r, s.framework.tasks.lookup k = some r → r.jobId = some jobId →
    terminal r.state = false → s.framework.losesTasks = true ∧ s.framework.hears = true

namespace JobDeleted

variable {terminal : TaskState → Bool} {jobId : String} {s s' : State} (h : JobDeleted jobId s s')

include h

theorem slaves_iff : ((∀ k ∈ (targetPostprocessor s').framework.slaves,
        getJobIdFromSlaveId k ≠ some jobId) ∧
      ∀ k, getJobIdFromSlaveId k ≠ some jobId →
        (targetPostprocessor s').framework.slaves.lookup k =
          (targetPostprocessor s).framework.slaves.lookup k) ↔
    ∀ k ∈ s.framework.slaves, ¬s.queued .slaves k →
      (getJobIdFromSlaveId k = some jobId ↔
        (createSlaveId jobId "undefined" "").toList <+: k.toList) := by
  have hflush : ∀ k, (targetPostprocessor s).framework.slaves.lookup k =
      if s.queued .slaves k then none else s.framework.slaves.lookup k :=
    fun k => lookup_slaves_deleteAll _ _ k
  constructor
  · intro ⟨hgone, hothers⟩ k hk hqueued
    have hmem : k ∈ s.framework.slavesOfJob jobId ↔
        (createSlaveId jobId "undefined" "").toList <+: k.toList := by
      rw [mem_slavesOfJob, and_iff_right hk]
    rw [← hmem]
    constructor
    · intro hjob
      by_contra hnot
      refine hgone k ?_ hjob
      rw [← AList.lookup_isSome, h.lookup_slaves, if_neg (by simp [hqueued, hnot]),
        AList.lookup_isSome]
      exact hk
    · intro hfound
      by_contra hjob
      have hsame := hothers k hjob
      rw [h.lookup_slaves, if_pos (.inr hfound), hflush, if_neg hqueued, eq_comm,
        AList.lookup_eq_none] at hsame
      exact hsame hk
  · intro hiff
    constructor
    · intro k hk hjob
      rw [← AList.lookup_isSome, h.lookup_slaves] at hk
      split at hk
      · cases hk
      · next hnot =>
        rw [AList.lookup_isSome] at hk
        rw [not_or] at hnot
        exact hnot.2 (mem_slavesOfJob.mpr ⟨hk, (hiff k hk hnot.1).mp hjob⟩)
    · intro k hjob
      rw [h.lookup_slaves, hflush]
      by_cases hqueued : s.queued .slaves k
      · simp [hqueued]
      · have hnot : k ∉ s.framework.slavesOfJob jobId := by
          intro hfound
          obtain ⟨hk, hprefix⟩ := mem_slavesOfJob.mp hfound
          exact hjob ((hiff k hk hqueued).mpr hprefix)
        simp [hqueued, hnot]

theorem tasks_iff :
    (∀ k r, (targetPostprocessor s').framework.tasks.lookup k = some r → r.jobId ≠ some jobId) ↔
      ∀ k r, s.framework.tasks.lookup k = some r → r.jobId = some jobId →
        ¬s.queued .tasks k → s.framework.losesTasks = true := by
  constructor
  · intro hgone k r hr hjob hqueued
    by_contra hloses
    refine hgone k r ?_ hjob
    rw [h.lookup_tasks, if_neg (by simp [hqueued, hloses]), hr]
  · intro hloses k r hr hjob
    rw [h.lookup_tasks] at hr
    split at hr
    · cases hr
    · next hnot =>
      rw [not_or, not_and] at hnot
      exact hnot.2 (hloses k r hr hjob hnot.1) (mem_entriesOfJob.mpr ⟨r, hr, hjob⟩)

theorem otherTasks (k : String)
    (hk : ∀ r, s.framework.tasks.lookup k = some r → r.jobId ≠ some jobId) :
    (targetPostprocessor s').framework.tasks.lookup k =
      (targetPostprocessor s).framework.tasks.lookup k := by
  have hflush : (targetPostprocessor s).framework.tasks.lookup k =
      if s.queued .tasks k then none else s.framework.tasks.lookup k :=
    lookup_tasks_deleteAll _ _ k
  have hnot : k ∉ (s.framework.entriesOfJob jobId).map Sigma.fst := by
    intro hmem
    obtain ⟨r, hr, hjob⟩ := mem_entriesOfJob.mp hmem
    exact hk r hr hjob
  rw [h.lookup_tasks, hflush]
  simp [hnot]

theorem count_lost {k : String} {r : TaskRecord} (hr : s.framework.tasks.lookup k = some r)
    (hjob : r.jobId = some jobId) :
    (s'.effects.drop s.effects.length).countP (Effect.lost k) =
      if s.framework.losesTasks = true ∧ s.framework.hears = true then 1 else 0 := by
  rw [h.effects, List.drop_left]
  by_cases hsends : s.framework.losesTasks = true ∧ s.framework.hears = true
  · rw [if_pos hsends, if_pos (by simp [hsends]), List.countP_map]
    have hnodup : ((s.framework.entriesOfJob jobId).map Sigma.fst).Nodup := by
      have hkeys : (s.framework.tasks.entries.map Sigma.fst).Nodup := s.framework.tasks.keys_nodup
      exact hkeys.sublist (List.filter_sublist.map _)
    have hone := List.count_eq_one_of_mem hnodup (mem_entriesOfJob.mpr ⟨r, hr, hjob⟩)
    rw [List.count, List.countP_map] at hone
    exact hone
  · rw [if_neg hsends, if_neg (by simpa using hsends)]
    rfl

end JobDeleted

/-- After `delete_job` and the deletions all of the job, and nothing else, is gone, exactly if the
    prefix finds the slaves of the job and no others, the job is listed at most once, and its tasks
    can be reported lost. -/
theorem job_removed_iff (terminal : TaskState → Bool) (jobId : String) (s : State)
    (hactive : s.tracking = .active)
    (hkeyed : ∀ k r, s.framework.tasks.lookup k = some r → r.taskInfo.taskId = k) :
    JobRemoved terminal jobId s (targetPostprocessor ((deleteJob jobId).after s)) ↔
      Removable terminal jobId s := by
  have h := deleteJob_deleted jobId (by rw [hactive]; decide) hkeyed
  generalize (deleteJob jobId).after s = s' at h ⊢
  have hjobs : (∀ j ∈ (targetPostprocessor s').framework.jobIds.getD [], j.1 ≠ jobId) ↔
      (s.framework.jobIds.getD []).countP (·.1 == jobId) ≤ 1 := by
    rw [h.jobIds_flushed]
    cases s.framework.jobIds with
    | none => simp
    | some jobs => exact removeJobId_removes_iff jobId jobs
  have htold : ∀ k r, s.framework.tasks.lookup k = some r → r.jobId = some jobId →
      (((targetPostprocessor s').effects.drop s.effects.length).countP (Effect.lost k) = 1 ↔
        s.framework.losesTasks = true ∧ s.framework.hears = true) := by
    intro k r hr hjob
    rw [show (targetPostprocessor s').effects = s'.effects from rfl, h.count_lost hr hjob]
    split
    · next hsends => exact iff_of_true rfl hsends
    · next hsends => exact iff_of_false (by decide) hsends
  constructor
  · intro hr
    refine ⟨h.slaves_iff.mp ⟨hr.slaves, hr.otherSlaves⟩, hjobs.mp hr.jobIds,
      h.tasks_iff.mp hr.tasks,
      fun k r hk hjob hopen => (htold k r hk hjob).mp (hr.told k r hk hjob hopen)⟩
  · intro hr
    obtain ⟨hslaves, hothers⟩ := h.slaves_iff.mpr hr.slaves
    exact ⟨hslaves, h.tasks_iff.mpr hr.tasks, hjobs.mpr hr.once,
      fun k r hk hjob hopen => (htold k r hk hjob).mpr (hr.told k r hk hjob hopen), hothers,
      h.otherTasks⟩

/-- The slave of the job and its task are gone if its task id is `undefined`. -/
theorem job_removed_undefined :
    let s := run Sample.env Sample.start Sample.launched
    JobRemoved TaskState.terminal "1" s (targetPostprocessor ((deleteJob "1").after s)) := by
  intro s
  refine (job_removed_iff TaskState.terminal "1" s (by decide +kernel)
    (entries_forall_iff.mp (by decide +kernel))).mpr ⟨?_, by decide +kernel, ?_, ?_⟩
  · intro k hk _
    have hkeys : s.framework.slaves.keys = [Sample.slaveId] := by decide +kernel
    rw [AList.mem_keys, hkeys] at hk
    obtain rfl := List.mem_singleton.mp hk
    exact iff_of_true (by decide +kernel) (List.isPrefixOf_iff_prefix.mp (by decide +kernel))
  · exact entries_forall_iff.mp (by decide +kernel)
  · exact entries_forall_iff.mp (by decide +kernel)

/-- A runner that has no `SGE_TASK_ID` registers: its slave stays when its job is gone. -/
theorem job_not_removed :
    let slaveId := createSlaveId "1" "1" "urb.endpoint.1.notify"
    let s := run Sample.env Sample.start
      [.queued (.registerExecutorRunner { Sample.runner with slaveId })]
    let s' := targetPostprocessor ((deleteJob "1").after s)
    getJobIdFromSlaveId slaveId = some "1" ∧ s.tracking = .active ∧
      s'.framework.slaves.keys = [slaveId] ∧ ¬JobRemoved TaskState.terminal "1" s s' := by
  intro slaveId s s'
  have hjob : getJobIdFromSlaveId slaveId = some "1" := by decide +kernel
  have hkeys : s'.framework.slaves.keys = [slaveId] := by decide +kernel
  refine ⟨hjob, by decide +kernel, hkeys, fun h => h.slaves slaveId ?_ hjob⟩
  rw [AList.mem_keys, hkeys]
  exact List.mem_singleton.mpr rfl

end Urb
