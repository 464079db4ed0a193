import Mathlib
import Urb.Native.ChannelMonitor
import Urb.Native.Lock

/-!
# Deletion of a framework

`__delete_framework` reads `framework['task_dict']`, which `launch_tasks` creates, and the names of
the tasks that are not finished, for its log. Either may be missing; what is raised then leaves the
framework active. `FrameworkTracker` remembers the last frameworks that finished, and one that
finished twice is forgotten twice.
-/

namespace Urb

variable {raises : Bool}

namespace Trackers

open EStateM

variable {frameworkId : String} {state : State} {s s' : Trackers}

/-! ## What comes before the removal -/

/-- Only the log and the records of active frameworks may differ; the same frameworks are active. -/
structure Prepared (s s' : Trackers) : Prop where
  channels : s'.channels = s.channels
  active : ∀ k, (s'.frameworks.lookup k).isSome = (s.frameworks.lookup k).isSome
  finishedFrameworkIds : s'.finishedFrameworkIds = s.finishedFrameworkIds
  finishedFrameworks : s'.finishedFrameworks = s.finishedFrameworks
  effects : s.effects <+: s'.effects

namespace Prepared

theorem refl (s : Trackers) : Prepared s s :=
  ⟨rfl, fun _ => rfl, rfl, rfl, List.prefix_rfl⟩

theorem trans {s'' : Trackers} (h : Prepared s s') (h' : Prepared s' s'') : Prepared s s'' where
  channels := h'.channels.trans h.channels
  active k := (h'.active k).trans (h.active k)
  finishedFrameworkIds := h'.finishedFrameworkIds.trans h.finishedFrameworkIds
  finishedFrameworks := h'.finishedFrameworks.trans h.finishedFrameworks
  effects := h.effects.trans h'.effects

theorem emitted (es : List ChannelEffect) :
    Keeps Prepared (modify fun s => { s with effects := s.effects ++ es } : TrackerM Unit) :=
  fun _ => ⟨rfl, fun _ => rfl, rfl, rfl, List.prefix_append _ _⟩

theorem mem_iff (h : Prepared s s') (k : String) : k ∈ s'.frameworks ↔ k ∈ s.frameworks := by
  rw [← AList.lookup_isSome, ← AList.lookup_isSome, h.active]

theorem exists_lookup (h : Prepared s s') (hstate : s.frameworks.lookup frameworkId = some state) :
    ∃ state', s'.frameworks.lookup frameworkId = some state' := by
  apply Option.isSome_iff_exists.mp
  rw [h.active, hstate]
  rfl

theorem modifyFramework (frameworkId : String) (g : Framework → Framework) :
    Keeps Prepared (Trackers.modifyFramework frameworkId g) := by
  intro s
  simp only [Trackers.modifyFramework, after, modify_apply]
  cases hlookup : s.frameworks.lookup frameworkId with
  | none => exact refl s
  | some state =>
    refine ⟨rfl, fun k => ?_, rfl, rfl, List.prefix_rfl⟩
    by_cases hk : k = frameworkId
    · subst hk
      simp [hlookup]
    · simp [AList.lookup_insert_ne hk]

instance isPreorder : IsPreorder Trackers Prepared where
  refl := refl
  trans _ _ _ := trans

theorem forceTask (frameworkId taskId : String) (r : TaskRecord) :
    Keeps Prepared (Trackers.forceTask frameworkId taskId r) :=
  .ite (.pure _) (.ite (.bind .get fun _ => modifyFramework _ _) (.throw _))

theorem forceTasks (frameworkId : String) (entries : List (Sigma fun _ : String => TaskRecord)) :
    Keeps Prepared (Trackers.forceTasks frameworkId entries) := by
  induction entries with
  | nil => exact .pure _
  | cons e rest ih => exact .bind (forceTask _ _ _) fun _ => ih

end Prepared

/-- The task can be forced into a final state. -/
def Named (r : TaskRecord) : Prop := r.state = .finished ∨ r.taskInfo.hasName = true

instance (r : TaskRecord) : Decidable (Named r) := inferInstanceAs (Decidable (_ ∨ _))

theorem forceTask_returned_iff (frameworkId taskId : String) (r : TaskRecord) (s : Trackers) :
    (forceTask frameworkId taskId r s).returned = true ↔ Named r := by
  unfold forceTask Named
  by_cases hstate : r.state = .finished
  · simp [hstate, pure_apply, Result.returned]
  · by_cases hname : r.taskInfo.hasName = true
    · simp only [hstate, hname, if_false, if_true, or_true, iff_true]
      rfl
    · simp [hstate, hname, throw_apply, Result.returned]

theorem forceTasks_returned_iff (frameworkId : String)
    (entries : List (Sigma fun _ : String => TaskRecord)) (s : Trackers) :
    (forceTasks frameworkId entries s).returned = true ↔ ∀ e ∈ entries, Named e.2 := by
  induction entries generalizing s with
  | nil => simp [forceTasks, pure_apply, Result.returned]
  | cons e rest ih =>
    obtain ⟨taskId, r⟩ := e
    have hfirst := forceTask_returned_iff frameworkId taskId r s
    simp only [forceTasks, bind_apply, List.forall_mem_cons]
    cases hrun : forceTask frameworkId taskId r s with
    | ok _ s1 =>
      rw [hrun] at hfirst
      simp only [Result.returned, true_iff] at hfirst
      simp only [ih, hfirst, true_and]
    | error e s1 =>
      rw [hrun] at hfirst
      simp only [Result.returned, Bool.false_eq_true, false_iff] at hfirst
      simp [Result.returned, hfirst]

/-- Nothing raises in `__delete_framework` before the framework is removed. -/
def Deletable (state : State) (raises : Bool) : Prop :=
  state.framework.taskDict.isSome = true ∧ state.framework.strayTask = none ∧
    (∀ e ∈ state.framework.tasks.entries, Named e.2) ∧ raises = false

instance (state : State) (raises : Bool) : Decidable (Deletable state raises) :=
  inferInstanceAs (Decidable (_ ∧ _ ∧ _ ∧ _))

/-- The part of `__delete_framework` that may raise before the framework is removed. -/
def prepareDeletion (frameworkId : String) (f : Framework) (raises : Bool) : TrackerM Unit := do
  modify fun s => { s with
    effects := s.effects ++ f.slaves.entries.flatMap fun e => shutdownExecutor e.2 }
  (if raises then throw .adapter else pure ())
  emit (.unregisterFramework frameworkId)
  let taskDict ← orRaise f.taskDict (.keyError "task_dict")
  (if f.strayTask.isSome then throw .typeError else pure ())
  forceTasks frameworkId taskDict.entries

theorem deleteFramework_eq (hstate : s.frameworks.lookup frameworkId = some state) (raises : Bool) :
    deleteFramework frameworkId raises s =
      (do
        prepareDeletion frameworkId state.framework raises
        modify fun s => { s with
          effects := s.effects ++ state.framework.jobs.map fun j => .stopJobMonitoring j.1 }
        removeFramework frameworkId
        emit (.deleteChannelWithDelay state.framework.channelName) : TrackerM Unit) s := by
  simp only [deleteFramework, prepareDeletion, bind_assoc]
  rw [bind_apply, get_apply]
  simp only [hstate]

theorem Prepared.prepareDeletion (frameworkId : String) (f : Framework) (raises : Bool) :
    Keeps Prepared (Trackers.prepareDeletion frameworkId f raises) := by
  refine .bind (emitted _) fun _ => .bind (.ite (.throw _) (.pure _)) fun _ =>
    .bind (emitted _) fun _ => .bind ?_ fun taskDict =>
    .bind (.ite (.throw _) (.pure _)) fun _ => forceTasks _ _
  cases f.taskDict with
  | none => exact .throw _
  | some taskDict => exact .pure taskDict

theorem prepareDeletion_returned_iff (frameworkId : String) (state : State) (raises : Bool)
    (s : Trackers) :
    (prepareDeletion frameworkId state.framework raises s).returned = true ↔
      Deletable state raises := by
  simp only [prepareDeletion, bind_apply, modify_apply, Deletable]
  cases raises with
  | true => simp [throw_apply, Result.returned]
  | false =>
    simp only [Bool.false_eq_true, if_false, pure_apply, emit, modify_apply, and_true,
      Framework.tasks]
    cases state.framework.taskDict with
    | none => simp [orRaise, throw_apply, Result.returned]
    | some taskDict =>
      simp only [orRaise, pure_apply, Option.isSome_some, true_and, Option.getD_some]
      cases state.framework.strayTask with
      | some r => simp [throw_apply, Result.returned]
      | none =>
        simp only [Option.isSome_none, Bool.false_eq_true, if_false, pure_apply, true_and]
        exact forceTasks_returned_iff _ _ _

/-- How far a deletion gets. -/
theorem deleteFramework_of_not_deletable (hstate : s.frameworks.lookup frameworkId = some state)
    (h : ¬Deletable state raises) :
    ∃ e s1, deleteFramework frameworkId raises s = .error e s1 ∧ Prepared s s1 := by
  have hkeeps := Prepared.prepareDeletion frameworkId state.framework raises s
  have hreturned := prepareDeletion_returned_iff frameworkId state raises s
  rw [deleteFramework_eq hstate, bind_apply]
  cases hrun : prepareDeletion frameworkId state.framework raises s with
  | ok _ s1 =>
    rw [hrun] at hreturned
    exact absurd (hreturned.mp rfl) h
  | error e s1 =>
    rw [after_of_error hrun] at hkeeps
    exact ⟨e, s1, rfl, hkeeps⟩

theorem deleteFramework_of_deletable (hstate : s.frameworks.lookup frameworkId = some state)
    (h : Deletable state raises) :
    ∃ s1, Prepared s s1 ∧
      (∃ new, s1.effects = s.effects ++ new ∧
        ∀ j ∈ state.framework.jobs, ChannelEffect.stopJobMonitoring j.1 ∈ new) ∧
      deleteFramework frameworkId raises s =
        (do
          removeFramework frameworkId
          emit (.deleteChannelWithDelay state.framework.channelName) : TrackerM Unit) s1 := by
  have hkeeps := Prepared.prepareDeletion frameworkId state.framework raises s
  have hrun := eq_ok_of_returned ((prepareDeletion_returned_iff frameworkId state raises s).mpr h)
  rw [deleteFramework_eq hstate, bind_apply, hrun]
  obtain ⟨new, hnew⟩ := hkeeps.effects
  refine ⟨_, hkeeps.trans (Prepared.emitted _ _),
    ⟨new ++ state.framework.jobs.map fun j => .stopJobMonitoring j.1, ?_, ?_⟩, rfl⟩
  · rw [← List.append_assoc, hnew]
    rfl
  · intro j hj
    exact List.mem_append_right _ (List.mem_map.mpr ⟨j, hj, rfl⟩)

/-! ## The removal -/

/-- The framework that is to be forgotten, if there is one, is known and not the one that is
    removed. -/
def Forgettable (s : Trackers) (frameworkId : String) : Prop :=
  ∀ clearFrameworkId rest, s.finishedFrameworkIds = clearFrameworkId :: rest →
    rest.length + 1 = maxNumberOfFinishedFrameworks →
      clearFrameworkId ≠ frameworkId ∧ clearFrameworkId ∈ s.finishedFrameworks

theorem leaves_rememberFinished {τ : Type} (part : Trackers → τ) (frameworkId : String)
    (hpart : ∀ (s : Trackers) ids finished,
      part { s with finishedFrameworkIds := ids, finishedFrameworks := finished } = part s) :
    Leaves part (rememberFinished frameworkId) := by
  have hids : ∀ (s : Trackers) ids, part { s with finishedFrameworkIds := ids } = part s :=
    fun s ids => hpart s ids s.finishedFrameworks
  have hfinished : ∀ (s : Trackers) finished,
      part { s with finishedFrameworks := finished } = part s :=
    fun s finished => hpart s s.finishedFrameworkIds finished
  apply Leaves.bind .get
  intro s
  apply Leaves.bind
  · split
    · exact .pure _
    · apply Leaves.ite _ (.pure _)
      apply Leaves.bind (.modify fun s => hids s _)
      exact fun _ => .ite (.modify fun s => hfinished s _) (.throw _)
  · exact fun _ => .modify fun s => hids s _

theorem rememberFinished_iff (s : Trackers) (hmem : frameworkId ∈ s.finishedFrameworks) :
    (rememberFinished frameworkId s).returned = true ∧
        frameworkId ∈ ((rememberFinished frameworkId).after s).finishedFrameworks ↔
      ∀ clearFrameworkId rest, s.finishedFrameworkIds = clearFrameworkId :: rest →
        rest.length + 1 = maxNumberOfFinishedFrameworks →
          clearFrameworkId ≠ frameworkId ∧ clearFrameworkId ∈ s.finishedFrameworks := by
  simp only [rememberFinished, after, bind_apply, get_apply]
  cases hids : s.finishedFrameworkIds with
  | nil => simpa [pure_apply, modify_apply, Result.returned] using hmem
  | cons clearFrameworkId rest =>
    simp only [List.cons.injEq, and_imp]
    by_cases hfull : rest.length + 1 = maxNumberOfFinishedFrameworks
    · by_cases hclear : clearFrameworkId ∈ s.finishedFrameworks
      · simp [hfull, hclear, bind_apply, modify_apply, Result.returned, hmem, eq_comm]
      · simp [hfull, hclear, bind_apply, modify_apply, throw_apply, Result.returned]
    · simpa [hfull, pure_apply, modify_apply, Result.returned] using hmem

theorem removeFramework_eq (hstate : s.frameworks.lookup frameworkId = some state) :
    removeFramework frameworkId s =
      rememberFinished frameworkId { s with
        frameworks := s.frameworks.erase frameworkId
        finishedFrameworks :=
          s.finishedFrameworks.insert frameworkId { state with tracking := .finished } } := by
  simp only [removeFramework, bind_apply, get_apply, hstate]
  rfl

/-- The framework is removed from the active ones even if the tracker then fails to forget a
    finished one. -/
theorem frameworks_removeFramework (hstate : s.frameworks.lookup frameworkId = some state) :
    ((removeFramework frameworkId).after s).frameworks = s.frameworks.erase frameworkId := by
  rw [after_eq_state, removeFramework_eq hstate, ← after_eq_state]
  exact leaves_rememberFinished frameworks frameworkId (fun _ _ _ => rfl) _

theorem effects_removeFramework (hstate : s.frameworks.lookup frameworkId = some state) :
    ((removeFramework frameworkId).after s).effects = s.effects := by
  rw [after_eq_state, removeFramework_eq hstate, ← after_eq_state]
  exact leaves_rememberFinished effects frameworkId (fun _ _ _ => rfl) _

theorem removeFramework_iff (hstate : s.frameworks.lookup frameworkId = some state) :
    (removeFramework frameworkId s).returned = true ∧
        frameworkId ∈ ((removeFramework frameworkId).after s).finishedFrameworks ↔
      Forgettable s frameworkId := by
  rw [after_eq_state, removeFramework_eq hstate, ← after_eq_state,
    rememberFinished_iff _ (AList.mem_insert _ |>.mpr (.inl rfl))]
  apply forall₄_congr
  intro clearFrameworkId rest _ _
  simp only [AList.mem_insert]
  constructor
  · intro ⟨hne, hmem⟩
    exact ⟨hne, hmem.resolve_left hne⟩
  · intro ⟨hne, hmem⟩
    exact ⟨hne, .inr hmem⟩

theorem mem_deleteFramework (hstate : s.frameworks.lookup frameworkId = some state)
    (raises : Bool) (k : String) :
    k ∈ ((deleteFramework frameworkId raises).after s).frameworks ↔
      k ∈ s.frameworks ∧ ¬(k = frameworkId ∧ Deletable state raises) := by
  by_cases h : Deletable state raises
  · obtain ⟨s1, hprepared, -, hrun⟩ := deleteFramework_of_deletable hstate h
    obtain ⟨state1, hstate1⟩ := hprepared.exists_lookup hstate
    have hleft : ((deleteFramework frameworkId raises).after s).frameworks =
        s1.frameworks.erase frameworkId := by
      rw [after_eq_state, hrun, ← after_eq_state, after_bind]
      rw [← frameworks_removeFramework hstate1, after]
      cases removeFramework frameworkId s1 <;> rfl
    rw [hleft, AList.mem_erase, hprepared.mem_iff]
    simp only [h, and_true]
    exact And.comm
  · obtain ⟨e, s1, hrun, hprepared⟩ := deleteFramework_of_not_deletable hstate h
    rw [after_of_error hrun, hprepared.mem_iff]
    simp only [h, and_false, not_false_eq_true, and_true]

/-- A deletion that gets to the removal returns, with the framework among the finished ones, exactly
    if the framework that is to be forgotten is there. -/
theorem deleteFramework_finished_iff (hstate : s.frameworks.lookup frameworkId = some state)
    (h : Deletable state raises) :
    (deleteFramework frameworkId raises s).returned = true ∧
        frameworkId ∈ ((deleteFramework frameworkId raises).after s).finishedFrameworks ↔
      Forgettable s frameworkId := by
  obtain ⟨s1, hprepared, -, hrun⟩ := deleteFramework_of_deletable hstate h
  obtain ⟨state1, hstate1⟩ := hprepared.exists_lookup hstate
  have hforget : Forgettable s frameworkId ↔ Forgettable s1 frameworkId := by
    unfold Forgettable
    rw [hprepared.finishedFrameworkIds, hprepared.finishedFrameworks]
  rw [hforget, ← removeFramework_iff hstate1, after_eq_state, after_eq_state, hrun, bind_apply]
  cases removeFramework frameworkId s1 <;> rfl

theorem deleteFramework_stopped (hstate : s.frameworks.lookup frameworkId = some state)
    (h : Deletable state raises) :
    ∃ new, ((deleteFramework frameworkId raises).after s).effects = s.effects ++ new ∧
      ∀ j ∈ state.framework.jobs, ChannelEffect.stopJobMonitoring j.1 ∈ new := by
  obtain ⟨s1, hprepared, ⟨new, hnew, hjobs⟩, hrun⟩ := deleteFramework_of_deletable hstate h
  obtain ⟨state1, hstate1⟩ := hprepared.exists_lookup hstate
  have hremove := effects_removeFramework hstate1
  rw [after_eq_state, hrun, bind_apply]
  rw [after_eq_state] at hremove
  cases hrun' : removeFramework frameworkId s1 with
  | ok _ s2 =>
    rw [hrun'] at hremove
    refine ⟨new ++ [.deleteChannelWithDelay state.framework.channelName], ?_,
      fun j hj => List.mem_append_left _ (hjobs j hj)⟩
    rw [← List.append_assoc, ← hnew, ← hremove]
    rfl
  | error e s2 =>
    rw [hrun'] at hremove
    exact ⟨new, hremove.trans hnew, hjobs⟩

/-! ## Under the lock -/

/-- The deletion returned, the framework is a finished one, its jobs are not monitored and its lock
    is free. -/
structure Deletion.Completed {G : Type} (d : Deletion G) (s : Trackers) (state : State)
    (frameworkId : String) : Prop where
  returned : d.returned = true
  inactive : frameworkId ∉ d.trackers.frameworks
  finished : frameworkId ∈ d.trackers.finishedFrameworks
  stopped : ∃ new, d.trackers.effects = s.effects ++ new ∧
    ∀ j ∈ state.framework.jobs, ChannelEffect.stopJobMonitoring j.1 ∈ new
  free : d.lock.owner = none

section Lock

variable {G : Type} [DecidableEq G] {g : G} {lock : FrameworkLock G}

theorem lockAndDeleteFramework_of_free (hmem : frameworkId ∈ s.frameworks)
    (hfree : lock.owner = none) (raises : Bool) :
    ∃ lock', lock'.owner = none ∧ lockAndDeleteFramework g frameworkId raises s lock =
      some ⟨(deleteFramework frameworkId raises s).returned,
        (deleteFramework frameworkId raises).after s, lock'⟩ := by
  simp only [lockAndDeleteFramework, hmem, if_true, FrameworkLock.acquireFrameworkLock, hfree,
    FrameworkLock.releaseFrameworkLock, after_eq_state]
  exact ⟨_, rfl, rfl⟩

theorem lock_not_free (hmem : frameworkId ∈ s.frameworks)
    (hcount : lock.owner.isSome → 0 < lock.count) (hfree : lock.owner ≠ none)
    {d : Deletion G}
    (hd : lockAndDeleteFramework g frameworkId raises s lock = some d) : d.lock.owner ≠ none := by
  obtain ⟨h, hh⟩ := Option.ne_none_iff_exists'.mp hfree
  have hpos : 0 < lock.count := hcount (by rw [hh]; rfl)
  simp only [lockAndDeleteFramework, hmem, if_true, FrameworkLock.acquireFrameworkLock, hh] at hd
  by_cases hown : h = g
  · have hne : ¬lock.count + 1 = 1 := by omega
    simp only [hown, if_true, FrameworkLock.releaseFrameworkLock, hne, if_false,
      Option.some.injEq] at hd
    subst hd
    exact Option.some_ne_none _
  · simp only [hown, if_false] at hd
    cases hd

/-- A lock that a greenlet obtains was free, unless it had it before. -/
theorem owner_of_obtained {lock' : FrameworkLock G}
    (hobtained : lock.acquireFrameworkLock g = .ok lock') (hother : lock.owner ≠ some g) :
    lock.owner = none := by
  cases howner : lock.owner with
  | none => rfl
  | some h =>
    have hne : h ≠ g := fun heq => hother (by rw [howner, heq])
    simp [FrameworkLock.acquireFrameworkLock, howner, hne] at hobtained

end Lock

/-- From the moment in which its lock is obtained, the deletion of an active framework completes
    exactly if the greenlet did not have the lock before, the framework has a `task_dict` that only
    holds tasks, those that are not finished have names, and the finished framework that is to be
    forgotten, if there are as many as are remembered, is known and another one. -/
theorem framework_deleted_iff {G : Type} [DecidableEq G] (g : G) (lock lock' : FrameworkLock G)
    (hobtained : lock.acquireFrameworkLock g = .ok lock')
    (hcount : lock.owner.isSome → 0 < lock.count) (s : Trackers) (frameworkId : String)
    (state : State) (hstate : s.frameworks.lookup frameworkId = some state) :
    (∃ d, lockAndDeleteFramework g frameworkId false s lock = some d ∧
        d.Completed s state frameworkId) ↔
      lock.owner ≠ some g ∧ state.framework.taskDict.isSome = true ∧
        state.framework.strayTask = none ∧
        (∀ e ∈ state.framework.tasks.entries, Named e.2) ∧ Forgettable s frameworkId := by
  have hmem : frameworkId ∈ s.frameworks := AList.lookup_isSome.mp (by rw [hstate]; rfl)
  have hactive := mem_deleteFramework hstate false frameworkId
  have hnone : lock.owner ≠ some g → lock.owner = none := owner_of_obtained hobtained
  constructor
  · intro ⟨d, hd, hcompleted⟩
    have hfree : lock.owner = none := by
      by_contra hfree
      exact lock_not_free hmem hcount hfree hd hcompleted.free
    obtain ⟨lock', -, hrun⟩ := lockAndDeleteFramework_of_free hmem hfree (g := g) false
    rw [hrun, Option.some.injEq] at hd
    subst hd
    have hdeletable : Deletable state false := by
      by_contra h
      exact hcompleted.inactive (hactive.mpr ⟨hmem, fun h' => h h'.2⟩)
    have hforget := (deleteFramework_finished_iff hstate hdeletable).mp
      ⟨hcompleted.returned, hcompleted.finished⟩
    refine ⟨?_, hdeletable.1, hdeletable.2.1, hdeletable.2.2.1, hforget⟩
    rw [hfree]
    exact nofun
  · intro ⟨hother, htasks, hstray, hnamed, hforget⟩
    have hdeletable : Deletable state false := ⟨htasks, hstray, hnamed, rfl⟩
    obtain ⟨lock', hfree', hrun⟩ :=
      lockAndDeleteFramework_of_free hmem (hnone hother) (g := g) false
    obtain ⟨hreturned, hfinished⟩ := (deleteFramework_finished_iff hstate hdeletable).mpr hforget
    exact ⟨_, hrun,
      { returned := hreturned
        inactive := fun h => (hactive.mp h).2 ⟨rfl, hdeletable⟩
        finished := hfinished
        stopped := deleteFramework_stopped hstate hdeletable
        free := hfree' }⟩

/-- A framework registers. -/
def registration : ChannelEvent := .register "framework" "scheduler" Sample.config false

/-- Its scheduler sends a `LaunchTasks` message, for which `task_dict` is created. -/
def launch : ChannelEvent := .framework "framework" (.queued (.launchTasks {}))

/-- It launches a task on a host. -/
def launchTask (task : TaskInfo) : List ChannelEvent :=
  [registration, .framework "framework" (.queued (.registerExecutorRunner Sample.runner)),
    .framework "framework" (.queued (.launchTasks { tasks := [task] }))]

def served : Trackers := (launchTask (Sample.task "t")).foldl (step Sample.env) {}

theorem framework_deleted_with_task : ∃ state, served.frameworks.lookup "framework" = some state ∧
    state.framework.tasks.keys = ["t"] ∧
    ∃ d, lockAndDeleteFramework () "framework" false served {} = some d ∧
      d.Completed served state "framework" := by
  have hfields : (served.frameworks.lookup "framework").map (fun state =>
      (state.framework.taskDict.isSome, state.framework.strayTask, state.framework.tasks.keys,
        decide (∀ e ∈ state.framework.tasks.entries, Named e.2))) =
      some (true, none, ["t"], true) := by decide +kernel
  obtain ⟨state, hstate, hfields⟩ := Option.map_eq_some_iff.mp hfields
  simp only [Prod.mk.injEq, decide_eq_true_eq] at hfields
  obtain ⟨htasks, hstray, hkeys, hnamed⟩ := hfields
  refine ⟨state, hstate, hkeys, ?_⟩
  apply (framework_deleted_iff () {} _ rfl nofun served "framework" state hstate).mpr
  refine ⟨nofun, htasks, hstray, hnamed, ?_⟩
  intro clearFrameworkId rest hids
  have hnone : served.finishedFrameworkIds = [] := by decide +kernel
  rw [hnone] at hids
  cases hids

/-- A framework registers, sends `LaunchTasks` and is deleted. -/
def serve (s : Trackers) (frameworkId : String) : Trackers :=
  let s := s.step Sample.env (.register frameworkId frameworkId Sample.config false)
  let s := s.step Sample.env (.framework frameworkId (.queued (.launchTasks {})))
  (deleteFramework frameworkId false).after s

/-- A framework that launched nothing stays active, and so does one that launched a task without a
    name. One that registers and finishes again, after as many others as are remembered, is
    forgotten at once. -/
theorem frameworks_not_deleted : (∀ events ∈ [[registration],
        launchTask { Sample.task "t" with hasName := false }],
      let s := events.foldl (step Sample.env) {}
      "framework" ∈ s.frameworks ∧
      (lockAndDeleteFramework () "framework" false s {}).map (fun d =>
        (d.returned, decide ("framework" ∈ d.trackers.frameworks))) = some (false, true)) ∧
    let ids := (List.range 25).map toString
    "0" ∈ (ids.foldl serve {}).finishedFrameworks ∧
      "0" ∉ (serve (ids.foldl serve {}) "0").finishedFrameworks := by
  decide +kernel

end Trackers

end Urb
