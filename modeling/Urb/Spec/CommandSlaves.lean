import Urb.ForStd.Run
import Urb.Spec.Told
import Urb.Spec.Wards

/-!
# The life of a slave with command executors

A slave that runs command executors has one executor for each of its tasks, with a flag that says
whether it is active. `handle_status_update` clears the flag when the task has finished or failed,
and queues the slave for removal with the last one.
-/

namespace Urb

variable {taskId : String} {x : Slave} {u : StatusUpdate}

open EStateM (Triple)

variable {slaveId : String}

/-- The requests that a slave with command executors is about. -/
inductive CrewEvent where
  | launch (m : LaunchTasksMessage)
  | register (m : RegisterExecutorMessage)
  | kill (taskId : String)
  | update (u : StatusUpdate)

def CrewEvent.request : CrewEvent → Request
  | .launch m => .launchTasks m
  | .register m => .registerExecutor m
  | .kill taskId => .killTask taskId
  | .update u => .statusUpdate u

/-- The state of the handler, the tasks that were launched on the slave, those that have reached a
    terminal state since, whether the slave was queued for removal, and whether a handler raised. -/
structure CrewWatch where
  state : State
  launched : List String
  ended : List String := []
  queued : Bool := false
  raised : Bool := false

namespace CrewWatch

/-- The tasks that a request launches on the slave. -/
def starts (slaveId : String) (w : CrewWatch) : CrewEvent → List String
  | .launch m => if slaveId ∈ w.state.framework.slaves then m.tasksOn slaveId else []
  | _ => []

/-- The tasks that a request takes to a terminal state. -/
def ends (w : CrewWatch) : CrewEvent → List String
  | .kill taskId => if taskId ∈ w.state.framework.tasks then [taskId] else []
  | .update u => if u.state.terminal then [u.taskId] else []
  | _ => []

def step (env : Env) (slaveId : String) (w : CrewWatch) (e : CrewEvent) : CrewWatch :=
  let result := handle env .queue e.request w.state
  { state := targetPostprocessor result.state
    launched := w.launched ++ w.starts slaveId e
    ended := w.ended.filter (· ∉ w.starts slaveId e) ++ w.ends e
    queued := w.queued || decide (⟨.slaves, slaveId⟩ ∈ result.state.deleteElements)
    raised := w.raised || !result.returned }

/-- The slave was queued for removal exactly if all of its tasks have reached a terminal state, and
    is gone then; no handler raised; no place-holder is mapped to a slave that is gone. -/
structure LivesAsTasks (slaveId : String) (w : CrewWatch) : Prop where
  removed : w.queued = true ↔ ∀ t ∈ w.launched, t ∈ w.ended
  gone : slaveId ∉ w.state.framework.slaves ↔ w.queued = true
  quiet : w.raised = false
  forgotten : slaveId ∉ w.state.framework.slaves →
    ∀ p, w.state.framework.placeholderToSlave.lookup p ≠ some slaveId

/-- A message launches tasks that fit, none of which has ended before. Where an executor registers,
    the records of the tasks can be read. -/
def Proper (env : Env) (slaveId : String) (w : CrewWatch) : CrewEvent → Prop
  | .launch m => LaunchFits env w.state.framework.slaves m.tasks ∧
      ∀ t ∈ m.tasksOn slaveId, t ∉ w.ended
  | .register _ => w.state.framework.Readable
  | _ => True

/-- Another task of the slave has not ended. -/
def Others (w : CrewWatch) (taskId : String) : Prop :=
  ∃ t ∈ w.launched, t ≠ taskId ∧ t ∉ w.ended

/-- A task that is killed is not the last of the slave. The last one finishes or fails, by an update
    that names the slave, when its executor has registered, those of the other tasks are not active,
    and no place-holder is mapped to the slave. -/
def Orderly (env : Env) (slaveId : String) (w : CrewWatch) : CrewEvent → Prop
  | .kill taskId =>
    (∀ task ∈ w.state.framework.tasks.lookup taskId, task.Creditable env w.state.framework) ∧
      (taskId ∈ w.state.framework.tasks → taskId ∈ w.launched →
        slaveId ∈ w.state.framework.slaves → w.Others taskId)
  | .update u =>
    u.Releasable env w.state ∧
      (u.state.terminal = true → u.taskId ∈ w.launched → slaveId ∈ w.state.framework.slaves →
        w.Others u.taskId ∨
          ∃ task x, Releases u w.state task slaveId x ∧ x.crew.Last u.taskId ∧
            ∀ p, w.state.framework.placeholderToSlave.lookup p ≠ some slaveId)
  | _ => True

end CrewWatch

/-- The executors of the slave are those of the tasks that were launched, and one that is not active
    is that of a task that has ended. -/
structure Crew.Mans (launched ended : List String) (c : Crew) : Prop where
  command : c.isCommandExecutor = true
  busy : 0 < c.taskCount
  tasks : ∀ t, (c.active t).isSome ↔ t ∈ launched
  idle : ∀ t, c.active t = some false → t ∈ ended

namespace Crew.Mans

variable {launched ended : List String} {c : Crew}

theorem join (h : c.Mans launched ended) (ids : List String) :
    (c.join ids).Mans (launched ++ ids) ended where
  command := h.command
  busy := by
    have hbusy := h.busy
    simp only [Crew.join]
    omega
  tasks t := by
    rw [List.mem_append, ← h.tasks]
    simp only [Crew.join]
    by_cases ht : t ∈ ids <;> simp [ht]
  idle t ht := by
    simp only [Crew.join] at ht
    split at ht
    · rename_i hmem
      cases hactive : c.active t with
      | none => simp [hactive] at ht
      | some b =>
        simp only [hactive, Option.getD_some] at ht
        exact h.idle t (hactive.trans ht)
    · exact h.idle t ht

theorem retire (h : c.Mans launched ended) (htask : taskId ∈ launched)
    (hended : taskId ∈ ended) : (c.retire taskId).Mans launched ended where
  command := h.command
  busy := h.busy
  tasks t := by
    simp only [Crew.retire]
    split
    · rename_i heq
      rw [heq]
      simp [htask]
    · exact h.tasks t
  idle t ht := by
    simp only [Crew.retire] at ht
    split at ht
    · rename_i heq
      exact heq ▸ hended
    · exact h.idle t ht

theorem mono (h : c.Mans launched ended) {ended' : List String} (hsub : ended ⊆ ended') :
    c.Mans launched ended' :=
  ⟨h.command, h.busy, h.tasks, fun t ht => hsub (h.idle t ht)⟩

end Crew.Mans

/-- The framework is active and its offer thread runs, and the slave, unless it is gone, has an
    executor for every task. -/
structure Ward.Serves (launched ended : List String) (r : Ward) : Prop where
  active : r.tracking = .active
  offerEvent : r.offerEvent = true
  maxRejectedOffers : r.maxRejectedOffers.isSome
  hasSlaves : r.hasSlaves = true
  removal : r.removal = false
  crew : ∀ c ∈ r.crew, c.Mans launched ended

namespace CrewWatch

variable {env : Env} {w : CrewWatch} {e : CrewEvent}

def Crewed (slaveId : String) (w : CrewWatch) : Prop :=
  isPlaceholder slaveId = false ∧ (w.state.ward slaveId).Serves w.launched w.ended

theorem mem_slaves_iff (s : State) :
    slaveId ∈ s.framework.slaves ↔ (s.ward slaveId).crew.isSome := by
  rw [← AList.lookup_isSome]
  exact Option.isSome_map.symm ▸ Iff.rfl

theorem ended_step (h : w.Proper env slaveId e) :
    (w.step env slaveId e).ended = w.ended ++ w.ends e := by
  have hkeep : ∀ t ∈ w.ended, t ∉ w.starts slaveId e := by
    intro t ht hstart
    cases e with
    | launch m =>
      simp only [starts] at hstart
      split at hstart
      · exact h.2 t hstart ht
      · cases hstart
    | register m => cases hstart
    | kill taskId => cases hstart
    | update u => cases hstart
  show w.ended.filter _ ++ w.ends e = _
  rw [List.filter_eq_self.mpr fun t ht => by simpa using hkeep t ht]

theorem ward_step (env : Env) (slaveId : String) (w : CrewWatch) (e : CrewEvent) :
    (w.step env slaveId e).state.ward slaveId =
      ((handle env .queue e.request w.state).state.ward slaveId).settle :=
  ward_targetPostprocessor _

theorem queued_step (env : Env) (slaveId : String) (w : CrewWatch) (e : CrewEvent) :
    (w.step env slaveId e).queued =
      (w.queued || ((handle env .queue e.request w.state).state.ward slaveId).removal) := by
  rw [ward_removal]
  rfl

/-! ### Requests that do not release a task on the slave -/

section Spared

variable (hcrewed : w.Crewed slaveId) (hproper : w.Proper env slaveId e)
  (hspared : ((w.state.ward slaveId).join (w.starts slaveId e)).Spared slaveId
    ((handle env .queue e.request w.state).state.ward slaveId))

include hcrewed hspared

theorem ward_step_of_spared : ∃ placeholders, (w.step env slaveId e).state.ward slaveId =
      { (w.state.ward slaveId).join (w.starts slaveId e) with
        placeholderToSlave := placeholders } ∧
    (w.step env slaveId e).queued = w.queued ∧
    ∀ p, placeholders.lookup p = some slaveId →
      (w.state.ward slaveId).placeholderToSlave.lookup p = some slaveId := by
  obtain ⟨⟨d, hd⟩, hsub⟩ := hspared
  have hremoval : ((handle env .queue e.request w.state).state.ward slaveId).removal = false := by
    rw [hd]
    exact hcrewed.2.removal
  refine ⟨d, ?_, ?_, fun p hp => hsub p (by rw [hd]; exact hp)⟩
  · have hold : ((w.state.ward slaveId).join (w.starts slaveId e)).removal = false :=
      hcrewed.2.removal
    rw [ward_step, hd]
    simp only [Ward.settle, hold, Bool.false_eq_true, if_false]
  · rw [queued_step, hremoval, Bool.or_false]

include hproper

theorem crewed_of_spared : (w.step env slaveId e).Crewed slaveId := by
  obtain ⟨d, hward, -, -⟩ := ward_step_of_spared hcrewed hspared
  have hserves := hcrewed.2
  refine ⟨hcrewed.1, ?_⟩
  rw [hward]
  refine ⟨hserves.active, hserves.offerEvent, hserves.maxRejectedOffers, hserves.hasSlaves,
    hserves.removal, fun c hc => ?_⟩
  obtain ⟨c0, hc0, rfl⟩ := Option.map_eq_some_iff.mp hc
  rw [ended_step hproper]
  exact ((hserves.crew c0 hc0).join _).mono (List.subset_append_left _ _)

theorem livesAsTasks_of_spared_iff (hlives : w.LivesAsTasks slaveId) :
    (w.step env slaveId e).LivesAsTasks slaveId ↔
      (handle env .queue e.request w.state).returned = true ∧
        (slaveId ∈ w.state.framework.slaves →
          ∃ t ∈ w.launched ++ w.starts slaveId e, t ∉ w.ended ++ w.ends e) := by
  obtain ⟨d, hward, hqueued, hsub⟩ := ward_step_of_spared hcrewed hspared
  have hmem : slaveId ∈ (w.step env slaveId e).state.framework.slaves ↔
      slaveId ∈ w.state.framework.slaves := by
    rw [mem_slaves_iff, mem_slaves_iff, hward]
    simp [Ward.join]
  have hraised : (w.step env slaveId e).raised = false ↔
      (handle env .queue e.request w.state).returned = true := by
    show (w.raised || !_) = false ↔ _
    rw [hlives.quiet]
    simp
  have hlaunched : (w.step env slaveId e).launched = w.launched ++ w.starts slaveId e := rfl
  have hgone : slaveId ∉ w.state.framework.slaves → w.starts slaveId e = [] := by
    intro hnot
    cases e with
    | launch m => exact if_neg hnot
    | register m => rfl
    | kill taskId => rfl
    | update u => rfl
  constructor
  · intro h
    refine ⟨hraised.mp h.quiet, fun hin => ?_⟩
    have hnot : ¬∀ t ∈ (w.step env slaveId e).launched, t ∈ (w.step env slaveId e).ended := by
      intro hall
      exact h.gone.mpr (h.removed.mpr hall) (hmem.mpr hin)
    rw [hlaunched, ended_step hproper] at hnot
    push Not at hnot
    exact hnot
  · rintro ⟨hreturned, hleft⟩
    have hgone' : slaveId ∉ (w.step env slaveId e).state.framework.slaves ↔
        (w.step env slaveId e).queued = true := by
      rw [hqueued, ← hlives.gone, hmem]
    refine ⟨?_, hgone', hraised.mpr hreturned, fun hnot p hp => ?_⟩
    · rw [hqueued, hlaunched, ended_step hproper]
      by_cases hin : slaveId ∈ w.state.framework.slaves
      · obtain ⟨t, ht, hnot⟩ := hleft hin
        exact iff_of_false (fun hq => absurd hin (hlives.gone.mpr hq))
          fun hall => hnot (hall t ht)
      · rw [hgone hin, List.append_nil]
        have hq := hlives.gone.mp hin
        exact iff_of_true hq fun t ht => List.mem_append_left _ (hlives.removed.mp hq t ht)
    · have hp : ((w.step env slaveId e).state.ward slaveId).placeholderToSlave.lookup p =
          some slaveId := hp
      rw [hward] at hp
      exact hlives.forgotten (fun hin => hnot (hmem.mpr hin)) p (hsub p hp)

end Spared

/-! ### One step -/

theorem Crewed.mans (h : w.Crewed slaveId) (hx : w.state.framework.slaves.lookup slaveId = some x) :
    x.crew.Mans w.launched w.ended :=
  h.2.crew x.crew (congrArg (Option.map Slave.crew) hx)

theorem launch_spared {m : LaunchTasksMessage} (hcrewed : w.Crewed slaveId)
    (hproper : w.Proper env slaveId (.launch m)) :
    (handle env .queue (.launchTasks m) w.state).returned = true ∧
    ((w.state.ward slaveId).join (w.starts slaveId (.launch m))).Spared slaveId
      ((handle env .queue (.launchTasks m) w.state).state.ward slaveId) := by
  have hserves := hcrewed.2
  obtain ⟨a, s', hrun, hspared⟩ := launchTasks_ward env m hserves.active hserves.offerEvent
    hserves.maxRejectedOffers hproper.1 hcrewed.1 fun c hc =>
      ⟨(hserves.crew c hc).command, (hserves.crew c hc).busy⟩
  have hjoin : (w.state.ward slaveId).join (w.starts slaveId (.launch m)) =
      (w.state.ward slaveId).join (m.tasksOn slaveId) := by
    simp only [starts]
    split
    · rfl
    · rename_i hnot
      have hcrew : (w.state.ward slaveId).crew = none := by
        rw [mem_slaves_iff] at hnot
        exact Option.not_isSome_iff_eq_none.mp hnot
      rw [Ward.join_of_none hcrew, Ward.join_of_none hcrew]
  rw [handle, hrun, hjoin]
  exact ⟨rfl, hspared⟩

theorem register_spared {m : RegisterExecutorMessage} (hcrewed : w.Crewed slaveId)
    (hproper : w.Proper env slaveId (.register m)) :
    (handle env .queue (.registerExecutor m) w.state).returned = true ∧
    (w.state.ward slaveId).Spared slaveId
      ((handle env .queue (.registerExecutor m) w.state).state.ward slaveId) := by
  obtain ⟨a, s', hrun, hward⟩ := registerExecutor_ward env m hcrewed.2.hasSlaves hproper
  rw [handle, hrun]
  refine ⟨rfl, ?_⟩
  show (w.state.ward slaveId).Spared slaveId (s'.ward slaveId)
  rw [hward]
  exact .refl _

theorem kill_spared (hcrewed : w.Crewed slaveId) :
    ((handle env .queue (.killTask taskId) w.state).returned = true ↔
      ∀ task ∈ w.state.framework.tasks.lookup taskId,
        task.Creditable env w.state.framework) ∧
    (w.state.ward slaveId).Spared slaveId
      ((handle env .queue (.killTask taskId) w.state).state.ward slaveId) := by
  have hkill : Triple (· = w.state) (killTask env .queue taskId) _ _ :=
    killTask_ward taskId hcrewed.2.active hcrewed.2.offerEvent
      fun x hx => (hcrewed.mans hx).command
  have hkill := hkill w.state rfl
  rw [handle]
  cases hrun : killTask env .queue taskId w.state with
  | ok a s' =>
    simp only [hrun] at hkill
    refine ⟨iff_of_true rfl hkill.2, ?_⟩
    show (w.state.ward slaveId).Spared slaveId (s'.ward slaveId)
    rw [hkill.1]
    exact .refl _
  | error err s' =>
    simp only [hrun] at hkill
    obtain ⟨hward, task, htask, hnot⟩ := hkill
    refine ⟨iff_of_false Bool.false_ne_true fun h => hnot (h task htask), ?_⟩
    show (w.state.ward slaveId).Spared slaveId (s'.ward slaveId)
    rw [hward]
    exact .refl _

/-- What a status update does: it raises, or releases a task on the slave, or does nothing there. -/
theorem update_cases (hcrewed : w.Crewed slaveId) :
    let result := handle env .queue (.statusUpdate u) w.state
    (result.returned = false ∧ ¬u.Releasable env w.state ∧
      result.state.ward slaveId = w.state.ward slaveId) ∨
    (result.returned = true ∧ u.Releasable env w.state ∧
      (∃ task x, Releases u w.state task slaveId x) ∧
      (w.state.ward slaveId).Retired u.taskId (result.state.ward slaveId)) ∨
    (result.returned = true ∧ u.Releasable env w.state ∧
      (∀ task x, ¬Releases u w.state task slaveId x) ∧
      result.state.ward slaveId = w.state.ward slaveId) := by
  have hupdate : Triple (· = w.state) (statusUpdate env .queue u) _ _ :=
    statusUpdate_ward u hcrewed.2.active hcrewed.2.hasSlaves
      fun x hx => (hcrewed.mans hx).command
  have hupdate := hupdate w.state rfl
  rw [handle]
  cases hrun : statusUpdate env .queue u w.state with
  | error err s' =>
    simp only [hrun] at hupdate
    exact .inl ⟨rfl, hupdate.2, hupdate.1⟩
  | ok a s' =>
    simp only [hrun] at hupdate
    obtain ⟨hok, hreleased, hsame⟩ := hupdate
    by_cases hrel : ∃ task x, Releases u w.state task slaveId x
    · obtain ⟨task, x, h⟩ := hrel
      exact .inr (.inl ⟨rfl, hok, ⟨task, x, h⟩, hreleased task x h⟩)
    · push Not at hrel
      exact .inr (.inr ⟨rfl, hok, hrel, hsame hrel⟩)

theorem left_iff {p : Prop} [Decidable p] (hleft : ∃ t ∈ w.launched, t ∉ w.ended) :
    (∃ t ∈ w.launched, t ∉ w.ended ++ if p then [taskId] else []) ↔
      (p → taskId ∈ w.launched → w.Others taskId) := by
  by_cases hp : p
  · simp only [hp, if_true, true_implies, List.mem_append, List.mem_singleton, not_or]
    constructor
    · rintro ⟨t, ht, hended, hne⟩ -
      exact ⟨t, ht, hne, hended⟩
    · intro h
      by_cases hmem : taskId ∈ w.launched
      · obtain ⟨t, ht, hne, hended⟩ := h hmem
        exact ⟨t, ht, hended, hne⟩
      · obtain ⟨t, ht, hended⟩ := hleft
        exact ⟨t, ht, hended, fun heq => hmem (heq ▸ ht)⟩
  · simp only [hp, if_false, List.append_nil, false_implies, iff_true]
    exact hleft

theorem LivesAsTasks.left (hlives : w.LivesAsTasks slaveId)
    (hin : slaveId ∈ w.state.framework.slaves) : ∃ t ∈ w.launched, t ∉ w.ended := by
  by_contra hnone
  push Not at hnone
  exact hlives.gone.mpr (hlives.removed.mpr hnone) hin

theorem terminal_of_releases {state : TaskState} (h : state.releases = true) :
    state.terminal = true := by
  cases state <;> first | rfl | cases h

theorem mem_launched_of_releases {task : TaskRecord}
    (hcrewed : w.Crewed slaveId) (hrel : Releases u w.state task slaveId x)
    (hok : u.Releasable env w.state) : u.taskId ∈ w.launched := by
  have hmans := hcrewed.mans hrel.slave
  have hfound := hok task slaveId x hrel
  have hcommand : x.isCommandExecutor = true := hmans.command
  rw [Slave.Releasable, if_pos hcommand] at hfound
  obtain ⟨executor, hexecutor, -⟩ := hfound
  refine (hmans.tasks u.taskId).mp ?_
  show ((x.commandExecutors.lookup u.taskId).map (·.active)).isSome
  rw [hexecutor]
  rfl

section Retired

variable {u : StatusUpdate} {task : TaskRecord} {x : Slave} (hcrewed : w.Crewed slaveId)
  (hrel : Releases u w.state task slaveId x) (hok : u.Releasable env w.state)
  (hretired : (w.state.ward slaveId).Retired u.taskId
    ((handle env .queue (.statusUpdate u) w.state).state.ward slaveId))

include hcrewed hrel hretired

theorem ward_step_of_retired : ∃ removal : Bool, (removal = true ↔ x.crew.Last u.taskId) ∧
    (w.step env slaveId (.update u)).state.ward slaveId =
      { w.state.ward slaveId with
        crew := if removal then none else some (x.crew.retire u.taskId) } ∧
    (w.step env slaveId (.update u)).queued = (w.queued || removal) := by
  obtain ⟨c, removal, hc, hlast, hward⟩ := hretired
  have hcrew : (w.state.ward slaveId).crew = some x.crew :=
    congrArg (Option.map Slave.crew) hrel.slave
  cases hcrew.symm.trans hc
  have hremoval := hcrewed.2.removal
  rw [hremoval, Bool.false_or] at hward
  refine ⟨removal, hlast, ?_, ?_⟩
  · refine (ward_step env slaveId w (.update u)).trans ?_
    rw [CrewEvent.request, hward]
    simp only [Ward.settle, hremoval]
  · refine (queued_step env slaveId w (.update u)).trans ?_
    rw [CrewEvent.request, hward]

omit hcrewed hretired in
theorem ended_step_of_releases :
    (w.step env slaveId (.update u)).ended = w.ended ++ [u.taskId] := by
  have hproper : w.Proper env slaveId (.update u) := trivial
  rw [ended_step hproper]
  simp only [ends, terminal_of_releases hrel.state, if_true]

include hok

theorem crewed_of_retired : (w.step env slaveId (.update u)).Crewed slaveId := by
  obtain ⟨removal, -, hward, -⟩ := ward_step_of_retired hcrewed hrel hretired
  have hserves := hcrewed.2
  refine ⟨hcrewed.1, ?_⟩
  rw [hward, ended_step_of_releases hrel]
  refine ⟨hserves.active, hserves.offerEvent, hserves.maxRejectedOffers, hserves.hasSlaves,
    hserves.removal, fun c hc => ?_⟩
  cases removal with
  | true => cases hc
  | false =>
    cases hc
    have hlaunched : u.taskId ∈ w.launched := mem_launched_of_releases hcrewed hrel hok
    have hmans := (hcrewed.mans hrel.slave).mono (List.subset_append_left w.ended [u.taskId])
    have hstep : (w.step env slaveId (.update u)).launched = w.launched := List.append_nil _
    rw [hstep]
    exact hmans.retire hlaunched (by simp)

omit hok hretired in
theorem not_last_of_others (hothers : w.Others u.taskId) : ¬x.crew.Last u.taskId := by
  obtain ⟨t, ht, hne, hended⟩ := hothers
  have hmans := hcrewed.mans hrel.slave
  intro hlast
  obtain ⟨b, hb⟩ := Option.isSome_iff_exists.mp ((hmans.tasks t).mpr ht)
  cases b with
  | true => exact hlast t hne hb
  | false => exact hended (hmans.idle t hb)

omit hok in
theorem livesAsTasks_of_retired_iff (hlives : w.LivesAsTasks slaveId)
    (hreturned : (handle env .queue (.statusUpdate u) w.state).returned = true) :
    (w.step env slaveId (.update u)).LivesAsTasks slaveId ↔
      w.Others u.taskId ∨ (x.crew.Last u.taskId ∧
        ∀ p, w.state.framework.placeholderToSlave.lookup p ≠ some slaveId) := by
  obtain ⟨removal, hlast, hward, hqueued⟩ := ward_step_of_retired hcrewed hrel hretired
  have hin : slaveId ∈ w.state.framework.slaves :=
    AList.lookup_isSome.mp (Option.isSome_of_eq_some hrel.slave)
  have hq : w.queued = false := by
    by_contra hq
    exact hlives.gone.mpr (by simpa using hq) hin
  rw [hq, Bool.false_or] at hqueued
  have hgone : slaveId ∉ (w.step env slaveId (.update u)).state.framework.slaves ↔
      removal = true := by
    rw [mem_slaves_iff, hward]
    cases removal <;> simp
  have hplaceholders :
      (w.step env slaveId (.update u)).state.framework.placeholderToSlave =
        w.state.framework.placeholderToSlave := congrArg Ward.placeholderToSlave hward
  have hraised : (w.step env slaveId (.update u)).raised = false := by
    show (w.raised || !(handle env .queue (.statusUpdate u) w.state).returned) = false
    rw [hlives.quiet, hreturned]
    rfl
  have hlaunched : (w.step env slaveId (.update u)).launched = w.launched := List.append_nil _
  have hended : (w.step env slaveId (.update u)).ended = w.ended ++ [u.taskId] :=
    ended_step_of_releases hrel
  have hall : (∀ t ∈ w.launched, t ∈ w.ended ++ [u.taskId]) ↔ ¬w.Others u.taskId := by
    simp only [Others, List.mem_append, List.mem_singleton, not_exists, not_and, not_not]
    exact forall₂_congr fun t _ => by tauto
  constructor
  · intro h
    refine or_iff_not_imp_left.mpr fun hothers => ?_
    have hqueued' := h.removed.mpr (by rw [hlaunched, hended]; exact hall.mpr hothers)
    have hremoval := hqueued.symm.trans hqueued'
    refine ⟨hlast.mp hremoval, ?_⟩
    rw [← hplaceholders]
    exact h.forgotten (hgone.mpr hremoval)
  · intro h
    have hremoval : removal = true ↔ ¬w.Others u.taskId := by
      rw [hlast]
      rcases h with hothers | ⟨hl, -⟩
      · exact iff_of_false (not_last_of_others hcrewed hrel hothers) (not_not_intro hothers)
      · exact iff_of_true hl fun hothers => not_last_of_others hcrewed hrel hothers hl
    refine ⟨?_, ?_, hraised, fun hnot => ?_⟩
    · rw [hqueued, hlaunched, hended, hall, hremoval]
    · rw [hqueued, hgone]
    · rw [hplaceholders]
      rcases h with hothers | ⟨-, hp⟩
      · exact absurd hothers (hremoval.mp (hgone.mp hnot))
      · exact hp

end Retired

/-- The executors of the slave are those of its tasks. -/
theorem crewed_step (hcrewed : w.Crewed slaveId) (hproper : w.Proper env slaveId e) :
    (w.step env slaveId e).Crewed slaveId := by
  -- a request that launches nothing on the slave and leaves it as it was
  have hsame : w.starts slaveId e = [] →
      (w.state.ward slaveId).Spared slaveId
        ((handle env .queue e.request w.state).state.ward slaveId) →
      (w.step env slaveId e).Crewed slaveId := by
    intro hnone hspared
    refine crewed_of_spared hcrewed hproper ?_
    rw [hnone, Ward.join_nil]
    exact hspared
  cases e with
  | launch m => exact crewed_of_spared hcrewed hproper (launch_spared hcrewed hproper).2
  | register m => exact hsame rfl (register_spared hcrewed hproper).2
  | kill taskId => exact hsame rfl (kill_spared hcrewed).2
  | update u =>
    rcases update_cases (u := u) hcrewed with
      ⟨-, -, hward⟩ | ⟨-, hok, ⟨task, x, hrel⟩, hretired⟩ | ⟨-, -, -, hward⟩
    · exact hsame rfl (by rw [CrewEvent.request, hward]; exact .refl _)
    · exact crewed_of_retired hcrewed hrel hok hretired
    · exact hsame rfl (by rw [CrewEvent.request, hward]; exact .refl _)

/-- The requests that remove the slave with its last task. -/
theorem livesAsTasks_step_iff (hcrewed : w.Crewed slaveId) (hproper : w.Proper env slaveId e)
    (hlives : w.LivesAsTasks slaveId) :
    (w.step env slaveId e).LivesAsTasks slaveId ↔ w.Orderly env slaveId e := by
  have hsame : w.starts slaveId e = [] →
      (w.state.ward slaveId).Spared slaveId
        ((handle env .queue e.request w.state).state.ward slaveId) →
      ((w.step env slaveId e).LivesAsTasks slaveId ↔
        (handle env .queue e.request w.state).returned = true ∧
          (slaveId ∈ w.state.framework.slaves → ∃ t ∈ w.launched, t ∉ w.ended ++ w.ends e)) := by
    intro hnone hspared
    have hiff := livesAsTasks_of_spared_iff hcrewed hproper
      (by rw [hnone, Ward.join_nil]; exact hspared) hlives
    rwa [hnone, List.append_nil] at hiff
  cases e with
  | launch m =>
    obtain ⟨hreturned, hspared⟩ := launch_spared hcrewed hproper
    refine (livesAsTasks_of_spared_iff hcrewed hproper hspared hlives).trans ?_
    refine iff_of_true ⟨hreturned, fun hin => ?_⟩ trivial
    obtain ⟨t, ht, hended⟩ := hlives.left hin
    exact ⟨t, List.mem_append_left _ ht, by simpa [ends] using hended⟩
  | register m =>
    obtain ⟨hreturned, hspared⟩ := register_spared hcrewed hproper
    refine (hsame rfl hspared).trans (iff_of_true ⟨hreturned, fun hin => ?_⟩ trivial)
    obtain ⟨t, ht, hended⟩ := hlives.left hin
    exact ⟨t, ht, by simpa [ends] using hended⟩
  | kill taskId =>
    obtain ⟨hreturned, hspared⟩ := kill_spared hcrewed
    refine (hsame rfl hspared).trans (and_congr hreturned ?_)
    constructor
    · exact fun h hmem hl hin => (left_iff (hlives.left hin)).mp (h hin) hmem hl
    · exact fun h hin => (left_iff (hlives.left hin)).mpr fun hmem hl => h hmem hl hin
  | update u =>
    rcases update_cases (u := u) hcrewed with
      ⟨hreturned, hnot, hward⟩ | ⟨hreturned, hok, ⟨task, x, hrel⟩, hretired⟩ |
      ⟨hreturned, hok, hnone, hward⟩
    · refine (hsame rfl (by rw [CrewEvent.request, hward]; exact .refl _)).trans ?_
      refine iff_of_false (fun h => ?_) fun h => hnot h.1
      exact absurd (hreturned.symm.trans h.1) Bool.false_ne_true
    · refine (livesAsTasks_of_retired_iff hcrewed hrel hretired hlives hreturned).trans ?_
      have hin : slaveId ∈ w.state.framework.slaves :=
        AList.lookup_isSome.mp (Option.isSome_of_eq_some hrel.slave)
      have hlaunched : u.taskId ∈ w.launched := mem_launched_of_releases hcrewed hrel hok
      constructor
      · exact fun h => ⟨hok, fun _ _ _ => h.imp_right fun h => ⟨task, x, hrel, h.1, h.2⟩⟩
      · intro h
        refine (h.2 (terminal_of_releases hrel.state) hlaunched hin).imp_right ?_
        rintro ⟨task', x', hrel', hlast, hp⟩
        cases hrel.slave.symm.trans hrel'.slave
        exact ⟨hlast, hp⟩
    · refine (hsame rfl (by rw [CrewEvent.request, hward]; exact .refl _)).trans ?_
      refine and_congr (iff_of_true hreturned hok) ?_
      have hor : ∀ {q : Prop}, (q ∨ ∃ task x, Releases u w.state task slaveId x ∧
          x.crew.Last u.taskId ∧
          ∀ p, w.state.framework.placeholderToSlave.lookup p ≠ some slaveId) ↔ q :=
        or_iff_left fun ⟨task, x, h, _⟩ => hnone task x h
      simp only [hor]
      constructor
      · exact fun h ht hl hin => (left_iff (hlives.left hin)).mp (h hin) ht hl
      · exact fun h hin => (left_iff (hlives.left hin)).mpr fun ht hl => h ht hl hin

/-- In every run of launches, registrations of executors, kills and status updates, the slave is
    always queued for removal exactly when its last task has ended, without a handler raising and
    with no place-holder left that is mapped to it, exactly if the last of its tasks finishes or
    fails when its executor has registered, the others have done so before, and no place-holder is
    mapped to the slave. -/
theorem command_slave_lives_as_tasks_iff (env : Env) (slaveId : String) (start : CrewWatch)
    (events : List CrewEvent) (hcrewed : start.Crewed slaveId)
    (hlives : start.LivesAsTasks slaveId)
    (hproper : Run.Meets (CrewWatch.step env slaveId) (CrewWatch.Proper env slaveId) start events) :
    Run.Meets (CrewWatch.step env slaveId)
        (fun w e => (w.step env slaveId e).LivesAsTasks slaveId) start events ↔
      Run.Meets (CrewWatch.step env slaveId) (CrewWatch.Orderly env slaveId) start events := by
  have hinv : ∀ w e, Crewed slaveId w → w.Proper env slaveId e →
      (w.step env slaveId e).Crewed slaveId := fun _ _ h hproper => crewed_step h hproper
  have hstep : ∀ w e, Crewed slaveId w → w.Proper env slaveId e → w.LivesAsTasks slaveId →
      ((w.step env slaveId e).LivesAsTasks slaveId ↔ w.Orderly env slaveId e) :=
    fun _ _ h hproper hlives => livesAsTasks_step_iff h hproper hlives
  exact Run.meets_iff_of hinv hstep hcrewed hlives hproper

/-! ### Sample runs -/

/-- A task without an executor of its own. -/
def sampleTask (taskId : String) : TaskInfo := { Sample.task taskId with executor := none }

/-- A task was launched on the slave of the sample. -/
def sample : CrewWatch where
  state := run Sample.env Sample.start
    [.queued (.registerExecutorRunner Sample.runner),
      .queued (.launchTasks { tasks := [sampleTask "t"] })]
  launched := ["t"]

def sampleExecutor : RegisterExecutorMessage where
  executorId := "t"
  replyTo := "runner"
  channel := "executor"

theorem mans_of_active {launched ended : List String}
    (h : x.isCommandExecutor = true ∧ 0 < x.taskCount ∧ x.commandExecutors.keys = launched ∧
      ∀ e ∈ x.commandExecutors.entries, e.2.active = true) : x.crew.Mans launched ended := by
  obtain ⟨hcommand, hbusy, hkeys, hactive⟩ := h
  refine ⟨hcommand, hbusy, fun t => ?_, fun t ht => ?_⟩
  · show ((x.commandExecutors.lookup t).map _).isSome ↔ _
    rw [Option.isSome_map, AList.lookup_isSome, AList.mem_keys, hkeys]
  · obtain ⟨e, he, hflag⟩ := Option.map_eq_some_iff.mp ht
    rw [hactive _ (AList.mem_lookup_iff.mp he)] at hflag
    cases hflag

theorem crew_of_entries {s : State} {P : Crew → Prop}
    (h : ∀ e ∈ s.framework.slaves.entries, P e.2.crew) : ∀ c ∈ (s.ward slaveId).crew, P c := by
  intro c hc
  obtain ⟨x, hx, rfl⟩ := Option.map_eq_some_iff.mp hc
  exact h _ (AList.mem_lookup_iff.mp hx)

theorem crewed_sample : sample.Crewed Sample.slaveId := by
  have hslaves : ∀ e ∈ sample.state.framework.slaves.entries,
      e.2.isCommandExecutor = true ∧ 0 < e.2.taskCount ∧ e.2.commandExecutors.keys = ["t"] ∧
        ∀ e' ∈ e.2.commandExecutors.entries, e'.2.active = true := by
    decide +kernel
  exact ⟨by decide, by decide +kernel, by decide +kernel, by decide +kernel, by decide +kernel,
    by decide +kernel, crew_of_entries fun e he => mans_of_active (hslaves e he)⟩

theorem livesAsTasks_sample : sample.LivesAsTasks Sample.slaveId where
  removed := by decide
  gone := by decide +kernel
  quiet := rfl
  forgotten hnot := absurd (by decide +kernel) hnot

/-- The executor registers, and its task finishes. -/
theorem command_slave_removed :
    let events := [.register sampleExecutor, .update Sample.finished]
    Run.Meets (CrewWatch.step Sample.env Sample.slaveId)
        (fun w e => (w.step Sample.env Sample.slaveId e).LivesAsTasks Sample.slaveId) sample
        events ∧
      (events.foldl (CrewWatch.step Sample.env Sample.slaveId) sample).queued = true := by
  intro events
  have hread : sample.state.framework.Readable := by
    have htasks : ∀ e ∈ sample.state.framework.tasks.entries,
        e.2.taskInfo.hasTaskId = true ∧ e.2.taskInfo.container = none := by
      decide +kernel
    refine ⟨by decide +kernel, by decide +kernel, fun k r hr => ?_, fun k r hr hdocker => ?_⟩
    · exact (htasks _ (AList.mem_lookup_iff.mp hr)).1
    · rw [(htasks _ (AList.mem_lookup_iff.mp hr)).2] at hdocker
      cases hdocker
  refine ⟨(command_slave_lives_as_tasks_iff Sample.env Sample.slaveId sample events crewed_sample
    livesAsTasks_sample ⟨hread, trivial, trivial⟩).mpr ⟨trivial, ?_, trivial⟩, by decide +kernel⟩
  have hslaves : ∀ e ∈ (sample.step Sample.env Sample.slaveId
      (.register sampleExecutor)).state.framework.slaves.entries,
      e.2.isCommandExecutor = true ∧ e.2.commandExecutors.keys = ["t"] ∧
        (e.2.commandExecutors.lookup "t").any (·.channel.isSome) = true := by
    decide +kernel
  have hplaceholders : (sample.step Sample.env Sample.slaveId
      (.register sampleExecutor)).state.framework.placeholderToSlave.keys = [] := by
    decide +kernel
  have hrecord : ((sample.step Sample.env Sample.slaveId
      (.register sampleExecutor)).state.framework.tasks.lookup "t").isSome := by
    decide +kernel
  have hslave : ((sample.step Sample.env Sample.slaveId
      (.register sampleExecutor)).state.framework.slaves.lookup Sample.slaveId).isSome := by
    decide +kernel
  generalize sample.step Sample.env Sample.slaveId (.register sampleExecutor) = w at *
  obtain ⟨task, htask⟩ := Option.isSome_iff_exists.mp hrecord
  obtain ⟨x, hx⟩ := Option.isSome_iff_exists.mp hslave
  refine ⟨fun task k y h => ?_, fun _ _ _ => .inr ⟨task, x, ⟨rfl, htask, rfl, hx⟩, ?_, ?_⟩⟩
  · obtain ⟨hcommand, -, hchannel⟩ := hslaves _ (AList.mem_lookup_iff.mp h.slave)
    rw [Slave.Releasable, if_pos hcommand]
    exact (Option.any_eq_true _ _).mp hchannel
  · intro t ht hactive
    obtain ⟨-, hkeys, -⟩ := hslaves _ (AList.mem_lookup_iff.mp hx)
    obtain ⟨e, he, -⟩ := Option.map_eq_some_iff.mp hactive
    have hmem := AList.lookup_isSome.mp (Option.isSome_of_eq_some he)
    rw [AList.mem_keys, hkeys] at hmem
    exact ht (List.mem_singleton.mp hmem)
  · intro p hp
    have hmem := AList.lookup_isSome.mp (Option.isSome_of_eq_some hp)
    rw [AList.mem_keys, hplaceholders] at hmem
    cases hmem

/-- The runner of the job of a place-holder, which takes over its task. -/
def placeholderRunner : RegisterExecutorRunnerMessage where
  slaveId := NamingUtility.createSlaveId "1_0" "undefined" ""
  channel := "runner"
  jobId := "1_0"

/-- The task of a place-holder was taken over by the runner of its job. -/
def placeholderSample : CrewWatch where
  state := run Sample.env
    { Sample.start with
      framework := { Sample.start.framework with
        config := { Sample.config with sendTaskLost := some false } } }
    [.queued (.launchTasks { tasks := [{ sampleTask "t" with slaveId := some "place-holder-1" }] }),
      .queued (.registerExecutorRunner placeholderRunner)]
  launched := ["t"]

/-- The only task is killed, and the slave stays; it finishes before its executor has registered,
    and the handler raises; and the slave is removed, and a place-holder is still mapped to it. -/
theorem command_slave_not_removed :
    let killed := sample.step Sample.env Sample.slaveId (.kill "t")
    let unregistered := sample.step Sample.env Sample.slaveId (.update Sample.finished)
    let mapped := [.register sampleExecutor,
      .update { Sample.finished with slaveId := some placeholderRunner.slaveId }].foldl
      (CrewWatch.step Sample.env placeholderRunner.slaveId) placeholderSample
    (killed.ended = ["t"] ∧ killed.queued = false ∧ ¬killed.LivesAsTasks Sample.slaveId) ∧
      (unregistered.raised = true ∧ ¬unregistered.LivesAsTasks Sample.slaveId) ∧
      (mapped.queued = true ∧ mapped.state.framework.placeholderToSlave.lookup "place-holder-1" =
          some placeholderRunner.slaveId ∧
        ¬mapped.LivesAsTasks placeholderRunner.slaveId) := by
  intro killed unregistered mapped
  have hended : killed.ended = ["t"] := by decide +kernel
  have hkept : killed.queued = false := by decide +kernel
  have hraised : unregistered.raised = true := by decide +kernel
  have hqueued : mapped.queued = true := by decide +kernel
  have hmapped : mapped.state.framework.placeholderToSlave.lookup "place-holder-1" =
      some placeholderRunner.slaveId := by decide +kernel
  refine ⟨⟨hended, hkept, fun h => ?_⟩, ⟨hraised, fun h => ?_⟩, hqueued, hmapped, fun h => ?_⟩
  · have hlaunched : killed.launched = ["t"] := by decide +kernel
    have hall : ∀ t ∈ killed.launched, t ∈ killed.ended := by
      rw [hlaunched, hended]
      exact fun _ ht => ht
    exact absurd (h.removed.mpr hall) (by rw [hkept]; exact Bool.false_ne_true)
  · exact absurd (hraised.symm.trans h.quiet) Bool.true_eq_false.mp
  · exact h.forgotten (h.gone.mpr hqueued) "place-holder-1" hmapped

end CrewWatch

end Urb
