import Mathlib
import Urb.ForStd.Run
import Urb.Native.ExecutorDriver

/-!
# What an executor reports when it reconnects

When an executor is to reconnect it should report the updates that were sent and not acknowledged,
and the tasks that it runs. The updates are kept by their uuids, which are cut off at the first
zero byte: two uuids that agree up to there are taken for one, and the older update is lost. A task
is dropped only with the acknowledgement of `TASK_FINISHED`; a task that failed, was killed or was
lost is reported for ever.
-/

namespace Urb.Exec

open UrbExecutorProcess

variable {e : Event} {uuid : Bytes} {u : StatusUpdate} {taskId : String} {task : TaskInfo}

/-- The states in which a task ends. -/
def TaskStatus.isTerminal (status : TaskStatus) : Bool :=
  match status.state with
  | .finished | .failed | .killed | .lost | .error => true
  | _ => false

namespace UrbExecutorProcess

/-- The process heeds messages of the service that need a connection. -/
def hears (p : UrbExecutorProcess) : Bool := !p.aborted && p.connected

/-- The event is a task or an acknowledgement that is heeded. -/
def heeds (p : UrbExecutorProcess) : Event → Bool
  | .input (.runTask _) | .input (.statusUpdateAcknowledgement _ _) => p.hears
  | _ => false

/-- The update that the event sends. -/
def sends (p : UrbExecutorProcess) : Event → Option StatusUpdate
  | .sendStatusUpdate status uuid after =>
    if p.status = .running ∧ status.state ≠ .staging then
      some (p.statusUpdate status (cString uuid after))
    else none
  | _ => none

end UrbExecutorProcess

/-- An executor, the updates that were sent and not acknowledged, and the tasks that were received
    and for which no terminal update was acknowledged, both in their order. -/
structure ExecWatch where
  process : UrbExecutorProcess
  unacked : List StatusUpdate := []
  live : List TaskInfo := []

namespace ExecWatch

/-- An acknowledgement of the uuid is one of a terminal update for the task. -/
def ends (w : ExecWatch) (uuid : Bytes) (task : TaskInfo) : Bool :=
  w.unacked.any fun u => u.uuid = uuid && u.status.isTerminal && u.status.taskId = task.taskId

def step (w : ExecWatch) (e : Event) : ExecWatch :=
  if w.process.crashed then w
  else
    let process := w.process.step e
    match e with
    | .input (.statusUpdateAcknowledgement _ uuid) =>
      if w.process.hears then
        { process
          unacked := w.unacked.filter fun u => u.uuid ≠ uuid
          live := w.live.filter fun task => !w.ends uuid task }
      else { w with process }
    | .input (.runTask task) =>
      if w.process.hears then { w with process, live := w.live ++ [task] } else { w with process }
    | _ => { w with process, unacked := w.unacked ++ (w.process.sends e).toList }

/-- A request to reconnect would be answered with all updates that are not acknowledged. -/
def Replays (w : ExecWatch) : Prop :=
  w.process.crashed = false → w.process.aborted = false →
    ∃ tasks, w.process.reconnect.sent = w.process.sent ++
      [.reregisterExecutor w.process.frameworkId w.process.executorId w.unacked tasks]

/-- No update is sent whose uuid is taken for that of an update that is not acknowledged. -/
def Fresh (w : ExecWatch) (e : Event) : Prop :=
  w.process.crashed = false → w.process.aborted = false →
    ∀ u ∈ w.process.sends e, ∀ u' ∈ w.unacked, u'.uuid ≠ u.uuid

theorem replays_iff (w : ExecWatch) :
    w.Replays ↔ (w.process.crashed = false → w.process.aborted = false →
      w.process.updates.values = w.unacked) := by
  apply imp_congr_right
  intro _
  apply imp_congr_right
  intro haborted
  simp [reconnect, haborted, sendMessage]

end ExecWatch

namespace UrbExecutorProcess

variable {p : UrbExecutorProcess}

theorem acknowledgement_of_hears (h : p.hears = true) (taskId : String) (uuid : Bytes) :
    p.statusUpdateAcknowledgement taskId uuid =
      { p with
        updates := p.updates.erase uuid
        tasks :=
          if ((p.updates.get? uuid).getD .default).status.state = .finished then
            p.tasks.erase taskId
          else p.tasks } := by
  simp only [hears, Bool.and_eq_true, Bool.not_eq_true'] at h
  simp [statusUpdateAcknowledgement, h, LinkedHashMap.erase_index, LinkedHashMap.index_fst]

theorem acknowledgement_of_not_hears (h : p.hears = false) (taskId : String) (uuid : Bytes) :
    p.statusUpdateAcknowledgement taskId uuid = p := by
  unfold statusUpdateAcknowledgement
  split
  · rfl
  · simp_all [hears]

theorem runTask_of_hears (h : p.hears = true) (task : TaskInfo) : p.runTask task =
      if task.taskId ∈ p.tasks then { p with crashed := true }
      else { p with tasks := p.tasks.set task.taskId task }.callback (.launchTask task) := by
  simp only [hears, Bool.and_eq_true, Bool.not_eq_true'] at h
  simp [runTask, h]

theorem runTask_of_not_hears (h : p.hears = false) (task : TaskInfo) : p.runTask task = p := by
  unfold runTask
  split
  · rfl
  · simp_all [hears]

/-- Updates and tasks are left alone, and a process that is aborted stays so. -/
structure Idle (p p' : UrbExecutorProcess) : Prop where
  updates : p'.updates = p.updates
  tasks : p'.tasks = p.tasks
  crashed : p'.crashed = p.crashed
  aborted : p.aborted = true → p'.aborted = true

namespace Idle

theorem refl (p : UrbExecutorProcess) : Idle p p := ⟨rfl, rfl, rfl, id⟩

theorem abort (p : UrbExecutorProcess) : Idle p p.abort := by
  unfold UrbExecutorProcess.abort
  split
  · exact ⟨rfl, rfl, rfl, fun _ => rfl⟩
  · exact refl p

theorem onInput (p : UrbExecutorProcess) {m : Input} (h : p.heeds (.input m) = false) :
    Idle p (p.onInput m) := by
  cases m with
  | runTask task =>
    show Idle p (p.runTask task)
    rw [runTask_of_not_hears h]
    exact refl p
  | statusUpdateAcknowledgement taskId uuid =>
    show Idle p (p.statusUpdateAcknowledgement taskId uuid)
    rw [acknowledgement_of_not_hears h]
    exact refl p
  | executorRegistered =>
    dsimp only [UrbExecutorProcess.onInput, registered]
    split
    · exact refl p
    · exact ⟨rfl, rfl, rfl, id⟩
  | executorReregistered =>
    dsimp only [UrbExecutorProcess.onInput, reregistered]
    split
    · exact refl p
    · exact ⟨rfl, rfl, rfl, id⟩
  | reconnectExecutor =>
    dsimp only [UrbExecutorProcess.onInput, reconnect]
    split
    · exact refl p
    · exact ⟨rfl, rfl, rfl, id⟩
  | serviceDisconnected =>
    dsimp only [UrbExecutorProcess.onInput, reconnect]
    split
    · exact refl p
    · exact ⟨rfl, rfl, rfl, id⟩
  | killTask taskId =>
    dsimp only [UrbExecutorProcess.onInput, killTask]
    split
    · exact refl p
    · exact ⟨rfl, rfl, rfl, id⟩
  | frameworkToExecutor data =>
    dsimp only [UrbExecutorProcess.onInput, frameworkMessage]
    split
    · exact refl p
    · split
      · exact refl p
      · exact ⟨rfl, rfl, rfl, id⟩
  | shutdownExecutor =>
    dsimp only [UrbExecutorProcess.onInput, shutdown]
    split
    · exact refl p
    · exact ⟨rfl, rfl, rfl, fun _ => rfl⟩

theorem sendStatusUpdate {status : TaskStatus} {uuid : Uuid} {after : Bytes}
    (h : p.sends (.sendStatusUpdate status uuid after) = none) :
    Idle p (p.sendStatusUpdate status uuid after) := by
  simp only [sends, ite_eq_right_iff, reduceCtorEq, imp_false, not_and, not_not] at h
  unfold UrbExecutorProcess.sendStatusUpdate
  split
  · exact refl p
  · rename_i hrunning
    rw [if_pos (h (not_not.mp hrunning))]
    obtain ⟨hupdates, htasks, hcrashed, haborted⟩ := abort p
    exact ⟨hupdates, htasks, hcrashed, haborted⟩

theorem handle (hheeds : p.heeds e = false) (hsends : p.sends e = none) : Idle p (p.handle e) := by
  cases e with
  | input m => exact onInput p hheeds
  | sendStatusUpdate status uuid after => exact sendStatusUpdate hsends
  | sendFrameworkMessage data =>
    dsimp only [handle, sendFrameworkMessage]
    split
    · exact refl p
    · exact ⟨rfl, rfl, rfl, id⟩
  | stop =>
    dsimp only [handle, stop]
    split
    · exact ⟨rfl, rfl, rfl, id⟩
    · exact refl p
  | abort => exact abort p
  | registrationTimer => exact ⟨rfl, rfl, rfl, id⟩

end Idle

theorem updates_handle_of_sends (h : p.sends e = some u) :
    (p.handle e).updates = p.updates.set u.uuid u ∧ (p.handle e).tasks = p.tasks ∧
      (p.handle e).crashed = p.crashed ∧ (p.handle e).aborted = p.aborted := by
  cases e with
  | sendStatusUpdate status uuid after =>
    simp only [sends, Option.ite_none_right_eq_some, Option.some.injEq] at h
    obtain ⟨⟨hrunning, hstate⟩, rfl⟩ := h
    simp [handle, sendStatusUpdate, hrunning, hstate, sendMessage]
  | _ => cases h

/-- Updates are stored under their uuids and tasks under their ids. -/
structure Stored (p : UrbExecutorProcess) : Prop where
  updates : p.updates.Keyed (·.uuid)
  tasks : p.tasks.Keyed (·.taskId)

theorem Stored.of_idle {p' : UrbExecutorProcess} (h : p.Stored) (hidle : p.Idle p') : p'.Stored :=
  ⟨hidle.updates ▸ h.updates, hidle.tasks ▸ h.tasks⟩

theorem Stored.of_heeds (h : p.Stored) (hheeds : p.heeds e = true) : (p.handle e).Stored := by
  match e, hheeds with
  | .input (.runTask task), hheeds =>
    show (p.runTask task).Stored
    rw [runTask_of_hears hheeds]
    split
    · exact ⟨h.updates, h.tasks⟩
    · exact ⟨h.updates, h.tasks.set task⟩
  | .input (.statusUpdateAcknowledgement taskId uuid), hheeds =>
    show (p.statusUpdateAcknowledgement taskId uuid).Stored
    rw [acknowledgement_of_hears hheeds]
    refine ⟨h.updates.erase uuid, ?_⟩
    dsimp only
    split
    · exact h.tasks.erase taskId
    · exact h.tasks

theorem Stored.handle (h : p.Stored) (e : Event) : (p.handle e).Stored := by
  cases hheeds : p.heeds e with
  | true => exact h.of_heeds hheeds
  | false =>
    cases hsends : p.sends e with
    | none => exact h.of_idle (.handle hheeds hsends)
    | some u =>
      obtain ⟨hupdates, htasks, _⟩ := updates_handle_of_sends hsends
      refine ⟨?_, htasks ▸ h.tasks⟩
      rw [hupdates]
      exact h.updates.set u

end UrbExecutorProcess

namespace ExecWatch

variable {w : ExecWatch}

theorem step_of_not_heeds (hcrashed : w.process.crashed = false)
    (hheeds : w.process.heeds e = false) :
    w.step e =
      { w with
        process := w.process.handle e
        unacked := w.unacked ++ (w.process.sends e).toList } := by
  have hstep : w.process.step e = w.process.handle e := by
    simp [UrbExecutorProcess.step, hcrashed]
  unfold step
  rw [hcrashed, hstep]
  cases e with
  | input m =>
    cases m with
    | runTask task =>
      have hhears : w.process.hears = false := hheeds
      simp [hhears, UrbExecutorProcess.sends]
    | statusUpdateAcknowledgement taskId uuid =>
      have hhears : w.process.hears = false := hheeds
      simp [hhears, UrbExecutorProcess.sends]
    | _ => rfl
  | _ => rfl

theorem step_acknowledgement
    (hcrashed : w.process.crashed = false) (hhears : w.process.hears = true) :
    w.step (.input (.statusUpdateAcknowledgement taskId uuid)) =
      { process := w.process.statusUpdateAcknowledgement taskId uuid
        unacked := w.unacked.filter fun u => u.uuid ≠ uuid
        live := w.live.filter fun task => !w.ends uuid task } := by
  simp [step, hcrashed, hhears, UrbExecutorProcess.step, UrbExecutorProcess.handle,
    UrbExecutorProcess.onInput]

theorem step_runTask (hcrashed : w.process.crashed = false) (hhears : w.process.hears = true) :
    w.step (.input (.runTask task)) =
      { w with process := w.process.runTask task, live := w.live ++ [task] } := by
  simp [step, hcrashed, hhears, UrbExecutorProcess.step, UrbExecutorProcess.handle,
    UrbExecutorProcess.onInput]

theorem step_process (w : ExecWatch) (e : Event) : (w.step e).process = w.process.step e := by
  unfold step
  split
  · simp_all [UrbExecutorProcess.step]
  · dsimp only
    split
    · split <;> rfl
    · split <;> rfl
    · rfl

theorem stored_step (h : w.process.Stored) (e : Event) : (w.step e).process.Stored := by
  rw [step_process]
  unfold UrbExecutorProcess.step
  split
  · exact h
  · exact h.handle e

/-! ## Updates -/

theorem replays_step_of_heeds (hcrashed : w.process.crashed = false)
    (hstored : w.process.Stored) (h : w.Replays) (hheeds : w.process.heeds e = true) :
    (w.step e).Replays := by
  rw [replays_iff] at h ⊢
  have haborted : w.process.aborted = false := by
    match e, hheeds with
    | .input (.runTask _), hheeds | .input (.statusUpdateAcknowledgement _ _), hheeds =>
      simp only [heeds, hears, Bool.and_eq_true,
        Bool.not_eq_true'] at hheeds
      exact hheeds.1
  have hvalues := h hcrashed haborted
  intro _ _
  match e, hheeds with
  | .input (.runTask task), hheeds =>
    rw [step_runTask hcrashed hheeds, runTask_of_hears hheeds]
    dsimp only
    split
    · exact hvalues
    · exact hvalues
  | .input (.statusUpdateAcknowledgement taskId uuid), hheeds =>
    rw [step_acknowledgement hcrashed hheeds, acknowledgement_of_hears hheeds]
    dsimp only
    rw [hstored.updates.values_erase, hvalues]

theorem replays_sends_iff (hcrashed : w.process.crashed = false)
    (hstored : w.process.Stored) (h : w.Replays) (hheeds : w.process.heeds e = false)
    (hsends : w.process.sends e = some u) : (w.step e).Replays ↔ w.Fresh e := by
  obtain ⟨hupdates, _, hcrashed', haborted'⟩ :=
    updates_handle_of_sends hsends
  rw [replays_iff] at h ⊢
  rw [step_of_not_heeds hcrashed hheeds, hsends]
  simp only [Fresh, hupdates, hcrashed', haborted', hcrashed, hsends, true_implies,
    Option.toList_some, Option.mem_def, Option.some.injEq, forall_eq']
  apply imp_congr_right
  intro haborted
  have hvalues := h hcrashed haborted
  by_cases hmem : u.uuid ∈ w.process.updates
  · -- the update takes the place of another one
    apply iff_of_false
    · intro hset
      have hlength := congrArg List.length hset
      rw [LinkedHashMap.length_values_set_of_mem hmem, hvalues] at hlength
      simp at hlength
    · intro hfresh
      obtain ⟨u', hu', heq⟩ := hstored.updates.mem_iff.mp hmem
      exact hfresh u' (hvalues ▸ hu') heq
  · apply iff_of_true
    · rw [LinkedHashMap.values_set_of_notMem hmem, hvalues]
    · intro u' hu' heq
      exact hmem (hstored.updates.mem_iff.mpr ⟨u', hvalues.symm ▸ hu', heq⟩)

theorem replays_step_iff (w : ExecWatch) (e : Event) (hstored : w.process.Stored) (h : w.Replays) :
    (w.step e).Replays ↔ w.Fresh e := by
  cases hcrashed : w.process.crashed with
  | true =>
    have hstep : w.step e = w := by simp [step, hcrashed]
    rw [hstep]
    exact iff_of_true h fun hrunning => absurd (hcrashed.symm.trans hrunning) nofun
  | false =>
    cases hheeds : w.process.heeds e with
    | true =>
      apply iff_of_true (replays_step_of_heeds hcrashed hstored h hheeds)
      intro _ _ u hu
      match e, hheeds with
      | .input (.runTask _), _ | .input (.statusUpdateAcknowledgement _ _), _ => cases hu
    | false =>
      cases hsends : w.process.sends e with
      | some u => exact replays_sends_iff hcrashed hstored h hheeds hsends
      | none =>
        have hidle := Idle.handle hheeds hsends
        apply iff_of_true
        · rw [replays_iff] at h ⊢
          rw [step_of_not_heeds hcrashed hheeds, hsends]
          intro _ haborted
          have hnot : w.process.aborted = false := by
            by_contra habort
            have := hidle.aborted (by simpa using habort)
            exact absurd (this.symm.trans haborted) nofun
          simpa [hidle.updates] using h hcrashed hnot
        · intro _ _ u hu
          rw [hsends] at hu
          cases hu

/-- In a run of an executor, every request to reconnect would be answered with exactly the updates
    that were sent and not acknowledged, each once and in their order, exactly if no update is sent
    with a uuid that is taken for that of another one. -/
theorem updates_replayed_iff (frameworkId executorId slaveId : String) (events : List Event) :
    Run.Meets step (fun w e => (w.step e).Replays)
        { process := { frameworkId, executorId, slaveId } } events ↔
      Run.Meets step Fresh { process := { frameworkId, executorId, slaveId } } events := by
  have hinv : ∀ w e, (fun w : ExecWatch => w.process.Stored) w →
      (fun w : ExecWatch => w.process.Stored) (step w e) := fun w e h => stored_step h e
  have hstep : ∀ w e, (fun w : ExecWatch => w.process.Stored) w → Replays w →
      (Replays (step w e) ↔ Fresh w e) := fun w e => replays_step_iff w e
  exact Run.meets_iff hinv hstep ⟨.empty, .empty⟩ ((replays_iff _).mpr fun _ _ => rfl)

/-- Two uuids that differ in their last byte only and begin with a zero byte. -/
theorem updates_lost :
    let uuid (n : UInt8) : Uuid := (Vector.replicate 16 0).set 15 n
    let w := [.sendStatusUpdate { taskId := "a", state := .running } (uuid 1) [],
      .sendStatusUpdate { taskId := "b", state := .running } (uuid 2) []].foldl step
      { process := { frameworkId := "framework", executorId := "executor", slaveId := "slave" } }
    uuid 1 ≠ uuid 2 ∧ w.unacked.map (·.status.taskId) = ["a", "b"] ∧
      w.process.updates.values.map (·.status.taskId) = ["b"] ∧ ¬w.Replays := by
  intro uuid w
  have hvalues : w.process.updates.values.map (·.status.taskId) = ["b"] := by decide
  have hunacked : w.unacked.map (·.status.taskId) = ["a", "b"] := by decide
  refine ⟨by decide, hunacked, hvalues, ?_⟩
  rw [replays_iff]
  intro h
  rw [h (by decide) (by decide), hunacked] at hvalues
  exact absurd hvalues (by decide)

/-! ## Tasks -/

/-- The tasks are those that were received and did not end. These would be reported by a request to
    reconnect, and a task that is none of them can be run. -/
def Reports (w : ExecWatch) : Prop :=
  w.process.crashed = false →
    w.process.tasks.values = w.live ∧
      (w.process.aborted = false →
        ∃ updates, w.process.reconnect.sent = w.process.sent ++
          [.reregisterExecutor w.process.frameworkId w.process.executorId updates w.live]) ∧
      ∀ task : TaskInfo, (∀ t ∈ w.live, t.taskId ≠ task.taskId) →
        (w.process.runTask task).crashed = false

/-- If the update that is acknowledged is terminal, it is one of `TASK_FINISHED` and the
    acknowledgement names its task, or there is no task to be dropped. -/
def EndsFinished (w : ExecWatch) : Event → Prop
  | .input (.statusUpdateAcknowledgement taskId uuid) =>
    w.process.crashed = false → w.process.hears = true →
      ∀ u ∈ w.unacked, u.uuid = uuid → u.status.isTerminal = true →
        (u.status.state = .finished ∧ u.status.taskId = taskId) ∨
          (u.status.taskId ∉ w.process.tasks ∧
            (u.status.state = .finished → taskId ∉ w.process.tasks))
  | _ => True

theorem reports_iff (hstored : w.process.Stored) :
    w.Reports ↔ (w.process.crashed = false → w.process.tasks.values = w.live) := by
  apply imp_congr_right
  intro hcrashed
  constructor
  · exact And.left
  · intro hvalues
    refine ⟨hvalues, ?_, ?_⟩
    · intro haborted
      simp [reconnect, haborted, sendMessage, hvalues]
    · intro task hnone
      cases hhears : w.process.hears with
      | false => rw [runTask_of_not_hears hhears, hcrashed]
      | true =>
        have hnew : task.taskId ∉ w.process.tasks := by
          intro hmem
          obtain ⟨t, ht, heq⟩ := hstored.tasks.mem_iff.mp hmem
          exact hnone t (hvalues ▸ ht) heq
        rw [runTask_of_hears hhears, if_neg hnew]
        exact hcrashed

theorem ends_eq (hstored : w.process.Stored)
    (hvalues : w.process.updates.values = w.unacked) (task : TaskInfo) :
    w.ends uuid task = (w.process.updates.get? uuid).any fun u =>
      u.status.isTerminal && u.status.taskId = task.taskId := by
  rw [Bool.eq_iff_iff]
  simp only [ends, List.any_eq_true, Option.any_eq_true, Bool.and_eq_true, decide_eq_true_eq,
    hstored.updates.get?_eq_some_iff, hvalues, and_assoc]

theorem values_acknowledgement_iff (hstored : w.process.Stored)
    (hupdates : w.process.updates.values = w.unacked)
    (htasks : w.process.tasks.values = w.live) (hcrashed : w.process.crashed = false)
    (hhears : w.process.hears = true) :
    (w.process.statusUpdateAcknowledgement taskId uuid).tasks.values =
        (w.live.filter fun task => !w.ends uuid task) ↔
      w.EndsFinished (.input (.statusUpdateAcknowledgement taskId uuid)) := by
  simp only [ends_eq hstored hupdates, EndsFinished, hcrashed, hhears, true_implies]
  rw [acknowledgement_of_hears hhears]
  dsimp only
  have hknown : ∀ u, w.process.updates.get? uuid = some u ↔ u ∈ w.unacked ∧ u.uuid = uuid := by
    intro u
    rw [hstored.updates.get?_eq_some_iff, hupdates]
  cases hget : w.process.updates.get? uuid with
  | none =>
    apply iff_of_true
    · simp [StatusUpdate.default, htasks]
    · intro u hu huuid
      exact absurd (hget.symm.trans ((hknown u).mpr ⟨hu, huuid⟩)) nofun
  | some u =>
    have hu := (hknown u).mp hget
    -- no other update has the uuid
    have honly : ∀ u' ∈ w.unacked, u'.uuid = uuid → u' = u := by
      intro u' hu' huuid
      exact Option.some.inj (((hknown u').mpr ⟨hu', huuid⟩).symm.trans hget)
    have hforall : ∀ P : StatusUpdate → Prop,
        (∀ u' ∈ w.unacked, u'.uuid = uuid → P u') ↔ P u := fun P =>
      ⟨fun h => h u hu.1 hu.2, fun h u' hu' huuid => honly u' hu' huuid ▸ h⟩
    rw [hforall, Option.getD_some]
    simp only [Option.any_some]
    cases hterminal : u.status.isTerminal with
    | false =>
      have hstate : u.status.state ≠ .finished := by
        intro heq
        simp [TaskStatus.isTerminal, heq] at hterminal
      simp [hstate, htasks]
    | true =>
      have hlive : (w.live.filter fun task => !(true && decide (u.status.taskId = task.taskId))) =
          (w.process.tasks.erase u.status.taskId).values := by
        rw [hstored.tasks.values_erase, htasks]
        apply List.filter_congr
        intro task _
        simp [eq_comm]
      rw [hlive]
      by_cases hstate : u.status.state = .finished
      · rw [if_pos hstate, hstored.tasks.values_erase_eq_iff]
        simp [hstate, eq_comm, and_comm]
      · rw [if_neg hstate, eq_comm, hstored.tasks.values_erase_eq_self_iff]
        simp [hstate]

theorem values_runTask (htasks : w.process.tasks.values = w.live)
    (hhears : w.process.hears = true) (hcrashed : (w.process.runTask task).crashed = false) :
    (w.process.runTask task).tasks.values = w.live ++ [task] := by
  rw [runTask_of_hears hhears] at hcrashed ⊢
  split at hcrashed
  · cases hcrashed
  · rename_i hnew
    rw [if_neg hnew]
    show (w.process.tasks.set task.taskId task).values = _
    rw [LinkedHashMap.values_set_of_notMem hnew, htasks]

theorem tasks_handle_of_not_heeds (hheeds : w.process.heeds e = false) :
    (w.process.handle e).tasks = w.process.tasks ∧
      (w.process.handle e).crashed = w.process.crashed := by
  cases hsends : w.process.sends e with
  | none =>
    have hidle := Idle.handle hheeds hsends
    exact ⟨hidle.tasks, hidle.crashed⟩
  | some u =>
    obtain ⟨_, htasks, hcrashed, _⟩ := updates_handle_of_sends hsends
    exact ⟨htasks, hcrashed⟩

theorem endsFinished_of_not_heeds (h : w.process.heeds e = false) : w.EndsFinished e := by
  unfold EndsFinished
  split
  · intro _ hhears
    exact absurd (hhears.symm.trans h) nofun
  · trivial

theorem reports_step_iff (w : ExecWatch) (e : Event) (hstored : w.process.Stored)
    (hreplays : w.Replays) (h : w.Reports) : (w.step e).Reports ↔ w.EndsFinished e := by
  rw [reports_iff (stored_step hstored e)]
  rw [reports_iff hstored] at h
  cases hcrashed : w.process.crashed with
  | true =>
    have hstep : w.step e = w := by simp [step, hcrashed]
    rw [hstep]
    apply iff_of_true h
    unfold EndsFinished
    split
    · exact fun hrunning => absurd (hcrashed.symm.trans hrunning) nofun
    · trivial
  | false =>
    have htasks := h hcrashed
    cases hheeds : w.process.heeds e with
    | false =>
      apply iff_of_true _ (endsFinished_of_not_heeds hheeds)
      rw [step_of_not_heeds hcrashed hheeds]
      intro _
      show (w.process.handle e).tasks.values = w.live
      rw [(tasks_handle_of_not_heeds hheeds).1, htasks]
    | true =>
      match e, hheeds with
      | .input (.runTask task), hhears =>
        rw [step_runTask hcrashed hhears]
        exact iff_of_true (values_runTask htasks hhears) trivial
      | .input (.statusUpdateAcknowledgement taskId uuid), hhears =>
        have haborted : w.process.aborted = false := by
          simp only [heeds, hears, Bool.and_eq_true,
            Bool.not_eq_true'] at hhears
          exact hhears.1
        have hupdates := (replays_iff w).mp hreplays hcrashed haborted
        have hafter : (w.process.statusUpdateAcknowledgement taskId uuid).crashed = false := by
          rw [acknowledgement_of_hears hhears]
          exact hcrashed
        rw [step_acknowledgement hcrashed hhears]
        simp only [hafter, true_implies]
        exact values_acknowledgement_iff hstored hupdates htasks hcrashed hhears

/-- In a run of an executor in which no uuid is taken for that of another update, the tasks are
    always those that were received and did not end, exactly if every task that ends does so with
    `TASK_FINISHED`. -/
theorem tasks_dropped_iff (frameworkId executorId slaveId : String) (events : List Event)
    (hfresh : Run.Meets step Fresh { process := { frameworkId, executorId, slaveId } } events) :
    Run.Meets step (fun w e => (w.step e).Reports)
        { process := { frameworkId, executorId, slaveId } } events ↔
      Run.Meets step EndsFinished { process := { frameworkId, executorId, slaveId } } events := by
  have hinv : ∀ w e, (fun w : ExecWatch => w.process.Stored ∧ w.Replays) w → Fresh w e →
      (fun w : ExecWatch => w.process.Stored ∧ w.Replays) (step w e) := fun w e h hfresh =>
    ⟨stored_step h.1 e, (replays_step_iff w e h.1 h.2).mpr hfresh⟩
  have hstep : ∀ w e, (fun w : ExecWatch => w.process.Stored ∧ w.Replays) w → Fresh w e →
      Reports w → (Reports (step w e) ↔ EndsFinished w e) := fun w e h _ =>
    reports_step_iff w e h.1 h.2
  have hstored : Stored { frameworkId, executorId, slaveId } := ⟨.empty, .empty⟩
  exact Run.meets_iff_of hinv hstep ⟨hstored, (replays_iff _).mpr fun _ _ => rfl⟩
    ((reports_iff hstored).mpr fun _ => rfl) hfresh

instance (w : ExecWatch) (e : Event) : Decidable (w.Fresh e) := by
  unfold Fresh
  infer_instance

instance (w : ExecWatch) (e : Event) : Decidable (w.EndsFinished e) := by
  unfold EndsFinished
  split <;> infer_instance

/-- A task that finishes, and is run again. -/
theorem tasks_dropped_finished :
    let uuid : Uuid := Vector.replicate 16 7
    let task : TaskInfo := { taskId := "task" }
    Run.Meets step (fun w e => (w.step e).Reports)
      { process := { frameworkId := "framework", executorId := "executor", slaveId := "slave" } }
      [.input .executorRegistered, .input (.runTask task),
        .sendStatusUpdate { taskId := "task", state := .finished } uuid [0],
        .input (.statusUpdateAcknowledgement "task" (cString uuid [0])),
        .input (.runTask task)] := by
  intro uuid task
  exact (tasks_dropped_iff "framework" "executor" "slave" _ (by decide)).mpr (by decide)

/-- A task that fails is reported for ever, and cannot be run again. -/
theorem failed_task_kept :
    let uuid : Uuid := Vector.replicate 16 7
    let task : TaskInfo := { taskId := "task" }
    let events : List Event := [.input .executorRegistered, .input (.runTask task),
      .sendStatusUpdate { taskId := "task", state := .failed } uuid [0],
      .input (.statusUpdateAcknowledgement "task" (cString uuid [0]))]
    let start : ExecWatch :=
      { process := { frameworkId := "framework", executorId := "executor", slaveId := "slave" } }
    let w := events.foldl step start
    Run.Meets step Fresh start events ∧ w.process.crashed = false ∧ w.live = [] ∧
      w.process.tasks.values = [task] ∧
      w.process.reconnect.sent.getLast? =
        some (.reregisterExecutor "framework" "executor" [] [task]) ∧
      (w.step (.input (.runTask task))).process.crashed = true := by
  decide

end ExecWatch

end Urb.Exec
