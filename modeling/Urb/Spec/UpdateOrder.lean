import Mathlib
import Urb.Native.Entry

/-!
# The order of replayed updates

`reregister_executor` sorts the unacknowledged updates by the negated second and the name of the
state, in reverse. Within a second the names put the states of a task that has not ended in front
of the states in which it has ended.
-/

namespace Urb

/-- `int(timestamp)` -/
def wholeSeconds (timestamp : ℚ) : Int := if timestamp < 0 then ⌈timestamp⌉ else ⌊timestamp⌋

theorem wholeSeconds_mono : Monotone wholeSeconds := by
  intro a b hab
  unfold wholeSeconds
  split
  · split
    · exact Int.ceil_mono hab
    · -- a negative time is cut to zero at most
      have ha : ⌈a⌉ ≤ 0 := Int.ceil_le.mpr (by push_cast; linarith)
      have hb : 0 ≤ ⌊b⌋ := Int.floor_nonneg.mpr (by linarith)
      omega
  · rw [if_neg (by linarith)]
    exact Int.floor_mono hab

/-- The states of a task that has not ended, as an executor sends them. -/
def TaskState.ongoing : TaskState → Bool
  | .staging | .starting | .running => true
  | _ => false

/-- The updates of each task were sent in this order, with these timestamps: it had not ended until
    the last one. -/
structure SentInOrder (sent : List (StatusUpdate × ℚ)) : Prop where
  state : ∀ a ∈ sent, a.1.state.ongoing = true ∨ a.1.state.terminal = true
  timestamp : ∀ a ∈ sent, a.1.timestamp = wholeSeconds a.2
  ordered : sent.Pairwise fun a b =>
    a.1.taskId = b.1.taskId → a.2 ≤ b.2 ∧ a.1.state.ongoing = true

namespace StatusUpdate

variable {a b : StatusUpdate}

instance : IsTrans StatusUpdate before where
  trans a b c hab hbc := by
    rcases hab with hab | ⟨hab, hname⟩
    · rcases hbc with hbc | ⟨hbc, -⟩
      · exact .inl (hab.trans hbc)
      · exact .inl (hbc ▸ hab)
    · rcases hbc with hbc | ⟨hbc, hname'⟩
      · exact .inl (hab ▸ hbc)
      · exact .inr ⟨hab.trans hbc, hname'.trans hname⟩

instance : Std.Total before where
  total a b := by
    unfold before
    have hname := le_total a.state.name b.state.name
    have htime := lt_trichotomy a.timestamp b.timestamp
    tauto

/-- A task has not ended before the state in which it ends, by the names of the states. -/
theorem not_name_le {x y : TaskState} (hx : x.ongoing = true) (hy : y.terminal = true) :
    ¬x.name ≤ y.name := by
  cases x <;> cases hx <;> cases y <;> cases hy <;> decide +kernel

/-- The update that ends a task does not come before an earlier one of the task. -/
theorem not_before (ha : a.state.terminal = true) (hb : b.state.ongoing = true)
    (htime : b.timestamp ≤ a.timestamp) : ¬a.before b := by
  rintro (hlt | ⟨-, hname⟩)
  · omega
  · exact not_name_le hb ha hname

end StatusUpdate

/-- `reregister_executor`, once it has found the slave, passes these updates to
    `handle_status_update`, in this order. -/
def Replays (env : Env) (m : ReregisterExecutorMessage) (replayed : List StatusUpdate) : Prop :=
  ∀ s slaveId jobId, s.tracking = .active → s.framework.slaveOnChannel m.replyTo = some slaveId →
    NamingUtility.getJobIdFromSlaveId slaveId = some jobId →
    reregisterExecutor env m s = (do
      modifyFramework (·.modifySlave slaveId ({ · with executorChannel := some m.channel }))
      reregisterTasks env slaveId jobId m.channel m.tasks
      replayed.forM (handleStatusUpdate env)
      emit (.executorReregistered m.channel)
      modifyFramework (·.modifySlave slaveId ({ · with offerable := true })) : Handler Unit) s

theorem replays_sortedUpdates (env : Env) (m : ReregisterExecutorMessage) :
    Replays env m (sortedUpdates m.updates) := by
  have hloop : ∀ updates, handleUpdates env updates = updates.forM (handleStatusUpdate env) := by
    intro updates
    induction updates with
    | nil => rfl
    | cons u rest ih =>
      rw [handleUpdates, ih]
      rfl
  intro s slaveId jobId hactive hslave hjob
  simp only [reregisterExecutor, EStateM.bind_apply, EStateM.get_apply, hactive, if_true, hslave,
    hjob, hloop]

/-- The updates of a message that lists them in any order are handled so that the seconds do not
    decrease, none of a task after the one that ends it, and each of them once. -/
theorem replay_in_order (env : Env) (m : ReregisterExecutorMessage)
    (sent : List (StatusUpdate × ℚ)) (hsent : SentInOrder sent)
    (hlisted : m.updates.Perm (sent.map Prod.fst)) :
    ∃ replayed, Replays env m replayed ∧ replayed.Perm m.updates ∧
      replayed.Pairwise (fun a b => a.timestamp ≤ b.timestamp) ∧
      replayed.Pairwise fun a b => a.taskId = b.taskId → a.state.terminal = false := by
  -- of two updates of a task one was sent first, and the task had not ended then
  let R : StatusUpdate → StatusUpdate → Prop := fun a b => a.taskId = b.taskId →
    (a.timestamp ≤ b.timestamp ∧ a.state.ongoing = true) ∨
      (b.timestamp ≤ a.timestamp ∧ b.state.ongoing = true)
  have hR : (sent.map Prod.fst).Pairwise R := by
    rw [List.pairwise_map]
    refine hsent.ordered.imp_of_mem fun {a b} ha hb hab htask => .inl ?_
    obtain ⟨htime, hongoing⟩ := hab htask
    rw [hsent.timestamp a ha, hsent.timestamp b hb]
    exact ⟨wholeSeconds_mono htime, hongoing⟩
  have hperm : (sortedUpdates m.updates).Perm m.updates := List.perm_insertionSort _ _
  have hR' : (sortedUpdates m.updates).Pairwise R := by
    refine ((hperm.trans hlisted).pairwise_iff ?_).mpr hR
    exact fun {a b} h htask => (h htask.symm).symm
  have hsorted : (sortedUpdates m.updates).Pairwise StatusUpdate.before :=
    List.pairwise_insertionSort _ _
  refine ⟨_, replays_sortedUpdates env m, hperm, ?_, ?_⟩
  · refine hsorted.imp fun h => ?_
    rcases h with hlt | ⟨heq, -⟩
    · exact hlt.le
    · exact heq.le
  · refine (hsorted.and hR').imp fun {a b} h htask => ?_
    rcases h.2 htask with ⟨-, hongoing⟩ | ⟨htime, hongoing⟩
    · cases hstate : a.state <;> rw [hstate] at hongoing <;> first | rfl | cases hongoing
    · by_contra hterminal
      exact StatusUpdate.not_before (by simpa using hterminal) hongoing htime h.1

/-- A task that starts, runs and fails within one second. -/
theorem replay_in_order_second :
    let update (state : TaskState) : StatusUpdate := { taskId := "t", state, timestamp := 7 }
    let m : ReregisterExecutorMessage :=
      { replyTo := "", channel := "",
        updates := [update .failed, update .running, update .starting] }
    ∃ replayed, Replays Sample.env m replayed ∧ replayed.Perm m.updates ∧
      replayed.Pairwise (fun a b => a.timestamp ≤ b.timestamp) ∧
      replayed.Pairwise fun a b => a.taskId = b.taskId → a.state.terminal = false := by
  intro update m
  refine replay_in_order Sample.env m
    [(update .starting, 7), (update .running, 15 / 2), (update .failed, 15 / 2)]
    ⟨?_, ?_, ?_⟩ (by decide)
  · decide
  · simp [update, wholeSeconds]
    norm_num
  · simp [update, TaskState.ongoing]
    norm_num

end Urb
