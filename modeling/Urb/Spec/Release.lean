import Urb.Spec.Stable

/-!
# The handlers that give resources back

`kill_task` and `handle_status_update` change little before they credit a task: the
record of the task and the log. The rules here reduce a property of the two handlers
to what holds when nothing is credited, and to the credit itself.
-/

namespace Urb

variable {u : StatusUpdate} {taskId : String} {s s1 : State} {task : TaskRecord} {f : Framework}

open EStateM (Triple bind_apply get_apply modify_apply)

theorem Framework.resolveSlave_modifyTask (f : Framework) (taskId slaveId : String)
    (g : TaskRecord → TaskRecord) :
    (f.modifyTask taskId g).resolveSlave slaveId = f.resolveSlave slaveId := by
  have hp : (f.modifyTask taskId g).placeholderToSlave = f.placeholderToSlave := by
    unfold Framework.modifyTask; split <;> rfl
  simp only [Framework.resolveSlave, Framework.slaves_modifyTask, hp]

theorem Framework.resolveSlave_mem {slaveId k : String}
    (h : f.resolveSlave slaveId = some k) : ∃ x, f.slaves.lookup k = some x := by
  have hmem : k ∈ f.slaves := by
    unfold Framework.resolveSlave at h
    split at h
    · rename_i hin; exact Option.some.inj h ▸ hin
    · split at h
      · split at h
        · split at h
          · rename_i hin; exact Option.some.inj h ▸ hin
          · simp at h
        · simp at h
      · simp at h
  exact Option.isSome_iff_exists.mp (AList.lookup_isSome.mpr hmem)

theorem sendStatusUpdate_spec (taskId : String) (state : TaskState) (slaveId : Option String)
    (s : State) (E : State → Prop) :
    Triple (· = s) (sendStatusUpdate taskId state slaveId)
      (fun _ s' => s'.framework = s.framework ∧ s'.deleteElements = s.deleteElements ∧
        SameBooks s s') E := by
  refine .get_bind fun s' hs' => ?_
  subst hs'
  refine .ite (fun _ => .pure fun s1 h1 => ?_) fun _ => .modify fun s1 h1 => ?_
  · subst h1; exact ⟨rfl, rfl, .refl _⟩
  · subst h1; exact ⟨rfl, rfl, (Silently.emit (.statusUpdate _ _ _ _) rfl).sameBooks s1⟩

/-! ## Killing a task -/

/-- The state in which `__kill_task` looks for the slave of the task. -/
structure Killed (taskId : String) (s s' : State) : Prop where
  books : SameBooks s s'
  pending : ⟨.tasks, taskId⟩ ∈ s'.deleteElements
  slaves : s'.framework.slaves = s.framework.slaves
  resolve : ∀ k, s'.framework.resolveSlave k = s.framework.resolveSlave k

variable {env : Env} {Q E : State → Prop}

theorem Quietly.rest {α : Type} {m : Handler α} (hm : Quietly m)
    (hQ : ∀ s s', SameBooks s s' → Q s → Q s') (hQE : ∀ s, Q s → E s) :
    Triple Q m (fun _ => Q) E :=
  (hm.keeps hQ).weaken (fun _ h => h) (fun _ _ h => h) hQE

/-- `__kill_task` on a known task keeps what the same books share, provided that the credit
    does. -/
theorem killKnownTask_spec (hQ : ∀ s s', SameBooks s s' → Q s → Q s') (hs : Q s)
    (hcredit : ∀ k x s1, task.taskInfo.killSlave.bind s.framework.resolveSlave = some k →
      s.framework.slaves.lookup k = some x → x.isCommandExecutor = false → Killed taskId s s1 →
      Q ((creditSlave env k task.taskInfo).after s1)) :
    Triple (· = s) (killKnownTask env taskId task) (fun _ => Q) Q := by
  refine .get_bind fun s' hs' => ?_
  subst hs'
  -- until the slave is looked up, only the record, the queue and the log change
  refine .bind (R := fun _ s1 => ∃ g : TaskRecord → TaskRecord, (∀ r, (g r).bill = r.bill) ∧
    s1 = { s' with framework := s'.framework.modifyTask taskId g }) (.modify fun s1 h1 => ?_)
    fun _ => ?_
  · subst h1; exact ⟨_, fun _ => by rfl, rfl⟩
  refine .bind (R := fun _ s1 => Killed taskId s' s1) (.modify fun s1 h1 => ?_) fun _ => ?_
  · obtain ⟨g, hg, rfl⟩ := h1
    exact ⟨(Silent.modifyTask s' taskId g hg).sameBooks.trans (Silent.delete _ _ _).sameBooks,
      by simp, by simp, fun k => Framework.resolveSlave_modifyTask _ _ _ _⟩
  refine .bind (R := fun _ s1 => Killed taskId s' s1) (fun s1 h1 => ?_) fun _ => ?_
  · refine (sendStatusUpdate_spec _ _ _ s1 Q).weaken (fun _ h => h) (fun _ s2 h2 => ?_)
      (fun _ h => h) s1 rfl
    obtain ⟨hf, hd, hb⟩ := h2
    exact ⟨h1.books.trans hb, by rw [hd]; exact h1.pending, by rw [hf]; exact h1.slaves,
      fun k => by rw [hf]; exact h1.resolve k⟩
  refine .get_bind fun s1 h1 => ?_
  dsimp only
  rw [show s1.framework.resolveSlave = s'.framework.resolveSlave from funext h1.resolve]
  have hs1 : Q s1 := hQ _ _ h1.books hs
  split
  · rename_i k hk
    refine .bind (R := fun _ => Q) ?_ fun _ => ?_
    · refine .get_bind fun s2 h2 => ?_
      subst h2
      refine .bind (orRaise_spec _ _ _ |>.weaken (fun _ h => h) (fun _ _ h => h)
        fun s3 h3 => h3.2 ▸ hs1) fun x => .ite (fun _ => .pure fun s3 h3 => h3.2 ▸ hs1) fun hx => ?_
      refine Triple.of_after fun s3 h3 => ?_
      obtain ⟨hlookup, rfl⟩ := h3
      rw [h1.slaves] at hlookup
      exact hcredit k x s3 hk hlookup (by simpa using hx) h1
    · exact Quietly.rest (.bind (Mutely.sendKillTask _ _).silently.quietly fun _ =>
        .ite (.bind Mutely.setOfferEvent.silently.quietly fun _ => .pure _)
          (.pure _)) hQ fun _ h => h
  · have hrest : Quietly (do deletePendingJob task; setOfferEvent; pure true) :=
      .bind (Mutely.deletePendingJob _).silently.quietly fun _ =>
        .bind Mutely.setOfferEvent.silently.quietly fun _ => .pure _
    exact (hrest.rest hQ fun _ h => h).weaken (fun s2 h2 => h2 ▸ hs1) (fun _ _ h => h) fun _ h => h

theorem killTask_spec {entry : Entry} (hQ : ∀ s s', SameBooks s s' → Q s → Q s') (hs : Q s)
    (hcredit : ∀ task k x s1, s.tracking = .active → s.framework.tasks.lookup taskId = some task →
      task.taskInfo.killSlave.bind s.framework.resolveSlave = some k →
      s.framework.slaves.lookup k = some x → x.isCommandExecutor = false → Killed taskId s s1 →
      Q ((creditSlave env k task.taskInfo).after s1)) :
    Triple (· = s) (killTask env entry taskId) (fun _ => Q) Q := by
  have hretry : Triple Q (retry entry (.killTask taskId)) (fun _ => Q) Q :=
    (Silently.retry _ _).quietly.rest hQ fun _ h => h
  refine .get_bind fun s' hs' => ?_
  subst hs'
  refine .ite (fun hactive => ?_) fun _ =>
    hretry.weaken (fun s1 h1 => h1 ▸ hs) (fun _ _ h => h) fun _ h => h
  refine .bind (R := fun _ => Q) ?_ fun done => .ite (fun _ => .pure fun _ h => h) fun _ => hretry
  refine .get_bind fun s1 h1 => ?_
  subst h1
  dsimp only
  split
  · rename_i task htask
    exact killKnownTask_spec hQ hs fun k x s2 => hcredit task k x s2 hactive htask
  · exact .pure fun s2 h2 => h2 ▸ hs

/-! ## Status updates -/

/-- The state in which `handle_status_update` decides what to do: the record of the task
    has the new state. -/
structure Updated (u : StatusUpdate) (s s' : State) : Prop where
  books : SameBooks s s'
  pending : s'.deleteElements = s.deleteElements
  framework : s'.framework = s.framework.modifyTask u.taskId (recordState u s.clock)

theorem Updated.slaves {s' : State} (h : Updated u s s') :
    s'.framework.slaves = s.framework.slaves := by
  rw [h.framework, Framework.slaves_modifyTask]

theorem modifyTask_of_missing (h : f.tasks.lookup taskId = none) (g : TaskRecord → TaskRecord) :
    f.modifyTask taskId g = f := by
  simp only [Framework.modifyTask, h]

theorem sendStatusUpdate_ok (taskId : String) (state : TaskState) (slaveId : Option String)
    (s : State) :
    ∃ s', sendStatusUpdate taskId state slaveId s = .ok () s' ∧ s'.framework = s.framework ∧
      s'.deleteElements = s.deleteElements ∧ SameBooks s s' := by
  have h := sendStatusUpdate_spec taskId state slaveId s (fun _ => False) s rfl
  cases hrun : sendStatusUpdate taskId state slaveId s with
  | ok a s' => rw [hrun] at h; exact ⟨s', rfl, h⟩
  | error e s' => rw [hrun] at h; exact h.elim

theorem Updated.sendStatusUpdate (h : Updated u s s1) (slaveId : Option String) :
    ∃ s2, sendStatusUpdate u.taskId u.state slaveId s1 = .ok () s2 ∧ Updated u s s2 := by
  obtain ⟨s2, hrun, hf, hd, hb⟩ := sendStatusUpdate_ok u.taskId u.state slaveId s1
  exact ⟨s2, hrun, h.books.trans hb, hd.trans h.pending, hf.trans h.framework⟩

/-- The slave on which an update releases its task: the update says that the task finished
    or failed, and names a slave that is there. -/
structure Releases (u : StatusUpdate) (s : State) (task : TaskRecord) (k : String) (x : Slave) :
    Prop where
  state : u.state.releases
  record : s.framework.tasks.lookup u.taskId = some task
  names : u.slave task.taskInfo = some k
  slave : s.framework.slaves.lookup k = some x

theorem updateOnSlave_cases (env : Env)
    {k : String} (htask : s.framework.tasks.lookup u.taskId = some task)
    (hk : u.slave task.taskInfo = some k) (h : Updated u s s1) :
    (∃ x s2, Releases u s task k x ∧ Updated u s s2 ∧
      updateOnSlave env u k task.taskInfo s1 =
        releaseTask env k u.taskId x task.taskInfo s2) ∨
    ((∀ x, ¬Releases u s task k x) ∧
      Updated u s ((updateOnSlave env u k task.taskInfo).after s1)) := by
  obtain ⟨s2, hsend, h2⟩ := h.sendStatusUpdate (some k)
  have hslaves := h2.slaves
  simp only [updateOnSlave, EStateM.after, bind_apply, hsend, get_apply, orRaise]
  cases hdict : s2.framework.slaveDict with
  | none =>
    -- the framework has no slaves yet: `framework['slave_dict']` raises
    right
    refine ⟨fun x hx => ?_, h2⟩
    have hnone : s.framework.slaves.lookup k = none := by
      rw [← hslaves, Framework.slaves, hdict]
      rfl
    rw [hx.slave] at hnone
    cases hnone
  | some slaves =>
    have hlookup : slaves.lookup k = s.framework.slaves.lookup k := by
      rw [← hslaves, Framework.slaves, hdict, Option.getD_some]
    simp only [EStateM.pure_apply, hlookup]
    cases hx : s.framework.slaves.lookup k with
    | none =>
      right
      refine ⟨fun x h' => ?_, h2⟩
      have := h'.slave
      rw [hx] at this
      cases this
    | some x =>
      by_cases hrel : u.state.releases
      · left
        exact ⟨x, s2, ⟨hrel, htask, hk, hx⟩, h2, by simp only [hrel, if_true]⟩
      · right
        refine ⟨fun x h' => hrel h'.state, ?_⟩
        simp only [hrel]
        exact h2

/-- `handle_status_update` does one of two things: it releases the task, or it leaves a
    state that only differs in the record of the task. -/
theorem handleStatusUpdate_cases (env : Env) (u : StatusUpdate) (s : State) :
    (∃ task k x s1, Releases u s task k x ∧ Updated u s s1 ∧
      handleStatusUpdate env u s = releaseTask env k u.taskId x task.taskInfo s1) ∨
    ((∀ task k x, ¬Releases u s task k x) ∧ Updated u s ((handleStatusUpdate env u).after s)) := by
  cases htask : s.framework.tasks.lookup u.taskId with
  | none =>
    -- an update of an unknown task is passed on to the framework
    right
    have hupd : Updated u s s := ⟨.refl s, rfl, (modifyTask_of_missing htask _).symm⟩
    obtain ⟨s2, hsend, h2⟩ := hupd.sendStatusUpdate none
    refine ⟨fun task k x h => ?_, ?_⟩
    · have := h.record
      rw [htask] at this
      cases this
    · simp only [handleStatusUpdate, EStateM.after, bind_apply, get_apply, htask,
        hsend]
      exact h2
  | some task =>
    have htask' : ∀ {task'}, s.framework.tasks.lookup u.taskId = some task' → task' = task :=
      fun h => Option.some.inj (h.symm.trans htask)
    have hupd : Updated u s
        { s with framework := s.framework.modifyTask u.taskId (recordState u s.clock) } :=
      ⟨(Silent.modifyTask s u.taskId _ fun _ => by rfl).sameBooks, rfl, rfl⟩
    cases hk : u.slave task.taskInfo with
    | none =>
      right
      obtain ⟨s2, hsend, h2⟩ := hupd.sendStatusUpdate none
      refine ⟨fun task' k x h => ?_, ?_⟩
      · obtain rfl := htask' h.record
        have := h.names
        rw [hk] at this
        cases this
      · simp only [handleStatusUpdate, modifyFramework, EStateM.after, bind_apply,
          get_apply, modify_apply, htask, hk, hsend]
        exact h2
    | some k =>
      have hrun : handleStatusUpdate env u s = updateOnSlave env u k task.taskInfo
          { s with framework := s.framework.modifyTask u.taskId (recordState u s.clock) } := by
        simp only [handleStatusUpdate, modifyFramework, bind_apply, get_apply,
          modify_apply, htask, hk]
      rcases updateOnSlave_cases env htask hk hupd with ⟨x, s2, hrel, h2, heq⟩ | ⟨hnot, h2⟩
      · left
        exact ⟨task, k, x, s2, hrel, h2, hrun.trans heq⟩
      · right
        refine ⟨fun task' k' x h => ?_, ?_⟩
        · obtain rfl := htask' h.record
          obtain rfl : k' = k := Option.some.inj (h.names.symm.trans hk)
          exact hnot x h
        · rw [EStateM.after, hrun]
          exact h2

theorem handleStatusUpdate_spec
    (hQ : ∀ s1, Updated u s s1 → Q s1) (hE : ∀ s1, Updated u s s1 → E s1)
    (hrelease : ∀ task k x s1, Releases u s task k x → Updated u s s1 →
      Triple (· = s1) (releaseTask env k u.taskId x task.taskInfo) (fun _ => Q) E) :
    Triple (· = s) (handleStatusUpdate env u) (fun _ => Q) E := by
  intro s' hs'
  subst hs'
  rcases handleStatusUpdate_cases env u s' with ⟨task, k, x, s1, hrel, hu, hrun⟩ | ⟨-, hu⟩
  · rw [hrun]
    exact hrelease task k x s1 hrel hu s1 rfl
  · rw [EStateM.after] at hu
    cases hrun : handleStatusUpdate env u s' with
    | ok a s1 => simp only [hrun] at hu ⊢; exact hQ s1 hu
    | error e s1 => simp only [hrun] at hu ⊢; exact hE s1 hu

end Urb
