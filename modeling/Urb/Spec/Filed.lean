import Urb.ForStd.Run
import Urb.Spec.Postprocess
import Urb.Spec.Release

/-!
# Records and their charges

`Charged` says that the present record of a task was debited on a slave. The first
part of this file inverts the assignments: where a charged record of the state
after the assignment comes from. The second part is an invariant of every run: a
record is filed under the id of its task, and what was debited for it are the
resources of the record, which the slave still defines. So a credit of the task
cannot fail for want of a scalar resource.
-/

namespace Urb

variable {k on taskId : String} {x : Slave} {s : State} {r : TaskRecord}

open EStateM (Triple)

/-- The present record of the task was debited on the slave. -/
structure Charged (s : State) (k : String) (r : TaskRecord) (slaveId : String)
    (rs : List Resource) : Prop where
  lookup : s.framework.tasks.lookup k = some r
  charge : chargedOn k s.effects = some (slaveId, rs)

section Inversion

variable {s s' : State} {k slaveId : String} {r : TaskRecord} {rs : List Resource}

theorem Charged.of_sameBooks (hb : SameBooks s s') (h : Charged s' k r slaveId rs) :
    ∃ r', Charged s k r' slaveId rs ∧ r.bill = r'.bill := by
  obtain ⟨r', hr', hbill⟩ := hb.task h.lookup
  exact ⟨r', ⟨hr', (hb.charges k) ▸ h.charge⟩, hbill⟩

theorem Charged.of_storeTask {new : TaskRecord}
    (h : Charged ((storeTask taskId new).after s) k r slaveId rs) :
    k ≠ taskId ∧ Charged s k r slaveId rs := by
  have hr : (s.framework.tasks.insert taskId new).lookup k = some r := h.lookup
  have hc : chargedOn k (s.effects ++ [.stored taskId]) = some (slaveId, rs) := h.charge
  by_cases hk : k = taskId
  · simp [Effect.charge, hk] at hc
  · rw [AList.lookup_insert_ne hk] at hr
    simp only [chargedOn_snoc, Effect.charge, Ne.symm hk, if_false] at hc
    exact ⟨hk, hr, hc⟩

theorem Charged.of_withSlave {slaveId' : String}
    (h : Charged (s.withSlave slaveId' x) k r slaveId rs) : Charged s k r slaveId rs :=
  ⟨h.lookup, h.charge⟩

theorem Charged.of_debited {new : List Resource}
    (h : Charged (s.log (.debited on taskId new)) k r slaveId rs) :
    (k = taskId ∧ slaveId = on ∧ rs = new) ∨ (k ≠ taskId ∧ Charged s k r slaveId rs) := by
  have hc := h.charge
  simp only [chargedOn_snoc, Effect.charge] at hc
  by_cases hk : taskId = k
  · simp only [hk, if_true, Option.some.injEq, Prod.mk.injEq] at hc
    exact Or.inl ⟨hk.symm, hc.1.symm, hc.2.symm⟩
  · simp only [hk, if_false] at hc
    exact Or.inr ⟨Ne.symm hk, h.lookup, hc⟩

theorem Charged.of_credited {old : List Resource}
    (h : Charged (s.log (.credited on taskId old)) k r slaveId rs) : Charged s k r slaveId rs :=
  ⟨h.lookup, by simpa [Effect.charge] using h.charge⟩

theorem Charged.of_addSlave {env : Env} {m : RegisterExecutorRunnerMessage}
    (h : Charged ((addSlave env m).after s) k r slaveId rs) :
    slaveId ≠ m.slaveId ∧ Charged s k r slaveId rs := by
  have hc : chargedOn k (s.effects ++ [.initialized m.slaveId]) = some (slaveId, rs) := h.charge
  simp only [chargedOn_snoc, Effect.charge, Option.filter_eq_some_iff, decide_eq_true_eq] at hc
  exact ⟨hc.2, h.lookup, hc.1⟩

theorem not_charged_replaceTaskDict {entry : Entry} {t : Option TaskRecord}
    (h : Charged ((replaceTaskDict entry taskId t).after s) k r slaveId rs) : False := by
  have hr : ((∅ : Dict TaskRecord).insert taskId (lostRecord entry taskId)).lookup k = some r :=
    h.lookup
  have hc : chargedOn k (s.effects ++ [.stored taskId]) = some (slaveId, rs) := h.charge
  by_cases hk : k = taskId
  · simp [Effect.charge, hk] at hc
  · rw [AList.lookup_insert_ne hk] at hr
    simp at hr

end Inversion

/-! ## Post-processing -/

theorem lookup_tasks_postprocessor (h : (targetPostprocessor s).framework.tasks.lookup k = some r) :
    ⟨.tasks, k⟩ ∉ s.deleteElements ∧ s.framework.tasks.lookup k = some r := by
  have := lookup_tasks_deleteAll s.deleteElements s.framework k
  rw [targetPostprocessor] at h
  rw [h] at this
  split at this
  · simp at this
  · rename_i hdes; exact ⟨hdes, this.symm⟩

theorem lookup_slaves_postprocessor
    (h : (targetPostprocessor s).framework.slaves.lookup k = some x) :
    s.framework.slaves.lookup k = some x := by
  have := lookup_slaves_deleteAll s.deleteElements s.framework k
  rw [targetPostprocessor] at h
  rw [h] at this
  split at this
  · simp at this
  · exact this.symm

theorem Charged.of_postprocessor {slaveId : String}
    {rs : List Resource} (h : Charged (targetPostprocessor s) k r slaveId rs) :
    ⟨.tasks, k⟩ ∉ s.deleteElements ∧ Charged s k r slaveId rs :=
  have ⟨hdes, hr⟩ := lookup_tasks_postprocessor h.lookup
  ⟨hdes, hr, h.charge⟩

/-! ## The invariant -/

/-- Every record is filed under the id of its task, and its charge fits the record and the
    slave. -/
structure Filed (s : State) : Prop where
  keyed : ∀ {k r}, s.framework.tasks.lookup k = some r → r.taskInfo.taskId = k
  bill : ∀ {k r slaveId rs}, Charged s k r slaveId rs → rs = r.taskInfo.resources.getD []
  fits : ∀ {k r slaveId rs x}, Charged s k r slaveId rs →
    s.framework.slaves.lookup slaveId = some x → ∀ q ∈ rs, q.Fits x

/-- A state in which nothing has happened to the framework yet. -/
structure Fresh (s : State) : Prop where
  tasks : s.framework.tasks = ∅
  slaves : s.framework.slaves = ∅
  effects : s.effects = []

namespace Filed

variable {s s' : State}

theorem of_fresh (h : Fresh s) : Filed s where
  keyed hr := by simp [h.tasks] at hr
  bill hc := by simpa [h.tasks] using hc.lookup
  fits hc := by simpa [h.tasks] using hc.lookup

theorem sameBooks (hb : SameBooks s s') (h : Filed s) : Filed s' where
  keyed hr := by
    obtain ⟨r', hr', hbill⟩ := hb.task hr
    exact (congrArg Prod.fst hbill).trans (h.keyed hr')
  bill hc := by
    obtain ⟨r', hc', hbill⟩ := hc.of_sameBooks hb
    exact (h.bill hc').trans (congrArg (·.2.getD []) hbill).symm
  fits hc hx q hq := by
    obtain ⟨r', hc', _⟩ := hc.of_sameBooks hb
    obtain ⟨y, hy, hacc⟩ := hb.slave hx
    have := h.fits hc' hy q hq
    simpa only [Resource.Fits, hasScalar_eq_of_account hacc] using this

theorem storeTask (h : Filed s) (r : TaskRecord) :
    Filed ((storeTask r.taskInfo.taskId r).after s) where
  keyed {k r'} hr := by
    change (s.framework.tasks.insert r.taskInfo.taskId r).lookup k = some r' at hr
    by_cases hk : k = r.taskInfo.taskId
    · subst hk
      rw [AList.lookup_insert] at hr
      rw [← Option.some.inj hr]
    · rw [AList.lookup_insert_ne hk] at hr
      exact h.keyed hr
  bill hc := h.bill hc.of_storeTask.2
  fits hc hx := h.fits hc.of_storeTask.2 hx

theorem withSlave (h : Filed s) {z : Slave} (hx : s.framework.slaves.lookup k = some x)
    (hdef : ∀ n, z.hasScalar n = x.hasScalar n) : Filed (s.withSlave k z) where
  keyed hr := h.keyed hr
  bill hc := h.bill hc.of_withSlave
  fits {k' r slaveId rs y} hc hy q hq := by
    by_cases hk : slaveId = k
    · subst hk
      rw [Framework.slaves_setSlave, AList.lookup_insert] at hy
      cases hy
      have := h.fits hc.of_withSlave hx q hq
      simpa only [Resource.Fits, hdef] using this
    · rw [Framework.slaves_setSlave, AList.lookup_insert_ne hk] at hy
      exact h.fits hc.of_withSlave hy q hq

theorem credited (h : Filed s) (on taskId : String) (rs : List Resource) :
    Filed (s.log (.credited on taskId rs)) where
  keyed hr := h.keyed hr
  bill hc := h.bill hc.of_credited
  fits hc hx := h.fits hc.of_credited hx

theorem debited (h : Filed s) {t : TaskInfo} (ht : Holds t s)
    (hx : s.framework.slaves.lookup on = some x)
    (hfits : ∀ q ∈ t.resources.getD [], q.Fits x) :
    Filed (s.log (.debited on t.taskId (t.resources.getD []))) where
  keyed hr := h.keyed hr
  bill hc := by
    obtain ⟨rfl, -, rfl⟩ | ⟨-, hc'⟩ := hc.of_debited
    · obtain ⟨r, hr, hbill⟩ := Option.map_eq_some_iff.mp ht
      cases hr.symm.trans hc.lookup
      exact (congrArg (·.2.getD []) hbill).symm
    · exact h.bill hc'
  fits hc hy q hq := by
    obtain ⟨rfl, rfl, rfl⟩ | ⟨-, hc'⟩ := hc.of_debited
    · cases hx.symm.trans hy
      exact hfits q hq
    · exact h.fits hc' hy q hq

theorem debitSlave (h : Filed s) (env : Env) (slaveId : String) (t : TaskInfo) (ht : Holds t s) :
    Filed ((debitSlave env slaveId t).after s) := by
  refine Triple.after (P := (· = s)) ?_ rfl
  refine (debitSlave_spec env slaveId t s).weaken (fun _ h => h) ?_ ?_
  · rintro - s' ⟨x, x1, hx, hmoved, hadj, rfl⟩
    have hdef := hmoved.hasScalar
    refine debited (h.withSlave (z := { x1 with taskCount := x.taskCount + 1 }) hx hdef) ht
      (AList.lookup_insert _) fun q hq => ?_
    exact (hmoved.fits_iff q).mpr (hadj.fits q hq)
  · rintro s' (rfl | ⟨x, z, done, hx, -, hmoved, rfl⟩)
    · exact h
    · exact h.withSlave hx hmoved.hasScalar

theorem creditSlave (h : Filed s) (env : Env) (slaveId : String) (t : TaskInfo) :
    Filed ((creditSlave env slaveId t).after s) := by
  refine Triple.after (P := (· = s)) ?_ rfl
  refine (creditSlave_spec env slaveId t s).weaken (fun _ h => h) ?_ ?_
  · rintro - s' ⟨x, x1, hx, hmoved, -, rfl⟩
    exact (h.withSlave (z := { x1 with taskCount := x.taskCount - 1 }) hx
      hmoved.hasScalar).credited _ _ _
  · rintro s' (⟨-, rfl⟩ | ⟨x, z, done, hx, -, hmoved, -, rfl⟩)
    · exact h.credited _ _ _
    · exact (h.withSlave hx hmoved.hasScalar).credited _ _ _

theorem addSlave (h : Filed s) (env : Env) (m : RegisterExecutorRunnerMessage) :
    Filed ((addSlave env m).after s) where
  keyed hr := h.keyed hr
  bill hc := h.bill hc.of_addSlave.2
  fits {k r slaveId rs x} hc hx := by
    obtain ⟨hne, hc'⟩ := hc.of_addSlave
    change (s.framework.slaves.insert m.slaveId _).lookup slaveId = some x at hx
    rw [AList.lookup_insert_ne hne] at hx
    exact h.fits hc' hx

theorem replaceTaskDict (entry : Entry) (taskId : String) (t : Option TaskRecord) :
    Filed ((replaceTaskDict entry taskId t).after s) where
  keyed {k r} hr := by
    change ((∅ : Dict TaskRecord).insert taskId (lostRecord entry taskId)).lookup k = some r at hr
    by_cases hk : k = taskId
    · subst hk
      rw [AList.lookup_insert] at hr
      rw [← Option.some.inj hr]
      cases entry <;> rfl
    · rw [AList.lookup_insert_ne hk] at hr
      simp at hr
  bill hc := (not_charged_replaceTaskDict hc).elim
  fits hc := (not_charged_replaceTaskDict hc).elim

theorem postprocessor (h : Filed s) : Filed (targetPostprocessor s) where
  keyed hr := h.keyed (lookup_tasks_postprocessor hr).2
  bill hc := h.bill hc.of_postprocessor.2
  fits hc hx := h.fits hc.of_postprocessor.2 (lookup_slaves_postprocessor hx)

theorem stable (env : Env) : Stable env (fun _ => True) Filed where
  keyed h := h.keyed
  sameBooks := sameBooks
  store _ r _ h := h.storeTask r
  debit _ slaveId t ht h := h.debitSlave env slaveId t ht
  addSlave _ m h := h.addSlave env m
  replaceTaskDict _ _ _ _ _ _ := replaceTaskDict _ _ _
  postprocess _ h := h.postprocessor

/-! ### Steps and runs -/

theorem releaseTask (env : Env) (slaveId taskId : String) (x : Slave) (t : TaskInfo) :
    Triple Filed (releaseTask env slaveId taskId x t) (fun _ => Filed) Filed := by
  have hq : ∀ {α : Type} {m : Handler α}, Quietly m → Triple Filed m (fun _ => Filed) Filed :=
    fun hm => (stable env).quiet hm
  refine .bind (.ite (fun _ => hq (Mutely.releaseCommand _ _ _).silently.quietly)
    fun _ => ?_) fun _ =>
    .bind (hq .get) fun _ =>
      .bind (hq (Silently.quietly (.modifyTask _ _ fun _ => by rfl))) fun _ =>
    hq (Silently.addDeleteElement _ _).quietly
  exact .bind (Triple.of_after fun s h => h.creditSlave env slaveId t) fun _ =>
    .bind (hq .get) fun _ => hq (.ite (Silently.emit _ rfl).quietly (.pure _))

theorem handleStatusUpdate (env : Env) (u : StatusUpdate) :
    Triple Filed (handleStatusUpdate env u) (fun _ => Filed) Filed := by
  intro s h
  have hupd : ∀ s1, Updated u s s1 → Filed s1 := fun s1 hu => h.sameBooks hu.books
  exact handleStatusUpdate_spec hupd hupd (fun task k x s1 _ hu s2 h2 =>
    releaseTask env k u.taskId x task.taskInfo s2 (h2 ▸ hupd s1 hu)) s rfl

theorem reregisterExecutor (env : Env) (m : ReregisterExecutorMessage) :
    Triple Filed (reregisterExecutor env m) (fun _ => Filed) Filed := by
  have hq : ∀ {α : Type} {m : Handler α}, Quietly m → Triple Filed m (fun _ => Filed) Filed :=
    fun hm => (stable env).quiet hm
  have hupdates : ∀ us, Triple Filed (handleUpdates env us) (fun _ => Filed) Filed := by
    intro us
    induction us with
    | nil => exact .pure fun _ h => h
    | cons u us ih => exact .bind (handleStatusUpdate env u) fun _ => ih
  refine .bind (hq .get) fun s => ?_
  split
  · exact .pure fun _ h => h
  · refine .bind (hq (Silently.quietly (.modifySlave _ _ fun _ => ⟨by rfl, by rfl⟩))) fun _ => ?_
    split
    · exact .pure fun _ h => h
    · exact .bind ((stable env).reregisterTasks _ _ _ _ fun _ _ => trivial) fun _ =>
        .bind (hupdates _) fun _ => .bind (hq (Silently.emit _ rfl).quietly) fun _ =>
        hq (Silently.quietly (.modifySlave _ _ fun _ => ⟨by rfl, by rfl⟩))

theorem handle (env : Env) (entry : Entry) (r : Request) :
    Triple Filed (handle env entry r) (fun _ => Filed) Filed := by
  cases r with
  | killTask taskId =>
    intro s h
    exact killTask_spec (fun _ _ hb h => h.sameBooks hb) h
      (fun task k x s1 _ _ _ _ _ hk => (h.sameBooks hk.books).creditSlave env k task.taskInfo) s rfl
  | statusUpdate u =>
    exact .bind ((stable env).quiet .get) fun _ => .ite (fun _ => handleStatusUpdate env u) fun _ =>
      (stable env).quiet (Silently.retry _ _).quietly
  | reregisterExecutor m => exact reregisterExecutor env m
  | launchTasks m =>
    exact (stable env).handle_of_endsNoTask trivial entry _ rfl fun _ _ => trivial
  | reconcileTasks statuses =>
    exact (stable env).handle_of_endsNoTask trivial entry _ rfl fun _ _ => trivial
  | reviveOffers => exact (stable env).handle_of_endsNoTask trivial entry _ rfl fun _ _ => trivial
  | registerExecutorRunner m =>
    exact (stable env).handle_of_endsNoTask trivial entry _ rfl fun _ _ => trivial
  | registerExecutor m =>
    exact (stable env).handle_of_endsNoTask trivial entry _ rfl fun _ _ => trivial

theorem step (env : Env) (h : Filed s) (e : Event) : Filed (step env s e) :=
  (stable env).step_of_handle h fun entry r _ => (handle env entry r).after h

/-- The invariant holds in every state of every run. -/
theorem run (env : Env) (h : Filed s) (events : List Event) : Filed (run env s events) := by
  induction events generalizing s with
  | nil => exact h
  | cons e events ih => exact ih (h.step env e)

end Filed

end Urb
