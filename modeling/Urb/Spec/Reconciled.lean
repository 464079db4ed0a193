import Urb.Spec.Swept

/-!
# Reconciliation through the two entry points

`reconcile_tasks` and `http_reconcile` run the same code, but the record that they make up
for a task they give up names its slave in `slave_id` or in `agent_id`. `State.named` is a
view of the state that does not tell the two apart, and for this view the two entry points
are alike (`reconcileExplicit_alike`). The second part says when reconciliation leaves a
swept state: giving a task up replaces the dictionary of tasks, so that the deletions
queued for the old one no longer matter.
-/

namespace Urb

variable (env : Env) (entry entry' : Entry) (st : ReconcileStatus) (taskId : String)
  (t : Option TaskRecord)

open EStateM (Alike after_bind after_eq_state bind_apply get_apply)

/-! ## The name of the slave in a record -/

/-- A record that names its slave in `agent_id` names it in `slave_id` instead. -/
def TaskRecord.named (r : TaskRecord) : TaskRecord :=
  if r.taskInfo.slaveId.isSome then r
  else { r with taskInfo := { r.taskInfo with slaveId := r.taskInfo.agentId, agentId := none } }

def Framework.named (f : Framework) : Framework :=
  { f with
    taskDict := f.taskDict.map (·.mapVal TaskRecord.named)
    strayTask := f.strayTask.map TaskRecord.named }

def State.named (s : State) : State := { s with framework := s.framework.named }

section Record

variable (r : TaskRecord)

@[simp] theorem TaskRecord.state_named : r.named.state = r.state := by
  unfold TaskRecord.named; split <;> rfl

@[simp] theorem TaskRecord.queueTime_named : r.named.queueTime = r.queueTime := by
  unfold TaskRecord.named; split <;> rfl

@[simp] theorem TaskRecord.jobId_named : r.named.jobId = r.jobId := by
  unfold TaskRecord.named; split <;> rfl

@[simp] theorem TaskRecord.slave_named : r.named.taskInfo.slave = r.taskInfo.slave := by
  unfold TaskRecord.named TaskInfo.slave
  cases h : r.taskInfo.slaveId with
  | some k => simp [h]
  | none => simp

theorem TaskRecord.named_replaceSlave (k : String) :
    (replaceSlave k r.named).named = (replaceSlave k r).named := by
  unfold replaceSlave TaskRecord.named
  cases h : r.taskInfo.slaveId with
  | some k' => simp [h]
  | none => cases r.taskInfo.agentId <;> simp [h]

end Record

namespace Framework

variable {f f' : Framework}

theorem tasks_named (f : Framework) : f.named.tasks = f.tasks.mapVal TaskRecord.named := by
  unfold Framework.named Framework.tasks
  cases f.taskDict <;> rfl

theorem lookup_named (f : Framework) (k : String) :
    f.named.tasks.lookup k = (f.tasks.lookup k).map TaskRecord.named := by
  rw [tasks_named, AList.lookup_mapVal]

theorem named_setTask (f : Framework) (k : String) (r : TaskRecord) :
    (f.setTask k r).named = f.named.setTask k r.named := by
  simp only [setTask, tasks_named, ← AList.mapVal_insert]
  rfl

theorem fields_of_named (h : f.named = f'.named) : f.channelName = f'.channelName ∧
    f.offerEvent = f'.offerEvent ∧ f.placeholderToSlave = f'.placeholderToSlave ∧
    f.lostCandidate = f'.lostCandidate := by
  simp only [named, mk.injEq] at h
  obtain ⟨-, hchannel, -, -, -, -, -, -, -, hmap, -, -, hevent, hlost⟩ := h
  exact ⟨hchannel, hevent, hmap, hlost⟩

theorem named_modifyTask (h : f.named = f'.named) (k : String) {g : TaskRecord → TaskRecord}
    (hg : ∀ r, (g r.named).named = (g r).named) :
    (f.modifyTask k g).named = (f'.modifyTask k g).named := by
  have hlookup : (f.tasks.lookup k).map TaskRecord.named =
      (f'.tasks.lookup k).map TaskRecord.named := by
    rw [← lookup_named, ← lookup_named, h]
  unfold modifyTask
  cases hr : f.tasks.lookup k with
  | none =>
    rw [hr, Option.map_none, eq_comm, Option.map_eq_none_iff] at hlookup
    simp only [hlookup]
    exact h
  | some r =>
    rw [hr, Option.map_some, eq_comm, Option.map_eq_some_iff] at hlookup
    obtain ⟨r', hr', hnamed⟩ := hlookup
    have hgr : (g r).named = (g r').named := by rw [← hg r, ← hg r', hnamed]
    simp only [hr', named_setTask, h, hgr]

end Framework

theorem State.named_eq_iff {s1 s2 : State} : s1.named = s2.named ↔
    s1.framework.named = s2.framework.named ∧ s1.tracking = s2.tracking ∧
      s1.deleteElements = s2.deleteElements ∧ s1.retryQueue = s2.retryQueue ∧
      s1.effects = s2.effects ∧ s1.clock = s2.clock := by
  simp only [State.named, State.mk.injEq]

/-! ## The two entry points are alike -/

section Alike

variable {s1 s2 : State}

theorem emit_alike (e : Effect) : Alike State.named (emit e) (emit e) := by
  refine .modify fun s1 s2 h => ?_
  obtain ⟨hf, ht, hd, hq, he, hc⟩ := State.named_eq_iff.mp h
  exact State.named_eq_iff.mpr ⟨hf, ht, hd, hq, congrArg (· ++ [e]) he, hc⟩

theorem modifyFramework_alike {g : Framework → Framework}
    (hg : ∀ f f' : Framework, f.named = f'.named → (g f).named = (g f').named) :
    Alike State.named (modifyFramework g) (modifyFramework g) := by
  refine .modify fun s1 s2 h => ?_
  obtain ⟨hf, hrest⟩ := State.named_eq_iff.mp h
  exact State.named_eq_iff.mpr ⟨hg _ _ hf, hrest⟩

theorem sendStatusUpdate_alike (state : TaskState) (slaveId : Option String) :
    Alike State.named (sendStatusUpdate taskId state slaveId)
      (sendStatusUpdate taskId state slaveId) := by
  refine .get_bind fun s1 s2 h => ?_
  obtain ⟨hchannel, hevent, -⟩ := Framework.fields_of_named (State.named_eq_iff.mp h).1
  simp only [Framework.http, hchannel, hevent]
  exact .ite (.pure _) (emit_alike _)

theorem resolveReconcileSlave_alike (slaveId : Option String) :
    Alike State.named (resolveReconcileSlave st slaveId) (resolveReconcileSlave st slaveId) := by
  refine .get_bind fun s1 s2 h => ?_
  obtain ⟨-, -, hmap, -⟩ := Framework.fields_of_named (State.named_eq_iff.mp h).1
  dsimp only
  rw [hmap]
  split
  · exact .pure _
  · refine .bind (.ite (.pure _) (modifyFramework_alike fun f f' hf => ?_)) fun _ => .pure _
    exact Framework.named_modifyTask hf _ fun r => r.named_replaceSlave _

/-- The record of a task, as far as reconciliation reads it. -/
def SameRecord (t t' : Option TaskRecord) : Prop :=
  t.map TaskRecord.named = t'.map TaskRecord.named

section SameRecord

variable {t t' : Option TaskRecord} (h : SameRecord t t')

include h

theorem SameRecord.cases : (t = none ∧ t' = none) ∨ ∃ r r', t = some r ∧ t' = some r' ∧
    r.state = r'.state ∧ r.queueTime = r'.queueTime ∧ r.jobId = r'.jobId ∧
    r.taskInfo.slave = r'.taskInfo.slave := by
  cases t with
  | none =>
    have hnone : t' = none := Option.map_eq_none_iff.mp h.symm
    exact Or.inl ⟨rfl, hnone⟩
  | some r =>
    obtain ⟨r', rfl, hr⟩ := Option.map_eq_some_iff.mp h.symm
    refine Or.inr ⟨r, r', rfl, rfl, ?_, ?_, ?_, ?_⟩
    · rw [← r.state_named, ← hr, r'.state_named]
    · rw [← r.queueTime_named, ← hr, r'.queueTime_named]
    · rw [← r.jobId_named, ← hr, r'.jobId_named]
    · rw [← r.slave_named, ← hr, r'.slave_named]

theorem SameRecord.slave (st : ReconcileStatus) : st.slave t = st.slave t' := by
  rcases h.cases with ⟨rfl, rfl⟩ | ⟨r, r', rfl, rfl, -, -, -, hslave⟩
  · rfl
  · simp only [ReconcileStatus.slave, Option.bind_some, hslave]

theorem SameRecord.verdict (env : Env) (now : ℚ) (slaveId : Option String) :
    verdict env now t slaveId = verdict env now t' slaveId := by
  rcases h.cases with ⟨rfl, rfl⟩ | ⟨r, r', rfl, rfl, hstate, hqueue, -, -⟩
  · rfl
  · simp only [Urb.verdict, stagingVerdict, hstate, hqueue]

theorem SameRecord.stateFromJob (env : Env) (log : List Effect) (k : String) :
    stateFromJob env log k t = stateFromJob env log k t' := by
  rcases h.cases with ⟨rfl, rfl⟩ | ⟨r, r', rfl, rfl, -, -, hjob, -⟩
  · rfl
  · simp only [Urb.stateFromJob, Option.bind_some, hjob]

theorem replaceTaskDict_alike (entry entry' : Entry) (taskId : String) :
    Alike State.named (replaceTaskDict entry taskId t) (replaceTaskDict entry' taskId t') := by
  refine .bind (.modify fun s1 s2 hs => ?_) fun _ => emit_alike _
  obtain ⟨hf, ht, hd, hq, he, hc⟩ := State.named_eq_iff.mp hs
  refine State.named_eq_iff.mpr ⟨?_, ht, congrArg (List.filter (·.dict ≠ .tasks)) hd, hq, he, hc⟩
  have hlost : (lostRecord entry taskId).named = (lostRecord entry' taskId).named := by
    cases entry <;> cases entry' <;> rfl
  simp only [Framework.named, Framework.mk.injEq] at hf
  obtain ⟨hid, hchannel, hconfig, hslaves, -, -, hoffers, hjobs, hjob, hmap, hafter, hnext, hevent,
    hcandidate⟩ := hf
  simp only [Framework.named, Framework.mk.injEq, Option.map_some, AList.mapVal_insert,
    AList.mapVal_empty, hlost, hcandidate]
  exact ⟨hid, hchannel, hconfig, hslaves, trivial, h, hoffers, hjobs, hjob, hmap, hafter, hnext,
    hevent, trivial⟩

theorem waitingSince_alike (taskId : String) :
    Alike State.named (waitingSince taskId t) (waitingSince taskId t') := by
  refine .get_bind fun s1 s2 hs => ?_
  obtain ⟨hf, -, -, -, -, hclock⟩ := State.named_eq_iff.mp hs
  obtain ⟨-, -, -, hcandidate⟩ := Framework.fields_of_named hf
  rcases h.cases with ⟨rfl, rfl⟩ | ⟨r, r', rfl, rfl, -, hqueue, -, -⟩
  · dsimp only
    rw [hcandidate]
    split
    · exact .pure _
    · rw [hclock]
      refine .bind (modifyFramework_alike fun f f' hf' => ?_) fun _ => .pure _
      simp only [Framework.named, Framework.mk.injEq] at hf' ⊢
      simp only [hf', true_and]
  · simp only [hqueue]
    exact .pure _

theorem determineState_alike (env : Env) (entry entry' : Entry) (taskId : String)
    (slaveId : Option String) :
    Alike State.named (determineState env entry taskId t slaveId)
      (determineState env entry' taskId t' slaveId) := by
  unfold determineState
  cases slaveId with
  | some k =>
    refine .get_bind fun s1 s2 hs => ?_
    obtain ⟨-, -, -, -, heffects, -⟩ := State.named_eq_iff.mp hs
    rw [heffects, h.stateFromJob]
    exact .pure _
  | none =>
    refine .bind (waitingSince_alike h taskId) fun since => ?_
    cases since with
    | none => exact .pure _
    | some queueTime =>
      refine .get_bind fun s1 s2 hs => ?_
      obtain ⟨-, -, -, -, -, hclock⟩ := State.named_eq_iff.mp hs
      rw [hclock]
      exact .ite (.bind (replaceTaskDict_alike h entry entry' taskId) fun _ => .pure _) (.pure _)

end SameRecord

theorem reconcileTask_alike :
    Alike State.named (reconcileTask env entry st) (reconcileTask env entry' st) := by
  refine .get_bind fun s1 s2 hs => ?_
  obtain ⟨hf, -, -, -, -, hclock⟩ := State.named_eq_iff.mp hs
  have hrecord : SameRecord (s1.framework.tasks.lookup st.taskId)
      (s2.framework.tasks.lookup st.taskId) := by
    rw [SameRecord, ← Framework.lookup_named, ← Framework.lookup_named, hf]
  dsimp only
  rw [hrecord.slave]
  refine .bind (resolveReconcileSlave_alike st _) fun slaveId => ?_
  rw [hclock, hrecord.verdict]
  split
  · exact .throw _
  · exact .pure _
  · exact sendStatusUpdate_alike _ _ _
  · refine .bind (determineState_alike hrecord env entry entry' _ _) fun o => ?_
    cases o with
    | none => exact .pure _
    | some p => exact sendStatusUpdate_alike _ _ _

/-- For the view that does not show the name of the slave field, reconciliation does the same
    through both entry points. -/
theorem reconcileExplicit_alike (sts : List ReconcileStatus) :
    Alike State.named (reconcileExplicit env entry sts) (reconcileExplicit env entry' sts) := by
  induction sts with
  | nil => exact .pure _
  | cons st rest ih => exact .bind (reconcileTask_alike env entry entry' st) fun _ => ih

end Alike

/-! ## When reconciliation leaves a swept state -/

/-- The time since when a task without a slave is waited for, if it is. -/
def waitedSince (f : Framework) (taskId : String) (t : Option TaskRecord) : Option ℚ :=
  match t with
  | some r => r.queueTime.filter (· ≠ 0)
  | none => f.lostCandidate.lookup taskId

/-- The task of the status is given up: nothing says on which slave it is, its state has to be
    determined, and it was waited for longer than the grace period. -/
structure Abandoned (env : Env) (st : ReconcileStatus) (s : State) : Prop where
  slave : st.slave (s.framework.tasks.lookup st.taskId) = none
  verdict : verdict env s.clock (s.framework.tasks.lookup st.taskId) none = .ok .determine
  since : ∃ queueTime,
    waitedSince s.framework st.taskId (s.framework.tasks.lookup st.taskId) = some queueTime ∧
      s.clock - queueTime > 120

/-- The elements of the other dictionaries whose deletion is queued are gone. -/
def SweptOthers (s : State) : Prop :=
  ∀ de ∈ s.deleteElements, de.dict ≠ .tasks → ¬s.framework.Has de

/-- The tasks whose deletion is queued are gone. -/
def SweptTasks (s : State) : Prop :=
  ∀ de ∈ s.deleteElements, de.dict = .tasks → ¬s.framework.Has de

theorem swept_iff {s : State} : Swept s ↔ SweptOthers s ∧ SweptTasks s := by
  constructor
  · intro h
    exact ⟨fun de hde _ => h de hde, fun de hde _ => h de hde⟩
  · rintro ⟨hothers, htasks⟩ de hde
    by_cases hd : de.dict = .tasks
    · exact htasks de hde hd
    · exact hothers de hde hd

/-- Giving a task up keeps slaves and offers, and forgets the deletions queued for tasks. -/
structure Replaced (s s' : State) : Prop where
  pending : s'.deleteElements = s.deleteElements.filter (·.dict ≠ .tasks)
  slaves : s'.framework.slaves = s.framework.slaves
  offers : s'.framework.offers = s.framework.offers

theorem Replaced.sweptTasks {s s' : State} (h : Replaced s s') : SweptTasks s' := by
  intro de hde hd
  rw [h.pending, List.mem_filter] at hde
  simp [hd] at hde

theorem Replaced.sweptOthers {s s' : State} (h : Replaced s s') :
    SweptOthers s' ↔ SweptOthers s := by
  have hhas : ∀ de : DeleteElement, de.dict ≠ .tasks →
      (s'.framework.Has de ↔ s.framework.Has de) := by
    intro de hd
    obtain ⟨d, k⟩ := de
    cases d with
    | tasks => exact (hd rfl).elim
    | slaves => simp only [Framework.Has, h.slaves]
    | offers => simp only [Framework.Has, h.offers]
  constructor
  · intro hs de hde hd hmem
    refine hs de ?_ hd ((hhas de hd).mpr hmem)
    rw [h.pending, List.mem_filter]
    exact ⟨hde, by simpa using hd⟩
  · intro hs de hde hd hmem
    rw [h.pending, List.mem_filter] at hde
    exact hs de hde.1 hd ((hhas de hd).mp hmem)

theorem SameKeys.sweptOthers {s s' : State} (h : SameKeys s s') :
    SweptOthers s' ↔ SweptOthers s := by
  simp only [SweptOthers, h.pending, h.has]

theorem SameKeys.sweptTasks {s s' : State} (h : SameKeys s s') : SweptTasks s' ↔ SweptTasks s := by
  simp only [SweptTasks, h.pending, h.has]

theorem sendStatusUpdate_sameKeys (state : TaskState) (slaveId : Option String)
    (s : State) : SameKeys s ((sendStatusUpdate taskId state slaveId).after s) := by
  obtain ⟨s', hrun, hf, hd, -⟩ := sendStatusUpdate_ok taskId state slaveId s
  rw [EStateM.after_of_ok hrun]
  exact ⟨hd, fun de => by rw [hf]⟩

theorem waitingSince_spec (s : State) :
    ∃ s', waitingSince taskId t s = .ok (waitedSince s.framework taskId t) s' ∧ SameKeys s s' ∧
      (waitedSince s.framework taskId t ≠ none → s' = s) := by
  simp only [waitingSince, waitedSince, bind_apply, get_apply]
  cases t with
  | some r => exact ⟨s, rfl, .refl s, fun _ => rfl⟩
  | none =>
    cases hlost : s.framework.lostCandidate.lookup taskId with
    | some queueTime => exact ⟨s, rfl, .refl s, fun _ => rfl⟩
    | none =>
      simp only [bind_apply, modifyFramework, EStateM.modify_apply, EStateM.pure_apply]
      exact ⟨_, rfl, ⟨rfl, fun _ => Iff.rfl⟩, fun h => (h rfl).elim⟩

theorem resolveReconcileSlave_spec (slaveId : Option String) (s : State) :
    ∃ slaveId' s', resolveReconcileSlave st slaveId s = .ok slaveId' s' ∧ SameKeys s s' ∧
      slaveId'.isSome = slaveId.isSome ∧ (slaveId = none → s' = s) := by
  simp only [resolveReconcileSlave, bind_apply, get_apply]
  cases hreal : slaveId.filter isPlaceholder >>= s.framework.placeholderToSlave.lookup with
  | none => exact ⟨slaveId, s, rfl, .refl s, rfl, fun _ => rfl⟩
  | some real =>
    have hsome : slaveId.isSome := by
      cases slaveId with
      | none => cases hreal
      | some k => rfl
    have hne : slaveId ≠ none := fun h => by rw [h] at hsome; cases hsome
    dsimp only
    split
    · exact ⟨some real, s, rfl, .refl s, hsome.symm, fun h => (hne h).elim⟩
    · exact ⟨some real, _, rfl, SameKeys.modifyTask s st.taskId _, hsome.symm,
        fun h => (hne h).elim⟩

theorem giveUp_cases (s : State) :
    ((∃ queueTime, waitedSince s.framework taskId t = some queueTime ∧
        s.clock - queueTime > 120) ∧
      ∃ s', giveUp entry taskId t s = .ok (some (.lost, some "NotValid")) s' ∧ Replaced s s') ∨
    ((¬∃ queueTime, waitedSince s.framework taskId t = some queueTime ∧
        s.clock - queueTime > 120) ∧
      ∃ s', giveUp entry taskId t s = .ok none s' ∧ SameKeys s s') := by
  obtain ⟨s', hrun, hkeys, hsame⟩ := waitingSince_spec taskId t s
  simp only [giveUp, bind_apply, hrun]
  cases hsince : waitedSince s.framework taskId t with
  | none =>
    refine Or.inr ⟨fun h => ?_, s', rfl, hkeys⟩
    obtain ⟨q, hq, -⟩ := h
    cases hq
  | some queueTime =>
    obtain rfl := hsame (by rw [hsince]; simp)
    simp only [bind_apply, get_apply]
    by_cases hgrace : s'.clock - queueTime > 120
    · simp only [hgrace, if_true]
      exact Or.inl ⟨⟨queueTime, rfl, hgrace⟩, _, rfl, rfl, rfl, rfl⟩
    · simp only [hgrace, if_false]
      refine Or.inr ⟨fun h => ?_, s', rfl, hkeys⟩
      obtain ⟨q, hq, hgt⟩ := h
      exact hgrace (Option.some.inj hq ▸ hgt)

/-- The end of an iteration, once the slave is resolved. -/
def conclude (env : Env) (entry : Entry) (taskId : String) (t : Option TaskRecord)
    (slaveId : Option String) : Except PyError Verdict → Handler Unit
  | .error e => throw e
  | .ok .skip => pure ()
  | .ok (.report state) => sendStatusUpdate taskId state slaveId
  | .ok .determine => do
    match ← determineState env entry taskId t slaveId with
    | none => pure ()
    | some (state, id) => sendStatusUpdate taskId state id

theorem reconcileTask_conclude {st : ReconcileStatus} {s s1 : State}
    {slaveId : Option String} (hresolve : resolveReconcileSlave st
      (st.slave (s.framework.tasks.lookup st.taskId)) s = .ok slaveId s1) :
    reconcileTask env entry st s =
      conclude env entry st.taskId (s.framework.tasks.lookup st.taskId) slaveId
        (verdict env s.clock (s.framework.tasks.lookup st.taskId) slaveId) s1 := by
  simp only [reconcileTask, bind_apply, get_apply, hresolve]
  cases verdict env s.clock (s.framework.tasks.lookup st.taskId) slaveId with
  | error e => rfl
  | ok v => cases v <;> rfl

theorem conclude_sameKeys (k : String) (v : Except PyError Verdict) (s : State) :
    SameKeys s ((conclude env entry taskId t (some k) v).after s) := by
  cases v with
  | error e => exact .refl s
  | ok v =>
    cases v with
    | skip => exact .refl s
    | report state => exact sendStatusUpdate_sameKeys _ _ _ _
    | determine => exact sendStatusUpdate_sameKeys _ _ _ _

/-- An iteration for a task without a slave gives it up if its state has to be determined and
    the grace period is over. -/
theorem conclude_cases (v : Except PyError Verdict) (s : State) :
    ((v = .ok .determine ∧ ∃ queueTime, waitedSince s.framework taskId t = some queueTime ∧
        s.clock - queueTime > 120) ∧
      ∃ s', conclude env entry taskId t none v s = .ok () s' ∧ Replaced s s') ∨
    (¬(v = .ok .determine ∧ ∃ queueTime, waitedSince s.framework taskId t = some queueTime ∧
        s.clock - queueTime > 120) ∧
      SameKeys s ((conclude env entry taskId t none v).after s)) := by
  cases v with
  | error e => exact Or.inr ⟨fun h => by simp at h, .refl s⟩
  | ok v =>
    cases v with
    | skip => exact Or.inr ⟨fun h => by simp at h, .refl s⟩
    | report state =>
      exact Or.inr ⟨fun h => by simp at h, sendStatusUpdate_sameKeys _ _ _ _⟩
    | determine =>
      simp only [true_and]
      rcases giveUp_cases entry taskId t s with ⟨hsince, s1, hrun, hreplaced⟩ |
        ⟨hnot, s1, hrun, hkeys⟩
      · -- the loss is reported after the dictionary was replaced
        obtain ⟨s2, hsend, hf, hd, -⟩ :=
          sendStatusUpdate_ok taskId .lost (some "NotValid") s1
        refine Or.inl ⟨hsince, s2, ?_, ?_, ?_, ?_⟩
        · simp only [conclude, determineState, bind_apply, hrun]
          exact hsend
        · rw [hd, hreplaced.pending]
        · rw [hf, hreplaced.slaves]
        · rw [hf, hreplaced.offers]
      · refine Or.inr ⟨hnot, ?_⟩
        simp only [conclude, determineState, after_bind, hrun]
        exact hkeys

theorem reconcileTask_cases (s : State) :
    (Abandoned env st s ∧ ∃ s', reconcileTask env entry st s = .ok () s' ∧ Replaced s s') ∨
    (¬Abandoned env st s ∧ SameKeys s ((reconcileTask env entry st).after s)) := by
  obtain ⟨slaveId, s1, hresolve, hkeys, hisSome, hsame⟩ :=
    resolveReconcileSlave_spec st (st.slave (s.framework.tasks.lookup st.taskId)) s
  have hrun := reconcileTask_conclude env entry hresolve
  cases hslave : st.slave (s.framework.tasks.lookup st.taskId) with
  | some k =>
    rw [hslave, Option.isSome_some, Option.isSome_iff_exists] at hisSome
    obtain ⟨k', rfl⟩ := hisSome
    refine Or.inr ⟨fun h => ?_, ?_⟩
    · have hnone := h.slave
      rw [hslave] at hnone
      cases hnone
    · have hconclude := conclude_sameKeys env entry st.taskId
          (s.framework.tasks.lookup st.taskId) k'
        (verdict env s.clock (s.framework.tasks.lookup st.taskId) (some k')) s1
      rw [after_eq_state, hrun]
      rw [after_eq_state] at hconclude
      exact hkeys.trans hconclude
  | none =>
    obtain rfl := hsame hslave
    obtain rfl : slaveId = none := by
      rw [hslave] at hisSome
      exact Option.not_isSome_iff_eq_none.mp (by rw [hisSome]; simp)
    have hiff : Abandoned env st s1 ↔
        (verdict env s1.clock (s1.framework.tasks.lookup st.taskId) none = .ok .determine ∧
          ∃ queueTime, waitedSince s1.framework st.taskId (s1.framework.tasks.lookup st.taskId) =
            some queueTime ∧ s1.clock - queueTime > 120) :=
      ⟨fun h => ⟨h.verdict, h.since⟩, fun h => ⟨hslave, h.1, h.2⟩⟩
    rw [hiff, after_eq_state, hrun, ← after_eq_state]
    exact conclude_cases env entry st.taskId _ _ s1

/-- Some status of the request is given up, each looked at in the state before its iteration. -/
def GivesUp (env : Env) : List ReconcileStatus → State → Prop
  | [], _ => False
  | st :: rest, s => Abandoned env st s ∨
    match reconcileTask env .queue st s with
    | .ok _ s' => GivesUp env rest s'
    | .error _ _ => False

theorem swept_reconcileExplicit (sts : List ReconcileStatus) (s : State) :
    Swept ((reconcileExplicit env .queue sts).after s) ↔
      SweptOthers s ∧ (SweptTasks s ∨ GivesUp env sts s) := by
  induction sts generalizing s with
  | nil =>
    rw [GivesUp, or_false, ← swept_iff]
    rfl
  | cons st rest ih =>
    rw [reconcileExplicit, after_bind, GivesUp]
    rcases reconcileTask_cases env .queue st s with ⟨hgiven, s', hrun, hreplaced⟩ | ⟨hnot, hkeys⟩
    · rw [hrun, ih, hreplaced.sweptOthers]
      exact and_congr_right fun _ =>
        iff_of_true (Or.inl hreplaced.sweptTasks) (Or.inr (Or.inl hgiven))
    · rw [after_eq_state] at hkeys
      cases hrun : reconcileTask env .queue st s with
      | error e s' =>
        rw [hrun] at hkeys
        have hiff : Swept s' ↔ Swept s := hkeys.swept_iff
        simp only [hnot, or_false]
        rw [hiff, swept_iff]
      | ok a s' =>
        rw [hrun] at hkeys
        have hothers : SweptOthers s' ↔ SweptOthers s := hkeys.sweptOthers
        have htasks : SweptTasks s' ↔ SweptTasks s := hkeys.sweptTasks
        simp only [hnot, false_or]
        rw [ih, hothers, htasks]

end Urb
