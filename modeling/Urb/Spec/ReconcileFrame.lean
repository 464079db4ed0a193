import Mathlib
import Urb.Spec.Reconciled

/-!
# What reconciliation does to tasks that it was not asked about

An explicit `ReconcileTasks` message lists tasks. Most iterations of its loop only look at the
record of their task (`Steady`), but one that gives a task up makes a new dictionary of tasks, or
makes the record of the task that dictionary, so that all other records are gone (`GivenUp`).

Whether a task is given up can be told from the state before the message: the iterations before it
change neither the state nor the queue time of a record nor whether it has a slave, and a task that
they begin to wait for is not waited for long enough.
-/

namespace Urb

open EStateM (after_bind bind_apply get_apply)

variable {s s' : State}

variable {ids : List String} (env : Env) (entry : Entry) (taskId : String) {st : ReconcileStatus}

/-! ## What an iteration looks at -/

/-- What reconciliation reads of a record. -/
def TaskRecord.gist (r : TaskRecord) : TaskState × Option ℚ × Bool :=
  (r.state, r.queueTime, r.taskInfo.slave.isSome)

/-- The status asks for a task whose record makes the iteration raise. -/
def ReconcileStatus.Raises (env : Env) (st : ReconcileStatus) (s : State) : Prop :=
  ∃ e, verdict env s.clock (s.framework.tasks.lookup st.taskId)
    (st.slave (s.framework.tasks.lookup st.taskId)) = .error e

theorem verdict_congr (now : ℚ) {t t' : Option TaskRecord} {slaveId slaveId' : Option String}
    (ht : t.map TaskRecord.gist = t'.map TaskRecord.gist)
    (hslave : slaveId.isSome = slaveId'.isSome) :
    verdict env now t slaveId = verdict env now t' slaveId' := by
  have hnone : slaveId.isNone = slaveId'.isNone := by
    rw [← Option.not_isSome, ← Option.not_isSome, hslave]
  cases t with
  | none =>
    obtain rfl : t' = none := Option.map_eq_none_iff.mp ht.symm
    rfl
  | some r =>
    obtain ⟨r', rfl, hr⟩ := Option.map_eq_some_iff.mp ht.symm
    simp only [TaskRecord.gist, Prod.mk.injEq] at hr
    obtain ⟨hstate, hqueue, -⟩ := hr
    simp only [verdict, stagingVerdict, hstate, hqueue, hnone]

theorem ReconcileStatus.isSome_slave_congr (st : ReconcileStatus) {t t' : Option TaskRecord}
    (ht : t.map TaskRecord.gist = t'.map TaskRecord.gist) :
    (st.slave t).isSome = (st.slave t').isSome := by
  unfold ReconcileStatus.slave
  cases st.slaveId.orElse fun _ => st.agentId with
  | some k => rfl
  | none =>
    show (t.bind (·.taskInfo.slave)).isSome = (t'.bind (·.taskInfo.slave)).isSome
    cases t with
    | none =>
      obtain rfl : t' = none := Option.map_eq_none_iff.mp ht.symm
      rfl
    | some r =>
      obtain ⟨r', rfl, hr⟩ := Option.map_eq_some_iff.mp ht.symm
      simp only [TaskRecord.gist, Prod.mk.injEq] at hr
      exact hr.2.2.symm

/-! ## Iterations that leave the dictionary alone -/

/-- Records of tasks that are not listed are unchanged, and so is all that reconciliation reads. Of
    the tasks that are waited for, this is so for those that have been waited for long enough. -/
structure Steady (ids : List String) (s s' : State) : Prop where
  clock : s'.clock = s.clock
  stray : s'.framework.strayTask = s.framework.strayTask
  unlisted : ∀ k ∉ ids, s'.framework.tasks.lookup k = s.framework.tasks.lookup k
  gist : ∀ k, (s'.framework.tasks.lookup k).map TaskRecord.gist =
    (s.framework.tasks.lookup k).map TaskRecord.gist
  candidates : ∀ k q, s.clock - q > 120 →
    (s'.framework.lostCandidate.lookup k = some q ↔ s.framework.lostCandidate.lookup k = some q)

namespace Steady

variable {ids : List String} {s s1 s2 s' : State} {env : Env} {st : ReconcileStatus}

theorem of_framework (hclock : s'.clock = s.clock) (h : s'.framework = s.framework) :
    Steady ids s s' := by
  refine ⟨hclock, ?_, ?_, ?_, ?_⟩ <;> rw [h] <;> simp

theorem refl (s : State) : Steady ids s s := of_framework rfl rfl

theorem trans (h : Steady ids s s1) (h' : Steady ids s1 s2) : Steady ids s s2 where
  clock := h'.clock.trans h.clock
  stray := h'.stray.trans h.stray
  unlisted k hk := (h'.unlisted k hk).trans (h.unlisted k hk)
  gist k := (h'.gist k).trans (h.gist k)
  candidates k q hq := (h'.candidates k q (by rwa [h.clock])).trans (h.candidates k q hq)

theorem raises_iff (h : Steady ids s s') : st.Raises env s' ↔ st.Raises env s := by
  unfold ReconcileStatus.Raises
  have hgist := h.gist st.taskId
  rw [h.clock, verdict_congr env s.clock hgist (st.isSome_slave_congr hgist)]

theorem waited_iff (h : Steady ids s s') (k : String) :
    (∃ q, waitedSince s'.framework k (s'.framework.tasks.lookup k) = some q ∧ s'.clock - q > 120) ↔
      ∃ q, waitedSince s.framework k (s.framework.tasks.lookup k) = some q ∧
        s.clock - q > 120 := by
  have hgist := h.gist k
  rw [h.clock]
  cases ht : s.framework.tasks.lookup k with
  | none =>
    have ht' : s'.framework.tasks.lookup k = none := by
      rw [ht] at hgist
      exact Option.map_eq_none_iff.mp hgist
    rw [ht']
    exact exists_congr fun q => and_congr_left fun hq => h.candidates k q hq
  | some r =>
    rw [ht, Option.map_some] at hgist
    obtain ⟨r', ht', hr⟩ := Option.map_eq_some_iff.mp hgist
    simp only [TaskRecord.gist, Prod.mk.injEq] at hr
    simp only [ht', waitedSince, hr.2.1]

theorem abandoned_iff (h : Steady ids s s') : Abandoned env st s' ↔ Abandoned env st s := by
  have hgist := h.gist st.taskId
  have hslave : st.slave (s'.framework.tasks.lookup st.taskId) = none ↔
      st.slave (s.framework.tasks.lookup st.taskId) = none := by
    rw [← Option.not_isSome_iff_eq_none, st.isSome_slave_congr hgist,
      Option.not_isSome_iff_eq_none]
  have hverdict : verdict env s.clock (s'.framework.tasks.lookup st.taskId) none =
      verdict env s.clock (s.framework.tasks.lookup st.taskId) none := verdict_congr env _ hgist rfl
  constructor
  · rintro ⟨h1, h2, h3⟩
    rw [h.clock, hverdict] at h2
    exact ⟨hslave.mp h1, h2, (h.waited_iff st.taskId).mp h3⟩
  · rintro ⟨h1, h2, h3⟩
    rw [← hverdict, ← h.clock] at h2
    exact ⟨hslave.mpr h1, h2, (h.waited_iff st.taskId).mpr h3⟩

end Steady

theorem sendStatusUpdate_still (state : TaskState) (slaveId : Option String)
    (s : State) : ∃ s', sendStatusUpdate taskId state slaveId s = .ok () s' ∧
      s'.framework = s.framework ∧ s'.clock = s.clock := by
  simp only [sendStatusUpdate, bind_apply, get_apply]
  split
  · exact ⟨s, rfl, rfl, rfl⟩
  · exact ⟨_, rfl, rfl, rfl⟩

theorem gist_replaceSlave (real : String) (r : TaskRecord) (h : r.taskInfo.slave.isSome = true) :
    (replaceSlave real r).gist = r.gist := by
  unfold replaceSlave TaskRecord.gist TaskInfo.slave at *
  cases hslave : r.taskInfo.slaveId with
  | some k => simp
  | none =>
    rw [hslave] at h
    simpa [hslave] using h.symm

theorem resolveReconcileSlave_steady (hmem : st.taskId ∈ ids) (s : State) :
    ∃ slaveId s', resolveReconcileSlave st (st.slave (s.framework.tasks.lookup st.taskId)) s =
        .ok slaveId s' ∧ Steady ids s s' ∧
      slaveId.isSome = (st.slave (s.framework.tasks.lookup st.taskId)).isSome ∧
      (slaveId = none → s' = s) := by
  generalize hslave : st.slave (s.framework.tasks.lookup st.taskId) = slaveId
  simp only [resolveReconcileSlave, bind_apply, get_apply]
  cases hreal : slaveId.filter isPlaceholder >>= s.framework.placeholderToSlave.lookup with
  | none => exact ⟨slaveId, s, rfl, .refl s, rfl, fun _ => rfl⟩
  | some real =>
    have hsome : slaveId.isSome := by
      cases slaveId with
      | none => cases hreal
      | some k => rfl
    dsimp only
    split
    · exact ⟨some real, s, rfl, .refl s, hsome.symm, fun _ => rfl⟩
    · rename_i hown
      refine ⟨some real, _, rfl, ?_, hsome.symm, fun h => absurd h (Option.some_ne_none real)⟩
      -- the slave is the one of the record
      have hrecord : ∀ r, s.framework.tasks.lookup st.taskId = some r →
          r.taskInfo.slave.isSome = true := by
        intro r hr
        rw [ReconcileStatus.slave, Option.not_isSome_iff_eq_none.mp hown, hr] at hslave
        rw [← hsome, ← hslave]
        rfl
      have hlookup := fun k =>
        Framework.lookup_modifyTask s.framework st.taskId k (replaceSlave real)
      obtain ⟨taskDict, heq⟩ :=
        Framework.exists_modifyTask s.framework st.taskId (replaceSlave real)
      rw [heq] at hlookup
      simp only [heq]
      refine ⟨rfl, rfl, fun k hk => ?_, fun k => ?_, fun _ _ _ => Iff.rfl⟩
      · rw [hlookup, if_neg]
        rintro rfl
        exact hk hmem
      · rw [hlookup]
        split
        · next hk =>
          subst hk
          cases hr : s.framework.tasks.lookup st.taskId with
          | none => rfl
          | some r => simp [gist_replaceSlave real r (hrecord r hr)]
        · rfl

theorem waitingSince_steady (ids : List String) (taskId : String) (t : Option TaskRecord)
    (s : State) : ∃ s', waitingSince taskId t s = .ok (waitedSince s.framework taskId t) s' ∧
      Steady ids s s' ∧ (waitedSince s.framework taskId t ≠ none → s' = s) := by
  simp only [waitingSince, waitedSince, bind_apply, get_apply]
  cases t with
  | some r => exact ⟨s, rfl, .refl s, fun _ => rfl⟩
  | none =>
    cases hlost : s.framework.lostCandidate.lookup taskId with
    | some queueTime => exact ⟨s, rfl, .refl s, fun _ => rfl⟩
    | none =>
      simp only [bind_apply, modifyFramework, EStateM.modify_apply, EStateM.pure_apply]
      refine ⟨_, rfl, ⟨rfl, rfl, fun _ _ => rfl, fun _ => rfl, fun k q hq => ?_⟩,
        fun h => (h rfl).elim⟩
      show (s.framework.lostCandidate.insert taskId s.clock).lookup k = some q ↔ _
      rw [AList.lookup_insert_eq_ite]
      split
      · next hk =>
        -- the new candidate has not been waited for at all
        subst hk
        rw [hlost]
        refine iff_of_false (fun h => ?_) (by simp)
        rw [Option.some.inj h, sub_self] at hq
        exact absurd hq (by norm_num)
      · rfl

/-- The task was given up: all that is left in the dictionary of tasks is its new record, beside
    the fields of the old one. -/
structure GivenUp (entry : Entry) (taskId : String) (s s' : State) : Prop where
  clock : s'.clock = s.clock
  stray : s'.framework.strayTask = s.framework.tasks.lookup taskId
  tasks : s'.framework.tasks = (∅ : Dict TaskRecord).insert taskId (lostRecord entry taskId)
  candidates : s'.framework.lostCandidate = s.framework.lostCandidate.erase taskId

theorem giveUp_steady (t : Option TaskRecord) (s : State)
    (h : ¬∃ q, waitedSince s.framework taskId t = some q ∧ s.clock - q > 120) :
    ∃ s', giveUp entry taskId t s = .ok none s' ∧ Steady ids s s' := by
  obtain ⟨s', hrun, hsteady, hsame⟩ := waitingSince_steady ids taskId t s
  simp only [giveUp, bind_apply, hrun]
  cases hsince : waitedSince s.framework taskId t with
  | none => exact ⟨s', rfl, hsteady⟩
  | some queueTime =>
    obtain rfl := hsame (by simp [hsince])
    have hgrace : ¬s'.clock - queueTime > 120 := fun hgt => h ⟨queueTime, hsince, hgt⟩
    simp only [bind_apply, get_apply, hgrace, if_false]
    exact ⟨s', rfl, hsteady⟩

theorem giveUp_givenUp (s : State)
    (h : ∃ q, waitedSince s.framework taskId (s.framework.tasks.lookup taskId) = some q ∧
      s.clock - q > 120) :
    ∃ s', giveUp entry taskId (s.framework.tasks.lookup taskId) s =
      .ok (some (.lost, some "NotValid")) s' ∧ GivenUp entry taskId s s' := by
  obtain ⟨queueTime, hsince, hgrace⟩ := h
  obtain ⟨s', hrun, -, hsame⟩ :=
    waitingSince_steady [] taskId (s.framework.tasks.lookup taskId) s
  obtain rfl := hsame (by simp [hsince])
  simp only [giveUp, bind_apply, hrun, hsince, get_apply, hgrace, if_true]
  exact ⟨_, rfl, rfl, rfl, rfl, rfl⟩

/-- An iteration that does not give its task up raises or goes on, and leaves the dictionary
    alone. -/
theorem reconcileTask_steady (hmem : st.taskId ∈ ids) (h : ¬Abandoned env st s) :
    (∃ e s', reconcileTask env entry st s = .error e s' ∧ st.Raises env s ∧ Steady ids s s') ∨
      ∃ s', reconcileTask env entry st s = .ok () s' ∧ ¬st.Raises env s ∧ Steady ids s s' := by
  obtain ⟨slaveId, s1, hresolve, hsteady, hisSome, hsame⟩ := resolveReconcileSlave_steady hmem s
  rw [reconcileTask_conclude env entry hresolve]
  have hraises : st.Raises env s ↔
      ∃ e, verdict env s.clock (s.framework.tasks.lookup st.taskId) slaveId = .error e := by
    rw [ReconcileStatus.Raises, verdict_congr env s.clock rfl hisSome]
  cases hverdict : verdict env s.clock (s.framework.tasks.lookup st.taskId) slaveId with
  | error e =>
    refine .inl ⟨e, s1, rfl, hraises.mpr ⟨e, hverdict⟩, hsteady⟩
  | ok v =>
    have hno : ¬st.Raises env s := by
      rw [hraises, hverdict]
      simp
    have hsend : ∀ (state : TaskState) (id : Option String) (s2 : State), Steady ids s s2 →
        ∃ s', sendStatusUpdate st.taskId state id s2 = .ok () s' ∧ ¬st.Raises env s ∧
          Steady ids s s' := by
      intro state id s2 h2
      obtain ⟨s', hsent, hf, hc⟩ := sendStatusUpdate_still st.taskId state id s2
      exact ⟨s', hsent, hno, h2.trans (.of_framework hc hf)⟩
    right
    cases v with
    | skip => exact ⟨s1, rfl, hno, hsteady⟩
    | report state => exact hsend state slaveId s1 hsteady
    | determine =>
      cases slaveId with
      | some k => exact hsend _ (some k) s1 hsteady
      | none =>
        obtain rfl := hsame rfl
        have hslave : st.slave (s1.framework.tasks.lookup st.taskId) = none :=
          Option.not_isSome_iff_eq_none.mp (by rw [← hisSome]; simp)
        -- the task is not given up, since the grace period is not over
        obtain ⟨s2, hgive, hsteady2⟩ := giveUp_steady entry st.taskId
          (s1.framework.tasks.lookup st.taskId) s1 (fun hsince => h ⟨hslave, hverdict, hsince⟩)
        refine ⟨s2, ?_, hno, hsteady2⟩
        simp only [conclude, determineState, bind_apply, hgive]
        rfl

theorem reconcileTask_givenUp (h : Abandoned env st s) :
    ∃ s', reconcileTask env entry st s = .ok () s' ∧ GivenUp entry st.taskId s s' := by
  obtain ⟨slaveId, s1, hresolve, -, hisSome, hsame⟩ :=
    resolveReconcileSlave_steady (List.mem_singleton.mpr rfl : st.taskId ∈ [st.taskId]) s
  obtain rfl : slaveId = none := by
    rw [h.slave] at hisSome
    exact Option.not_isSome_iff_eq_none.mp (by rw [hisSome]; simp)
  obtain rfl := hsame rfl
  obtain ⟨s2, hgive, hgiven⟩ := giveUp_givenUp entry st.taskId s1 h.since
  obtain ⟨s', hsent, hf, hc⟩ := sendStatusUpdate_still st.taskId .lost (some "NotValid") s2
  refine ⟨s', ?_, ?_⟩
  · rw [reconcileTask_conclude env entry hresolve, h.verdict]
    simp only [conclude, determineState, bind_apply, hgive]
    exact hsent
  · exact ⟨hc.trans hgiven.clock, hf ▸ hgiven.stray, hf ▸ hgiven.tasks, hf ▸ hgiven.candidates⟩

/-! ## After a task was given up -/

/-- The status names no slave, and its task has been waited for longer than the grace period since
    an earlier message. -/
def ReconcileStatus.Overdue (st : ReconcileStatus) (s : State) : Prop :=
  (st.slaveId.orElse fun _ => st.agentId) = none ∧
    ∃ q, s.framework.lostCandidate.lookup st.taskId = some q ∧ s.clock - q > 120

theorem Steady.overdue_iff (h : Steady ids s s')
    (st : ReconcileStatus) : st.Overdue s' ↔ st.Overdue s := by
  unfold ReconcileStatus.Overdue
  rw [h.clock]
  exact and_congr_right fun _ => exists_congr fun q => and_congr_left fun hq =>
    h.candidates st.taskId q hq

theorem GivenUp.overdue_iff {entry : Entry} {taskId : String}
    (h : GivenUp entry taskId s s') (st : ReconcileStatus) :
    st.Overdue s' ↔ st.taskId ≠ taskId ∧ st.Overdue s := by
  unfold ReconcileStatus.Overdue
  rw [h.clock, h.candidates, AList.lookup_erase_eq_ite]
  by_cases hk : st.taskId = taskId
  · simp [hk]
  · simp [hk]

/-- The only record in the dictionary is the one of a task that was given up. -/
def Lone (taskId : String) (s : State) : Prop :=
  ∀ k, (s.framework.tasks.lookup k).map TaskRecord.gist =
    if k = taskId then some (.lost, none, true) else none

theorem GivenUp.lone {entry : Entry} {taskId : String}
    (h : GivenUp entry taskId s s') : Lone taskId s' := by
  intro k
  rw [h.tasks, AList.lookup_insert_eq_ite]
  split
  · cases entry <;> rfl
  · rfl

namespace Lone

variable {taskId : String} {s s' : State} {env : Env} {st : ReconcileStatus}

theorem steady {ids : List String} (h : Lone taskId s) (hs : Steady ids s s') : Lone taskId s' :=
  fun k => (hs.gist k).trans (h k)

theorem lookup_eq_none (h : Lone taskId s) {k : String} (hk : k ≠ taskId) :
    s.framework.tasks.lookup k = none := by
  have hgist := h k
  rw [if_neg hk] at hgist
  exact Option.map_eq_none_iff.mp hgist

theorem state_eq_lost (h : Lone taskId s) :
    ∃ r, s.framework.tasks.lookup taskId = some r ∧ r.state = .lost := by
  have hgist := h taskId
  rw [if_pos rfl] at hgist
  obtain ⟨r, hr, heq⟩ := Option.map_eq_some_iff.mp hgist
  exact ⟨r, hr, congrArg Prod.fst heq⟩

theorem not_raises (h : Lone taskId s) : ¬st.Raises env s := by
  rintro ⟨e, he⟩
  by_cases hk : st.taskId = taskId
  · obtain ⟨r, hr, hlost⟩ := h.state_eq_lost
    rw [hk, hr] at he
    simp [verdict, hlost] at he
  · rw [h.lookup_eq_none hk] at he
    cases he

theorem abandoned_iff (h : Lone taskId s) :
    Abandoned env st s ↔ st.taskId ≠ taskId ∧ st.Overdue s := by
  by_cases hk : st.taskId = taskId
  · obtain ⟨r, hr, hlost⟩ := h.state_eq_lost
    refine iff_of_false (fun ha => ?_) (fun ha => ha.1 hk)
    have hverdict := ha.verdict
    rw [hk, hr] at hverdict
    simp [verdict, hlost] at hverdict
  · have hnone := h.lookup_eq_none hk
    simp only [ne_eq, hk, not_false_eq_true, true_and]
    constructor
    · rintro ⟨hslave, -, hsince⟩
      rw [hnone] at hslave hsince
      exact ⟨by simpa [ReconcileStatus.slave] using hslave, hsince⟩
    · rintro ⟨hslave, hsince⟩
      refine ⟨?_, by rw [hnone]; rfl, by rw [hnone]; exact hsince⟩
      simpa [ReconcileStatus.slave, hnone] using hslave

end Lone

/-- The iterations after one that gave a task up do not raise. The fields of a record among the keys
    of the dictionary vanish if another task is given up. -/
theorem reconcileExplicit_lone {ids : List String}
    (sts : List ReconcileStatus) (hids : ∀ st ∈ sts, st.taskId ∈ ids) {taskId : String}
    (hmem : taskId ∈ ids) (h : Lone taskId s) :
    ∃ s', reconcileExplicit env entry sts s = .ok () s' ∧
      (∀ k ∉ ids, s'.framework.tasks.lookup k = none) ∧
      (s'.framework.strayTask = none ↔ s.framework.strayTask = none ∨
        ∃ st ∈ sts, st.taskId ≠ taskId ∧ st.Overdue s) := by
  induction sts generalizing taskId s with
  | nil =>
    refine ⟨s, rfl, fun k hk => h.lookup_eq_none ?_, by simp⟩
    rintro rfl
    exact hk hmem
  | cons st sts ih =>
    have hst := hids st List.mem_cons_self
    have hrest := fun st' hst' => hids st' (List.mem_cons_of_mem _ hst')
    simp only [reconcileExplicit, bind_apply]
    by_cases ha : Abandoned env st s
    · obtain ⟨s1, hrun, hgiven⟩ := reconcileTask_givenUp env entry ha
      obtain ⟨hne, hoverdue⟩ := h.abandoned_iff.mp ha
      obtain ⟨s', hrun', hnone, hstray⟩ := ih hrest hst hgiven.lone
      refine ⟨s', by rw [hrun]; exact hrun', hnone, ?_⟩
      rw [hstray, hgiven.stray, h.lookup_eq_none hne]
      exact iff_of_true (.inl rfl) (.inr ⟨st, List.mem_cons_self, hne, hoverdue⟩)
    · rcases reconcileTask_steady env entry hst ha with ⟨_, _, _, hraises, _⟩ | ⟨s1, hrun, -, hs⟩
      · exact absurd hraises h.not_raises
      · obtain ⟨s', hrun', hnone, hstray⟩ := ih hrest hmem (h.steady hs)
        refine ⟨s', by rw [hrun]; exact hrun', hnone, ?_⟩
        rw [h.abandoned_iff] at ha
        simp only [hstray, hs.stray, hs.overdue_iff, List.mem_cons, exists_eq_or_imp, ha, false_or]

/-! ## The frame of a message -/

/-- The records of all tasks that are not listed are as before, and the dictionary of tasks does not
    hold the fields of a record. -/
structure SparesOthers (ids : List String) (s s' : State) : Prop where
  unlisted : ∀ k ∉ ids, s'.framework.tasks.lookup k = s.framework.tasks.lookup k
  noStray : s.framework.strayTask = none → s'.framework.strayTask = none

/-- Statuses up to the first that raises: if one of them gives its task up there are only records of
    listed tasks, and the task has no record of its own that would become the dictionary, unless a
    later status gives another task up. All is told by the state before the message. -/
def GivesUpSafely (env : Env) (ids : List String) (s : State) : List ReconcileStatus → Prop
  | [] => True
  | st :: rest =>
    (Abandoned env st s → (∀ k ∈ s.framework.tasks, k ∈ ids) ∧
      (s.framework.strayTask = none → s.framework.tasks.lookup st.taskId = none ∨
        ∃ st' ∈ rest, st'.taskId ≠ st.taskId ∧ st'.Overdue s)) ∧
    (¬Abandoned env st s → ¬st.Raises env s → GivesUpSafely env ids s rest)

theorem Steady.sparesOthers (h : Steady ids s s') :
    SparesOthers ids s s' := ⟨h.unlisted, fun hnone => h.stray.trans hnone⟩

theorem sparesOthers_reconcileExplicit_iff {ids : List String}
    (sts : List ReconcileStatus) (hids : ∀ st ∈ sts, st.taskId ∈ ids) {s1 : State}
    (h : Steady ids s s1) :
    SparesOthers ids s ((reconcileExplicit env entry sts).after s1) ↔
      GivesUpSafely env ids s sts := by
  induction sts generalizing s1 with
  | nil => exact iff_of_true h.sparesOthers trivial
  | cons st sts ih =>
    have hst := hids st List.mem_cons_self
    have hrest := fun st' hst' => hids st' (List.mem_cons_of_mem _ hst')
    rw [reconcileExplicit, after_bind, GivesUpSafely]
    by_cases ha : Abandoned env st s
    · obtain ⟨s2, hrun, hgiven⟩ := reconcileTask_givenUp env entry (h.abandoned_iff.mpr ha)
      obtain ⟨s', hrun', hnone, hstray⟩ :=
        reconcileExplicit_lone env entry sts hrest hst hgiven.lone
      have hrecord : s1.framework.tasks.lookup st.taskId = none ↔
          s.framework.tasks.lookup st.taskId = none := by
        rw [← Option.map_eq_none_iff (f := TaskRecord.gist), h.gist, Option.map_eq_none_iff]
      simp only [hrun, EStateM.after_of_ok hrun', ha, not_true_eq_false, false_implies, and_true,
        true_implies]
      simp only [hgiven.overdue_iff, h.overdue_iff, hgiven.stray, hrecord, and_self_left] at hstray
      constructor
      · intro hs
        refine ⟨fun k hk => ?_, fun hbefore => hstray.mp (hs.noStray hbefore)⟩
        by_contra hunlisted
        have hgone := (hs.unlisted k hunlisted).symm.trans (hnone k hunlisted)
        exact AList.lookup_eq_none.mp hgone hk
      · rintro ⟨hlisted, hrecords⟩
        refine ⟨fun k hk => ?_, fun hbefore => hstray.mpr (hrecords hbefore)⟩
        rw [hnone k hk, AList.lookup_eq_none.mpr (mt (hlisted k) hk)]
    · rcases reconcileTask_steady env entry hst (mt h.abandoned_iff.mp ha) with
        ⟨e, s2, hrun, hraises, hs⟩ | ⟨s2, hrun, hraises, hs⟩
      · -- the loop ends here
        rw [h.raises_iff] at hraises
        simp only [hrun, ha, hraises, not_true_eq_false, false_implies, implies_true, and_true,
          iff_true]
        exact (h.trans hs).sparesOthers
      · rw [h.raises_iff] at hraises
        simp only [hrun, ha, hraises, not_false_eq_true, false_implies, true_implies, true_and]
        exact ih hrest (h.trans hs)

/-- Explicit reconciliation leaves the records of all tasks that are not listed, and no fields of a
    record among the keys of the dictionary, exactly if no task is given up while there are records
    of others, and none that has a record of its own. -/
theorem reconcile_spares_others_iff (env : Env) (entry : Entry) (st : ReconcileStatus)
    (rest : List ReconcileStatus) (s : State) :
    SparesOthers ((st :: rest).map (·.taskId)) s
        ((reconcileTasks env entry (st :: rest)).after s) ↔
      (s.tracking = .active → GivesUpSafely env ((st :: rest).map (·.taskId)) s (st :: rest)) := by
  have hids : ∀ st' ∈ st :: rest, st'.taskId ∈ (st :: rest).map (·.taskId) :=
    fun st' hst' => List.mem_map.mpr ⟨st', hst', rfl⟩
  by_cases hactive : s.tracking = .active
  · have hrun : (reconcileTasks env entry (st :: rest)).after s =
        (reconcileExplicit env entry (st :: rest)).after s := by
      simp only [reconcileTasks, after_bind, get_apply, hactive, if_true]
    rw [hrun]
    simp only [hactive, true_implies]
    exact sparesOthers_reconcileExplicit_iff env entry (st :: rest) hids (.refl s)
  · -- the request is only queued again
    have hframework : ((reconcileTasks env entry (st :: rest)).after s).framework =
        s.framework := by
      simp only [reconcileTasks, after_bind, get_apply, hactive, if_false]
      cases entry <;> rfl
    refine iff_of_true ⟨fun k _ => ?_, fun hnone => ?_⟩ (fun h => absurd h hactive)
    · rw [hframework]
    · rw [hframework, hnone]

/-- The framework asks for a task that is not known, and again after two minutes: the dictionary of
    tasks is replaced, and the task that is running is forgotten. -/
theorem reconcile_forgets_others :
    let s := run Sample.env Sample.start (Sample.launched ++
      [.queued (.reconcileTasks [{ taskId := "u" }]), .clock 121])
    let s' := (reconcileTasks Sample.env .queue [{ taskId := "u" }]).after s
    s.framework.tasks.keys = ["t"] ∧ s'.framework.tasks.keys = ["u"] ∧
      ¬SparesOthers ["u"] s s' := by
  intro s s'
  have hbefore : s.framework.tasks.keys = ["t"] := by decide +kernel
  have hafter : s'.framework.tasks.keys = ["u"] := by decide +kernel
  refine ⟨hbefore, hafter, fun h => ?_⟩
  have hlookup := h.unlisted "t" (by decide)
  have hgone : s'.framework.tasks.lookup "t" = none := by
    rw [AList.lookup_eq_none, AList.mem_keys, hafter]
    decide
  rw [hgone, eq_comm, AList.lookup_eq_none, AList.mem_keys, hbefore] at hlookup
  exact hlookup (by decide)

end Urb
