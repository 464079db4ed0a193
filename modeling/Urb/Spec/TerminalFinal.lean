import Urb.Spec.Launch
import Urb.Spec.Told

/-!
# A terminal state is final

What the framework was told about a task that has ended stays true, if the steps of the run are
`Undisputed`: no executor reports another state of a task whose end was told, the framework does not
kill such a task while its record is there, and so on. The handlers do not check any of this. The
record of an ended task is deleted, and `handle_status_update` forwards the updates of a task that
has no record as they are.
-/

namespace Urb

open EStateM (Keeps Triple after_bind after_bind_cases after_of_error after_of_ok bind_apply
  get_apply)

/-! ## Handlers that note the state of a task -/

theorem killKnownTask_notes (env : Env) (taskId : String) (task : TaskRecord) :
    Keeps (Notes taskId .killed) (killKnownTask env taskId task) := by
  refine Keeps.get_bind fun s => ?_
  refine bind_notes (modifyTask_notes taskId .killed _ fun _ => ?_) (fun _ => ?_) s
  · exact ⟨rfl, rfl⟩
  refine .bind ((Mutely.addDeleteElement _ _).mildly.tells _ _) fun _ =>
    .bind (sendStatusUpdate_tells _ _ _) fun _ => Mildly.tells (.bind .get fun _ => ?_) _ _
  dsimp only
  split
  · exact Mildly.killOnSlave _ _ _ _
  · exact .bind (Mutely.deletePendingJob _).mildly fun _ =>
      .bind Mutely.setOfferEvent.mildly fun _ => .pure _

theorem handleStatusUpdate_notes (env : Env) (u : StatusUpdate) :
    Keeps (Notes u.taskId u.state) (handleStatusUpdate env u) := by
  refine Keeps.get_bind fun s => ?_
  cases hlookup : s.framework.tasks.lookup u.taskId with
  | none =>
    apply (sendStatusUpdate_tells _ _ _ s).notes
    intro r hr
    rw [hlookup] at hr
    cases hr
  | some task =>
    dsimp only
    refine bind_notes (modifyTask_notes _ _ _ fun _ => by exact ⟨rfl, rfl⟩) (fun _ => ?_) s
    split
    · refine .bind (sendStatusUpdate_tells _ _ _) fun _ => Mildly.tells ?_ _ _
      refine .bind .get fun _ => .bind (.orRaise _ _) fun _ => ?_
      split
      · exact .ite (Mildly.releaseTask _ _ _ _ _) (.pure _)
      · exact .pure _
    · exact sendStatusUpdate_tells _ _ _

theorem processTaskLostStatusUpdate_tells (taskId : String) (slaveId : Option String) :
    Keeps (Tells taskId .lost) (processTaskLostStatusUpdate taskId slaveId) := by
  refine .bind (sendStatusUpdate_tells _ _ _) fun _ => .bind .get
    fun s => Keeps.ite (.bind (fun s' => ?_) fun _ =>
      (Mutely.addDeleteElement _ _).mildly.tells _ _) (.throw _)
  exact (modifyTask_notes taskId .lost _ (fun _ => by exact ⟨rfl, rfl⟩) s').1

/-- The update is sent before the state is noted. If there is no record, nothing is left to note. -/
theorem processTaskLostStatusUpdate_notes (taskId : String) (slaveId : Option String) :
    Keeps (Notes taskId .lost) (processTaskLostStatusUpdate taskId slaveId) := by
  intro s
  by_cases hmem : taskId ∈ s.framework.tasks
  · refine ⟨processTaskLostStatusUpdate_tells taskId slaveId s, fun r hr _ => .inl ?_⟩
    rw [after_of_ok (processTaskLostStatusUpdate_of_mem hmem)] at hr
    have hlookup : (s.framework.modifyTask taskId (markLost s.clock)).tasks.lookup taskId =
        some r := hr
    rw [Framework.lookup_modifyTask, if_pos rfl] at hlookup
    obtain ⟨r', -, rfl⟩ := Option.map_eq_some_iff.mp hlookup
    rfl
  · apply (processTaskLostStatusUpdate_tells taskId slaveId s).notes
    intro r hr
    exact absurd (AList.lookup_isSome.mp (by rw [hr]; rfl)) hmem

theorem launchOnPlaceholder_tells (env : Env) (t : TaskInfo) (slaveId : String) (v : LaunchVars) :
    Keeps (Tells t.taskId .lost) (launchOnPlaceholder env t slaveId v) := by
  have hassign : ∀ jobId, Keeps (Tells t.taskId .lost) (assignJob t slaveId jobId) := fun jobId =>
    .bind ((Mildly.modifyTask _ _ fun _ => by exact ⟨rfl, rfl⟩).tells _ _) fun _ =>
      .bind .get fun _ =>
      Keeps.ite (processTaskLostStatusUpdate_tells _ _) (.pure _)
  unfold launchOnPlaceholder
  split
  · exact .bind (hassign _) fun _ => .pure _
  · refine .bind .get fun _ =>
      .bind ((Mildly.scaleUp _ _).tells _ _) fun jobs => ?_
    split
    · exact .bind (processTaskLostStatusUpdate_tells _ _) fun _ => .pure _
    · exact .bind (hassign _) fun _ => .pure _

/-! ## Reconciliation -/

section Reconcile

variable {env : Env} {now : ℚ} {t : Option TaskRecord} {slaveId : Option String} {state : TaskState}

theorem verdict_eq_report
    (h : verdict env now t slaveId = .ok (.report state)) : ∃ r, t = some r ∧ r.state = state := by
  cases t with
  | none => cases h
  | some r =>
    refine ⟨r, rfl, ?_⟩
    simp only [verdict] at h
    split at h
    · rename_i hstaging
      rw [hstaging]
      unfold stagingVerdict at h
      dsimp only at h
      -- the branches that report a state report that the task is staging
      split at h
      · split at h
        · split at h
          · split at h
            · cases h
            · split at h
              · cases h
              · split at h
                · cases h; rfl
                · cases h
          · split at h
            · split at h
              · cases h
              · cases h; rfl
            · cases h
        · cases h
      · cases h; rfl
    · cases h; rfl

theorem verdict_eq_determine (h : verdict env now t slaveId = .ok .determine) :
    ∀ r, t = some r → r.state = .staging := by
  rintro r rfl
  simp only [verdict] at h
  split at h
  · assumption
  · cases h

theorem replaceTaskDict_tells (entry : Entry) (taskId : String) (t : Option TaskRecord) :
    Keeps (Tells taskId .lost) (replaceTaskDict entry taskId t) := by
  intro s
  refine ⟨⟨[.stored taskId], rfl, fun e he => ?_⟩, fun k r' hr' => .inr ?_⟩
  · rw [List.mem_singleton.mp he]
    rfl
  · have hlookup : ((∅ : Dict TaskRecord).insert taskId (lostRecord entry taskId)).lookup k =
        some r' := hr'
    by_cases hk : k = taskId
    · rw [hk, AList.lookup_insert] at hlookup
      cases hlookup
      cases entry with
      | queue => exact ⟨hk, rfl, rfl⟩
      | http => exact ⟨hk, rfl, rfl⟩
    · rw [AList.lookup_insert_ne hk] at hlookup
      cases hlookup

theorem Keeps.triple_tells {α : Type} {m : Handler α} {taskId : String}
    (hm : Keeps (Tells taskId state) m) (s : State) :
    Triple (Tells taskId state s) m (fun _ => Tells taskId state s) (Tells taskId state s) :=
  Triple.of_after fun s' hs' => hs'.trans (hm s')

theorem giveUp_tells (entry : Entry) (taskId : String) (t : Option TaskRecord) (s : State) :
    Triple (Tells taskId .lost s) (giveUp entry taskId t)
      (fun o s' => (∀ x, o = some x → x.1 = .lost) ∧ Tells taskId .lost s s')
      (Tells taskId .lost s) := by
  refine .bind (Keeps.triple_tells ((Mutely.waitingSince _ _).mildly.tells _ _) s) fun since => ?_
  cases since with
  | none => exact .pure fun s' hs' => ⟨nofun, hs'⟩
  | some queueTime =>
    refine .bind (Keeps.triple_tells .get s) fun _ => .ite (fun _ => ?_)
      fun _ => .pure fun s' hs' => ⟨nofun, hs'⟩
    refine .bind (Keeps.triple_tells (replaceTaskDict_tells _ _ _) s) fun _ =>
      .pure fun s' hs' => ⟨fun x hx => ?_, hs'⟩
    cases hx
    rfl

theorem determineState_tells (env : Env) (entry : Entry) (taskId : String) (t : Option TaskRecord)
    (slaveId : Option String) (s : State) :
    ∃ state, Tells taskId state s (EStateM.after (do
      match ← determineState env entry taskId t slaveId with
      | none => pure ()
      | some (state, id) => sendStatusUpdate taskId state id) s) := by
  cases slaveId with
  | some id => exact ⟨_, sendStatusUpdate_tells _ _ _ s⟩
  | none =>
    refine ⟨.lost, Triple.after (P := Tells taskId .lost s) (.bind (giveUp_tells _ _ _ _) ?_)
      (.refl s)⟩
    intro o
    cases o with
    | none => exact .pure fun s' hs' => hs'.2
    | some x =>
      obtain ⟨state, id⟩ := x
      rintro s' ⟨hlost, hs'⟩
      obtain rfl := hlost _ rfl
      exact Keeps.triple_tells (sendStatusUpdate_tells _ _ _) s s' hs'

/-- A task of an explicit reconciliation. The state that the framework is told is not noted: the
    record of a task that is staging stays as it is. -/
theorem reconcileTask_notes (env : Env) (entry : Entry) (status : ReconcileStatus) :
    Keeps (fun s s' => ∃ state, Notes status.taskId state s s')
      (reconcileTask env entry status) := by
  refine Keeps.get_bind fun s => ?_
  have hmild := (Mutely.resolveReconcileSlave status
    (status.slave (s.framework.tasks.lookup status.taskId))).mildly s
  -- nothing is told, so that any state will do
  have hskip : ∀ {s'}, Mild s s' → ∃ state, Notes status.taskId state s s' := fun h =>
    ⟨.staging, (h.tells _ _).notes (.of_not_terminal rfl)⟩
  apply after_bind_cases (p := fun s' => ∃ state, Notes status.taskId state s s')
  · intro slaveId s1 hrun
    rw [after_of_ok hrun] at hmild
    cases hverdict : verdict env s.clock (s.framework.tasks.lookup status.taskId) slaveId with
    | error e => exact hskip hmild
    | ok v =>
      cases v with
      | skip => exact hskip hmild
      | report state =>
        obtain ⟨r, hr, rfl⟩ := verdict_eq_report hverdict
        refine ⟨r.state, ((hmild.tells _ _).trans (sendStatusUpdate_tells _ _ _ s1)).notes ?_⟩
        intro r' hr' _
        rw [hr] at hr'
        cases hr'
        exact .inl rfl
      | determine =>
        obtain ⟨state, htells⟩ := determineState_tells env entry status.taskId
          (s.framework.tasks.lookup status.taskId) slaveId s1
        refine ⟨state, ((hmild.tells _ _).trans htells).notes ?_⟩
        intro r hr _
        exact .inr (verdict_eq_determine hverdict r hr)
  · intro e s1 hrun
    rw [after_of_error hrun] at hmild
    exact hskip hmild

end Reconcile

/-! ## Loops over tasks -/

namespace Account

variable {a : Account} {s : State} {P : Told → Prop} {ts : List TaskInfo}

variable (jobId : String) (env : Env)

theorem Sincere.stage (h : a.Sincere s) (hlaunch : a.launching = true) {taskId : String}
    {r : TaskRecord} (hid : r.taskInfo.taskId = taskId) :
    a.Sincere ((storeTask taskId r).after s) ∧
      a.toldIn ((storeTask taskId r).after s) taskId = none := by
  have hlog : ((storeTask taskId r).after s).effects = s.effects ++ [.stored taskId] := rfl
  have htold : a.toldIn ((storeTask taskId r).after s) =
      Function.update (a.toldIn s) taskId none := by
    rw [h.toldIn_append hlog, hlaunch]
    rfl
  have hnone : a.toldIn ((storeTask taskId r).after s) taskId = none := by
    rw [htold, Function.update_self]
  refine ⟨⟨h.consistent_append hlog ⟨trivial, trivial⟩, fun k r' hr' => ?_, fun k t ht => ?_⟩,
    hnone⟩
  · have hlookup : (s.framework.tasks.insert taskId r).lookup k = some r' := hr'
    by_cases hk : k = taskId
    · subst hk
      rw [AList.lookup_insert] at hlookup
      cases hlookup
      refine ⟨hid, fun t ht => ?_⟩
      rw [hnone] at ht
      cases ht
    · rw [AList.lookup_insert_ne hk] at hlookup
      rw [htold, Function.update_of_ne hk]
      exact h.matched k r' hlookup
  · by_cases hk : k = taskId
    · rw [hk, hnone] at ht
      cases ht
    · rw [htold, Function.update_of_ne hk] at ht
      exact h.terminal k t ht

theorem launchTask (hlaunch : a.launching = true) (env : Env) (m : LaunchTasksMessage)
    (t : TaskInfo) (v : LaunchVars) :
    Triple (a.With fun _ => True) (launchTask env m t v) (fun _ => a.With fun _ => True)
      a.Sincere := by
  refine .bind (mildly (.orRaise _ _)) fun slaveId => .bind (mildly .get) fun now =>
    .bind (R := fun _ s => a.Sincere s ∧ a.toldIn s t.taskId = none ∧ Noted t.taskId .lost s)
    ?_ fun _ => ?_
  · intro s hs
    obtain ⟨hsincere, hnone⟩ := hs.1.stage hlaunch
      (show (stagingRecord m now.clock t).taskInfo.taskId = t.taskId from rfl)
    refine ⟨hsincere, hnone, fun r hr _ => .inr ?_⟩
    have hlookup : (s.framework.tasks.insert t.taskId (stagingRecord m now.clock t)).lookup
        t.taskId = some r := hr
    rw [AList.lookup_insert] at hlookup
    cases hlookup
    rfl
  · -- both branches tell at most that the task is lost
    have htells : Keeps (Tells t.taskId .lost) (if isPlaceholder slaveId then do
          let v ← launchOnPlaceholder env t slaveId v
          pure (some v)
        else launchOnSlave env m t slaveId v) :=
      Keeps.ite (.bind (launchOnPlaceholder_tells _ _ _ _) fun _ =>
        .pure _) ((Mildly.launchOnSlave _ _ _ _ _).tells _ _)
    exact notes _ fun s ⟨hsincere, hnone, hnoted⟩ =>
      ⟨.lost, hsincere, (htells s).notes hnoted, .inl hnone, fun _ _ _ => trivial⟩

theorem launchLoop (hlaunch : a.launching = true) (env : Env) (m : LaunchTasksMessage)
    (ts : List TaskInfo) (v : LaunchVars) :
    Triple (a.With fun _ => True) (launchLoop env m ts v) (fun _ => a.With fun _ => True)
      a.Sincere := by
  induction ts generalizing v with
  | nil => exact .pure fun _ hs => hs
  | cons t rest ih =>
    refine .bind (launchTask hlaunch env m t v) fun o => ?_
    cases o with
    | none => exact .pure fun _ hs => hs
    | some v => exact ih v

theorem storeRebuilt (t : TaskInfo) (hP : ∀ told, P told → told t.taskId = none) :
    Triple (a.With P) (storeTask t.taskId (rebuiltRecord jobId t)) (fun _ => a.With P) a.Sincere :=
  notes_nonterminal rfl (storeTask_notes t.taskId (rebuiltRecord jobId t) rfl) hP

theorem rebuildTasks (slaveId jobId : String)
    (hP : ∀ told, P told → ∀ t ∈ ts, told t.taskId = none) :
    Triple (a.With P) (rebuildTasks env slaveId jobId ts) (fun _ => a.With P) a.Sincere := by
  induction ts with
  | nil => exact .pure fun _ hs => hs
  | cons t rest ih =>
    exact .bind (storeRebuilt jobId t fun told h => hP told h t List.mem_cons_self) fun _ =>
      .bind (mildly (.debitSlave _ _ _)) fun _ =>
      ih fun told h t' ht' => hP told h t' (List.mem_cons_of_mem _ ht')

theorem reregisterTasks (slaveId jobId channel : String)
    (hP : ∀ told, P told → ∀ t ∈ ts, told t.taskId = none) :
    Triple (a.With P) (reregisterTasks env slaveId jobId channel ts) (fun _ => a.With P)
      a.Sincere := by
  induction ts with
  | nil => exact .pure fun _ hs => hs
  | cons t rest ih =>
    refine .bind ?_ fun _ => ih fun told h t' ht' => hP told h t' (List.mem_cons_of_mem _ ht')
    exact .bind (mildly (.modifySlave _ _)) fun _ =>
      .bind (storeRebuilt jobId t fun told h => hP told h t List.mem_cons_self) fun _ =>
      mildly (.debitSlave _ _ _)

/-- The updates of a task do not contradict each other. -/
def Agree (u u' : StatusUpdate) : Prop :=
  u.taskId = u'.taskId → u.state.terminal = true → u'.state = u.state

theorem handleUpdates {us : List StatusUpdate} (hagree : us.Pairwise Agree) :
    Triple (a.With fun told => ∀ u ∈ us, told.Open u.state u.taskId) (handleUpdates env us)
      (fun _ => a.With fun _ => True) a.Sincere := by
  induction us with
  | nil => exact .pure fun _ hs => ⟨hs.1, trivial⟩
  | cons u rest ih =>
    obtain ⟨hu, hrest⟩ := List.pairwise_cons.mp hagree
    refine .bind (notes _ fun s hs => ⟨u.state, hs.1, handleStatusUpdate_notes env u s,
      hs.2 u List.mem_cons_self, fun told' hothers hsame u' hu' => ?_⟩) fun _ => ih hrest
    by_cases hid : u'.taskId = u.taskId
    · rw [hid]
      cases htask : told' u.taskId with
      | none => exact .inl htask
      | some t =>
        obtain ⟨rfl, hterminal⟩ := hsame t htask
        exact .inr (by rw [htask, hu u' hu' hid.symm hterminal])
    · exact (hs.2 u' (List.mem_cons_of_mem _ hu')).congr (hothers _ hid)

theorem loseTasks (es : List (Sigma fun _ : String => TaskRecord)) :
    Triple (a.With fun told => ∀ e ∈ es, e.2.jobId = some jobId →
        told.Open .lost e.2.taskInfo.taskId)
      (loseTasks jobId es) (fun _ => a.With fun _ => True) a.Sincere := by
  induction es with
  | nil => exact .pure fun _ hs => ⟨hs.1, trivial⟩
  | cons e rest ih =>
    refine .bind (.ite (fun hjob => ?_) fun _ => .pure fun _ hs => ?_) fun _ => ih
    · refine notes _ fun s hs => ⟨.lost, hs.1, processTaskLostStatusUpdate_notes _ _ s,
        hs.2 e List.mem_cons_self hjob, fun told' hothers hsame e' he' hjob' => ?_⟩
      by_cases hid : e'.2.taskInfo.taskId = e.2.taskInfo.taskId
      · rw [hid]
        cases htask : told' e.2.taskInfo.taskId with
        | none => exact .inl htask
        | some t => exact .inr (by rw [htask, (hsame t htask).1])
      · exact (hs.2 e' (List.mem_cons_of_mem _ he') hjob').congr (hothers _ hid)
    · exact ⟨hs.1, fun e' he' => hs.2 e' (List.mem_cons_of_mem _ he')⟩

theorem reconcileExplicit (entry : Entry) {statuses : List ReconcileStatus}
    (hnodup : (statuses.map (·.taskId)).Nodup) :
    Triple (a.With fun told => ∀ x ∈ statuses, told x.taskId = none)
      (reconcileExplicit env entry statuses) (fun _ => a.With fun _ => True) a.Sincere := by
  induction statuses with
  | nil => exact .pure fun _ hs => ⟨hs.1, trivial⟩
  | cons x rest ih =>
    obtain ⟨hx, hrest⟩ := List.nodup_cons.mp hnodup
    refine .bind (notes x.taskId fun s hs => ?_) fun _ => ih hrest
    obtain ⟨state, hnotes⟩ := reconcileTask_notes env entry x s
    refine ⟨state, hs.1, hnotes, .inl (hs.2 x List.mem_cons_self), fun told' hothers _ y hy => ?_⟩
    have hid : y.taskId ≠ x.taskId := fun h => hx (List.mem_map.mpr ⟨y, hy, h⟩)
    rw [hothers _ hid]
    exact hs.2 y (List.mem_cons_of_mem _ hy)

theorem reconcileImplicit {es : List (Sigma fun _ : String => TaskRecord)}
    (hP : ∀ told, P told → ∀ e ∈ es, e.2.state = .running ∨ e.2.state = .staging →
      told e.2.taskInfo.taskId = none) :
    Triple (a.With P) (reconcileImplicit es) (fun _ => a.With P) a.Sincere := by
  induction es with
  | nil => exact .pure fun _ hs => hs
  | cons e rest ih =>
    refine .bind (.ite (fun hstate => .ite (fun _ => ?_) fun _ => .throw fun _ hs => hs.1)
      fun _ => .pure fun _ hs => hs) fun _ =>
        ih fun told h e' he' => hP told h e' (List.mem_cons_of_mem _ he')
    have hterminal : e.2.state.terminal = false := by
      rcases hstate with h | h
      · rw [h]; rfl
      · rw [h]; rfl
    exact notes_nonterminal hterminal
      (fun s => (sendStatusUpdate_tells _ _ _ s).notes (.of_not_terminal hterminal))
      fun told h => hP told h e List.mem_cons_self hstate

/-! ## Handlers -/

theorem launchTasks (hlaunch : a.launching = true) (env : Env) (m : LaunchTasksMessage) :
    Triple (a.With P) (launchTasks env .queue m) (fun _ => a.With fun _ => True) a.Sincere := by
  refine .bind (mildly .get) fun _ => .ite (fun _ => ?_) fun _ =>
    (mildly (Mutely.retry _ _).mildly).weaken (fun _ h => h) (fun _ _ h => ⟨h.1, trivial⟩)
      fun _ h => h
  have hloop := launchLoop hlaunch env m m.tasks {}
  refine .bind (mildly fun s => .of_tasks s _ rfl) fun _ =>
    .bind (hloop.weaken (fun _ h => ⟨h.1, trivial⟩) (fun _ _ h => h) fun _ h => h) fun o => ?_
  cases o with
  | none => exact .pure fun _ hs => hs
  | some v => exact mildly (Idly.processRemainingOffers _ _).mildly

theorem forget {α : Type} {I : State → Prop} {Q : Told → Prop} {m : Handler α}
    (h : Triple I m (fun _ => a.With Q) a.Sincere) : Triple I m (fun _ => a.Sincere) a.Sincere :=
  h.weaken (fun _ h => h) (fun _ _ h => h.1) fun _ h => h

theorem killTask (taskId : String) (h : a.Sincere s)
    (hopen : s.tracking = .active → taskId ∈ s.framework.tasks →
      (a.toldIn s).Open .killed taskId) :
    a.Sincere ((killTask env .queue taskId).after s) := by
  have hretry : Mildly (retry .queue (.killTask taskId)) := (Mutely.retry _ _).mildly
  simp only [Urb.killTask, killTaskOf, after_bind, get_apply]
  split
  · rename_i hactive
    cases hlookup : s.framework.tasks.lookup taskId with
    | none =>
      simp only [after_bind, bind_apply, get_apply, hlookup,
        EStateM.pure_apply]
      exact h
    | some task =>
      have hmem : taskId ∈ s.framework.tasks := AList.lookup_isSome.mp (by rw [hlookup]; rfl)
      have hnotes : Keeps (Notes taskId .killed) (do
          if ← killKnownTask env taskId task then pure () else retry .queue (.killTask taskId)) :=
        bind_notes (killKnownTask_notes env taskId task) fun _ =>
          Mildly.tells (.ite (.pure _) hretry) _ _
      have hs := hnotes s
      simp only [after_bind] at hs
      simp only [after_bind, bind_apply, get_apply, hlookup]
      exact (h.notes (hopen hactive hmem) hs).1
  · exact h.mild (hretry s)

theorem statusUpdate (u : StatusUpdate) (h : a.Sincere s)
    (hopen : s.tracking = .active → (a.toldIn s).Open u.state u.taskId) :
    a.Sincere ((statusUpdate env .queue u).after s) := by
  simp only [Urb.statusUpdate, after_bind, get_apply]
  split
  · exact (h.notes (hopen ‹_›) (handleStatusUpdate_notes env u s)).1
  · exact h.mild ((Mutely.retry _ _).mildly s)

theorem reconcileAll (h : a.Sincere s)
    (hstaging : s.tracking = .active → ∀ k r, s.framework.tasks.lookup k = some r →
      r.state = .staging → a.toldIn s k = none) :
    a.Sincere ((reconcileTasks env .queue []).after s) := by
  simp only [reconcileTasks, after_bind, get_apply]
  split
  · rename_i hactive
    apply after_bind_cases
    · intro es s' hrun
      obtain ⟨rfl, rfl⟩ := taskEntries_eq_ok hrun
      refine Triple.after (forget (reconcileImplicit (P := (· = a.toldIn s')) ?_)) ⟨h, rfl⟩
      rintro told rfl e he hstate
      have hlookup : s'.framework.tasks.lookup e.1 = some e.2 := AList.mem_lookup_iff.mpr he
      obtain ⟨hid, hmatch⟩ := h.matched e.1 e.2 hlookup
      rw [hid]
      rcases hstate with hrunning | hstaged
      · cases htold : a.toldIn s' e.1 with
        | none => rfl
        | some t =>
          -- a running task is not one that has ended
          have hterminal := h.terminal e.1 t htold
          rcases hmatch t htold with heq | heq
          · rw [← heq, hrunning] at hterminal
            cases hterminal
          · rw [hrunning] at heq
            cases heq
      · exact hstaging hactive e.1 e.2 hlookup hstaged
    · intro e s' hrun
      have hmild := Mutely.taskEntries.mildly s
      rw [after_of_error hrun] at hmild
      exact h.mild hmild
  · exact h.mild ((Mutely.retry _ _).mildly s)

theorem reconcileTasks (x : ReconcileStatus) (rest : List ReconcileStatus)
    (h : a.Sincere s) (hcond : s.tracking = .active →
      ((x :: rest).map (·.taskId)).Nodup ∧ ∀ y ∈ x :: rest, a.toldIn s y.taskId = none) :
    a.Sincere ((reconcileTasks env .queue (x :: rest)).after s) := by
  simp only [Urb.reconcileTasks, after_bind, get_apply]
  split
  · obtain ⟨hnodup, hnone⟩ := hcond ‹_›
    exact Triple.after (forget (reconcileExplicit env .queue hnodup)) ⟨h, hnone⟩
  · exact h.mild ((Mutely.retry _ _).mildly s)

theorem registerExecutorRunner (m : RegisterExecutorRunnerMessage) (h : a.Sincere s)
    (hnone : s.tracking = .active → ∀ t ∈ m.tasks, a.toldIn s t.taskId = none) :
    a.Sincere ((registerExecutorRunner env .queue m).after s) := by
  by_cases hactive : s.tracking = .active
  · rw [after_registerExecutorRunner env .queue m hactive]
    have hadd := Mildly.addSlave env m s
    have h' := h.mild hadd
    have htold := h.toldIn_mild hadd
    generalize (addSlave env m).after s = s' at h' htold
    cases htasks : m.tasks with
    | nil => exact h'.mild (Mildly.startPending env m s')
    | cons t rest =>
      rw [htasks] at hnone
      refine Triple.after (P := a.With (· = a.toldIn s)) (forget (.bind (mildly (.modifySlave _ _))
        fun _ => rebuildTasks env m.slaveId m.jobId ?_)) ⟨h', htold⟩
      rintro told rfl
      exact hnone hactive
  · rw [after_registerExecutorRunner_inactive env .queue m hactive]
    have hrefuse : Mildly (refuseRunner .queue m) :=
      .bind .get fun _ => .ite (Mildly.emit _ rfl)
        (.ite (.ite (Mutely.retry _ _).mildly (Mildly.emit _ rfl)) (.pure _))
    exact h.mild (hrefuse s)

theorem reregisterExecutor (m : ReregisterExecutorMessage) (h : a.Sincere s)
    (hnone : s.tracking = .active → ∀ t ∈ m.tasks, a.toldIn s t.taskId = none)
    (hopen : s.tracking = .active → ∀ u ∈ m.updates, (a.toldIn s).Open u.state u.taskId)
    (hagree : s.tracking = .active → (sortedUpdates m.updates).Pairwise Agree) :
    a.Sincere ((reregisterExecutor env m).after s) := by
  simp only [Urb.reregisterExecutor, after_bind, get_apply]
  split
  · exact h
  · rename_i slaveId hslave
    have hactive : s.tracking = .active := by
      by_contra hinactive
      rw [if_neg hinactive] at hslave
      cases hslave
    refine Triple.after (P := a.With (· = a.toldIn s)) (forget (Q := fun _ => True)
      (.bind (mildly (.modifySlave _ _)) fun _ => ?_)) ⟨h, rfl⟩
    split
    · exact .pure fun _ hs => ⟨hs.1, trivial⟩
    · refine .bind (reregisterTasks env _ _ _ ?_) fun _ =>
        .bind (handleUpdates env (hagree hactive) |>.weaken ?_ (fun _ _ h => h) fun _ h => h)
        fun _ => ?_
      · rintro told rfl
        exact hnone hactive
      · rintro s' ⟨hs', htold⟩
        refine ⟨hs', fun u hu => ?_⟩
        rw [htold]
        exact hopen hactive u ((List.perm_insertionSort _ _).mem_iff.mp hu)
      · exact .bind (mildly (.emit _ rfl)) fun _ => mildly (.modifySlave _ _)

theorem deleteSlaves_tasks (ids : List String) :
    Keeps (fun s s' => s'.framework.tasks = s.framework.tasks) (deleteSlaves ids) := by
  induction ids with
  | nil => exact fun _ => rfl
  | cons k rest ih =>
    refine Keeps.seq (fun _ _ _ h h' => h'.trans h) (fun _ _ h => h) (fun s => ?_) fun _ => ih
    show (Framework.forgetPlaceholder k (s.framework.modifySlave k _)).tasks = s.framework.tasks
    unfold Framework.forgetPlaceholder
    split
    · exact Framework.tasks_modifySlave _ _ _
    · exact Framework.tasks_modifySlave _ _ _

theorem deleteJob (h : a.Sincere s)
    (hopen : s.tracking ≠ .unknown → ∀ k r, s.framework.tasks.lookup k = some r →
      r.jobId = some jobId → (a.toldIn s).Open .lost k) :
    a.Sincere ((deleteJob jobId).after s) := by
  simp only [Urb.deleteJob, after_bind, get_apply]
  split
  · exact h
  · rename_i hknown
    apply after_bind_cases
    · intro _ s1 hrun
      have hmild := (Mutely.deleteSlaves (s.framework.slavesOfJob jobId)).mildly s
      have htasks := deleteSlaves_tasks (s.framework.slavesOfJob jobId) s
      rw [after_of_ok hrun] at hmild htasks
      have h1 := h.mild hmild
      have htold := h.toldIn_mild hmild
      split
      · exact h1
      · rename_i jobs _
        -- the tasks are read after `job_ids` was changed
        let s2 : State :=
          { s1 with framework := { s1.framework with jobIds := some (removeJobId jobId jobs) } }
        have hmild2 : Mild s1 s2 := .of_tasks s1 _ rfl
        have h2 := h1.mild hmild2
        show a.Sincere ((taskEntries >>= Urb.loseTasks jobId).after s2)
        apply after_bind_cases
        · intro es s3 hentries
          obtain ⟨rfl, rfl⟩ := taskEntries_eq_ok hentries
          refine Triple.after (forget (loseTasks jobId _)) ⟨h2, fun e he hjob => ?_⟩
          have hlookup : s1.framework.tasks.lookup e.1 = some e.2 := AList.mem_lookup_iff.mpr he
          rw [(h2.matched e.1 e.2 hlookup).1, h1.toldIn_mild hmild2, htold]
          rw [htasks] at hlookup
          exact hopen hknown e.1 e.2 hlookup hjob
        · intro e s3 hentries
          have hmild3 := Mutely.taskEntries.mildly s2
          rw [after_of_error hentries] at hmild3
          exact h2.mild hmild3
    · intro e s1 hrun
      have hmild := (Mutely.deleteSlaves (s.framework.slavesOfJob jobId)).mildly s
      rw [after_of_error hrun] at hmild
      exact h.mild hmild

end Account

/-! ## Runs -/

/-- The request does not contradict what the framework was told. A task whose end was told is not
    killed while its record is there, no executor reports it in another state, and no runner or
    executor reports it as running. Reconciliation does not ask for it, and it finds no such task
    that is staging. -/
def Request.Undisputed (told : Told) (s : State) : Request → Prop
  | .launchTasks _ => True
  | .killTask taskId => taskId ∈ s.framework.tasks → told.Open .killed taskId
  | .reconcileTasks [] =>
    ∀ k r, s.framework.tasks.lookup k = some r → r.state = .staging → told k = none
  | .reconcileTasks (x :: rest) =>
    ((x :: rest).map (·.taskId)).Nodup ∧ ∀ y ∈ x :: rest, told y.taskId = none
  | .reviveOffers => True
  | .statusUpdate u => told.Open u.state u.taskId
  | .registerExecutorRunner m => ∀ t ∈ m.tasks, told t.taskId = none
  | .reregisterExecutor m =>
    (∀ t ∈ m.tasks, told t.taskId = none) ∧ (∀ u ∈ m.updates, told.Open u.state u.taskId) ∧
      (sortedUpdates m.updates).Pairwise Account.Agree
  | .registerExecutor _ => True

/-- The event does not contradict what the framework was told. A job that is given up has no task
    whose end was told, unless it was told that the task is lost. -/
def Event.Undisputed (told : Told) (s : State) : Event → Prop
  | .queued r => s.tracking = .active → r.Undisputed told s
  | .deleteJob jobId => s.tracking ≠ .unknown → ∀ k r, s.framework.tasks.lookup k = some r →
      r.jobId = some jobId → told.Open .lost k
  | .http _ => False
  | .postprocessed => True
  | .clock _ => True

/-- Whether the framework launches tasks. -/
def Event.launching : Event → Bool
  | .queued (.launchTasks _) => true
  | _ => false

/-- A service, and what the framework was told. -/
structure Watch where
  state : State
  told : Told

namespace Watch

variable {env : Env} {w : Watch}

/-- What the service does in a step. -/
def news (env : Env) (w : Watch) (e : Event) : List Effect :=
  (Urb.step env w.state e).effects.drop w.state.effects.length

def step (env : Env) (w : Watch) (e : Event) : Watch where
  state := Urb.step env w.state e
  told := (w.news env e).foldl (Effect.tell e.launching) w.told

/-- The account of a step. -/
def account (w : Watch) (e : Event) : Account where
  launching := e.launching
  told := w.told
  log := w.state.effects

theorem toldIn_account (w : Watch) (e : Event) : (w.account e).toldIn w.state = w.told :=
  Account.toldIn_eq (a := w.account e) (List.append_nil w.state.effects).symm

/-- The records match what was told, which are terminal states. -/
structure Fair (w : Watch) : Prop where
  matched : Matches w.told w.state.framework
  terminal : ∀ k t, w.told k = some t → t.terminal = true

theorem Fair.sincere (h : w.Fair) (e : Event) : (w.account e).Sincere w.state where
  consistent := ⟨[], (List.append_nil _).symm, trivial⟩
  matched := by
    rw [toldIn_account]
    exact h.matched
  terminal := by
    rw [toldIn_account]
    exact h.terminal

theorem sincere_handle (h : w.Fair) (r : Request)
    (hu : w.state.tracking = .active → r.Undisputed w.told w.state) :
    (w.account (.queued r)).Sincere ((handle env .queue r).after w.state) := by
  have hsincere := h.sincere (.queued r)
  rw [← toldIn_account w (.queued r)] at hu
  cases r with
  | launchTasks m =>
    exact Triple.after (Account.forget (Account.launchTasks (P := fun _ => True) rfl env m))
      ⟨hsincere, trivial⟩
  | killTask taskId => exact Account.killTask env taskId hsincere hu
  | reconcileTasks statuses =>
    cases statuses with
    | nil => exact Account.reconcileAll env hsincere hu
    | cons x rest => exact Account.reconcileTasks env x rest hsincere hu
  | reviveOffers => exact hsincere.mild (Idly.reviveOffers.mildly w.state)
  | statusUpdate u => exact Account.statusUpdate env u hsincere hu
  | registerExecutorRunner m => exact Account.registerExecutorRunner env m hsincere hu
  | reregisterExecutor m =>
    exact Account.reregisterExecutor env m hsincere (fun h => (hu h).1) (fun h => (hu h).2.1)
      fun h => (hu h).2.2
  | registerExecutor m => exact hsincere.mild (Mildly.registerExecutor env .queue m w.state)

theorem sincere_step (h : w.Fair) (e : Event) (hu : e.Undisputed w.told w.state) :
    (w.account e).Sincere (Urb.step env w.state e) := by
  have hsincere := h.sincere e
  cases e with
  | queued r => exact (sincere_handle h r hu).mild (.targetPostprocessor _)
  | http c => exact hu.elim
  | deleteJob jobId =>
    apply Account.deleteJob jobId hsincere
    rw [toldIn_account]
    exact hu
  | postprocessed => exact hsincere.mild (.targetPostprocessor _)
  | clock now =>
    exact hsincere.mild ⟨⟨[], (List.append_nil _).symm, nofun⟩, (Mild.refl w.state).states⟩

theorem Fair.step (h : w.Fair) (e : Event) (hu : e.Undisputed w.told w.state) :
    (w.step env e).Fair ∧ Consistent e.launching w.told (w.news env e) := by
  have hsincere : (w.account e).Sincere (Urb.step env w.state e) := sincere_step h e hu
  refine ⟨⟨hsincere.matched, hsincere.terminal⟩, ?_⟩
  obtain ⟨new, hlog, hconsistent⟩ := hsincere.consistent
  have hnews : w.news env e = new := by
    rw [news, hlog]
    exact List.drop_left
  rw [hnews]
  exact hconsistent

/-- In a run of undisputed steps, every update for a task whose end was told since the framework
    launched it last has the state that was told. The records that are there at the start have the
    ids of their tasks, and the framework has not been told anything yet. -/
theorem terminal_state_final (env : Env) (s : State)
    (hids : ∀ k r, s.framework.tasks.lookup k = some r → r.taskInfo.taskId = k)
    (events : List Event)
    (h : Run.Meets (step env) (fun w e => e.Undisputed w.told w.state) ⟨s, fun _ => none⟩ events) :
    Run.Meets (step env) (fun w e => Consistent e.launching w.told (w.news env e))
      ⟨s, fun _ => none⟩ events := by
  refine Run.meets_of_invariant (fun w e hw hu => Fair.step hw e hu) ?_ h
  exact ⟨fun k r hr => ⟨hids k r hr, nofun⟩, nofun⟩

/-- A service of a framework with a scheduler channel that has not been told anything. -/
def start : Watch where
  state := { Sample.start with
    framework := { Sample.start.framework with channelName := "scheduler" } }
  told _ := none

/-- The slave registers, and its task is launched and killed. -/
def killed : List Event := Sample.launched ++ [.queued (.killTask "t")]

/-- The executor confirms that the task was killed. -/
theorem terminal_state_final_killed :
    Run.Meets (step Sample.env) (fun w e => Consistent e.launching w.told (w.news Sample.env e))
      start (killed ++ [.queued (.statusUpdate { Sample.finished with state := .killed })]) := by
  apply terminal_state_final Sample.env start.state
  · intro k r hr
    cases hr
  · apply Run.meets_concat.mpr
    constructor
    · apply Run.meets_concat.mpr
      constructor
      · exact ⟨fun _ t ht => absurd ht List.not_mem_nil, fun _ => trivial, trivial⟩
      · intro _ _
        left
        decide +kernel
    · intro _
      right
      decide +kernel

/-- The task has finished before the executor got the message to kill it. The record of the task is
    deleted by then, so that the framework is told of the end once more. -/
theorem finished_after_killed :
    ¬Run.Meets (step Sample.env) (fun w e => Consistent e.launching w.told (w.news Sample.env e))
      start (killed ++ [.queued (.statusUpdate Sample.finished)]) := by
  intro h
  have hmeets := Run.meets_concat.mp h
  have hnews : (killed.foldl (step Sample.env) start).news Sample.env
      (.queued (.statusUpdate Sample.finished)) =
        [.statusUpdate "scheduler" "t" .finished none] := by
    decide +kernel
  have htold : (killed.foldl (step Sample.env) start).told "t" = some .killed := by decide +kernel
  -- only these two facts about the state matter
  generalize killed.foldl (step Sample.env) start = w at hmeets hnews htold
  have hconsistent := hmeets.2
  rw [hnews] at hconsistent
  rcases hconsistent.1 with hnone | hsome
  · rw [htold] at hnone
    cases hnone
  · rw [htold] at hsome
    cases hsome

end Watch

end Urb
