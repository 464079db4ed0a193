import Mathlib
import Urb.Spec.Filed
import Urb.Spec.Told

/-!
# Implicit reconciliation

A `ReconcileTasks` message without statuses asks for all tasks that have not ended. The handler
sends an update for every record whose state is `TASK_RUNNING` or `TASK_STAGING`, and raises on a
record without a task id and on the fields of a record that an earlier explicit reconciliation left
among the keys of `task_dict`.

Which of its states Mesos counts as terminal is a parameter of the results, as long as
`TASK_RUNNING` and `TASK_STAGING` are not.
-/

namespace Urb

open EStateM (bind_apply get_apply)

/-! ## What is sent -/

/-- The tasks that the loop reports. -/
def TaskRecord.live (r : TaskRecord) : Bool := r.state = .running || r.state = .staging

/-- Updates for the framework are sent and not only logged. -/
def Framework.hears (f : Framework) : Bool := !(f.http && !f.offerEvent)

/-- The update that tells the recorded state of a task. -/
def Framework.report (f : Framework) (e : Sigma fun _ : String => TaskRecord) : Effect :=
  .statusUpdate f.channelName e.1 e.2.state none

def State.append (s : State) (es : List Effect) : State := { s with effects := s.effects ++ es }

theorem sendStatusUpdate_eq (taskId : String) (state : TaskState) (slaveId : Option String)
    (s : State) : sendStatusUpdate taskId state slaveId s = .ok ()
      (s.append (if s.framework.hears then
        [.statusUpdate s.framework.channelName taskId state slaveId] else [])) := by
  simp only [sendStatusUpdate, bind_apply, get_apply]
  by_cases hdeaf : (s.framework.http && !s.framework.offerEvent) = true
  · have hhears : s.framework.hears = false := by simp [Framework.hears, hdeaf]
    simp only [hdeaf, hhears, if_true, Bool.false_eq_true, if_false, State.append, List.append_nil]
    rfl
  · have hhears : s.framework.hears = true := by
      rw [Framework.hears, Bool.eq_false_iff.mpr hdeaf]
      rfl
    simp only [hdeaf, hhears, if_true]
    rfl

/-- What the loop sends. -/
theorem reconcileImplicit_eq_ok {es : List (Sigma fun _ : String => TaskRecord)} (s : State)
    (hid : ∀ e ∈ es, e.2.live = true → e.2.taskInfo.hasTaskId = true)
    (hkeyed : ∀ e ∈ es, e.2.taskInfo.taskId = e.1) :
    reconcileImplicit es s = .ok () (s.append
      (if s.framework.hears then (es.filter (·.2.live)).map s.framework.report else [])) := by
  induction es generalizing s with
  | nil => simp [reconcileImplicit, State.append, EStateM.pure_apply]
  | cons e es ih =>
    rw [List.forall_mem_cons] at hid hkeyed
    obtain ⟨k, r⟩ := e
    simp only [reconcileImplicit, bind_apply]
    cases hlive : r.live with
    | false =>
      have hskip : ¬(r.state = .running ∨ r.state = .staging) := by
        simpa [TaskRecord.live] using hlive
      rw [if_neg hskip, List.filter_cons_of_neg (by simp [hlive])]
      exact ih s hid.2 hkeyed.2
    | true =>
      have hsend : r.state = .running ∨ r.state = .staging := by
        simpa [TaskRecord.live] using hlive
      rw [if_pos hsend, if_pos (hid.1 hlive), sendStatusUpdate_eq,
        List.filter_cons_of_pos (by simp [hlive])]
      have hrest := ih (s.append (if s.framework.hears then
        [.statusUpdate s.framework.channelName r.taskInfo.taskId r.state none] else []))
        hid.2 hkeyed.2
      refine hrest.trans ?_
      have hk : r.taskInfo.taskId = k := hkeyed.1
      cases hears : s.framework.hears <;>
        simp [State.append, hears, hk, Framework.report]

theorem reconcileImplicit_raises {es : List (Sigma fun _ : String => TaskRecord)} (s : State)
    {e : Sigma fun _ : String => TaskRecord} (he : e ∈ es) (hlive : e.2.live = true)
    (hid : e.2.taskInfo.hasTaskId = false) :
    ∃ err s', reconcileImplicit es s = .error err s' := by
  induction es generalizing s with
  | nil => cases he
  | cons e' es ih =>
    obtain ⟨k, r⟩ := e'
    simp only [reconcileImplicit, bind_apply]
    rcases List.mem_cons.mp he with rfl | he
    · have hsend : r.state = .running ∨ r.state = .staging := by
        simpa [TaskRecord.live] using hlive
      have hmissing : ¬r.taskInfo.hasTaskId = true := by simpa using hid
      rw [if_pos hsend, if_neg hmissing]
      exact ⟨_, _, rfl⟩
    · split
      · exact ih _ he
      · exact ⟨_, _, rfl⟩

/-! ## Complete answers -/

/-- Of two filters of which one lets more through, both let the same through exactly if they agree
    on all elements. -/
theorem perm_map_filter_iff {α β : Type} {p q : α → Bool} (h : ∀ a, p a = true → q a = true)
    (f : α → β) (l : List α) :
    ((l.filter p).map f).Perm ((l.filter q).map f) ↔ ∀ a ∈ l, q a = true → p a = true := by
  constructor
  · intro hperm
    have hsub : (l.filter p).Sublist (l.filter q) := by
      have hboth : l.filter p = (l.filter q).filter p := by
        rw [List.filter_filter]
        refine List.filter_congr fun a _ => ?_
        cases hp : p a with
        | false => rfl
        | true => rw [h a hp]; rfl
      rw [hboth]
      exact List.filter_sublist
    have heq : l.filter p = l.filter q :=
      hsub.eq_of_length (by simpa using hperm.length_eq)
    intro a ha hq
    have hmem : a ∈ l.filter p := heq ▸ List.mem_filter.mpr ⟨ha, hq⟩
    exact (List.mem_filter.mp hmem).2
  · intro hall
    have heq : l.filter p = l.filter q := by
      refine List.filter_congr fun a ha => ?_
      cases hq : q a with
      | true => exact hall a ha hq
      | false =>
        cases hp : p a with
        | false => rfl
        | true => exact (h a hp).symm.trans hq
    rw [heq]

/-- One update with its recorded state for each task that has not ended. -/
def State.openReports (terminal : TaskState → Bool) (s : State) : List Effect :=
  (s.framework.tasks.entries.filter (!terminal ·.2.state)).map s.framework.report

/-- The handler returns, having sent one update with its recorded state for each task that has not
    ended, and nothing else. -/
def ReportsAll (terminal : TaskState → Bool) (env : Env) (entry : Entry) (s : State) : Prop :=
  ∃ s' us, reconcileTasks env entry [] s = .ok () s' ∧ s'.effects = s.effects ++ us ∧
    us.Perm (s.openReports terminal)

/-- `task_dict` holds records only, if it is looked at, and every task in it that has not ended can
    be reported. -/
structure Reportable (terminal : TaskState → Bool) (s : State) : Prop where
  noStray : s.tracking = .active → s.framework.strayTask = none
  unended : ∀ k r, s.framework.tasks.lookup k = some r → terminal r.state = false →
    s.tracking = .active ∧ s.framework.hears = true ∧ r.live = true ∧ r.taskInfo.hasTaskId = true

section

variable {terminal : TaskState → Bool} {env : Env} {entry : Entry} {s s' : State}

theorem entries_forall_iff {P : String → TaskRecord → Prop} :
    (∀ e ∈ s.framework.tasks.entries, P e.1 e.2) ↔
      ∀ k r, s.framework.tasks.lookup k = some r → P k r := by
  constructor
  · exact fun h k r hr => h ⟨k, r⟩ (AList.mem_lookup_iff.mp hr)
  · exact fun h e he => h e.1 e.2 (AList.mem_lookup_iff.mpr he)

theorem reportsAll_of_ok {us : List Effect} (hrun : reconcileTasks env entry [] s = .ok () s')
    (heffects : s'.effects = s.effects ++ us) :
    ReportsAll terminal env entry s ↔ us.Perm (s.openReports terminal) := by
  unfold ReportsAll
  rw [hrun]
  constructor
  · rintro ⟨_, us', ⟨⟩, heff, hperm⟩
    exact List.append_cancel_left (heffects.symm.trans heff) ▸ hperm
  · exact fun hperm => ⟨s', us, rfl, heffects, hperm⟩

theorem not_reportsAll_of_error {e : PyError} (hrun : reconcileTasks env entry [] s = .error e s') :
    ¬ReportsAll terminal env entry s := by
  rintro ⟨s', us, hok, -⟩
  cases hrun.symm.trans hok

theorem nil_perm_openReports_iff : ([] : List Effect).Perm (s.openReports terminal) ↔
    ∀ k r, s.framework.tasks.lookup k = some r → ¬terminal r.state = false := by
  rw [State.openReports, List.nil_perm, List.map_eq_nil_iff, List.filter_eq_nil_iff,
    ← entries_forall_iff]
  simp

theorem reportsAll_active_iff (hlive : ∀ r : TaskRecord, r.live = true → terminal r.state = false)
    (h : Filed s) (hactive : s.tracking = .active) (hstray : s.framework.strayTask = none) :
    ReportsAll terminal env entry s ↔ Reportable terminal s := by
  have hrun : reconcileTasks env entry [] s = reconcileImplicit s.framework.tasks.entries s := by
    simp only [reconcileTasks, taskEntries, bind_apply, get_apply, hactive,
      if_true, hstray]
    rfl
  have hkeyed : ∀ e ∈ s.framework.tasks.entries, e.2.taskInfo.taskId = e.1 :=
    entries_forall_iff.mpr fun k r hr => h.keyed hr
  by_cases hid : ∀ e ∈ s.framework.tasks.entries, e.2.live = true → e.2.taskInfo.hasTaskId = true
  · rw [reportsAll_of_ok (hrun.trans (reconcileImplicit_eq_ok s hid hkeyed)) rfl]
    cases hhears : s.framework.hears with
    | false =>
      simp only [Bool.false_eq_true, if_false, nil_perm_openReports_iff]
      constructor
      · exact fun hno => ⟨fun _ => hstray, fun k r hr hopen => absurd hopen (hno k r hr)⟩
      · intro hr k r hk hopen
        exact Bool.noConfusion (hhears.symm.trans (hr.unended k r hk hopen).2.1)
    | true =>
      have hsub : ∀ e : Sigma fun _ : String => TaskRecord,
          e.2.live = true → (!terminal e.2.state) = true := fun e he => by rw [hlive e.2 he]; rfl
      simp only [if_true, State.openReports, perm_map_filter_iff hsub]
      constructor
      · intro hall
        refine ⟨fun _ => hstray, fun k r hr hopen => ?_⟩
        have hmem : (⟨k, r⟩ : Sigma fun _ : String => TaskRecord) ∈ s.framework.tasks.entries :=
          AList.mem_lookup_iff.mp hr
        have hreported := hall _ hmem (by simp [hopen])
        exact ⟨hactive, hhears, hreported, hid _ hmem hreported⟩
      · intro hr e he hopen
        exact (hr.unended e.1 e.2 (AList.mem_lookup_iff.mpr he) (by simpa using hopen)).2.2.1
  · -- some record that is to be reported has no id
    push Not at hid
    obtain ⟨e, he, hreported, hmissing⟩ := hid
    obtain ⟨err, s1, hraise⟩ := reconcileImplicit_raises s he hreported (by simpa using hmissing)
    refine iff_of_false (not_reportsAll_of_error (hrun.trans hraise)) fun hr => hmissing ?_
    exact (hr.unended e.1 e.2 (AList.mem_lookup_iff.mpr he) (hlive e.2 hreported)).2.2.2

theorem reportsAll_iff (hlive : ∀ r : TaskRecord, r.live = true → terminal r.state = false)
    (h : Filed s) : ReportsAll terminal env entry s ↔ Reportable terminal s := by
  by_cases hactive : s.tracking = .active
  · cases hstray : s.framework.strayTask with
    | none => exact reportsAll_active_iff hlive h hactive hstray
    | some t =>
      have hrun : reconcileTasks env entry [] s = .error .typeError s := by
        simp only [reconcileTasks, taskEntries, bind_apply, get_apply, hactive,
          if_true, hstray]
        rfl
      refine iff_of_false (not_reportsAll_of_error hrun) fun hr => ?_
      exact Option.some_ne_none t (hstray.symm.trans (hr.noStray hactive))
  · -- the request is only queued again
    obtain ⟨s', hrun, heffects⟩ : ∃ s', reconcileTasks env entry [] s = .ok () s' ∧
        s'.effects = s.effects ++ [] := by
      simp only [reconcileTasks, bind_apply, get_apply, hactive, if_false,
        List.append_nil]
      cases entry
      · exact ⟨_, rfl, rfl⟩
      · exact ⟨_, rfl, rfl⟩
    rw [reportsAll_of_ok hrun heffects, nil_perm_openReports_iff]
    constructor
    · exact fun hno => ⟨fun ha => absurd ha hactive, fun k r hr hopen => absurd hopen (hno k r hr)⟩
    · exact fun hr k r hk hopen => hactive (hr.unended k r hk hopen).1

end

/-- In every state that a run reaches, the answer to an implicit reconciliation is complete exactly
    if every task that has not ended can be reported. -/
theorem implicit_reconcile_complete_iff (terminal : TaskState → Bool)
    (hrunning : terminal .running = false) (hstaging : terminal .staging = false)
    (env : Env) (entry : Entry) (start : State) (hstart : Fresh start) (events : List Event) :
    ReportsAll terminal env entry (run env start events) ↔
      Reportable terminal (run env start events) := by
  refine reportsAll_iff (fun r hr => ?_) ((Filed.of_fresh hstart).run env events)
  have hstate : r.state = .running ∨ r.state = .staging := by simpa [TaskRecord.live] using hr
  rcases hstate with hstate | hstate
  · rw [hstate, hrunning]
  · rw [hstate, hstaging]

/-- A task that was just launched is reported. -/
theorem implicit_reconcile_complete_staging : ReportsAll TaskState.terminal Sample.env .queue
    (run Sample.env Sample.start Sample.launched) :=
  (implicit_reconcile_complete_iff TaskState.terminal rfl rfl Sample.env .queue Sample.start
    ⟨rfl, rfl, rfl⟩ Sample.launched).mpr
    ⟨fun _ => by decide +kernel, entries_forall_iff.mp (by decide +kernel)⟩

/-- The executor reports `TASK_STARTING`, which is recorded. Implicit reconciliation sends nothing
    for the task. -/
theorem implicit_reconcile_incomplete :
    let s := run Sample.env Sample.start
      (Sample.launched ++ [.queued (.statusUpdate { Sample.finished with state := .starting })])
    s.framework.tasks.entries.map (fun e => (e.1, e.2.state)) = [("t", .starting)] ∧
      ((reconcileTasks Sample.env .queue []).after s).effects = s.effects ∧
      ¬ReportsAll TaskState.terminal Sample.env .queue s := by
  intro s
  have hentries : s.framework.tasks.entries.map (fun e => (e.1, e.2.state)) =
      [("t", .starting)] := by
    decide +kernel
  have heffects : ((reconcileTasks Sample.env .queue []).after s).effects = s.effects := by
    decide +kernel
  refine ⟨hentries, heffects, ?_⟩
  rintro ⟨s', us, hrun, heff, hperm⟩
  rw [EStateM.after_of_ok hrun, heff, List.append_right_eq_self] at heffects
  have hlength := hperm.length_eq
  have hopen : (s.openReports TaskState.terminal).length = 1 := by decide +kernel
  rw [heffects, hopen] at hlength
  cases hlength

end Urb
