import Mathlib
import Urb.ForStd.EStateM
import Urb.ForStd.Run
import Urb.Native.JobMonitor

/-!
# What the job monitor survives, and which jobs it gives up

An exception in the body of the `try` statement of `JobMonitor.monitor` is handled by retrieving
the accounting of the job. What goes wrong there ends the loop, and with it the monitoring of all
jobs. If nothing goes wrong and there is some accounting, the job is given up, whatever the
exception was; the accounting of `K8SAdapter` is never empty.
-/

namespace Urb

open K8SAdapter

variable {jobId : String} {rest : List String}

variable {m : JobMonitor} (maxCount : Int) (w : JobWatch)

open EStateM

/-! ## What the calls of an iteration raise -/

/-- What the delete callback raises is logged. -/
def AccountingCalls.deletionLogged (calls : AccountingCalls) : Bool :=
  match calls.deleteJob with
  | .ok _ => true
  | .error _ => calls.deleteErrorFormats

/-- What the part that retrieves the accounting raises, if it is called for the `count`-th time. -/
def AccountingCalls.raised (maxCount : Int) (count : Nat) (calls : AccountingCalls) :
    Option JobError :=
  match calls.getJobAccounting, calls.accountingFormats, calls.updateJobAccounting with
  | .error e, _, _ => some e
  | .ok _, false, _ => some .other
  | .ok _, true, .error e => some e
  | .ok none, true, .ok _ => some .other
  | .ok (some accounting), true, .ok _ =>
    if accounting = [] ∧ ¬maxCount < count ∨ calls.deletionLogged then none else some .other

/-- What the body of the `try` statement raises. -/
def JobCalls.raised (maxCount : Int) (calls : JobCalls) (info : JobInfo) : Option JobError :=
  if info.monitorJob then
    match calls.getJobStatus, calls.updateJobStatus with
    | .error e, _ => some e
    | .ok _, .error e => some e
    | .ok _, .ok _ => none
  else calls.body.raised maxCount (info.accountingRetrievalCount + 1)

namespace JobTracker

variable {maxCount : Int} {jobId : String} {info : JobInfo} {s : JobTracker}

theorem call_apply {α : Type} (outcome : Except JobError α) (s : JobTracker) :
    call outcome s = match outcome with
      | .ok a => .ok a s
      | .error e => .error e s := by
  cases outcome <;> rfl

/-- The job is removed and the delete callback is called. -/
def remove (s : JobTracker) (jobId frameworkId : String) : JobTracker :=
  { s with jobs := s.jobs.erase jobId, deleted := s.deleted ++ [(jobId, frameworkId)] }

theorem removeJobFromTracker_apply (jobId frameworkId : String) (calls : AccountingCalls)
    (s : JobTracker) :
    removeJobFromTracker jobId frameworkId calls s =
      if calls.deletionLogged then .ok () (s.remove jobId frameworkId)
      else .error .other (s.remove jobId frameworkId) := by
  obtain ⟨getJobAccounting, accountingFormats, updateJobAccounting, deleteJob, formats⟩ := calls
  cases deleteJob with
  | ok _ => rfl
  | error e => cases formats <;> rfl

theorem format_apply (formats : Bool) (s : JobTracker) :
    format formats s = if formats then .ok () s else .error .other s := by
  cases formats <;> rfl

/-- No job is removed and no callback is called. -/
structure Kept (s s' : JobTracker) : Prop where
  deleted : s'.deleted = s.deleted
  mem : ∀ id, id ∈ s'.jobs ↔ id ∈ s.jobs

theorem Kept.refl (s : JobTracker) : Kept s s := ⟨rfl, fun _ => Iff.rfl⟩

theorem Kept.trans {s1 s2 s3 : JobTracker} (h : Kept s1 s2) (h' : Kept s2 s3) : Kept s1 s3 :=
  ⟨h'.deleted.trans h.deleted, fun id => (h'.mem id).trans (h.mem id)⟩

theorem modifyJob_kept (jobId : String) (g : JobInfo → JobInfo) (s : JobTracker) :
    ∃ s', modifyJob jobId g s = .ok () s' ∧ Kept s s' := by
  cases hinfo : s.jobs.lookup jobId with
  | none => exact ⟨s, by simp only [modifyJob, modify_apply, hinfo], .refl s⟩
  | some info =>
    refine ⟨{ s with jobs := s.jobs.insert jobId (g info) }, ?_, rfl, fun id => ?_⟩
    · simp only [modifyJob, modify_apply, hinfo]
    · rw [AList.mem_insert]
      constructor
      · intro hid
        cases hid with
        | inl heq => exact heq ▸ AList.lookup_isSome.mp (by rw [hinfo]; rfl)
        | inr hid => exact hid
      · exact Or.inr

/-- What the retrieval of the accounting comes to once the counter is set: it raises, it removes the
    job, or it leaves it for another time. -/
inductive Retrieved (maxCount : Int) (count : Nat) (jobId frameworkId : String)
    (calls : AccountingCalls) (s : JobTracker) : Result JobError JobTracker Unit → Prop
  | raised {e : JobError} {s' : JobTracker} (hraised : calls.raised maxCount count = some e)
      (hkept : calls.deletionLogged → Kept s s') :
      Retrieved maxCount count jobId frameworkId calls s (.error e s')
  | left {s' : JobTracker} (hraised : calls.raised maxCount count = none)
      (hnone : calls.getJobAccounting = .ok (some [])) (hkept : Kept s s') :
      Retrieved maxCount count jobId frameworkId calls s (.ok () s')
  | removed {s' : JobTracker} (hraised : calls.raised maxCount count = none) (hkept : Kept s s') :
      Retrieved maxCount count jobId frameworkId calls s (.ok () (s'.remove jobId frameworkId))

theorem retrieveJobAccounting_retrieved (maxCount : Int) (count : Nat) (jobId frameworkId : String)
    (calls : AccountingCalls) {s s' : JobTracker} (hkept : Kept s s') :
    Retrieved maxCount count jobId frameworkId calls s
      (retrieveJobAccounting maxCount count jobId frameworkId calls s') := by
  -- with an accounting that has a length, the job is left, removed, or the removal is not logged
  have hremove : ∀ accounting, calls.getJobAccounting = .ok (some accounting) →
      calls.accountingFormats = true → calls.updateJobAccounting = .ok () →
      ¬(accounting = [] ∧ ¬maxCount < count) →
      Retrieved maxCount count jobId frameworkId calls s
        (removeJobFromTracker jobId frameworkId calls s') := by
    intro accounting haccounting hformats hupdate hgone
    rw [removeJobFromTracker_apply]
    split
    · rename_i hlogged
      refine .removed ?_ hkept
      simp [AccountingCalls.raised, haccounting, hformats, hupdate, hlogged]
    · rename_i hlogged
      refine .raised ?_ fun h => absurd h hlogged
      simp only [AccountingCalls.raised, haccounting, hformats, hupdate]
      rw [if_neg]
      exact not_or.mpr ⟨hgone, hlogged⟩
  simp only [retrieveJobAccounting, bind_apply, call_apply, format_apply]
  cases haccounting : calls.getJobAccounting with
  | error e => exact .raised (by simp [AccountingCalls.raised, haccounting]) fun _ => hkept
  | ok accounting =>
    cases hformats : calls.accountingFormats with
    | false => exact .raised (by simp [AccountingCalls.raised, haccounting, hformats]) fun _ => hkept
    | true =>
      cases hupdate : calls.updateJobAccounting with
      | error e =>
        exact .raised (by simp [AccountingCalls.raised, haccounting, hformats, hupdate])
          fun _ => hkept
      | ok _ =>
        cases accounting with
        | none =>
          exact .raised (by simp [AccountingCalls.raised, haccounting, hformats, hupdate])
            fun _ => hkept
        | some accounting =>
          simp only [if_true]
          split
          · rename_i hlength
            exact hremove accounting haccounting hformats hupdate
              fun h => by simp [h.1] at hlength
          · split
            · rename_i hcount
              exact hremove accounting haccounting hformats hupdate fun h => h.2 hcount
            · rename_i hlength hcount
              have hnil : accounting = [] := List.length_eq_zero_iff.mp (by omega)
              subst hnil
              refine .left ?_ haccounting hkept
              simp only [AccountingCalls.raised, haccounting, hformats, hupdate]
              rw [if_pos (.inl ⟨trivial, hcount⟩)]

theorem modifyJob_retrieved (maxCount : Int) (s : JobTracker) (jobId : String)
    (g : JobInfo → JobInfo) (count : Nat) (frameworkId : String) (calls : AccountingCalls) :
    Retrieved maxCount count jobId frameworkId calls s ((do
      modifyJob jobId g
      retrieveJobAccounting maxCount count jobId frameworkId calls : JobM Unit) s) := by
  obtain ⟨s', hmodify, hkept⟩ := modifyJob_kept jobId g s
  simp only [bind_apply, hmodify]
  exact retrieveJobAccounting_retrieved maxCount count jobId frameworkId calls hkept

/-- What the body of the `try` statement comes to. -/
inductive Polled (maxCount : Int) (jobId : String) (info : JobInfo) (calls : JobCalls)
    (s : JobTracker) : Result JobError JobTracker Unit → Prop
  | raised {e : JobError} {s' : JobTracker} (hraised : calls.raised maxCount info = some e)
      (hkept : calls.body.deletionLogged → Kept s s') :
      Polled maxCount jobId info calls s (.error e s')
  | returned {s' : JobTracker} (hraised : calls.raised maxCount info = none) (hkept : Kept s s') :
      Polled maxCount jobId info calls s (.ok () s')
  | removed {s' : JobTracker} (hraised : calls.raised maxCount info = none)
      (hstopped : info.monitorJob = false) (hkept : Kept s s') :
      Polled maxCount jobId info calls s (.ok () (s'.remove jobId info.frameworkId))

theorem pollJob_polled (maxCount : Int) (jobId : String) (info : JobInfo) (calls : JobCalls) :
    Polled maxCount jobId info calls s (pollJob maxCount jobId info calls s) := by
  cases hmonitor : info.monitorJob with
  | true =>
    have hraised : calls.raised maxCount info = match calls.getJobStatus, calls.updateJobStatus with
        | .error e, _ => some e
        | .ok _, .error e => some e
        | .ok _, .ok _ => none := by simp [JobCalls.raised, hmonitor]
    simp only [pollJob, hmonitor, if_true, bind_apply, call_apply]
    generalize calls.getJobStatus = status at hraised
    generalize calls.updateJobStatus = update at hraised
    cases status with
    | error e => exact .raised hraised fun _ => .refl s
    | ok _ =>
      cases update with
      | error e => exact .raised hraised fun _ => .refl s
      | ok _ => exact .returned hraised (.refl s)
  | false =>
    have hraised : calls.raised maxCount info =
        calls.body.raised maxCount (info.accountingRetrievalCount + 1) := by
      simp [JobCalls.raised, hmonitor]
    have hretrieved := modifyJob_retrieved maxCount s jobId
      ({ · with accountingRetrievalCount := info.accountingRetrievalCount + 1 })
      (info.accountingRetrievalCount + 1) info.frameworkId calls.body
    simp only [pollJob, hmonitor, Bool.false_eq_true, if_false,
      retrieveJobAccountingAndRemoveJobFromTracker]
    generalize (do
      modifyJob jobId ({ · with accountingRetrievalCount := info.accountingRetrievalCount + 1 })
      retrieveJobAccounting maxCount (info.accountingRetrievalCount + 1) jobId info.frameworkId
        calls.body : JobM Unit) s = r at hretrieved
    cases hretrieved with
    | raised hr hkept => exact .raised (hraised.trans hr) hkept
    | left hr hnone hkept => exact .returned (hraised.trans hr) hkept
    | removed hr hkept => exact .removed (hraised.trans hr) hmonitor hkept

/-- What the exception handler raises. -/
def handlerRaised (maxCount : Int) (info : JobInfo) (calls : JobCalls) : Option JobError :=
  calls.handler.raised maxCount (info.statusRetrievalErrorCount + 1)

/-- What an iteration comes to, for a job that is tracked. A job is removed behind the back of an
    exception only if the delete callback raised what cannot be logged. -/
inductive Monitored (maxCount : Int) (jobId : String) (info : JobInfo) (calls : JobCalls)
    (s : JobTracker) : Result JobError JobTracker Unit → Prop
  | kept {s' : JobTracker} (hraised : ∀ e, calls.raised maxCount info = some e →
        calls.errorFormats = true ∧ e = .pendingJob)
      (hkept : calls.body.deletionLogged → Kept s s') :
      Monitored maxCount jobId info calls s (.ok () s')
  | stopped {s' : JobTracker} (hraised : calls.raised maxCount info = none)
      (hstopped : info.monitorJob = false) (hkept : Kept s s') :
      Monitored maxCount jobId info calls s (.ok () (s'.remove jobId info.frameworkId))
  | unlogged {e : JobError} {s' : JobTracker} (hraised : calls.raised maxCount info = some e)
      (hformats : calls.errorFormats = false) (hkept : calls.body.deletionLogged → Kept s s') :
      Monitored maxCount jobId info calls s (.error .other s')
  | escaped {e e' : JobError} {s' : JobTracker} (hraised : calls.raised maxCount info = some e)
      (he : e ≠ .pendingJob) (hhandler : handlerRaised maxCount info calls = some e')
      (hkept : calls.body.deletionLogged → calls.handler.deletionLogged → Kept s s') :
      Monitored maxCount jobId info calls s (.error e' s')
  | left {e : JobError} {s' : JobTracker} (hraised : calls.raised maxCount info = some e)
      (hformats : calls.errorFormats = true) (he : e ≠ .pendingJob)
      (hhandler : handlerRaised maxCount info calls = none)
      (hnone : calls.handler.getJobAccounting = .ok (some []))
      (hkept : calls.body.deletionLogged → Kept s s') :
      Monitored maxCount jobId info calls s (.ok () s')
  | givenUp {e : JobError} {s' : JobTracker} (hraised : calls.raised maxCount info = some e)
      (hformats : calls.errorFormats = true) (he : e ≠ .pendingJob)
      (hhandler : handlerRaised maxCount info calls = none)
      (hkept : calls.body.deletionLogged → Kept s s') :
      Monitored maxCount jobId info calls s (.ok () (s'.remove jobId info.frameworkId))

theorem monitorJob_monitored (maxCount : Int) (h : s.jobs.lookup jobId = some info)
    (calls : JobCalls) :
    Monitored maxCount jobId info calls s (monitorJob maxCount jobId calls s) := by
  have hpolled := pollJob_polled (s := s) maxCount jobId info calls
  simp only [monitorJob, h]
  generalize pollJob maxCount jobId info calls s = r at hpolled
  -- the exception handler is entered with all exceptions but one
  have hhandle : ∀ {e : JobError} {s' : JobTracker}, calls.raised maxCount info = some e →
      calls.errorFormats = true → e ≠ .pendingJob → (calls.body.deletionLogged → Kept s s') →
      Monitored maxCount jobId info calls s
        (handleJobStatusRetrievalError maxCount jobId info calls.handler s') := by
    intro e s' hraised hformats he hkept
    have hretrieved := modifyJob_retrieved maxCount s' jobId
      ({ · with statusRetrievalErrorCount := info.statusRetrievalErrorCount + 1 })
      (info.statusRetrievalErrorCount + 1) info.frameworkId calls.handler
    unfold handleJobStatusRetrievalError
    generalize (do
      modifyJob jobId ({ · with statusRetrievalErrorCount := info.statusRetrievalErrorCount + 1 })
      retrieveJobAccounting maxCount (info.statusRetrievalErrorCount + 1) jobId info.frameworkId
        calls.handler : JobM Unit) s' = r at hretrieved
    cases hretrieved with
    | raised hr hkept' =>
      exact .escaped hraised he hr fun hbody hhandler => (hkept hbody).trans (hkept' hhandler)
    | left hr hnone hkept' =>
      exact .left hraised hformats he hr hnone fun hbody => (hkept hbody).trans hkept'
    | removed hr hkept' =>
      exact .givenUp hraised hformats he hr fun hbody => (hkept hbody).trans hkept'
  cases hpolled with
  | returned hraised hkept =>
    exact .kept (fun e he => by rw [hraised] at he; cases he) fun _ => hkept
  | removed hraised hstopped hkept => exact .stopped hraised hstopped hkept
  | raised hraised hkept =>
    rename_i e s'
    cases hformats : calls.errorFormats with
    | false => exact .unlogged hraised hformats hkept
    | true =>
      cases e with
      | pendingJob =>
        refine .kept (fun e he => ?_) hkept
        rw [hraised] at he
        exact ⟨hformats, (Option.some.inj he).symm⟩
      | unknownJob => exact hhandle hraised hformats (by decide) hkept
      | completedJob => exact hhandle hraised hformats (by decide) hkept
      | other => exact hhandle hraised hformats (by decide) hkept

theorem monitorJob_untracked (maxCount : Int) (h : s.jobs.lookup jobId = none) (calls : JobCalls) :
    monitorJob maxCount jobId calls s = .ok () s := by
  simp only [monitorJob, h]

end JobTracker

/-! ## The loop survives -/

namespace JobMonitor

/-- An exception escapes from an exception handler of the iteration: its text cannot be logged, or
    it is not `PendingJob` and the handler raises. -/
def Escapes (maxCount : Int) (m : JobMonitor) : MonitorEvent → Prop
  | .poll calls => ∃ jobId rest info e, m.pc = .polling (jobId :: rest) ∧
      m.tracker.jobs.lookup jobId = some info ∧ calls.raised maxCount info = some e ∧
      (calls.errorFormats = false ∨
        e ≠ .pendingJob ∧ JobTracker.handlerRaised maxCount info calls ≠ none)
  | _ => False

/-- The loop over the jobs is over. -/
def passOver (m : JobMonitor) : Prop := ∀ jobId rest, m.pc ≠ .polling (jobId :: rest)

/-- The loop has ended only if `stop` was called, and a pass that is over came to every job that
    was tracked at its start. -/
def Survives (m : JobMonitor) : Prop :=
  (m.pc = .exited ∨ m.pc = .crashed → m.monitor = false) ∧ (m.passOver → m.attempted = m.pass)

/-- As long as nothing escapes, the jobs of the pass are those that were attempted and those that
    are left. -/
def OnTrack (m : JobMonitor) : Prop :=
  match m.pc with
  | .polling rest => m.attempted ++ rest = m.pass
  | .crashed => True
  | .check => m.attempted = m.pass
  | .exited => m.attempted = m.pass ∧ m.monitor = false

theorem Survives.of_onTrack (h : m.OnTrack) (hpc : m.pc ≠ .crashed) : m.Survives := by
  unfold OnTrack at h
  constructor
  · intro hend
    rw [hend.resolve_right hpc] at h
    exact h.2
  · intro hover
    cases hm : m.pc with
    | check => rw [hm] at h; exact h
    | exited => rw [hm] at h; exact h.1
    | crashed => exact absurd hm hpc
    | polling rest =>
      rw [hm] at h
      cases rest with
      | nil => rw [← h, List.append_nil]
      | cons jobId rest => exact absurd hm (hover jobId rest)

theorem monitorJob_raises_iff (hpc : m.pc = .polling (jobId :: rest)) (calls : JobCalls) :
    (JobTracker.monitorJob maxCount jobId calls m.tracker).returned = false ↔
      m.Escapes maxCount (.poll calls) := by
  cases hinfo : m.tracker.jobs.lookup jobId with
  | none =>
    rw [JobTracker.monitorJob_untracked maxCount hinfo]
    refine iff_of_false (by simp [Result.returned]) ?_
    intro ⟨jobId', rest', info, e, hpc', hinfo', _⟩
    rw [hpc] at hpc'
    cases hpc'
    rw [hinfo] at hinfo'
    cases hinfo'
  | some info =>
    have hescapes : m.Escapes maxCount (.poll calls) ↔ ∃ e, calls.raised maxCount info = some e ∧
        (calls.errorFormats = false ∨
          e ≠ .pendingJob ∧ JobTracker.handlerRaised maxCount info calls ≠ none) := by
      constructor
      · intro ⟨jobId', rest', info', e, hpc', hinfo', h⟩
        rw [hpc] at hpc'
        cases hpc'
        rw [hinfo] at hinfo'
        cases hinfo'
        exact ⟨e, h⟩
      · intro ⟨e, h⟩
        exact ⟨jobId, rest, info, e, hpc, hinfo, h⟩
    have hmonitored := JobTracker.monitorJob_monitored maxCount hinfo calls
    rw [hescapes]
    generalize JobTracker.monitorJob maxCount jobId calls m.tracker = r at hmonitored
    cases hmonitored with
    | kept hraised _ =>
      refine iff_of_false (by simp [Result.returned]) ?_
      intro ⟨e, he, hor⟩
      obtain ⟨hformats, hpending⟩ := hraised e he
      rcases hor with hfails | ⟨hne, -⟩
      · rw [hformats] at hfails
        cases hfails
      · exact hne hpending
    | stopped hraised _ _ => simp [Result.returned, hraised]
    | unlogged hraised hformats _ => exact iff_of_true rfl ⟨_, hraised, .inl hformats⟩
    | escaped hraised he hhandler _ =>
      exact iff_of_true rfl ⟨_, hraised, .inr ⟨he, by rw [hhandler]; exact Option.some_ne_none _⟩⟩
    | left hraised hformats _ hhandler _ _ => simp [Result.returned, hhandler, hformats]
    | givenUp hraised hformats _ hhandler _ => simp [Result.returned, hhandler, hformats]

theorem OnTrack.step (h : m.OnTrack) (maxCount : Int) (e : MonitorEvent) :
    (m.step maxCount e).OnTrack := by
  cases e with
  | check =>
    simp only [JobMonitor.step]
    split
    · rename_i hpc
      split
      · simp [OnTrack]
      · rename_i hmonitor
        unfold OnTrack at h
        rw [hpc] at h
        exact ⟨h, by simpa using hmonitor⟩
    · exact h
  | poll calls =>
    simp only [JobMonitor.step]
    split
    · rename_i hpc
      unfold OnTrack at h
      rw [hpc] at h
      simpa [OnTrack] using h
    · rename_i jobId rest hpc
      unfold OnTrack at h
      rw [hpc] at h
      split
      · simpa [OnTrack] using h
      · trivial
    · exact h
  | stop =>
    unfold OnTrack at h ⊢
    cases hpc : m.pc with
    | exited =>
      rw [hpc] at h
      simpa [JobMonitor.step, hpc] using h.1
    | check => rw [hpc] at h; simpa [JobMonitor.step, hpc] using h
    | polling rest => rw [hpc] at h; simpa [JobMonitor.step, hpc] using h
    | crashed => simp [JobMonitor.step, hpc]
  | startJobMonitoring jobId frameworkId => exact h
  | stopJobMonitoring jobId => exact h

theorem crashed_step {maxCount : Int} {e : MonitorEvent} (hpc : m.pc ≠ .crashed)
    (h : (m.step maxCount e).pc = .crashed) : m.Escapes maxCount e := by
  cases e with
  | check =>
    simp only [JobMonitor.step] at h
    split at h
    · split at h
      · cases h
      · cases h
    · exact absurd h hpc
  | poll calls =>
    simp only [JobMonitor.step] at h
    split at h
    · cases h
    · rename_i jobId rest hpc'
      split at h
      · cases h
      · rename_i hrun
        exact (monitorJob_raises_iff maxCount hpc' calls).mp (by rw [hrun]; rfl)
    · exact absurd h hpc
  | stop => exact absurd h hpc
  | startJobMonitoring jobId frameworkId => exact absurd h hpc
  | stopJobMonitoring jobId => exact absurd h hpc

theorem step_of_escapes {calls : JobCalls}
    (hpc : m.pc = .polling (jobId :: rest)) (h : m.Escapes maxCount (.poll calls)) :
    (m.step maxCount (.poll calls)).pc = .crashed ∧
      (m.step maxCount (.poll calls)).monitor = m.monitor ∧
      (m.step maxCount (.poll calls)).attempted = m.attempted ++ [jobId] ∧
      (m.step maxCount (.poll calls)).pass = m.pass := by
  have hraises := (monitorJob_raises_iff maxCount hpc calls).mpr h
  simp only [JobMonitor.step, hpc]
  split
  · rename_i hrun
    rw [hrun] at hraises
    cases hraises
  · exact ⟨rfl, rfl, rfl, rfl⟩

/-- After `stop` was called, the exception of the last job of a pass does no harm. -/
def Harmless (m : JobMonitor) : Prop := m.monitor = false ∧ ∃ jobId, m.pc = .polling [jobId]

theorem survives_step_iff (e : MonitorEvent) (h : m.OnTrack)
    (hsurvives : m.Survives) : (m.step maxCount e).Survives ↔ (m.Escapes maxCount e → m.Harmless) := by
  by_cases hcrashed : (m.step maxCount e).pc = .crashed
  case neg =>
    refine iff_of_true (.of_onTrack (h.step maxCount e) hcrashed) fun hescapes => ?_
    cases e with
    | poll calls =>
      have ⟨jobId, rest, _, _, hpc, _⟩ := hescapes
      exact absurd (step_of_escapes maxCount hpc hescapes).1 hcrashed
    | _ => exact hescapes.elim
  by_cases hpc : m.pc = .crashed
  · -- the loop ended before
    have hstep : (m.step maxCount e).Survives := by
      cases e with
      | stop => exact ⟨fun _ => rfl, hsurvives.2⟩
      | check => simpa [JobMonitor.step, hpc] using hsurvives
      | poll calls => simpa [JobMonitor.step, hpc] using hsurvives
      | startJobMonitoring jobId frameworkId => exact hsurvives
      | stopJobMonitoring jobId => exact hsurvives
    refine iff_of_true hstep fun hescapes => ?_
    cases e with
    | poll calls =>
      obtain ⟨jobId, rest, _, _, hpc', _⟩ := hescapes
      rw [hpc] at hpc'
      cases hpc'
    | _ => exact hescapes.elim
  · have hescapes := crashed_step hpc hcrashed
    cases e with
    | poll calls =>
      have ⟨jobId, rest, _, _, hpolling, _⟩ := hescapes
      obtain ⟨_, hmonitor, hattempted, hpass⟩ := step_of_escapes maxCount hpolling hescapes
      unfold OnTrack at h
      rw [hpolling] at h
      have hover : (m.step maxCount (.poll calls)).passOver := by
        intro _ _ hpc'
        rw [hcrashed] at hpc'
        cases hpc'
      simp [Survives, hcrashed, hover, hmonitor, hattempted, hpass, ← h, Harmless, hpolling,
        hescapes]
    | _ => exact hescapes.elim

end JobMonitor

/-! ## Jobs that are given up -/

/-- The jobs, monitored with `K8SAdapter`. `errors` counts the errors of a job other than those that
    say it is unknown, completed or pending, since its status was retrieved last. -/
structure JobWatch where
  tracker : JobTracker := {}
  errors : String → Nat := fun _ => 0

/-- What happens to jobs: one comes to be monitored or is not to be monitored any longer, or the
    monitor comes to it. -/
inductive WatchEvent where
  | startJobMonitoring (jobId frameworkId : String)
  | stopJobMonitoring (jobId : String)
  | poll (jobId : String) (job : Option JobStatusResponse)
      (pod : Option PodStatusResponse) (updateJobStatus : Except JobError Unit)
      (body handler : Callbacks)

namespace JobWatch

/-- The errors of a job in sequence, after its status was asked for once more. -/
def countErrors (errors : Nat) (status : Except JobError Unit) : Nat :=
  match status with
  | .error .other => errors + 1
  | _ => 0

def step (maxCount : Int) (w : JobWatch) : WatchEvent → JobWatch
  | .startJobMonitoring jobId frameworkId =>
    { tracker := w.tracker.startJobMonitoring jobId frameworkId
      errors := Function.update w.errors jobId 0 }
  | .stopJobMonitoring jobId => { w with tracker := w.tracker.stopJobMonitoring jobId }
  | .poll jobId job pod updateJobStatus body handler =>
    { tracker := (JobTracker.monitorJob maxCount jobId
        (calls job pod updateJobStatus body handler)).after w.tracker
      errors := Function.update w.errors jobId
        (countErrors (w.errors jobId) (getJobStatus job pod)) }

/-- The job is removed, or the delete callback is called for it. -/
def GivenUp (jobId : String) (s s' : JobTracker) : Prop :=
  (jobId ∈ s.jobs ∧ jobId ∉ s'.jobs) ∨
    ∃ frameworkId, s'.deleted = s.deleted ++ [(jobId, frameworkId)]

/-- What is a cause to give the job up: it is not to be monitored any longer, the adapter reports it
    completed or unknown, or its status could not be retrieved too many times. -/
def Cause (maxCount : Int) (w : JobWatch) (jobId : String) : WatchEvent → Prop
  | .poll id job pod _ _ _ => id = jobId ∧
      ((∃ info, w.tracker.jobs.lookup jobId = some info ∧ info.monitorJob = false) ∨
        getJobStatus job pod = .error .completedJob ∨
        getJobStatus job pod = .error .unknownJob ∨
        maxCount < countErrors (w.errors jobId) (getJobStatus job pod))
  | _ => False

/-- The event gives up jobs for a cause only. -/
def ForCause (maxCount : Int) (w : JobWatch) (e : WatchEvent) : Prop :=
  ∀ jobId, GivenUp jobId w.tracker (w.step maxCount e).tracker → w.Cause maxCount jobId e

/-- The status of a job that is to be monitored is not retrieved, or the callback to which it is
    passed raises, and there were not yet too many errors. -/
def Hasty (maxCount : Int) (w : JobWatch) : WatchEvent → Prop
  | .poll jobId job pod updateJobStatus _ handler =>
    (∃ info, w.tracker.jobs.lookup jobId = some info ∧ info.monitorJob = true) ∧
      handler.updateJobAccounting = .ok () ∧
      countErrors (w.errors jobId) (getJobStatus job pod) ≤ maxCount ∧
      (getJobStatus job pod = .error .other ∨
        getJobStatus job pod = .ok () ∧
          ∃ e, updateJobStatus = .error e ∧ e ≠ .pendingJob)
  | _ => False

theorem not_givenUp {s s' : JobTracker} (h : JobTracker.Kept s s') : ¬GivenUp jobId s s' := by
  intro hgiven
  cases hgiven with
  | inl hgone => exact hgone.2 ((h.mem jobId).mpr hgone.1)
  | inr hcalled =>
    obtain ⟨frameworkId, hcalled⟩ := hcalled
    rw [h.deleted] at hcalled
    simp at hcalled

theorem givenUp_remove_iff {id frameworkId : String} {s s' : JobTracker}
    (h : JobTracker.Kept s s') : GivenUp jobId s (s'.remove id frameworkId) ↔ jobId = id := by
  constructor
  · intro hgiven
    cases hgiven with
    | inl hgone =>
      by_contra hne
      exact hgone.2 (AList.mem_erase.mpr ⟨hne, (h.mem jobId).mpr hgone.1⟩)
    | inr hcalled =>
      obtain ⟨_, hcalled⟩ := hcalled
      simp only [JobTracker.remove, h.deleted, List.append_cancel_left_eq, List.cons.injEq,
        Prod.mk.injEq] at hcalled
      exact hcalled.1.1.symm
  · intro heq
    exact Or.inr ⟨frameworkId, by rw [JobTracker.remove, h.deleted, heq]⟩

theorem forCause_of_kept {maxCount : Int} {w : JobWatch} {e : WatchEvent}
    (h : JobTracker.Kept w.tracker (w.step maxCount e).tracker) : w.ForCause maxCount e :=
  fun _ hgiven => absurd hgiven (not_givenUp h)

theorem forCause_startJobMonitoring (jobId frameworkId : String) :
    w.ForCause maxCount (.startJobMonitoring jobId frameworkId) := by
  intro id hgiven
  cases hgiven with
  | inl hgone => exact absurd ((AList.mem_insert _).mpr (Or.inr hgone.1)) hgone.2
  | inr hcalled =>
    obtain ⟨_, hcalled⟩ := hcalled
    simp [step, JobTracker.startJobMonitoring] at hcalled

theorem forCause_stopJobMonitoring (jobId : String) :
    w.ForCause maxCount (.stopJobMonitoring jobId) := by
  apply forCause_of_kept
  simp only [step, JobTracker.stopJobMonitoring]
  cases hinfo : w.tracker.jobs.lookup jobId with
  | none => exact .refl _
  | some info =>
    refine ⟨rfl, fun id => ?_⟩
    rw [AList.mem_insert]
    constructor
    · intro hid
      cases hid with
      | inl heq => exact heq ▸ AList.lookup_isSome.mp (by rw [hinfo]; rfl)
      | inr hid => exact hid
    · exact Or.inr

theorem deletionLogged_accountingCalls (callbacks : Callbacks) :
    (accountingCalls callbacks).deletionLogged = true := by
  simp only [AccountingCalls.deletionLogged, accountingCalls]
  cases callbacks.deleteJob <;> rfl

theorem raised_accountingCalls (count : Nat) (callbacks : Callbacks) :
    (accountingCalls callbacks).raised maxCount count = none ↔
      callbacks.updateJobAccounting = .ok () := by
  have hlogged := deletionLogged_accountingCalls callbacks
  simp only [AccountingCalls.raised, hlogged, or_true, if_true]
  simp only [accountingCalls]
  cases callbacks.updateJobAccounting with
  | ok _ => simp
  | error e => simp

section Poll

variable {maxCount : Int} {w : JobWatch} {jobId : String} {info : JobInfo}
  {job : Option JobStatusResponse} {pod : Option PodStatusResponse}
  {updateJobStatus : Except JobError Unit} {body handler : Callbacks}

/-- A job is polled hastily exactly if there is no cause to give it up but the exception handler
    does. -/
theorem hasty_iff (hinfo : w.tracker.jobs.lookup jobId = some info) :
    w.Hasty maxCount (.poll jobId job pod updateJobStatus body handler) ↔
      (∃ e, (calls job pod updateJobStatus body handler).raised maxCount info = some e ∧
        e ≠ .pendingJob) ∧
      handler.updateJobAccounting = .ok () ∧
      ¬w.Cause maxCount jobId (.poll jobId job pod updateJobStatus body handler) := by
  simp only [Hasty, Cause, hinfo, Option.some.injEq, exists_eq_left', true_and, JobCalls.raised,
    calls]
  cases info.monitorJob with
  | false => simp
  | true =>
    cases hstatus : getJobStatus job pod with
    | ok _ =>
      cases updateJobStatus with
      | ok _ => simp
      | error e =>
        simp only [Bool.true_eq_false, if_true, countErrors, reduceCtorEq, false_or, true_and]
        simp [and_comm, and_left_comm]
    | error e =>
      cases e with
      | pendingJob => simp
      | unknownJob => simp
      | completedJob => simp
      | other => simp

theorem forCause_poll_iff : w.ForCause maxCount (.poll jobId job pod updateJobStatus body handler) ↔
      ¬w.Hasty maxCount (.poll jobId job pod updateJobStatus body handler) := by
  cases hinfo : w.tracker.jobs.lookup jobId with
  | none =>
    have hsame := JobTracker.monitorJob_untracked maxCount hinfo
      (calls job pod updateJobStatus body handler)
    refine iff_of_true (forCause_of_kept ?_) ?_
    · simp only [step, after, hsame]
      exact .refl _
    · simp [Hasty, hinfo]
  | some info =>
    rw [hasty_iff hinfo]
    have hmonitored := JobTracker.monitorJob_monitored maxCount hinfo
      (calls job pod updateJobStatus body handler)
    have hcause : ∀ {s' : JobTracker}, JobTracker.Kept w.tracker s' →
        (w.step maxCount (.poll jobId job pod updateJobStatus body handler)).tracker =
          s'.remove jobId info.frameworkId →
        (w.ForCause maxCount (.poll jobId job pod updateJobStatus body handler) ↔
          w.Cause maxCount jobId (.poll jobId job pod updateJobStatus body handler)) := by
      intro s' hkept hstep
      simp only [ForCause, hstep, givenUp_remove_iff hkept, forall_eq]
    have hbody := deletionLogged_accountingCalls body
    generalize hr : JobTracker.monitorJob maxCount jobId
      (calls job pod updateJobStatus body handler) w.tracker = r at hmonitored
    cases hmonitored with
    | kept hraised hkept =>
      refine iff_of_true (forCause_of_kept ?_) ?_
      · simpa only [step, after, hr] using hkept hbody
      · rintro ⟨⟨e, he, hne⟩, -⟩
        exact hne (hraised e he).2
    | unlogged hraised hformats hkept => cases hformats
    | stopped hraised hstopped hkept =>
      rw [hcause hkept (by simp only [step, after, hr])]
      apply iff_of_true ⟨rfl, Or.inl ⟨info, hinfo, hstopped⟩⟩
      rintro ⟨⟨e, he, -⟩, -⟩
      simp [hraised] at he
    | escaped hraised he hhandler hkept =>
      refine iff_of_true (forCause_of_kept ?_) ?_
      · simpa only [step, after, hr] using hkept hbody (deletionLogged_accountingCalls handler)
      · rintro ⟨-, hupdate, -⟩
        have hnone := (raised_accountingCalls maxCount
          (info.statusRetrievalErrorCount + 1) handler).mpr hupdate
        exact absurd (hnone.symm.trans hhandler) (by simp)
    | left hraised hformats he hhandler hnone hkept =>
      -- the adapter returns dummy accounting and never none at all
      cases hnone
    | givenUp hraised hformats he hhandler hkept =>
      rw [hcause (hkept hbody) (by simp only [step, after, hr])]
      have hupdate := (raised_accountingCalls maxCount _ handler).mp hhandler
      constructor
      · exact fun hc h => h.2.2 hc
      · intro h
        by_contra hc
        exact h ⟨⟨_, hraised, he⟩, hupdate, hc⟩

end Poll

theorem forCause_iff (e : WatchEvent) : w.ForCause maxCount e ↔ ¬w.Hasty maxCount e := by
  cases e with
  | startJobMonitoring jobId frameworkId =>
    exact iff_of_true (forCause_startJobMonitoring maxCount w jobId frameworkId) id
  | stopJobMonitoring jobId => exact iff_of_true (forCause_stopJobMonitoring maxCount w jobId) id
  | poll => exact forCause_poll_iff

/-- In a run, jobs are given up only once they are not to be monitored, are reported completed or
    unknown, or could not be polled too many times in sequence, exactly if no job is polled
    hastily: the first error removes a job. -/
theorem given_up_for_cause_iff (maxCount : Int) (events : List WatchEvent) :
    Run.Meets (step maxCount) (ForCause maxCount) {} events ↔
      Run.Meets (step maxCount) (fun w e => ¬w.Hasty maxCount e) {} events :=
  Run.meets_congr (forCause_iff maxCount)

/-- A job whose status could not be retrieved once, with up to three errors to be tolerated. -/
theorem given_up_by_one_error :
    let w := ({} : JobWatch).step 3 (.startJobMonitoring "1" "framework")
    let e := WatchEvent.poll "1" none none (.ok ()) {} {}
    "1" ∉ (w.step 3 e).tracker.jobs ∧ (w.step 3 e).tracker.deleted = [("1", "framework")] ∧
      ¬w.ForCause 3 e := by
  refine ⟨by decide, by decide, ?_⟩
  rw [forCause_iff, not_not]
  exact ⟨⟨{ frameworkId := "framework" }, by decide, rfl⟩, rfl, by decide, Or.inl rfl⟩

end JobWatch

end Urb
