import Urb.ForStd.Run
import Urb.Native.SchedulerDriver

/-!
# Callbacks of the scheduler outside the connected period

A driver is in a connected period from the `registered` or `reregistered` message that it accepts
to the next `start`, `stop`, `abort` or loss of the service. It should not pass on anything else
that the service sends in the meantime. It decides by `connected_` and `aborted_`, which do not
follow the period: a stop for a fail-over, a call on a driver that is not running and the message
that the service is gone leave `connected_` as it is, the registration of a driver that was aborted
sets it without any answer of the service, and messages of executors are passed on without it.
-/

namespace Urb.Sched

open SchedulerDriver

variable {d' : SchedulerDriver} {c : Callback}

variable (uuidGenerate : Nat → String) (d : SchedulerDriver)

namespace SchedulerDriver

/-! ## What `launchTasks` does -/

/-- What the loop of `launchTasks` comes to: the tasks are sent, there is nothing to be sent, or the
    scheduler is called. -/
inductive Launched (d : SchedulerDriver) : SchedulerDriver → Prop
  | sent (uuidCount : Nat) (activeTasks : Dict TaskState) (offerIds : List String)
      (tasks : List TaskInfo) (refuseSeconds : Option ℚ) :
      Launched d ({ d with uuidCount, activeTasks }.sendMessage
        (.launchTasks d.framework.idValue offerIds tasks refuseSeconds))
  | ignored (uuidCount : Nat) (activeTasks : Dict TaskState) :
      Launched d { d with uuidCount, activeTasks }
  | called (uuidCount : Nat) (activeTasks : Dict TaskState) (update : StatusUpdate)
      (rest : Launch × List TaskInfo) :
      Launched d ({ d with uuidCount, activeTasks }.callStatusUpdate update (some rest))

theorem Launched.of_update {d : SchedulerDriver} (uuidCount : Nat)
    (activeTasks : Dict TaskState) (h : Launched { d with uuidCount, activeTasks } d') :
    Launched d d' := by
  cases h with
  | sent uuidCount activeTasks offerIds tasks refuseSeconds => exact .sent ..
  | ignored uuidCount activeTasks => exact .ignored ..
  | called uuidCount activeTasks update rest => exact .called ..

theorem launchLoop_launched (launch : Launch)
    (tasks : List TaskInfo) : Launched d (d.launchLoop uuidGenerate launch tasks) := by
  induction tasks generalizing d launch with
  | nil =>
    simp only [launchLoop]
    split
    · exact .sent d.uuidCount d.activeTasks ..
    · exact .ignored d.uuidCount d.activeTasks
  | cons task tasks ih =>
    simp only [launchLoop]
    split
    · split
      · exact .of_update _ d.activeTasks (ih ..)
      · exact .called _ d.activeTasks ..
    · exact .of_update d.uuidCount _ (ih ..)

/-! ## Flags after `stop` and `abort` -/

theorem abort_connected {d : SchedulerDriver} (h : d.connected = true → d.status = .running) :
    d.abort.connected = false := by
  unfold abort
  split
  · split
    · rfl
    · rename_i hconnected
      exact Bool.not_eq_true _ ▸ hconnected
  · rename_i hstatus
    exact Bool.eq_false_iff.mpr fun hconnected => hstatus (h hconnected)

theorem abort_frame :
    d.abort.callbacks = d.callbacks ∧ d.abort.channelsCreated = d.channelsCreated ∧
      d.abort.master = d.master := by
  unfold abort
  split
  · split <;> exact ⟨rfl, rfl, rfl⟩
  · exact ⟨rfl, rfl, rfl⟩

theorem stop_connected {d : SchedulerDriver} {failover : Bool}
    (h : d.connected = true → failover = false ∧ (d.status = .running ∨ d.status = .aborted)) :
    (d.stop failover).connected = false := by
  unfold stop
  split
  · split
    · rfl
    · rename_i hstays
      exact Bool.eq_false_iff.mpr fun hconnected => hstays (by simp_all)
  · rename_i hstatus
    exact Bool.eq_false_iff.mpr fun hconnected => hstatus (h hconnected).2

theorem stop_frame (failover : Bool) : (d.stop failover).callbacks = d.callbacks ∧
      (d.stop failover).channelsCreated = d.channelsCreated ∧
      (d.stop failover).master = d.master := by
  unfold stop
  split
  · split <;> exact ⟨rfl, rfl, rfl⟩
  · exact ⟨rfl, rfl, rfl⟩

/-! ## The connected period -/

/-- The callbacks of an event. -/
def invoked (uuidGenerate : Nat → String) (d : SchedulerDriver) (e : Event) : List Callback :=
  (d.step uuidGenerate e).callbacks.drop d.callbacks.length

/-- The driver accepts a `registered` or `reregistered` message. -/
def accepts (d : SchedulerDriver) : Event → Bool
  | .input (.frameworkRegistered _) =>
    d.channelsCreated && !d.aborted && !d.connected
  | .input (.frameworkReregistered frameworkId) =>
    d.channelsCreated && !d.aborted && !d.connected && d.framework.idValue = frameworkId
  | _ => false

/-- What ends a connected period: the calls, the loss of the service or of the broker, and an error
    of the service, for which the driver calls `abort`. -/
def endsPeriod (d : SchedulerDriver) : Event → Bool
  | .start | .stop _ | .abort => true
  | .input .connectionLost | .input .serviceDisconnected => d.channelsCreated
  | .input (.frameworkError _) => d.channelsCreated && !d.aborted
  | _ => false

/-- The events after which `connected_` and the connected period agree. -/
def Orderly (d : SchedulerDriver) (e : Event) : Prop :=
  d.crashed = false →
    match e with
    | .start => d.connected = false
    | .stop failover =>
      d.connected = true → failover = false ∧ (d.status = .running ∨ d.status = .aborted)
    | .abort => d.connected = true → d.status = .running
    | .registrationTimer _ =>
      d.aborted = true → d.connected = true ∨ d.master = "" ∨ d.registrations = 0
    | .input .serviceDisconnected => d.channelsCreated = true → d.connected = false
    | .input (.frameworkError _) =>
      d.channelsCreated = true → d.connected = true → d.status = .running ∨ d.aborted = true
    | .input (.executorToFramework _ _ _) =>
      d.channelsCreated = true → d.connected = true ∨ d.aborted = true
    | _ => True

instance (d : SchedulerDriver) (e : Event) : Decidable (d.Orderly e) := by
  unfold Orderly
  split <;> infer_instance

end SchedulerDriver

/-- What the scheduler is to get in a connected period only. Updates that the driver makes up are
    passed on in calls of the scheduler. -/
def Event.Confines (e : Event) : Callback → Prop
  | .resourceOffers _ | .offerRescinded _ | .slaveLost _ | .frameworkMessage _ _ _ => True
  | .statusUpdate _ => ∃ m, e = .input m
  | .registered _ | .reregistered | .error _ => False

/-- A driver, and whether it is in a connected period. -/
structure PeriodWatch where
  driver : SchedulerDriver
  period : Bool := false

namespace PeriodWatch

def step (uuidGenerate : Nat → String) (w : PeriodWatch) (e : Event) : PeriodWatch :=
  if w.driver.crashed then w
  else
    { driver := w.driver.step uuidGenerate e
      period := w.driver.accepts e || w.period && !w.driver.endsPeriod e }

/-- The event calls the scheduler in a connected period only. -/
def InPeriod (uuidGenerate : Nat → String) (w : PeriodWatch) (e : Event) : Prop :=
  ∀ c ∈ w.driver.invoked uuidGenerate e, e.Confines c → w.period = true

/-- The flags of the driver follow the period. -/
structure Agrees (w : PeriodWatch) : Prop where
  period : w.driver.connected = true → w.period = true
  master : w.driver.channelsCreated = true → w.driver.master ≠ ""

end PeriodWatch

namespace SchedulerDriver

/-- A handler that leaves the flags alone and only reports statuses. -/
structure Reports (d d' : SchedulerDriver) : Prop where
  connected : d'.connected = d.connected
  channelsCreated : d'.channelsCreated = d.channelsCreated
  master : d'.master = d.master
  callbacks : ∃ statuses : List TaskStatus,
    d'.callbacks = d.callbacks ++ statuses.map .statusUpdate

namespace Reports

theorem refl : Reports d d := ⟨rfl, rfl, rfl, [], by simp⟩

theorem trans {d1 d2 d3 : SchedulerDriver} (h : Reports d1 d2) (h' : Reports d2 d3) :
    Reports d1 d3 := by
  obtain ⟨statuses, hs⟩ := h.callbacks
  obtain ⟨statuses', hs'⟩ := h'.callbacks
  exact ⟨h'.connected.trans h.connected, h'.channelsCreated.trans h.channelsCreated,
    h'.master.trans h.master, statuses ++ statuses', by simp [hs, hs']⟩

theorem sendMessage (message : Message) :
    Reports d (d.sendMessage message) := ⟨rfl, rfl, rfl, [], by simp [SchedulerDriver.sendMessage]⟩

theorem whenConnected (message : Message) : Reports d (d.whenConnected message) := by
  unfold SchedulerDriver.whenConnected
  split
  · exact sendMessage d message
  · exact refl d

theorem of_launched {d : SchedulerDriver} (h : Launched d d') : Reports d d' := by
  cases h with
  | sent => exact ⟨rfl, rfl, rfl, [], by simp [SchedulerDriver.sendMessage]⟩
  | ignored => exact ⟨rfl, rfl, rfl, [], by simp⟩
  | called _ _ update _ => exact ⟨rfl, rfl, rfl, [update.status], rfl⟩

theorem trackTask (status : TaskStatus) : Reports d (d.trackTask status) := by
  unfold SchedulerDriver.trackTask
  split <;> exact ⟨rfl, rfl, rfl, [], by simp⟩

theorem statusUpdateAcknowledgement (update : StatusUpdate) :
    Reports d (d.statusUpdateAcknowledgement update) := by
  unfold SchedulerDriver.statusUpdateAcknowledgement
  split
  · exact refl d
  · exact sendMessage d _

theorem returned (i : Nat) : Reports d (d.returned uuidGenerate i) := by
  unfold SchedulerDriver.returned
  split
  · exact refl d
  · rename_i p _
    have hdone : Reports d (({ d with pending := d.pending.eraseIdx i }.statusUpdateAcknowledgement
        p.update).trackTask p.update.status) := by
      apply trans _ (trackTask _ _)
      apply trans _ (statusUpdateAcknowledgement _ _)
      exact ⟨rfl, rfl, rfl, [], by simp⟩
    dsimp only
    split
    · exact hdone
    · exact hdone.trans (of_launched (launchLoop_launched ..))

theorem call (c : Call) : Reports d (d.call uuidGenerate c) := by
  unfold SchedulerDriver.call
  split
  · cases c with
    | launchTasks => exact of_launched (launchLoop_launched ..)
    | acknowledgeStatusUpdate status =>
      dsimp only [acknowledgeStatusUpdate]
      split
      · exact whenConnected d _
      · exact refl d
    | _ => exact whenConnected d _
  · exact refl d

theorem checkReconcile : Reports d d.checkReconcile := by
  dsimp only [SchedulerDriver.checkReconcile]
  split
  · exact refl d
  · exact whenConnected d _

end Reports

end SchedulerDriver

namespace PeriodWatch

variable {uuidGenerate : Nat → String} {w : PeriodWatch}

variable {e : Event}

theorem agrees_step (hcrashed : w.driver.crashed = false) (hd : w.driver.handle uuidGenerate e = d')
    (hconnected : d'.connected = true →
      w.driver.accepts e = true ∨ w.period = true ∧ w.driver.endsPeriod e = false)
    (hmaster : d'.channelsCreated = true → d'.master ≠ "")
    (hcalls : ∀ c ∈ d'.callbacks.drop w.driver.callbacks.length, e.Confines c → w.period = true) :
    (w.step uuidGenerate e).Agrees ∧ w.InPeriod uuidGenerate e := by
  have hstep : w.driver.step uuidGenerate e = d' := by simp [SchedulerDriver.step, hcrashed, hd]
  constructor
  · have hw : w.step uuidGenerate e =
        ⟨d', w.driver.accepts e || w.period && !w.driver.endsPeriod e⟩ := by
      simp [step, hcrashed, hstep]
    rw [hw]
    exact ⟨fun h => by simpa using hconnected h, hmaster⟩
  · unfold InPeriod SchedulerDriver.invoked
    rw [hstep]
    exact hcalls

theorem Agrees.step_of_reports (h : w.Agrees) (hcrashed : w.driver.crashed = false)
    (he : ∀ m, e ≠ .input m) (hends : w.driver.endsPeriod e = false)
    (hreports : w.driver.Reports (w.driver.handle uuidGenerate e)) :
    (w.step uuidGenerate e).Agrees ∧ w.InPeriod uuidGenerate e := by
  apply agrees_step hcrashed rfl
  · intro hconnected
    exact Or.inr ⟨h.period (hreports.connected ▸ hconnected), hends⟩
  · intro hcreated
    rw [hreports.master]
    exact h.master (hreports.channelsCreated ▸ hcreated)
  · intro c hc hconfines
    obtain ⟨statuses, hs⟩ := hreports.callbacks
    rw [hs, List.drop_left] at hc
    obtain ⟨status, _, rfl⟩ := List.mem_map.mp hc
    obtain ⟨m, hm⟩ := hconfines
    exact absurd hm (he m)

theorem Agrees.step_of_silent (h : w.Agrees) (hcrashed : w.driver.crashed = false)
    (hd : w.driver.handle uuidGenerate e = d')
    (hsilent : d'.callbacks = w.driver.callbacks)
    (hcreated : d'.channelsCreated = w.driver.channelsCreated)
    (hmaster : d'.master = w.driver.master)
    (hconnected : d'.connected = true →
      w.driver.accepts e = true ∨ w.period = true ∧ w.driver.endsPeriod e = false) :
    (w.step uuidGenerate e).Agrees ∧ w.InPeriod uuidGenerate e := by
  apply agrees_step hcrashed hd hconnected
  · rw [hcreated, hmaster]
    exact h.master
  · simp [hsilent]

theorem Agrees.step_of_callback (h : w.Agrees) (hcrashed : w.driver.crashed = false)
    (hd : w.driver.handle uuidGenerate e = d')
    (hcallback : d'.callbacks = w.driver.callbacks ++ [c])
    (hcreated : d'.channelsCreated = w.driver.channelsCreated)
    (hmaster : d'.master = w.driver.master)
    (hconnected : d'.connected = true →
      w.driver.accepts e = true ∨ w.period = true ∧ w.driver.endsPeriod e = false)
    (hconfines : e.Confines c → w.period = true) :
    (w.step uuidGenerate e).Agrees ∧ w.InPeriod uuidGenerate e := by
  apply agrees_step hcrashed hd hconnected
  · rw [hcreated, hmaster]
    exact h.master
  · rw [hcallback, List.drop_left]
    intro c' hc'
    rw [List.mem_singleton.mp hc']
    exact hconfines

theorem Agrees.step_passOn {m : Input} (h : w.Agrees) (hcrashed : w.driver.crashed = false)
    (hd : w.driver.handle uuidGenerate (.input m) = w.driver.passOn c)
    (hends : w.driver.endsPeriod (.input m) = false) :
    (w.step uuidGenerate (.input m)).Agrees ∧ w.InPeriod uuidGenerate (.input m) := by
  have hperiod : w.driver.connected = true →
      w.driver.accepts (.input m) = true ∨
        w.period = true ∧ w.driver.endsPeriod (.input m) = false :=
    fun hconnected => Or.inr ⟨h.period hconnected, hends⟩
  unfold SchedulerDriver.passOn at hd
  split at hd
  · exact h.step_of_silent hcrashed hd rfl rfl rfl hperiod
  · split at hd
    · exact h.step_of_silent hcrashed hd rfl rfl rfl hperiod
    · rename_i hconnected
      apply h.step_of_callback hcrashed hd rfl rfl rfl hperiod
      intro _
      exact h.period (by simpa using hconnected)

theorem Agrees.step_input {m : Input} (h : w.Agrees) (hcrashed : w.driver.crashed = false)
    (horderly : w.driver.Orderly (.input m)) :
    (w.step uuidGenerate (.input m)).Agrees ∧ w.InPeriod uuidGenerate (.input m) := by
  specialize horderly hcrashed
  cases hcreated : w.driver.channelsCreated with
  | false =>
    have hnone : w.driver.endsPeriod (.input m) = false := by
      cases m <;> simp [endsPeriod, hcreated]
    have hd : w.driver.handle uuidGenerate (.input m) = w.driver := by
      simp [SchedulerDriver.handle, hcreated]
    apply h.step_of_silent hcrashed hd rfl rfl rfl
    exact fun hconnected => Or.inr ⟨h.period hconnected, hnone⟩
  | true =>
    have hd : w.driver.handle uuidGenerate (.input m) = w.driver.onInput m := by
      simp [SchedulerDriver.handle, hcreated]
    -- most handlers first look whether the driver is aborted
    have hsame : w.driver.endsPeriod (.input m) = false →
        w.driver.onInput m = w.driver →
        (w.step uuidGenerate (.input m)).Agrees ∧ w.InPeriod uuidGenerate (.input m) := by
      intro hends hm
      rw [hm] at hd
      apply h.step_of_silent hcrashed hd rfl rfl rfl
      exact fun hconnected => Or.inr ⟨h.period hconnected, hends⟩
    cases m with
    | connectionLost => exact h.step_of_silent hcrashed hd rfl rfl rfl nofun
    | serviceDisconnected =>
      apply h.step_of_silent hcrashed hd rfl rfl rfl
      intro (hconnected : w.driver.connected = true)
      rw [horderly hcreated] at hconnected
      cases hconnected
    | lostSlave slaveId => exact h.step_passOn hcrashed hd rfl
    | rescindResourceOffer offerId => exact h.step_passOn hcrashed hd rfl
    | resourceOffers offers => exact h.step_passOn hcrashed hd rfl
    | frameworkRegistered frameworkId =>
      simp only [onInput, registered] at hd hsame
      split at hd
      · rename_i hignored
        exact hsame rfl (if_pos hignored)
      · rename_i hheeded
        refine h.step_of_callback hcrashed hd rfl rfl rfl (fun _ => Or.inl ?_) nofun
        simp only [accepts, hcreated]
        simpa using hheeded
    | frameworkReregistered frameworkId =>
      simp only [onInput, reregistered] at hd hsame
      split at hd
      · rename_i hignored
        exact hsame rfl (if_pos hignored)
      · rename_i hheeded
        split at hd
        · refine h.step_of_silent hcrashed hd rfl rfl rfl fun hconnected => Or.inr ⟨?_, rfl⟩
          exact h.period hconnected
        · rename_i hid
          refine h.step_of_callback hcrashed hd rfl rfl rfl (fun _ => Or.inl ?_) nofun
          simp only [Bool.not_eq_true, Bool.or_eq_false_iff] at hheeded
          simp only [accepts, hcreated, hheeded]
          simpa using hid
    | frameworkError message =>
      simp only [onInput, error] at hd hsame
      split at hd
      · rename_i haborted
        exact hsame (by simp [endsPeriod, haborted]) (if_pos haborted)
      · rename_i haborted
        have hconnected : w.driver.abort.connected = false := abort_connected
          fun hconnected => (horderly hcreated hconnected).resolve_right haborted
        obtain ⟨hcallbacks, hcreated', hmaster⟩ := w.driver.abort_frame
        refine h.step_of_callback hcrashed hd (congrArg (· ++ [_]) hcallbacks) hcreated' hmaster
          (fun h' => ?_) nofun
        exact absurd (hconnected.symm.trans h') nofun
    | executorToFramework slaveId executorId data =>
      simp only [onInput, frameworkMessage] at hd hsame
      split at hd
      · rename_i haborted
        exact hsame rfl (if_pos haborted)
      · rename_i haborted
        have hconnected : w.driver.connected = true := (horderly hcreated).resolve_right haborted
        have hperiod := h.period hconnected
        exact h.step_of_callback hcrashed hd rfl rfl rfl (fun _ => Or.inr ⟨hperiod, rfl⟩)
          fun _ => hperiod
    | statusUpdate update =>
      have hmaster := h.master hcreated
      simp only [onInput, SchedulerDriver.statusUpdate] at hd hsame
      split at hd
      · rename_i haborted
        exact hsame rfl (if_pos haborted)
      · split at hd
        · refine h.step_of_silent hcrashed hd rfl rfl rfl fun hconnected => Or.inr ⟨?_, rfl⟩
          exact h.period hconnected
        · rename_i hconnected
          have hperiod : w.period = true := h.period (by simpa [hmaster] using hconnected)
          split at hd
          · exact h.step_of_silent hcrashed hd rfl rfl rfl fun _ => Or.inr ⟨hperiod, rfl⟩
          · exact h.step_of_callback hcrashed hd rfl rfl rfl (fun _ => Or.inr ⟨hperiod, rfl⟩)
              fun _ => hperiod

theorem Agrees.step_registrationTimer {attempt : Attempt} (h : w.Agrees)
    (hcrashed : w.driver.crashed = false)
    (horderly : w.driver.Orderly (.registrationTimer attempt)) :
    (w.step uuidGenerate (.registrationTimer attempt)).Agrees ∧
      w.InPeriod uuidGenerate (.registrationTimer attempt) := by
  specialize horderly hcrashed
  have hperiod : w.driver.connected = true → w.driver.accepts (.registrationTimer attempt) = true ∨
      w.period = true ∧ w.driver.endsPeriod (.registrationTimer attempt) = false :=
    fun hconnected => Or.inr ⟨h.period hconnected, rfl⟩
  by_cases hset : w.driver.registrations = 0
  · exact h.step_of_silent hcrashed (if_pos hset) rfl rfl rfl hperiod
  have hd : w.driver.handle uuidGenerate (.registrationTimer attempt) =
      { w.driver with
        registrations := w.driver.registrations - 1 }.doReliableRegistration attempt :=
    if_neg hset
  unfold SchedulerDriver.doReliableRegistration at hd
  split at hd
  · exact h.step_of_silent hcrashed hd rfl rfl rfl hperiod
  · rename_i hregister
    simp only [Bool.or_eq_true, decide_eq_true_eq, not_or] at hregister
    obtain ⟨hconnected, hmaster⟩ := hregister
    split at hd
    · rename_i haborted
      -- a driver that was aborted would be connected without any answer
      have := horderly haborted
      simp [hconnected, hmaster, hset] at this
    · cases attempt with
      | sent =>
        exact agrees_step hcrashed hd hperiod (fun _ => hmaster)
          (by simp [sendMessage])
      | noChannel => exact h.step_of_silent hcrashed hd rfl rfl rfl hperiod
      | notSent =>
        exact agrees_step hcrashed hd hperiod (fun _ => hmaster)
          (by simp [startRegistration])

theorem Agrees.step (h : w.Agrees) (horderly : w.driver.Orderly e) :
    (w.step uuidGenerate e).Agrees ∧ w.InPeriod uuidGenerate e := by
  cases hcrashed : w.driver.crashed with
  | true =>
    simp [PeriodWatch.step, InPeriod, SchedulerDriver.invoked, SchedulerDriver.step, hcrashed, h]
  | false =>
    cases e with
    | start =>
      have hconnected : w.driver.connected = false := horderly hcrashed
      apply h.step_of_silent hcrashed rfl
      all_goals simp only [SchedulerDriver.handle, SchedulerDriver.start]
      all_goals split
      all_goals simp [SchedulerDriver.startRegistration, hconnected]
    | stop failover =>
      obtain ⟨hcallbacks, hcreated, hmaster⟩ := w.driver.stop_frame failover
      refine h.step_of_silent hcrashed rfl hcallbacks hcreated hmaster fun hconnected => ?_
      exact absurd ((SchedulerDriver.stop_connected
        (horderly hcrashed)).symm.trans hconnected) nofun
    | abort =>
      obtain ⟨hcallbacks, hcreated, hmaster⟩ := w.driver.abort_frame
      refine h.step_of_silent hcrashed rfl hcallbacks hcreated hmaster fun hconnected => ?_
      exact absurd ((SchedulerDriver.abort_connected
        (horderly hcrashed)).symm.trans hconnected) nofun
    | registrationTimer attempt => exact h.step_registrationTimer hcrashed horderly
    | input m => exact h.step_input hcrashed horderly
    | call c => exact h.step_of_reports hcrashed (fun _ => nofun) rfl (.call ..)
    | reconcileTimer =>
      apply h.step_of_reports hcrashed (fun _ he => by cases he) rfl
      dsimp only [SchedulerDriver.handle]
      split
      · exact .refl _
      · exact .checkReconcile _
    | returned i => exact h.step_of_reports hcrashed (fun _ => nofun) rfl (.returned ..)

/-- In a run of orderly events, from a new driver, the scheduler is called in connected periods
    only. -/
theorem callbacks_in_period (uuidGenerate : Nat → String) (framework : FrameworkInfo)
    (master : String) (implicitAcknowledgements : Bool) (events : List Event)
    (h : Run.Meets (PeriodWatch.step uuidGenerate) (fun w e => w.driver.Orderly e)
      { driver := { framework, master, implicitAcknowledgements } } events) :
    Run.Meets (PeriodWatch.step uuidGenerate) (InPeriod uuidGenerate)
      { driver := { framework, master, implicitAcknowledgements } } events := by
  have hstep : ∀ w e, Agrees w → w.driver.Orderly e →
      Agrees (PeriodWatch.step uuidGenerate w e) ∧ InPeriod uuidGenerate w e :=
    fun w e h horderly => h.step horderly
  exact Run.meets_of_invariant hstep ⟨nofun, nofun⟩ h

/-- A driver that registers, gets an offer and an update, and is stopped and started again. -/
theorem callbacks_in_period_restarted :
    let events := [.start, .registrationTimer .sent, .input (.frameworkRegistered "framework-1"),
      .input (.resourceOffers []), .input (.executorToFramework "slave" "executor" "data"),
      .stop false, .start, .registrationTimer .sent, .input (.resourceOffers []),
      .input (.frameworkReregistered "framework-1"), .input (.lostSlave "slave")]
    Run.Meets (PeriodWatch.step fun _ => "uuid") (InPeriod fun _ => "uuid")
      { driver := { master := "urb://localhost" } } events := by
  apply callbacks_in_period (fun _ => "uuid") {} "urb://localhost" true
  decide

theorem not_inPeriod (hperiod : w.period = false)
    (hc : w.driver.invoked uuidGenerate e = [c]) (hconfines : e.Confines c) :
    ¬w.InPeriod uuidGenerate e := by
  intro h
  have := h c (by simp [hc]) hconfines
  rw [hperiod] at this
  cases this

/-- Messages that are passed on after the service was lost, after a stop for a fail-over, after a
    stop of a driver that was connected by a late answer, before any answer of the service, and
    after a driver that was aborted was started again. -/
theorem callbacks_outside_period :
    let run (events : List Event) := events.foldl (PeriodWatch.step fun _ => "uuid")
      { driver := { master := "urb://localhost" } }
    let connect : List Event :=
      [.start, .registrationTimer .sent, .input (.frameworkRegistered "framework-1")]
    let offers := Event.input (.resourceOffers [])
    let message := Event.input (.executorToFramework "slave" "executor" "data")
    ¬(run (connect ++ [.input .serviceDisconnected])).InPeriod (fun _ => "uuid") offers ∧
      ¬(run (connect ++ [.stop true])).InPeriod (fun _ => "uuid") offers ∧
      ¬(run (connect ++ [.stop false, .input (.frameworkRegistered "framework-1"),
        .stop false])).InPeriod (fun _ => "uuid") offers ∧
      ¬(run [.start, .registrationTimer .sent]).InPeriod (fun _ => "uuid") message ∧
      ¬(run (connect ++ [.abort, .stop false, .start,
        .registrationTimer .sent])).InPeriod (fun _ => "uuid") offers := by
  refine ⟨?_, ?_, ?_, ?_, ?_⟩
  · exact not_inPeriod (c := .resourceOffers []) (by decide) (by decide) trivial
  · exact not_inPeriod (c := .resourceOffers []) (by decide) (by decide) trivial
  · exact not_inPeriod (c := .resourceOffers []) (by decide) (by decide) trivial
  · exact not_inPeriod (c := .frameworkMessage "executor" "slave" "data") (by decide) (by decide)
      trivial
  · exact not_inPeriod (c := .resourceOffers []) (by decide) (by decide) trivial

end PeriodWatch

end Urb.Sched
