import Mathlib.Data.List.Perm.Basic
import Urb.ForStd.Run
import Urb.Spec.ConnectedPeriod

/-!
# Acknowledgements of the scheduler driver

A driver acknowledges status updates for the scheduler, or leaves it to the scheduler; the
constructor is told which. `UrbSchedulerProcess` is not: it acknowledges whatever it passed to the
scheduler, the updates that it made up itself included, unless the driver is aborted when the
scheduler returns, and it acknowledges whatever the scheduler asks it to.
-/

namespace Urb.Sched

variable {status : TaskStatus} {message : Message}

variable (d : SchedulerDriver)

/-- What an acknowledgement names: the slave, the task and the update. -/
abbrev AckKey := String × String × String

def Message.ackKey : Message → Option AckKey
  | .statusUpdateAcknowledgement _ slaveId taskId uuid => some (slaveId, taskId, uuid)
  | _ => none

def StatusUpdate.ackKey (update : StatusUpdate) : AckKey :=
  ((update.slaveId <|> update.status.slaveId).getD "", update.status.taskId, update.uuid)

def TaskStatus.ackKey (status : TaskStatus) : AckKey :=
  (status.slaveId.getD "", status.taskId, status.uuid.getD "")

/-- The update was received and the scheduler has not returned. -/
def Pending.receivedKey (p : Pending) : Option AckKey :=
  if p.rest = none then some p.update.ackKey else none

namespace SchedulerDriver

/-- The acknowledgements that were sent. -/
def acked (d : SchedulerDriver) : List AckKey := d.sent.filterMap Message.ackKey

/-- The updates of the service that the scheduler is looking at. -/
def opened (d : SchedulerDriver) : List AckKey := d.pending.filterMap Pending.receivedKey

/-- The events that fit the mode. -/
def FitsMode (d : SchedulerDriver) (e : Event) : Prop :=
  d.crashed = false →
    match e with
    | .input (.statusUpdate update) =>
      d.implicitAcknowledgements = true → d.channelsCreated = true →
        d.aborted = false ∧ (d.master = "" ∨ d.connected = true) ∧
          d.framework.idValue = update.frameworkId
    | .call (.acknowledgeStatusUpdate status) =>
      d.implicitAcknowledgements = true → d.status = .running → d.connected = true →
        status.uuid = none ∨ status.slaveId = none
    | .returned i =>
      ∀ p ∈ d.pending[i]?,
        (d.aborted = false ↔ d.implicitAcknowledgements = true ∧ p.rest = none)
    | _ => True

end SchedulerDriver

/-- A driver, the updates that it received, and the acknowledgements that it sent because the
    scheduler asked for them. -/
structure AckWatch where
  driver : SchedulerDriver
  received : List AckKey := []
  requested : List AckKey := []

namespace AckWatch

def step (uuidGenerate : Nat → String) (w : AckWatch) (e : Event) : AckWatch :=
  if w.driver.crashed then w
  else
    let driver := w.driver.step uuidGenerate e
    match e with
    | .input (.statusUpdate update) =>
      { w with
        driver
        received := if w.driver.channelsCreated then w.received ++ [update.ackKey] else w.received }
    | .call (.acknowledgeStatusUpdate status) =>
      { w with
        driver
        requested := w.requested ++
          (driver.acked.drop w.driver.acked.length).filter (· = status.ackKey) }
    | _ => { w with driver }

/-- The acknowledgements are those that the mode asks for. With implicit acknowledgements these are
    the updates that were received, once each, save those that the scheduler is looking at. -/
def FollowsMode (w : AckWatch) : Prop :=
  if w.driver.implicitAcknowledgements then
    (w.driver.acked ++ w.driver.opened).Perm w.received
  else w.driver.acked = w.requested

end AckWatch

namespace SchedulerDriver

/-- No acknowledgement is sent and no update of the service is passed on. -/
structure Mute (d d' : SchedulerDriver) : Prop where
  implicitAcknowledgements : d'.implicitAcknowledgements = d.implicitAcknowledgements
  acked : d'.acked = d.acked
  opened : d'.opened = d.opened

namespace Mute

theorem refl : Mute d d := ⟨rfl, rfl, rfl⟩

theorem trans {d1 d2 d3 : SchedulerDriver} (h : Mute d1 d2) (h' : Mute d2 d3) : Mute d1 d3 :=
  ⟨h'.implicitAcknowledgements.trans h.implicitAcknowledgements, h'.acked.trans h.acked,
    h'.opened.trans h.opened⟩

theorem sendMessage {d d' : SchedulerDriver} (h : message.ackKey = none)
    (hd : Mute d d') : Mute d (d'.sendMessage message) := by
  refine hd.trans ⟨rfl, ?_, rfl⟩
  simp [SchedulerDriver.acked, SchedulerDriver.sendMessage, h]

theorem whenConnected (h : message.ackKey = none) : Mute d (d.whenConnected message) := by
  unfold SchedulerDriver.whenConnected
  split
  · exact sendMessage h (refl d)
  · exact refl d

theorem of_launched {d d' : SchedulerDriver} (h : Launched d d') : Mute d d' := by
  cases h with
  | sent => exact sendMessage rfl ⟨rfl, rfl, rfl⟩
  | ignored => exact ⟨rfl, rfl, rfl⟩
  | called _ _ update rest =>
    refine ⟨rfl, rfl, ?_⟩
    simp [SchedulerDriver.opened, callStatusUpdate, callback, Pending.receivedKey]

theorem trackTask (status : TaskStatus) : Mute d (d.trackTask status) := by
  unfold SchedulerDriver.trackTask
  split <;> exact ⟨rfl, rfl, rfl⟩

theorem start : Mute d d.start := by
  unfold SchedulerDriver.start
  split <;> exact ⟨rfl, rfl, rfl⟩

theorem stop (failover : Bool) : Mute d (d.stop failover) := by
  unfold SchedulerDriver.stop
  split
  · split
    · exact sendMessage rfl ⟨rfl, rfl, rfl⟩
    · exact ⟨rfl, rfl, rfl⟩
  · exact refl d

theorem abort : Mute d d.abort := by
  unfold SchedulerDriver.abort
  split
  · split
    · exact sendMessage rfl ⟨rfl, rfl, rfl⟩
    · exact ⟨rfl, rfl, rfl⟩
  · exact refl d

theorem callback {d d' : SchedulerDriver} (c : Callback) (h : Mute d d') :
    Mute d (d'.callback c) := ⟨h.implicitAcknowledgements, h.acked, h.opened⟩

theorem doReliableRegistration (attempt : Attempt) : Mute d (d.doReliableRegistration attempt) := by
  unfold SchedulerDriver.doReliableRegistration
  split
  · exact refl d
  · split
    · exact ⟨rfl, rfl, rfl⟩
    · cases attempt with
      | sent =>
        have hkey : d.registration.ackKey = none := by
          unfold registration
          split <;> rfl
        exact sendMessage hkey ⟨rfl, rfl, rfl⟩
      | noChannel => exact ⟨rfl, rfl, rfl⟩
      | notSent => exact ⟨rfl, rfl, rfl⟩

theorem passOn (c : Callback) : Mute d (d.passOn c) := by
  unfold SchedulerDriver.passOn
  split
  · exact refl d
  · split
    · exact refl d
    · exact callback c (refl d)

theorem checkReconcile : Mute d d.checkReconcile := by
  dsimp only [SchedulerDriver.checkReconcile]
  split
  · exact refl d
  · exact whenConnected d rfl

theorem onInput {m : Input} (hm : ∀ update, m ≠ .statusUpdate update) : Mute d (d.onInput m) := by
  cases m with
  | statusUpdate update => exact absurd rfl (hm update)
  | connectionLost => exact ⟨rfl, rfl, rfl⟩
  | serviceDisconnected => exact sendMessage rfl (refl d)
  | lostSlave => exact passOn d _
  | rescindResourceOffer => exact passOn d _
  | resourceOffers => exact passOn d _
  | frameworkRegistered frameworkId =>
    dsimp only [SchedulerDriver.onInput, registered]
    split
    · exact refl d
    · exact callback _ ⟨rfl, rfl, rfl⟩
  | frameworkReregistered frameworkId =>
    dsimp only [SchedulerDriver.onInput, reregistered]
    split
    · exact refl d
    · split
      · exact ⟨rfl, rfl, rfl⟩
      · exact callback _ ⟨rfl, rfl, rfl⟩
  | frameworkError message =>
    dsimp only [SchedulerDriver.onInput, error]
    split
    · exact refl d
    · exact callback _ (abort d)
  | executorToFramework slaveId executorId data =>
    dsimp only [SchedulerDriver.onInput, frameworkMessage]
    split
    · exact refl d
    · exact callback _ (refl d)

theorem call (uuidGenerate : Nat → String) (d : SchedulerDriver) {c : Call}
    (hc : ∀ status, c ≠ .acknowledgeStatusUpdate status) : Mute d (d.call uuidGenerate c) := by
  unfold SchedulerDriver.call
  split
  · cases c with
    | acknowledgeStatusUpdate status => exact absurd rfl (hc status)
    | launchTasks => exact of_launched (launchLoop_launched ..)
    | _ => exact whenConnected d rfl
  · exact refl d

end Mute

/-! ## The events that are not mute -/

section Returned

variable {d : SchedulerDriver} {i : Nat} {p : Pending}

variable (uuidGenerate : Nat → String)

theorem returned_mute (h : d.pending[i]? = some p) :
    Mute ({ d with pending := d.pending.eraseIdx i }.statusUpdateAcknowledgement p.update)
      (d.returned uuidGenerate i) := by
  simp only [returned, h]
  cases hrest : p.rest with
  | none => exact .trackTask _ _
  | some rest => exact .trans (.trackTask _ _) (.of_launched (launchLoop_launched ..))

theorem returned_mode (h : d.pending[i]? = some p) :
    (d.returned uuidGenerate i).implicitAcknowledgements = d.implicitAcknowledgements := by
  rw [(returned_mute uuidGenerate h).implicitAcknowledgements]
  unfold statusUpdateAcknowledgement
  split <;> rfl

theorem returned_acked (h : d.pending[i]? = some p) : (d.returned uuidGenerate i).acked =
      if d.aborted then d.acked else d.acked ++ [p.update.ackKey] := by
  rw [(returned_mute uuidGenerate h).acked]
  unfold statusUpdateAcknowledgement
  dsimp only
  split
  · rfl
  · simp [acked, sendMessage, acknowledgement, Message.ackKey, StatusUpdate.ackKey]

theorem returned_opened (h : d.pending[i]? = some p) :
    d.opened.Perm (p.receivedKey.toList ++ (d.returned uuidGenerate i).opened) := by
  have hopened : (d.returned uuidGenerate i).opened =
      (d.pending.eraseIdx i).filterMap Pending.receivedKey := by
    rw [(returned_mute uuidGenerate h).opened]
    unfold statusUpdateAcknowledgement
    split <;> rfl
  obtain ⟨hi, hp⟩ := List.getElem?_eq_some_iff.mp h
  have hperm := (List.getElem_cons_eraseIdx_perm hi).symm.filterMap Pending.receivedKey
  rw [hp, List.filterMap_cons] at hperm
  rw [hopened]
  refine hperm.trans (List.Perm.of_eq ?_)
  cases p.receivedKey <;> rfl

end Returned

/-- A call of `acknowledgeStatusUpdate` that sends the acknowledgement. -/
def Acknowledges (d : SchedulerDriver) (status : TaskStatus) : Prop :=
  d.status = .running ∧ d.connected = true ∧ status.uuid ≠ none ∧ status.slaveId ≠ none

theorem call_acknowledge_of {d : SchedulerDriver} (h : d.Acknowledges status)
    (uuidGenerate : Nat → String) :
    ∃ frameworkId slaveId taskId uuid, status.ackKey = (slaveId, taskId, uuid) ∧
      d.call uuidGenerate (.acknowledgeStatusUpdate status) =
        d.sendMessage (.statusUpdateAcknowledgement frameworkId slaveId taskId uuid) := by
  obtain ⟨hstatus, hconnected, huuid, hslave⟩ := h
  obtain ⟨uuid, hu⟩ := Option.ne_none_iff_exists'.mp huuid
  obtain ⟨slaveId, hs⟩ := Option.ne_none_iff_exists'.mp hslave
  refine ⟨d.framework.idValue, slaveId, status.taskId, uuid, ?_, ?_⟩
  · simp [TaskStatus.ackKey, hu, hs]
  · simp [call, hstatus, acknowledgeStatusUpdate, hu, hs, whenConnected, hconnected]

theorem call_acknowledge_of_not {d : SchedulerDriver}
    (h : ¬d.Acknowledges status) (uuidGenerate : Nat → String) :
    d.call uuidGenerate (.acknowledgeStatusUpdate status) = d := by
  unfold call
  split
  · rename_i hstatus
    dsimp only [acknowledgeStatusUpdate]
    split
    · rename_i hu hs
      refine if_neg fun hconnected => h ⟨hstatus, hconnected, ?_, ?_⟩
      · simp [hu]
      · simp [hs]
    · rfl
  · rfl

theorem statusUpdate_opened (update : StatusUpdate) :
    (d.statusUpdate update).implicitAcknowledgements = d.implicitAcknowledgements ∧
      (d.statusUpdate update).acked = d.acked ∧
      (d.statusUpdate update).opened =
        if d.aborted = false ∧ (d.master = "" ∨ d.connected = true) ∧
            d.framework.idValue = update.frameworkId then d.opened ++ [update.ackKey]
        else d.opened := by
  unfold statusUpdate
  split
  · rename_i haborted
    exact ⟨rfl, rfl, (if_neg (by simp [haborted])).symm⟩
  · rename_i haborted
    split
    · rename_i hunheard
      refine ⟨rfl, rfl, (if_neg ?_).symm⟩
      intro ⟨_, hheard, _⟩
      simp_all
    · rename_i hheard
      split
      · rename_i hid
        exact ⟨rfl, rfl, (if_neg fun h => hid h.2.2).symm⟩
      · rename_i hid
        refine ⟨rfl, rfl, ?_⟩
        rw [if_pos]
        · simp [callStatusUpdate, callback, opened, Pending.receivedKey]
        · simp only [ne_eq, not_not] at hid
          refine ⟨by simpa using haborted, ?_, hid⟩
          by_cases hmaster : d.master = ""
          · exact Or.inl hmaster
          · exact Or.inr (by simpa [hmaster] using hheard)

end SchedulerDriver

namespace AckWatch

variable {uuidGenerate : Nat → String} {w : AckWatch}

theorem followsMode_congr {d' : SchedulerDriver} (h : w.driver.Mute d') :
    FollowsMode { w with driver := d' } ↔ w.FollowsMode := by
  unfold FollowsMode
  dsimp only
  rw [h.implicitAcknowledgements, h.acked, h.opened]

theorem followsMode_of_implicit (h : w.driver.implicitAcknowledgements = true) :
    w.FollowsMode ↔ (w.driver.acked ++ w.driver.opened).Perm w.received := by
  simp [FollowsMode, h]

theorem followsMode_of_explicit (h : w.driver.implicitAcknowledgements = false) :
    w.FollowsMode ↔ w.driver.acked = w.requested := by
  simp [FollowsMode, h]

theorem followsMode_statusUpdate_iff {update : StatusUpdate} (h : w.FollowsMode)
    (hcrashed : w.driver.crashed = false) :
    (w.step uuidGenerate (.input (.statusUpdate update))).FollowsMode ↔
      w.driver.FitsMode (.input (.statusUpdate update)) := by
  cases hcreated : w.driver.channelsCreated with
  | false =>
    refine iff_of_true ?_ fun _ _ h' => absurd (hcreated.symm.trans h') nofun
    simpa [step, hcrashed, hcreated, SchedulerDriver.step, SchedulerDriver.handle] using h
  | true =>
    have hstep : w.step uuidGenerate (.input (.statusUpdate update)) =
        { w with
          driver := w.driver.statusUpdate update
          received := w.received ++ [update.ackKey] } := by
      simp [step, hcrashed, hcreated, SchedulerDriver.step, SchedulerDriver.handle,
        SchedulerDriver.onInput]
    obtain ⟨hmode, hacked, hopened⟩ := w.driver.statusUpdate_opened update
    rw [hstep]
    cases himplicit : w.driver.implicitAcknowledgements with
    | false =>
      rw [followsMode_of_explicit (hmode.trans himplicit)]
      rw [followsMode_of_explicit himplicit] at h
      exact iff_of_true (hacked.trans h) fun _ h' => absurd (himplicit.symm.trans h') nofun
    | true =>
      rw [followsMode_of_implicit (hmode.trans himplicit)]
      rw [followsMode_of_implicit himplicit] at h
      simp only [SchedulerDriver.FitsMode, hcrashed, himplicit, hcreated, true_implies]
      rw [hacked, hopened]
      split
      · rename_i hfits
        refine iff_of_true ?_ hfits
        rw [← List.append_assoc]
        exact h.append_right _
      · rename_i hfits
        refine iff_of_false (fun hperm => ?_) hfits
        have hlength := hperm.length_eq
        rw [h.length_eq] at hlength
        simp at hlength

theorem followsMode_acknowledge_iff (h : w.FollowsMode) (hcrashed : w.driver.crashed = false) :
    (w.step uuidGenerate (.call (.acknowledgeStatusUpdate status))).FollowsMode ↔
      w.driver.FitsMode (.call (.acknowledgeStatusUpdate status)) := by
  have hfits : w.driver.FitsMode (.call (.acknowledgeStatusUpdate status)) ↔
      (w.driver.implicitAcknowledgements = true → ¬w.driver.Acknowledges status) := by
    simp only [SchedulerDriver.FitsMode, hcrashed, true_implies, SchedulerDriver.Acknowledges]
    tauto
  rw [hfits]
  have hstep : ∀ {d' : SchedulerDriver},
      w.driver.call uuidGenerate (.acknowledgeStatusUpdate status) = d' →
      w.step uuidGenerate (.call (.acknowledgeStatusUpdate status)) =
        { w with
          driver := d'
          requested := w.requested ++
            (d'.acked.drop w.driver.acked.length).filter (· = status.ackKey) } := by
    intro d' hd
    simp [step, hcrashed, SchedulerDriver.step, SchedulerDriver.handle, hd]
  by_cases hsends : w.driver.Acknowledges status
  · obtain ⟨frameworkId, slaveId, taskId, uuid, hkey, hcall⟩ :=
      SchedulerDriver.call_acknowledge_of hsends uuidGenerate
    obtain ⟨d', hd'⟩ : ∃ d', d' = w.driver.sendMessage
        (.statusUpdateAcknowledgement frameworkId slaveId taskId uuid) := ⟨_, rfl⟩
    have hmode : d'.implicitAcknowledgements = w.driver.implicitAcknowledgements := by rw [hd']; rfl
    have hopened : d'.opened = w.driver.opened := by rw [hd']; rfl
    have hacked : d'.acked = w.driver.acked ++ [status.ackKey] := by
      simp [hd', SchedulerDriver.acked, SchedulerDriver.sendMessage, Message.ackKey, hkey]
    rw [hstep (hcall.trans hd'.symm)]
    cases himplicit : w.driver.implicitAcknowledgements with
    | false =>
      rw [followsMode_of_explicit (hmode.trans himplicit)]
      rw [followsMode_of_explicit himplicit] at h
      simp [hacked, h]
    | true =>
      rw [followsMode_of_implicit (hmode.trans himplicit)]
      rw [followsMode_of_implicit himplicit] at h
      refine iff_of_false (fun hperm => ?_) fun hnot => hnot rfl hsends
      have hlength := hperm.length_eq
      rw [← h.length_eq, hacked, hopened] at hlength
      simp at hlength
  · rw [hstep (SchedulerDriver.call_acknowledge_of_not hsends uuidGenerate)]
    refine iff_of_true ?_ fun _ => hsends
    simpa using h

theorem followsMode_returned_iff {i : Nat} (h : w.FollowsMode)
    (hcrashed : w.driver.crashed = false) :
    (w.step uuidGenerate (.returned i)).FollowsMode ↔ w.driver.FitsMode (.returned i) := by
  have hstep : w.step uuidGenerate (.returned i) =
      { w with driver := w.driver.returned uuidGenerate i } := by
    simp [step, hcrashed, SchedulerDriver.step, SchedulerDriver.handle]
  simp only [hstep, SchedulerDriver.FitsMode, hcrashed, true_implies]
  cases hp : w.driver.pending[i]? with
  | none =>
    have hnone : w.driver.returned uuidGenerate i = w.driver := by
      simp only [SchedulerDriver.returned, hp]
    rw [hnone]
    simpa using h
  | some p =>
    have hacked := SchedulerDriver.returned_acked uuidGenerate hp
    have hopened := SchedulerDriver.returned_opened uuidGenerate hp
    have hmode := SchedulerDriver.returned_mode uuidGenerate hp
    simp only [Option.mem_def, Option.some.injEq, forall_eq']
    cases himplicit : w.driver.implicitAcknowledgements with
    | false =>
      rw [followsMode_of_explicit (hmode.trans himplicit)]
      rw [followsMode_of_explicit himplicit] at h
      simp only [hacked, ← h]
      cases w.driver.aborted <;> simp
    | true =>
      rw [followsMode_of_implicit (hmode.trans himplicit)]
      rw [followsMode_of_implicit himplicit] at h
      simp only [hacked, true_and]
      have hlength := h.length_eq
      have hlength' := hopened.length_eq
      -- an acknowledgement too few or too many changes the number of the keys
      cases haborted : w.driver.aborted with
      | true =>
        cases hrest : p.rest with
        | none =>
          refine iff_of_false (fun hperm => ?_) (by simp)
          have := hperm.length_eq
          simp [Pending.receivedKey, hrest] at this hlength hlength'
          omega
        | some rest =>
          refine iff_of_true (.trans ?_ h) (by simp)
          simp only [Pending.receivedKey, hrest] at hopened
          exact hopened.symm.append_left _
      | false =>
        cases hrest : p.rest with
        | none =>
          refine iff_of_true (.trans ?_ h) (by simp)
          simp only [Pending.receivedKey, hrest] at hopened
          have hperm := hopened.symm.append_left w.driver.acked
          simpa using hperm
        | some rest =>
          refine iff_of_false (fun hperm => ?_) (by simp)
          have := hperm.length_eq
          simp [Pending.receivedKey, hrest] at this hlength hlength'
          omega

theorem followsMode_step_iff (w : AckWatch) (e : Event) (h : w.FollowsMode) :
    (w.step uuidGenerate e).FollowsMode ↔ w.driver.FitsMode e := by
  cases hcrashed : w.driver.crashed with
  | true =>
    refine iff_of_true ?_ fun hrunning => absurd (hcrashed.symm.trans hrunning) nofun
    simpa [step, hcrashed] using h
  | false =>
    have hgoes : ¬w.driver.crashed = true := by rw [hcrashed]; exact Bool.false_ne_true
    -- for the events that are mute there is nothing to ask for
    have hmute : ∀ {e : Event},
        w.step uuidGenerate e = { w with driver := w.driver.step uuidGenerate e } →
        w.driver.Mute (w.driver.handle uuidGenerate e) → w.driver.FitsMode e →
        ((w.step uuidGenerate e).FollowsMode ↔ w.driver.FitsMode e) := by
      intro e hstep hmute hfits
      have hd : w.driver.step uuidGenerate e = w.driver.handle uuidGenerate e := if_neg hgoes
      rw [hstep, hd, followsMode_congr hmute]
      exact iff_of_true h hfits
    cases e with
    | start => exact hmute (if_neg hgoes) (.start _) fun _ => trivial
    | stop failover => exact hmute (if_neg hgoes) (.stop ..) fun _ => trivial
    | abort => exact hmute (if_neg hgoes) (.abort _) fun _ => trivial
    | registrationTimer attempt =>
      refine hmute (if_neg hgoes) ?_ fun _ => trivial
      dsimp only [SchedulerDriver.handle]
      split
      · exact .refl _
      · have hset : w.driver.Mute { w.driver with registrations := w.driver.registrations - 1 } :=
          ⟨rfl, rfl, rfl⟩
        exact hset.trans (.doReliableRegistration ..)
    | reconcileTimer =>
      refine hmute (if_neg hgoes) ?_ fun _ => trivial
      dsimp only [SchedulerDriver.handle]
      split
      · exact .refl _
      · exact .checkReconcile _
    | returned i => exact followsMode_returned_iff h hcrashed
    | call c =>
      have hcall : ∀ c, (∀ status, c ≠ .acknowledgeStatusUpdate status) →
          w.driver.Mute (w.driver.handle uuidGenerate (.call c)) :=
        fun c hc => .call uuidGenerate _ hc
      cases c with
      | acknowledgeStatusUpdate status => exact followsMode_acknowledge_iff h hcrashed
      | _ => exact hmute (if_neg hgoes) (hcall _ fun _ heq => nomatch heq) fun _ => trivial
    | input m =>
      have hinput : ∀ m, (∀ update, m ≠ .statusUpdate update) →
          w.driver.Mute (w.driver.handle uuidGenerate (.input m)) := by
        intro m hm
        dsimp only [SchedulerDriver.handle]
        split
        · exact .onInput _ hm
        · exact .refl _
      cases m with
      | statusUpdate update => exact followsMode_statusUpdate_iff h hcrashed
      | _ => exact hmute (if_neg hgoes) (hinput _ fun _ heq => nomatch heq) fun _ => trivial

/-- In a run from a new driver, the acknowledgements are all along those that the mode asks for,
    exactly if all events fit the mode. -/
theorem acknowledgements_follow_mode_iff (uuidGenerate : Nat → String) (framework : FrameworkInfo)
    (master : String) (implicitAcknowledgements : Bool) (events : List Event) :
    Run.Meets (AckWatch.step uuidGenerate)
        (fun w e => (AckWatch.step uuidGenerate w e).FollowsMode)
        { driver := { framework, master, implicitAcknowledgements } } events ↔
      Run.Meets (AckWatch.step uuidGenerate) (fun w e => w.driver.FitsMode e)
        { driver := { framework, master, implicitAcknowledgements } } events := by
  have hstep : ∀ w e, FollowsMode w →
      (FollowsMode (AckWatch.step uuidGenerate w e) ↔ w.driver.FitsMode e) :=
    fun w e h => followsMode_step_iff w e h
  refine Run.meets_iff_self hstep ?_
  cases implicitAcknowledgements with
  | false => rfl
  | true => exact List.Perm.refl []

instance (w : AckWatch) : Decidable w.FollowsMode := by
  unfold FollowsMode
  infer_instance

/-- An update that is acknowledged although this is left to the scheduler, an update that is
    acknowledged twice, and an acknowledgement of an update that the driver made up, in both
    modes. -/
theorem acknowledgements_ignore_mode :
    let connect : List Event :=
      [.start, .registrationTimer .sent, .input (.frameworkRegistered "framework-1")]
    let run (implicitAcknowledgements : Bool) (events : List Event) :=
      (connect ++ events).foldl (AckWatch.step fun _ => "generated")
        { driver := { master := "urb://localhost", implicitAcknowledgements } }
    let status : TaskStatus :=
      { taskId := "task", state := .running, slaveId := some "slave", uuid := some "uuid" }
    let update : StatusUpdate :=
      { frameworkId := "framework-1", slaveId := some "slave", status := status, uuid := "uuid" }
    let received : List Event := [.input (.statusUpdate update), .returned 0]
    let rejected : List Event :=
      [.call (.launchTasks [] [{ taskId := "task", slaveId := "slave" }] none), .returned 0]
    let explicit := run false received
    let both := run true (received ++ [.call (.acknowledgeStatusUpdate status)])
    (explicit.driver.acked = [("slave", "task", "uuid")] ∧ explicit.requested = [] ∧
        ¬explicit.FollowsMode) ∧
      (both.driver.acked = [("slave", "task", "uuid"), ("slave", "task", "uuid")] ∧
        both.received = [("slave", "task", "uuid")] ∧ ¬both.FollowsMode) ∧
      ∀ mode ∈ [true, false],
        (run mode rejected).driver.acked = [("", "task", "generated")] ∧
          (run mode rejected).received = [] ∧ ¬(run mode rejected).FollowsMode := by
  decide

end AckWatch

end Urb.Sched
