import Mathlib.Data.List.TakeWhile
import Urb.Native.Registration

/-!
# The identity of a framework that comes back

A scheduler that knows the id of its framework is to resume it. A driver that is started with an id
takes this for a fail-over and sends a `RegisterFrameworkMessage` nevertheless, in which the service
does not look at the id; an HTTP subscription is registered without looking at the id as well. In
both cases the id is made from the endpoint of the sender.
-/

namespace Urb

namespace MessagingUtility

theorem dot_notMem_toString (n : Nat) : '.' ∉ (toString n).toList := by
  intro hdot
  rw [Nat.toString_eq_ofList_toDigits, String.toList_ofList] at hdot
  have hdigit := Nat.isDigit_of_mem_toDigits (b := 10) (by decide) (by decide) hdot
  exact absurd hdigit (by decide)

theorem endpoint_ne_empty (endpointId : Nat) : "urb.endpoint." ++ toString endpointId ≠ "" := by
  intro h
  have := congrArg (·.toList.length) h
  simp at this

theorem getEndpointId_driver (uuid : String) (endpointId : Nat) :
    getEndpointId uuid (some ("urb.endpoint." ++ toString endpointId)) =
      some (toString endpointId) := by
  have hprefix : "urb.endpoint.".toList.isPrefixOf ("urb.endpoint." ++ toString endpointId).toList
      = true := by
    rw [List.isPrefixOf_iff_prefix, String.toList_append]
    exact List.prefix_append _ _
  have hdigits : ∀ c ∈ (toString endpointId).toList, decide (c ≠ '.') = true := by
    intro c hc
    exact decide_eq_true fun heq => dot_notMem_toString endpointId (heq ▸ hc)
  simp only [getEndpointId, if_neg (endpoint_ne_empty endpointId), hprefix, if_true]
  rw [String.toList_append, List.drop_left, List.takeWhile_eq_self_iff.mpr hdigits,
    String.ofList_toList]

end MessagingUtility

/-! ## The driver -/

namespace Sched.SchedulerDriver

/-- A driver that tries to register, and was started with an id. -/
structure Registering (frameworkId : String) (d : SchedulerDriver) : Prop where
  framework : d.framework = { id := some frameworkId }
  failover : d.failover = true
  master : d.master ≠ ""
  connected : d.connected = false
  aborted : d.aborted = false
  crashed : d.crashed = false
  registrations : d.registrations ≠ 0

variable {frameworkId : String} {d : SchedulerDriver}

theorem Registering.registration_eq (h : d.Registering frameworkId) :
    d.registration = .registerFramework { id := some frameworkId } := by
  simp [registration, h.failover, h.framework]

theorem Registering.timer (h : d.Registering frameworkId) (uuidGenerate : Nat → String)
    (attempt : Attempt) :
    d.step uuidGenerate (.registrationTimer attempt) =
      match attempt with
      | .sent =>
        { d with registrations := d.registrations - 1, channelsCreated := true }.sendMessage
          d.registration
      | .noChannel => { d with registrations := d.registrations - 1 + 1 }
      | .notSent =>
        { d with registrations := d.registrations - 1 + 1, channelsCreated := true } := by
  rw [step, if_neg (by simp [h.crashed]), handle, if_neg h.registrations,
    doReliableRegistration.eq_def, if_neg (by simp [h.connected, h.master]),
    if_neg (by simp [h.aborted])]
  cases attempt <;> rfl

theorem Registering.fail (h : d.Registering frameworkId) (uuidGenerate : Nat → String)
    (created : Bool) :
    (d.step uuidGenerate
      (.registrationTimer (if created then .notSent else .noChannel))).Registering frameworkId := by
  rw [h.timer]
  cases created with
  | true => exact { h with registrations := Nat.succ_ne_zero _ }
  | false => exact { h with registrations := Nat.succ_ne_zero _ }

theorem Registering.failures (h : d.Registering frameworkId) (uuidGenerate : Nat → String)
    (failures : List Bool) :
    (failures.foldl (fun d created => d.step uuidGenerate
      (.registrationTimer (if created then .notSent else .noChannel))) d).Registering
        frameworkId := by
  induction failures generalizing d with
  | nil => exact h
  | cons created failures ih => exact ih (h.fail uuidGenerate created)

theorem registering_start (uuidGenerate : Nat → String) {master : String} (hid : frameworkId ≠ "")
    (hmaster : master ≠ "") (implicitAcknowledgements : Bool) :
    (step uuidGenerate { framework := { id := some frameworkId }, master, implicitAcknowledgements }
      .start).Registering frameworkId where
  framework := rfl
  failover := by simpa [step, handle, start, startRegistration, FrameworkInfo.hasId] using hid
  master := hmaster
  connected := rfl
  aborted := rfl
  crashed := rfl
  registrations := Nat.one_ne_zero

/-- A driver that has sent its registration and heeds the answer. -/
structure Registered (frameworkId : String) (d : SchedulerDriver) : Prop where
  sent : d.sent.getLast? = some (.registerFramework { id := some frameworkId })
  crashed : d.crashed = false
  channelsCreated : d.channelsCreated = true
  aborted : d.aborted = false
  connected : d.connected = false

theorem registered_startRegistering (uuidGenerate : Nat → String) {master : String}
    (hid : frameworkId ≠ "") (hmaster : master ≠ "") (implicitAcknowledgements : Bool)
    (failures : List Bool) :
    (startRegistering uuidGenerate
      { framework := { id := some frameworkId }, master, implicitAcknowledgements }
      failures).Registered frameworkId := by
  have h := (registering_start uuidGenerate hid hmaster implicitAcknowledgements).failures
    uuidGenerate failures
  dsimp only [startRegistering]
  rw [h.timer, h.registration_eq]
  exact ⟨List.getLast?_concat, h.crashed, rfl, h.aborted, h.connected⟩

theorem Registered.answer (h : d.Registered frameworkId) (uuidGenerate : Nat → String)
    (assigned : String) :
    (d.step uuidGenerate (.input (.frameworkRegistered assigned))).framework.id =
      some assigned := by
  rw [step, if_neg (by simp [h.crashed]), handle, if_pos h.channelsCreated, onInput, registered,
    if_neg (by simp [h.aborted, h.connected])]
  rfl

end Sched.SchedulerDriver

/-! ## The service -/

namespace Trackers

variable {s : Trackers} {uuid : String}

theorem answer_registerFramework (s : Trackers) (uuid : String) (endpointId : Nat)
    (config : FrameworkConfig) (framework : Sched.FrameworkInfo) :
    ∃ s', s.answer uuid endpointId config (.registerFramework framework) =
      some (.ok (.frameworkRegistered ("framework-" ++ toString endpointId), s')) := by
  have hendpoint := MessagingUtility.getEndpointId_driver uuid endpointId
  simp only [answer, registerFramework, processRegistrationRequest, hendpoint]
  exact ⟨_, rfl⟩

end Trackers

/-- A driver that is started with an id keeps it exactly if it is the one that the service makes
    from the endpoint of the driver, whatever the service knows about the framework. -/
theorem identity_survives_failover_iff (uuidGenerate : Nat → String) {frameworkId master : String}
    (hid : frameworkId ≠ "") (hmaster : master ≠ "") (implicitAcknowledgements : Bool)
    (failures : List Bool) (s : Trackers) (uuid : String) (endpointId : Nat)
    (config : FrameworkConfig) :
    ∃ assigned d s', exchange uuidGenerate
        { framework := { id := some frameworkId }, master,
          implicitAcknowledgements } failures s uuid
        endpointId config = some (.frameworkRegistered assigned, d, s') ∧
      (assigned = frameworkId ∧ d.framework.id = some frameworkId ↔
        frameworkId = "framework-" ++ toString endpointId) := by
  have h := Sched.SchedulerDriver.registered_startRegistering uuidGenerate hid hmaster
    implicitAcknowledgements failures
  obtain ⟨s', hanswer⟩ := s.answer_registerFramework uuid endpointId config
    { id := some frameworkId }
  generalize hd : Sched.SchedulerDriver.startRegistering uuidGenerate
    { framework := { id := some frameworkId }, master, implicitAcknowledgements } failures = d at h
  have hexchange : exchange uuidGenerate
      { framework := { id := some frameworkId }, master, implicitAcknowledgements } failures s uuid
      endpointId config = some (.frameworkRegistered ("framework-" ++ toString endpointId),
        d.step uuidGenerate (.input (.frameworkRegistered ("framework-" ++ toString endpointId))),
        s') := by
    simp only [exchange, hd, h.sent, Option.bind_eq_bind, Option.bind_some, hanswer]
  refine ⟨_, _, s', hexchange, ?_⟩
  rw [h.answer, Option.some.injEq, and_self]
  exact eq_comm

/-- A driver whose attempts fail twice and that has the id of its endpoint. -/
theorem identity_survives_failover_same_endpoint : ∃ d s', exchange (fun _ => "generated")
        { framework := { id := some "framework-7" }, master := "urb://localhost" } [false, true] {}
        "uuid" 7 Sample.config = some (.frameworkRegistered "framework-7", d, s') ∧
      d.framework.id = some "framework-7" := by
  obtain ⟨assigned, d, s', hexchange, hiff⟩ := identity_survives_failover_iff (fun _ => "generated")
    (show "framework-7" ≠ "" by decide) (show "urb://localhost" ≠ "" by decide) true [false, true]
    {} "uuid" 7 Sample.config
  obtain ⟨rfl, hid⟩ := hiff.mpr (by decide)
  exact ⟨d, s', hexchange, hid⟩

/-- A driver that takes over the framework of another one, which is active. It gets another id, and
    the service has a second framework. -/
theorem identity_lost_in_failover :
    let s := ({} : Trackers).processRegistration "framework-1" "urb.endpoint.1.notify"
      Sample.config false
    let outcome := exchange (fun _ => "generated")
      { framework := { id := some "framework-1" }, master := "urb://localhost" } [] s "uuid" 2
      Sample.config
    outcome.map (·.1) = some (.frameworkRegistered "framework-2") ∧
      outcome.map (·.2.1.framework.id) = some (some "framework-2") ∧
      outcome.map (·.2.2.frameworks.keys) = some ["framework-2", "framework-1"] := by
  decide +kernel

/-! ## Subscriptions over HTTP -/

/-- What a framework is to keep when its scheduler comes back. -/
def Framework.Continues (f f' : Framework) : Prop :=
  f'.taskDict = f.taskDict ∧ f'.slaveDict = f.slaveDict ∧ f'.jobIds = f.jobIds ∧
    f'.offers = f.offers

/-- One registration did what another one did: the id is the same and so is the record, and no
    record was added. -/
def Trackers.Resumes (s : Trackers) (subscribed reregistered : String × Trackers) : Prop :=
  subscribed.1 = reregistered.1 ∧
    (∃ state state', subscribed.2.frameworks.lookup subscribed.1 = some state ∧
      reregistered.2.frameworks.lookup reregistered.1 = some state' ∧
      state'.framework.Continues state.framework) ∧
    ∀ id, id ∈ subscribed.2.frameworks ↔ id ∈ s.frameworks

namespace Trackers

theorem processRegistration_of_some {s : Trackers} {frameworkId : String} {state : State}
    (h : s.frameworks.lookup frameworkId = some state) (channelName : String)
    (config : FrameworkConfig) (http : Bool) :
    ∃ state', state.framework.Continues state'.framework ∧
      (s.processRegistration frameworkId channelName config http).frameworks =
        s.frameworks.insert frameworkId state' := by
  let state' : State :=
    { state with framework := { state.framework with id := frameworkId, channelName, config } }
  refine ⟨state', ⟨rfl, rfl, rfl, rfl⟩, ?_⟩
  simp only [processRegistration, h]
  cases http <;> rfl

theorem httpSubscribe_eq (s : Trackers) (uuid : String) (frameworkId : Option String)
    (config : FrameworkConfig) :
    s.httpSubscribe uuid frameworkId config = .ok ("framework-" ++ uuid,
      s.processRegistration ("framework-" ++ uuid) "http" config true) := rfl

theorem reregisterFramework_eq (s : Trackers) (uuid : String) (endpointId : Nat)
    (frameworkId : String) (config : FrameworkConfig) :
    s.reregisterFramework uuid
        { sourceId := some ("urb.endpoint." ++ toString endpointId)
          frameworkId := some frameworkId
          config } =
      .ok (frameworkId, s.processRegistration frameworkId
        ("urb.endpoint." ++ toString endpointId ++ ".notify") config false) := by
  have hendpoint := MessagingUtility.getEndpointId_driver uuid endpointId
  have hhttp : Option.all (fun x => decide (x = ""))
      (some ("urb.endpoint." ++ toString endpointId)) = false :=
    decide_eq_false (MessagingUtility.endpoint_ne_empty endpointId)
  simp only [reregisterFramework, processRegistrationRequest, hendpoint, hhttp]
  rfl

/-- A subscription with the id of an active framework resumes it, as the registration of a driver
    does, exactly if that id is what the service makes up for it. -/
theorem resubscription_resumes_iff {s : Trackers} {frameworkId : String}
    (h : frameworkId ∈ s.frameworks) (uuid uuid' : String) (endpointId : Nat)
    (config config' : FrameworkConfig) :
    ∃ subscribed reregistered, s.httpSubscribe uuid (some frameworkId) config = .ok subscribed ∧
      s.reregisterFramework uuid'
        { sourceId := some ("urb.endpoint." ++ toString endpointId)
          frameworkId := some frameworkId
          config := config' } = .ok reregistered ∧
      (s.Resumes subscribed reregistered ↔ frameworkId = "framework-" ++ uuid) := by
  refine ⟨_, _, httpSubscribe_eq .., reregisterFramework_eq .., ?_⟩
  constructor
  · exact fun hresumes => hresumes.1.symm
  · intro heq
    obtain ⟨state, hstate⟩ := Option.isSome_iff_exists.mp (AList.lookup_isSome.mpr h)
    obtain ⟨subscribed, hs, hsubscribed⟩ := processRegistration_of_some hstate "http" config true
    obtain ⟨reregistered, hr, hreregistered⟩ := processRegistration_of_some hstate
      ("urb.endpoint." ++ toString endpointId ++ ".notify") config' false
    rw [← heq]
    refine ⟨rfl, ⟨subscribed, reregistered, ?_, ?_, ?_⟩, fun id => ?_⟩
    · rw [hsubscribed, AList.lookup_insert]
    · rw [hreregistered, AList.lookup_insert]
    · exact ⟨hs.1.trans hr.1.symm, hs.2.1.trans hr.2.1.symm, hs.2.2.1.trans hr.2.2.1.symm,
        hs.2.2.2.trans hr.2.2.2.symm⟩
    · rw [hsubscribed, AList.mem_insert]
      constructor
      · intro hid
        cases hid with
        | inl hid => exact hid ▸ h
        | inr hid => exact hid
      · exact Or.inr

/-- The id of the framework happens to be the one that is made up. -/
theorem resubscription_resumes_same_id :
    let s := ({} : Trackers).processRegistration "framework-a0b1" "http" Sample.config true
    ∃ subscribed reregistered,
      s.httpSubscribe "a0b1" (some "framework-a0b1") Sample.config = .ok subscribed ∧
      s.reregisterFramework ""
        { sourceId := some ("urb.endpoint." ++ toString 3)
          frameworkId := some "framework-a0b1"
          config := Sample.config } = .ok reregistered ∧
      s.Resumes subscribed reregistered := by
  intro s
  have hactive : "framework-a0b1" ∈ s.frameworks := by decide
  obtain ⟨subscribed, reregistered, hs, hr, hiff⟩ :=
    resubscription_resumes_iff hactive "a0b1" "" 3 Sample.config Sample.config
  exact ⟨subscribed, reregistered, hs, hr, hiff.mpr (by decide)⟩

/-- A scheduler that subscribes again with the id of its framework. It is told another id, and the
    service has a second framework. -/
theorem resubscription_adds_framework :
    let s := ({} : Trackers).processRegistration "framework-1" "http" Sample.config true
    let subscribed := s.httpSubscribe "a0b1" (some "framework-1") Sample.config
    let reregistered := s.reregisterFramework ""
      { sourceId := some "urb.endpoint.3"
        frameworkId := some "framework-1"
        config := Sample.config }
    (subscribed.map fun r => (r.1, r.2.frameworks.keys)) =
        .ok ("framework-a0b1", ["framework-a0b1", "framework-1"]) ∧
      (reregistered.map fun r => (r.1, r.2.frameworks.keys)) =
        .ok ("framework-1", ["framework-1"]) := by
  decide +kernel

end Trackers

end Urb
