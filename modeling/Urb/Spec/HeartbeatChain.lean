import Urb.ForStd.Run
import Urb.Native.Heartbeat
import Urb.Spec.TimerQueue

/-!
# The chain of heartbeats of a channel

The flag that `setHeartbeatPayload` looks at is that of the outer timer object, which is never set:
every call starts one more chain of heartbeats. A chain ends when the message of a heartbeat cannot
be made.
-/

namespace Urb.Heartbeat

open Ev (EvHelper Timer)

namespace World

variable {w : World}

/-- The heartbeats of the channel that are pending. -/
def pending (w : World) : Nat := w.ev.pending (· == Method.sendHeartbeat)

/-- From the first `setHeartbeatPayload` until the channel is destroyed, one heartbeat is pending.
    -/
def OneChain (w : World) : Prop :=
  w.payloadSet = true → w.destroyed = false → w.pending = 1

/-- What always holds: the outer timer object is never active, and before the first payload there
    are no heartbeats. -/
structure Sound (w : World) : Prop where
  ev : w.ev.Sound
  outer : w.channel.heartbeatTimer.active = false
  silent : w.payloadSet = false → w.pending = 0

/-- `setHeartbeatPayload` is called once, and the message of a heartbeat can be made. -/
def StaysOne (w : World) : Event → Prop
  | .setHeartbeatPayload _ => w.destroyed = true ∨ w.payloadSet = false
  | .execute outcome => w.destroyed = true ∨ outcome ≠ .messageRaises ∨
      w.ev.executeNext.2 ≠ some .sendHeartbeat
  | _ => True

theorem outer_delayHeartbeat (w : World) :
    w.delayHeartbeat.channel.heartbeatTimer.active = w.channel.heartbeatTimer.active := by
  simp only [delayHeartbeat, Timer.delay]
  split <;> rfl

theorem ev_delayHeartbeat (h : w.channel.heartbeatTimer.active = false) :
    ∃ t, t.active = true ∧ t.method = Method.sendHeartbeat ∧
      w.delayHeartbeat.ev = w.ev.scheduleTimer t := by
  simp only [delayHeartbeat, Timer.delay, h, Bool.false_eq_true, if_false]
  exact ⟨_, rfl, rfl, rfl⟩

theorem pending_delayHeartbeat (hev : w.ev.Sound) (h : w.channel.heartbeatTimer.active = false) :
    w.delayHeartbeat.pending = w.pending + 1 := by
  obtain ⟨t, hactive, hmethod, hev'⟩ := ev_delayHeartbeat h
  rw [pending, hev', EvHelper.pending_scheduleTimer hev, hactive, hmethod]
  rfl

theorem sound_delayHeartbeat (hev : w.ev.Sound) (h : w.channel.heartbeatTimer.active = false)
    (hset : w.payloadSet = true) : w.delayHeartbeat.Sound := by
  obtain ⟨t, -, -, hev'⟩ := ev_delayHeartbeat h
  refine ⟨hev' ▸ hev.scheduleTimer t, (outer_delayHeartbeat w).trans h, fun hnot => ?_⟩
  have hsame : w.delayHeartbeat.payloadSet = w.payloadSet := rfl
  rw [hsame, hset] at hnot
  cases hnot

theorem sendHeartbeat_spec (hev : w.ev.Sound) (h : w.channel.heartbeatTimer.active = false)
    (hset : w.payloadSet = true) (outcome : Write) :
    (w.sendHeartbeat outcome).Sound ∧ (w.sendHeartbeat outcome).payloadSet = true ∧
      (w.sendHeartbeat outcome).destroyed = w.destroyed ∧
      (w.sendHeartbeat outcome).pending =
        w.pending + if outcome = .messageRaises then 0 else 1 := by
  cases outcome with
  | messageRaises =>
    exact ⟨⟨hev, h, fun hnot => absurd (hset.symm.trans hnot) Bool.true_eq_false.mp⟩,
      hset, rfl, rfl⟩
  | commandRaises =>
    exact ⟨sound_delayHeartbeat hev h hset, hset, rfl, pending_delayHeartbeat hev h⟩
  | sent =>
    let sent : World :=
      { w with channel := { w.channel with written := w.channel.written ++ [w.channel.payload] } }
    exact ⟨sound_delayHeartbeat (w := sent) hev h hset, hset, rfl,
      pending_delayHeartbeat (w := sent) hev h⟩

theorem execute_spec (h : w.Sound) (outcome : Write) :
    (w.execute outcome).Sound ∧ (w.execute outcome).payloadSet = w.payloadSet ∧
      (w.execute outcome).destroyed = w.destroyed ∧
      (w.execute outcome).pending +
        (if w.ev.executeNext.2 = some .sendHeartbeat ∧ outcome = .messageRaises then 1 else 0) =
      w.pending := by
  have hev := h.ev.executeNext
  have hpending : w.pending = { w with ev := w.ev.executeNext.1 }.pending +
      if w.ev.executeNext.2.any (· == Method.sendHeartbeat) then 1 else 0 :=
    EvHelper.pending_executeNext h.ev
  unfold World.execute
  generalize w.ev.executeNext = r at hev hpending
  obtain ⟨ev, method⟩ := r
  rcases method with _ | _ | _
  · -- nothing was called
    have hcount : w.pending = { w with ev }.pending := hpending
    exact ⟨⟨hev, h.outer, fun hnot => hcount.symm.trans (h.silent hnot)⟩, rfl, rfl, hcount.symm⟩
  · have hcount : w.pending = { w with ev }.pending + 1 := hpending
    have hset : w.payloadSet = true := by
      by_contra hnot
      have hsilent := h.silent (by simpa using hnot)
      omega
    obtain ⟨hsound, hset', hlive', hsent⟩ :=
      sendHeartbeat_spec (w := { w with ev }) hev h.outer hset outcome
    refine ⟨hsound, hset'.trans hset.symm, hlive', ?_⟩
    show ({ w with ev }.sendHeartbeat outcome).pending + _ = _
    rw [hsent, hcount]
    by_cases hraises : outcome = .messageRaises <;> simp [hraises]
  · -- the timer of another owner
    have hcount : w.pending = { w with ev }.pending := hpending
    exact ⟨⟨hev, h.outer, fun hnot => hcount.symm.trans (h.silent hnot)⟩, rfl, rfl, hcount.symm⟩

theorem setHeartbeatPayload_spec (h : w.Sound) (payload : String) :
    (w.setHeartbeatPayload payload).Sound ∧ (w.setHeartbeatPayload payload).payloadSet = true ∧
      (w.setHeartbeatPayload payload).destroyed = w.destroyed ∧
      (w.setHeartbeatPayload payload).pending = w.pending + 1 := by
  let set : World := { w with channel := { w.channel with payload }, payloadSet := true }
  have hset : w.setHeartbeatPayload payload = set.delayHeartbeat := if_neg (by simp [h.outer])
  rw [hset]
  exact ⟨sound_delayHeartbeat (w := set) h.ev h.outer rfl, rfl, rfl,
    pending_delayHeartbeat (w := set) h.ev h.outer⟩

theorem other_spec (h : w.Sound) {ev : EvHelper Method} (hev : ev.Sound)
    (hpending : ev.pending (· == Method.sendHeartbeat) = w.pending) :
    { w with ev }.Sound ∧ ({ w with ev }.OneChain ↔ w.OneChain) := by
  have hcount : { w with ev }.pending = w.pending := hpending
  refine ⟨⟨hev, h.outer, fun hnot => hcount.trans (h.silent hnot)⟩, ?_⟩
  simp only [OneChain, hcount]

/-- What holds in every run: the channel is destroyed, or it is as it should be. -/
def Kept (w : World) : Prop := w.destroyed = true ∨ w.Sound

theorem oneChain_execute_iff (h : w.Sound) (hlive : w.destroyed = false) (hone : w.OneChain)
    (outcome : Write) : (w.execute outcome).OneChain ↔ w.StaysOne (.execute outcome) := by
  obtain ⟨-, hset, hlive', hpending⟩ := execute_spec h outcome
  rw [OneChain, hset, hlive', StaysOne, hlive]
  by_cases hends : w.ev.executeNext.2 = some .sendHeartbeat ∧ outcome = .messageRaises
  · rw [if_pos hends] at hpending
    have hset : w.payloadSet = true := by
      by_contra hnot
      have hsilent := h.silent (by simpa using hnot)
      omega
    have hbefore := hone hset hlive
    refine iff_of_false (fun h => ?_) ?_
    · have hafter := h hset rfl
      omega
    · simp [hends.1, hends.2]
  · rw [if_neg hends, Nat.add_zero] at hpending
    rw [hpending]
    refine iff_of_true (fun hset _ => hone hset hlive) (.inr ?_)
    by_contra hnot
    push Not at hnot
    exact hends hnot.symm

theorem step_of_live (hlive : w.destroyed = false) (e : Event) : step w e = match e with
      | .setHeartbeatPayload payload => w.setHeartbeatPayload payload
      | .delayOther ns => { w with ev := (({} : Timer).delay w.ev ns Method.other).2 }
      | .advance ns => { w with ev := { w.ev with now := w.ev.now + ns } }
      | .timeout => if w.ev.callbacks.isEmpty then { w with ev := w.ev.takeDue } else w
      | .execute outcome => w.execute outcome
      | .destroy => w.destroy := if_neg (by simp [hlive])

theorem step_live (h : w.Sound) (hlive : w.destroyed = false) (e : Event) :
    (step w e).Kept ∧ (w.OneChain → ((step w e).OneChain ↔ w.StaysOne e)) := by
  rw [step_of_live hlive]
  cases e with
  | setHeartbeatPayload payload =>
    obtain ⟨hsound, hset, hlive', hpending⟩ := setHeartbeatPayload_spec h payload
    refine ⟨.inr hsound, fun hone => ?_⟩
    dsimp only
    rw [OneChain, hset, hlive', hpending, StaysOne, hlive]
    simp only [Bool.false_eq_true, false_or, forall_const]
    constructor
    · intro hafter
      by_contra hnot
      have hbefore := hone (by simpa using hnot) hlive
      omega
    · intro hnot
      rw [h.silent hnot]
  | delayOther ns =>
    have hev : ((({} : Timer).delay w.ev ns Method.other).2).Sound := h.ev.scheduleTimer _
    have hpending : (({} : Timer).delay w.ev ns Method.other).2.pending
        (· == Method.sendHeartbeat) = w.pending := EvHelper.pending_scheduleTimer h.ev _
    obtain ⟨hsound, hiff⟩ := other_spec h hev hpending
    exact ⟨.inr hsound, fun hone => iff_of_true (hiff.mpr hone) trivial⟩
  | advance ns =>
    -- only the time changes
    have hev : { w.ev with now := w.ev.now + ns }.Sound := ⟨h.ev.nodup, h.ev.objects⟩
    obtain ⟨hsound, hiff⟩ := other_spec h hev rfl
    exact ⟨.inr hsound, fun hone => iff_of_true (hiff.mpr hone) trivial⟩
  | timeout =>
    dsimp only
    split
    · rename_i hidle
      have hidle := List.isEmpty_iff.mp hidle
      obtain ⟨hsound, hiff⟩ := other_spec h (h.ev.takeDue hidle) (EvHelper.pending_takeDue hidle)
      exact ⟨.inr hsound, fun hone => iff_of_true (hiff.mpr hone) trivial⟩
    · exact ⟨.inr h, fun hone => iff_of_true hone trivial⟩
  | execute outcome =>
    exact ⟨.inr (execute_spec h outcome).1,
      fun hone => oneChain_execute_iff h hlive hone outcome⟩
  | destroy =>
    refine ⟨.inl rfl, fun _ => iff_of_true (fun _ hnot => ?_) trivial⟩
    cases hnot

/-- Whatever happens, one heartbeat is pending from the first payload until the channel is
    destroyed, exactly if the payload is set once and every heartbeat that is due can be made. -/
theorem one_heartbeat_chain_iff (events : List Event) :
    Run.Meets step (fun w e => (step w e).OneChain) {} events ↔
      Run.Meets step StaysOne {} events := by
  have hdead : ∀ w e, World.destroyed w = true → step w e = w := fun w e h => if_pos h
  have hkept : ∀ w e, Kept w → Kept (step w e) := by
    intro w e h
    cases hlive : w.destroyed with
    | true => exact .inl ((congrArg destroyed (hdead w e hlive)).trans hlive)
    | false => exact (step_live (h.resolve_left (by simp [hlive])) hlive e).1
  have hstep : ∀ w e, Kept w → OneChain w → (OneChain (step w e) ↔ StaysOne w e) := by
    intro w e h hone
    cases hlive : w.destroyed with
    | true =>
      rw [hdead w e hlive]
      cases e <;> simp [StaysOne, hlive, hone]
    | false => exact (step_live (h.resolve_left (by simp [hlive])) hlive e).2 hone
  have hstart : Kept {} := .inr ⟨⟨List.nodup_nil, fun i hi => absurd hi List.not_mem_nil⟩, rfl,
    fun _ => rfl⟩
  exact Run.meets_iff hkept hstep hstart fun hset => absurd hset Bool.false_ne_true

/-- The driver is registered and registered again: two heartbeats are pending, and every minute
    two are sent. A heartbeat message that cannot be made is the last one. -/
theorem heartbeat_chains_multiply_or_stop :
    let twice := [Event.setHeartbeatPayload "framework", .setHeartbeatPayload "framework"].foldl
      step {}
    let failed := [Event.setHeartbeatPayload "framework", .advance 60000000000, .timeout,
      .execute .messageRaises].foldl step {}
    twice.pending = 2 ∧ ¬twice.OneChain ∧ failed.pending = 0 ∧ ¬failed.OneChain := by
  refine ⟨by decide, fun h => ?_, by decide, fun h => ?_⟩
  · exact absurd (h rfl rfl) (by decide)
  · exact absurd (h rfl rfl) (by decide)

end World

end Urb.Heartbeat
