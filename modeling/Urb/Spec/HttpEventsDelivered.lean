import Urb.ForStd.Run
import Urb.Native.Entry
import Urb.Native.HttpEvents

/-!
# Delivery of HTTP events

Every posted event reaches the subscriber, once and in order, as long as an event is
posted only into an empty slot that the generator is going to read, the slot is not
overwritten before it is read, and the generator does not fail or end in between.
-/

namespace Urb

namespace Stream

/-- The generator is going to read the slot. -/
def listening (s : Stream) : Bool := s.phase == .busy || s.phase == .waiting

/-- The event in the slot, if the generator is still going to read it. -/
def unread (s : Stream) : List HttpEvent := if s.listening then s.value.toList else []

/-- What was posted is what was yielded and what is in the slot, in this order, and the
    generator yields all of it if it is left to run. -/
structure Delivers (s : Stream) : Prop where
  inOrder : s.posted = s.yielded ++ s.unread
  complete : ∃ n, (advance^[n] s).yielded = s.posted

/-- The condition on an event and the stream before it. -/
def Orderly (s : Stream) : StreamEvent → Prop
  | .post _ => s.listening ∧ s.unread = [] ∧ s.offerEvent.isSome
  | .advance => True
  | _ => s.unread = []

/-! ## Single steps -/

variable {s : Stream}

theorem unread_of_not_listening (h : s.listening = false) : s.unread = [] := by
  rw [unread, h]
  rfl

theorem not_listening_of_fail : (s.fail).listening = false := by
  simp only [fail, listening]
  cases h : s.phase <;> simp [h]

theorem unread_post {e : HttpEvent} (hl : s.listening) (hslot : s.offerEvent.isSome) :
    (s.post e).unread = [e] := by
  obtain ⟨v, hv⟩ := Option.isSome_iff_exists.mp hslot
  have hl' : (s.post e).listening = true := hl
  rw [unread, if_pos hl', value, post, set]
  simp only [hv, Option.map_some, Option.bind_some, id_eq]
  rfl

theorem unread_setEmpty : (s.set none).unread = [] := by
  rw [unread]
  split
  · simp only [value, set]
    cases s.offerEvent <;> rfl
  · rfl

theorem yielded_advance : (s.advance).yielded ++ (s.advance).unread = s.yielded ++ s.unread := by
  cases hphase : s.phase with
  | head =>
    have hs : s.unread = [] := unread_of_not_listening (by simp [listening, hphase])
    simp only [advance, hphase]
    cases hslot : s.offerEvent with
    | none => rfl
    | some v =>
      rw [hs]
      simp [unread, listening, value]
  | busy =>
    -- the slot is as it was, and still to be read
    simp [advance, hphase, unread, listening, value]
  | waiting =>
    simp only [advance, hphase]
    cases hvalue : s.value with
    | none => simp [unread, listening, hphase, hvalue]
    | some e => simp [unread, listening, hphase, hvalue]
  | yielding =>
    simp [advance, hphase, unread, listening]
  | ended => simp [advance, hphase, unread, listening]

theorem complete_of_inOrder (h : s.posted = s.yielded ++ s.unread) :
    ∃ n, (advance^[n] s).yielded = s.posted := by
  have hwaiting : ∀ {s : Stream}, s.phase = .waiting →
      (s.advance).yielded = s.yielded ++ s.unread := by
    intro s hphase
    simp only [advance, hphase, unread, listening]
    cases hvalue : s.value <;> simp
  by_cases hl : s.listening
  · simp only [listening, Bool.or_eq_true, beq_iff_eq] at hl
    rcases hl with hbusy | hwait
    · refine ⟨2, ?_⟩
      have hnext : (s.advance).phase = .waiting := by simp [advance, hbusy]
      have hsame : (s.advance).yielded = s.yielded := by simp [advance, hbusy]
      have hunread : (s.advance).unread = s.unread := by
        have := yielded_advance (s := s)
        rw [hsame] at this
        exact List.append_cancel_left this
      show ((s.advance).advance).yielded = s.posted
      rw [hwaiting hnext, hsame, hunread, h]
    · exact ⟨1, by rw [h]; exact hwaiting hwait⟩
  · refine ⟨0, ?_⟩
    have hnone := unread_of_not_listening (s := s) (by simpa using hl)
    rw [h, hnone, List.append_nil]
    rfl

theorem Delivers.of_inOrder (h : s.posted = s.yielded ++ s.unread) : s.Delivers :=
  ⟨h, complete_of_inOrder h⟩

theorem inOrder_of_unread_nil {s' : Stream} (h : s.posted = s.yielded ++ s.unread)
    (hs : s.unread = []) (hp : s'.posted = s.posted) (hy : s'.yielded = s.yielded)
    (hs' : s'.unread = []) : s'.posted = s'.yielded ++ s'.unread := by
  rw [hp, hy, hs', h, hs]

theorem Delivers.step {e : StreamEvent} (h : s.Delivers) (he : s.Orderly e) :
    (s.step e).Delivers := by
  apply Delivers.of_inOrder
  have horder := h.inOrder
  cases e with
  | post e =>
    obtain ⟨hl, hnone, hslot⟩ := he
    show s.posted ++ [e] = s.yielded ++ (s.post e).unread
    rw [unread_post hl hslot, horder, hnone, List.append_nil]
  | setEmpty => exact inOrder_of_unread_nil horder he rfl rfl unread_setEmpty
  | advance =>
    show (s.advance).posted = (s.advance).yielded ++ (s.advance).unread
    rw [yielded_advance, ← horder]
    simp only [Stream.advance]
    split
    · split <;> rfl
    · rfl
    · split <;> rfl
    · rfl
    · rfl
  | fail =>
    have hp : (s.fail).posted = s.posted ∧ (s.fail).yielded = s.yielded := by
      simp only [fail]
      split <;> exact ⟨rfl, rfl⟩
    exact inOrder_of_unread_nil horder he hp.1 hp.2
      (unread_of_not_listening not_listening_of_fail)
  | close =>
    simp only [Stream.step, close]
    split
    · exact inOrder_of_unread_nil horder he rfl rfl rfl
    · exact inOrder_of_unread_nil horder he rfl rfl rfl
    · exact horder
  | leave demoted =>
    simp only [Stream.step, leave]
    split
    · exact inOrder_of_unread_nil horder he rfl rfl rfl
    · exact horder

end Stream

/-- In a run of orderly steps every event that was posted is yielded once and in order. -/
theorem http_events_delivered (events : List StreamEvent)
    (h : Run.Meets Stream.step Stream.Orderly {} events) :
    (events.foldl Stream.step {}).Delivers :=
  Run.invariant (fun _ _ hs he => hs.step he) (Stream.Delivers.of_inOrder rfl) h

/-- Two updates, each yielded before the next one is posted. -/
theorem http_events_delivered_two :
    (([.advance, .advance, .post (.update "t" .running), .advance, .advance, .advance,
      .post (.update "t" .finished), .advance, .advance] : List StreamEvent).foldl
        Stream.step {}).Delivers := by
  apply http_events_delivered
  simp only [Run.Meets, Stream.Orderly]
  decide

/-- A task finishes while the generator waits for the lock. `handle_status_update` posts the
    update and then sets the same slot without a value: the update is never yielded. -/
theorem finished_update_lost :
    let s := run Sample.env Sample.start Sample.launched
    let s' := step Sample.env s (.queued (.statusUpdate Sample.finished))
    let posts := (s'.effects.drop s.effects.length).filterMap Effect.streamEvent
    let events : List StreamEvent := .advance :: posts ++ [.advance, .advance]
    let stream := events.foldl Stream.step {}
    stream.posted = [.update "t" .finished] ∧ stream.yielded = [] ∧ stream.phase = .head ∧
      ¬stream.Delivers := by
  refine ⟨by decide +kernel, by decide +kernel, by decide +kernel, fun h => ?_⟩
  have horder := h.inOrder
  revert horder
  decide +kernel

end Urb
