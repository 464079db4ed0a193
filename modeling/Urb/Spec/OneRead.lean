import Urb.ForStd.Run
import Urb.Native.RedisChannel

/-!
# One read of a channel at a time

Every registration of a callback starts another read loop, although the one before still runs; and a
read loop ends without a trace when a command is dropped.

## Key results

- `one_read_iff`: a channel keeps its one read exactly if no callback is registered on a valid
  connection and no read is dropped before the connection is renewed.
-/

namespace Urb.RedisChannel

/-- The reads of the channel. A reply that is being handled counts for the read that its handler
    queues in the end. -/
def reads (c : RedisChannel) : Nat := c.commands + c.outstanding + c.handling

/-- The channel has one read, if the connection is valid: when no reply is being handled, one
    command is queued or outstanding. -/
def OneRead (c : RedisChannel) : Prop := c.isValid = true → c.reads = 1

/-- On a connection that is lost, a queued command is executed or the handler of a reply gets to its
    end. Both drop a command. -/
def Drops (c : RedisChannel) : RedisEvent → Prop
  | .execute => c.isValid = false ∧ c.commands ≠ 0
  | .handled => c.isValid = false ∧ c.handling ≠ 0
  | _ => False

/-- No callback is registered while the connection is valid, and the connection is not renewed after
    a command was dropped. -/
def Undisturbed : RedisChannel → List RedisEvent → Prop
  | _, [] => True
  | c, e :: events => (e = .register → c.isValid = false) ∧ (c.Drops e → .renew ∉ events) ∧
      (c.step e).Undisturbed events

/-- The broker runs, and a callback was registered. -/
def Listens (c : RedisChannel) : Prop := c.isRunning = true ∧ c.callback = true

theorem Listens.step {c : RedisChannel} (h : c.Listens) (e : RedisEvent) : (c.step e).Listens := by
  cases e with
  | register => exact ⟨h.1, rfl⟩
  | execute => exact h
  | reply r =>
    simp only [RedisChannel.step]
    split <;> exact h
  | handled =>
    simp only [RedisChannel.step, queueNext]
    split
    · exact h
    · split <;> exact h
  | lose => exact h
  | renew => exact h

/-- A registration on a valid connection adds a read, and nothing else does. -/
theorem reads_register {c : RedisChannel} (hvalid : c.isValid = true) :
    (c.step .register).reads = c.reads + 1 := by
  simp only [step, registerInputCallback, sendMessage, reads, hvalid, if_true]
  omega

theorem reads_of_drops {c : RedisChannel} {e : RedisEvent} (h : c.Drops e) :
    (c.step e).reads + 1 = c.reads := by
  cases e with
  | execute =>
    obtain ⟨hvalid, hcommands⟩ := h
    simp only [step, asyncCb, reads, hvalid, Bool.false_eq_true, and_false, if_false]
    omega
  | handled =>
    obtain ⟨hvalid, hhandling⟩ := h
    simp only [step, queueNext, if_neg hhandling, sendMessage, hvalid, Bool.false_eq_true, if_false,
      ite_self, reads]
    omega
  | register => exact h.elim
  | reply r => exact h.elim
  | lose => exact h.elim
  | renew => exact h.elim

theorem reads_of_not_drops {c : RedisChannel} (h : c.Listens) {e : RedisEvent} (hdrops : ¬c.Drops e)
    (hregister : e = .register → c.isValid = false) : (c.step e).reads = c.reads := by
  obtain ⟨hrunning, hcallback⟩ := h
  cases e with
  | register =>
    simp [step, registerInputCallback, sendMessage, reads, hregister rfl]
  | execute =>
    by_cases hnone : c.commands = 0
    · simp [step, asyncCb, reads, hnone]
    · have hvalid : c.isValid = true := Bool.of_not_eq_false fun h => hdrops ⟨h, hnone⟩
      simp only [step, asyncCb, reads, hvalid, and_true, if_pos hnone]
      omega
  | reply r =>
    simp only [step]
    split
    · rfl
    · simp only [reads]
      omega
  | handled =>
    simp only [step, queueNext, hrunning, hcallback, Bool.and_self, if_true]
    split
    · rfl
    · rename_i hhandling
      have hvalid : c.isValid = true := Bool.of_not_eq_false fun h => hdrops ⟨h, hhandling⟩
      simp only [sendMessage, reads, hvalid, if_true]
      omega
  | lose => rfl
  | renew => rfl

theorem isValid_step (c : RedisChannel) {e : RedisEvent} (hlose : e ≠ .lose) (hrenew : e ≠ .renew) :
    (c.step e).isValid = c.isValid := by
  cases e with
  | register => rfl
  | execute => rfl
  | reply r =>
    simp only [step]
    split <;> rfl
  | handled =>
    simp only [step, queueNext]
    split
    · rfl
    · split <;> rfl
  | lose => exact absurd rfl hlose
  | renew => exact absurd rfl hrenew

theorem isValid_step_of_drops {c : RedisChannel} {e : RedisEvent} (h : c.Drops e) :
    (c.step e).isValid = false := by
  cases e with
  | execute => exact (isValid_step c (by simp) (by simp)).trans h.1
  | handled => exact (isValid_step c (by simp) (by simp)).trans h.1
  | register => exact h.elim
  | reply r => exact h.elim
  | lose => exact h.elim
  | renew => exact h.elim

/-- A channel without a read has none later, as long as the connection is not renewed. -/
theorem reads_eq_zero_step {c : RedisChannel} (h : c.Listens) (hvalid : c.isValid = false)
    (hnone : c.reads = 0) {e : RedisEvent} (hrenew : e ≠ .renew) :
    (c.step e).isValid = false ∧ (c.step e).reads = 0 := by
  have hdrops : ¬c.Drops e := by
    intro hdrops
    have := reads_of_drops hdrops
    omega
  refine ⟨?_, (reads_of_not_drops h hdrops fun _ => hvalid).trans hnone⟩
  by_cases hlose : e = .lose
  · rw [hlose]
    rfl
  · rw [isValid_step c hlose hrenew, hvalid]

/-- A read that was dropped is missed when the connection is renewed. -/
theorem not_oneRead_of_renew {c : RedisChannel} (h : c.Listens) (hvalid : c.isValid = false)
    (hnone : c.reads = 0) {events : List RedisEvent} (hrenew : .renew ∈ events) :
    ¬Run.Meets step (fun c e => (c.step e).OneRead) c events := by
  induction events generalizing c with
  | nil => cases hrenew
  | cons e events ih =>
    rintro ⟨hone, hrest⟩
    by_cases he : e = .renew
    · subst he
      have : c.reads = 1 := hone rfl
      omega
    · obtain ⟨hvalid', hnone'⟩ := reads_eq_zero_step h hvalid hnone he
      have hmem : .renew ∈ events := (List.mem_cons.mp hrenew).resolve_left (Ne.symm he)
      exact ih (h.step e) hvalid' hnone' hmem hrest

/-- The channel has one read, or its read was dropped and the connection is never renewed. -/
theorem meets_of_undisturbed {c : RedisChannel} (h : c.Listens) {events : List RedisEvent}
    (hreads : c.reads = 1 ∨ c.reads = 0 ∧ c.isValid = false ∧ .renew ∉ events)
    (hevents : c.Undisturbed events) : Run.Meets step (fun c e => (c.step e).OneRead) c events := by
  induction events generalizing c with
  | nil => trivial
  | cons e events ih =>
    rcases hreads with hreads | ⟨hnone, hvalid, hrenew⟩
    · by_cases hdrops : c.Drops e
      · have hnone : (c.step e).reads = 0 := by
          have := reads_of_drops hdrops
          omega
        have hvalid' := isValid_step_of_drops hdrops
        refine ⟨fun hstep => absurd hstep (by simp [hvalid']), ih (h.step e) (.inr ?_) hevents.2.2⟩
        exact ⟨hnone, hvalid', hevents.2.1 hdrops⟩
      · have hstep := (reads_of_not_drops h hdrops hevents.1).trans hreads
        exact ⟨fun _ => hstep, ih (h.step e) (.inl hstep) hevents.2.2⟩
    · obtain ⟨hne, hrest⟩ := not_or.mp (mt List.mem_cons.mpr hrenew)
      obtain ⟨hvalid', hnone'⟩ := reads_eq_zero_step h hvalid hnone (Ne.symm hne)
      exact ⟨fun hstep => absurd hstep (by simp [hvalid']),
        ih (h.step e) (.inr ⟨hnone', hvalid', hrest⟩) hevents.2.2⟩

/-- A channel that keeps its one read is not registered again, and a read it dropped is not missed. -/
theorem undisturbed_of_meets {c : RedisChannel} (h : c.Listens) (hone : c.OneRead)
    (hle : c.reads ≤ 1) {events : List RedisEvent}
    (hmeets : Run.Meets step (fun c e => (c.step e).OneRead) c events) :
    c.Undisturbed events := by
  induction events generalizing c with
  | nil => trivial
  | cons e events ih =>
    obtain ⟨hone', hrest⟩ := hmeets
    have hregister : e = .register → c.isValid = false := by
      rintro rfl
      refine Bool.of_not_eq_true fun hvalid => ?_
      have hreads := reads_register hvalid
      rw [hone hvalid, hone' hvalid] at hreads
      cases hreads
    by_cases hdrops : c.Drops e
    · have hnone : (c.step e).reads = 0 := by
        have := reads_of_drops hdrops
        omega
      refine ⟨hregister, fun _ hrenew => ?_, ih (h.step e) hone' (by omega) hrest⟩
      exact not_oneRead_of_renew (h.step e) (isValid_step_of_drops hdrops) hnone hrenew hrest
    · have hsame := reads_of_not_drops h hdrops hregister
      exact ⟨hregister, fun h => absurd h hdrops, ih (h.step e) hone' (by omega) hrest⟩

/-- Whatever happens to a channel with a registered callback and one read, it has exactly one read
    as long as the connection is valid, exactly if no callback is registered on a valid connection
    and the connection is not renewed after a command was dropped. -/
theorem one_read_iff (start : RedisChannel) (hlistens : start.Listens) (hone : start.reads = 1)
    (events : List RedisEvent) :
    Run.Meets step (fun c e => (c.step e).OneRead) start events ↔ start.Undisturbed events :=
  ⟨undisturbed_of_meets hlistens (fun _ => hone) (Nat.le_of_eq hone),
    meets_of_undisturbed hlistens (.inl hone)⟩

/-- The connection is lost and renewed while the error is handled, so that the handler queues the
    next read. -/
theorem one_read_renewed :
    Run.Meets step (fun c e => (c.step e).OneRead) { callback := true, commands := 1 }
      [.execute, .lose, .reply .error, .renew, .handled] := by
  refine (one_read_iff _ ⟨rfl, rfl⟩ rfl _).mpr ?_
  simp [Undisturbed, Drops, step, asyncCb]

/-- A callback that is registered again on the same connection starts a second read, and none is
    left if the error is handled before the connection is renewed. -/
theorem two_reads : (([.register, .execute, .register].foldl step {}).commands = 1 ∧
      ([.register, .execute, .register].foldl step {}).outstanding = 1) ∧
      ([.register, .execute, .lose, .reply .error, .handled, .renew].foldl step {}).reads = 0 := by
  decide

end Urb.RedisChannel
