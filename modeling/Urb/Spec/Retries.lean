import Mathlib
import Urb.ForStd.Run
import Urb.Native.RetryManager

/-!
# Retries that are neither lost nor duplicated

Every call of `retry` makes one message, and every message that was made is in one place: it is to
be written, it waits in the retry channel or in the list of a pass of `manage` that has removed it,
it was delivered again, or it was given up. A pass reads its range and removes it in two commands. A
message that is written in between and has a score within the range is removed without having been
read. Its score is the second of a time at least one second after the clock that `retry` has read;
so this happens only if the command of `retry` is executed in that second or later.

## Key results

- `RetryState.retries_exactly_once`: with commands that are executed in time, each call within the
  limit leads to exactly one delivery
- `RetryState.retry_lost`: a message that is removed without having been read
-/

namespace Urb

open List (mem_map mem_filter mem_append mem_singleton not_mem_nil mem_map_of_mem)

local instance atLeastTwo_two : Nat.AtLeastTwo 2 := ⟨le_rfl⟩

variable {now : ℚ≥0} {r : Nat}

variable {β : Type} {call : RetryCall β} {c : Copy β} {m : Message β}
    {delivered : List (Delivered β)}

namespace Message

/-- `retry_count` of a message, 0 if it is missing. -/
def count (m : Message β) : Nat := m.retryCount.getD 0

/-- The time for which a message is scheduled. -/
def dueAt (m : Message β) : ℚ≥0 := m.retryTimestamp.getD 0

end Message

/-! ## The fields of a message -/

namespace RetryManager

variable {manager : RetryManager}

/-- The message was written by `retry` at the time `now`. -/
def Wrote (manager : RetryManager) (now : ℚ≥0) (m : Message β) : Prop :=
  ∃ k, m.retryCount = some (k + 1) ∧
    m.retryInterval = some (manager.initialRetryInterval * 2 ^ k) ∧
    m.retryTimestamp = some (now + manager.initialRetryInterval * 2 ^ k)

/-- The retry fields are missing, or they were written by `retry`. -/
def Valid (manager : RetryManager) (m : Message β) : Prop :=
  (m.retryCount = none ∧ m.retryInterval = none) ∨ ∃ now, manager.Wrote now m

theorem retry_wrote (h : manager.Valid m) (now : ℚ≥0) (body : β) :
    manager.Wrote now (manager.retry now { m with body }) := by
  rcases h with ⟨hcount, hinterval⟩ | ⟨_, k, hcount, hinterval, -⟩
  · refine ⟨0, ?_⟩
    simp [retry, hcount, hinterval]
  · -- the interval is doubled
    have hpow : manager.initialRetryInterval * 2 ^ k * 2 =
        manager.initialRetryInterval * 2 ^ (k + 1) := by ring
    refine ⟨k + 1, ?_⟩
    simp [retry, hcount, hinterval, hpow]

theorem Wrote.count_pos (h : manager.Wrote now m) : 0 < m.count := by
  obtain ⟨k, hcount, -⟩ := h
  simp [Message.count, hcount]

theorem Wrote.isSome (h : manager.Wrote now m) : m.retryCount.isSome = true := by
  obtain ⟨k, hcount, -⟩ := h
  simp [hcount]

end RetryManager

/-! ## Where the messages are -/

namespace RetryState

/-- The messages that the current pass has taken out of the retry channel and not written yet. -/
def pending (s : RetryState β) : List (Copy β) :=
  match s.pc with
  | .writing _ messageList => messageList
  | _ => []

/-- The messages that were written to the retry channel and are to be delivered again. -/
def scheduled (s : RetryState β) : List (Copy β) := s.retryChannel.map Prod.snd ++ s.pending

/-- All messages that are to be delivered again. -/
def waiting (s : RetryState β) : List (Copy β) := s.prepared ++ s.scheduled

/-- The messages that `manage` has written to the main channel. -/
def redelivered (s : RetryState β) : List (Copy β) :=
  (s.delivered.map Delivered.copy).filter fun c => c.message.retryCount.isSome

/-- What the current pass knows about the retry channel. -/
def PassSound (s : RetryState β) : Prop :=
  match s.pc with
  | .idle => True
  | .clockRead now => now ≤ s.clock
  | .rangeRead now messageList =>
    now ≤ s.clock ∧ messageList.Perm (Redis.zrangebyscore s.retryChannel ⌊now⌋₊)
  | .writing now messageList =>
    now ≤ s.clock ∧ (∀ c ∈ messageList, ⌊c.message.dueAt⌋₊ ≤ ⌊now⌋₊) ∧
      ∀ e ∈ s.retryChannel, ⌊now⌋₊ < e.1

/-- Every message that `retry` wrote is in one place, and it is there in time. -/
structure Sound (manager : RetryManager) (s : RetryState β) : Prop where
  conserved : (s.calls.map RetryCall.copy).Perm (s.waiting ++ (s.redelivered ++ s.exceeded))
  distinct : (s.calls.map fun c => c.copy.message).Nodup
  wrote : ∀ c ∈ s.calls, manager.Wrote c.now c.copy.message
  valid : ∀ d ∈ s.delivered, manager.Valid d.message
  scores : ∀ e ∈ s.retryChannel, e.1 = ⌊e.2.message.dueAt⌋₊
  passes_le : ∀ now ∈ s.passes, now ≤ s.clock
  passed : ∀ c ∈ s.scheduled, ∀ now ∈ s.passes, ⌊now⌋₊ < ⌊c.message.dueAt⌋₊
  pass : s.PassSound
  in_time : ∀ d ∈ s.delivered, d.copy ∈ s.redelivered → d.copy.message.dueAt < d.time + 1
  redelivered_le : ∀ c ∈ s.redelivered, c.message.count ≤ manager.maxRetryCount
  exceeded_gt : ∀ c ∈ s.exceeded, manager.maxRetryCount < c.message.count

variable {manager : RetryManager} {s : RetryState β}

theorem Sound.waiting_wrote (h : s.Sound manager) (hc : c ∈ s.waiting) :
    ∃ now, manager.Wrote now c.message := by
  have hmem : c ∈ s.calls.map RetryCall.copy :=
    h.conserved.mem_iff.mpr (List.mem_append_left _ hc)
  obtain ⟨call, hcall, rfl⟩ := mem_map.mp hmem
  exact ⟨call.now, h.wrote call hcall⟩

theorem PassSound.mono_clock (h : s.PassSound) (d : ℚ≥0) :
    ({ s with clock := s.clock + d } : RetryState β).PassSound := by
  have hle : s.clock ≤ s.clock + d := le_add_of_nonneg_right zero_le
  unfold PassSound at h ⊢
  cases hpc : s.pc with
  | idle => trivial
  | clockRead now =>
    simp only [hpc] at h ⊢
    exact h.trans hle
  | rangeRead now messageList =>
    simp only [hpc] at h ⊢
    exact ⟨h.1.trans hle, h.2⟩
  | writing now messageList =>
    simp only [hpc] at h ⊢
    exact ⟨h.1.trans hle, h.2⟩

theorem tick_sound (h : s.Sound manager) (d : ℚ≥0) :
    ({ s with clock := s.clock + d } : RetryState β).Sound manager :=
  { h with
    passes_le := fun now hnow =>
      (h.passes_le now hnow).trans (le_add_of_nonneg_right zero_le)
    pass := h.pass.mono_clock d }

theorem request_sound (h : s.Sound manager) (r : Nat) (body : β) :
    (s.deliver { request := r, message := { body } }).Sound manager := by
  have hredelivered : (s.deliver { request := r, message := { body } }).redelivered =
      s.redelivered := by
    simp [redelivered, deliver]
  refine ⟨?_, h.distinct, h.wrote, ?_, h.scores, h.passes_le, h.passed, h.pass, ?_, ?_,
    h.exceeded_gt⟩
  · rw [hredelivered]
    exact h.conserved
  · intro d hd
    rcases mem_append.mp hd with hd | hd
    · exact h.valid d hd
    · rw [mem_singleton.mp hd]
      exact .inl ⟨rfl, rfl⟩
  · rw [hredelivered]
    intro d hd hmem
    rcases mem_append.mp hd with hd | hd
    · exact h.in_time d hd hmem
    · -- the new request has no retry fields
      rw [mem_singleton.mp hd] at hmem
      exact absurd (mem_filter.mp hmem).2 Bool.false_ne_true
  · rw [hredelivered]
    exact h.redelivered_le

/-! ## A pass of `manage` -/

theorem clockRead_sound (h : s.Sound manager) (hpc : s.pc = .idle) :
    ({ s with pc := .clockRead s.clock } : RetryState β).Sound manager := by
  have hscheduled : ({ s with pc := .clockRead s.clock } : RetryState β).scheduled =
      s.scheduled := by
    simp only [scheduled, pending, hpc]
  have hconserved := h.conserved
  simp only [waiting, ← hscheduled] at hconserved
  exact { h with
    conserved := hconserved
    passed := hscheduled ▸ h.passed
    pass := le_refl s.clock }

theorem rangeRead_sound (h : s.Sound manager) (hpc : s.pc = .clockRead now) : ({ s with
        pc := .rangeRead now (Redis.zrangebyscore s.retryChannel ⌊now⌋₊) } :
      RetryState β).Sound manager := by
  have hscheduled : ({ s with
      pc := .rangeRead now (Redis.zrangebyscore s.retryChannel ⌊now⌋₊) } :
      RetryState β).scheduled = s.scheduled := by
    simp only [scheduled, pending, hpc]
  have hnow : now ≤ s.clock := by
    have hpass := h.pass
    simpa only [PassSound, hpc] using hpass
  have hconserved := h.conserved
  simp only [waiting, ← hscheduled] at hconserved
  exact { h with
    conserved := hconserved
    passed := hscheduled ▸ h.passed
    pass := ⟨hnow, List.Perm.refl _⟩ }

theorem rangeRemoved_sound (h : s.Sound manager) {messageList : List (Copy β)}
    (hpc : s.pc = .rangeRead now messageList) :
    ({ s with
        retryChannel := Redis.zremrangebyscore s.retryChannel ⌊now⌋₊
        pc := .writing now messageList } : RetryState β).Sound manager := by
  obtain ⟨hnow, hrange⟩ : now ≤ s.clock ∧
      messageList.Perm (Redis.zrangebyscore s.retryChannel ⌊now⌋₊) := by
    have hpass := h.pass
    simpa only [PassSound, hpc] using hpass
  have hscheduled : ({ s with
      retryChannel := Redis.zremrangebyscore s.retryChannel ⌊now⌋₊
      pc := .writing now messageList } : RetryState β).scheduled.Perm s.scheduled := by
    simp only [scheduled, pending, hpc, List.append_nil]
    exact (hrange.append_left _).trans (Redis.zremrangebyscore_perm _ _)
  refine ⟨?_, h.distinct, h.wrote, h.valid, ?_, h.passes_le, ?_, ⟨hnow, ?_, ?_⟩, h.in_time,
    h.redelivered_le, h.exceeded_gt⟩
  · exact h.conserved.trans ((hscheduled.symm.append_left _).append_right _)
  · intro e he
    exact h.scores e (mem_filter.mp he).1
  · intro c hc
    exact h.passed c (hscheduled.mem_iff.mp hc)
  · intro c hc
    obtain ⟨e, he, rfl⟩ := mem_map.mp (hrange.mem_iff.mp hc)
    obtain ⟨hmem, hle⟩ := mem_filter.mp he
    rw [← h.scores e hmem]
    exact of_decide_eq_true hle
  · intro e he
    exact Nat.lt_of_not_le (of_decide_eq_true (mem_filter.mp he).2)

section Writing

variable {now : ℚ≥0} {c : Copy β} {messageList : List (Copy β)}

theorem mem_waiting_of_pc (hpc : s.pc = .writing now (c :: messageList)) : c ∈ s.waiting := by
  simp only [waiting, scheduled, pending, hpc]
  exact List.mem_append_right _ (List.mem_append_right _ List.mem_cons_self)

theorem Sound.writing_pass (h : s.Sound manager) (hpc : s.pc = .writing now messageList) :
    now ≤ s.clock ∧ (∀ c ∈ messageList, ⌊c.message.dueAt⌋₊ ≤ ⌊now⌋₊) ∧
      ∀ e ∈ s.retryChannel, ⌊now⌋₊ < e.1 := by
  have hpass := h.pass
  simpa only [PassSound, hpc] using hpass

theorem exceeded_sound [DecidableEq β] (h : s.Sound manager)
    (hpc : s.pc = .writing now (c :: messageList))
    (hcount : manager.maxRetryCount < c.message.count) :
    ({ s with pc := .writing now messageList, exceeded := c :: s.exceeded } :
      RetryState β).Sound manager := by
  obtain ⟨hnow, hdue, hscores⟩ := h.writing_pass hpc
  refine ⟨?_, h.distinct, h.wrote, h.valid, h.scores, h.passes_le, ?_,
    ⟨hnow, fun c' hc' => hdue c' (List.mem_cons_of_mem _ hc'), hscores⟩, h.in_time,
    h.redelivered_le, ?_⟩
  · apply h.conserved.trans
    rw [List.perm_iff_count]
    intro x
    simp only [waiting, scheduled, pending, hpc, redelivered, List.count_append, List.count_cons]
    omega
  · intro c' hc'
    apply h.passed c'
    simp only [scheduled, pending, hpc, mem_append, List.mem_cons] at hc' ⊢
    exact hc'.imp_right .inr
  · intro c' hc'
    rcases List.mem_cons.mp hc' with rfl | hc'
    · exact hcount
    · exact h.exceeded_gt c' hc'

theorem delivered_sound [DecidableEq β] (h : s.Sound manager)
    (hpc : s.pc = .writing now (c :: messageList))
    (hcount : c.message.count ≤ manager.maxRetryCount) :
    ({ s.deliver c with pc := .writing now messageList } : RetryState β).Sound manager := by
  obtain ⟨hnow, hdue, hscores⟩ := h.writing_pass hpc
  have hwaiting : c ∈ s.waiting := mem_waiting_of_pc hpc
  obtain ⟨at', hwrote⟩ := h.waiting_wrote hwaiting
  have hredelivered : ({ s.deliver c with pc := .writing now messageList } :
      RetryState β).redelivered = s.redelivered ++ [c] := by
    simp [redelivered, deliver, hwrote.isSome]
  have hearly : c.message.dueAt < s.clock + 1 := by
    have hfloor : (⌊c.message.dueAt⌋₊ : ℚ≥0) ≤ ⌊now⌋₊ :=
      Nat.cast_le.mpr (hdue c List.mem_cons_self)
    calc c.message.dueAt < ⌊c.message.dueAt⌋₊ + 1 := Nat.lt_floor_add_one _
      _ ≤ ⌊now⌋₊ + 1 := add_le_add_left hfloor 1
      _ ≤ now + 1 := add_le_add_left (Nat.floor_le zero_le) 1
      _ ≤ s.clock + 1 := add_le_add_left hnow 1
  refine ⟨?_, h.distinct, h.wrote, ?_, h.scores, h.passes_le, ?_,
    ⟨hnow, fun c' hc' => hdue c' (List.mem_cons_of_mem _ hc'), hscores⟩, ?_, ?_, h.exceeded_gt⟩
  · rw [hredelivered]
    apply h.conserved.trans
    rw [List.perm_iff_count]
    intro x
    simp only [waiting, scheduled, pending, hpc, deliver, List.count_append, List.count_cons,
      List.count_nil]
    omega
  · intro d hd
    rcases mem_append.mp hd with hd | hd
    · exact h.valid d hd
    · rw [mem_singleton.mp hd]
      exact .inr ⟨at', hwrote⟩
  · intro c' hc'
    apply h.passed c'
    simp only [scheduled, pending, hpc, deliver, mem_append, List.mem_cons] at hc' ⊢
    exact hc'.imp_right .inr
  · intro d hd hmem
    rcases mem_append.mp hd with hd' | hd'
    · apply h.in_time d hd'
      -- it carries its retry fields, so it was delivered again
      rw [hredelivered] at hmem
      apply mem_filter.mpr
      refine ⟨mem_map_of_mem hd', ?_⟩
      rcases mem_append.mp hmem with hmem | hmem
      · exact (mem_filter.mp hmem).2
      · rw [mem_singleton.mp hmem]
        exact hwrote.isSome
    · rw [mem_singleton.mp hd']
      exact hearly
  · rw [hredelivered]
    intro c' hc'
    rcases mem_append.mp hc' with hc' | hc'
    · exact h.redelivered_le c' hc'
    · rw [mem_singleton.mp hc']
      exact hcount

theorem passed_sound (h : s.Sound manager) (hpc : s.pc = .writing now []) :
    ({ s with pc := .idle, passes := now :: s.passes } : RetryState β).Sound manager := by
  obtain ⟨hnow, -, hscores⟩ := h.writing_pass hpc
  have hscheduled : ({ s with pc := .idle, passes := now :: s.passes } : RetryState β).scheduled =
      s.scheduled := by
    simp only [scheduled, pending, hpc]
  have hconserved := h.conserved
  simp only [waiting, ← hscheduled] at hconserved
  refine ⟨hconserved, h.distinct, h.wrote, h.valid, h.scores, ?_, ?_, trivial,
    h.in_time, h.redelivered_le, h.exceeded_gt⟩
  · intro t ht
    rcases List.mem_cons.mp ht with rfl | ht
    · exact hnow
    · exact h.passes_le t ht
  · rw [hscheduled]
    intro c hc t ht
    rcases List.mem_cons.mp ht with rfl | ht
    · -- the range was removed, and what is left or was added since is above it
      simp only [scheduled, pending, hpc, List.append_nil] at hc
      obtain ⟨e, he, rfl⟩ := mem_map.mp hc
      rw [← h.scores e he]
      exact hscores e he
    · exact h.passed c hc t ht

end Writing

theorem manage_sound [DecidableEq β] (h : s.Sound manager) : (s.manage manager).Sound manager := by
  cases hpc : s.pc with
  | idle =>
    simp only [manage, hpc]
    exact clockRead_sound h hpc
  | clockRead now =>
    simp only [manage, hpc]
    exact rangeRead_sound h hpc
  | rangeRead now messageList =>
    simp only [manage, hpc]
    exact rangeRemoved_sound h hpc
  | writing now messageList =>
    cases messageList with
    | nil =>
      simp only [manage, hpc]
      exact passed_sound h hpc
    | cons c messageList =>
      simp only [manage, hpc]
      split
      · rename_i hcount
        exact exceeded_sound h hpc hcount
      · rename_i hcount
        exact delivered_sound h hpc (Nat.le_of_not_lt hcount)

/-! ## A call of `retry` -/

theorem map_set_copy {i : Nat} {d d' : Delivered β}
    (hd : delivered[i]? = some d) (hcopy : d'.copy = d.copy) :
    (delivered.set i d').map Delivered.copy = delivered.map Delivered.copy := by
  obtain ⟨hi, rfl⟩ := List.getElem?_eq_some_iff.mp hd
  rw [List.map_set, hcopy, ← List.getElem_map Delivered.copy (h := by simpa using hi),
    List.set_getElem_self]

/-- The message that a call of `retry` makes. -/
def written (manager : RetryManager) (s : RetryState β) (body : β) (d : Delivered β) : Copy β :=
  { request := d.copy.request, message := manager.retry s.clock { d.message with body } }

/-- The serialised message that the call makes is not one that an earlier call has made. -/
def Distinct (manager : RetryManager) (s : RetryState β) : RetryEvent β → Prop
  | .retry i body => ∀ d, s.delivered[i]? = some d →
    (s.written manager body d).message ∉ s.calls.map fun c => c.copy.message
  | _ => True

/-- The times of the passes that have read their range. -/
def rangesRead (s : RetryState β) : List ℚ≥0 :=
  match s.pc with
  | .idle | .clockRead _ => s.passes
  | .rangeRead now _ | .writing now _ => now :: s.passes

/-- A message is written before a pass that has read the clock in the second of its score or later
    reads its range. -/
def Timely (s : RetryState β) : RetryEvent β → Prop
  | .write j => ∀ c, s.prepared[j]? = some c → ∀ now ∈ s.rangesRead,
    ⌊now⌋₊ < ⌊c.message.dueAt⌋₊
  | _ => True

section Retry

variable {i : Nat} {body : β} {d : Delivered β}

theorem Sound.written_wrote (h : s.Sound manager) (hd : s.delivered[i]? = some d) :
    manager.Wrote s.clock (s.written manager body d).message :=
  RetryManager.retry_wrote (h.valid d (List.mem_of_getElem? hd)) s.clock body

theorem retry_waiting_perm :
    (s.retry manager i body d).waiting.Perm (s.written manager body d :: s.waiting) := by
  show (s.prepared ++ [s.written manager body d] ++ s.scheduled).Perm _
  rw [List.append_assoc]
  exact List.perm_middle

theorem retry_copies (hd : s.delivered[i]? = some d) :
    (s.retry manager i body d).delivered.map Delivered.copy = s.delivered.map Delivered.copy := by
  apply map_set_copy hd
  rfl

theorem retry_redelivered (hd : s.delivered[i]? = some d) :
    (s.retry manager i body d).redelivered = s.redelivered := by
  rw [redelivered, retry_copies hd, redelivered]

theorem retry_sound (h : s.Sound manager) (hd : s.delivered[i]? = some d)
    (hnew : s.Distinct manager (.retry i body)) : (s.retry manager i body d).Sound manager := by
  have hwrote : manager.Wrote s.clock (s.written manager body d).message := h.written_wrote hd
  have hwaiting : (s.retry manager i body d).waiting.Perm (s.written manager body d :: s.waiting) :=
    retry_waiting_perm
  have hredelivered : (s.retry manager i body d).redelivered = s.redelivered :=
    retry_redelivered hd
  refine ⟨?_, ?_, ?_, ?_, h.scores, h.passes_le, h.passed, h.pass, ?_,
    hredelivered ▸ h.redelivered_le, h.exceeded_gt⟩
  · show (List.map _ (s.calls ++ [_])).Perm _
    rw [List.map_append, hredelivered]
    apply List.perm_append_comm.trans
    exact (h.conserved.cons _).trans (hwaiting.symm.append_right _)
  · show (List.map _ (s.calls ++ [_])).Nodup
    rw [List.map_append, List.nodup_append]
    refine ⟨h.distinct, List.nodup_singleton _, ?_⟩
    intro m hm m' hm' heq
    rw [heq, mem_singleton.mp hm'] at hm
    exact hnew d hd hm
  · intro c hc
    rcases mem_append.mp hc with hc | hc
    · exact h.wrote c hc
    · rw [mem_singleton.mp hc]
      exact hwrote
  · intro d' hd'
    rcases List.mem_or_eq_of_mem_set hd' with hd' | rfl
    · exact h.valid d' hd'
    · exact .inr ⟨s.clock, hwrote⟩
  · rw [hredelivered]
    intro d' hd' hmem
    rcases List.mem_or_eq_of_mem_set hd' with hd' | rfl
    · exact h.in_time d' hd' hmem
    · exact h.in_time d (List.mem_of_getElem? hd) hmem

end Retry

/-! ## The command of a call -/

section Write

variable {j : Nat}

/-- The message is not in the retry channel yet. -/
theorem Sound.prepared_new (h : s.Sound manager) (hc : c ∈ s.prepared) :
    ∀ e ∈ s.retryChannel, e.2.message ≠ c.message := by
  intro e he heq
  have hperm := h.conserved.map Copy.message
  rw [List.map_map] at hperm
  have hnodup := hperm.nodup h.distinct
  rw [waiting, List.append_assoc, List.map_append, List.nodup_append] at hnodup
  refine hnodup.2.2 c.message (mem_map_of_mem hc) e.2.message (mem_map_of_mem ?_) heq.symm
  exact List.mem_append_left _ (List.mem_append_left _ (mem_map_of_mem he))

theorem passes_subset_rangesRead (s : RetryState β) : s.passes ⊆ s.rangesRead := by
  unfold rangesRead
  split
  · exact List.Subset.refl _
  · exact List.Subset.refl _
  · exact List.subset_cons_self _ _
  · exact List.subset_cons_self _ _

variable [DecidableEq β]

theorem write_waiting_perm (h : s.Sound manager) (hc : s.prepared[j]? = some c) :
    (s.write j c).waiting.Perm s.waiting := by
  obtain ⟨hj, rfl⟩ := List.getElem?_eq_some_iff.mp hc
  have hadd := (Redis.zadd_perm (h.prepared_new (List.getElem_mem hj))
    ⌊s.prepared[j].message.retryTimestamp.getD 0⌋₊).map Prod.snd
  have herase := List.getElem_cons_eraseIdx_perm hj
  calc (s.write j s.prepared[j]).waiting
      _ |>.Perm (s.prepared.eraseIdx j ++ (s.prepared[j] :: s.scheduled)) :=
        (hadd.append_right s.pending).append_left _
      _ |>.Perm (s.prepared[j] :: s.prepared.eraseIdx j ++ s.scheduled) := List.perm_middle
      _ |>.Perm s.waiting := herase.append_right _

theorem write_pass (h : s.Sound manager) (hc : s.prepared[j]? = some c)
    (htimely : s.Timely (.write j)) : (s.write j c).PassSound := by
  have hpass := h.pass
  have hnew := h.prepared_new (List.mem_of_getElem? hc)
  have hlt := htimely c hc
  unfold PassSound at hpass ⊢
  have hpc' : (s.write j c).pc = s.pc := rfl
  rw [hpc']
  cases hpc : s.pc with
  | idle => trivial
  | clockRead now =>
    rw [hpc] at hpass
    exact hpass
  | rangeRead now messageList =>
    rw [hpc] at hpass
    simp only [rangesRead, hpc, List.forall_mem_cons] at hlt
    exact ⟨hpass.1, hpass.2.trans (Redis.zrangebyscore_zadd_perm hnew hlt.1).symm⟩
  | writing now messageList =>
    rw [hpc] at hpass
    simp only [rangesRead, hpc, List.forall_mem_cons] at hlt
    refine ⟨hpass.1, hpass.2.1, fun e he => ?_⟩
    rcases List.mem_cons.mp ((Redis.zadd_perm hnew _).mem_iff.mp he) with rfl | he
    · exact hlt.1
    · exact hpass.2.2 e he

theorem write_sound (h : s.Sound manager) (hc : s.prepared[j]? = some c)
    (htimely : s.Timely (.write j)) : (s.write j c).Sound manager := by
  have hnew := h.prepared_new (List.mem_of_getElem? hc)
  have hadded {e : Nat × Copy β} (he : e ∈ (s.write j c).retryChannel) :=
    List.mem_cons.mp ((Redis.zadd_perm hnew _).mem_iff.mp he)
  exact { h with
    conserved := h.conserved.trans ((write_waiting_perm h hc).symm.append_right _)
    scores := by
      intro e he
      rcases hadded he with rfl | he
      · rfl
      · exact h.scores e he
    passed := by
      intro c' hc' now hnow
      rcases mem_append.mp hc' with hc' | hc'
      · obtain ⟨e, he, rfl⟩ := mem_map.mp hc'
        rcases hadded he with rfl | he
        · exact htimely c hc now (s.passes_subset_rangesRead hnow)
        · exact h.passed e.2 (List.mem_append_left _ (mem_map_of_mem he)) now hnow
      · exact h.passed c' (List.mem_append_right _ hc') now hnow
    pass := write_pass h hc htimely }

end Write

/-- The places of the messages, kept by every step. -/
theorem step_sound [DecidableEq β] (s : RetryState β) (ev : RetryEvent β) (h : s.Sound manager)
    (hev : s.Distinct manager ev) (htimely : s.Timely ev) : (s.step manager ev).Sound manager := by
  cases ev with
  | tick d => exact tick_sound h d
  | request body => exact request_sound h _ body
  | retry i body =>
    unfold step
    dsimp only
    cases hd : s.delivered[i]? with
    | none => exact h
    | some d => exact retry_sound h hd hev
  | write j =>
    unfold step
    dsimp only
    cases hc : s.prepared[j]? with
    | none => exact h
    | some c => exact write_sound h hc htimely
  | manage => exact manage_sound h

/-! ## A request that always fails -/

/-- The calls of `retry` for a request. -/
def callsOf (s : RetryState β) (r : Nat) : List (RetryCall β) :=
  s.calls.filter fun c => c.copy.request = r

/-- The messages of a request that were written to the main channel. -/
def deliveredOf (s : RetryState β) (r : Nat) : List (Copy β) :=
  (s.delivered.map Delivered.copy).filter fun c => c.request = r

/-- The handler of the request calls `retry` at most once for each delivery. -/
def RetriedOnce (s : RetryState β) (r : Nat) : Prop :=
  ∀ d ∈ s.delivered, d.copy.request = r → d.retries ≤ 1

/-- The calls for the request write the counts 1, 2, ..., each for the delivery with the count
    before, and no count is delivered twice. -/
structure Chain (s : RetryState β) (r : Nat) : Prop where
  counts : (s.callsOf r).map (fun c => c.copy.message.count) =
    List.range' 1 (s.callsOf r).length
  source : ∀ c ∈ s.callsOf r, ∃ d ∈ s.delivered, d.copy.request = r ∧
    d.copy.message.count + 1 = c.copy.message.count ∧ d.retries = 1
  nodup : ((s.deliveredOf r).map fun c => c.message.count).Nodup

structure Chained (s : RetryState β) : Prop where
  unretried : ∀ d ∈ s.delivered, d.retries = 0 → d.message = d.copy.message
  request_lt : ∀ d ∈ s.delivered, d.copy.request < s.delivered.length
  call_lt : ∀ c ∈ s.calls, c.copy.request < s.delivered.length
  chain : ∀ r, s.RetriedOnce r → s.Chain r

theorem mem_deliveredOf :
    c ∈ s.deliveredOf r ↔ (∃ d ∈ s.delivered, d.copy = c) ∧ c.request = r := by
  rw [deliveredOf, mem_filter, mem_map, decide_eq_true_eq]

theorem mem_callsOf {c : RetryCall β} : c ∈ s.callsOf r ↔ c ∈ s.calls ∧ c.copy.request = r := by
  rw [callsOf, mem_filter, decide_eq_true_eq]

theorem Sound.exists_call (h : s.Sound manager) (hc : c ∈ s.deliveredOf r) :
    c.message.retryCount = none ∨ ∃ call ∈ s.callsOf r, call.copy = c := by
  obtain ⟨hmem, hr⟩ := mem_deliveredOf.mp hc
  cases hcount : c.message.retryCount with
  | none => exact .inl rfl
  | some k =>
    have hredelivered : c ∈ s.redelivered :=
      mem_filter.mpr ⟨mem_map.mpr hmem, by rw [hcount]; rfl⟩
    have hcall : c ∈ s.calls.map RetryCall.copy :=
      h.conserved.mem_iff.mpr (List.mem_append_right _ (List.mem_append_left _ hredelivered))
    obtain ⟨call, hcalls, rfl⟩ := mem_map.mp hcall
    exact .inr ⟨call, mem_callsOf.mpr ⟨hcalls, hr⟩, rfl⟩

theorem Chain.waiting_new (h : s.Sound manager) (hchain : s.Chain r)
    (hc : c ∈ s.waiting) (hr : c.request = r) :
    c.message.count ∉ (s.deliveredOf r).map fun c => c.message.count := by
  intro hmem
  obtain ⟨c', hc', hcount⟩ := mem_map.mp hmem
  obtain ⟨now, hwrote⟩ := h.waiting_wrote hc
  obtain ⟨hmem', hr'⟩ := mem_deliveredOf.mp hc'
  cases hfresh : c'.message.retryCount with
  | none =>
    have hzero : c'.message.count = 0 := by simp [Message.count, hfresh]
    have hpos := hwrote.count_pos
    omega
  | some k =>
    have hredelivered : c' ∈ s.redelivered :=
      mem_filter.mpr ⟨mem_map.mpr hmem', by rw [hfresh]; rfl⟩
    -- both messages were written by calls, and these have different counts
    have hperm := (h.conserved.filter fun c => c.request = r).map fun c => c.message.count
    have hcalls : (((s.calls.map RetryCall.copy).filter fun c => c.request = r).map
        fun c => c.message.count).Nodup := by
      rw [List.filter_map, List.map_map]
      have hrange := hchain.counts
      simp only [callsOf] at hrange
      simp only [Function.comp_def]
      rw [hrange]
      exact List.nodup_range'
    have hnodup := hperm.nodup hcalls
    rw [List.filter_append, List.map_append, List.nodup_append] at hnodup
    apply hnodup.2.2 c.message.count _ c'.message.count _ hcount.symm
    · exact mem_map_of_mem (mem_filter.mpr ⟨hc, decide_eq_true hr⟩)
    · apply mem_map_of_mem
      rw [mem_filter]
      exact ⟨List.mem_append_left _ hredelivered, decide_eq_true hr'⟩

theorem deliver_chained (h : s.Sound manager) (hchained : s.Chained)
    (hc : c ∈ s.waiting ∨ c.request = s.delivered.length) (hlt : c.request ≤ s.delivered.length) :
    (s.deliver c).Chained where
  unretried d hd hretries := by
    rcases mem_append.mp hd with hd | hd
    · exact hchained.unretried d hd hretries
    · rw [mem_singleton.mp hd]
  request_lt d hd := by
    simp only [deliver, List.length_append, List.length_singleton]
    rcases mem_append.mp hd with hd | hd
    · have hlt' := hchained.request_lt d hd
      omega
    · rw [mem_singleton.mp hd]
      dsimp only
      omega
  call_lt call hcall := by
    simp only [deliver, List.length_append, List.length_singleton]
    have hlt' := hchained.call_lt call hcall
    omega
  chain r honce := by
    have hchain := hchained.chain r fun d hd => honce d (List.mem_append_left _ hd)
    refine ⟨hchain.counts, ?_, ?_⟩
    · intro call hcall
      obtain ⟨d, hd, hsource⟩ := hchain.source call hcall
      exact ⟨d, List.mem_append_left _ hd, hsource⟩
    · have hdelivered : (s.deliver c).deliveredOf r =
          s.deliveredOf r ++ [c].filter fun c => c.request = r := by
        simp [deliveredOf, deliver]
      rw [hdelivered, List.map_append, List.nodup_append]
      by_cases hr : c.request = r
      · rw [List.filter_cons, if_pos (decide_eq_true hr)]
        refine ⟨hchain.nodup, List.nodup_singleton _, ?_⟩
        intro n hn n' hn' heq
        rw [heq, mem_singleton.mp hn'] at hn
        rcases hc with hc | hc
        · exact hchain.waiting_new h hc hr hn
        · -- nothing was delivered for a new request
          obtain ⟨c', hc', -⟩ := mem_map.mp hn
          obtain ⟨⟨d, hd, rfl⟩, hr'⟩ := mem_deliveredOf.mp hc'
          have hlt' := hchained.request_lt d hd
          omega
      · rw [List.filter_cons, if_neg (by simpa using hr)]
        exact ⟨hchain.nodup, List.nodup_nil, nofun⟩

section Retry

variable {i : Nat} {body : β} {d : Delivered β}

theorem mem_set_of_ne {x : Delivered β} (d' : Delivered β)
    (hd : delivered[i]? = some d) (hx : x ∈ delivered) (hne : x ≠ d) : x ∈ delivered.set i d' := by
  obtain ⟨j, hj⟩ := List.mem_iff_getElem?.mp hx
  have hij : i ≠ j := by
    rintro rfl
    rw [hd] at hj
    exact hne (Option.some.inj hj).symm
  apply List.mem_iff_getElem?.mpr
  exact ⟨j, by rw [List.getElem?_set_ne hij, hj]⟩

theorem Chain.count_eq (h : s.Sound manager) (hchain : s.Chain d.copy.request)
    (hd : d ∈ s.delivered) (hretries : d.retries = 0) :
    d.copy.message.count = (s.callsOf d.copy.request).length := by
  have hdelivered : d.copy ∈ s.deliveredOf d.copy.request := mem_deliveredOf.mpr ⟨⟨d, hd, rfl⟩, rfl⟩
  have hmem : ∀ n, n ∈ (s.callsOf d.copy.request).map (fun c => c.copy.message.count) ↔
      1 ≤ n ∧ n < 1 + (s.callsOf d.copy.request).length := by
    intro n
    rw [hchain.counts, List.mem_range'_1]
  have hle : d.copy.message.count ≤ (s.callsOf d.copy.request).length := by
    rcases h.exists_call hdelivered with hfresh | ⟨call, hcall, hcopy⟩
    · simp [Message.count, hfresh]
    · have hcount := (hmem call.copy.message.count).mp (mem_map_of_mem hcall)
      rw [hcopy] at hcount
      omega
  by_contra hne
  -- otherwise there is a call for the next count already, and it was made for this delivery
  have hnext := (hmem (d.copy.message.count + 1)).mpr (by omega)
  obtain ⟨call, hcall, hcount⟩ := mem_map.mp hnext
  obtain ⟨x, hx, hrequest, hsource, hone⟩ := hchain.source call hcall
  have hnodup := hchain.nodup
  rw [deliveredOf, List.filter_map, List.map_map] at hnodup
  have heq : x = d := by
    apply List.inj_on_of_nodup_map hnodup
    · exact mem_filter.mpr ⟨hx, decide_eq_true hrequest⟩
    · exact mem_filter.mpr ⟨hd, decide_eq_true rfl⟩
    · simp only [Function.comp_apply]
      omega
  rw [heq] at hone
  omega

theorem retry_chained (h : s.Sound manager) (hchained : s.Chained)
    (hd : s.delivered[i]? = some d) : (s.retry manager i body d).Chained where
  unretried x hx hretries := by
    rcases List.mem_or_eq_of_mem_set hx with hx | rfl
    · exact hchained.unretried x hx hretries
    · cases hretries
  request_lt x hx := by
    show x.copy.request < (List.set _ _ _).length
    rw [List.length_set]
    rcases List.mem_or_eq_of_mem_set hx with hx | rfl
    · exact hchained.request_lt x hx
    · exact hchained.request_lt d (List.mem_of_getElem? hd)
  call_lt call hcall := by
    show call.copy.request < (List.set _ _ _).length
    rw [List.length_set]
    rcases mem_append.mp hcall with hcall | hcall
    · exact hchained.call_lt call hcall
    · rw [mem_singleton.mp hcall]
      exact hchained.request_lt d (List.mem_of_getElem? hd)
  chain r honce := by
    have hdmem := List.mem_of_getElem? hd
    have hi := (List.getElem?_eq_some_iff.mp hd).1
    have hdelivered : (s.retry manager i body d).deliveredOf r = s.deliveredOf r := by
      rw [deliveredOf, retry_copies hd, deliveredOf]
    by_cases hr : d.copy.request = r
    · subst hr
      -- the delivery was not retried before
      have hretries : d.retries = 0 := by
        have hle := honce _ (List.mem_set hi _) rfl
        dsimp only at hle
        omega
      have hchain := hchained.chain d.copy.request fun x hx hrequest => by
        by_cases hxd : x = d
        · rw [hxd]
          omega
        · exact honce x (mem_set_of_ne _ hd hx hxd) hrequest
      have hcalls : (s.retry manager i body d).callsOf d.copy.request =
          s.callsOf d.copy.request ++
            [{ copy := s.written manager body d, now := s.clock }] := by
        simp [callsOf, retry, written]
      have hcount : (s.written manager body d).message.count =
          (s.callsOf d.copy.request).length + 1 := by
        rw [← hchain.count_eq h hdmem hretries, ← hchained.unretried d hdmem hretries]
        rfl
      refine ⟨?_, ?_, hdelivered ▸ hchain.nodup⟩
      · rw [hcalls, List.map_append, hchain.counts, List.length_append, List.length_singleton,
          List.range'_concat, List.map_singleton, hcount]
        simp [Nat.add_comm]
      · rw [hcalls]
        intro call hcall
        rcases mem_append.mp hcall with hcall | hcall
        · obtain ⟨x, hx, hrequest, hsource, hone⟩ := hchain.source call hcall
          have hxd : x ≠ d := by
            rintro rfl
            omega
          exact ⟨x, mem_set_of_ne _ hd hx hxd, hrequest, hsource, hone⟩
        · rw [mem_singleton.mp hcall]
          refine ⟨_, List.mem_set hi _, rfl, ?_, ?_⟩
          · rw [hcount, ← hchain.count_eq h hdmem hretries]
          · dsimp only
            omega
    · have hchain := hchained.chain r fun x hx hrequest =>
        honce x (mem_set_of_ne _ hd hx fun hxd => hr (hxd ▸ hrequest)) hrequest
      have hcalls : (s.retry manager i body d).callsOf r = s.callsOf r := by
        simp [callsOf, retry, hr]
      refine ⟨?_, ?_, hdelivered ▸ hchain.nodup⟩
      · rw [hcalls]
        exact hchain.counts
      · rw [hcalls]
        intro call hcall
        obtain ⟨x, hx, hrequest, hsource⟩ := hchain.source call hcall
        exact ⟨x, mem_set_of_ne _ hd hx fun hxd => hr (hxd ▸ hrequest), hrequest, hsource⟩

end Retry

theorem Chained.congr {s' : RetryState β} (hchained : s.Chained)
    (hdelivered : s'.delivered = s.delivered) (hcalls : s'.calls = s.calls) : s'.Chained := by
  have hcallsOf : ∀ r, s'.callsOf r = s.callsOf r := fun r => by rw [callsOf, hcalls, callsOf]
  have hdeliveredOf : ∀ r, s'.deliveredOf r = s.deliveredOf r :=
    fun r => by rw [deliveredOf, hdelivered, deliveredOf]
  refine ⟨?_, ?_, ?_, fun r honce => ?_⟩
  · rw [hdelivered]
    exact hchained.unretried
  · rw [hdelivered]
    exact hchained.request_lt
  · rw [hdelivered, hcalls]
    exact hchained.call_lt
  · rw [RetriedOnce, hdelivered] at honce
    have hchain := hchained.chain r honce
    refine ⟨?_, ?_, ?_⟩
    · rw [hcallsOf]
      exact hchain.counts
    · rw [hcallsOf, hdelivered]
      exact hchain.source
    · rw [hdeliveredOf]
      exact hchain.nodup

theorem manage_chained [DecidableEq β] (h : s.Sound manager) (hchained : s.Chained) :
    (s.manage manager).Chained := by
  cases hpc : s.pc with
  | idle =>
    simp only [manage, hpc]
    exact hchained.congr rfl rfl
  | clockRead now =>
    simp only [manage, hpc]
    exact hchained.congr rfl rfl
  | rangeRead now messageList =>
    simp only [manage, hpc]
    exact hchained.congr rfl rfl
  | writing now messageList =>
    cases messageList with
    | nil =>
      simp only [manage, hpc]
      exact hchained.congr rfl rfl
    | cons c messageList =>
      simp only [manage, hpc]
      split
      · exact hchained.congr rfl rfl
      · have hwaiting : c ∈ s.waiting := mem_waiting_of_pc hpc
        have hcall : c ∈ s.calls.map RetryCall.copy :=
          h.conserved.mem_iff.mpr (List.mem_append_left _ hwaiting)
        obtain ⟨call, hmem, rfl⟩ := mem_map.mp hcall
        have hlt := hchained.call_lt call hmem
        exact (deliver_chained h hchained (.inl hwaiting) (by omega)).congr rfl rfl

/-- The deliveries of a request that is retried once for each delivery. -/
theorem step_chained [DecidableEq β] (s : RetryState β) (ev : RetryEvent β)
    (h : s.Sound manager) (hchained : s.Chained) : (s.step manager ev).Chained := by
  cases ev with
  | tick d => exact hchained.congr rfl rfl
  | request body => exact deliver_chained h hchained (.inr rfl) (Nat.le_refl _)
  | retry i body =>
    unfold step
    dsimp only
    cases hd : s.delivered[i]? with
    | none => exact hchained
    | some d => exact retry_chained h hchained hd
  | write j =>
    unfold step
    dsimp only
    split
    · exact hchained.congr rfl rfl
    · exact hchained
  | manage => exact manage_chained h hchained

/-! ## Runs -/

/-- How often a message was written to the main channel. -/
def timesDelivered [DecidableEq β] (s : RetryState β) (m : Message β) : Nat :=
  (s.delivered.map fun d => d.copy.message).count m

theorem Sound.count_eq_one [DecidableEq β] (h : s.Sound manager) (hcall : call ∈ s.calls) :
    (s.waiting.map Copy.message).count call.copy.message + s.timesDelivered call.copy.message +
      (s.exceeded.map Copy.message).count call.copy.message = 1 := by
  have hperm := h.conserved.map Copy.message
  rw [List.map_map] at hperm
  have hone : (s.calls.map fun c => c.copy.message).count call.copy.message = 1 :=
    List.count_eq_one_of_mem h.distinct (mem_map_of_mem hcall)
  have hcount := hperm.count_eq call.copy.message
  -- a delivery with retry fields is one by `manage`
  have hredelivered : (s.redelivered.map Copy.message).count call.copy.message =
      s.timesDelivered call.copy.message := by
    have hfilter : s.redelivered.map Copy.message =
        (s.delivered.map fun d => d.copy.message).filter fun m => m.retryCount.isSome := by
      simp only [redelivered, List.filter_map, List.map_map]
      rfl
    rw [hfilter, timesDelivered]
    apply List.count_filter
    exact (h.wrote call hcall).isSome
  simp only [List.map_append, List.count_append, hredelivered] at hcount
  simp only [Function.comp_def] at hcount
  omega

/-- A message within the limit is delivered at most once, less than a second before its time at the
    earliest, and by the end of a pass that reads the clock at or after its time. -/
theorem Sound.call_within [DecidableEq β] (h : s.Sound manager)
    (hcall : call ∈ s.calls) (hcount : call.copy.message.count ≤ manager.maxRetryCount) :
    s.timesDelivered call.copy.message ≤ 1 ∧
      (call.copy.message ∉ s.prepared.map Copy.message →
        (∃ now ∈ s.passes, call.copy.message.dueAt ≤ now) →
          s.timesDelivered call.copy.message = 1) ∧
      ∀ d ∈ s.delivered, d.copy.message = call.copy.message →
        call.copy.message.dueAt < d.time + 1 := by
  have hone := h.count_eq_one hcall
  refine ⟨by omega, ?_, ?_⟩
  · intro hwritten ⟨now, hnow, hdue⟩
    have hexceeded : (s.exceeded.map Copy.message).count call.copy.message = 0 := by
      rw [List.count_eq_zero]
      intro hmem
      obtain ⟨c, hc, heq⟩ := mem_map.mp hmem
      have hgt := h.exceeded_gt c hc
      rw [heq] at hgt
      omega
    have hwaiting : (s.waiting.map Copy.message).count call.copy.message = 0 := by
      rw [List.count_eq_zero]
      intro hmem
      obtain ⟨c, hc, heq⟩ := mem_map.mp hmem
      have hscheduled : c ∈ s.scheduled := by
        refine (mem_append.mp hc).resolve_left fun hprepared => hwritten ?_
        rw [← heq]
        exact mem_map_of_mem hprepared
      have hpassed := h.passed c hscheduled now hnow
      have hfloor := Nat.floor_mono hdue
      rw [heq] at hpassed
      omega
    omega
  · intro d hd heq
    rw [← heq]
    apply h.in_time d hd
    apply mem_filter.mpr
    refine ⟨mem_map_of_mem hd, ?_⟩
    rw [heq]
    exact (h.wrote call hcall).isSome

theorem Sound.call_beyond [DecidableEq β] (h : s.Sound manager)
    (hcall : call ∈ s.calls) (hcount : manager.maxRetryCount < call.copy.message.count) :
    s.timesDelivered call.copy.message = 0 := by
  rw [timesDelivered, List.count_eq_zero]
  intro hmem
  obtain ⟨d, hd, heq⟩ := mem_map.mp hmem
  have hredelivered : d.copy ∈ s.redelivered := by
    apply mem_filter.mpr
    refine ⟨mem_map_of_mem hd, ?_⟩
    rw [heq]
    exact (h.wrote call hcall).isSome
  have hle := h.redelivered_le _ hredelivered
  rw [heq] at hle
  omega

theorem Chain.length_le (h : s.Sound manager) (hchain : s.Chain r) :
    (s.deliveredOf r).length ≤ 1 + manager.maxRetryCount := by
  have hsub : (s.deliveredOf r).map (fun c => c.message.count) ⊆
      List.range (1 + manager.maxRetryCount) := by
    intro n hn
    obtain ⟨c, hc, rfl⟩ := mem_map.mp hn
    obtain ⟨hmem, -⟩ := mem_deliveredOf.mp hc
    rw [List.mem_range]
    cases hfresh : c.message.retryCount with
    | none =>
      simp only [Message.count, hfresh, Option.getD_none]
      omega
    | some k =>
      have hle := h.redelivered_le c
        (mem_filter.mpr ⟨mem_map.mpr hmem, by rw [hfresh]; rfl⟩)
      omega
  have hlength := (hchain.nodup.subperm hsub).length_le
  simpa using hlength

theorem Chain.delay (h : s.Sound manager) (hchain : s.Chain r) {k : Nat}
    (hcall : (s.callsOf r)[k]? = some call) :
    call.copy.message.retryTimestamp =
      some (call.now + manager.initialRetryInterval * 2 ^ k) := by
  obtain ⟨k', hcount, -, hdue⟩ := h.wrote call (mem_callsOf.mp (List.mem_of_getElem? hcall)).1
  have hk : (List.range' 1 (s.callsOf r).length)[k]? = some call.copy.message.count := by
    rw [← hchain.counts, List.getElem?_map, hcall]
    rfl
  have hlt := (List.getElem?_eq_some_iff.mp hcall).1
  rw [List.getElem?_range' hlt] at hk
  simp only [Message.count, hcount, Option.getD_some, Option.some.injEq] at hk
  have hkk : k' = k := by omega
  rw [hdue, hkk]

theorem start_sound (manager : RetryManager) (clock : ℚ≥0) :
    ({ clock } : RetryState β).Sound manager where
  conserved := List.Perm.refl []
  distinct := List.nodup_nil
  wrote _ h := absurd h List.not_mem_nil
  valid _ h := absurd h List.not_mem_nil
  scores _ h := absurd h List.not_mem_nil
  passes_le _ h := absurd h List.not_mem_nil
  passed _ h := absurd h List.not_mem_nil
  pass := trivial
  in_time _ h := absurd h List.not_mem_nil
  redelivered_le _ h := absurd h List.not_mem_nil
  exceeded_gt _ h := absurd h List.not_mem_nil

theorem start_chained (clock : ℚ≥0) : ({ clock } : RetryState β).Chained where
  unretried _ h := absurd h not_mem_nil
  request_lt _ h := absurd h not_mem_nil
  call_lt _ h := absurd h not_mem_nil
  chain _ _ := ⟨rfl, fun _ h => absurd h not_mem_nil, List.nodup_nil⟩

theorem run_sound [DecidableEq β] {manager : RetryManager} {clock : ℚ≥0}
    {events : List (RetryEvent β)}
    (hevents : Run.Meets (step manager) (fun s e => s.Distinct manager e ∧ s.Timely e) { clock }
      events) :
    (events.foldl (step manager) { clock }).Sound manager ∧
      (events.foldl (step manager) { clock }).Chained := by
  have hstep : ∀ (s : RetryState β) ev, s.Sound manager ∧ s.Chained →
      s.Distinct manager ev ∧ s.Timely ev →
      (s.step manager ev).Sound manager ∧ (s.step manager ev).Chained := by
    intro s ev ⟨h, hchained⟩ ⟨hev, htimely⟩
    exact ⟨step_sound s ev h hev htimely, step_chained s ev h hchained⟩
  exact Run.invariant hstep ⟨start_sound manager clock, start_chained clock⟩ hevents

/-- In every run whose calls of `retry` make different messages, which are written in time: a call
    that leaves the count within the limit is followed by at most one delivery, and if its message
    was written by exactly one by the end of the first pass that reads the clock at or after the
    scheduled time, and less than a second before it at the earliest; a call beyond the limit is
    followed by none; and a request that is retried once for each delivery is delivered at most
    `1 + maxRetryCount` times, with delays that double. -/
theorem retries_exactly_once [DecidableEq β] (manager : RetryManager) (clock : ℚ≥0)
    (events : List (RetryEvent β))
    (hevents : Run.Meets (step manager) (fun s e => s.Distinct manager e ∧ s.Timely e) { clock }
      events) :
    let s := events.foldl (step manager) { clock }
    (∀ call ∈ s.calls, call.copy.message.count ≤ manager.maxRetryCount →
      s.timesDelivered call.copy.message ≤ 1 ∧
        (call.copy.message ∉ s.prepared.map Copy.message →
          (∃ now ∈ s.passes, call.copy.message.dueAt ≤ now) →
            s.timesDelivered call.copy.message = 1) ∧
        ∀ d ∈ s.delivered, d.copy.message = call.copy.message →
          call.copy.message.dueAt < d.time + 1) ∧
      (∀ call ∈ s.calls, manager.maxRetryCount < call.copy.message.count →
        s.timesDelivered call.copy.message = 0) ∧
      ∀ r, s.RetriedOnce r →
        (s.deliveredOf r).length ≤ 1 + manager.maxRetryCount ∧
          ∀ k call, (s.callsOf r)[k]? = some call →
            call.copy.message.retryTimestamp =
              some (call.now + manager.initialRetryInterval * 2 ^ k) := by
  intro s
  obtain ⟨h, hchained⟩ : s.Sound manager ∧ s.Chained := run_sound hevents
  refine ⟨fun call hcall => h.call_within hcall, fun call hcall => h.call_beyond hcall, ?_⟩
  intro r honce
  have hchain := hchained.chain r honce
  exact ⟨hchain.length_le h, fun k call hcall => hchain.delay h hcall⟩

/-- A request that fails twice, where one retry is allowed: each call of `retry` is followed by a
    pass at its time. -/
def failingTwice : List (RetryEvent String) :=
  [.request "a", .retry 0 "a", .write 0, .tick 1, .manage, .manage, .manage, .manage, .manage,
    .retry 1 "a", .write 0, .tick 2, .manage, .manage, .manage, .manage, .manage]

/-- It is delivered twice, and the second call of `retry` is not followed by a delivery. -/
theorem retries_exactly_once_failing :
    let s := failingTwice.foldl (step ⟨1, 1⟩) { clock := 3 / 2 }
    (s.deliveredOf 0).length = 2 ∧ (s.deliveredOf 0).length ≤ 1 + 1 ∧
      ∀ call ∈ s.calls, 1 < call.copy.message.count →
        s.timesDelivered call.copy.message = 0 := by
  have hevents : Run.Meets (step ⟨1, 1⟩) (fun s e => s.Distinct ⟨1, 1⟩ e ∧ s.Timely e)
      { clock := 3 / 2 } failingTwice := by
    refine ⟨⟨trivial, trivial⟩, ⟨fun d _ => not_mem_nil, trivial⟩, ⟨trivial, ?_⟩, ⟨trivial, trivial⟩,
      ⟨trivial, trivial⟩, ⟨trivial, trivial⟩, ⟨trivial, trivial⟩, ⟨trivial, trivial⟩,
      ⟨trivial, trivial⟩, ⟨?_, trivial⟩, ⟨trivial, ?_⟩, ⟨trivial, trivial⟩, ⟨trivial, trivial⟩,
      ⟨trivial, trivial⟩, ⟨trivial, trivial⟩, ⟨trivial, trivial⟩, ⟨trivial, trivial⟩, trivial⟩
    · intro c _ now hnow
      exact absurd hnow not_mem_nil
    · intro d hd
      revert d
      decide +kernel
    · intro c hc
      revert c
      decide +kernel
  obtain ⟨-, hbeyond, hrequest⟩ := retries_exactly_once ⟨1, 1⟩ (3 / 2) failingTwice hevents
  refine ⟨by decide +kernel, (hrequest 0 ?_).1, hbeyond⟩
  unfold RetriedOnce
  decide +kernel

/-- A message with the score 1 that is written after a pass at the time 1 has read the range, and
    before it removes the range; and another pass after the scheduled time. -/
def writtenLate : List (RetryEvent String) :=
  [.request "a", .tick (9 / 10), .retry 0 "a", .tick (1 / 10), .manage, .manage, .write 0, .manage,
    .manage, .tick 1, .manage, .manage, .manage, .manage]

/-- The message is never delivered: it is not waiting any more after the second pass. -/
theorem retry_lost :
    let s := writtenLate.foldl (step ⟨1, 5⟩) { clock := 0 }
    ∃ call ∈ s.calls, call.copy.message.count ≤ 5 ∧ s.prepared = [] ∧
      (∃ now ∈ s.passes, call.copy.message.dueAt ≤ now) ∧
      s.timesDelivered call.copy.message = 0 ∧ s.waiting = [] := by
  decide +kernel

end RetryState

end Urb
