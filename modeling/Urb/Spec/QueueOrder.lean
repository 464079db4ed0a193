import Mathlib.Data.List.Nodup
import Urb.ForStd.Run
import Urb.Native.MessageBroker

/-!
# The order of a queue survives a crash

`RPOPLPUSH` does not change the concatenation of the queue and its processing list, and
`restore_lost_messages` moves the boundary between the two back to the right end. So the
concatenation holds the messages that were pushed and are not settled, the newest one first. A
message is settled by a `message_processed` that comes when it was popped since the last restore.
A message that was restored is in the queue, where `LREM` does not look.

## Key results

- `Session.restore_in_push_order`: what is popped after a restore, for every sequence of calls.
- `Session.popped_in_push_order`: the queue is first in, first out between two restores.
-/

namespace Urb

variable {m : String}

namespace Broker

variable {β : Type}

theorem restoreLoop_eq (processing queue : List β) (i : Nat) : restoreLoop processing queue i =
      (i + processing.length, { queue := queue ++ processing, processing := [] }) := by
  induction processing generalizing queue i with
  | nil => simp only [restoreLoop, List.length_nil, Nat.add_zero, List.append_nil]
  | cons value processing ih =>
    simp only [restoreLoop, Redis.rpush, ih, List.append_assoc, List.singleton_append,
      List.length_cons, Prod.mk.injEq, and_true]
    omega

/-- What the script leaves and returns. -/
theorem restoreLostMessages_eq (b : Broker β) : b.restoreLostMessages =
      (b.processing.length, { queue := b.queue ++ b.processing, processing := [] }) := by
  rw [restoreLostMessages, restoreLoop_eq, Nat.zero_add]

/-- What the following `pop`s return. -/
theorem pops_eq (n : Nat) (b : Broker β) :
    b.pops n = (List.range n).map fun i => b.queue.reverse[i]? := by
  induction n generalizing b with
  | zero => rfl
  | succ n ih =>
    rw [List.range_succ_eq_map, List.map_cons, List.map_map, pops, ih]
    rcases Redis.rpoplpush_cases b.queue b.processing with ⟨hq, h⟩ | ⟨l, x, hq, h⟩
    · simp only [pop, h]
      simp [hq, Function.comp_def]
    · simp only [pop, h]
      simp [hq, Function.comp_def]

end Broker

/-- A broker with what its users have seen: the messages that were pushed, in this order, those
    that were popped since the last restore, those that were processed, and those of them that had
    been popped since the last restore then. -/
structure Session where
  broker : Broker String := {}
  pushed : List String := []
  popped : List String := []
  processed : List String := []
  settled : List String := []

/-- A call of a method of the broker. -/
inductive BrokerCall where
  | push (m : String)
  | pop
  | messageProcessed (m : String)
  | restoreLostMessages
  deriving DecidableEq

namespace Session

variable {s : Session}

def step (s : Session) : BrokerCall → Session
  | .push m => { s with broker := s.broker.push m, pushed := s.pushed ++ [m] }
  | .pop =>
    { s with broker := s.broker.pop.2, popped := s.popped ++ s.broker.pop.1.toList }
  | .messageProcessed m =>
    { s with
      broker := s.broker.messageProcessed id m
      processed := m :: s.processed
      settled := if m ∈ s.popped then m :: s.settled else s.settled }
  | .restoreLostMessages =>
    { s with broker := s.broker.restoreLostMessages.2, popped := [] }

/-- The messages that were pushed and not processed yet, in the order in which they were pushed. -/
def unprocessed (s : Session) : List String := s.pushed.filter fun m => m ∉ s.processed

/-- The messages that were pushed and are not settled, in the order in which they were pushed. -/
def unsettled (s : Session) : List String := s.pushed.filter fun m => m ∉ s.settled

/-- A message is pushed once. Anything may be processed at any time. -/
def Admits (s : Session) : BrokerCall → Prop
  | .push m => m ∉ s.pushed
  | _ => True

/-- The two lists hold the unsettled messages, newest first, the queue those of them that were not
    popped and the processing list those that were. -/
structure Ordered (s : Session) : Prop where
  contents : s.broker.queue ++ s.broker.processing = s.unsettled.reverse
  nodup : s.pushed.Nodup
  popped_pushed : ∀ m ∈ s.popped, m ∈ s.pushed
  settled_pushed : ∀ m ∈ s.settled, m ∈ s.pushed
  not_queued : ∀ m ∈ s.popped, m ∉ s.broker.queue
  processing_popped : ∀ m ∈ s.broker.processing, m ∈ s.popped

theorem Ordered.queue_pushed (h : s.Ordered) (hm : m ∈ s.broker.queue) : m ∈ s.pushed := by
  have hmem : m ∈ s.unsettled.reverse := h.contents ▸ List.mem_append_left _ hm
  exact (List.mem_filter.mp (List.mem_reverse.mp hmem)).1

theorem push_ordered (h : s.Ordered) (hm : m ∉ s.pushed) : (s.step (.push m)).Ordered where
  contents := by
    have hnew : m ∉ s.settled := fun hp => hm (h.settled_pushed m hp)
    have hunsettled : (s.step (.push m)).unsettled = s.unsettled ++ [m] := by
      show (s.pushed ++ [m]).filter (fun x => x ∉ s.settled) = _
      rw [List.filter_append, List.filter_cons, if_pos (decide_eq_true hnew)]
      rfl
    rw [hunsettled, List.reverse_append, ← h.contents]
    rfl
  nodup := by
    show (s.pushed ++ [m]).Nodup
    rw [List.nodup_append]
    refine ⟨h.nodup, List.nodup_singleton m, fun a ha b hb hab => hm ?_⟩
    rw [← List.mem_singleton.mp hb, ← hab]
    exact ha
  popped_pushed x hx := List.mem_append_left _ (h.popped_pushed x hx)
  settled_pushed x hx := List.mem_append_left _ (h.settled_pushed x hx)
  not_queued x hx hq := by
    rcases List.mem_cons.mp hq with rfl | hq
    · exact hm (h.popped_pushed x hx)
    · exact h.not_queued x hx hq
  processing_popped := h.processing_popped

theorem pop_ordered (h : s.Ordered) : (s.step .pop).Ordered := by
  have hcontents : s.broker.pop.2.queue ++ s.broker.pop.2.processing = s.unsettled.reverse :=
    (Redis.rpoplpush_append _ _).trans h.contents
  rcases Redis.rpoplpush_cases s.broker.queue s.broker.processing with ⟨hq, hr⟩ | ⟨l, x, hq, hr⟩
  · -- nothing to pop
    have hpopped : s.popped ++ s.broker.pop.1.toList = s.popped := by simp [Broker.pop, hr]
    refine ⟨hcontents, h.nodup, ?_, h.settled_pushed, ?_, ?_⟩
    · simpa only [step, hpopped] using h.popped_pushed
    · simp [step, Broker.pop, hr]
    · simpa [step, Broker.pop, hr] using h.processing_popped
  · have hpopped : s.popped ++ s.broker.pop.1.toList = s.popped ++ [x] := by
      simp [Broker.pop, hr]
    have hqueue : s.broker.pop.2.queue = l := by simp [Broker.pop, hr]
    have hprocessing : s.broker.pop.2.processing = x :: s.broker.processing := by
      simp [Broker.pop, hr]
    have hx : x ∈ s.broker.queue := by simp [hq]
    -- the queue has no message twice, so `x` is not in its rest
    have hnodup : s.broker.queue.Nodup := by
      have hall : (s.broker.queue ++ s.broker.processing).Nodup := by
        rw [h.contents, List.nodup_reverse]
        exact h.nodup.filter _
      exact (List.nodup_append.mp hall).1
    have hxl : x ∉ l := by
      rw [hq, List.nodup_append] at hnodup
      exact fun hmem => hnodup.2.2 x hmem x (List.mem_singleton_self x) rfl
    refine ⟨hcontents, h.nodup, ?_, h.settled_pushed, ?_, ?_⟩
    · intro m hm
      simp only [step, hpopped, List.mem_append, List.mem_singleton] at hm
      rcases hm with hm | rfl
      · exact h.popped_pushed m hm
      · exact h.queue_pushed hx
    · intro m hm
      simp only [step, hpopped, List.mem_append, List.mem_singleton] at hm
      simp only [step, hqueue]
      rcases hm with hm | rfl
      · intro hml
        exact h.not_queued m hm (by rw [hq]; exact List.mem_append_left _ hml)
      · exact hxl
    · intro m hm
      simp only [step, hprocessing, List.mem_cons] at hm
      simp only [step, hpopped, List.mem_append, List.mem_singleton]
      rcases hm with rfl | hm
      · exact .inr rfl
      · exact .inl (h.processing_popped m hm)

/-- A message that was popped since the last restore is not in the queue, so that removing it from
    the processing list removes it. -/
theorem messageProcessed_ordered_of_popped (h : s.Ordered) (hm : m ∈ s.popped) :
    (s.step (.messageProcessed m)).Ordered where
  contents := by
    have hqueue : s.broker.queue.filter (fun x => x ≠ m) = s.broker.queue := by
      rw [List.filter_eq_self]
      intro x hx
      rw [decide_eq_true_eq]
      rintro rfl
      exact h.not_queued x hm hx
    have hunsettled : (s.step (.messageProcessed m)).unsettled =
        s.unsettled.filter fun x => x ≠ m := by
      simp only [unsettled, step, if_pos hm, List.filter_filter, List.mem_cons, not_or]
      congr 1
      funext x
      simp
    rw [hunsettled, ← List.filter_reverse, ← h.contents, List.filter_append, hqueue]
    rfl
  nodup := h.nodup
  popped_pushed := h.popped_pushed
  settled_pushed x hx := by
    simp only [step, if_pos hm, List.mem_cons] at hx
    rcases hx with rfl | hx
    · exact h.popped_pushed x hm
    · exact h.settled_pushed x hx
  not_queued := h.not_queued
  processing_popped x hx := h.processing_popped x (List.mem_filter.mp hx).1

/-- `LREM` does not find any other message. -/
theorem messageProcessed_ordered_of_not_popped (h : s.Ordered) (hm : m ∉ s.popped) :
    (s.step (.messageProcessed m)).Ordered := by
  have hprocessing : (s.broker.messageProcessed id m) = s.broker := by
    have hfilter : s.broker.processing.filter (fun x => x ≠ m) = s.broker.processing := by
      rw [List.filter_eq_self]
      intro x hx
      rw [decide_eq_true_eq]
      rintro rfl
      exact hm (h.processing_popped x hx)
    exact congrArg (fun l => { s.broker with processing := l }) hfilter
  simp only [step, hprocessing, if_neg hm]
  exact ⟨h.contents, h.nodup, h.popped_pushed, h.settled_pushed, h.not_queued, h.processing_popped⟩

theorem restore_ordered (h : s.Ordered) : (s.step .restoreLostMessages).Ordered where
  contents := by
    simp only [step, Broker.restoreLostMessages_eq, List.append_nil]
    exact h.contents
  nodup := h.nodup
  popped_pushed := nofun
  settled_pushed := h.settled_pushed
  not_queued := nofun
  processing_popped := by
    simp only [step, Broker.restoreLostMessages_eq]
    exact nofun

theorem step_ordered (s : Session) (c : BrokerCall) (h : s.Ordered) (hc : s.Admits c) :
    (s.step c).Ordered := by
  cases c with
  | push m => exact push_ordered h hc
  | pop => exact pop_ordered h
  | messageProcessed m =>
    by_cases hm : m ∈ s.popped
    · exact messageProcessed_ordered_of_popped h hm
    · exact messageProcessed_ordered_of_not_popped h hm
  | restoreLostMessages => exact restore_ordered h

/-- After a restore the processing list is empty, the script has returned how many messages it has
    moved, and the messages that were pushed and are not settled are popped in the order in which
    they were pushed. -/
theorem restore_in_push_order (calls : List BrokerCall) (hcalls : Run.Meets step Admits {} calls) :
    let s := calls.foldl step {}
    let restored := s.broker.restoreLostMessages
    restored.2.processing = [] ∧
      restored.1 = s.broker.processing.length ∧
      restored.2.queue.length = s.broker.queue.length + restored.1 ∧
      ∀ n, restored.2.pops n = (List.range n).map fun i => s.unsettled[i]? := by
  have hordered : (calls.foldl step {}).Ordered :=
    Run.invariant step_ordered ⟨rfl, List.nodup_nil, nofun, nofun, nofun, nofun⟩ hcalls
  intro s restored
  have hrestored : restored = s.broker.restoreLostMessages := rfl
  rw [Broker.restoreLostMessages_eq] at hrestored
  rw [hrestored]
  refine ⟨rfl, rfl, List.length_append, fun n => ?_⟩
  rw [Broker.pops_eq, hordered.contents, List.reverse_reverse]

/-- Of two messages that are popped the second one is processed before the restore, the first one
    only after it. -/
theorem restore_in_push_order_late :
    let s := [.push "a", .push "b", .push "c", .pop, .pop, .messageProcessed "b",
      .restoreLostMessages, .messageProcessed "a"].foldl step {}
    s.broker.restoreLostMessages.1 = 0 ∧
      s.broker.restoreLostMessages.2.pops 3 = [some "a", some "c", none] := by
  obtain ⟨-, hcount, -, hpops⟩ :=
    restore_in_push_order [.push "a", .push "b", .push "c", .pop, .pop, .messageProcessed "b",
      .restoreLostMessages, .messageProcessed "a"] (by simp only [Run.Meets, Admits]; decide)
  exact ⟨hcount, hpops 3⟩

/-- A message that is processed when it was restored already, by the reader that had popped it
    before, is popped again. -/
theorem processed_after_restore_popped_again :
    let s := [.push "a", .pop, .restoreLostMessages, .messageProcessed "a"].foldl step {}
    ([.push "a"].foldl step {}).broker.pop.1 = some "a" ∧
      s.pushed = ["a"] ∧ s.processed = ["a"] ∧ s.unprocessed = [] ∧
      s.broker.restoreLostMessages.2.pops 1 = [some "a"] := by
  decide

/-- What was popped since the last restore, and then the queue, is in the order of the pushes. -/
def PopsInOrder (s : Session) : Prop := (s.popped ++ s.broker.queue.reverse).Sublist s.pushed

/-- The two lists, and what was popped since the last restore with the queue, hold messages in the
    order in which they were pushed. Neither needs that the messages are distinct. -/
structure InOrder (s : Session) : Prop where
  lists : (s.broker.queue ++ s.broker.processing).reverse.Sublist s.pushed
  pops : s.PopsInOrder

theorem step_inOrder (s : Session) (c : BrokerCall) (h : s.InOrder) : (s.step c).InOrder := by
  obtain ⟨hlists, hpops⟩ := h
  have hs : (s.popped ++ s.broker.queue.reverse).Sublist s.pushed := hpops
  cases c with
  | push m =>
    constructor
    · show (m :: (s.broker.queue ++ s.broker.processing)).reverse.Sublist (s.pushed ++ [m])
      rw [List.reverse_cons]
      exact hlists.append_right [m]
    · show (s.popped ++ (m :: s.broker.queue).reverse).Sublist (s.pushed ++ [m])
      rw [List.reverse_cons, ← List.append_assoc]
      exact hs.append_right [m]
  | pop =>
    refine ⟨(Redis.rpoplpush_append s.broker.queue s.broker.processing).symm ▸ hlists, ?_⟩
    unfold PopsInOrder
    rcases Redis.rpoplpush_cases s.broker.queue s.broker.processing with
      ⟨hq, hr⟩ | ⟨l, x, hq, hr⟩
    · rw [hq] at hs
      simpa [step, Broker.pop, hr] using hs
    · rw [hq] at hs
      simpa [step, Broker.pop, hr] using hs
  | messageProcessed m =>
    refine ⟨.trans ?_ hlists, hpops⟩
    exact (List.Sublist.append (List.Sublist.refl _) List.filter_sublist).reverse
  | restoreLostMessages =>
    -- the two lists become the queue
    constructor
    · simpa only [step, Broker.restoreLostMessages_eq, List.append_nil] using hlists
    · simpa only [PopsInOrder, step, Broker.restoreLostMessages_eq, List.nil_append] using hlists

/-- Between two restores, messages are popped in the order in which they were pushed. -/
theorem popped_in_push_order (calls : List BrokerCall) : (calls.foldl step {}).PopsInOrder := by
  have hstart : ({} : Session).InOrder := ⟨.slnil, .slnil⟩
  exact (Run.invariant (fun s c h _ => step_inOrder s c h) hstart
    (Run.meets_of_forall (fun _ _ => trivial) _ calls)).pops

end Session

end Urb
