import Mathlib
import Urb.ForStd.Run
import Urb.Spec.QueueOrder

/-!
# Messages are delivered at least once

Two messages may be equal strings, so a message is followed through the lists by its index among
the messages that were pushed: `Occurrence`. Redis does not see the index; forgetting it turns a
run with occurrences into the run with strings (`track_text`).

`message_processed` removes all messages that are equal to the processed one from the processing
list, and with them those that other readers have not processed yet.
-/

namespace Urb

/-- One of the messages that were pushed. -/
structure Occurrence where
  text : String
  index : Nat
  deriving DecidableEq

namespace DeliveryEvent

variable {ι β γ : Type}

def map (f : β → γ) : DeliveryEvent ι β → DeliveryEvent ι γ
  | .push m => .push (f m)
  | .read id => .read id
  | .readBlocking id => .readBlocking id
  | .callbackReturned id => .callbackReturned id
  | .messageProcessed id => .messageProcessed id
  | .crash id => .crash id
  | .restore => .restore

theorem map_map {δ : Type} (f : β → γ) (g : γ → δ) (ev : DeliveryEvent ι β) :
    (ev.map f).map g = ev.map (g ∘ f) := by
  cases ev <;> rfl

theorem map_id (ev : DeliveryEvent ι β) : ev.map id = ev := by
  cases ev <;> rfl

end DeliveryEvent

/-! ## Forgetting the index -/

namespace Broker

variable {β γ : Type}

def map (f : β → γ) (b : Broker β) : Broker γ :=
  { queue := b.queue.map f, processing := b.processing.map f }

theorem map_pop (f : β → γ) (b : Broker β) : (b.map f).pop = (b.pop.1.map f, b.pop.2.map f) := by
  simp only [pop, map, Redis.map_rpoplpush]

theorem map_messageProcessed {text : β → String} {text' : γ → String} {f : β → γ}
    (htext : ∀ m, text' (f m) = text m) (b : Broker β) (m : β) :
    (b.messageProcessed text m).map f = (b.map f).messageProcessed text' (f m) := by
  simp only [messageProcessed, map, Redis.lrem, List.filter_map, Function.comp_def, htext]

theorem map_restoreLostMessages (f : β → γ) (b : Broker β) :
    b.restoreLostMessages.2.map f = (b.map f).restoreLostMessages.2 := by
  simp only [restoreLostMessages_eq, map, List.map_append, List.map_nil]

end Broker

namespace Delivery

variable {ι β γ : Type}

def map (f : β → γ) (d : Delivery ι β) : Delivery ι γ where
  broker := d.broker.map f
  readers id := (d.readers id).map fun r => { message := f r.message, returned := r.returned }
  pushed := d.pushed.map f
  completed := d.completed.map f

variable [DecidableEq ι]

theorem map_setReader (f : β → γ) (d : Delivery ι β) (id : ι) (r : Option (Reader β)) :
    (d.setReader id r).map f = (d.map f).setReader id
      (r.map fun r => { message := f r.message, returned := r.returned }) := by
  simp only [map, setReader, Delivery.mk.injEq, true_and, and_true]
  funext i
  by_cases hi : i = id
  · subst hi
    simp only [Function.update_self]
  · simp only [Function.update_of_ne hi]

theorem map_spawn (f : β → γ) (d : Delivery ι β) (id : ι) (r : Option β × Broker β) :
    (d.spawn id r).map f = (d.map f).spawn id (r.1.map f, r.2.map f) := by
  rw [spawn, map_setReader, spawn, Option.map_map, Option.map_map]
  rfl

theorem map_step {text : β → String} {text' : γ → String} {f : β → γ}
    (htext : ∀ m, text' (f m) = text m) (d : Delivery ι β) (ev : DeliveryEvent ι β) :
    (d.step text ev).map f = (d.map f).step text' (ev.map f) := by
  have hfree : ∀ id, ((d.map f).readers id).isNone = (d.readers id).isNone := by
    intro id
    simp only [map, Option.isNone_map]
  cases ev with
  | push m =>
    simp only [step, map, Broker.map, Broker.push, Redis.lpush, DeliveryEvent.map, List.map_append,
      List.map_cons, List.map_nil]
  | read id =>
    simp only [step, DeliveryEvent.map, hfree]
    split
    · rw [map_spawn, ← Broker.map_pop]
      rfl
    · rfl
  | readBlocking id =>
    simp only [step, DeliveryEvent.map, hfree]
    split
    · rw [map_spawn]
      simp only [Broker.popBlocking, map, Broker.map_pop, Option.filter_map, Function.comp_def,
        htext]
    · rfl
  | callbackReturned id =>
    cases hr : d.readers id with
    | none => simp only [step, DeliveryEvent.map, map, hr, Option.map_none]
    | some r =>
      simp only [step, DeliveryEvent.map, hr]
      rw [map_setReader]
      simp only [map, hr, Option.map_some, List.map_cons]
  | messageProcessed id =>
    cases hr : d.readers id with
    | none => simp only [step, DeliveryEvent.map, map, hr, Option.map_none]
    | some r =>
      obtain ⟨m, returned⟩ := r
      cases returned with
      | false => simp only [step, DeliveryEvent.map, map, hr, Option.map_some]
      | true =>
        simp only [step, DeliveryEvent.map, hr]
        rw [map_setReader]
        simp only [map, hr, Option.map_some, Option.map_none, Broker.map_messageProcessed htext]
  | crash id => exact map_setReader f d id none
  | restore => simp only [step, map, DeliveryEvent.map, Broker.map_restoreLostMessages]

/-! ## Occurrences -/

/-- A step on the occurrences of the messages: a message that is pushed gets the next index. -/
def track (d : Delivery ι Occurrence) (ev : DeliveryEvent ι String) : Delivery ι Occurrence :=
  d.step Occurrence.text (ev.map fun m => { text := m, index := d.pushed.length })

/-- The run with occurrences is the run of the code. -/
theorem track_text (d : Delivery ι Occurrence) (ev : DeliveryEvent ι String) :
    (d.track ev).map Occurrence.text = (d.map Occurrence.text).step id ev := by
  have htext : ∀ o : Occurrence, id o.text = o.text := fun _ => rfl
  rw [track, map_step htext, DeliveryEvent.map_map]
  exact congrArg _ ev.map_id

/-- The two lists together. -/
def stored (d : Delivery ι β) : List β := d.broker.queue ++ d.broker.processing

/-- Every message that was pushed is in one of the lists, or it was processed. -/
def Kept (d : Delivery ι β) : Prop :=
  ∀ o ∈ d.pushed, o ∈ d.broker.queue ∨ o ∈ d.broker.processing ∨ o ∈ d.completed

/-- The lists hold messages that were pushed, and none of them twice. -/
structure Traced (d : Delivery ι Occurrence) : Prop where
  nodup : d.stored.Nodup
  stored_pushed : ∀ o ∈ d.stored, o ∈ d.pushed
  index_lt : ∀ o ∈ d.pushed, o.index < d.pushed.length

/-- What a step does to the lists, to the messages that were pushed and to those that were
    processed: it only stores a new message, removes the messages that are equal to a processed
    one, or it keeps all that is stored. -/
theorem track_cases (d : Delivery ι Occurrence) (ev : DeliveryEvent ι String) : (∃ m, ev = .push m ∧
      (d.track ev).stored = { text := m, index := d.pushed.length } :: d.stored ∧
      (d.track ev).pushed = d.pushed ++ [{ text := m, index := d.pushed.length }] ∧
      (d.track ev).completed = d.completed) ∨
    (∃ id o, ev = .messageProcessed id ∧ d.readers id = some ⟨o, true⟩ ∧
      (d.track ev).broker.queue = d.broker.queue ∧
      (d.track ev).broker.processing = Redis.lrem Occurrence.text o.text d.broker.processing ∧
      (d.track ev).pushed = d.pushed ∧ (d.track ev).completed = d.completed) ∨
    ((∀ id o, ev = .messageProcessed id → d.readers id ≠ some ⟨o, true⟩) ∧
      (d.track ev).stored = d.stored ∧ (d.track ev).pushed = d.pushed ∧
      ∀ o ∈ d.completed, o ∈ (d.track ev).completed) := by
  have hpop : d.broker.pop.2.queue ++ d.broker.pop.2.processing = d.stored :=
    Redis.rpoplpush_append _ _
  cases ev with
  | push m => exact .inl ⟨m, rfl, rfl, rfl, rfl⟩
  | read id =>
    refine .inr (.inr ⟨by rintro _ _ ⟨⟩, ?_⟩)
    simp only [track, DeliveryEvent.map, step]
    split
    · exact ⟨hpop, rfl, fun _ ho => ho⟩
    · exact ⟨rfl, rfl, fun _ ho => ho⟩
  | readBlocking id =>
    refine .inr (.inr ⟨by rintro _ _ ⟨⟩, ?_⟩)
    simp only [track, DeliveryEvent.map, step]
    split
    · exact ⟨hpop, rfl, fun _ ho => ho⟩
    · exact ⟨rfl, rfl, fun _ ho => ho⟩
  | callbackReturned id =>
    refine .inr (.inr ⟨by rintro _ _ ⟨⟩, ?_⟩)
    simp only [track, DeliveryEvent.map, step]
    split
    · exact ⟨rfl, rfl, fun _ ho => List.mem_cons_of_mem _ ho⟩
    · exact ⟨rfl, rfl, fun _ ho => ho⟩
  | messageProcessed id =>
    simp only [track, DeliveryEvent.map, step]
    split
    · rename_i o hr
      exact .inr (.inl ⟨id, o, rfl, hr, rfl, rfl, rfl, rfl⟩)
    · rename_i hr
      refine .inr (.inr ⟨?_, rfl, rfl, fun _ ho => ho⟩)
      rintro _ o ⟨⟩ ho
      exact hr o ho
  | crash id => exact .inr (.inr ⟨by rintro _ _ ⟨⟩, rfl, rfl, fun _ ho => ho⟩)
  | restore =>
    refine .inr (.inr ⟨by rintro _ _ ⟨⟩, ?_, rfl, fun _ ho => ho⟩)
    simp only [track, DeliveryEvent.map, step, stored, Broker.restoreLostMessages_eq,
      List.append_nil]

theorem track_traced (d : Delivery ι Occurrence) (ev : DeliveryEvent ι String) (h : d.Traced) :
    (d.track ev).Traced := by
  rcases track_cases d ev with ⟨m, -, hstored, hpushed, -⟩ |
    ⟨id, o, -, -, hqueue, hprocessing, hpushed, -⟩ | ⟨-, hstored, hpushed, -⟩
  · refine ⟨?_, ?_, ?_⟩
    · -- the index of the new message is out of the range of the others
      rw [hstored, List.nodup_cons]
      refine ⟨fun hmem => ?_, h.nodup⟩
      have hlt := h.index_lt _ (h.stored_pushed _ hmem)
      dsimp only at hlt
      omega
    · rw [hstored, hpushed]
      intro o ho
      rcases List.mem_cons.mp ho with rfl | ho
      · exact List.mem_append_right _ (List.mem_singleton_self _)
      · exact List.mem_append_left _ (h.stored_pushed o ho)
    · rw [hpushed, List.length_append, List.length_singleton]
      intro o ho
      rcases List.mem_append.mp ho with ho | ho
      · have hlt := h.index_lt o ho
        omega
      · rw [List.mem_singleton.mp ho]
        dsimp only
        omega
  · have hsub : (d.track ev).stored.Sublist d.stored := by
      rw [stored, hqueue, hprocessing]
      exact (List.Sublist.refl _).append List.filter_sublist
    refine ⟨h.nodup.sublist hsub, ?_, ?_⟩
    · intro o ho
      rw [hpushed]
      exact h.stored_pushed o (hsub.subset ho)
    · rw [hpushed]
      exact h.index_lt
  · refine ⟨hstored ▸ h.nodup, ?_, ?_⟩
    · rw [hstored, hpushed]
      exact h.stored_pushed
    · rw [hpushed]
      exact h.index_lt

/-- No message is invented: the lists hold a string at most as often as it was pushed. -/
theorem stored_subperm_pushed (events : List (DeliveryEvent ι String)) :
    let d := events.foldl (step id) ({} : Delivery ι String)
    d.stored.Subperm d.pushed := by
  intro d
  let o := events.foldl track ({} : Delivery ι Occurrence)
  have htraced : o.Traced := Run.invariant (fun d ev h _ => d.track_traced ev h)
    ⟨.nil, nofun, nofun⟩ (Run.meets_of_forall (fun _ _ => trivial) _ events)
  have hd : events.foldl (step id) (map Occurrence.text {}) = o.map Occurrence.text :=
    List.foldl_hom _ fun d ev => (track_text d ev).symm
  have hstored : (o.map Occurrence.text).stored = o.stored.map Occurrence.text :=
    List.map_append.symm
  rw [show d = o.map Occurrence.text from hd, hstored]
  exact Multiset.coe_le.mp (Multiset.map_le_map
    (Multiset.coe_le.mpr (htraced.nodup.subperm htraced.stored_pushed)))

/-- When a reader calls `message_processed`, all messages in the processing list that are equal to
    its message were processed. -/
def Unshared (d : Delivery ι Occurrence) (ev : DeliveryEvent ι String) : Prop :=
  ∀ id m, ev = .messageProcessed id → d.readers id = some ⟨m, true⟩ →
    ∀ o ∈ d.broker.processing, o.text = m.text → o ∈ d.completed

omit [DecidableEq ι] in
theorem kept_iff {d : Delivery ι β} : d.Kept ↔ ∀ o ∈ d.pushed, o ∈ d.stored ∨ o ∈ d.completed := by
  simp only [Kept, stored, List.mem_append, or_assoc]

/-- A step loses no occurrence, unless it is a `message_processed` that removes an unprocessed one.
    -/
theorem track_kept_iff (d : Delivery ι Occurrence) (ev : DeliveryEvent ι String) (h : d.Traced)
    (hkept : d.Kept) : (d.track ev).Kept ↔ d.Unshared ev := by
  rcases track_cases d ev with ⟨m, rfl, hstored, hpushed, hcompleted⟩ |
    ⟨id, o, rfl, hreader, hqueue, hprocessing, hpushed, hcompleted⟩ |
    ⟨hev, hstored, hpushed, hcompleted⟩
  · refine iff_of_true ?_ nofun
    rw [kept_iff, hstored, hpushed, hcompleted]
    intro o ho
    rcases List.mem_append.mp ho with ho | ho
    · exact (kept_iff.mp hkept o ho).imp_left (List.mem_cons_of_mem _)
    · rw [List.mem_singleton.mp ho]
      exact .inl List.mem_cons_self
  · constructor
    · -- an unprocessed message that is removed is in neither list
      rintro hkept' _ m ⟨⟩ hm o' ho' htext
      rw [hreader] at hm
      cases hm
      have hmem : o' ∈ d.stored := List.mem_append_right _ ho'
      have hnot : o' ∉ d.broker.queue := by
        intro hq
        exact (List.nodup_append.mp h.nodup).2.2 o' hq o' ho' rfl
      have hkept' := hkept' o' (hpushed ▸ h.stored_pushed o' hmem)
      rw [hqueue, hprocessing, hcompleted, Redis.mem_lrem] at hkept'
      rcases hkept' with hq | ⟨-, hne⟩ | hdone
      · exact absurd hq hnot
      · exact absurd htext hne
      · exact hdone
    · intro hunshared o' ho'
      rw [hpushed] at ho'
      rw [hqueue, hprocessing, hcompleted, Redis.mem_lrem]
      rcases hkept o' ho' with hq | hp | hdone
      · exact .inl hq
      · by_cases htext : o'.text = o.text
        · exact .inr (.inr (hunshared id o rfl hreader o' hp htext))
        · exact .inr (.inl ⟨hp, htext⟩)
      · exact .inr (.inr hdone)
  · refine iff_of_true ?_ fun id m hid hm => absurd hm (hev id m hid)
    rw [kept_iff, hstored, hpushed]
    intro o ho
    exact (kept_iff.mp hkept o ho).imp_right (hcompleted o)

/-- In a run on a new channel every message is, after every step, in the queue, in the processing
    list or processed, exactly if no `message_processed` removes an unprocessed message. -/
theorem at_least_once_iff (events : List (DeliveryEvent ι String)) :
    Run.Meets track (fun d ev => (d.track ev).Kept) {} events ↔
      Run.Meets track Unshared {} events :=
  Run.meets_iff track_traced track_kept_iff ⟨List.nodup_nil, nofun, nofun⟩ nofun

/-- Two readers get equal messages. One of them processes its message, the other one crashes: both
    lists are empty, and the second message was not processed. -/
theorem equal_message_lost :
    let d : Delivery Bool Occurrence :=
      [.push "a", .push "a", .read true, .read false, .callbackReturned true,
        .messageProcessed true, .crash false, .restore].foldl track {}
    d.pushed = [⟨"a", 0⟩, ⟨"a", 1⟩] ∧ d.stored = [] ∧ d.completed = [⟨"a", 0⟩] ∧ ¬d.Kept := by
  refine ⟨by decide, by decide, by decide, fun h => ?_⟩
  have hsecond := h ⟨"a", 1⟩ (by decide)
  revert hsecond
  decide

end Delivery

end Urb
