import Mathlib.Data.List.Nodup
import Urb.Native.Timer

/-!
# The queue of timers

What the operations of `EvHelper` do to the timers that are queued: an object is queued at most
once, and the number of active timers with a given kind of method changes only when one is scheduled
or called.
-/

namespace Urb.Ev

variable {i j : Nat} {rest : List Nat}

/-! ## The timers that are pending -/

namespace EvHelper

variable {M : Type} {ev : EvHelper M} {p : M → Bool}

/-- The objects that are in the queue or about to be called. -/
def queued (ev : EvHelper M) : List Nat := ev.timers.flatMap (·.2) ++ ev.callbacks

/-- The object is active, and its method is one of those. -/
def awaits (ev : EvHelper M) (p : M → Bool) (i : Nat) : Bool :=
  (ev.objects[i]?).any fun t => t.active && p t.method

/-- The number of active timers with such a method. -/
def pending (ev : EvHelper M) (p : M → Bool) : Nat := ev.queued.countP (ev.awaits p)

/-- Every object is queued at most once. -/
structure Sound (ev : EvHelper M) : Prop where
  nodup : ev.queued.Nodup
  objects : ∀ i ∈ ev.queued, i < ev.objects.length

theorem flatMap_insertTimer (key t : Nat) (timers : List (Nat × List Nat)) :
    ((insertTimer key t timers).flatMap (·.2)).Perm (t :: timers.flatMap (·.2)) := by
  induction timers with
  | nil => exact .refl _
  | cons e rest ih =>
    obtain ⟨k, ts⟩ := e
    unfold insertTimer
    split
    · exact .refl _
    · split
      · simp only [List.flatMap_cons, List.append_assoc, List.singleton_append]
        exact List.perm_middle
      · simp only [List.flatMap_cons]
        exact (ih.append_left ts).trans List.perm_middle

theorem queued_scheduleTimer (ev : EvHelper M) (t : Inner M) :
    (ev.scheduleTimer t).queued.Perm (ev.objects.length :: ev.queued) :=
  (flatMap_insertTimer _ _ _).append_right _

theorem queued_takeDue (h : ev.callbacks = []) : ev.takeDue.queued.Perm ev.queued := by
  simp only [queued, takeDue, h, List.append_nil]
  refine List.perm_append_comm.trans ?_
  rw [← List.flatMap_append, List.takeWhile_append_dropWhile]

theorem awaits_scheduleTimer_of_lt (t : Inner M) (hi : i < ev.objects.length) :
    (ev.scheduleTimer t).awaits p i = ev.awaits p i := by
  simp only [awaits, scheduleTimer, List.getElem?_append_left hi]

theorem Sound.scheduleTimer (h : ev.Sound) (t : Inner M) : (ev.scheduleTimer t).Sound := by
  have hperm := queued_scheduleTimer ev t
  constructor
  · rw [hperm.nodup_iff, List.nodup_cons]
    exact ⟨fun hmem => Nat.lt_irrefl _ (h.objects _ hmem), h.nodup⟩
  · intro i hi
    have hlength : (ev.scheduleTimer t).objects.length = ev.objects.length + 1 := by
      simp [EvHelper.scheduleTimer]
    rcases List.mem_cons.mp (hperm.mem_iff.mp hi) with rfl | hi
    · omega
    · have hlt := h.objects i hi
      omega

theorem pending_scheduleTimer (h : ev.Sound) (t : Inner M) : (ev.scheduleTimer t).pending p =
      ev.pending p + if t.active && p t.method then 1 else 0 := by
  have hold : ev.queued.countP ((ev.scheduleTimer t).awaits p) = ev.pending p :=
    List.countP_congr fun i hi => by rw [awaits_scheduleTimer_of_lt t (h.objects i hi)]
  have hnew : (ev.scheduleTimer t).awaits p ev.objects.length = (t.active && p t.method) := by
    simp [awaits, EvHelper.scheduleTimer]
  rw [pending, (queued_scheduleTimer ev t).countP_eq, List.countP_cons, hold, hnew]

theorem Sound.takeDue (h : ev.Sound) (hidle : ev.callbacks = []) : ev.takeDue.Sound := by
  have hperm := queued_takeDue hidle
  exact ⟨hperm.nodup_iff.mpr h.nodup, fun i hi => h.objects i (hperm.mem_iff.mp hi)⟩

theorem pending_takeDue (hidle : ev.callbacks = []) : ev.takeDue.pending p = ev.pending p :=
  (queued_takeDue hidle).countP_eq _

/-! ### The next callback -/

theorem queued_of_callbacks (h : ev.callbacks = i :: rest) :
    ev.queued.Perm (i :: { ev with callbacks := rest }.queued) := by
  simp only [queued, h]
  exact List.perm_middle

theorem Sound.popCallback (h : ev.Sound)
    (hcallbacks : ev.callbacks = i :: rest) : { ev with callbacks := rest }.Sound := by
  have hperm := queued_of_callbacks hcallbacks
  have hnodup := List.nodup_cons.mp (hperm.nodup_iff.mp h.nodup)
  exact ⟨hnodup.2, fun j hj => h.objects j (hperm.mem_iff.mpr (List.mem_cons_of_mem _ hj))⟩

theorem Sound.deactivate (h : ev.Sound) (i : Nat) : (ev.deactivate i).Sound := by
  refine ⟨h.nodup, fun j hj => ?_⟩
  have hlt := h.objects j hj
  simpa [EvHelper.deactivate] using hlt

theorem awaits_deactivate_of_ne (hij : i ≠ j) : (ev.deactivate i).awaits p j = ev.awaits p j := by
  simp [awaits, deactivate, hij]

theorem Sound.executeNext (h : ev.Sound) : ev.executeNext.1.Sound := by
  unfold EvHelper.executeNext
  split
  · exact h
  · rename_i i rest hcallbacks
    have hpop := h.popCallback hcallbacks
    split
    · split
      · exact hpop.deactivate i
      · exact hpop
    · exact hpop

theorem pending_executeNext (h : ev.Sound) :
    ev.pending p = ev.executeNext.1.pending p + if ev.executeNext.2.any p then 1 else 0 := by
  cases hcallbacks : ev.callbacks with
  | nil => simp [EvHelper.executeNext, hcallbacks]
  | cons i rest =>
    have hperm := queued_of_callbacks hcallbacks
    have hnot := (List.nodup_cons.mp (hperm.nodup_iff.mp h.nodup)).1
    have hsplit : ev.pending p =
        { ev with callbacks := rest }.pending p + if ev.awaits p i then 1 else 0 := by
      rw [pending, hperm.countP_eq, List.countP_cons]
      rfl
    rw [hsplit, awaits]
    cases hobject : ev.objects[i]? with
    | none => simp [EvHelper.executeNext, hcallbacks, hobject]
    | some t =>
      cases hactive : t.active with
      | false => simp [EvHelper.executeNext, hcallbacks, hobject, hactive]
      | true =>
        have hrest : ({ ev with callbacks := rest }.deactivate i).pending p =
            { ev with callbacks := rest }.pending p :=
          List.countP_congr fun j hj => by
            rw [awaits_deactivate_of_ne (ne_of_mem_of_not_mem hj hnot).symm]
        simp [EvHelper.executeNext, hcallbacks, hobject, hactive, hrest]

end EvHelper

end Urb.Ev
