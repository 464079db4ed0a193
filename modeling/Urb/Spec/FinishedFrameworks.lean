import Urb.ForStd.AList
import Urb.ForStd.Recent
import Urb.ForStd.Run
import Urb.Native.FrameworkTracker

/-!
# The history of finished frameworks

The ids in the deque and the keys of the dictionary are the same, and they are those of the last
frameworks that were removed, as long as no framework is removed whose id is still in the history.
If a framework registers again under its old id and is removed again, the id is in the deque twice:
the first time it is forgotten the framework goes, the second time `remove` raises.
-/

namespace Urb.FrameworkTracker

open EStateM

variable {ι α : Type}

/-! ## Calls -/

inductive Call (ι α : Type) where
  | add (id : ι) (object : Option α)
  | remove (id : ι)

/-- A tracker, with the ids of the frameworks that were removed and whether a call raised. -/
structure History (ι α : Type) where
  tracker : FrameworkTracker ι α := {}
  removed : List ι := []
  raised : Bool := false

namespace History

variable [DecidableEq ι]

def step (h : History ι α) : Call ι α → History ι α
  | .add id object => { h with tracker := h.tracker.add id object }
  | .remove id =>
    { tracker := (remove id).after h.tracker
      removed := if (h.tracker.get id).isSome then h.removed ++ [id] else h.removed
      raised := h.raised || !(remove id h.tracker).returned }

/-- No call has raised, the deque and the dictionary agree, and they have the frameworks that were
    removed last. -/
structure Consistent (h : History ι α) : Prop where
  returned : h.raised = false
  keys : ∀ id, id ∈ h.tracker.finishedFrameworkDict ↔ id ∈ h.tracker.finishedFrameworkIdDeque
  nodup : h.tracker.finishedFrameworkIdDeque.Nodup
  length : h.tracker.finishedFrameworkIdDeque.length ≤ 25
  recent : ∀ id, id ∈ h.tracker.finishedFrameworkIdDeque ↔ id ∈ h.removed.recent 25

/-- A framework that is removed is not one of those that were removed last. -/
def Fresh (h : History ι α) : Call ι α → Prop
  | .add _ _ => True
  | .remove id => (h.tracker.get id).isSome = true → id ∉ h.removed.recent 25

end History

/-! ## One removal -/

section Remove

variable [DecidableEq ι] {s : FrameworkTracker ι α} {id : ι} {framework : α}

theorem remove_of_none (hget : s.get id = none) : remove id s = .ok none s := by
  simp only [remove, removeObject, bind_apply, get_apply, hget, pure_apply]

theorem remove_of_room (hget : s.get id = some framework)
    (hroom : s.finishedFrameworkIdDeque.length < 25) :
    remove id s = .ok (some framework)
      { objectDict := s.objectDict.erase id
        finishedFrameworkIdDeque := s.finishedFrameworkIdDeque ++ [id]
        finishedFrameworkDict := s.finishedFrameworkDict.insert id framework } := by
  have hne : s.finishedFrameworkIdDeque.length ≠ maxNumberOfFinishedFrameworks :=
    Nat.ne_of_lt hroom
  have happend : dequeAppend maxNumberOfFinishedFrameworks s.finishedFrameworkIdDeque id =
      s.finishedFrameworkIdDeque ++ [id] := by
    have hdrop : s.finishedFrameworkIdDeque.length + 1 - maxNumberOfFinishedFrameworks = 0 := by
      rw [maxNumberOfFinishedFrameworks]
      omega
    rw [dequeAppend, hdrop, List.drop_zero]
  simp only [remove, removeObject, forgetFirst, bind_apply, get_apply, set_apply, modify_apply,
    pure_apply, hget, hne, if_false, happend]

/-- If the deque is full, its first framework has to be in the dictionary, or be the one that is
    removed. -/
theorem remove_of_full (hget : s.get id = some framework) {clearFrameworkId : ι} {rest : List ι}
    (hdeque : s.finishedFrameworkIdDeque = clearFrameworkId :: rest) (hfull : rest.length = 24) :
    remove id s =
      if clearFrameworkId ∈ s.finishedFrameworkDict.insert id framework then
        .ok (some framework)
          { objectDict := s.objectDict.erase id
            finishedFrameworkIdDeque := rest ++ [id]
            finishedFrameworkDict :=
              (s.finishedFrameworkDict.insert id framework).erase clearFrameworkId }
      else
        .error (.keyError clearFrameworkId)
          { objectDict := s.objectDict.erase id
            finishedFrameworkIdDeque := rest
            finishedFrameworkDict := s.finishedFrameworkDict.insert id framework } := by
  have hlength : (clearFrameworkId :: rest).length = maxNumberOfFinishedFrameworks := by
    rw [List.length_cons, hfull, maxNumberOfFinishedFrameworks]
  have happend : dequeAppend maxNumberOfFinishedFrameworks rest id = rest ++ [id] := by
    rw [dequeAppend, hfull]
    rfl
  simp only [remove, removeObject, forgetFirst, bind_apply, get_apply, set_apply, modify_apply,
    pure_apply, hget, hdeque, hlength, if_true]
  by_cases hmem : clearFrameworkId ∈ s.finishedFrameworkDict.insert id framework
  · simp only [if_pos hmem, modify_apply, happend]
  · simp only [if_neg hmem, throw_apply]

end Remove

namespace History

variable [DecidableEq ι] {h : History ι α} {id : ι} {framework : α}

/-! ## Removals that keep the history consistent -/

theorem step_remove_of_ok (hget : h.tracker.get id = some framework) {s : FrameworkTracker ι α}
    (hrun : remove id h.tracker = .ok (some framework) s) :
    h.step (.remove id) = { h with tracker := s, removed := h.removed ++ [id] } := by
  simp only [step, after, hrun, hget, Option.isSome_some, if_true, Result.returned, Bool.not_true,
    Bool.or_false]

/-- The deque has the last frameworks in the order of their removal. -/
structure Ordered (h : History ι α) : Prop where
  returned : h.raised = false
  keys : ∀ id, id ∈ h.tracker.finishedFrameworkDict ↔ id ∈ h.tracker.finishedFrameworkIdDeque
  recent : h.tracker.finishedFrameworkIdDeque = h.removed.recent 25

theorem Ordered.consistent (hs : h.Ordered) : h.Consistent where
  returned := hs.returned
  keys := hs.keys
  nodup := hs.recent ▸ List.nodup_recent 25 h.removed
  length := hs.recent ▸ List.length_recent_le 25 h.removed
  recent id := by rw [hs.recent]

theorem Ordered.step (hs : h.Ordered) {c : Call ι α} (hfresh : h.Fresh c) : (h.step c).Ordered := by
  cases c with
  | add id object => exact ⟨hs.returned, hs.keys, hs.recent⟩
  | remove id =>
    cases hget : h.tracker.get id with
    | none =>
      simp only [History.step, hget, after, remove_of_none hget, Result.returned]
      exact ⟨by simpa using hs.returned, hs.keys, hs.recent⟩
    | some framework =>
      have hnew : id ∉ h.removed.recent 25 := hfresh (by rw [hget]; rfl)
      have hconcat := List.recent_concat hnew
      rw [← hs.recent] at hnew hconcat
      by_cases hroom : h.tracker.finishedFrameworkIdDeque.length < 25
      · rw [step_remove_of_ok hget (remove_of_room hget hroom)]
        refine ⟨hs.returned, fun id' => ?_, ?_⟩
        · rw [AList.mem_insert, hs.keys, List.mem_append, List.mem_singleton, or_comm]
        · rw [hconcat, if_neg (by omega)]
      · have hlength := hs.consistent.length
        cases hdeque : h.tracker.finishedFrameworkIdDeque with
        | nil =>
          rw [hdeque] at hroom
          exact absurd hroom (by simp)
        | cons clearFrameworkId rest =>
          rw [hdeque, List.length_cons] at hroom hlength
          have hfull : rest.length = 24 := by omega
          rw [hdeque] at hnew hconcat
          have hnodup := hs.consistent.nodup
          rw [hdeque, List.nodup_cons] at hnodup
          have hclear : clearFrameworkId ∈ h.tracker.finishedFrameworkDict := by
            rw [hs.keys, hdeque]
            exact List.mem_cons_self
          have hrun := remove_of_full hget hdeque hfull
          rw [if_pos (AList.mem_insert _ |>.mpr (.inr hclear))] at hrun
          rw [step_remove_of_ok hget hrun]
          refine ⟨hs.returned, fun id' => ?_, ?_⟩
          · -- the first one is forgotten, and it is not among the others
            rw [AList.mem_erase, AList.mem_insert, hs.keys, hdeque, List.mem_append,
              List.mem_singleton, List.mem_cons]
            rw [List.mem_cons, not_or] at hnew
            constructor
            · rintro ⟨hne, rfl | rfl | hmem⟩
              · exact .inr rfl
              · exact absurd rfl hne
              · exact .inl hmem
            · rintro (hmem | rfl)
              · refine ⟨?_, .inr (.inr hmem)⟩
                rintro rfl
                exact hnodup.1 hmem
              · exact ⟨hnew.1, .inl rfl⟩
          · rw [hconcat, if_pos (by rw [List.length_cons, hfull]), List.tail_cons]

/-! ## Removals that do not -/

/-- A framework that is removed while its id is in the deque is in the deque twice, or in the deque
    and not in the dictionary. -/
theorem Consistent.fresh (hs : h.Consistent) {c : Call ι α} (hs' : (h.step c).Consistent) :
    h.Fresh c := by
  cases c with
  | add id object => trivial
  | remove id =>
    intro hactive hmem
    obtain ⟨framework, hget⟩ := Option.isSome_iff_exists.mp hactive
    rw [← hs.recent] at hmem
    by_cases hroom : h.tracker.finishedFrameworkIdDeque.length < 25
    · rw [step_remove_of_ok hget (remove_of_room hget hroom)] at hs'
      have hnodup := hs'.nodup
      rw [List.nodup_append] at hnodup
      exact hnodup.2.2 id hmem id (List.mem_singleton_self id) rfl
    · have hlength := hs.length
      cases hdeque : h.tracker.finishedFrameworkIdDeque with
      | nil =>
        rw [hdeque] at hmem
        cases hmem
      | cons clearFrameworkId rest =>
        rw [hdeque, List.length_cons] at hroom hlength
        have hfull : rest.length = 24 := by omega
        have hclear : clearFrameworkId ∈ h.tracker.finishedFrameworkDict := by
          rw [hs.keys, hdeque]
          exact List.mem_cons_self
        have hrun := remove_of_full hget hdeque hfull
        rw [if_pos (AList.mem_insert _ |>.mpr (.inr hclear))] at hrun
        rw [step_remove_of_ok hget hrun] at hs'
        have hnodup := hs'.nodup
        have hkeys := (hs'.keys id).mpr (List.mem_append_right _ (List.mem_singleton_self id))
        rw [List.nodup_append] at hnodup
        rw [AList.mem_erase] at hkeys
        rw [hdeque, List.mem_cons] at hmem
        rcases hmem with hmem | hmem
        · exact hkeys.1 hmem
        · exact hnodup.2.2 id hmem id (List.mem_singleton_self id) rfl

/-- In a run of calls the history of finished frameworks stays consistent exactly if no framework is
    removed that is one of the last 25 that were removed. -/
theorem finished_history_iff (calls : List (Call ι α)) :
    Run.Meets step (fun h c => (h.step c).Consistent) {} calls ↔
      Run.Meets step Fresh {} calls := by
  have hstart : Ordered ({} : History ι α) := ⟨rfl, fun id => by simp, rfl⟩
  exact Run.meets_iff_of_stronger (I := fun _ => True) (S := Ordered) (P := Consistent)
    (fun _ _ => id) (fun _ _ _ hs hfresh => hs.step hfresh) (fun _ _ hs => hs.consistent)
    (fun _ _ _ hs hs' => hs.fresh hs') trivial hstart

/-- A framework is registered and removed. -/
def serve (id : Nat) : List (Call Nat Unit) := [.add id (some ()), .remove id]

/-- A framework that is removed a second time is in the deque twice. When as many others have been
    removed as are remembered, it is to be forgotten twice, and `remove` raises. -/
theorem removed_again_raises :
    let twice := serve 0 ++ serve 0
    let others := (List.range 25).flatMap fun i => serve (i + 1)
    (twice.foldl step {}).tracker.finishedFrameworkIdDeque = [0, 0] ∧
      ((twice ++ others).foldl step {}).raised = true := by
  decide +kernel

end History

end Urb.FrameworkTracker
