import Urb.Native.Entry

/-!
# What post-processing deletes

The dictionaries after the loop of `__target_postprocessor`: an entry is gone
exactly when it was queued, and nothing else of the framework changes.
-/

namespace Urb

namespace DeleteElement

variable (de : DeleteElement) (f : Framework)

theorem tasks_delete :
    (de.delete f).tasks = if de.dict = .tasks then f.tasks.erase de.key else f.tasks := by
  obtain ⟨d, k⟩ := de
  cases d with
  | tasks =>
    unfold DeleteElement.delete Framework.tasks
    cases f.taskDict <;> rfl
  | slaves => rfl
  | offers => rfl

theorem slaves_delete :
    (de.delete f).slaves = if de.dict = .slaves then f.slaves.erase de.key else f.slaves := by
  obtain ⟨d, k⟩ := de
  cases d with
  | slaves =>
    unfold DeleteElement.delete Framework.slaves
    cases f.slaveDict <;> rfl
  | tasks => rfl
  | offers => rfl

theorem offers_delete :
    (de.delete f).offers = if de.dict = .offers then f.offers.erase de.key else f.offers := by
  obtain ⟨d, k⟩ := de
  cases d <;> rfl

theorem config_delete : (de.delete f).config = f.config := by
  obtain ⟨d, k⟩ := de
  cases d <;> rfl

theorem jobIds_delete : (de.delete f).jobIds = f.jobIds := by
  obtain ⟨d, k⟩ := de
  cases d <;> rfl

end DeleteElement

/-- Erasing on a condition, seen through a look-up. -/
private theorem lookup_erase_ite {β : Type} (d : Dict β) (c : Prop) [Decidable c] (k k' : String) :
    (if c then d.erase k' else d).lookup k = if c ∧ k = k' then none else d.lookup k := by
  by_cases hc : c
  · by_cases hk : k = k'
    · subst hk; simp [hc]
    · simp [hc, hk, AList.lookup_erase_ne hk]
  · simp [hc]

section DeleteAll

variable (des : List DeleteElement) (f : Framework) (k : String)

/-- The loop on one of the dictionaries: an entry is gone exactly when it was queued. -/
private theorem lookup_deleteAll {β : Type} {d : DictRef} {view : Framework → Dict β}
    (hview : ∀ de f, view (DeleteElement.delete de f) =
      if de.dict = d then (view f).erase de.key else view f) :
    (view (deleteAll des f)).lookup k = if ⟨d, k⟩ ∈ des then none else (view f).lookup k := by
  induction des generalizing f with
  | nil => simp [deleteAll]
  | cons de des ih =>
    refine (ih (de.delete f)).trans ?_
    have heq : (⟨d, k⟩ : DeleteElement) = de ↔ de.dict = d ∧ k = de.key := by
      obtain ⟨d', k'⟩ := de
      rw [DeleteElement.mk.injEq, eq_comm (a := d)]
    rw [hview, lookup_erase_ite]
    simp only [List.mem_cons, heq]
    by_cases hm : ⟨d, k⟩ ∈ des
    · simp [hm]
    · simp [hm]

theorem lookup_tasks_deleteAll : (deleteAll des f).tasks.lookup k =
    if ⟨.tasks, k⟩ ∈ des then none else f.tasks.lookup k :=
  lookup_deleteAll des f k DeleteElement.tasks_delete

theorem lookup_slaves_deleteAll : (deleteAll des f).slaves.lookup k =
    if ⟨.slaves, k⟩ ∈ des then none else f.slaves.lookup k :=
  lookup_deleteAll des f k DeleteElement.slaves_delete

theorem lookup_offers_deleteAll : (deleteAll des f).offers.lookup k =
    if ⟨.offers, k⟩ ∈ des then none else f.offers.lookup k :=
  lookup_deleteAll des f k DeleteElement.offers_delete

theorem config_deleteAll : (deleteAll des f).config = f.config := by
  induction des generalizing f with
  | nil => rfl
  | cons de des ih => exact (ih (de.delete f)).trans (de.config_delete f)

theorem jobIds_deleteAll : (deleteAll des f).jobIds = f.jobIds := by
  induction des generalizing f with
  | nil => rfl
  | cons de des ih => exact (ih (de.delete f)).trans (de.jobIds_delete f)

end DeleteAll

end Urb
