import Mathlib.Data.List.AList

/-!
# Additions to `AList`

Mapping the values of an association list, and lookups after an operation by cases of the key.
-/

namespace AList

universe u v w

variable {α : Type u} {β : Type v} {γ : Type w} {l : AList fun _ : α => β}

/-- Apply a function to all values. -/
def mapVal (g : β → γ) (l : AList fun _ : α => β) : AList fun _ : α => γ :=
  ⟨l.entries.map (.map id fun _ => g), List.NodupKeys.map₂ _ _ l.nodupKeys⟩

@[simp] theorem lookup_mapVal [DecidableEq α] (g : β → γ) (l : AList fun _ : α => β) (a : α) :
    (l.mapVal g).lookup a = (l.lookup a).map g :=
  List.dlookup_map₂ a

theorem keys_mapVal (g : β → γ) (l : AList fun _ : α => β) : (l.mapVal g).keys = l.keys :=
  List.map₂_keys _ _

@[simp] theorem mem_mapVal {g : β → γ} {a : α} : a ∈ l.mapVal g ↔ a ∈ l := by
  rw [AList.mem_keys, AList.mem_keys, keys_mapVal]

@[simp] theorem mapVal_empty (g : β → γ) : (∅ : AList fun _ : α => β).mapVal g = ∅ := rfl

theorem kerase_entries_mapVal [DecidableEq α] (g : β → γ) (l : AList fun _ : α => β) (a : α) :
    (l.mapVal g).entries.kerase a = (l.entries.kerase a).map (.map id fun _ => g) := by
  simp only [mapVal, List.kerase, List.eraseP_map]
  rfl

theorem mapVal_insert [DecidableEq α] (g : β → γ) (l : AList fun _ : α => β) (a : α) (b : β) :
    (l.insert a b).mapVal g = (l.mapVal g).insert a (g b) := by
  apply AList.ext
  show (l.insert a b).entries.map (.map id fun _ => g) = ((l.mapVal g).insert a (g b)).entries
  rw [entries_insert, entries_insert, List.map_cons, kerase_entries_mapVal]
  rfl

theorem mapVal_eq_self_iff [DecidableEq α] {g : β → β} :
    l.mapVal g = l ↔ ∀ a b, l.lookup a = some b → g b = b := by
  constructor
  · intro h a b hb
    have hmap := lookup_mapVal g l a
    rw [h, hb] at hmap
    exact (Option.some.inj hmap).symm
  · intro h
    apply AList.ext
    show l.entries.map (.map id fun _ => g) = l.entries
    refine (List.map_congr_left fun e he => ?_).trans (List.map_id _)
    have hb : g e.2 = e.2 := h e.1 e.2 (mem_lookup_iff.mpr he)
    exact Sigma.ext rfl (heq_of_eq hb)

/-- What is found after an insertion is what was inserted, or it was there. -/
theorem eq_or_lookup_of_insert [DecidableEq α] {a a' : α} {b b' : β}
    (h : (l.insert a b).lookup a' = some b') : a' = a ∧ b' = b ∨ l.lookup a' = some b' := by
  by_cases ha : a' = a
  · subst ha
    rw [lookup_insert] at h
    exact .inl ⟨rfl, (Option.some.inj h).symm⟩
  · rw [lookup_insert_ne ha] at h
    exact .inr h

theorem lookup_insert_eq_ite [DecidableEq α] (l : AList fun _ : α => β) (a a' : α) (b : β) :
    (l.insert a b).lookup a' = if a' = a then some b else l.lookup a' := by
  split
  · next h =>
    subst h
    exact lookup_insert l
  · next h => exact lookup_insert_ne h

theorem lookup_erase_eq_ite [DecidableEq α] (l : AList fun _ : α => β) (a a' : α) :
    (l.erase a).lookup a' = if a' = a then none else l.lookup a' := by
  split
  · next h =>
    subst h
    exact lookup_erase a' l
  · next h => exact lookup_erase_ne h

end AList
