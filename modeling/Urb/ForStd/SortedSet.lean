import Mathlib.Data.List.Sort
import Mathlib.Order.Defs.LinearOrder

/-!
# Sorted sets

A finite set kept as a sorted list, with the search for the place of an element. The neighbours of
an element are found from `bisect`, the number of elements that are not above it
(`neighbors_fst`, `neighbors_snd`).
-/

/-- A sorted list without repetitions. -/
structure SortedSet (α : Type*) [LinearOrder α] where
  toList : List α := []
  sorted : toList.Pairwise (· < ·) := by exact .nil

namespace SortedSet

variable {α : Type*} [LinearOrder α] {s : SortedSet α} {e x : α} {l : List α}

instance : Membership α (SortedSet α) := ⟨fun s e => e ∈ s.toList⟩

theorem mem_def : e ∈ s ↔ e ∈ s.toList := Iff.rfl

instance (e : α) (s : SortedSet α) : Decidable (e ∈ s) :=
  inferInstanceAs (Decidable (e ∈ s.toList))

theorem pairwise_orderedInsert (hl : l.Pairwise (· < ·)) (he : e ∉ l) :
    (l.orderedInsert (· ≤ ·) e).Pairwise (· < ·) := by
  induction l with
  | nil => exact List.pairwise_singleton _ _
  | cons a l ih =>
    obtain ⟨ha, hl⟩ := List.pairwise_cons.mp hl
    have hne : e ≠ a := fun heq => he (heq ▸ List.mem_cons_self)
    have he : e ∉ l := fun hmem => he (List.mem_cons_of_mem a hmem)
    rw [List.orderedInsert_cons]
    split
    · rename_i hle
      have hlt : e < a := lt_of_le_of_ne hle hne
      refine List.pairwise_cons.mpr ⟨fun b hb => ?_, List.pairwise_cons.mpr ⟨ha, hl⟩⟩
      rcases List.mem_cons.mp hb with rfl | hb
      · exact hlt
      · exact hlt.trans (ha b hb)
    · rename_i hle
      refine List.pairwise_cons.mpr ⟨fun b hb => ?_, ih hl he⟩
      rcases (List.mem_orderedInsert _).mp hb with rfl | hb
      · exact not_le.mp hle
      · exact ha b hb

/-- An element that is there already is not added again. -/
def add (s : SortedSet α) (e : α) : SortedSet α :=
  if h : e ∈ s then s
  else { toList := s.toList.orderedInsert (· ≤ ·) e, sorted := pairwise_orderedInsert s.sorted h }

/-- Take an element out; an element that is not there cannot be taken out. -/
def remove? (s : SortedSet α) (e : α) : Option (SortedSet α) :=
  if e ∈ s then
    some { toList := s.toList.erase e, sorted := s.sorted.sublist List.erase_sublist }
  else none

/-- The place right of all elements that are not above `e`. -/
def bisect (s : SortedSet α) (e : α) : Nat := (s.toList.takeWhile (· ≤ e)).length

@[simp] theorem mem_add : x ∈ s.add e ↔ x = e ∨ x ∈ s := by
  rw [add]
  split
  · rename_i h
    constructor
    · exact Or.inr
    · rintro (rfl | hx)
      · exact h
      · exact hx
  · exact List.mem_orderedInsert _

theorem mem_of_remove? {s' : SortedSet α} (h : s.remove? e = some s') : x ∈ s' ↔ x ≠ e ∧ x ∈ s := by
  rw [remove?] at h
  split at h
  · cases h
    have hnodup : s.toList.Nodup := s.sorted.imp fun h => ne_of_lt h
    exact hnodup.mem_erase_iff
  · cases h

theorem remove?_of_mem (h : e ∈ s) : ∃ s', s.remove? e = some s' := by
  rw [remove?, if_pos h]
  exact ⟨_, rfl⟩

/-- The greatest element that is not above `e`, and the least element above it. -/
def neighbors (s : SortedSet α) (e : α) : Option α × Option α :=
  let idx := s.bisect e
  (if idx = 0 then none else s.toList[idx - 1]?, s.toList[idx]?)

/-- On a sorted list the elements up to `e` are an initial part. -/
theorem takeWhile_eq_filter (hl : l.Pairwise (· < ·)) : l.takeWhile (· ≤ e) = l.filter (· ≤ e) := by
  induction l with
  | nil => rfl
  | cons a l ih =>
    obtain ⟨ha, hl⟩ := List.pairwise_cons.mp hl
    by_cases hle : a ≤ e
    · rw [List.takeWhile_cons_of_pos (by simpa using hle),
        List.filter_cons_of_pos (by simpa using hle), ih hl]
    · rw [List.takeWhile_cons_of_neg (by simpa using hle),
        List.filter_cons_of_neg (by simpa using hle), eq_comm, List.filter_eq_nil_iff]
      intro b hb
      have : e < b := (not_le.mp hle).trans (ha b hb)
      simpa using this

/-- The others are the rest. -/
theorem mem_dropWhile (hl : l.Pairwise (· < ·)) : x ∈ l.dropWhile (· ≤ e) ↔ x ∈ l ∧ e < x := by
  induction l with
  | nil => simp
  | cons a l ih =>
    obtain ⟨ha, hl⟩ := List.pairwise_cons.mp hl
    by_cases hle : a ≤ e
    · rw [List.dropWhile_cons_of_pos (by simpa using hle), ih hl, List.mem_cons]
      constructor
      · exact fun h => ⟨.inr h.1, h.2⟩
      · rintro ⟨rfl | hx, hlt⟩
        · exact absurd hle (not_le.mpr hlt)
        · exact ⟨hx, hlt⟩
    · rw [List.dropWhile_cons_of_neg (by simpa using hle)]
      refine ⟨fun hx => ⟨hx, ?_⟩, fun h => h.1⟩
      rcases List.mem_cons.mp hx with rfl | hx
      · exact not_le.mp hle
      · exact (not_le.mp hle).trans (ha x hx)

theorem head?_eq_some_iff (hl : l.Pairwise (· < ·)) :
    l.head? = some x ↔ x ∈ l ∧ ∀ y ∈ l, x ≤ y := by
  cases l with
  | nil => simp
  | cons a l =>
    have ha : ∀ y ∈ a :: l, a ≤ y := by
      intro y hy
      rcases List.mem_cons.mp hy with rfl | hy
      · exact le_rfl
      · exact ((List.pairwise_cons.mp hl).1 y hy).le
    rw [List.head?_cons, Option.some.injEq]
    constructor
    · rintro rfl
      exact ⟨List.mem_cons_self, ha⟩
    · exact fun h => le_antisymm (ha x h.1) (h.2 a List.mem_cons_self)

theorem getLast?_eq_some_iff (hl : l.Pairwise (· < ·)) :
    l.getLast? = some x ↔ x ∈ l ∧ ∀ y ∈ l, y ≤ x := by
  -- the reversed list is sorted in the dual order
  rw [← List.head?_reverse]
  refine (@head?_eq_some_iff αᵒᵈ _ _ _ (List.pairwise_reverse.mpr hl)).trans ?_
  exact and_congr List.mem_reverse (forall_congr' fun y => imp_congr List.mem_reverse Iff.rfl)

/-- The neighbours are the ends of the two parts. -/
theorem neighbors_eq (s : SortedSet α) (e : α) : s.neighbors e =
    ((s.toList.filter (· ≤ e)).getLast?, (s.toList.dropWhile (· ≤ e)).head?) := by
  have hlist := List.takeWhile_append_dropWhile (p := (· ≤ e)) (l := s.toList)
  rw [← takeWhile_eq_filter s.sorted, neighbors, bisect]
  generalize s.toList.takeWhile (· ≤ e) = low, s.toList.dropWhile (· ≤ e) = high at hlist ⊢
  rw [← hlist, List.getElem?_append_right le_rfl, Nat.sub_self, List.head?_eq_getElem?,
    List.getLast?_eq_getElem?]
  congr 1
  split
  · simp_all
  · rw [List.getElem?_append_left (by omega)]

theorem neighbors_fst : (s.neighbors e).1 = some x ↔ x ∈ s ∧ x ≤ e ∧ ∀ y ∈ s, y ≤ e → y ≤ x := by
  rw [neighbors_eq, getLast?_eq_some_iff (s.sorted.filter _)]
  simp [mem_def, and_assoc]

theorem neighbors_snd : (s.neighbors e).2 = some x ↔ x ∈ s ∧ e < x ∧ ∀ y ∈ s, e < y → x ≤ y := by
  rw [neighbors_eq, head?_eq_some_iff (s.sorted.sublist (List.dropWhile_sublist _))]
  simp [mem_dropWhile s.sorted, mem_def, and_assoc]

theorem exists_neighbors_fst (hx : x ∈ s) (hle : x ≤ e) : ∃ y, (s.neighbors e).1 = some y := by
  have hmem : x ∈ s.toList.filter (· ≤ e) := List.mem_filter.mpr ⟨hx, by simpa using hle⟩
  rw [neighbors_eq]
  exact ⟨_, List.getLast?_eq_some_getLast (List.ne_nil_of_mem hmem)⟩

theorem exists_neighbors_snd (hx : x ∈ s) (hlt : e < x) : ∃ y, (s.neighbors e).2 = some y := by
  have hmem := (mem_dropWhile s.sorted).mpr ⟨hx, hlt⟩
  rw [neighbors_eq]
  exact ⟨_, List.head?_eq_some_head (List.ne_nil_of_mem hmem)⟩

end SortedSet
