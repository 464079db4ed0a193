import Mathlib.Data.List.Nodup

/-!
# Maps that keep the order of insertion

`LinkedHashMap κ ν` is the map of the `stout` library: a list of entries in which no key occurs
twice. A new key goes to the end, and a key that is there keeps its place when it gets another
value.

In a map whose values name their keys (`Keyed`), everything can be said in terms of the list of
values: it grows at its end when a new key is set, and an erased key is filtered out of it.
-/

universe u v

/-- A map that keeps the order of insertion. -/
structure LinkedHashMap (κ : Type u) (ν : Type v) where
  entries : List (κ × ν)
  nodup : (entries.map Prod.fst).Nodup

namespace LinkedHashMap

variable {κ : Type u} {ν : Type v}

variable {m : LinkedHashMap κ ν} {k : κ}

instance : EmptyCollection (LinkedHashMap κ ν) := ⟨⟨[], List.nodup_nil⟩⟩

def keys (m : LinkedHashMap κ ν) : List κ := m.entries.map Prod.fst

def values (m : LinkedHashMap κ ν) : List ν := m.entries.map Prod.snd

instance : Membership κ (LinkedHashMap κ ν) := ⟨fun m k => k ∈ m.keys⟩

theorem mem_def : k ∈ m ↔ k ∈ m.keys := Iff.rfl

variable [DecidableEq κ]

instance (k : κ) (m : LinkedHashMap κ ν) : Decidable (k ∈ m) :=
  inferInstanceAs (Decidable (k ∈ m.keys))

def get? (m : LinkedHashMap κ ν) (k : κ) : Option ν :=
  (m.entries.find? fun e => e.1 = k).map Prod.snd

theorem map_fst_replace (l : List (κ × ν)) (k : κ) (v : ν) :
    (l.map fun e => if e.1 = k then (e.1, v) else e).map Prod.fst = l.map Prod.fst := by
  rw [List.map_map]
  apply List.map_congr_left
  intro e _
  simp only [Function.comp_apply]
  split <;> rfl

/-- The value of a key is replaced where it stands. -/
def replace (m : LinkedHashMap κ ν) (k : κ) (v : ν) : LinkedHashMap κ ν where
  entries := m.entries.map fun e => if e.1 = k then (e.1, v) else e
  nodup := (map_fst_replace m.entries k v).symm ▸ m.nodup

/-- A new key is put at the end. -/
def push (m : LinkedHashMap κ ν) (k : κ) (v : ν) (h : k ∉ m) : LinkedHashMap κ ν where
  entries := m.entries ++ [(k, v)]
  nodup := by
    rw [List.map_append, List.nodup_append]
    refine ⟨m.nodup, List.nodup_singleton _, ?_⟩
    intro a ha b hb heq
    rw [List.map_singleton, List.mem_singleton] at hb
    rw [heq, hb] at ha
    exact h ha

/-- `m[k] = v` -/
def set (m : LinkedHashMap κ ν) (k : κ) (v : ν) : LinkedHashMap κ ν :=
  if h : k ∈ m then m.replace k v else m.push k v h

def erase (m : LinkedHashMap κ ν) (k : κ) : LinkedHashMap κ ν where
  entries := m.entries.filter fun e => e.1 ≠ k
  nodup := m.nodup.sublist (List.filter_sublist.map _)

/-- `m[k]`, which puts a default value there if the key is new. -/
def index (m : LinkedHashMap κ ν) (k : κ) (default : ν) : ν × LinkedHashMap κ ν :=
  match m.get? k with
  | some v => (v, m)
  | none => (default, m.set k default)

/-! ## Keys -/

theorem get?_eq_none : m.get? k = none ↔ k ∉ m := by
  simp only [get?, mem_def, keys, Option.map_eq_none_iff, List.find?_eq_none, List.mem_map,
    decide_eq_true_eq]
  constructor
  · intro h ⟨e, he, heq⟩
    exact h e he heq
  · intro h e he heq
    exact h ⟨e, he, heq⟩

@[simp] theorem mem_erase {k' : κ} : k' ∈ m.erase k ↔ k' ∈ m ∧ k' ≠ k := by
  simp only [mem_def, keys, erase, List.mem_map, List.mem_filter, decide_eq_true_eq]
  constructor
  · intro ⟨e, ⟨he, hne⟩, heq⟩
    exact ⟨⟨e, he, heq⟩, heq ▸ hne⟩
  · intro ⟨⟨e, he, heq⟩, hne⟩
    exact ⟨e, ⟨he, heq ▸ hne⟩, heq⟩

/-- The default that `index` puts there is erased with the key. -/
theorem erase_index (m : LinkedHashMap κ ν) (k : κ) (default : ν) :
    (m.index k default).2.erase k = m.erase k := by
  unfold index
  cases h : m.get? k with
  | some v => rfl
  | none =>
    have hk := get?_eq_none.mp h
    simp [set, hk, push, erase]

theorem index_fst (m : LinkedHashMap κ ν) (k : κ) (default : ν) :
    (m.index k default).1 = (m.get? k).getD default := by
  unfold index
  cases m.get? k <;> rfl

/-! ## Values -/

theorem values_set_of_notMem (h : k ∉ m) (v : ν) : (m.set k v).values = m.values ++ [v] := by
  simp [set, h, push, values]

theorem length_values_set_of_mem (h : k ∈ m) (v : ν) :
    (m.set k v).values.length = m.values.length := by
  simp [set, h, replace, values]

omit [DecidableEq κ] in
/-- Every value names its key. -/
def Keyed (key : ν → κ) (m : LinkedHashMap κ ν) : Prop := ∀ e ∈ m.entries, key e.2 = e.1

namespace Keyed

variable {key : ν → κ} {m : LinkedHashMap κ ν}

omit [DecidableEq κ] in
theorem empty : Keyed key (∅ : LinkedHashMap κ ν) := nofun

theorem set (h : Keyed key m) (v : ν) : Keyed key (m.set (key v) v) := by
  unfold LinkedHashMap.set
  split
  · intro e he
    obtain ⟨e', he', rfl⟩ := List.mem_map.mp he
    split
    · rename_i heq
      exact heq.symm
    · exact h e' he'
  · intro e he
    cases List.mem_append.mp he with
    | inl he => exact h e he
    | inr he => rw [List.mem_singleton.mp he]

theorem erase (h : Keyed key m) (k : κ) : Keyed key (m.erase k) :=
  fun e he => h e (List.mem_of_mem_filter he)

omit [DecidableEq κ] in
theorem keys_eq (h : Keyed key m) : m.keys = m.values.map key := by
  unfold keys values
  rw [List.map_map]
  exact List.map_congr_left fun e he => (h e he).symm

omit [DecidableEq κ] in
theorem mem_iff (h : Keyed key m) {k : κ} : k ∈ m ↔ ∃ v ∈ m.values, key v = k := by
  rw [mem_def, h.keys_eq, List.mem_map]

theorem values_erase (h : Keyed key m) (k : κ) :
    (m.erase k).values = m.values.filter fun v => key v ≠ k := by
  unfold values LinkedHashMap.erase
  rw [List.filter_map]
  congr 1
  apply List.filter_congr
  intro e he
  simp [h e he]

theorem get?_eq (h : Keyed key m) (k : κ) : m.get? k = m.values.find? fun v => key v = k := by
  have hfind : ∀ l : List (κ × ν), (∀ e ∈ l, key e.2 = e.1) →
      (l.find? fun e => e.1 = k).map Prod.snd = (l.map Prod.snd).find? fun v => key v = k := by
    intro l hl
    induction l with
    | nil => rfl
    | cons e l ih =>
      have he := hl e List.mem_cons_self
      specialize ih fun e' he' => hl e' (List.mem_cons_of_mem _ he')
      by_cases hk : e.1 = k
      · simp [hk, he]
      · simpa [hk, he] using ih
  exact hfind m.entries h

theorem get?_eq_some_iff (h : Keyed key m) {k : κ} {v : ν} :
    m.get? k = some v ↔ v ∈ m.values ∧ key v = k := by
  rw [h.get?_eq]
  constructor
  · intro hfind
    exact ⟨List.mem_of_find?_eq_some hfind, by simpa using List.find?_some hfind⟩
  · intro ⟨hv, hk⟩
    cases hfind : m.values.find? fun v => key v = k with
    | none =>
      have := List.find?_eq_none.mp hfind v hv
      simp [hk] at this
    | some v' =>
      -- the keys differ, so that the value is the only one with its key
      have hnodup : (m.values.map key).Nodup := h.keys_eq ▸ m.nodup
      have hk' : key v' = k := by simpa using List.find?_some hfind
      rw [List.inj_on_of_nodup_map hnodup (List.mem_of_find?_eq_some hfind) hv (hk'.trans hk.symm)]

theorem values_erase_eq_self_iff (h : Keyed key m) {k : κ} :
    (m.erase k).values = m.values ↔ k ∉ m := by
  rw [h.values_erase, List.filter_eq_self, h.mem_iff]
  simp

theorem values_erase_eq_iff (h : Keyed key m) {k k' : κ} :
    (m.erase k).values = (m.erase k').values ↔ k = k' ∨ k ∉ m ∧ k' ∉ m := by
  constructor
  · intro heq
    have hmem : ∀ k'', k'' ∈ m.erase k ↔ k'' ∈ m.erase k' := fun k'' => by
      rw [(h.erase k).mem_iff, (h.erase k').mem_iff, heq]
    simp only [mem_erase] at hmem
    by_contra hnot
    rw [not_or] at hnot
    have hk := hmem k
    have hk' := hmem k'
    simp only [ne_eq, not_true, and_false, hnot.1, not_false_eq_true, and_true, false_iff,
      Ne.symm hnot.1, iff_false] at hk hk'
    exact hnot.2 ⟨hk, hk'⟩
  · intro hor
    cases hor with
    | inl heq => rw [heq]
    | inr hnot =>
      rw [h.values_erase_eq_self_iff.mpr hnot.1, h.values_erase_eq_self_iff.mpr hnot.2]

end Keyed

end LinkedHashMap
