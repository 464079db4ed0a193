import Mathlib.Data.List.Basic

/-!
# Computations that may fail

Lemmas about `Except` for computations that go over a list.
-/

namespace Except

variable {ε α β : Type} {f : α → Except ε β} {x : Except ε α}

theorem bind_eq_ok_iff {b : β} : (x >>= f) = .ok b ↔ ∃ a, x = .ok a ∧ f a = .ok b := by
  cases x with
  | error e => simp [bind, Except.bind]
  | ok a => simp [bind, Except.bind]

theorem map_eq_ok_iff {f : α → β} {b : β} : f <$> x = .ok b ↔ ∃ a, x = .ok a ∧ f a = b := by
  cases x with
  | error e => simp [Functor.map, Except.map]
  | ok a => simp [Functor.map, Except.map]

/-- The results of the computations on the elements, where they succeed. -/
def results (f : α → Except ε β) (l : List α) : List β := l.filterMap fun a => (f a).toOption

/-- `mapM` succeeds if all computations do, and returns their results. -/
theorem mapM_eq_ok_iff {l : List α} {r : List β} :
    l.mapM f = .ok r ↔ (∀ a ∈ l, ∃ b, f a = .ok b) ∧ r = results f l := by
  induction l generalizing r with
  | nil =>
    simp only [List.mapM_nil, List.not_mem_nil, false_implies, implies_true, true_and]
    show Except.ok [] = Except.ok r ↔ r = []
    rw [Except.ok.injEq, eq_comm]
  | cons a l ih =>
    rw [List.mapM_cons, bind_eq_ok_iff]
    cases h : f a with
    | error e => simp [h]
    | ok b =>
      have hresults : results f (a :: l) = b :: results f l := by simp [results, h, Except.toOption]
      simp only [bind_eq_ok_iff, ih, hresults, List.forall_mem_cons, h, Except.ok.injEq,
        exists_eq', true_and]
      constructor
      · rintro ⟨b', rfl, r', ⟨hall, rfl⟩, hr⟩
        exact ⟨hall, (Except.ok.inj hr).symm⟩
      · rintro ⟨hall, rfl⟩
        exact ⟨b, rfl, results f l, ⟨hall, rfl⟩, rfl⟩

/-- What relates the state to the rest of the list holds when the loop has ended. -/
theorem foldlM_invariant {f : β → α → Except ε β} {P : List α → β → Prop} {l : List α} {b : β}
    (hstep : ∀ a l b, P (a :: l) b → ∃ b', f b a = .ok b' ∧ P l b') (h : P l b) :
    ∃ b', l.foldlM f b = .ok b' ∧ P [] b' := by
  induction l generalizing b with
  | nil => exact ⟨b, rfl, h⟩
  | cons a l ih =>
    obtain ⟨b1, hb1, h1⟩ := hstep a l b h
    obtain ⟨b', hb', h'⟩ := ih h1
    refine ⟨b', ?_, h'⟩
    rw [List.foldlM_cons, hb1]
    exact hb'

end Except
