import Mathlib.Logic.Relation

/-!
# Runs of a step function

A run of a step function `step : σ → α → σ` is `List.foldl step`. `Run.Meets C`
says that every step of a run meets a condition on the state before it and the
event, and `Run.invariant` carries an invariant that such steps keep along the run.
-/

namespace Run

universe u v

variable {σ : Type u} {α : Type v} {step : σ → α → σ} {as : List α} {s : σ} {D : σ → α → Prop}

variable {Inv P : σ → Prop} {C : σ → α → Prop}

/-- Every step of the run meets the condition, in the state in which it is taken. -/
def Meets (step : σ → α → σ) (C : σ → α → Prop) : σ → List α → Prop
  | _, [] => True
  | s, a :: as => C s a ∧ Meets step C (step s a) as

instance decidableMeets {C : σ → α → Prop} [∀ s a, Decidable (C s a)] :
    ∀ s as, Decidable (Meets step C s as)
  | _, [] => inferInstanceAs (Decidable True)
  | s, a :: as =>
    have : Decidable (Meets step C (step s a) as) := decidableMeets (step s a) as
    inferInstanceAs (Decidable (C s a ∧ Meets step C (step s a) as))

/-- An invariant that every step keeps, given the condition, holds at the end of the run. -/
theorem invariant (hstep : ∀ s a, Inv s → C s a → Inv (step s a))
    (hs : Inv s) (hC : Meets step C s as) : Inv (as.foldl step s) := by
  induction as generalizing s with
  | nil => exact hs
  | cons a as ih =>
    obtain ⟨ha, has⟩ := hC
    exact ih (hstep s a hs ha) has

/-- What a step does, given an invariant and the condition, all steps of the run do. -/
theorem meets_of_invariant (hstep : ∀ s a, Inv s → C s a → Inv (step s a) ∧ D s a)
    (hs : Inv s) (hC : Meets step C s as) : Meets step D s as := by
  induction as generalizing s with
  | nil => trivial
  | cons a as ih =>
    obtain ⟨ha, has⟩ := hC
    obtain ⟨hs', hD⟩ := hstep s a hs ha
    exact ⟨hD, ih hs' has⟩

/-- In a run whose steps meet an assumption, a property that a step keeps exactly if it meets the
    condition holds all along exactly if all steps meet the condition. -/
theorem meets_iff_of {A C : σ → α → Prop} (hinv : ∀ s a, Inv s → A s a → Inv (step s a))
    (hstep : ∀ s a, Inv s → A s a → P s → (P (step s a) ↔ C s a))
    (hs : Inv s) (hP : P s) (hA : Meets step A s as) :
    Meets step (fun s a => P (step s a)) s as ↔ Meets step C s as := by
  induction as generalizing s with
  | nil => exact Iff.rfl
  | cons a as ih =>
    obtain ⟨hAa, hAas⟩ := hA
    have hiff := hstep s a hs hAa hP
    constructor
    · intro ⟨ha, has⟩
      exact ⟨hiff.mp ha, (ih (hinv s a hs hAa) ha hAas).mp has⟩
    · intro ⟨ha, has⟩
      have hP' := hiff.mpr ha
      exact ⟨hP', (ih (hinv s a hs hAa) hP' hAas).mpr has⟩

theorem meets_of_forall (h : ∀ s a, C s a) (s : σ) (as : List α) : Meets step C s as := by
  induction as generalizing s with
  | nil => trivial
  | cons a as ih => exact ⟨h s a, ih (step s a)⟩

/-- A property that a step keeps exactly if it meets the condition holds all along a run exactly
    if all steps meet the condition. -/
theorem meets_iff (hinv : ∀ s a, Inv s → Inv (step s a))
    (hstep : ∀ s a, Inv s → P s → (P (step s a) ↔ C s a))
    (hs : Inv s) (hP : P s) :
    Meets step (fun s a => P (step s a)) s as ↔ Meets step C s as :=
  meets_iff_of (A := fun _ _ => True) (fun s a h _ => hinv s a h) (fun s a h _ => hstep s a h)
    hs hP (meets_of_forall (fun _ _ => trivial) s as)

/-- The same for a property that needs no invariant beside it. -/
theorem meets_iff_self (hstep : ∀ s a, P s → (P (step s a) ↔ C s a)) (hP : P s) :
    Meets step (fun s a => P (step s a)) s as ↔ Meets step C s as :=
  meets_iff_of (A := fun _ _ => True) (fun _ _ _ _ => trivial) (fun s a (_ : True) _ => hstep s a)
    trivial hP (meets_of_forall (fun _ _ => trivial) s as)

/-- Steps that meet the condition keep a property `S`. If a step that keeps the weaker property `P`
    meets the condition, then `P` holds all along a run exactly if all steps meet the condition. -/
theorem meets_iff_of_stronger {I S P : σ → Prop} {C : σ → α → Prop} (hI : ∀ s a, I s → I (step s a))
    (hS : ∀ s a, I s → S s → C s a → S (step s a)) (hSP : ∀ s, I s → S s → P s)
    (hC : ∀ s a, I s → P s → P (step s a) → C s a)
    (hs : I s) (hSs : S s) :
    Meets step (fun s a => P (step s a)) s as ↔ Meets step C s as := by
  constructor
  · have hstep : ∀ s a, I s ∧ P s → P (step s a) → (I (step s a) ∧ P (step s a)) ∧ C s a :=
      fun s a h hP => ⟨⟨hI s a h.1, hP⟩, hC s a h.1 h.2 hP⟩
    exact meets_of_invariant hstep ⟨hs, hSP s hs hSs⟩
  · have hstep : ∀ s a, I s ∧ S s → C s a → (I (step s a) ∧ S (step s a)) ∧ P (step s a) := by
      intro s a h hCs
      have hI' := hI s a h.1
      have hS' := hS s a h.1 h.2 hCs
      exact ⟨⟨hI', hS'⟩, hSP _ hI' hS'⟩
    exact meets_of_invariant hstep ⟨hs, hSs⟩

theorem meets_congr (h : ∀ s a, C s a ↔ D s a) : Meets step C s as ↔ Meets step D s as := by
  induction as generalizing s with
  | nil => exact Iff.rfl
  | cons a as ih => exact and_congr (h s a) ih

theorem meets_and : Meets step (fun s a => C s a ∧ D s a) s as ↔
    Meets step C s as ∧ Meets step D s as := by
  induction as generalizing s with
  | nil => exact (and_self_iff (a := True)).symm
  | cons a as ih =>
    rw [Meets, Meets, Meets, ih]
    exact and_and_and_comm

/-- The condition of a run is the condition of its parts. -/
theorem meets_append {bs : List α} :
    Meets step C s (as ++ bs) ↔ Meets step C s as ∧ Meets step C (as.foldl step s) bs := by
  induction as generalizing s with
  | nil => simp [Meets]
  | cons a as ih => simp only [List.cons_append, Meets, List.foldl_cons, ih, and_assoc]

theorem meets_concat {a : α} :
    Meets step C s (as ++ [a]) ↔ Meets step C s as ∧ C (as.foldl step s) a := by
  rw [meets_append]
  simp only [Meets, and_true]

end Run
