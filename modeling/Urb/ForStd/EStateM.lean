import Mathlib.Logic.Relation

/-!
# Hoare rules for `EStateM`

A computation of `EStateM ε σ` either returns or raises, and keeps the state
changes made before it raised. This is how Python code mutates objects in place:
an exception does not undo the assignments that came before it.

`EStateM.after` is the state left behind in both cases, `EStateM.Triple` a Hoare
triple with a postcondition for each of the two outcomes, and `EStateM.Keeps`
the triple that only relates the states before and after. `EStateM.Leaves` is the case in
which a part of the state stays as it is, and `EStateM.Stays` a property that a computation keeps
without raising. The `_apply` lemmas run the primitive operations, and are what the model's own
`simp` set is built from.
-/

namespace EStateM

variable {c : Prop}

universe u

variable {ε σ α β : Type u} {f : α → EStateM ε σ β} {s s' : σ} {a : α} {Q' : α → σ → Prop}
    {m : EStateM ε σ α}

variable (x : EStateM ε σ α)

/-- The state a computation leaves behind, whether it returns or raises. -/
def after (m : EStateM ε σ α) (s : σ) : σ :=
  match m s with
  | .ok _ s' => s'
  | .error _ s' => s'

/-- The state of an outcome. -/
def Result.state : EStateM.Result ε σ α → σ
  | .ok _ s => s
  | .error _ s => s

theorem after_eq_state (m : EStateM ε σ α) (s : σ) : m.after s = (m s).state := by
  rw [after]
  cases m s <;> rfl

/-- Whether a computation returned. -/
def Result.returned : EStateM.Result ε σ α → Bool
  | .ok _ _ => true
  | .error _ _ => false

/-- A command that returns leaves the state `after` it. -/
theorem eq_ok_of_returned {m : EStateM ε σ PUnit} (h : (m s).returned = true) :
    m s = .ok ⟨⟩ (m.after s) := by
  rw [after]
  cases hm : m s with
  | ok a s' => rfl
  | error e s' =>
    rw [hm] at h
    cases h

/-! ## Running the primitive operations -/

theorem pure_apply (a : α) (s : σ) : (pure a : EStateM ε σ α) s = .ok a s := rfl

theorem bind_apply (f : α → EStateM ε σ β) (s : σ) : (x >>= f) s = match x s with
      | .ok a s' => f a s'
      | .error e s' => .error e s' := rfl

theorem get_apply (s : σ) : (get : EStateM ε σ σ) s = .ok s s := rfl

theorem modify_apply (f : σ → σ) (s : σ) : (modify f : EStateM ε σ PUnit) s = .ok ⟨⟩ (f s) := rfl

theorem set_apply (s' s : σ) : (set s' : EStateM ε σ PUnit) s = .ok ⟨⟩ s' := rfl

theorem throw_apply (e : ε) (s : σ) : (throw e : EStateM ε σ α) s = .error e s := rfl

/-- An exception is handled in the state in which it was raised. -/
theorem tryCatch_apply (f : ε → EStateM ε σ α) (s : σ) : (tryCatch x f) s = match x s with
      | .ok a s' => .ok a s'
      | .error e s' => f e s' := by
  change EStateM.tryCatch x f s = _
  delta EStateM.tryCatch
  dsimp only
  cases x s <;> rfl

theorem after_of_ok (h : m s = .ok a s') : m.after s = s' := by
  simp only [after, h]

theorem after_of_error {e : ε} (h : m s = .error e s') : m.after s = s' := by
  simp only [after, h]

/-- A sequence returns exactly when both of its parts do. -/
theorem bind_eq_ok {x : EStateM ε σ α} {b : β} :
    (x >>= f) s = .ok b s' ↔ ∃ a s1, x s = .ok a s1 ∧ f a s1 = .ok b s' := by
  rw [bind_apply]
  cases x s with
  | ok a s1 =>
    constructor
    · intro h; exact ⟨a, s1, rfl, h⟩
    · rintro ⟨a', s2, h, hf⟩; cases h; exact hf
  | error e s1 => simp

theorem after_bind (f : α → EStateM ε σ β) (s : σ) : (x >>= f).after s = match x s with
      | .ok a s' => (f a).after s'
      | .error _ s' => s' := by
  simp only [after, bind_apply]
  cases x s <;> rfl

/-- A sequence is left by its second part if the first one returns. -/
theorem after_bind_of_ok {x : EStateM ε σ α}
    (h : x s = .ok a s') : (x >>= f).after s = (f a).after s' := by
  rw [after_bind, h]

/-- A sequence is left by its first part if that raises, and by its second part otherwise. -/
theorem after_bind_cases {x : EStateM ε σ α} {p : σ → Prop}
    (hok : ∀ a s', x s = .ok a s' → p ((f a).after s'))
    (herror : ∀ e s', x s = .error e s' → p s') : p ((x >>= f).after s) := by
  rw [after_bind]
  cases h : x s with
  | ok a s' => exact hok a s' h
  | error e s' => exact herror e s' h

theorem after_map (f : α → β) (x : EStateM ε σ α) (s : σ) : (f <$> x).after s = x.after s := by
  rw [← bind_pure_comp, after_bind, after]
  cases x s <;> rfl

/-- Returning a value after a computation leaves the state of the computation. -/
theorem after_bind_pure (b : β) (s : σ) : (x >>= fun _ => pure b).after s = x.after s := by
  rw [after_bind, after]
  cases x s <;> rfl

/-! ## Triples -/

/-- From a state with `P` the computation either returns `a` in a state with
    `Q a`, or raises in a state with `E`. -/
def Triple (P : σ → Prop) (m : EStateM ε σ α) (Q : α → σ → Prop) (E : σ → Prop) : Prop :=
  ∀ s, P s → match m s with
    | .ok a s' => Q a s'
    | .error _ s' => E s'

variable {P P' : σ → Prop} {E E' : σ → Prop}

variable {m : EStateM ε σ α} {Q : α → σ → Prop}

theorem Triple.pure (h : ∀ s, P s → Q a s) : Triple P (Pure.pure a : EStateM ε σ α) Q E := h

theorem Triple.throw {e : ε} (h : ∀ s, P s → E s) :
    Triple P (MonadExcept.throw e : EStateM ε σ α) Q E := h

theorem Triple.modify {Q : PUnit → σ → Prop} {f : σ → σ} (h : ∀ s, P s → Q ⟨⟩ (f s)) :
    Triple P (modify f : EStateM ε σ PUnit) Q E := h

theorem Triple.set {Q : PUnit → σ → Prop} (h : ∀ s, P s → Q ⟨⟩ s') :
    Triple P (MonadStateOf.set s' : EStateM ε σ PUnit) Q E := h

theorem Triple.bind {x : EStateM ε σ α} {R : α → σ → Prop}
    {Q : β → σ → Prop} (hx : Triple P x R E) (hf : ∀ a, Triple (R a) (f a) Q E) :
    Triple P (x >>= f) Q E := by
  intro s hs
  have hx := hx s hs
  rw [bind_apply]
  cases h : x s with
  | ok a s1 => simp only [h] at hx ⊢; exact hf a s1 hx
  | error e s1 => simp only [h] at hx ⊢; exact hx

/-- Reading the state first makes the state read known to the rest. -/
theorem Triple.get_bind {f : σ → EStateM ε σ β} {Q : β → σ → Prop}
    (hf : ∀ s, P s → Triple (fun s' => s' = s) (f s) Q E) :
    Triple P (get >>= f) Q E := by
  intro s hs
  exact hf s hs s rfl

theorem Triple.weaken (h : Triple P m Q E)
    (hP : ∀ s, P' s → P s) (hQ : ∀ a s, Q a s → Q' a s) (hE : ∀ s, E s → E' s) :
    Triple P' m Q' E' := by
  intro s hs
  have := h s (hP s hs)
  cases hm : m s with
  | ok a s1 => simp only [hm] at this ⊢; exact hQ a s1 this
  | error e s1 => simp only [hm] at this ⊢; exact hE s1 this

theorem Triple.ite [Decidable c] {x y : EStateM ε σ α} {Q : α → σ → Prop}
    (hx : c → Triple P x Q E) (hy : ¬c → Triple P y Q E) :
    Triple P (if c then x else y) Q E := by
  split
  · exact hx ‹_›
  · exact hy ‹_›

theorem Triple.and (h : Triple P m Q E) (h' : Triple P m Q' E') :
    Triple P m (fun a s => Q a s ∧ Q' a s) (fun s => E s ∧ E' s) := by
  intro s hs
  have h1 := h s hs
  have h2 := h' s hs
  cases hm : m s with
  | ok a s1 => simp only [hm] at h1 h2 ⊢; exact ⟨h1, h2⟩
  | error e s1 => simp only [hm] at h1 h2 ⊢; exact ⟨h1, h2⟩

/-- An invariant of every outcome is an invariant of the state left behind. -/
theorem Triple.after (h : Triple P m (fun _ => E) E) (hs : P s) : E (m.after s) := by
  have := h s hs
  simp only [EStateM.after]
  cases hm : m s with
  | ok a s1 => simp only [hm] at this ⊢; exact this
  | error e s1 => simp only [hm] at this ⊢; exact this

/-- What holds of the state left behind holds in every outcome. -/
theorem Triple.of_after (h : ∀ s, P s → E (m.after s)) : Triple P m (fun _ => E) E := by
  intro s hs
  have := h s hs
  simp only [EStateM.after] at this
  cases hm : m s with
  | ok a s1 => simp only [hm] at this ⊢; exact this
  | error e s1 => simp only [hm] at this ⊢; exact this

/-- A computation that cannot raise returns. -/
theorem Triple.eq_ok (h : Triple P m Q (fun _ => False))
    (hs : P s) : ∃ a s', m s = .ok a s' ∧ Q a s' := by
  have h := h s hs
  cases hm : m s with
  | ok a s' => exact ⟨a, s', rfl, by simpa only [hm] using h⟩
  | error e s' => simp only [hm] at h

/-! ## Relations between the states before and after -/

/-- The computation relates the state it starts in to the state it leaves. -/
def Keeps (R : σ → σ → Prop) (m : EStateM ε σ α) : Prop :=
  ∀ s, R s (m.after s)

variable {R : σ → σ → Prop}

/-- Reading the state first makes the state read known to the rest. -/
theorem Keeps.get_bind {f : σ → EStateM ε σ β} (h : ∀ s, R s ((f s).after s)) :
    Keeps R (MonadState.get >>= f) := h

theorem Keeps.modify {f : σ → σ} (h : ∀ s, R s (f s)) : Keeps R (modify f : EStateM ε σ PUnit) := h

/-- A sequence composes what its parts keep; the first part alone has to do if it raises. -/
theorem Keeps.seq {R' T : σ → σ → Prop} (hcomp : ∀ a b c, R a b → R' b c → T a c)
    (hraise : ∀ a b, R a b → T a b) {x : EStateM ε σ α}
    (hx : Keeps R x) (hf : ∀ a, Keeps R' (f a)) : Keeps T (x >>= f) := by
  intro s
  have hx := hx s
  apply after_bind_cases
  · intro a s1 h
    rw [after_of_ok h] at hx
    exact hcomp _ _ _ hx (hf a s1)
  · intro e s1 h
    rw [after_of_error h] at hx
    exact hraise _ _ hx

/-- A relation that every step keeps is kept by code that is made of such steps. -/
theorem Keeps.of_steps {S : σ → σ → Prop} {m : EStateM ε σ α} (hrefl : ∀ s, R s s)
    (htrans : ∀ a b c, R a b → R b c → R a c) (hstep : ∀ a b, S a b → R a b)
    (h : Keeps (Relation.ReflTransGen S) m) : Keeps R m := by
  intro s
  have hsteps := h s
  generalize m.after s = s' at hsteps
  induction hsteps with
  | refl => exact hrefl s
  | tail _ hlast ih => exact htrans _ _ _ ih (hstep _ _ hlast)

theorem Keeps.ite [Decidable c] {x y : EStateM ε σ α}
    (hx : Keeps R x) (hy : Keeps R y) : Keeps R (if c then x else y) := by
  split
  · exact hx
  · exact hy

section Preorder

variable [IsPreorder σ R]

theorem Keeps.pure (a : α) : Keeps R (Pure.pure a : EStateM ε σ α) := fun s => refl_of R s

theorem Keeps.throw (e : ε) : Keeps R (MonadExcept.throw e : EStateM ε σ α) := fun s => refl_of R s

theorem Keeps.get : Keeps R (MonadState.get : EStateM ε σ σ) := fun s => refl_of R s

theorem Keeps.bind {x : EStateM ε σ α} (hx : Keeps R x) (hf : ∀ a, Keeps R (f a)) :
    Keeps R (x >>= f) :=
  hx.seq (IsTrans.trans (r := R)) (fun _ _ h => h) hf

end Preorder

/-! ## Parts of the state that a computation leaves alone -/

/-- The computation does not change this part of the state. -/
def Leaves {τ : Type u} (part : σ → τ) (m : EStateM ε σ α) : Prop :=
  Keeps (fun s s' => part s' = part s) m

section Leaves

variable {τ : Type u} {part : σ → τ}

theorem Leaves.pure (a : α) : Leaves part (Pure.pure a : EStateM ε σ α) := fun _ => rfl

theorem Leaves.throw (e : ε) : Leaves part (MonadExcept.throw e : EStateM ε σ α) := fun _ => rfl

theorem Leaves.get : Leaves part (MonadState.get : EStateM ε σ σ) := fun _ => rfl

theorem Leaves.modify {f : σ → σ} (h : ∀ s, part (f s) = part s) :
    Leaves part (modify f : EStateM ε σ PUnit) := h

theorem Leaves.bind {x : EStateM ε σ α} (hx : Leaves part x)
    (hf : ∀ a, Leaves part (f a)) : Leaves part (x >>= f) :=
  Keeps.seq (fun _ _ _ h h' => h'.trans h) (fun _ _ h => h) hx hf

theorem Leaves.ite [Decidable c] {x y : EStateM ε σ α} (hx : Leaves part x)
    (hy : Leaves part y) : Leaves part (if c then x else y) := Keeps.ite hx hy

/-- A computation that returns leaves the part as it was. -/
theorem Leaves.of_ok {m : EStateM ε σ α} (h : Leaves part m)
    (hm : m s = .ok a s') : part s' = part s := by
  rw [← after_of_ok hm]
  exact h s

end Leaves

/-! ## Computations that return and keep a property of the state -/

/-- From a state with the property the computation returns, and the property still holds. -/
def Stays (P : σ → Prop) (m : EStateM ε σ α) : Prop :=
  Triple P m (fun _ => P) (fun _ => False)

section Stays

variable {P : σ → Prop}

theorem Stays.pure (a : α) : Stays P (Pure.pure a : EStateM ε σ α) := fun _ h => h

theorem Stays.modify {f : σ → σ} (h : ∀ s, P s → P (f s)) :
    Stays P (modify f : EStateM ε σ PUnit) := h

theorem Stays.bind {x : EStateM ε σ α} (hx : Stays P x)
    (hf : ∀ a, Stays P (f a)) : Stays P (x >>= f) := Triple.bind hx hf

theorem Stays.get_bind {f : σ → EStateM ε σ β} (hf : ∀ s, P s → Stays P (f s)) :
    Stays P (MonadState.get >>= f) := fun s hs => hf s hs s hs

theorem Stays.ite [Decidable c] {x y : EStateM ε σ α} (hx : c → Stays P x)
    (hy : ¬c → Stays P y) : Stays P (if c then x else y) := Triple.ite hx hy

/-- The rule for a computation that stays, where others may raise. -/
theorem Stays.triple {m : EStateM ε σ α} (h : Stays P m) : Triple P m (fun _ => P) E :=
  Triple.weaken h (fun _ h => h) (fun _ _ h => h) fun _ h => h.elim

/-- A property of a part of the state stays if the part does. -/
theorem Stays.of_part {τ : Type u} {part : σ → τ} {Q : τ → Prop} {m : EStateM ε σ α}
    (h : ∀ r, Q r → Stays (part · = r) m) : Stays (fun s => Q (part s)) m := by
  intro s hs
  have hm := h (part s) hs s rfl
  cases hrun : m s with
  | ok a s' =>
    simp only [hrun] at hm ⊢
    rw [hm]
    exact hs
  | error e s' => simp only [hrun] at hm

end Stays

/-! ## Computations that are alike

Two computations are alike for a view of the state when, from states with the same view,
they return or raise the same and leave states with the same view. -/

/-- The outcome, as far as the view shows it. -/
def Result.view {τ : Type u} (N : σ → τ) : EStateM.Result ε σ α → EStateM.Result ε τ α
  | .ok a s => .ok a (N s)
  | .error e s => .error e (N s)

def Alike {τ : Type u} (N : σ → τ) (x y : EStateM ε σ α) : Prop :=
  ∀ s1 s2, N s1 = N s2 → (x s1).view N = (y s2).view N

section Alike

variable {τ : Type u} {N : σ → τ}

theorem Alike.pure (a : α) : Alike N (Pure.pure a : EStateM ε σ α) (Pure.pure a) := by
  intro s1 s2 h
  exact congrArg (Result.ok a) h

theorem Alike.throw (e : ε) :
    Alike N (MonadExcept.throw e : EStateM ε σ α) (MonadExcept.throw e) := by
  intro s1 s2 h
  exact congrArg (Result.error e) h

theorem Alike.modify {f g : σ → σ} (h : ∀ s1 s2, N s1 = N s2 → N (f s1) = N (g s2)) :
    Alike N (modify f : EStateM ε σ PUnit) (modify g) := by
  intro s1 s2 hs
  exact congrArg (Result.ok PUnit.unit) (h s1 s2 hs)

theorem Alike.bind {x y : EStateM ε σ α} {g : α → EStateM ε σ β} (hx : Alike N x y)
    (hf : ∀ a, Alike N (f a) (g a)) : Alike N (x >>= f) (y >>= g) := by
  intro s1 s2 h
  have hx := hx s1 s2 h
  rw [bind_apply, bind_apply]
  cases hr1 : x s1 with
  | ok a t1 =>
    cases hr2 : y s2 with
    | ok b t2 =>
      simp only [hr1, hr2, Result.view, Result.ok.injEq] at hx
      obtain ⟨rfl, ht⟩ := hx
      exact hf a t1 t2 ht
    | error e t2 => simp [hr1, hr2, Result.view] at hx
  | error e t1 =>
    cases hr2 : y s2 with
    | ok b t2 => simp [hr1, hr2, Result.view] at hx
    | error e' t2 =>
      simpa only [hr1, hr2, Result.view, Result.error.injEq] using hx

/-- What is read from the state may differ as far as the view does not show it. -/
theorem Alike.get_bind {f g : σ → EStateM ε σ β}
    (hf : ∀ s1 s2, N s1 = N s2 → Alike N (f s1) (g s2)) :
    Alike N (MonadState.get >>= f) (MonadState.get >>= g) := by
  intro s1 s2 h
  exact hf s1 s2 h s1 s2 h

theorem Alike.ite [Decidable c] {x y x' y' : EStateM ε σ α} (hx : Alike N x x')
    (hy : Alike N y y') : Alike N (if c then x else y) (if c then x' else y') := by
  split
  · exact hx
  · exact hy

theorem Alike.after {x y : EStateM ε σ α} (h : Alike N x y) {s1 s2 : σ} (hs : N s1 = N s2) :
    N (x.after s1) = N (y.after s2) := by
  have h := h s1 s2 hs
  rw [after_eq_state, after_eq_state]
  cases hr1 : x s1 with
  | ok a t1 =>
    cases hr2 : y s2 with
    | ok b t2 => simp only [hr1, hr2, Result.view, Result.ok.injEq] at h; exact h.2
    | error e t2 => simp [hr1, hr2, Result.view] at h
  | error e t1 =>
    cases hr2 : y s2 with
    | ok b t2 => simp [hr1, hr2, Result.view] at h
    | error e' t2 => simp only [hr1, hr2, Result.view, Result.error.injEq] at h; exact h.2

end Alike

end EStateM
