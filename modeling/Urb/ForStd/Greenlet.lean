import Mathlib.Logic.Function.Basic

/-!
# Code of greenlets

Code reduced to what matters for a shared state: the actions on that state, all other
statements, which may raise, the points at which a generator is suspended and may be
closed, and the constructs that catch exceptions. `Stmt.compile` turns such code into a
tree, `Code`, of the next actions and choices.

The tree is run by one greenlet alone (`Code.run`) or by many of them, interleaved in any
order (`System.step`). `Code.Safe` checks a tree against rules for an abstract state of the
greenlet, and `Stmt.wp` is the same check on the code itself (`safe_compile`).
-/

namespace Greenlet

open Function (update update_self update_of_ne update_eq_self)

variable {A L : Type}

/-- How a statement ends: by itself, with an exception, or because the generator is closed. -/
inductive Outcome where
  | normal | raised | closed
  deriving DecidableEq, Repr

/-- What follows a statement: `b` if it ended by itself, else `k`. -/
def onNormal {β : Type} (b : β) (k : Outcome → β) : Outcome → β
  | .normal => b
  | o => k o

/-- What follows a statement: `b` if it raised, else `k`. -/
def onRaised {β : Type} (b : β) (k : Outcome → β) : Outcome → β
  | .raised => b
  | o => k o

theorem apply_onNormal {β γ : Type} (g : β → γ) (b : β) (k : Outcome → β) (o : Outcome) :
    g (onNormal b k o) = onNormal (g b) (fun o => g (k o)) o := by
  cases o <;> rfl

theorem apply_onRaised {β γ : Type} (g : β → γ) (b : β) (k : Outcome → β) (o : Outcome) :
    g (onRaised b k o) = onRaised (g b) (fun o => g (k o)) o := by
  cases o <;> rfl

/-- Code with actions `A` and other statements `L`. -/
inductive Stmt (A L : Type) where
  | skip
  | act (a : A)
  | work (l : L)
  | yield (l : L)
  | seq (s t : Stmt A L)
  | tryExcept (s handler : Stmt A L)
  | tryFinally (s final : Stmt A L)
  | loop (n : Nat) (body : Stmt A L)

/-- What is left to do. An action returns or raises; at a choice the code goes on, or else
    the statement raised or the generator was closed. -/
inductive Code (A L : Type) where
  | done (o : Outcome)
  | act (a : A) (next raised : Code A L)
  | choice (l : L) (next other : Code A L)

/-! ## Control flow -/

/-- At most `n` iterations. -/
def compileLoop (body : (Outcome → Code A L) → Code A L) (k : Outcome → Code A L) :
    Nat → Code A L
  | 0 => k .normal
  | n + 1 => body (onNormal (compileLoop body k n) k)

/-- The code of a statement that is followed by `k`. Closing a generator is not an
    exception that an `except` clause catches, but it does run the `finally` clauses. -/
def Stmt.compile : Stmt A L → (Outcome → Code A L) → Code A L
  | .skip, k => k .normal
  | .act a, k => .act a (k .normal) (k .raised)
  | .work l, k => .choice l (k .normal) (k .raised)
  | .yield l, k => .choice l (k .normal) (k .closed)
  | .seq s t, k => s.compile (onNormal (t.compile k) k)
  | .tryExcept s handler, k => s.compile (onRaised (handler.compile k) k)
  | .tryFinally s final, k => s.compile fun o => final.compile (onNormal (k o) k)
  | .loop n body, k => compileLoop body.compile k n

/-- The code of a whole program. -/
def Stmt.code (s : Stmt A L) : Code A L := s.compile .done

/-- Statements one after the other. -/
def Stmt.works : List L → Stmt A L
  | [] => .skip
  | l :: ls => .seq (.work l) (works ls)

/-! ## Rules for an abstract state -/

/-- What actions and choices do to an abstract state of the greenlet. An action for which
    there is no state must not happen; such a choice is not considered. -/
structure Rules (A L τ : Type) where
  act : A → τ → Option τ
  choose : L → Bool → τ → Option τ

section Safe

variable {τ : Type} (R : Rules A L τ)

/-- All paths through the tree obey the rules and end as required. -/
def Code.Safe (post : Outcome → τ → Prop) : Code A L → τ → Prop
  | .done o, t => post o t
  | .act a next _, t => ∃ t', R.act a t = some t' ∧ next.Safe post t'
  | .choice l next other, t =>
    (∀ t', R.choose l true t = some t' → next.Safe post t') ∧
    (∀ t', R.choose l false t = some t' → other.Safe post t')

def wpLoop (body : (Outcome → τ → Prop) → τ → Prop) (Q : Outcome → τ → Prop) : Nat → τ → Prop
  | 0 => Q .normal
  | n + 1 => body (onNormal (wpLoop body Q n) Q)

/-- The states from which a statement obeys the rules and ends as required. -/
def Stmt.wp : Stmt A L → (Outcome → τ → Prop) → τ → Prop
  | .skip, Q => Q .normal
  | .act a, Q => fun t => ∃ t', R.act a t = some t' ∧ Q .normal t'
  | .work l, Q => fun t =>
    (∀ t', R.choose l true t = some t' → Q .normal t') ∧
    (∀ t', R.choose l false t = some t' → Q .raised t')
  | .yield l, Q => fun t =>
    (∀ t', R.choose l true t = some t' → Q .normal t') ∧
    (∀ t', R.choose l false t = some t' → Q .closed t')
  | .seq s t, Q => s.wp (onNormal (t.wp Q) Q)
  | .tryExcept s handler, Q => s.wp (onRaised (handler.wp Q) Q)
  | .tryFinally s final, Q => s.wp fun o => final.wp (onNormal (Q o) Q)
  | .loop n body, Q => wpLoop body.wp Q n

variable {R}

/-- Checking the tree of a statement is checking the statement. -/
theorem safe_compile {post : Outcome → τ → Prop} (s : Stmt A L) (k : Outcome → Code A L) :
    (s.compile k).Safe R post = s.wp R fun o => (k o).Safe R post := by
  induction s generalizing k with
  | skip => rfl
  | act a => rfl
  | work l => rfl
  | yield l => rfl
  | seq s1 s2 ih1 ih2 =>
    simp only [Stmt.compile, Stmt.wp, ih1, apply_onNormal, ih2]
  | tryExcept s1 s2 ih1 ih2 =>
    simp only [Stmt.compile, Stmt.wp, ih1, apply_onRaised, ih2]
  | tryFinally s1 s2 ih1 ih2 =>
    simp only [Stmt.compile, Stmt.wp, ih1, ih2, apply_onNormal]
  | loop n body ih =>
    -- one iteration of the tree is one iteration of the check
    simp only [Stmt.compile, Stmt.wp]
    induction n with
    | zero => rfl
    | succ n ihn => simp only [compileLoop, wpLoop, ih, apply_onNormal, ihn]

/-- A weaker requirement is met from all states that met the stronger one. -/
theorem Stmt.wp_mono (s : Stmt A L) {Q Q' : Outcome → τ → Prop} (hQ : ∀ o t, Q o t → Q' o t)
    {t : τ} (h : s.wp R Q t) : s.wp R Q' t := by
  have hnormal : ∀ {P P' : τ → Prop} {Q Q' : Outcome → τ → Prop}, (∀ t, P t → P' t) →
      (∀ o t, Q o t → Q' o t) → ∀ o t, onNormal P Q o t → onNormal P' Q' o t := by
    intro P P' Q Q' hP hQ o t ho
    cases o with
    | normal => exact hP t ho
    | raised => exact hQ _ t ho
    | closed => exact hQ _ t ho
  induction s generalizing Q Q' t with
  | skip => exact hQ _ t h
  | act a =>
    obtain ⟨t', ht', hq⟩ := h
    exact ⟨t', ht', hQ _ t' hq⟩
  | work l => exact ⟨fun t' ht' => hQ _ t' (h.1 t' ht'), fun t' ht' => hQ _ t' (h.2 t' ht')⟩
  | yield l => exact ⟨fun t' ht' => hQ _ t' (h.1 t' ht'), fun t' ht' => hQ _ t' (h.2 t' ht')⟩
  | seq s1 s2 ih1 ih2 => exact ih1 (hnormal (fun t => ih2 hQ) hQ) h
  | tryExcept s1 s2 ih1 ih2 =>
    refine ih1 (fun o t ho => ?_) h
    cases o with
    | raised => exact ih2 hQ ho
    | normal => exact hQ _ t ho
    | closed => exact hQ _ t ho
  | tryFinally s1 s2 ih1 ih2 => exact ih1 (fun o t => ih2 (hnormal (hQ o) hQ)) h
  | loop n body ih =>
    simp only [Stmt.wp] at h ⊢
    induction n generalizing t with
    | zero => exact hQ _ t h
    | succ n ihn => exact ih (hnormal (fun t => ihn) hQ) h

/-- A loop keeps what every iteration keeps. -/
theorem Stmt.wp_loop {body : Stmt A L} {Q : Outcome → τ → Prop} {I : τ → Prop}
    (hbody : ∀ t, I t → body.wp R (onNormal I Q) t) (hend : ∀ t, I t → Q .normal t)
    (n : Nat) {t : τ} (ht : I t) : (Stmt.loop n body).wp R Q t := by
  simp only [Stmt.wp]
  induction n generalizing t with
  | zero => exact hend t ht
  | succ n ih =>
    refine body.wp_mono (fun o t' ho => ?_) (hbody t ht)
    cases o with
    | normal => exact ih ho
    | raised => exact ho
    | closed => exact ho

/-- From every state with `P` the statement obeys the rules and ends as required. -/
def Stmt.Ensures (R : Rules A L τ) (P : τ → Prop) (s : Stmt A L) (Q : Outcome → τ → Prop) : Prop :=
  ∀ t, P t → s.wp R Q t

section Ensures

variable {P I : τ → Prop} {Q : Outcome → τ → Prop} {s s' : Stmt A L}

theorem Stmt.Ensures.seq (h : s.Ensures R P (onNormal I Q)) (h' : s'.Ensures R I Q) :
    (Stmt.seq s s').Ensures R P Q := by
  intro t ht
  refine s.wp_mono (fun o t' ho => ?_) (h t ht)
  cases o with
  | normal => exact h' t' ho
  | raised => exact ho
  | closed => exact ho

theorem Stmt.Ensures.tryExcept (h : s.Ensures R P (onRaised I Q)) (h' : s'.Ensures R I Q) :
    (Stmt.tryExcept s s').Ensures R P Q := by
  intro t ht
  refine s.wp_mono (fun o t' ho => ?_) (h t ht)
  cases o with
  | raised => exact h' t' ho
  | normal => exact ho
  | closed => exact ho

/-- If a block always ends in `I`, its `finally` clause starts there. -/
theorem Stmt.Ensures.tryFinally (h : s.Ensures R P fun _ => I)
    (h' : ∀ o, s'.Ensures R I (onNormal (Q o) Q)) : (Stmt.tryFinally s s').Ensures R P Q :=
  fun t ht => s.wp_mono (fun o t' ho => h' o t' ho) (h t ht)

end Ensures

/-! ## Actions that may raise -/

section Obeys

variable {τ : Type} (rule : A → τ → Option τ)

/-- All paths through the tree obey the rules for the actions, those on which an action raises
    included. -/
def Code.Obeys : Code A L → τ → Prop
  | .done _, _ => True
  | .act a next raised, t => ∃ t', rule a t = some t' ∧ next.Obeys t' ∧ raised.Obeys t'
  | .choice _ next other, t => next.Obeys t ∧ other.Obeys t

/-- From every state with `P` the statement obeys the rules. It ends in a state with `Q`. -/
def Stmt.Obeys (P : τ → Prop) (s : Stmt A L) (Q : Outcome → τ → Prop) : Prop :=
  ∀ k : Outcome → Code A L, (∀ o t, Q o t → (k o).Obeys rule t) →
    ∀ t, P t → (s.compile k).Obeys rule t

variable {rule} {P I : τ → Prop} {Q : Outcome → τ → Prop} {s s' : Stmt A L}

namespace Stmt.Obeys

theorem skip (h : ∀ t, P t → Q .normal t) : (Stmt.skip : Stmt A L).Obeys rule P Q :=
  fun _ hk t ht => hk _ t (h t ht)

theorem act {a : A} (h : ∀ t, P t → ∃ t', rule a t = some t' ∧ Q .normal t' ∧ Q .raised t') :
    (Stmt.act a : Stmt A L).Obeys rule P Q := by
  intro k hk t ht
  obtain ⟨t', ht', hnormal, hraised⟩ := h t ht
  exact ⟨t', ht', hk _ t' hnormal, hk _ t' hraised⟩

theorem work {l : L} (hnormal : ∀ t, P t → Q .normal t) (hraised : ∀ t, P t → Q .raised t) :
    (Stmt.work l : Stmt A L).Obeys rule P Q :=
  fun _ hk t ht => ⟨hk _ t (hnormal t ht), hk _ t (hraised t ht)⟩

theorem yield {l : L} (hnormal : ∀ t, P t → Q .normal t) (hclosed : ∀ t, P t → Q .closed t) :
    (Stmt.yield l : Stmt A L).Obeys rule P Q :=
  fun _ hk t ht => ⟨hk _ t (hnormal t ht), hk _ t (hclosed t ht)⟩

theorem seq (h : s.Obeys rule P (onNormal I Q)) (h' : s'.Obeys rule I Q) :
    (Stmt.seq s s').Obeys rule P Q := by
  intro k hk
  apply h
  intro o t ho
  cases o with
  | normal => exact h' k hk t ho
  | raised => exact hk _ t ho
  | closed => exact hk _ t ho

theorem tryExcept (h : s.Obeys rule P (onRaised I Q)) (h' : s'.Obeys rule I Q) :
    (Stmt.tryExcept s s').Obeys rule P Q := by
  intro k hk
  apply h
  intro o t ho
  cases o with
  | raised => exact h' k hk t ho
  | normal => exact hk _ t ho
  | closed => exact hk _ t ho

/-- If a block always ends in `I`, its `finally` clause starts there. -/
theorem tryFinally (h : s.Obeys rule P fun _ => I)
    (h' : ∀ o, s'.Obeys rule I (onNormal (Q o) Q)) : (Stmt.tryFinally s s').Obeys rule P Q := by
  intro k hk
  apply h
  intro o t ho
  refine h' o _ (fun o' t' ho' => ?_) t ho
  cases o' with
  | normal => exact hk _ t' ho'
  | raised => exact hk _ t' ho'
  | closed => exact hk _ t' ho'

/-- A loop keeps what every iteration keeps. -/
theorem loop (n : Nat) (hbody : s.Obeys rule I (onNormal I Q)) (hend : ∀ t, I t → Q .normal t) :
    (Stmt.loop n s).Obeys rule I Q := by
  intro k hk
  simp only [Stmt.compile]
  induction n with
  | zero => exact fun t ht => hk _ t (hend t ht)
  | succ n ih =>
    apply hbody
    intro o t ho
    cases o with
    | normal => exact ih t ho
    | raised => exact hk _ t ho
    | closed => exact hk _ t ho

theorem works (ls : List L) (hnormal : ∀ t, P t → Q .normal t) (hraised : ∀ t, P t → Q .raised t) :
    (Stmt.works ls : Stmt A L).Obeys rule P Q := by
  induction ls with
  | nil => exact skip hnormal
  | cons l ls ih => exact seq (work (fun _ ht => ht) hraised) ih

/-- The code of a whole program. -/
theorem code (h : s.Obeys rule P Q) {t : τ} (ht : P t) : s.code.Obeys rule t :=
  h .done (fun _ _ _ => trivial) t ht

end Stmt.Obeys

/-- All actions of the statement are such ones. -/
def Stmt.Uses (p : A → Prop) : Stmt A L → Prop
  | .skip => True
  | .act a => p a
  | .work _ => True
  | .yield _ => True
  | .seq s t => s.Uses p ∧ t.Uses p
  | .tryExcept s handler => s.Uses p ∧ handler.Uses p
  | .tryFinally s final => s.Uses p ∧ final.Uses p
  | .loop _ body => body.Uses p

theorem Stmt.uses_works (p : A → Prop) (ls : List L) : (Stmt.works ls).Uses p := by
  induction ls with
  | nil => trivial
  | cons l ls ih => exact ⟨trivial, ih⟩

/-- A statement keeps what its actions keep. -/
theorem Stmt.Uses.obeys {p : A → Prop} (h : s.Uses p)
    (hact : ∀ a t, p a → I t → ∃ t', rule a t = some t' ∧ I t') : s.Obeys rule I fun _ => I := by
  have hnormal : (fun _ : Outcome => I) = onNormal I fun _ => I := by
    funext o
    cases o <;> rfl
  have hraised : (fun _ : Outcome => I) = onRaised I fun _ => I := by
    funext o
    cases o <;> rfl
  induction s with
  | skip => exact .skip fun _ ht => ht
  | act a =>
    apply Obeys.act
    intro t ht
    obtain ⟨t', heq, ht'⟩ := hact a t h ht
    exact ⟨t', heq, ht', ht'⟩
  | work l => exact .work (fun _ ht => ht) fun _ ht => ht
  | yield l => exact .yield (fun _ ht => ht) fun _ ht => ht
  | seq s1 s2 ih1 ih2 => exact .seq (hnormal ▸ ih1 h.1) (ih2 h.2)
  | tryExcept s1 s2 ih1 ih2 => exact .tryExcept (hraised ▸ ih1 h.1) (ih2 h.2)
  | tryFinally s1 s2 ih1 ih2 => exact .tryFinally (ih1 h.1) fun _ => hnormal ▸ ih2 h.2
  | loop n body ih => exact .loop n (hnormal ▸ ih h) fun _ ht => ht

end Obeys

/-! ## One greenlet alone -/

/-- Run code alone, with the given choices, by the rules for the abstract state. -/
def Code.run (R : Rules A L τ) : Code A L → τ → List Bool → Option (Outcome × τ)
  | .done o, t, _ => some (o, t)
  | .act a next _, t, bs =>
    match R.act a t with
    | some t' => next.run R t' bs
    | none => none
  | .choice _ _ _, _, [] => none
  | .choice l next other, t, b :: bs =>
    match R.choose l b t with
    | some t' => if b then next.run R t' bs else other.run R t' bs
    | none => none

/-- Code that was checked ends as required. -/
theorem Code.Safe.run {post : Outcome → τ → Prop} {p : Code A L} {t t' : τ} {bs : List Bool}
    {o : Outcome} (h : p.Safe R post t) (hrun : p.run R t bs = some (o, t')) : post o t' := by
  induction p generalizing t bs with
  | done o =>
    simp only [Code.run, Option.some.injEq, Prod.mk.injEq] at hrun
    obtain ⟨rfl, rfl⟩ := hrun
    exact h
  | act a next raised ihn _ =>
    obtain ⟨t1, ht1, hnext⟩ := h
    simp only [Code.run, ht1] at hrun
    exact ihn hnext hrun
  | choice l next other ihn iho =>
    cases bs with
    | nil => simp [Code.run] at hrun
    | cons b bs =>
      simp only [Code.run] at hrun
      cases hc : R.choose l b t with
      | none => simp [hc] at hrun
      | some t1 =>
        simp only [hc] at hrun
        cases b with
        | true => exact ihn (h.1 t1 hc) hrun
        | false => exact iho (h.2 t1 hc) hrun

end Safe

/-! ## Many greenlets -/

/-- What an action does to the shared state: it blocks, returns, or raises. -/
inductive Effect (σ : Type) where
  | blocked
  | ok (s : σ)
  | raised (s : σ)

/-- The action blocks, or ends in a state with `Q`. -/
def Effect.Ends {σ : Type} (Q : σ → Prop) : Effect σ → Prop
  | .blocked => True
  | .ok s => Q s
  | .raised s => Q s

/-- The action blocks, or returns in a state with `Q`. -/
def Effect.Returns {σ : Type} (Q : σ → Prop) : Effect σ → Prop
  | .blocked => True
  | .ok s => Q s
  | .raised _ => False

/-- A shared state, and the code that each greenlet has left. -/
structure System (G σ A L : Type) where
  shared : σ
  code : G → Code A L

/-- An idle greenlet starts some code, or a greenlet takes a step. -/
inductive Move (G A L : Type) where
  | start (g : G) (p : Code A L)
  | step (g : G) (b : Bool)

variable {G σ : Type} [DecidableEq G]

def System.step (exec : G → A → σ → Effect σ) (c : System G σ A L) : Move G A L → System G σ A L
  | .start g p =>
    match c.code g with
    | .done _ => { c with code := update c.code g p }
    | _ => c
  | .step g b =>
    match c.code g with
    | .done _ => c
    | .act a next raised =>
      match exec g a c.shared with
      | .blocked => c
      | .ok s => ⟨s, update c.code g next⟩
      | .raised s => ⟨s, update c.code g raised⟩
    | .choice _ next other =>
      { c with code := update c.code g (if b then next else other) }

section Coherent

variable {τ : Type} {R : Rules A L τ} {post : Outcome → τ → Prop} {Inv : σ → (G → τ) → Prop}
  {C : L → Bool → Prop}

/-- There are abstract states of the greenlets that fit the shared state, and from which the
    code that is left obeys the rules. -/
def System.Coherent (R : Rules A L τ) (post : Outcome → τ → Prop) (Inv : σ → (G → τ) → Prop)
    (c : System G σ A L) : Prop :=
  ∃ t : G → τ, Inv c.shared t ∧ ∀ g, (c.code g).Safe R post (t g)

/-- The code that is started obeys the rules, and the choice that is made is allowed. -/
def System.Allows (R : Rules A L τ) (post : Outcome → τ → Prop) (C : L → Bool → Prop)
    (c : System G σ A L) : Move G A L → Prop
  | .start _ p => ∀ o t, post o t → p.Safe R post t
  | .step g b => ∀ l next other, c.code g = .choice l next other → C l b

theorem safe_update {c : System G σ A L} {t : G → τ} {g : G} {p : Code A L} {t' : τ}
    (ht : ∀ g, (c.code g).Safe R post (t g)) (hp : p.Safe R post t') (g' : G) :
    (update c.code g p g').Safe R post (update t g t' g') := by
  by_cases hg : g' = g
  · subst hg
    rw [update_self, update_self]
    exact hp
  · rw [update_of_ne hg, update_of_ne hg]
    exact ht g'

/-- Every step of an interleaving keeps the invariant, if the actions that the rules allow
    keep it and do not raise. -/
theorem System.Coherent.step {exec : G → A → σ → Effect σ}
    (hact : ∀ s t g a t', Inv s t → R.act a (t g) = some t' →
      (exec g a s).Returns fun s' => Inv s' (update t g t'))
    (hchoose : ∀ l b x, C l b → R.choose l b x = some x)
    {c : System G σ A L} {m : Move G A L} (hc : c.Coherent R post Inv)
    (hm : c.Allows R post C m) : (c.step exec m).Coherent R post Inv := by
  obtain ⟨t, hinv, hsafe⟩ := hc
  cases m with
  | start g p =>
    have hg := hsafe g
    simp only [System.step]
    cases hcode : c.code g with
    | act a next raised => exact ⟨t, hinv, hsafe⟩
    | choice l next other => exact ⟨t, hinv, hsafe⟩
    | done o =>
      rw [hcode] at hg
      refine ⟨t, hinv, fun g' => ?_⟩
      have := safe_update (g := g) hsafe (hm o (t g) hg) g'
      rwa [update_eq_self] at this
  | step g b =>
    have hg := hsafe g
    simp only [System.step]
    cases hcode : c.code g with
    | done o => exact ⟨t, hinv, hsafe⟩
    | act a next raised =>
      rw [hcode] at hg
      obtain ⟨t', ht', hnext⟩ := hg
      have heff := hact c.shared t g a t' hinv ht'
      dsimp only
      cases hexec : exec g a c.shared with
      | blocked => exact ⟨t, hinv, hsafe⟩
      | ok s =>
        rw [hexec] at heff
        exact ⟨update t g t', heff, safe_update hsafe hnext⟩
      | raised s =>
        rw [hexec] at heff
        exact heff.elim
    | choice l next other =>
      rw [hcode] at hg
      have hok := hchoose l b (t g) (hm l next other hcode)
      refine ⟨t, hinv, fun g' => ?_⟩
      have hp : (if b then next else other).Safe R post (t g) := by
        cases b with
        | true => exact hg.1 _ hok
        | false => exact hg.2 _ hok
      have := safe_update (g := g) hsafe hp g'
      rwa [update_eq_self] at this

end Coherent

section Obedient

variable {τ : Type} {rule : A → τ → Option τ} {Inv : σ → (G → τ) → Prop}

/-- There are abstract states of the greenlets that fit the shared state, and from which the
    code that is left obeys the rules for the actions. -/
def System.Obedient (rule : A → τ → Option τ) (Inv : σ → (G → τ) → Prop) (c : System G σ A L) :
    Prop :=
  ∃ t : G → τ, Inv c.shared t ∧ ∀ g, (c.code g).Obeys rule (t g)

theorem obeys_update {c : System G σ A L} {t : G → τ} {g : G} {p : Code A L} {t' : τ}
    (ht : ∀ g, (c.code g).Obeys rule (t g)) (hp : p.Obeys rule t') (g' : G) :
    (update c.code g p g').Obeys rule (update t g t' g') := by
  by_cases hg : g' = g
  · subst hg
    rw [update_self, update_self]
    exact hp
  · rw [update_of_ne hg, update_of_ne hg]
    exact ht g'

/-- Every step of an interleaving keeps the invariant, if the actions that the rules allow keep
    it. -/
theorem System.Obedient.step {exec : G → A → σ → Effect σ}
    (hact : ∀ s t g a t', Inv s t → rule a (t g) = some t' →
      (exec g a s).Ends fun s' => Inv s' (update t g t'))
    {c : System G σ A L} {m : Move G A L} (hc : c.Obedient rule Inv)
    (hstart : ∀ g p, m = .start g p → ∀ t, Inv c.shared t → p.Obeys rule (t g)) :
    (c.step exec m).Obedient rule Inv := by
  obtain ⟨t, hinv, hobeys⟩ := hc
  cases m with
  | start g p =>
    simp only [System.step]
    cases hcode : c.code g with
    | act a next raised => exact ⟨t, hinv, hobeys⟩
    | choice l next other => exact ⟨t, hinv, hobeys⟩
    | done o =>
      refine ⟨t, hinv, fun g' => ?_⟩
      have := obeys_update (g := g) hobeys (hstart g p rfl t hinv) g'
      rwa [update_eq_self] at this
  | step g b =>
    have hg := hobeys g
    simp only [System.step]
    cases hcode : c.code g with
    | done o => exact ⟨t, hinv, hobeys⟩
    | act a next raised =>
      rw [hcode] at hg
      obtain ⟨t', ht', hnext, hraised⟩ := hg
      have heff := hact c.shared t g a t' hinv ht'
      dsimp only
      cases hexec : exec g a c.shared with
      | blocked => exact ⟨t, hinv, hobeys⟩
      | ok s =>
        rw [hexec] at heff
        exact ⟨update t g t', heff, obeys_update hobeys hnext⟩
      | raised s =>
        rw [hexec] at heff
        exact ⟨update t g t', heff, obeys_update hobeys hraised⟩
    | choice l next other =>
      rw [hcode] at hg
      refine ⟨t, hinv, fun g' => ?_⟩
      have hp : (if b then next else other).Obeys rule (t g) := by
        cases b with
        | true => exact hg.1
        | false => exact hg.2
      have := obeys_update (g := g) hobeys hp g'
      rwa [update_eq_self] at this

end Obedient

end Greenlet
