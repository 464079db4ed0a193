import Mathlib
import Urb.Spec.LockDiscipline

/-!
# Is the lock released on every exit?

An `http_*` method, a callback of the job monitor or an offer loop acquires the lock of
the framework and has to give it back however it ends: by returning, with an exception,
or, for the generator `http_generate_offers`, by being closed. It does so exactly if no
exception was raised, and the generator was not closed, at a statement between the
acquire and the `try` block whose `finally` clause releases the lock. The `http_*`
methods have no such block at all.

A greenlet that lost track of the lock in one iteration of a loop goes on: the lock is
re-entrant, so that the next iteration acquires it again and releases it once.
-/

namespace Urb

variable (k n : Nat) (found : Bool) {t : AloneState} {l : Statement} {goesOn : Bool}

open Greenlet

/-! ## An entry point alone -/

/-- The lock, and what the statements that were executed did: go on, or else raise (or have
    the generator closed). -/
structure AloneState where
  lock : FrameworkLock Unit := {}
  trace : List (Statement × Bool) := []

def AloneState.note (t : AloneState) (l : Statement) (goesOn : Bool) : AloneState :=
  { t with trace := t.trace ++ [(l, goesOn)] }

/-- The only greenlet. An action that blocks or raises must not happen. -/
def aloneRules : Rules LockAction Statement AloneState where
  act a t :=
    match t.lock.exec () a with
    | .ok s => some { t with lock := s }
    | _ => none
  choose l goesOn t := some (t.note l goesOn)

/-- No exception was raised, and the generator was not closed, where nothing would release
    the lock. -/
def Clean (trace : List (Statement × Bool)) : Prop :=
  ∀ l, (l, false) ∈ trace → l.mustReturn = false

/-- The entry points that are not run for a queued request. -/
def LockEntry.isDirect : LockEntry → Bool
  | .queuedRequest .. => false
  | .queuedMessage .. => false
  | .queuedRegistration .. => false
  | .queuedUnregistration .. => false
  | _ => true

/-! ## Where the lock can be -/

/-- Outside of the lock. The lock is free, or was lost before. -/
def Outside (t : AloneState) : Prop :=
  (Clean t.trace ∧ t.lock.owner = none) ∨
  (¬Clean t.trace ∧ t.lock.owner = some () ∧ 1 ≤ t.lock.count)

/-- Under the lock. It is held once, or once more than it was lost. -/
def UnderLock (t : AloneState) : Prop :=
  t.lock.lockAcquired = true ∧ t.lock.owner = some () ∧
  ((Clean t.trace ∧ t.lock.count = 1) ∨ (¬Clean t.trace ∧ 2 ≤ t.lock.count))

theorem clean_note_iff
    (h : goesOn = true ∨ l.mustReturn = false) : Clean (t.note l goesOn).trace ↔ Clean t.trace := by
  constructor
  · intro hc l' hl'
    exact hc l' (List.mem_append_left _ hl')
  · intro hc l' hl'
    rcases List.mem_append.mp hl' with hl' | hl'
    · exact hc l' hl'
    · simp only [List.mem_singleton, Prod.mk.injEq] at hl'
      obtain ⟨rfl, rfl⟩ := hl'
      exact h.resolve_left (by decide)

theorem Outside.note (h : Outside t)
    (hl : goesOn = true ∨ l.mustReturn = false) : Outside (t.note l goesOn) := by
  rw [Outside, clean_note_iff hl]
  exact h

theorem UnderLock.note (h : UnderLock t)
    (hl : goesOn = true ∨ l.mustReturn = false) : UnderLock (t.note l goesOn) := by
  rw [UnderLock, clean_note_iff hl]
  exact h

theorem UnderLock.lose (h : UnderLock t) (hl : l.mustReturn = true) : Outside (t.note l false) := by
  obtain ⟨-, howner, hcount⟩ := h
  have hdirty : ¬Clean (t.note l false).trace := by
    intro hc
    have := hc l (List.mem_append_right _ (List.mem_singleton_self _))
    rw [hl] at this
    cases this
  have hpos : 1 ≤ t.lock.count := by omega
  exact Or.inr ⟨hdirty, howner, hpos⟩

/-! ## Statements -/

section Rules

variable {Q : Outcome → AloneState → Prop}

theorem ensures_store (h : ∀ t, Outside t → Q .normal t) :
    (Stmt.act .storeRequestFrameworkId : LockCode).Ensures aloneRules Outside Q :=
  fun t ht => ⟨{ t with lock := { t.lock with
    requestFramework := Function.update t.lock.requestFramework () true } }, rfl, h _ ht⟩

theorem ensures_acquire (h : ∀ t, UnderLock t → Q .normal t) :
    LockCode.acquire.Ensures aloneRules Outside Q := by
  intro t ht
  let inside := Function.update t.lock.inside () true
  rcases ht with ⟨hclean, howner⟩ | ⟨hdirty, howner, hcount⟩
  · have hact : aloneRules.act .acquireFrameworkLock t = some { t with lock := { t.lock with
        owner := some (), count := 1, lockAcquired := true, inside } } := by
      simp only [aloneRules, FrameworkLock.exec, FrameworkLock.acquireFrameworkLock, howner, inside]
    exact ⟨_, hact, h _ ⟨rfl, rfl, Or.inl ⟨hclean, rfl⟩⟩⟩
  · have hact : aloneRules.act .acquireFrameworkLock t = some { t with lock := { t.lock with
        count := t.lock.count + 1, lockAcquired := true, inside } } := by
      simp only [aloneRules, FrameworkLock.exec, FrameworkLock.acquireFrameworkLock, howner,
        if_true, inside]
    exact ⟨_, hact, h _ ⟨rfl, howner, Or.inr ⟨hdirty, Nat.succ_le_succ hcount⟩⟩⟩

theorem ensures_release (h : ∀ t, Outside t → Q .normal t) :
    LockCode.release.Ensures aloneRules UnderLock Q := by
  intro t ht
  obtain ⟨hflag, howner, hcount⟩ := ht
  let inside := Function.update t.lock.inside () false
  have hact : aloneRules.act .releaseFrameworkLock t = some { t with lock := { t.lock with
      owner := if t.lock.count = 1 then none else some (), count := t.lock.count - 1,
      lockAcquired := false, inside } } := by
    simp only [aloneRules, FrameworkLock.exec, FrameworkLock.releaseFrameworkLock, hflag, howner,
      if_true, inside]
  refine ⟨_, hact, h _ ?_⟩
  rcases hcount with ⟨hclean, hcount⟩ | ⟨hdirty, hcount⟩
  · exact Or.inl ⟨hclean, if_pos hcount⟩
  · have hpos : 1 ≤ t.lock.count - 1 := by omega
    exact Or.inr ⟨hdirty, if_neg (by omega), hpos⟩

theorem wp_work_alone (l : Statement) (Q : Outcome → AloneState → Prop) :
    (Stmt.work l : LockCode).wp aloneRules Q = fun t =>
      Q .normal (t.note l true) ∧ Q .raised (t.note l false) := by
  funext t
  simp [Stmt.wp, aloneRules]

theorem wp_yield_alone (l : Statement) (Q : Outcome → AloneState → Prop) :
    (Stmt.yield l : LockCode).wp aloneRules Q = fun t =>
      Q .normal (t.note l true) ∧ Q .closed (t.note l false) := by
  funext t
  simp [Stmt.wp, aloneRules]

theorem ensures_work {l : Statement} (hl : l.mustReturn = false) (h : ∀ t, Outside t → Q .normal t)
    (hr : ∀ t, Outside t → Q .raised t) :
    (Stmt.work l : LockCode).Ensures aloneRules Outside Q := by
  intro t ht
  rw [wp_work_alone]
  exact ⟨h _ (ht.note (Or.inl rfl)), hr _ (ht.note (Or.inr hl))⟩

theorem ensures_statements {I : AloneState → Prop} (l : Nat → Statement) (n : Nat)
    (hI : ∀ t i b, I t → I (t.note (l i) b)) (h : ∀ t, I t → Q .normal t)
    (hr : ∀ t, I t → Q .raised t) : (LockCode.statements l n).Ensures aloneRules I Q := by
  intro t ht
  rw [LockCode.statements]
  generalize List.range n = is
  induction is generalizing t with
  | nil => exact h t ht
  | cons i is ih =>
    show (Stmt.work (l i) : LockCode).wp aloneRules _ t
    rw [wp_work_alone]
    exact ⟨ih _ (hI t i true ht), hr _ (hI t i false ht)⟩

theorem ensures_statements_mustReturn {l : Nat → Statement} (hl : ∀ i, (l i).mustReturn = true)
    (n : Nat) (h : ∀ t, UnderLock t → Q .normal t) (hr : ∀ t, Outside t → Q .raised t) :
    (LockCode.statements l n).Ensures aloneRules UnderLock Q := by
  intro t ht
  rw [LockCode.statements]
  generalize List.range n = is
  induction is generalizing t with
  | nil => exact h t ht
  | cons i is ih =>
    show (Stmt.work (l i) : LockCode).wp aloneRules _ t
    rw [wp_work_alone]
    exact ⟨ih _ (ht.note (Or.inl rfl)), hr _ (ht.lose (hl i))⟩

end Rules

/-! ## Entry points -/

theorem ensures_outside {Q : Outcome → AloneState → Prop} {l : Nat → Statement}
    (hl : ∀ i, (l i).mustReturn = false) (n : Nat) (h : ∀ t, Outside t → Q .normal t)
    (hr : ∀ t, Outside t → Q .raised t) :
    (LockCode.statements l n).Ensures aloneRules Outside Q :=
  ensures_statements l n (fun _ i _ ht => ht.note (Or.inr (hl i))) h hr

theorem ensures_underLock {Q : Outcome → AloneState → Prop} {l : Nat → Statement}
    (hl : ∀ i, (l i).mustReturn = false) (n : Nat) (h : ∀ t, UnderLock t → Q .normal t)
    (hr : ∀ t, UnderLock t → Q .raised t) :
    (LockCode.statements l n).Ensures aloneRules UnderLock Q :=
  ensures_statements l n (fun _ i _ ht => ht.note (Or.inr (hl i))) h hr

section Entries

variable {Q : Outcome → AloneState → Prop}

theorem ensures_handler (n : Nat) (found : Bool)
    (h : ∀ t, (if found then UnderLock t else Outside t) → Q .normal t)
    (hr : ∀ t, Outside t → Q .raised t) :
    (LockCode.handler .body n found).Ensures aloneRules Outside Q := by
  refine .seq (I := Outside) (ensures_work rfl (fun _ ht => ht) hr) ?_
  refine .seq (I := Outside) (ensures_store fun _ ht => ht) ?_
  cases found with
  | true =>
    exact .seq (I := UnderLock) (ensures_acquire fun _ ht => ht)
      (ensures_statements_mustReturn (fun _ => rfl) n h hr)
  | false => exact ensures_work rfl h hr

theorem ensures_http : (LockCode.http n found).Ensures aloneRules Outside fun _ => Outside := by
  cases found with
  | true =>
    exact .seq (I := UnderLock) (ensures_handler n true (fun _ ht => ht) fun _ ht => ht)
      (ensures_release fun _ ht => ht)
  | false =>
    exact .seq (I := Outside) (ensures_handler n false (fun _ ht => ht) fun _ ht => ht)
      fun _ ht => ht

theorem ensures_httpMessage (httpChannel : Bool) :
    (LockCode.httpMessage n found httpChannel).Ensures aloneRules Outside fun _ => Outside := by
  cases httpChannel with
  | false =>
    -- the same code as that of the other methods
    have heq : LockCode.httpMessage n found false = LockCode.http n found := by
      cases found <;> rfl
    rw [heq]
    exact ensures_http n found
  | true =>
    refine .seq (I := Outside) (.seq (I := Outside) (ensures_work rfl (fun _ ht => ht)
      fun _ ht => ht) (.seq (I := Outside) (ensures_store fun _ ht => ht) ?_)) ?_
    all_goals cases found
    · exact ensures_work rfl (fun _ ht => ht) fun _ ht => ht
    · exact ensures_work rfl (fun _ ht => ht) fun _ ht => ht
    · exact fun _ ht => ht
    · exact fun _ ht => ht

theorem ensures_guarded {s : LockCode} (hs : s.Ensures aloneRules UnderLock fun _ => UnderLock)
    (h : ∀ o t, Outside t → Q o t) :
    (Stmt.tryFinally s LockCode.release).Ensures aloneRules UnderLock Q :=
  .tryFinally hs fun o => ensures_release (h o)

theorem ensures_deleteFramework :
    (LockCode.deleteFramework n found).Ensures aloneRules Outside fun _ => Outside := by
  cases found with
  | true =>
    refine .seq (I := UnderLock) (ensures_acquire fun _ ht => ht)
      (ensures_guarded ?_ fun _ _ ht => ht)
    exact ensures_underLock (fun _ => rfl) n (fun _ ht => ht) fun _ ht => ht
  | false => exact ensures_work rfl (fun _ ht => ht) fun _ ht => ht

theorem ensures_httpShutdown :
    (LockCode.httpShutdown n found).Ensures aloneRules Outside fun _ => Outside := by
  cases found with
  | true =>
    refine .seq (I := UnderLock) (ensures_acquire fun _ ht => ht)
      (ensures_guarded ?_ fun _ _ ht => ht)
    exact .tryExcept (I := UnderLock)
      (ensures_underLock (fun _ => rfl) n (fun _ ht => ht) fun _ ht => ht) fun _ ht => ht
  | false => exact ensures_work rfl (fun _ ht => ht) fun _ ht => ht

theorem ensures_deleteJob :
    (LockCode.deleteJob k n found).Ensures aloneRules Outside fun _ => Outside := by
  cases found with
  | true =>
    refine .seq (I := UnderLock) (ensures_acquire fun _ ht => ht) ?_
    refine .seq (I := UnderLock)
      (ensures_statements_mustReturn (fun _ => rfl) k (fun _ ht => ht) fun _ ht => ht) ?_
    exact ensures_guarded (ensures_underLock (fun _ => rfl) n (fun _ ht => ht) fun _ ht => ht)
      fun _ _ ht => ht
  | false => exact ensures_work rfl (fun _ ht => ht) fun _ ht => ht

theorem ensures_offerIteration (m n p : Nat) :
    (LockCode.offerIteration k m n p).Ensures aloneRules Outside fun _ => Outside := by
  refine .tryExcept (I := Outside) ?_ fun _ ht => ht
  refine .seq (I := Outside) (ensures_outside (fun _ => rfl) k (fun _ ht => ht) fun _ ht => ht) ?_
  refine .seq (I := UnderLock) (ensures_acquire fun _ ht => ht) ?_
  refine .seq (I := UnderLock)
    (ensures_statements_mustReturn (fun _ => rfl) m (fun _ ht => ht) fun _ ht => ht) ?_
  refine .seq (I := Outside) (ensures_guarded ?_ fun o t ht => ?_) ?_
  · exact .tryExcept (I := UnderLock)
      (ensures_underLock (fun _ => rfl) n (fun _ ht => ht) fun _ ht => ht) fun _ ht => ht
  · cases o <;> exact ht
  · exact ensures_outside (fun _ => rfl) p (fun _ ht => ht) fun _ ht => ht

theorem ensures_httpOfferIteration (m n p : Nat) :
    (LockCode.httpOfferIteration k m n p).Ensures aloneRules Outside fun _ => Outside := by
  refine .tryExcept (I := Outside) ?_ fun _ ht => ht
  refine .seq (I := Outside) (ensures_outside (fun _ => rfl) k (fun _ ht => ht) fun _ ht => ht) ?_
  refine .seq (I := UnderLock) (ensures_acquire fun _ ht => ht) ?_
  refine .seq (I := UnderLock)
    (ensures_statements_mustReturn (fun _ => rfl) m (fun _ ht => ht) fun _ ht => ht) ?_
  refine .seq (I := UnderLock) (s := (.yield .heartbeat : LockCode)) (fun t ht => ?_) ?_
  · -- closing the generator here loses the lock
    rw [wp_yield_alone]
    exact ⟨ht.note (Or.inl rfl), ht.lose rfl⟩
  refine .seq (I := Outside) (ensures_guarded ?_ fun o t ht => ?_) ?_
  · refine .tryExcept (I := UnderLock) (.seq (I := UnderLock) (ensures_underLock (fun _ => rfl) n
      (fun _ ht => ht) fun _ ht => ht) fun t ht => ?_) fun _ ht => ht
    rw [wp_yield_alone]
    exact ⟨ht.note (Or.inl rfl), ht.note (Or.inr rfl)⟩
  · cases o <;> exact ht
  · refine .seq (I := Outside) (ensures_outside (fun _ => rfl) p (fun _ ht => ht) fun _ ht => ht)
      fun t ht => ?_
    rw [wp_yield_alone]
    exact ⟨ht.note (Or.inl rfl), ht.note (Or.inr rfl)⟩

theorem ensures_iterations {s : LockCode} (hs : s.Ensures aloneRules Outside fun _ => Outside)
    (iterations : Nat) :
    (Stmt.loop iterations s).Ensures aloneRules Outside fun _ => Outside := by
  intro t ht
  refine Stmt.wp_loop (I := Outside) (fun t ht => ?_) (fun _ ht => ht) iterations ht
  refine s.wp_mono (fun o t' h => ?_) (hs t ht)
  cases o <;> exact h

end Entries

theorem LockEntry.endsOutside {e : LockEntry} (he : e.isDirect = true) :
    e.stmt.Ensures aloneRules Outside fun _ => Outside := by
  cases e with
  | queuedRequest n found known => cases he
  | queuedMessage n found httpChannel known => cases he
  | queuedRegistration k n known => cases he
  | queuedUnregistration n found known => cases he
  | httpCall n found => exact ensures_http n found
  | httpMessage n found httpChannel => exact ensures_httpMessage n found httpChannel
  | httpTeardown n found => exact ensures_deleteFramework n found
  | httpShutdown n found => exact ensures_httpShutdown n found
  | deleteJob k n found => exact ensures_deleteJob k n found
  | generateOffers iterations k m n p =>
    exact ensures_iterations (ensures_offerIteration k m n p) iterations
  | httpGenerateOffers iterations k m n p =>
    exact ensures_iterations (ensures_httpOfferIteration k m n p) iterations

/-- However an entry point ends, its greenlet no longer holds the lock exactly if no
    statement raised, and the generator was not closed, where nothing releases the lock. -/
theorem lock_released_iff (e : LockEntry) (he : e.isDirect = true) (choices : List Bool)
    (o : Outcome) (t : AloneState) (hrun : e.stmt.code.run aloneRules {} choices = some (o, t)) :
    t.lock.owner ≠ some () ↔ Clean t.trace := by
  have hstart : Outside {} := Or.inl ⟨by simp [Clean], rfl⟩
  have hsafe : e.stmt.code.Safe aloneRules (fun _ => Outside) {} := by
    rw [Stmt.code, safe_compile]
    exact LockEntry.endsOutside he {} hstart
  rcases hsafe.run hrun with ⟨hclean, howner⟩ | ⟨hdirty, howner, -⟩
  · rw [howner]
    exact ⟨fun _ => hclean, fun _ => by simp⟩
  · rw [howner]
    exact ⟨fun h => (h rfl).elim, fun h => (hdirty h).elim⟩

/-- An `http_*` method that returns has released the lock. -/
theorem http_returns_released :
    ∃ t, (LockEntry.httpCall 1 true).stmt.code.run aloneRules {} [true, true] = some (.normal, t) ∧
      t.lock.owner ≠ some () := by
  refine ⟨_, rfl, (lock_released_iff (.httpCall 1 true) rfl [true, true] .normal _ rfl).mpr ?_⟩
  intro l hl
  simp [AloneState.note] at hl

/-- An exception in the handler that an `http_*` method calls, and closing
    `http_generate_offers` when it has yielded a heartbeat, leave the framework locked. -/
theorem exception_keeps_lock :
    ((LockEntry.httpCall 1 true).stmt.code.run aloneRules {} [true, false]).map
      (fun r => (r.1, r.2.lock.owner)) = some (.raised, some ()) ∧
    ((LockEntry.httpGenerateOffers 1 0 0 0 0).stmt.code.run aloneRules {} [false]).map
      (fun r => (r.1, r.2.lock.owner)) = some (.closed, some ()) := by
  exact ⟨rfl, rfl⟩

end Urb
