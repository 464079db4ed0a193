import Mathlib
import Urb.ForStd.Run
import Urb.Native.Lock

/-!
# Who releases the lock of a framework

Greenlets that handle requests of one framework are interleaved in any order. The lock
is released by the greenlet that holds it, and is free when nobody works under it, as
long as every request that is going to release the lock has acquired it, and no
statement raises where nothing would release the lock.
-/

namespace Urb

open Function (update update_self update_of_ne)
open Greenlet

/-! ## The service -/

/-- What a greenlet may run. `found` and `known` are what the tracker answers when the
    request is handled and when it is post-processed; the numbers count statements. `httpTeardown`
    is also the deletion of a framework by `delete_channel`, which does the same to the lock. -/
inductive LockEntry where
  | queuedRequest (n : Nat) (found known : Bool)
  | queuedMessage (n : Nat) (found httpChannel known : Bool)
  | queuedRegistration (k n : Nat) (known : Bool)
  | queuedUnregistration (n : Nat) (found known : Bool)
  | httpCall (n : Nat) (found : Bool)
  | httpMessage (n : Nat) (found httpChannel : Bool)
  | httpTeardown (n : Nat) (found : Bool)
  | httpShutdown (n : Nat) (found : Bool)
  | deleteJob (k n : Nat) (found : Bool)
  | generateOffers (iterations k m n p : Nat)
  | httpGenerateOffers (iterations k m n p : Nat)
  deriving DecidableEq, Repr

def LockEntry.stmt : LockEntry → LockCode
  | .queuedRequest n found known => .queued (.handler .request n found) known
  | .queuedMessage n found httpChannel known =>
    .queued (.messageHandler .request n found httpChannel) known
  | .queuedRegistration k n known => .queued (.registration k n) known
  | .queuedUnregistration n found known => .queued (.deleteFramework n found) known
  | .httpCall n found => .http n found
  | .httpMessage n found httpChannel => .httpMessage n found httpChannel
  | .httpTeardown n found => .deleteFramework n found
  | .httpShutdown n found => .httpShutdown n found
  | .deleteJob k n found => .deleteJob k n found
  | .generateOffers iterations k m n p => .generateOffers iterations k m n p
  | .httpGenerateOffers iterations k m n p => .httpGenerateOffers iterations k m n p

variable {G : Type} [DecidableEq G]

/-- The lock of a framework and the greenlets that work on the framework. -/
abbrev LockSystem (G : Type) := System G (FrameworkLock G) LockAction Statement

/-- A greenlet starts an entry point, or takes a step: with `goesOn`, or else the statement
    raises or the generator is closed. -/
inductive LockEvent (G : Type) where
  | start (g : G) (e : LockEntry)
  | step (g : G) (goesOn : Bool)
  deriving DecidableEq, Repr

def LockEvent.move : LockEvent G → Move G LockAction Statement
  | .start g e => .start g e.stmt.code
  | .step g goesOn => .step g goesOn

def lockStep (c : LockSystem G) (e : LockEvent G) : LockSystem G :=
  c.step FrameworkLock.exec e.move

/-- No greenlet does anything and the lock is free. -/
def idle : LockSystem G := ⟨{}, fun _ => .done .normal⟩

/-! ## The discipline -/

/-- The action calls `__release_framework_lock` on behalf of the greenlet. -/
def LockAction.releases (a : LockAction) (g : G) (s : FrameworkLock G) : Bool :=
  match a with
  | .releaseFrameworkLock => true
  | .postprocess known => s.requestFramework g && known
  | _ => false

def codeIsDone : Code LockAction Statement → Bool
  | .done _ => true
  | _ => false

/-- The greenlet is between its acquire and its release. -/
def betweenLock (c : LockSystem G) (g : G) : Bool := c.shared.inside g && !codeIsDone (c.code g)

/-- A release never touches the lock, or the flag, of another greenlet, and the lock is free
    whenever no greenlet is between its acquire and its release. -/
structure LockDiscipline (c : LockSystem G) : Prop where
  own : ∀ g a next raised, c.code g = .act a next raised → a.releases g c.shared →
    c.shared.lockAcquired → ∀ h, c.shared.owner = some h → h = g
  free : (∀ g, betweenLock c g = false) → c.shared.owner = none

/-! ## The condition -/

/-- The statements whose exceptions (or whose closing) separate an acquire from its release:
    nothing releases the lock after them, or the post-processor does although it was not
    acquired. -/
def Statement.mustReturn : Statement → Bool
  | .announce _ => true
  | .updateDb => true
  | .body _ => true
  | .findSlaves _ => true
  | .readWaitTime _ => true
  | .heartbeat => true
  | _ => false

/-- A queued request for which the post-processor finds the framework has acquired the
    lock: the handler found the framework too and, if it passes a message on, the framework
    is not an HTTP one. -/
def LockEntry.LocksFirst : LockEntry → Prop
  | .queuedRequest _ found known => found = known
  | .queuedMessage _ found httpChannel known => (found && !httpChannel) = known
  | .queuedRegistration _ _ known => known = true
  | _ => True

/-- The condition on an event and the system before it. -/
def LocksInOrder (c : LockSystem G) : LockEvent G → Prop
  | .start _ e => e.LocksFirst
  | .step g goesOn => ∀ l next other, c.code g = .choice l next other →
    goesOn = true ∨ l.mustReturn = false

/-! ## What one greenlet does -/

/-- What a greenlet knows: whether it holds the lock, and whether a framework is stored for
    its message. -/
structure LockView where
  held : Bool
  stored : Bool

/-- A greenlet acquires the lock only if it does not hold it, and releases it only if it
    does. -/
def lockRules : Rules LockAction Statement LockView where
  act a t :=
    match a with
    | .receive => some { t with stored := false }
    | .storeRequestFrameworkId => some { t with stored := true }
    | .acquireFrameworkLock => if t.held then none else some { t with held := true }
    | .releaseFrameworkLock => if t.held then some { t with held := false } else none
    | .postprocess known =>
      if t.stored && known then if t.held then some { t with held := false } else none
      else some t
  choose l goesOn t := if goesOn || !l.mustReturn then some t else none

/-- At its end a greenlet does not hold the lock. -/
def lockPost (_ : Outcome) (t : LockView) : Prop := t.held = false

section Wp

variable {Q : Outcome → LockView → Prop} {t : LockView}

variable {l : Statement} (k n : Nat) (found : Bool)

theorem wp_work_mustReturn (hl : l.mustReturn = true) (h : Q .normal t) :
    (Stmt.work l : LockCode).wp lockRules Q t := by
  refine ⟨fun t' ht' => ?_, fun t' ht' => ?_⟩
  · simp only [lockRules, Bool.true_or, if_true, Option.some.injEq] at ht'
    exact ht' ▸ h
  · simp [lockRules, hl] at ht'

theorem wp_work (h : Q .normal t) (hr : Q .raised t) :
    (Stmt.work l : LockCode).wp lockRules Q t := by
  refine ⟨fun t' ht' => ?_, fun t' ht' => ?_⟩
  · simp only [lockRules, Bool.true_or, if_true, Option.some.injEq] at ht'
    exact ht' ▸ h
  · simp only [lockRules, Bool.false_or] at ht'
    split at ht'
    · exact Option.some.inj ht' ▸ hr
    · cases ht'

theorem wp_yield_mustReturn (hl : l.mustReturn = true) (h : Q .normal t) :
    (Stmt.yield l : LockCode).wp lockRules Q t :=
  wp_work_mustReturn (Q := onRaised (Q .closed) Q) hl h

theorem wp_statements_mustReturn {l : Nat → Statement} (hl : ∀ i, (l i).mustReturn = true) (n : Nat)
    (h : Q .normal t) : (LockCode.statements l n).wp lockRules Q t := by
  rw [LockCode.statements]
  generalize List.range n = is
  induction is with
  | nil => exact h
  | cons i is ih => exact wp_work_mustReturn (hl i) ih

theorem wp_statements (l : Nat → Statement) (n : Nat) (h : Q .normal t) (hr : Q .raised t) :
    (LockCode.statements l n).wp lockRules Q t := by
  rw [LockCode.statements]
  generalize List.range n = is
  induction is with
  | nil => exact h
  | cons i is ih => exact wp_work ih hr

theorem wp_yield (h : Q .normal t) (hc : Q .closed t) :
    (Stmt.yield l : LockCode).wp lockRules Q t :=
  wp_work (Q := onRaised (Q .closed) Q) h hc

theorem wp_acquire (ht : t.held = false) (h : Q .normal { t with held := true }) :
    LockCode.acquire.wp lockRules Q t :=
  ⟨_, by simp only [lockRules, ht, Bool.false_eq_true, if_false], h⟩

theorem wp_release (ht : t.held = true) (h : Q .normal { t with held := false }) :
    LockCode.release.wp lockRules Q t :=
  ⟨_, by simp only [lockRules, ht, if_true], h⟩

theorem wp_store (h : Q .normal { t with stored := true }) :
    (Stmt.act .storeRequestFrameworkId : LockCode).wp lockRules Q t :=
  ⟨_, rfl, h⟩

/-! ### Handlers -/

/-- After a handler the lock is held exactly if the post-processor is going to release it. -/
def Handled (known : Bool) (o : Outcome) (t : LockView) : Prop :=
  o ≠ .closed ∧ t.held = (t.stored && known)

theorem wp_handler (ht : t.held = false) (hs : t.stored = false) :
    (LockCode.handler .request n found).wp lockRules (Handled found) t := by
  refine wp_work ?_ ⟨nofun, by rw [ht, hs]; rfl⟩
  refine wp_store ?_
  cases found with
  | true => exact wp_acquire ht (wp_statements _ n ⟨nofun, rfl⟩ ⟨nofun, rfl⟩)
  | false => exact wp_work ⟨nofun, ht⟩ ⟨nofun, ht⟩

theorem wp_messageHandler (httpChannel : Bool) (ht : t.held = false) (hs : t.stored = false) :
    (LockCode.messageHandler .request n found httpChannel).wp lockRules
      (Handled (found && !httpChannel)) t := by
  refine wp_work ?_ ⟨nofun, by rw [ht, hs]; rfl⟩
  refine wp_store ?_
  cases found with
  | true =>
    cases httpChannel with
    | true => exact wp_work ⟨nofun, ht⟩ ⟨nofun, ht⟩
    | false => exact wp_acquire ht (wp_statements _ n ⟨nofun, rfl⟩ ⟨nofun, rfl⟩)
  | false => exact wp_work ⟨nofun, ht⟩ ⟨nofun, ht⟩

theorem wp_registration (ht : t.held = false) (hs : t.stored = false) :
    (LockCode.registration k n).wp lockRules (Handled true) t := by
  refine wp_work ?_ ⟨nofun, by rw [ht, hs]; rfl⟩
  refine wp_store ?_
  -- the framework must be answered, for the post-processor will release the lock
  refine wp_statements_mustReturn (fun _ => rfl) k ?_
  exact wp_acquire ht (wp_statements _ n ⟨nofun, rfl⟩ ⟨nofun, rfl⟩)

theorem wp_guarded {s : LockCode} (ht : t.held = true)
    (hs : s.wp lockRules (fun o t' => t' = t ∧ Q o { t with held := false }) t) :
    (Stmt.tryFinally s LockCode.release).wp lockRules Q t := by
  refine s.wp_mono (fun o t' h => ?_) hs
  obtain ⟨rfl, hQ⟩ := h
  exact wp_release ht hQ

theorem wp_deleteFramework (ht : t.held = false) (h : Q .normal t) (hr : Q .raised t) :
    (LockCode.deleteFramework n found).wp lockRules Q t := by
  have hback : { t with held := false } = t := by rw [← ht]
  cases found with
  | false => exact wp_work h hr
  | true =>
    refine wp_acquire ht (wp_guarded rfl ?_)
    exact wp_statements _ n ⟨rfl, by rw [hback]; exact h⟩ ⟨rfl, by rw [hback]; exact hr⟩

/-! ### Entry points -/

theorem wp_queued {h : LockCode} {known : Bool} (ht : t.held = false)
    (hh : ∀ t : LockView, t.held = false → t.stored = false → h.wp lockRules (Handled known) t) :
    (LockCode.queued h known).wp lockRules lockPost t := by
  refine ⟨{ t with stored := false }, rfl, ?_⟩
  refine h.wp_mono (fun o t' hhandled => ?_) (hh { t with stored := false } ht rfl)
  obtain ⟨hclosed, hheld⟩ := hhandled
  have hpost : (Stmt.tryExcept (.seq (.work .updateDb) (.act (.postprocess known))) .skip :
      LockCode).wp lockRules lockPost t' := by
    refine wp_work_mustReturn rfl ?_
    by_cases hrel : (t'.stored && known) = true
    · rw [hrel] at hheld
      exact ⟨{ t' with held := false }, by simp only [lockRules, hrel, hheld, if_true], rfl⟩
    · refine ⟨t', by simp only [lockRules, hrel]; rfl, ?_⟩
      exact hheld.trans (by simpa using hrel)
  cases o with
  | normal => exact hpost
  | raised => exact hpost
  | closed => exact (hclosed rfl).elim

theorem wp_http (ht : t.held = false) : (LockCode.http n found).wp lockRules lockPost t := by
  refine wp_work ?_ ht
  refine wp_store ?_
  cases found with
  | true => exact wp_acquire ht (wp_statements_mustReturn (fun _ => rfl) n (wp_release rfl rfl))
  | false => exact wp_work ht ht

theorem wp_httpMessage (httpChannel : Bool) (ht : t.held = false) :
    (LockCode.httpMessage n found httpChannel).wp lockRules lockPost t := by
  refine wp_work ?_ ht
  refine wp_store ?_
  cases found with
  | true =>
    cases httpChannel with
    | true => exact wp_work ht ht
    | false => exact wp_acquire ht (wp_statements_mustReturn (fun _ => rfl) n (wp_release rfl rfl))
  | false => exact wp_work ht ht

theorem wp_httpShutdown (ht : t.held = false) :
    (LockCode.httpShutdown n found).wp lockRules lockPost t := by
  cases found with
  | true => exact wp_acquire ht (wp_guarded rfl (wp_statements _ n ⟨rfl, rfl⟩ ⟨rfl, rfl⟩))
  | false => exact wp_work ht ht

theorem wp_deleteJob (ht : t.held = false) :
    (LockCode.deleteJob k n found).wp lockRules lockPost t := by
  cases found with
  | true =>
    refine wp_acquire ht (wp_statements_mustReturn (fun _ => rfl) k ?_)
    exact wp_guarded rfl (wp_statements _ n ⟨rfl, rfl⟩ ⟨rfl, rfl⟩)
  | false => exact wp_work ht ht

theorem wp_generateOffers (iterations k m n p : Nat) (ht : t.held = false) :
    (LockCode.generateOffers iterations k m n p).wp lockRules lockPost t := by
  -- no iteration ends with the lock
  refine Stmt.wp_loop (I := fun t => t.held = false) (fun t ht => ?_) (fun t ht => ht) iterations ht
  refine wp_statements _ k ?_ ht
  refine wp_acquire ht (wp_statements_mustReturn (fun _ => rfl) m ?_)
  refine wp_guarded rfl (wp_statements _ n ⟨rfl, ?_⟩ ⟨rfl, ?_⟩)
  all_goals exact wp_statements _ p rfl rfl

theorem wp_httpGenerateOffers (iterations k m n p : Nat) (ht : t.held = false) :
    (LockCode.httpGenerateOffers iterations k m n p).wp lockRules lockPost t := by
  refine Stmt.wp_loop (I := fun t => t.held = false) (fun t ht => ?_) (fun t ht => ht) iterations ht
  refine wp_statements _ k ?_ ht
  refine wp_acquire ht (wp_statements_mustReturn (fun _ => rfl) m ?_)
  refine wp_yield_mustReturn rfl (wp_guarded rfl ?_)
  refine wp_statements _ n (wp_yield ⟨rfl, ?_⟩ ⟨rfl, rfl⟩) ⟨rfl, ?_⟩
  all_goals exact wp_statements _ p (wp_yield rfl rfl) rfl

/-- Every entry point that acquires the lock first, when the post-processor is to release it,
    gives the lock back. -/
theorem LockEntry.wp_stmt {e : LockEntry} (he : e.LocksFirst) (ht : t.held = false) :
    e.stmt.wp lockRules lockPost t := by
  cases e with
  | queuedRequest n found known =>
    obtain rfl : found = known := he
    exact wp_queued ht fun t ht hs => wp_handler n found ht hs
  | queuedMessage n found httpChannel known =>
    obtain rfl : (found && !httpChannel) = known := he
    exact wp_queued ht fun t ht hs => wp_messageHandler n found httpChannel ht hs
  | queuedRegistration k n known =>
    obtain rfl : known = true := he
    exact wp_queued ht fun t ht hs => wp_registration k n ht hs
  | queuedUnregistration n found known =>
    refine wp_queued ht fun t ht hs => wp_deleteFramework n found ht ?_ ?_
    all_goals exact ⟨nofun, by rw [ht, hs]; rfl⟩
  | httpCall n found => exact wp_http n found ht
  | httpMessage n found httpChannel => exact wp_httpMessage n found httpChannel ht
  | httpTeardown n found => exact wp_deleteFramework n found ht ht ht
  | httpShutdown n found => exact wp_httpShutdown n found ht
  | deleteJob k n found => exact wp_deleteJob k n found ht
  | generateOffers iterations k m n p => exact wp_generateOffers iterations k m n p ht
  | httpGenerateOffers iterations k m n p => exact wp_httpGenerateOffers iterations k m n p ht

end Wp

/-! ## What all greenlets do -/

/-- The lock is as the greenlets think it is. -/
structure LockFits (s : FrameworkLock G) (t : G → LockView) : Prop where
  owner : ∀ g, s.owner = some g ↔ (t g).held = true
  flag : s.lockAcquired = s.owner.isSome
  count : s.owner.isSome → s.count = 1
  stored : ∀ g, s.requestFramework g = (t g).stored
  inside : ∀ g, s.inside g = (t g).held

namespace LockFits

variable {s : FrameworkLock G} {t : G → LockView} {g : G}

theorem store (h : LockFits s t) (g : G) (b : Bool) :
    LockFits { s with requestFramework := update s.requestFramework g b }
      (update t g { t g with stored := b }) where
  owner g' := by
    rw [h.owner g']
    by_cases hg : g' = g
    · subst hg; rw [update_self]
    · rw [update_of_ne hg]
  flag := h.flag
  count := h.count
  stored g' := by
    by_cases hg : g' = g
    · subst hg; simp only [update_self]
    · simp only [update_of_ne hg]; exact h.stored g'
  inside g' := by
    by_cases hg : g' = g
    · subst hg; rw [update_self]; exact h.inside g'
    · rw [update_of_ne hg]; exact h.inside g'

theorem acquire (h : LockFits s t) (hg : (t g).held = false) :
    (s.acquireFrameworkLock g).Returns fun s' =>
      LockFits s' (update t g { t g with held := true }) := by
  rw [FrameworkLock.acquireFrameworkLock]
  cases howner : s.owner with
  | some g' =>
    have hne : g' ≠ g := by
      rintro rfl
      rw [(h.owner g').mp howner] at hg
      cases hg
    simp only [hne, if_false, Effect.Returns]
  | none =>
    have hfree : ∀ g', (t g').held = false := by
      intro g'
      have := h.owner g'
      rw [howner] at this
      simpa using this
    refine ⟨fun g' => ?_, rfl, fun _ => rfl, fun g' => ?_, fun g' => ?_⟩
    · by_cases hg' : g' = g
      · subst hg'; simp only [update_self]
      · simp only [update_of_ne hg', hfree g', Option.some.injEq]
        exact ⟨fun heq => (hg' heq.symm).elim, nofun⟩
    · by_cases hg' : g' = g
      · subst hg'; simp only [update_self]; exact h.stored g'
      · simp only [update_of_ne hg']; exact h.stored g'
    · by_cases hg' : g' = g
      · subst hg'; simp only [update_self]
      · simp only [update_of_ne hg']; exact h.inside g'

theorem release (h : LockFits s t) (hg : (t g).held = true) :
    (s.releaseFrameworkLock g).Returns fun s' =>
      LockFits s' (update t g { t g with held := false }) := by
  have howner : s.owner = some g := (h.owner g).mpr hg
  have hflag : s.lockAcquired = true := by rw [h.flag, howner]; rfl
  have hcount : s.count = 1 := h.count (by rw [howner]; rfl)
  have hothers : ∀ g', g' ≠ g → (t g').held = false := by
    intro g' hne
    have hiff := h.owner g'
    rw [howner, Option.some.injEq] at hiff
    cases hheld : (t g').held with
    | false => rfl
    | true => exact (hne (hiff.mpr hheld).symm).elim
  simp only [FrameworkLock.releaseFrameworkLock, hflag, howner, hcount, if_true]
  refine ⟨fun g' => ?_, rfl, by simp, fun g' => ?_, fun g' => ?_⟩
  · by_cases hg' : g' = g
    · subst hg'; simp only [update_self]; simp
    · simp only [update_of_ne hg', hothers g' hg']; simp
  · by_cases hg' : g' = g
    · subst hg'; simp only [update_self]; exact h.stored g'
    · simp only [update_of_ne hg']; exact h.stored g'
  · by_cases hg' : g' = g
    · subst hg'; simp only [update_self]
    · simp only [update_of_ne hg']; exact h.inside g'

theorem exec {a : LockAction} {t' : LockView} (h : LockFits s t)
    (ha : lockRules.act a (t g) = some t') :
    (s.exec g a).Returns fun s' => LockFits s' (update t g t') := by
  cases a with
  | receive =>
    cases ha
    exact h.store g false
  | storeRequestFrameworkId =>
    cases ha
    exact h.store g true
  | acquireFrameworkLock =>
    simp only [lockRules] at ha
    split at ha
    · cases ha
    · rename_i hheld
      cases ha
      exact h.acquire (by simpa using hheld)
  | releaseFrameworkLock =>
    simp only [lockRules] at ha
    split at ha
    · rename_i hheld
      cases ha
      exact h.release hheld
    · cases ha
  | postprocess known =>
    simp only [lockRules] at ha
    simp only [FrameworkLock.exec, h.stored g]
    split at ha
    · rename_i hrel
      split at ha
      · rename_i hheld
        cases ha
        rw [if_pos hrel]
        exact h.release hheld
      · cases ha
    · rename_i hrel
      cases ha
      rw [if_neg hrel, Function.update_eq_self]
      exact h

end LockFits

theorem coherent_lockStep {c : LockSystem G} {e : LockEvent G}
    (hc : c.Coherent lockRules lockPost LockFits) (he : LocksInOrder c e) :
    (lockStep c e).Coherent lockRules lockPost LockFits := by
  refine hc.step (C := fun l goesOn => goesOn = true ∨ l.mustReturn = false)
    (fun s t g a t' h ha => h.exec ha) (fun l b x hok => ?_) ?_
  · rcases hok with rfl | hl
    · simp [lockRules]
    · simp [lockRules, hl]
  · cases e with
    | start g entry =>
      intro o t ht
      show entry.stmt.code.Safe lockRules lockPost t
      rw [Stmt.code, safe_compile]
      exact LockEntry.wp_stmt he ht
    | step g goesOn => exact he

omit [DecidableEq G] in
theorem lockDiscipline_of_coherent {c : LockSystem G}
    (hc : c.Coherent lockRules lockPost LockFits) : LockDiscipline c := by
  obtain ⟨t, hfits, hsafe⟩ := hc
  constructor
  · intro g a next raised hcode hrel _ h howner
    -- the rules let only the holder release the lock
    have hg := hsafe g
    rw [hcode] at hg
    obtain ⟨t', ht', -⟩ := hg
    have hheld : (t g).held = true := by
      cases a with
      | releaseFrameworkLock =>
        simp only [lockRules] at ht'
        split at ht'
        · assumption
        · cases ht'
      | postprocess known =>
        simp only [LockAction.releases, hfits.stored g] at hrel
        simp only [lockRules, hrel, if_true] at ht'
        split at ht'
        · assumption
        · cases ht'
      | receive => cases hrel
      | storeRequestFrameworkId => cases hrel
      | acquireFrameworkLock => cases hrel
    have hown := (hfits.owner g).mpr hheld
    rw [howner] at hown
    exact Option.some.inj hown
  · intro hnone
    cases howner : c.shared.owner with
    | none => rfl
    | some g =>
      -- the owner is inside, so that it must have ended, without the lock
      have hheld := (hfits.owner g).mp howner
      have hbetween := hnone g
      rw [betweenLock, hfits.inside g, hheld, Bool.true_and, Bool.not_eq_false'] at hbetween
      have hg := hsafe g
      cases hcode : c.code g with
      | done o =>
        rw [hcode] at hg
        have hpost : (t g).held = false := hg
        rw [hheld] at hpost
        cases hpost
      | act a next raised => rw [hcode] at hbetween; cases hbetween
      | choice l next other => rw [hcode] at hbetween; cases hbetween

/-- Requests that lock in order keep the discipline, however they are interleaved. -/
theorem lock_discipline (events : List (LockEvent G))
    (h : Run.Meets lockStep LocksInOrder idle events) :
    LockDiscipline (events.foldl lockStep (idle : LockSystem G)) := by
  have hidle : (idle : LockSystem G).Coherent lockRules lockPost LockFits :=
    ⟨fun _ => ⟨false, false⟩, ⟨fun _ => ⟨nofun, nofun⟩, rfl, nofun, fun _ => rfl, fun _ => rfl⟩,
      fun _ => rfl⟩
  exact lockDiscipline_of_coherent
    (Run.invariant (fun _ _ hc he => coherent_lockStep hc he) hidle h)

namespace Sample

/-- The first greenlet handles a queued request of the framework up to a statement under
    the lock. -/
def requestUnderLock : List (LockEvent (Fin 2)) :=
  [.start 0 (.queuedRequest 1 true true), .step 0 true, .step 0 true, .step 0 true, .step 0 true]

/-- It then finishes the request. -/
def requestFinished : List (LockEvent (Fin 2)) := [.step 0 true, .step 0 true, .step 0 true]

/-- The second greenlet handles another request up to the acquisition of the lock, and waits. -/
def secondRequest : List (LockEvent (Fin 2)) :=
  [.start 1 (.queuedRequest 1 true true), .step 1 true, .step 1 true, .step 1 true, .step 1 true]

/-- The second greenlet goes on to the end. -/
def secondFinished : List (LockEvent (Fin 2)) :=
  [.step 1 true, .step 1 true, .step 1 true, .step 1 true, .step 1 true]

/-- The second greenlet handles a message that is passed on to an HTTP framework. -/
def messagePassedOn : List (LockEvent (Fin 2)) :=
  [.start 1 (.queuedMessage 0 true true true), .step 1 true, .step 1 true, .step 1 true,
    .step 1 true, .step 1 true, .step 1 true]

end Sample

/-- Two requests overlap: the second one waits for the lock while the first one holds it, and both
    end with the lock free. -/
theorem lock_discipline_request :
    let c := (Sample.requestUnderLock ++ Sample.secondRequest ++ Sample.requestFinished ++
      Sample.secondFinished).foldl lockStep idle
    (∀ g, codeIsDone (c.code g)) ∧ c.shared.owner = none ∧ LockDiscipline c := by
  refine ⟨by decide, by decide, lock_discipline _ ?_⟩
  have hgo : ∀ (c : LockSystem (Fin 2)) g, LocksInOrder c (.step g true) :=
    fun _ _ _ _ _ _ => Or.inl rfl
  exact ⟨rfl, hgo _ _, hgo _ _, hgo _ _, hgo _ _, rfl, hgo _ _, hgo _ _, hgo _ _, hgo _ _,
    hgo _ _, hgo _ _, hgo _ _, hgo _ _, hgo _ _, hgo _ _, hgo _ _, hgo _ _, trivial⟩

/-- A message is passed on to an HTTP framework while another request works under the lock.
    The post-processor of the message clears the flag of the lock, and the post-processor of
    the request then leaves the lock as it is: both are done, and the lock stays locked. -/
theorem http_message_breaks_lock :
    let c := (Sample.requestUnderLock ++ Sample.messagePassedOn ++ Sample.requestFinished).foldl
      lockStep idle
    (∀ g, codeIsDone (c.code g)) ∧ c.shared.owner = some 0 ∧ ¬LockDiscipline c := by
  refine ⟨by decide, by decide, fun h => ?_⟩
  have hfree := h.free (by decide)
  revert hfree
  decide

end Urb
